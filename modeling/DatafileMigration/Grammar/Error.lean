import DatafileMigration.Resource.Violation

namespace DatafileMigration.Grammar

/-- Why a datafile does not parse. -/
inductive Cause where
  | unsupportedDirectives (kind : Kind) (sources : List Text)
  | blockRequired (keyword : Text)
  | inlineRequired (keyword : Text)
  | emptyBlock (keyword : Text)
  | schemaRequired
  | engineRequired
  | sortingKeyRequired
  | kafkaIncomplete
  | importIncomplete
  | mixedIngestion
  | columnWithoutRest (definition : Text)
  | columnWithoutName (definition : Text)
  | columnWithoutType (definition : Text)
  | settingWithoutValue (part : Text)
  | settingWithoutKey (part : Text)
  | settingValue (value : Text)
  | offsetReset (value : Text)
  | storeRawValue (value : Text)
  | tokenLine (value : Text)
  | emptyToken
  | tokenSyntax (value : Text)
  | datasourceScope (scope : Text)
  | pipeScope (scope : Text)
  | nodeWithoutName
  | nodeWithoutSql (node : Text)
  | duplicateNode (node : Text)
  | sqlWithoutNode
  | emptySql (node : Text)
  | markerWithoutSql (node : Text)
  | looseDescription
  | pipeType (value : Text)
  | cache (value : Text)
  | deploymentMethod (value : Text)
  | copyMode (value : Text)
  | nodeRequired
  | cacheWithoutEndpoint
  | materializedTarget
  | copyTarget
  | parameter (e : Template.ParameterError)
  | typeRequired
  | connectionType (value : Text)
  | s3InKafka
  | kafkaInS3
  | bootstrapRequired
  | securityProtocol (value : Text)
  | saslMechanism (value : Text)
  | regionRequired
  | credentialsRequired
  | credentialsUnpaired
  | invalid (kind : Kind) (violations : List Violation)
  deriving DecidableEq, Repr

namespace Cause

def inQuotes (t : Text) : Text := "\"" ++ t ++ "\""

def message : Cause → Text
  | .unsupportedDirectives kind sources =>
    "Unsupported " ++ kind.text ++ (if sources.length > 1 then " directives" else " directive")
      ++ " in strict mode: " ++ Text.join ", " (sources.map inQuotes)
  | .blockRequired keyword => keyword ++ " must be a block (" ++ keyword ++ " >)."
  | .inlineRequired keyword => keyword ++ " does not accept a block value."
  | .emptyBlock keyword => keyword ++ " block is empty."
  | .schemaRequired => "SCHEMA block is required."
  | .engineRequired => "ENGINE directive is required."
  | .sortingKeyRequired => "ENGINE_SORTING_KEY directive is required."
  | .kafkaIncomplete =>
    "KAFKA_CONNECTION_NAME and KAFKA_TOPIC are required when Kafka directives are used."
  | .importIncomplete =>
    "IMPORT_CONNECTION_NAME and IMPORT_BUCKET_URI are required when import directives are used."
  | .mixedIngestion => "Datasource cannot mix Kafka directives with import directives."
  | .columnWithoutRest definition => "Invalid schema column definition: " ++ inQuotes definition
  | .columnWithoutName definition => "Invalid schema column name: " ++ inQuotes definition
  | .columnWithoutType definition => "Missing type in schema column: " ++ inQuotes definition
  | .settingWithoutValue part => "Invalid ENGINE_SETTINGS part: " ++ inQuotes part
  | .settingWithoutKey part => "Invalid ENGINE_SETTINGS key in " ++ inQuotes part
  | .settingValue value => "Unsupported ENGINE_SETTINGS value: " ++ inQuotes value
  | .offsetReset value => "Invalid KAFKA_AUTO_OFFSET_RESET value: " ++ inQuotes value
  | .storeRawValue value => "Invalid KAFKA_STORE_RAW_VALUE value: " ++ inQuotes value
  | .tokenLine value => "Invalid TOKEN line: " ++ inQuotes value
  | .emptyToken => "Invalid TOKEN line."
  | .tokenSyntax value => "Unsupported TOKEN syntax in strict mode: " ++ inQuotes value
  | .datasourceScope scope => "Unsupported datasource token scope: " ++ inQuotes scope
  | .pipeScope scope => "Unsupported pipe token scope: " ++ inQuotes scope
  | .nodeWithoutName => "NODE directive requires a name."
  | .nodeWithoutSql node => "Node " ++ inQuotes node ++ " is missing SQL > block."
  | .duplicateNode node => "Duplicate node name: " ++ inQuotes node
  | .sqlWithoutNode => "SQL block must follow a NODE directive."
  | .emptySql node => "Node " ++ inQuotes node ++ " has an empty SQL block."
  | .markerWithoutSql node => "Node " ++ inQuotes node ++ " has SQL marker '%' but no SQL body."
  | .looseDescription => "DESCRIPTION block is not attached to a node or pipe header."
  | .pipeType value => "Unsupported TYPE value in strict mode: " ++ inQuotes value
  | .cache value => "Invalid CACHE value: " ++ inQuotes value
  | .deploymentMethod value => "Unsupported DEPLOYMENT_METHOD: " ++ inQuotes value
  | .copyMode value => "Unsupported COPY_MODE: " ++ inQuotes value
  | .nodeRequired => "At least one NODE is required."
  | .cacheWithoutEndpoint => "CACHE is only supported for TYPE endpoint."
  | .materializedTarget => "DATASOURCE is required for TYPE MATERIALIZED."
  | .copyTarget => "TARGET_DATASOURCE is required for TYPE COPY."
  | .parameter e => e.message
  | .typeRequired => "TYPE directive is required."
  | .connectionType value => "Unsupported connection type in strict mode: " ++ inQuotes value
  | .s3InKafka => "S3 directives are not valid for kafka connections."
  | .kafkaInS3 => "Kafka directives are not valid for s3 connections."
  | .bootstrapRequired => "KAFKA_BOOTSTRAP_SERVERS is required for kafka connections."
  | .securityProtocol value => "Unsupported KAFKA_SECURITY_PROTOCOL: " ++ inQuotes value
  | .saslMechanism value => "Unsupported KAFKA_SASL_MECHANISM: " ++ inQuotes value
  | .regionRequired => "S3_REGION is required for s3 connections."
  | .credentialsRequired =>
    "S3 connections require S3_ARN or both S3_ACCESS_KEY and S3_SECRET."
  | .credentialsUnpaired => "S3_ACCESS_KEY and S3_SECRET must be provided together."
  | .invalid kind violations =>
    "Invalid " ++ kind.text ++ " definition: " ++ Violation.messages violations

end Cause

/-- A step of a grammar: it may refuse the file or break down. -/
abbrev Parse (α : Type) := Except (Fault Cause) α

def refuse {α : Type} (cause : Cause) : Parse α := .error (.refused cause)

end DatafileMigration.Grammar
