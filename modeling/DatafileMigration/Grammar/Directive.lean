import DatafileMigration.Datafile.Directive
import DatafileMigration.Datafile.Value
import DatafileMigration.Grammar.Error

namespace DatafileMigration.Grammar

open Datafile

/-- The lines of a directive that must be a block. -/
def requireBlock (d : Directive) : Parse (List Text) :=
  match d.body with
  | .block lines => .ok lines
  | .inline _ => refuse (.blockRequired d.keyword)

/-- The value of a directive that must not be a block. -/
def requireInline (d : Directive) : Parse Text :=
  match d.body with
  | .inline value => .ok value
  | .block _ => refuse (.inlineRequired d.keyword)

/-- The value of such a directive without quotes around it. -/
def requireUnquoted (d : Directive) : Parse Text := (requireInline d).map unquote

/-- The lines of a description, or its value without quotes around it. -/
def descriptionText (d : Directive) : Text :=
  if d.isBlock then d.text else unquote d.value

/-- The engine's options that are one text. -/
inductive EngineText where
  | partitionKey
  | ttl
  | ver
  | isDeleted
  | sign
  | version
  deriving DecidableEq, Repr

/-- The engine's options that are a list of keys. -/
inductive EngineKeys where
  | sortingKey
  | primaryKey
  | summingColumns
  deriving DecidableEq, Repr

/-- The parts of ingestion from a topic that are one text. -/
inductive TopicPart where
  | connectionName
  | topic
  | groupId
  deriving DecidableEq, Repr

/-- The parts of ingestion from a bucket. -/
inductive BucketPart where
  | connectionName
  | bucketUri
  | schedule
  | fromTimestamp
  deriving DecidableEq, Repr

inductive DatasourceKeyword where
  | description
  | schema
  | forwardQuery
  | sharedWith
  | engine
  | engineText (option : EngineText)
  | engineKeys (option : EngineKeys)
  | engineSettings
  | topic (part : TopicPart)
  | offsetReset
  | storeRawValue
  | bucket (part : BucketPart)
  | token
  deriving DecidableEq, Repr

inductive PipeKeyword where
  | description
  | node
  | sql
  | type
  | cache
  | datasource
  | deploymentMethod
  | targetDatasource
  | copySchedule
  | copyMode
  | token
  deriving DecidableEq, Repr

/-- The fields of a connection to a broker. -/
inductive BrokerPart where
  | bootstrapServers
  | securityProtocol
  | saslMechanism
  | key
  | secret
  | schemaRegistryUrl
  | sslCaPem
  deriving DecidableEq, Repr

/-- The fields of a connection to a store of buckets. -/
inductive StorePart where
  | region
  | arn
  | accessKey
  | secret
  deriving DecidableEq, Repr

inductive ConnectionKeyword where
  | type
  | broker (part : BrokerPart)
  | store (part : StorePart)
  deriving DecidableEq, Repr

def datasourceKeywords : List (Text × DatasourceKeyword) :=
  [("DESCRIPTION", .description), ("SCHEMA", .schema), ("FORWARD_QUERY", .forwardQuery),
   ("SHARED_WITH", .sharedWith), ("ENGINE", .engine),
   ("ENGINE_PARTITION_KEY", .engineText .partitionKey), ("ENGINE_TTL", .engineText .ttl),
   ("ENGINE_VER", .engineText .ver), ("ENGINE_IS_DELETED", .engineText .isDeleted),
   ("ENGINE_SIGN", .engineText .sign), ("ENGINE_VERSION", .engineText .version),
   ("ENGINE_SORTING_KEY", .engineKeys .sortingKey),
   ("ENGINE_PRIMARY_KEY", .engineKeys .primaryKey),
   ("ENGINE_SUMMING_COLUMNS", .engineKeys .summingColumns),
   ("ENGINE_SETTINGS", .engineSettings),
   ("KAFKA_CONNECTION_NAME", .topic .connectionName), ("KAFKA_TOPIC", .topic .topic),
   ("KAFKA_GROUP_ID", .topic .groupId), ("KAFKA_AUTO_OFFSET_RESET", .offsetReset),
   ("KAFKA_STORE_RAW_VALUE", .storeRawValue),
   ("IMPORT_CONNECTION_NAME", .bucket .connectionName),
   ("IMPORT_BUCKET_URI", .bucket .bucketUri), ("IMPORT_SCHEDULE", .bucket .schedule),
   ("IMPORT_FROM_TIMESTAMP", .bucket .fromTimestamp), ("TOKEN", .token)]

def pipeKeywords : List (Text × PipeKeyword) :=
  [("DESCRIPTION", .description), ("NODE", .node), ("SQL", .sql), ("TYPE", .type),
   ("CACHE", .cache), ("DATASOURCE", .datasource), ("DEPLOYMENT_METHOD", .deploymentMethod),
   ("TARGET_DATASOURCE", .targetDatasource), ("COPY_SCHEDULE", .copySchedule),
   ("COPY_MODE", .copyMode), ("TOKEN", .token)]

def connectionKeywords : List (Text × ConnectionKeyword) :=
  [("TYPE", .type), ("KAFKA_BOOTSTRAP_SERVERS", .broker .bootstrapServers),
   ("KAFKA_SECURITY_PROTOCOL", .broker .securityProtocol),
   ("KAFKA_SASL_MECHANISM", .broker .saslMechanism), ("KAFKA_KEY", .broker .key),
   ("KAFKA_SECRET", .broker .secret), ("KAFKA_SCHEMA_REGISTRY_URL", .broker .schemaRegistryUrl),
   ("KAFKA_SSL_CA_PEM", .broker .sslCaPem), ("S3_REGION", .store .region),
   ("S3_ARN", .store .arn), ("S3_ACCESS_KEY", .store .accessKey),
   ("S3_SECRET", .store .secret)]

/-- The keyword that a text spells, by a table. -/
def keyword? {α : Type} (table : List (Text × α)) (t : Text) : Option α :=
  (table.find? (·.1 = t)).map (·.2)

/-- The spellings that a kind of file knows. -/
def knownKeywords : Kind → List Text
  | .datasource => datasourceKeywords.map (·.1)
  | .pipe => pipeKeywords.map (·.1)
  | .connection => connectionKeywords.map (·.1)

/-- The directives that a kind of file knows. -/
def knownDirectives (kind : Kind) (ds : List Directive) : List Directive :=
  ds.filter fun d => (knownKeywords kind).contains d.keyword

def unknownDirectives (kind : Kind) (ds : List Directive) : List Directive :=
  ds.filter fun d => !(knownKeywords kind).contains d.keyword

end DatafileMigration.Grammar
