import DatafileMigration.Resource.Basic

namespace DatafileMigration

/-- A condition that a resource, or a record of its fields, does not meet. -/
inductive Violation where
  | emptyText
  | emptyList
  | missingField
  | unexpectedField
  | notAmong (choices : List Text)
  | wrongType (expected : Text)
  | notFinite
  | mixedIngestion
  | materializedTarget
  | copyTarget
  | s3Credentials
  deriving DecidableEq, Repr

namespace Violation

/-- Choices in single quotes, the last two joined by `or`. -/
def listChoices : List Text → Text
  | [] => []
  | [a] => "'" ++ a ++ "'"
  | [a, b] => "'" ++ a ++ "' or '" ++ b ++ "'"
  | a :: rest => "'" ++ a ++ "', " ++ listChoices rest

def message : Violation → Text
  | .emptyText => "String should have at least 1 character"
  | .emptyList => "List should have at least 1 item after validation, not 0"
  | .missingField => "Field required"
  | .unexpectedField => "Extra inputs are not permitted"
  | .notAmong choices => "Input should be " ++ listChoices choices
  | .wrongType expected => "Input should be a valid " ++ expected
  | .notFinite => "Input should be a finite number"
  | .mixedIngestion => "Value error, Datasource cannot mix Kafka and S3 ingestion"
  | .materializedTarget => "Value error, materialized pipes require a target datasource"
  | .copyTarget => "Value error, copy pipes require a target datasource"
  | .s3Credentials =>
    "Value error, S3 connections require an ARN or an access key and secret"

def messages (vs : List Violation) : Text := Text.join "; " (vs.map message)

end Violation

/-- Whether an optional text says something. -/
def isFilled (t : Option Text) : Bool := t.getD [] ≠ []

def emptyTextOf (t : Text) : List Violation := if t = [] then [.emptyText] else []

namespace Datasource

def fieldViolations (d : Datasource) : List Violation :=
  emptyTextOf d.name
    ++ (d.kafka.elim [] fun k => emptyTextOf k.connection ++ emptyTextOf k.topic)
    ++ (d.s3.elim [] fun s => emptyTextOf s.connection ++ emptyTextOf s.bucketUri)

/-- What holds between fields. -/
def jointViolations (d : Datasource) : List Violation :=
  if d.kafka.isSome && d.s3.isSome then [.mixedIngestion] else []

end Datasource

namespace Pipe

def fieldViolations (p : Pipe) : List Violation :=
  emptyTextOf p.name ++ if p.nodes = [] then [.emptyList] else []

def jointViolations (p : Pipe) : List Violation :=
  if p.type = .materialized && !isFilled p.materializedDatasource then [.materializedTarget]
  else if p.type = .copy && !isFilled p.copyTarget then [.copyTarget]
  else []

end Pipe

namespace Connection

def fieldViolations : Connection → List Violation
  | .kafka c => emptyTextOf c.name ++ emptyTextOf c.bootstrapServers
  | .s3 c => emptyTextOf c.name ++ emptyTextOf c.region

def jointViolations : Connection → List Violation
  | .kafka _ => []
  | .s3 c =>
    if isFilled c.arn || (isFilled c.accessKey && isFilled c.secret) then [] else [.s3Credentials]

end Connection

namespace Resource

def fieldViolations : Resource → List Violation
  | .datasource d => d.fieldViolations
  | .pipe p => p.fieldViolations
  | .connection c => c.fieldViolations

def jointViolations : Resource → List Violation
  | .datasource d => d.jointViolations
  | .pipe p => p.jointViolations
  | .connection c => c.jointViolations

/-- What a resource does not satisfy beyond the types of its fields. The violations between fields
count only if there are none of single ones. -/
def violations (r : Resource) : List Violation :=
  match r.fieldViolations with
  | [] => r.jointViolations
  | vs => vs

end Resource

end DatafileMigration
