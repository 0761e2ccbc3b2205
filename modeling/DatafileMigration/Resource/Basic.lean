import DatafileMigration.Resource.Kind
import DatafileMigration.Template.Parameter

namespace DatafileMigration

structure Datafile where
  kind : Kind
  /-- Relative to the working directory. -/
  path : Text
  name : Text
  content : Text
  deriving DecidableEq, Repr

structure Column where
  name : Text
  type : Text
  jsonPath : Option Text := none
  default : Option Text := none
  codec : Option Text := none
  deriving DecidableEq, Repr

/-- How a datasource is stored. -/
structure Engine where
  type : Text
  sortingKey : List Text := []
  partitionKey : Option Text := none
  primaryKey : List Text := []
  ttl : Option Text := none
  ver : Option Text := none
  isDeleted : Option Text := none
  sign : Option Text := none
  version : Option Text := none
  summingColumns : List Text := []
  settings : List (Text × Scalar) := []
  deriving DecidableEq, Repr

/-- Where a reader without an offset begins. -/
inductive OffsetReset where
  | earliest
  | latest
  deriving DecidableEq, Repr

structure KafkaIngestion where
  connection : Text
  topic : Text
  groupId : Option Text := none
  offsetReset : Option OffsetReset := none
  storeRawValue : Option Bool := none
  deriving DecidableEq, Repr

structure S3Ingestion where
  connection : Text
  bucketUri : Text
  schedule : Option Text := none
  fromTimestamp : Option Text := none
  deriving DecidableEq, Repr

inductive DatasourceScope where
  | read
  | append
  deriving DecidableEq, Repr

structure DatasourceToken where
  name : Text
  scope : DatasourceScope
  deriving DecidableEq, Repr

structure Datasource where
  name : Text
  path : Text
  description : Option Text := none
  columns : List Column
  engine : Engine
  kafka : Option KafkaIngestion := none
  s3 : Option S3Ingestion := none
  forwardQuery : Option Text := none
  tokens : List DatasourceToken := []
  sharedWith : List Text := []
  deriving DecidableEq, Repr

/-- The name of the connection that a datasource ingests from. -/
def Datasource.connection? (d : Datasource) : Option Text :=
  match d.kafka, d.s3 with
  | some k, _ => some k.connection
  | none, some s => some s.connection
  | none, none => none

/-- What becomes of a pipe's result. -/
inductive PipeType where
  | pipe
  | endpoint
  | materialized
  | copy
  deriving DecidableEq, Repr

inductive CopyMode where
  | append
  | replace
  deriving DecidableEq, Repr

structure Node where
  name : Text
  description : Option Text := none
  sql : Text
  deriving DecidableEq, Repr

/-- A pipe; its tokens are names, since they all allow reading and nothing else. `alter` says
that its deployment alters the target. -/
structure Pipe where
  name : Text
  path : Text
  description : Option Text := none
  type : PipeType := .pipe
  nodes : List Node
  cacheTtl : Option Int := none
  materializedDatasource : Option Text := none
  alter : Bool := false
  copyTarget : Option Text := none
  copySchedule : Option Text := none
  copyMode : Option CopyMode := none
  tokens : List Text := []
  parameters : List Parameter := []
  outputColumns : List Text := []
  deriving DecidableEq, Repr

namespace Pipe

/-- The last node, whose result is the pipe's. -/
def outputNode? (p : Pipe) : Option Node := p.nodes.getLast?

/-- The datasource that a materialized or copy pipe writes. -/
def target? (p : Pipe) : Option Text :=
  match p.type with
  | .materialized => p.materializedDatasource
  | .copy => p.copyTarget
  | _ => none

end Pipe

inductive SecurityProtocol where
  | saslSsl
  | plaintext
  | saslPlaintext
  deriving DecidableEq, Repr

inductive SaslMechanism where
  | plain
  | scramSha256
  | scramSha512
  | oauthBearer
  deriving DecidableEq, Repr

structure KafkaConnection where
  name : Text
  path : Text
  bootstrapServers : Text
  securityProtocol : Option SecurityProtocol := none
  saslMechanism : Option SaslMechanism := none
  key : Option Text := none
  secret : Option Text := none
  schemaRegistryUrl : Option Text := none
  sslCaPem : Option Text := none
  deriving DecidableEq, Repr

structure S3Connection where
  name : Text
  path : Text
  region : Text
  arn : Option Text := none
  accessKey : Option Text := none
  secret : Option Text := none
  deriving DecidableEq, Repr

inductive Connection where
  | kafka (c : KafkaConnection)
  | s3 (c : S3Connection)
  deriving DecidableEq, Repr

inductive Resource where
  | connection (c : Connection)
  | datasource (d : Datasource)
  | pipe (p : Pipe)
  deriving DecidableEq, Repr

namespace Resource

def kind : Resource → Kind
  | .connection _ => .connection
  | .datasource _ => .datasource
  | .pipe _ => .pipe

def name : Resource → Text
  | .connection (.kafka c) => c.name
  | .connection (.s3 c) => c.name
  | .datasource d => d.name
  | .pipe p => p.name

def path : Resource → Text
  | .connection (.kafka c) => c.path
  | .connection (.s3 c) => c.path
  | .datasource d => d.path
  | .pipe p => p.path

/-- Resources of one kind and name exclude each other. -/
def key (r : Resource) : Kind × Text := (r.kind, r.name)

end Resource

/-- The text of a word that a directive restricts to a few, and back. -/
class Choice (α : Type) where
  all : List α
  text : α → Text

namespace Choice

def ofText? {α : Type} [Choice α] (t : Text) : Option α :=
  (Choice.all (α := α)).find? fun a => Choice.text a = t

end Choice

instance : Choice OffsetReset where
  all := [.earliest, .latest]
  text
    | .earliest => "earliest"
    | .latest => "latest"

instance : Choice DatasourceScope where
  all := [.read, .append]
  text
    | .read => "READ"
    | .append => "APPEND"

instance : Choice PipeType where
  all := [.pipe, .endpoint, .materialized, .copy]
  text
    | .pipe => "pipe"
    | .endpoint => "endpoint"
    | .materialized => "materialized"
    | .copy => "copy"

instance : Choice CopyMode where
  all := [.append, .replace]
  text
    | .append => "append"
    | .replace => "replace"

instance : Choice SecurityProtocol where
  all := [.saslSsl, .plaintext, .saslPlaintext]
  text
    | .saslSsl => "SASL_SSL"
    | .plaintext => "PLAINTEXT"
    | .saslPlaintext => "SASL_PLAINTEXT"

instance : Choice SaslMechanism where
  all := [.plain, .scramSha256, .scramSha512, .oauthBearer]
  text
    | .plain => "PLAIN"
    | .scramSha256 => "SCRAM-SHA-256"
    | .scramSha512 => "SCRAM-SHA-512"
    | .oauthBearer => "OAUTHBEARER"

end DatafileMigration
