import DatafileMigration.Number.Signed
import DatafileMigration.Resource.Violation

namespace DatafileMigration

/-- A value, or all that keeps it from being one. -/
structure Checked (α : Type) where
  result : Except (List Violation) α

namespace Checked

def ok {α : Type} (a : α) : Checked α := ⟨.ok a⟩

def fail {α : Type} (v : Violation) : Checked α := ⟨.error [v]⟩

/-- Both are checked; violations add up. -/
def both {α β : Type} (f : Checked (α → β)) (x : Checked α) : Checked β :=
  match f.result, x.result with
  | .ok f, .ok a => ok (f a)
  | .ok _, .error vs => ⟨.error vs⟩
  | .error vs, .ok _ => ⟨.error vs⟩
  | .error vs, .error ws => ⟨.error (vs ++ ws)⟩

instance : Functor Checked where
  map f x := both (ok f) x

instance : Pure Checked := ⟨ok⟩

instance : Seq Checked := ⟨fun f x => both f (x ())⟩

/-- Every one is checked. -/
def all {α : Type} : List (Checked α) → Checked (List α)
  | [] => ok []
  | x :: xs => List.cons <$> x <*> all xs

end Checked

/-- A record: its fields by name. `toRecord` writes every field, absent ones as null; `ofRecord`
collects all violations in the order of the fields. -/
abbrev Record := List (Text × Literal)

namespace Record

/-- How the value of a field is read. -/
abbrev Reader (α : Type) := Literal → Checked α

def text : Reader Text
  | .scalar (.text t) => .ok t
  | _ => .fail (.wrongType "string")

def filled : Reader Text
  | .scalar (.text []) => .fail .emptyText
  | .scalar (.text t) => .ok t
  | _ => .fail (.wrongType "string")

/-- The words for the truth values, in small letters. -/
def truthWords : List (Text × Bool) :=
  [("0", false), ("f", false), ("n", false), ("no", false), ("off", false), ("false", false),
   ("1", true), ("t", true), ("y", true), ("yes", true), ("on", true), ("true", true)]

/-- The truth value of a scalar: zero and one count for false and true, and so do some words. -/
def truth? : Scalar → Option Bool
  | .bool b => some b
  | .int n => if n = 0 then some false else if n = 1 then some true else none
  | .float x =>
    if x.toInt? = some 0 then some false else if x.toInt? = some 1 then some true else none
  | .text t => (truthWords.find? (·.1 = t.map Char.toLower)).map (·.2)

def bool : Reader Bool
  | .scalar x =>
    match truth? x with
    | some b => .ok b
    | none => .fail (.wrongType "boolean, unable to interpret input")
  | _ => .fail (.wrongType "boolean")

/-- The integer that a text writes; a fraction of nothing but zeros may follow. -/
def integerOfText? (t : Text) : Option Int :=
  match Text.cutAt? '.' t with
  | some (whole, fraction) =>
    if (Text.strip fraction).all (· = '0') then integer? whole else none
  | none => integer? t

/-- An integer; truth values, numbers without a fraction and texts that write integers count. -/
def int : Reader Int
  | .scalar (.int n) => .ok n
  | .scalar (.bool b) => .ok (if b then 1 else 0)
  | .scalar (.float (.finite negative mantissa exponent)) =>
    match Binary64.toInt? (.finite negative mantissa exponent) with
    | some n => .ok n
    | none => .fail (.wrongType "integer, got a number with a fractional part")
  | .scalar (.float _) => .fail .notFinite
  | .scalar (.text t) =>
    match integerOfText? t with
    | some n => .ok n
    | none => .fail (.wrongType "integer, unable to parse string as an integer")
  | _ => .fail (.wrongType "integer")

def scalar : Reader Scalar
  | .scalar x => .ok x
  | _ => .fail (.wrongType "string")

def nullable {α : Type} (read : Reader α) : Reader (Option α)
  | .null => .ok none
  | value => some <$> read value

def listOf {α : Type} (read : Reader α) : Reader (List α)
  | .list items => .all (items.map read)
  | _ => .fail (.wrongType "list")

def filledListOf {α : Type} (read : Reader α) : Reader (List α)
  | .list [] => .fail .emptyList
  | value => listOf read value

def choice {α : Type} [Choice α] : Reader α
  | .scalar (.text t) =>
    match Choice.ofText? t with
    | some a => .ok a
    | none => .fail (.notAmong ((Choice.all (α := α)).map Choice.text))
  | _ => .fail (.notAmong ((Choice.all (α := α)).map Choice.text))

/-- The one text that a field may have. -/
def fixed (word : Text) : Reader Unit
  | .scalar (.text t) => if t = word then .ok () else .fail (.notAmong [word])
  | _ => .fail (.notAmong [word])

def scalarEntries : Reader (List (Text × Scalar))
  | .dict entries =>
    .all (entries.map fun (key, value) => (fun x => (key, x)) <$> scalar value)
  | _ => .fail (.wrongType "dictionary")

def field {α : Type} (key : Text) (read : Reader α) (r : Record) : Checked α :=
  match Literal.find? key r with
  | some value => read value
  | none => .fail .missingField

def fieldOr {α : Type} (key : Text) (read : Reader α) (default : α) (r : Record) : Checked α :=
  match Literal.find? key r with
  | some value => read value
  | none => .ok default

/-- Fields that have no business in a record. -/
def only (known : List Text) (r : Record) : Checked Unit :=
  (fun _ => ()) <$> Checked.all (r.map fun (key, _) =>
    if known.contains key then Checked.ok () else .fail .unexpectedField)

/-- A record read by its fields; no others may be there. -/
def nested {α : Type} (known : List Text) (read : Record → Checked α) : Reader α
  | .dict r => (fun a _ => a) <$> read r <*> only known r
  | _ => .fail (.wrongType "dictionary")

/-- A value whose own conditions hold. -/
def ensure {α : Type} (conditions : α → List Violation) (x : Checked α) : Checked α :=
  match x.result with
  | .ok a =>
    match conditions a with
    | [] => .ok a
    | vs => ⟨.error vs⟩
  | .error vs => ⟨.error vs⟩

end Record

open Record

def textOrNull : Option Text → Literal
  | none => .null
  | some t => .text t

def choiceOrNull {α : Type} [Choice α] : Option α → Literal
  | none => .null
  | some a => .text (Choice.text a)

def textList (ts : List Text) : Literal := .list (ts.map .text)

namespace Column

def fields : List Text := ["name", "type", "json_path", "default_expression", "codec"]

def toRecord (c : Column) : Literal :=
  .dict [("name", .text c.name), ("type", .text c.type), ("json_path", textOrNull c.jsonPath),
    ("default_expression", textOrNull c.default), ("codec", textOrNull c.codec)]

def reader : Reader Column := nested fields fun r =>
  Column.mk <$> field "name" text r <*> field "type" text r
    <*> fieldOr "json_path" (nullable text) none r
    <*> fieldOr "default_expression" (nullable text) none r
    <*> fieldOr "codec" (nullable text) none r

end Column

namespace Engine

def fields : List Text :=
  ["type", "sorting_key", "partition_key", "primary_key", "ttl", "ver", "is_deleted", "sign",
   "version", "summing_columns", "settings"]

def toRecord (e : Engine) : Literal :=
  .dict [("type", .text e.type), ("sorting_key", textList e.sortingKey),
    ("partition_key", textOrNull e.partitionKey), ("primary_key", textList e.primaryKey),
    ("ttl", textOrNull e.ttl), ("ver", textOrNull e.ver),
    ("is_deleted", textOrNull e.isDeleted), ("sign", textOrNull e.sign),
    ("version", textOrNull e.version), ("summing_columns", textList e.summingColumns),
    ("settings", .dict (e.settings.map fun (key, x) => (key, .scalar x)))]

def reader : Reader Engine := nested fields fun r =>
  Engine.mk <$> field "type" text r <*> fieldOr "sorting_key" (listOf text) [] r
    <*> fieldOr "partition_key" (nullable text) none r
    <*> fieldOr "primary_key" (listOf text) [] r
    <*> fieldOr "ttl" (nullable text) none r
    <*> fieldOr "ver" (nullable text) none r
    <*> fieldOr "is_deleted" (nullable text) none r
    <*> fieldOr "sign" (nullable text) none r
    <*> fieldOr "version" (nullable text) none r
    <*> fieldOr "summing_columns" (listOf text) [] r
    <*> fieldOr "settings" scalarEntries [] r

end Engine

namespace KafkaIngestion

def fields : List Text :=
  ["connection_name", "topic", "group_id", "auto_offset_reset", "store_raw_value"]

def toRecord (k : KafkaIngestion) : Literal :=
  .dict [("connection_name", .text k.connection), ("topic", .text k.topic),
    ("group_id", textOrNull k.groupId), ("auto_offset_reset", choiceOrNull k.offsetReset),
    ("store_raw_value", k.storeRawValue.elim .null .bool)]

def reader : Reader KafkaIngestion := nested fields fun r =>
  KafkaIngestion.mk <$> field "connection_name" filled r <*> field "topic" filled r
    <*> fieldOr "group_id" (nullable text) none r
    <*> fieldOr "auto_offset_reset" (nullable choice) none r
    <*> fieldOr "store_raw_value" (nullable bool) none r

end KafkaIngestion

namespace S3Ingestion

def fields : List Text := ["connection_name", "bucket_uri", "schedule", "from_timestamp"]

def toRecord (s : S3Ingestion) : Literal :=
  .dict [("connection_name", .text s.connection), ("bucket_uri", .text s.bucketUri),
    ("schedule", textOrNull s.schedule), ("from_timestamp", textOrNull s.fromTimestamp)]

def reader : Reader S3Ingestion := nested fields fun r =>
  S3Ingestion.mk <$> field "connection_name" filled r <*> field "bucket_uri" filled r
    <*> fieldOr "schedule" (nullable text) none r
    <*> fieldOr "from_timestamp" (nullable text) none r

end S3Ingestion

namespace DatasourceToken

def fields : List Text := ["name", "scope"]

def toRecord (t : DatasourceToken) : Literal :=
  .dict [("name", .text t.name), ("scope", .text (Choice.text t.scope))]

def reader : Reader DatasourceToken := nested fields fun r =>
  DatasourceToken.mk <$> field "name" text r <*> field "scope" choice r

end DatasourceToken

namespace Datasource

def fields : List Text :=
  ["name", "file_path", "kind", "description", "columns", "engine", "kafka", "s3",
   "forward_query", "tokens", "shared_with"]

def toRecord (d : Datasource) : Literal :=
  .dict [("name", .text d.name), ("file_path", .text d.path), ("kind", .text "datasource"),
    ("description", textOrNull d.description), ("columns", .list (d.columns.map Column.toRecord)),
    ("engine", d.engine.toRecord), ("kafka", d.kafka.elim .null KafkaIngestion.toRecord),
    ("s3", d.s3.elim .null S3Ingestion.toRecord), ("forward_query", textOrNull d.forwardQuery),
    ("tokens", .list (d.tokens.map DatasourceToken.toRecord)),
    ("shared_with", textList d.sharedWith)]

def reader (l : Literal) : Checked Datasource :=
  ensure jointViolations <| nested fields (fun r =>
    (fun name path (_ : Unit) => Datasource.mk name path) <$> field "name" filled r
      <*> field "file_path" text r
      <*> fieldOr "kind" (fixed "datasource") () r
      <*> fieldOr "description" (nullable text) none r
      <*> field "columns" (listOf Column.reader) r
      <*> field "engine" Engine.reader r
      <*> fieldOr "kafka" (nullable KafkaIngestion.reader) none r
      <*> fieldOr "s3" (nullable S3Ingestion.reader) none r
      <*> fieldOr "forward_query" (nullable text) none r
      <*> fieldOr "tokens" (listOf DatasourceToken.reader) [] r
      <*> fieldOr "shared_with" (listOf text) [] r) l

end Datasource

namespace Node

def fields : List Text := ["name", "description", "sql"]

def toRecord (n : Node) : Literal :=
  .dict [("name", .text n.name), ("description", textOrNull n.description), ("sql", .text n.sql)]

def reader : Reader Node := nested fields fun r =>
  Node.mk <$> field "name" text r <*> fieldOr "description" (nullable text) none r
    <*> field "sql" text r

end Node

namespace Parameter

def fields : List Text := ["name", "type", "required", "default_value", "description"]

def toRecord (p : Parameter) : Literal :=
  .dict [("name", .text p.name), ("type", .text p.type), ("required", .bool p.required),
    ("default_value", p.default.elim .null .scalar), ("description", textOrNull p.description)]

def reader : Reader Parameter := nested fields fun r =>
  Parameter.mk <$> field "name" text r <*> field "type" text r
    <*> fieldOr "required" bool true r
    <*> fieldOr "default_value" (nullable scalar) none r
    <*> fieldOr "description" (nullable text) none r

end Parameter

namespace Pipe

/-- A pipe's token is its name; reading is all that it allows. -/
def tokenRecord (name : Text) : Literal := .dict [("name", .text name), ("scope", .text "READ")]

def tokenReader : Reader Text := nested ["name", "scope"] fun r =>
  (fun name (_ : Unit) => name) <$> field "name" text r
    <*> fieldOr "scope" (fixed "READ") () r

def fields : List Text :=
  ["name", "file_path", "kind", "description", "type", "nodes", "cache_ttl",
   "materialized_datasource", "deployment_method", "copy_target_datasource", "copy_schedule",
   "copy_mode", "tokens", "params", "inferred_output_columns"]

def toRecord (p : Pipe) : Literal :=
  .dict [("name", .text p.name), ("file_path", .text p.path), ("kind", .text "pipe"),
    ("description", textOrNull p.description), ("type", .text (Choice.text p.type)),
    ("nodes", .list (p.nodes.map Node.toRecord)),
    ("cache_ttl", p.cacheTtl.elim .null .int),
    ("materialized_datasource", textOrNull p.materializedDatasource),
    ("deployment_method", if p.alter then .text "alter" else .null),
    ("copy_target_datasource", textOrNull p.copyTarget),
    ("copy_schedule", textOrNull p.copySchedule), ("copy_mode", choiceOrNull p.copyMode),
    ("tokens", .list (p.tokens.map tokenRecord)),
    ("params", .list (p.parameters.map Parameter.toRecord)),
    ("inferred_output_columns", textList p.outputColumns)]

def reader (l : Literal) : Checked Pipe :=
  ensure jointViolations <| nested fields (fun r =>
    (fun name path (_ : Unit) => Pipe.mk name path) <$> field "name" filled r
      <*> field "file_path" text r
      <*> fieldOr "kind" (fixed "pipe") () r
      <*> fieldOr "description" (nullable text) none r
      <*> fieldOr "type" choice .pipe r
      <*> field "nodes" (filledListOf Node.reader) r
      <*> fieldOr "cache_ttl" (nullable int) none r
      <*> fieldOr "materialized_datasource" (nullable text) none r
      <*> (Option.isSome <$> fieldOr "deployment_method" (nullable (fixed "alter")) none r)
      <*> fieldOr "copy_target_datasource" (nullable text) none r
      <*> fieldOr "copy_schedule" (nullable text) none r
      <*> fieldOr "copy_mode" (nullable choice) none r
      <*> fieldOr "tokens" (listOf tokenReader) [] r
      <*> fieldOr "params" (listOf Parameter.reader) [] r
      <*> fieldOr "inferred_output_columns" (listOf text) [] r) l

end Pipe

namespace KafkaConnection

def fields : List Text :=
  ["name", "file_path", "kind", "connection_type", "bootstrap_servers", "security_protocol",
   "sasl_mechanism", "key", "secret", "schema_registry_url", "ssl_ca_pem"]

def toRecord (c : KafkaConnection) : Literal :=
  .dict [("name", .text c.name), ("file_path", .text c.path), ("kind", .text "connection"),
    ("connection_type", .text "kafka"), ("bootstrap_servers", .text c.bootstrapServers),
    ("security_protocol", choiceOrNull c.securityProtocol),
    ("sasl_mechanism", choiceOrNull c.saslMechanism), ("key", textOrNull c.key),
    ("secret", textOrNull c.secret), ("schema_registry_url", textOrNull c.schemaRegistryUrl),
    ("ssl_ca_pem", textOrNull c.sslCaPem)]

def reader : Reader KafkaConnection := nested fields fun r =>
  (fun name path (_ _ : Unit) => KafkaConnection.mk name path) <$> field "name" filled r
    <*> field "file_path" text r
    <*> fieldOr "kind" (fixed "connection") () r
    <*> fieldOr "connection_type" (fixed "kafka") () r
    <*> field "bootstrap_servers" filled r
    <*> fieldOr "security_protocol" (nullable choice) none r
    <*> fieldOr "sasl_mechanism" (nullable choice) none r
    <*> fieldOr "key" (nullable text) none r
    <*> fieldOr "secret" (nullable text) none r
    <*> fieldOr "schema_registry_url" (nullable text) none r
    <*> fieldOr "ssl_ca_pem" (nullable text) none r

end KafkaConnection

namespace S3Connection

def fields : List Text :=
  ["name", "file_path", "kind", "connection_type", "region", "arn", "access_key", "secret"]

def toRecord (c : S3Connection) : Literal :=
  .dict [("name", .text c.name), ("file_path", .text c.path), ("kind", .text "connection"),
    ("connection_type", .text "s3"), ("region", .text c.region), ("arn", textOrNull c.arn),
    ("access_key", textOrNull c.accessKey), ("secret", textOrNull c.secret)]

def reader (l : Literal) : Checked S3Connection :=
  ensure (fun c => Connection.jointViolations (.s3 c)) <| nested fields (fun r =>
    (fun name path (_ _ : Unit) => S3Connection.mk name path) <$> field "name" filled r
      <*> field "file_path" text r
      <*> fieldOr "kind" (fixed "connection") () r
      <*> fieldOr "connection_type" (fixed "s3") () r
      <*> field "region" filled r
      <*> fieldOr "arn" (nullable text) none r
      <*> fieldOr "access_key" (nullable text) none r
      <*> fieldOr "secret" (nullable text) none r) l

end S3Connection

namespace Resource

def toRecord : Resource → Literal
  | .connection (.kafka c) => c.toRecord
  | .connection (.s3 c) => c.toRecord
  | .datasource d => d.toRecord
  | .pipe p => p.toRecord

/-- The resource of a kind that a record describes; a connection is one to a bucket if it says
so. -/
def ofRecord (kind : Kind) (r : Record) : Except (List Violation) Resource :=
  match kind with
  | .datasource => (Datasource.reader (.dict r)).result.map .datasource
  | .pipe => (Pipe.reader (.dict r)).result.map .pipe
  | .connection =>
    match Literal.find? "connection_type" r with
    | some (.scalar (.text t)) =>
      if t = "s3" then (S3Connection.reader (.dict r)).result.map fun c => .connection (.s3 c)
      else (KafkaConnection.reader (.dict r)).result.map fun c => .connection (.kafka c)
    | _ => (KafkaConnection.reader (.dict r)).result.map fun c => .connection (.kafka c)

end Resource

end DatafileMigration
