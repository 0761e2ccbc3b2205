import DatafileMigration.Column.Default
import DatafileMigration.Module.Pipe
import DatafileMigration.Resource.Violation

namespace DatafileMigration

def Scalar.texts : Scalar → List Text
  | .text t => [t]
  | _ => []

namespace Literal

mutual

def texts : Literal → List Text
  | .null => []
  | .scalar x => x.texts
  | .list items => itemTexts items
  | .dict entries => entryTexts entries

def itemTexts : List Literal → List Text
  | [] => []
  | item :: items => item.texts ++ itemTexts items

def entryTexts : List (Text × Literal) → List Text
  | [] => []
  | (key, value) :: entries => key :: value.texts ++ entryTexts entries

end

end Literal

namespace ColumnType

mutual

/-- The names and zones in a type. -/
def texts : ColumnType → List Text
  | .dateTimeIn zone => [zone]
  | .dateTime64Of _ zone => zone.toList
  | .enum _ members => members.map EnumMember.name
  | .nullable inner | .lowCardinality inner | .array inner => inner.texts
  | .tuple elements => elementTexts elements
  | .map key value => key.texts ++ value.texts
  | .simpleAggregate function inner | .aggregate function inner => function :: inner.texts
  | _ => []

def elementTexts : List ColumnType → List Text
  | [] => []
  | element :: elements => element.texts ++ elementTexts elements

end

end ColumnType

/-- An optional text, if it says something. -/
def filledTexts (t : Option Text) : List Text := if isFilled t then [t.getD []] else []

namespace Column

def typeTexts (c : Column) : List Text :=
  match ColumnType.read c.type with
  | .ok type => type.texts
  | .error _ => []

/-- The texts of a default that is migrated. -/
def defaultTexts (c : Column) : List Text :=
  match c.default with
  | none => []
  | some default =>
    match defaultValue c.type default c.name with
    | .ok value => if value.render.isOk then value.texts else []
    | .error _ => []

def texts (c : Column) : List Text :=
  c.name :: (c.typeTexts ++ c.defaultTexts ++ filledTexts c.codec ++ filledTexts c.jsonPath)

end Column

def Engine.texts (e : Engine) : List Text :=
  e.sortingKey ++ (filledTexts e.partitionKey ++ e.primaryKey ++ filledTexts e.ttl
    ++ filledTexts e.ver ++ filledTexts e.isDeleted ++ filledTexts e.sign ++ filledTexts e.version
    ++ e.summingColumns ++ e.settings.flatMap fun (key, x) => key :: x.texts)

def KafkaIngestion.texts (k : KafkaIngestion) : List Text :=
  k.topic :: (filledTexts k.groupId ++ filledTexts (k.offsetReset.map Choice.text))

def S3Ingestion.texts (s : S3Ingestion) : List Text :=
  s.bucketUri :: (filledTexts s.schedule ++ filledTexts s.fromTimestamp)

def DatasourceToken.texts (t : DatasourceToken) : List Text := [t.name, Choice.text t.scope]

def Datasource.texts (d : Datasource) : List Text :=
  d.name :: (filledTexts d.description ++ d.columns.flatMap Column.texts ++ d.engine.texts
    ++ d.kafka.elim [] KafkaIngestion.texts ++ d.s3.elim [] S3Ingestion.texts
    ++ filledTexts d.forwardQuery ++ d.tokens.flatMap DatasourceToken.texts ++ d.sharedWith)

def Parameter.texts (q : Parameter) : List Text := q.name :: q.default.elim [] Scalar.texts

def Node.texts (n : Node) : List Text := n.name :: (filledTexts n.description ++ [n.sql])

namespace Pipe

/-- The texts that only pipes of its type have. -/
def typeTexts (p : Pipe) : List Text :=
  match p.type with
  | .pipe | .endpoint => p.parameters.flatMap Parameter.texts
  | .materialized => []
  | .copy => filledTexts (p.copyMode.map Choice.text) ++ filledTexts p.copySchedule

def texts (p : Pipe) : List Text :=
  p.name :: (filledTexts p.description ++ p.typeTexts ++ p.nodes.flatMap Node.texts
    ++ (if p.type = .endpoint then p.outputColumns else []) ++ p.tokens)

end Pipe

namespace Connection

def texts : Connection → List Text
  | .kafka c => c.name :: c.bootstrapServers
    :: (filledTexts (c.securityProtocol.map Choice.text)
      ++ filledTexts (c.saslMechanism.map Choice.text) ++ filledTexts c.key
      ++ filledTexts c.secret ++ filledTexts c.schemaRegistryUrl ++ filledTexts c.sslCaPem)
  | .s3 c => c.name :: c.region
    :: (filledTexts c.arn ++ filledTexts c.accessKey ++ filledTexts c.secret)

end Connection

def Resource.texts : Resource → List Text
  | .connection c => c.texts
  | .datasource d => d.texts
  | .pipe p => p.texts

end DatafileMigration
