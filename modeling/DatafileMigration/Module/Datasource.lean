import DatafileMigration.Column.Default
import DatafileMigration.Module.Statement

namespace DatafileMigration

/-- The expression of a column, and what did not migrate with it. -/
structure ColumnExpression where
  expression : Text
  notes : List Text := []
  deriving DecidableEq, Repr

namespace Column

def typeExpression (strict : Bool) (c : Column) : Except (Fault RenderError) ColumnExpression :=
  match columnBuilder c.type with
  | .ok builder => .ok { expression := builder }
  | .error e =>
    if strict then .error (.refused (.unsupportedColumnType e.name))
    else .ok { expression := "t.string()", notes := ["unsupported type: " ++ c.type] }

def withDefault (strict : Bool) (c : Column) (e : ColumnExpression) :
    Except (Fault RenderError) ColumnExpression :=
  match c.default with
  | none => .ok e
  | some default =>
    match columnDefault c.type default c.name with
    | .ok value => .ok { e with expression := e.expression ++ ".default(" ++ value ++ ")" }
    | .error (.refused cause) =>
      if strict then .error (.refused cause)
      else .ok { e with notes := e.notes ++ ["default not migrated: " ++ default] }
    | .error (.broken why) => .error (.broken why)

def withCodec (c : Column) (expression : Text) : Text :=
  if isFilled c.codec then
    expression ++ ".codec(" ++ Text.quoted (c.codec.getD []) ++ ")"
  else expression

def withJsonPath (c : Column) (expression : Text) : Text :=
  if isFilled c.jsonPath then
    "column(" ++ expression ++ ", json_path=" ++ Text.quoted (c.jsonPath.getD []) ++ ")"
  else expression

/-- The expression that declares a column. A type without a builder and a default that is no plain
literal are errors if `strict`; otherwise the type becomes text, the default goes, and a note on the
column's line says so. -/
def columnExpression (strict : Bool) (c : Column) :
    Except (Fault RenderError) ColumnExpression := do
  let e ← c.typeExpression strict
  let e ← c.withDefault strict e
  return { e with expression := c.withJsonPath (c.withCodec e.expression) }

def schemaLine (strict : Bool) (c : Column) : Except (Fault RenderError) Text := do
  let e ← c.columnExpression strict
  let notes : Text := if e.notes = [] then [] else "  # " ++ Text.join "; " e.notes
  return Layout.indent 2 ++ Layout.entry c.name e.expression ++ "," ++ notes ++ "\n"

end Column

/-- Engines with a function. -/
def engineFunctions : List (Text × Text) :=
  [("MergeTree", "merge_tree"), ("ReplacingMergeTree", "replacing_merge_tree"),
   ("SummingMergeTree", "summing_merge_tree"),
   ("AggregatingMergeTree", "aggregating_merge_tree"),
   ("CollapsingMergeTree", "collapsing_merge_tree"),
   ("VersionedCollapsingMergeTree", "versioned_collapsing_merge_tree")]

namespace Engine

/-- A text, if it says something. -/
def textArgument (key : Text) (t : Option Text) : List Text :=
  if isFilled t then [Layout.keyword key (Text.quoted (t.getD []))] else []

/-- A list, if there is something in it. -/
def listArgument (key : Text) (render : List Text → Text) (items : List Text) : List Text :=
  if items = [] then [] else [Layout.keyword key (render items)]

/-- The settings, if there are any. -/
def settingsArgument (e : Engine) : Except (Fault RenderError) (List Text) :=
  if e.settings = [] then .ok []
  else do
    let value ← (Literal.dict (e.settings.map fun (key, x) => (key, .scalar x))).render.mapError
      fun e => Fault.refused (.ofNotFinite e)
    return [Layout.keyword "settings" value]

def render (e : Engine) : Except (Fault RenderError) Text := do
  let some (_, function) := engineFunctions.find? (·.1 = e.type)
    | throw (.refused (.unsupportedEngine e.type))
  let settings ← e.settingsArgument
  return Layout.call 1 ("engine." ++ function)
    (Layout.keyword "sorting_key" (renderKeys e.sortingKey)
      :: (textArgument "partition_key" e.partitionKey
        ++ listArgument "primary_key" renderKeys e.primaryKey
        ++ textArgument "ttl" e.ttl
        ++ textArgument "ver" e.ver
        ++ textArgument "is_deleted" e.isDeleted
        ++ textArgument "sign" e.sign
        ++ textArgument "version" e.version
        ++ listArgument "columns" renderTexts e.summingColumns
        ++ settings))

end Engine

/-- An entry that is there if the condition holds. -/
def Operand.when (condition : Bool) (key value : Text) : List (Text × Operand) :=
  if condition then [(key, .expression value)] else []

/-- A text, if it says something. -/
def Operand.filled (key : Text) (t : Option Text) : List (Text × Operand) :=
  when (isFilled t) key (Text.quoted (t.getD []))

def KafkaIngestion.argument (k : KafkaIngestion) : Argument :=
  .dict (("connection", .identifier .connection k.connection)
    :: ("topic", .expression (Text.quoted k.topic))
    :: (Operand.filled "group_id" k.groupId
      ++ Operand.filled "auto_offset_reset" (k.offsetReset.map Choice.text)
      ++ Operand.when k.storeRawValue.isSome "store_raw_value"
        (if k.storeRawValue = some true then "True" else "False")))

def S3Ingestion.argument (s : S3Ingestion) : Argument :=
  .dict (("connection", .identifier .connection s.connection)
    :: ("bucket_uri", .expression (Text.quoted s.bucketUri))
    :: (Operand.filled "schedule" s.schedule
      ++ Operand.filled "from_timestamp" s.fromTimestamp))

def DatasourceToken.render (t : DatasourceToken) : Text :=
  Layout.inlineDict
    [("name", Text.quoted t.name), ("permissions", renderTexts [Choice.text t.scope])]

namespace Datasource

def hasJsonPaths (d : Datasource) : Bool := d.columns.any (·.jsonPath.isSome)

/-- The columns, each on its line. -/
def schema (strict : Bool) (d : Datasource) : Except (Fault RenderError) Text := do
  let lines ← d.columns.mapM (·.schemaLine strict)
  return "\x7b\n" ++ lines.flatten ++ Layout.indent 1 ++ "\x7d"

/-- The statement that defines a datasource; either all its columns have a JSON path or none. -/
def statement (strict : Bool) (d : Datasource) : Except (Fault RenderError) Statement := do
  if d.hasJsonPaths && d.columns.any (·.jsonPath.isNone) then
    throw (.refused (.mixedJsonPaths d.name))
  let schema ← d.schema strict
  let engine ← d.engine.render
  return {
    kind := .datasource
    name := d.name
    function := "define_datasource"
    arguments :=
      Argument.filled "description" d.description
        ++ Argument.when (!d.hasJsonPaths) "json_paths" (.expression "False")
        ++ Argument.when true "schema" (.expression schema)
        ++ Argument.when true "engine" (.expression engine)
        ++ (d.kafka.elim [] fun k => Argument.when true "kafka" k.argument)
        ++ (d.s3.elim [] fun s => Argument.when true "s3" s.argument)
        ++ Argument.when (isFilled d.forwardQuery) "forward_query"
          (.expression (Text.quotedLines (d.forwardQuery.getD [])))
        ++ Argument.when (d.tokens ≠ []) "tokens"
          (.expression (Layout.list 1 (d.tokens.map DatasourceToken.render)))
        ++ Argument.when (d.sharedWith ≠ []) "shared_with"
          (.expression (renderTexts d.sharedWith)) }

def imports (d : Datasource) : List Text :=
  "define_datasource" :: "t" :: "engine"
    :: if d.columns.any (isFilled ·.jsonPath) then ["column"] else []

end Datasource

end DatafileMigration
