import DatafileMigration.Grammar.Column
import DatafileMigration.Grammar.Directive

namespace DatafileMigration.Grammar

open Datafile

/-- The parts of a datasource as far as they are read. -/
structure DatasourceDraft where
  description : Option Text := none
  columns : List Column := []
  forwardQuery : Option Text := none
  sharedWith : List Text := []
  engineType : Option Text := none
  /-- The engine's options; its type stands apart. -/
  engine : Engine := { type := [] }
  kafkaConnection : Option Text := none
  topic : Option Text := none
  groupId : Option Text := none
  offsetReset : Option OffsetReset := none
  storeRawValue : Option Bool := none
  bucketConnection : Option Text := none
  bucketUri : Option Text := none
  schedule : Option Text := none
  fromTimestamp : Option Text := none
  tokens : List DatasourceToken := []
  deriving DecidableEq, Repr

/-- The value of a setting: a single-quoted text, a plain number, or a truth value. -/
def readSettingValue (raw : Text) : Parse Scalar :=
  match insideQuotes? '\'' raw with
  | some inside => .ok (.text (Text.unescapeQuotes inside))
  | none =>
    match PlainNumber.ofText? raw with
    | some x => x.value.mapError .broken
    | none =>
      if raw = "true" then .ok (.bool true)
      else if raw = "false" then .ok (.bool false)
      else refuse (.settingValue raw)

/-- One setting, written `key = value`. -/
def readSetting (part : Text) : Parse (Text × Scalar) :=
  match Text.cutAt? '=' part with
  | none => refuse (.settingWithoutValue part)
  | some (key, raw) =>
    let key := Text.strip key
    if key = [] then refuse (.settingWithoutKey part)
    else (readSettingValue (Text.strip raw)).map fun value => (key, value)

/-- The settings of a list; a repeated key keeps its first place and its last value. -/
def readSettings (value : Text) : Parse (List (Text × Scalar)) :=
  (Text.splitTopLevel (unquote value)).foldlM (fun known part => do
    let (key, value) ← readSetting part
    return putEntry key value known) []

/-- A quoted name and, behind blanks, one more word. -/
def quotedToken? (t : Text) : Option (Text × Option Text) := do
  let body ← Text.dropPrefix? "\"" t
  let (name, after) ← Text.cutAt? '"' body
  if name = [] then none
  match after with
  | [] => return (name, none)
  | c :: _ =>
    let scope := Text.stripStart after
    if Text.isBlank c && scope ≠ [] && scope.all (!Text.isBlank ·) then return (name, some scope)
    else none

/-- A token: a name and what it allows. -/
def readDatasourceToken (value : Text) : Except Cause DatasourceToken := do
  let trimmed := Text.strip value
  let (name, scope) ← match quotedToken? trimmed with
    | some (name, some scope) => pure (name, scope)
    | _ =>
      match Text.words trimmed with
      | [name, scope] => pure (unquote name, scope)
      | _ :: _ :: _ => throw (.tokenSyntax value)
      | _ => throw (.tokenLine value)
  match Choice.ofText? scope with
  | some scope => return { name, scope }
  | none => throw (.datasourceScope scope)

namespace DatasourceDraft

def setEngineText (draft : DatasourceDraft) (value : Text) : EngineText → DatasourceDraft
  | .partitionKey => { draft with engine.partitionKey := some value }
  | .ttl => { draft with engine.ttl := some value }
  | .ver => { draft with engine.ver := some value }
  | .isDeleted => { draft with engine.isDeleted := some value }
  | .sign => { draft with engine.sign := some value }
  | .version => { draft with engine.version := some value }

def setEngineKeys (draft : DatasourceDraft) (keys : List Text) : EngineKeys → DatasourceDraft
  | .sortingKey => { draft with engine.sortingKey := keys }
  | .primaryKey => { draft with engine.primaryKey := keys }
  | .summingColumns => { draft with engine.summingColumns := keys }

def setTopic (draft : DatasourceDraft) (value : Text) : TopicPart → DatasourceDraft
  | .connectionName => { draft with kafkaConnection := some value }
  | .topic => { draft with topic := some value }
  | .groupId => { draft with groupId := some value }

def setBucket (draft : DatasourceDraft) (value : Text) : BucketPart → DatasourceDraft
  | .connectionName => { draft with bucketConnection := some value }
  | .bucketUri => { draft with bucketUri := some value }
  | .schedule => { draft with schedule := some value }
  | .fromTimestamp => { draft with fromTimestamp := some value }

/-- The workspaces that lines name, without a comma at the end. -/
def workspaces (lines : List Text) : List Text :=
  let names := lines.map fun line =>
    Text.strip ((Text.strip line).reverse.dropWhile (· = ',')).reverse
  names.filter (· ≠ [])

def take (draft : DatasourceDraft) (d : Directive) : Parse DatasourceDraft :=
  match keyword? datasourceKeywords d.keyword with
  | none => .ok draft
  | some .description => .ok { draft with description := some (descriptionText d) }
  | some .schema => do
    let lines ← requireBlock d
    if lines = [] then refuse (.emptyBlock d.keyword)
    let columns ← (readSchema lines).mapError .refused
    return { draft with columns := draft.columns ++ columns }
  | some .forwardQuery => do
    let lines ← requireBlock d
    if lines = [] then refuse (.emptyBlock d.keyword)
    return { draft with forwardQuery := some (Text.join "\n" lines) }
  | some .sharedWith => do
    let lines ← requireBlock d
    return { draft with sharedWith := draft.sharedWith ++ workspaces lines }
  | some .engine => do
    let value ← requireUnquoted d
    return { draft with engineType := some value }
  | some (.engineText option) => do
    let value ← requireUnquoted d
    return draft.setEngineText value option
  | some (.engineKeys option) => do
    let value ← requireUnquoted d
    return draft.setEngineKeys (splitCommas value) option
  | some .engineSettings => do
    let value ← requireInline d
    let settings ← readSettings value
    return { draft with engine.settings := settings }
  | some (.topic part) => do
    let value ← requireUnquoted d
    return draft.setTopic value part
  | some .offsetReset => do
    let value := Text.strip (← requireInline d)
    match Choice.ofText? value with
    | some reset => return { draft with offsetReset := some reset }
    | none => refuse (.offsetReset value)
  | some .storeRawValue => do
    let value := Text.strip (← requireInline d)
    match flag? value with
    | some flag => return { draft with storeRawValue := some flag }
    | none => refuse (.storeRawValue value)
  | some (.bucket part) => do
    let value ← requireUnquoted d
    return draft.setBucket value part
  | some .token => do
    let value ← requireInline d
    let token ← (readDatasourceToken value).mapError .refused
    return { draft with tokens := draft.tokens ++ [token] }

/-- Whether some option of the engine says something. -/
def saysEngine (draft : DatasourceDraft) : Bool :=
  let e := draft.engine
  [e.partitionKey, e.ttl, e.ver, e.isDeleted, e.sign, e.version].any isFilled
    || [e.sortingKey, e.primaryKey, e.summingColumns].any (· ≠ [])
    || e.settings ≠ []

/-- Whether a directive for ingestion from a topic was there. -/
def hasTopicPart (draft : DatasourceDraft) : Bool :=
  draft.kafkaConnection.isSome || draft.topic.isSome || draft.groupId.isSome
    || draft.offsetReset.isSome || draft.storeRawValue.isSome

def hasBucketPart (draft : DatasourceDraft) : Bool :=
  draft.bucketConnection.isSome || draft.bucketUri.isSome || draft.schedule.isSome
    || draft.fromTimestamp.isSome

/-- The engine of options without a type. -/
def defaultEngine : Text := "MergeTree"

def kafka? (draft : DatasourceDraft) : Parse (Option KafkaIngestion) :=
  if !draft.hasTopicPart then .ok none
  else if !isFilled draft.kafkaConnection || !isFilled draft.topic then refuse .kafkaIncomplete
  else .ok (some
    { connection := draft.kafkaConnection.getD [], topic := draft.topic.getD [],
      groupId := draft.groupId, offsetReset := draft.offsetReset,
      storeRawValue := draft.storeRawValue })

def s3? (draft : DatasourceDraft) : Parse (Option S3Ingestion) :=
  if !draft.hasBucketPart then .ok none
  else if !isFilled draft.bucketConnection || !isFilled draft.bucketUri then
    refuse .importIncomplete
  else .ok (some
    { connection := draft.bucketConnection.getD [], bucketUri := draft.bucketUri.getD [],
      schedule := draft.schedule, fromTimestamp := draft.fromTimestamp })

/-- The datasource, if all its parts are there and fit together. -/
def finish (draft : DatasourceDraft) (name path : Text) : Parse Datasource := do
  if draft.columns = [] then refuse .schemaRequired
  if draft.engineType.isNone && !draft.saysEngine then refuse .engineRequired
  if draft.engine.sortingKey = [] then refuse .sortingKeyRequired
  let kafka ← draft.kafka?
  let s3 ← draft.s3?
  if kafka.isSome && s3.isSome then refuse .mixedIngestion
  return {
    name, path, description := draft.description, columns := draft.columns,
    engine := { draft.engine with type := draft.engineType.getD defaultEngine },
    kafka, s3, forwardQuery := draft.forwardQuery, tokens := draft.tokens,
    sharedWith := draft.sharedWith }

end DatasourceDraft

/-- Each directive fills a part of the datasource, and the parts are checked against each other at
the end. -/
def buildDatasource (name path : Text) (ds : List Directive) : Parse Datasource := do
  let draft ← ds.foldlM DatasourceDraft.take {}
  draft.finish name path

end DatafileMigration.Grammar
