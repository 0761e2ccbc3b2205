import DatafileMigration.Grammar.Datasource
import DatafileMigration.Number.Signed
import DatafileMigration.Template.Normalize

namespace DatafileMigration.Grammar

open Datafile

/-- A node whose query is still to come. -/
structure OpenNode where
  name : Text
  description : Option Text := none
  deriving DecidableEq, Repr

/-- The parts of a pipe as far as they are read. -/
structure PipeDraft where
  opened : Option OpenNode := none
  nodes : List Node := []
  /-- The queries of the nodes as written. -/
  queries : List Text := []
  description : Option Text := none
  type : PipeType := .pipe
  cacheTtl : Option Int := none
  materializedDatasource : Option Text := none
  alter : Bool := false
  copyTarget : Option Text := none
  copySchedule : Option Text := none
  copyMode : Option CopyMode := none
  tokens : List Text := []
  deriving DecidableEq, Repr

/-- The query in a node's block; a first line with nothing but `%` is a marker. -/
def readSql (node : Text) (d : Directive) : Except Cause Text :=
  match d.body with
  | .inline _ => throw (.nodeWithoutSql node)
  | .block [] => throw (.emptySql node)
  | .block (first :: rest) =>
    let lines := if Text.strip first = "%" then rest else first :: rest
    let sql := Text.strip (Text.join "\n" lines)
    if sql = [] then throw (.markerWithoutSql node) else return sql

/-- How long results are kept: an integer that is not negative. -/
def readCache (value : Text) : Except Cause Int :=
  match integer? value with
  | some n => if n < 0 then throw (.cache value) else return n
  | none => throw (.cache value)

def readPipeType (value : Text) : Except Cause PipeType :=
  match (Choice.ofText? (Text.lower value) : Option PipeType) with
  | some .pipe | none => throw (.pipeType value)
  | some type => return type

/-- A token's name; reading is all that it may allow. -/
def readPipeToken (value : Text) : Except Cause Text := do
  let trimmed := Text.strip value
  let (name, scope) ← match quotedToken? trimmed with
    | some (name, scope) => pure (name, scope.getD "READ")
    | none =>
      match Text.words trimmed with
      | [] => throw .emptyToken
      | [name] => pure (unquote name, ("READ" : Text))
      | [name, scope] => pure (unquote name, scope)
      | _ => throw (.tokenSyntax value)
  if scope = "READ" then return name else throw (.pipeScope scope)

namespace PipeDraft

/-- A description belongs to the open node, or to the pipe, or to the last node. -/
def describe (draft : PipeDraft) (text : Text) : Except Cause PipeDraft :=
  match draft.opened with
  | some node => .ok { draft with opened := some { node with description := some text } }
  | none =>
    if draft.description.isNone then .ok { draft with description := some text }
    else match draft.nodes.getLast? with
      | some node =>
        .ok { draft with nodes := draft.nodes.dropLast ++ [{ node with description := some text }] }
      | none => .error .looseDescription

/-- The draft after the name of a node. -/
def openNode (draft : PipeDraft) (name : Text) : Except Cause PipeDraft :=
  if name = [] then .error .nodeWithoutName
  else if draft.nodes.any (·.name = name) then .error (.duplicateNode name)
  else .ok { draft with opened := some { name } }

/-- The draft after the query of the open node. -/
def closeNode (draft : PipeDraft) (d : Directive) : Except Cause PipeDraft :=
  match draft.opened with
  | none => .error .sqlWithoutNode
  | some node => do
    let sql ← readSql node.name d
    return { draft with
      opened := none
      queries := draft.queries ++ [sql]
      nodes := draft.nodes
        ++ [{ name := node.name, description := node.description, sql := Template.normalize sql }] }

/-- The draft after a directive that may stand anywhere but between a node and its query. -/
def set (draft : PipeDraft) (d : Directive) : PipeKeyword → Parse PipeDraft
  | .description | .node | .sql => .ok draft
  | .type => do
    let type ← (readPipeType (← requireUnquoted d)).mapError .refused
    return { draft with type }
  | .cache => do
    let ttl ← (readCache (← requireInline d)).mapError .refused
    return { draft with cacheTtl := some ttl }
  | .datasource => do
    let value ← requireUnquoted d
    return { draft with materializedDatasource := some value }
  | .deploymentMethod => do
    let value ← requireUnquoted d
    if value = "alter" then return { draft with alter := true }
    else refuse (.deploymentMethod value)
  | .targetDatasource => do
    let value ← requireUnquoted d
    return { draft with copyTarget := some value }
  | .copySchedule => do
    let value ← requireUnquoted d
    return { draft with copySchedule := some value }
  | .copyMode => do
    let value ← requireUnquoted d
    match Choice.ofText? value with
    | some mode => return { draft with copyMode := some mode }
    | none => refuse (.copyMode value)
  | .token => do
    let name ← (readPipeToken (← requireInline d)).mapError .refused
    return { draft with tokens := draft.tokens ++ [name] }

def take (draft : PipeDraft) (d : Directive) : Parse PipeDraft :=
  match keyword? pipeKeywords d.keyword with
  | none => .ok draft
  | some .description => (draft.describe (descriptionText d)).mapError .refused
  | some .sql => (draft.closeNode d).mapError .refused
  | some keyword =>
    match draft.opened with
    | some node => refuse (.nodeWithoutSql node.name)
    | none =>
      if keyword = .node then do
        let name ← requireUnquoted d
        (draft.openNode name).mapError .refused
      else draft.set d keyword

/-- The parameters of a pipe; materialized and copy pipes have none. -/
def parameters (draft : PipeDraft) : Parse (List Parameter) :=
  match draft.type with
  | .materialized | .copy => .ok []
  | _ => (Template.parameters (Text.join "\n" draft.queries)).mapError (Fault.map .parameter)

/-- The pipe, if all its parts are there and fit together. -/
def finish (draft : PipeDraft) (name path : Text) : Parse Pipe := do
  match draft.opened with
  | some node => refuse (.nodeWithoutSql node.name)
  | none => pure ()
  if draft.nodes = [] then refuse .nodeRequired
  if draft.type ≠ .endpoint && draft.cacheTtl.isSome then refuse .cacheWithoutEndpoint
  if draft.type = .materialized && !isFilled draft.materializedDatasource then
    refuse .materializedTarget
  if draft.type = .copy && !isFilled draft.copyTarget then refuse .copyTarget
  let parameters ← draft.parameters
  return {
    name, path, description := draft.description, type := draft.type, nodes := draft.nodes,
    cacheTtl := draft.cacheTtl, materializedDatasource := draft.materializedDatasource,
    alter := draft.alter, copyTarget := draft.copyTarget, copySchedule := draft.copySchedule,
    copyMode := draft.copyMode, tokens := draft.tokens, parameters }

end PipeDraft

/-- A node is opened by its name, may be described, and is closed by its query; no other directive
stands between. Parameters are read off the queries as written, the nodes keep them in normal form.
-/
def buildPipe (name path : Text) (ds : List Directive) : Parse Pipe := do
  let draft ← ds.foldlM PipeDraft.take {}
  draft.finish name path

end DatafileMigration.Grammar
