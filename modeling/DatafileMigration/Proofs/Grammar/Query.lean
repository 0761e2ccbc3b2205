import DatafileMigration.Module.Pipe
import DatafileMigration.Proofs.Grammar.Identity
import DatafileMigration.Proofs.Grammar.LongNumber
import DatafileMigration.Proofs.Template.Default
import DatafileMigration.Proofs.Template.Joined

namespace DatafileMigration

namespace Grammar

open Datafile

/-- The query that a directive gives to its node. -/
def query? (d : Directive) : Option Text :=
  if keyword? pipeKeywords d.keyword = some .sql then (readSql [] d).toOption else none

variable {draft next : PipeDraft} {d : Directive} {ds : List Directive} {name path : Text}
  {more : List Text}

/-- The name of a node counts for nothing in its query. -/
theorem readSql_eq_ok {node other sql : Text} (read : readSql node d = .ok sql) :
    readSql other d = .ok sql := by
  unfold readSql at read ⊢
  cases body : d.body with
  | inline value =>
    rw [body] at read
    cases read
  | block lines =>
    cases lines with
    | nil =>
      rw [body] at read
      cases read
    | cons first rest =>
      simp only [body] at read ⊢
      generalize Text.strip (Text.join "\n" _) = query at read ⊢
      by_cases empty : query = []
      · rw [if_pos empty] at read
        cases read
      · rw [if_neg empty] at read ⊢
        exact read

theorem query?_of_readSql {node sql : Text} (isQuery : keyword? pipeKeywords d.keyword = some .sql)
    (read : readSql node d = .ok sql) : query? d = some sql := by
  rw [query?, if_pos isQuery, readSql_eq_ok read]
  rfl

theorem query?_of_other {keyword : PipeKeyword}
    (found : keyword? pipeKeywords d.keyword = some keyword) (other : keyword ≠ .sql) :
    query? d = none := by
  rw [query?, found, if_neg (by simpa using other)]

namespace PipeDraft

/-- One draft comes from another by nodes for some more queries. -/
structure Grows (draft next : PipeDraft) (more : List Text) : Prop where
  queries : next.queries = draft.queries ++ more
  nodes : next.nodes.map (·.sql) = draft.nodes.map (·.sql) ++ more.map Template.normalize

theorem Grows.of_same (queries : next.queries = draft.queries) (nodes : next.nodes = draft.nodes) :
    draft.Grows next [] :=
  ⟨by rw [queries, List.append_nil], by rw [nodes, List.map_nil, List.append_nil]⟩

theorem Grows.trans {last : PipeDraft} {behind : List Text} (first : draft.Grows next more)
    (second : next.Grows last behind) : draft.Grows last (more ++ behind) :=
  ⟨by rw [second.queries, first.queries, List.append_assoc],
    by rw [second.nodes, first.nodes, List.map_append, List.append_assoc]⟩

theorem yields_describe (text : Text) : Yields (draft.Grows · []) (draft.describe text) := by
  unfold describe
  cases draft.opened with
  | some node => exact yields_ok.mpr (.of_same rfl rfl)
  | none =>
    simp only [yields_ite]
    refine ⟨fun _ => yields_ok.mpr (.of_same rfl rfl), fun _ => ?_⟩
    cases last : draft.nodes.getLast? with
    | none => exact yields_error
    | some node =>
      -- Only the description of the last node changes.
      obtain ⟨before, nodes⟩ := List.getLast?_eq_some_iff.mp last
      refine yields_ok.mpr ⟨(List.append_nil _).symm, ?_⟩
      simp [nodes]

theorem yields_closeNode (isQuery : keyword? pipeKeywords d.keyword = some .sql) :
    Yields (draft.Grows · (query? d).toList) (draft.closeNode d) := by
  unfold closeNode
  cases draft.opened with
  | none => exact yields_error
  | some node =>
    rw [yields_bind]
    intro sql read
    rw [query?_of_readSql isQuery read]
    exact yields_pure.mpr ⟨rfl, List.map_append⟩

/-- Directives that belong to no node leave all nodes and descriptions as they are. -/
theorem yields_set (keyword : PipeKeyword) :
    Yields (fun next => next.queries = draft.queries ∧ next.nodes = draft.nodes ∧
      next.opened = draft.opened ∧ next.description = draft.description)
      (draft.set d keyword) := by
  cases keyword with
  | description | node | sql | type | cache | datasource | targetDatasource | copySchedule |
    token => simp [set]
  | deploymentMethod => simp [set, yields_ite, -String.reduceToList]
  | copyMode =>
    rw [set, yields_bind]
    intro value _
    cases (Choice.ofText? value : Option CopyMode) <;> simp

theorem yields_openNode (name : Text) :
    Yields (fun next => next.queries = draft.queries ∧ next.nodes = draft.nodes)
      (draft.openNode name) := by
  simp [openNode, yields_ite]

/-- Of all directives, only a query gives a node its query. -/
theorem yields_take : Yields (draft.Grows · (query? d).toList) (draft.take d) := by
  have same (next : PipeDraft) (same : next.queries = draft.queries ∧ next.nodes = draft.nodes) :=
    Grows.of_same same.1 same.2
  unfold take
  cases found : keyword? pipeKeywords d.keyword with
  | none =>
    have noQuery : query? d = none := by rw [query?, found, if_neg (by decide)]
    rw [noQuery]
    exact yields_ok.mpr (.of_same rfl rfl)
  | some keyword =>
    cases keyword with
    | sql =>
      simp only [yields_mapError]
      exact yields_closeNode found
    | description =>
      rw [query?_of_other found (by decide)]
      simp only [yields_mapError]
      exact yields_describe _
    | node | type | cache | datasource | deploymentMethod | targetDatasource | copySchedule |
      copyMode | token =>
      rw [query?_of_other found (by decide)]
      cases draft.opened with
      | some node => exact yields_refuse
      | none =>
        simp only [yields_ite, yields_bind, yields_mapError]
        refine ⟨fun _ _ _ => (yields_openNode _).mono same, fun _ => (yields_set _).mono ?_⟩
        exact fun next kept => same next ⟨kept.1, kept.2.1⟩

theorem yields_foldlM_take :
    Yields (draft.Grows · (ds.filterMap query?)) (ds.foldlM take draft) := by
  induction ds generalizing draft with
  | nil => exact yields_pure.mpr (.of_same rfl rfl)
  | cons d ds ih =>
    rw [List.foldlM_cons, yields_bind]
    intro next taken
    refine ih.mono fun last grown => ?_
    have whole := (yields_take next taken).trans grown
    cases found : query? d with
    | none =>
      rw [List.filterMap_cons_none found]
      rwa [found] at whole
    | some sql =>
      rw [List.filterMap_cons_some found]
      rwa [found] at whole

/-- A finished pipe has the nodes of its draft, and the parameters that its type takes. -/
theorem yields_finish :
    Yields (fun p => p.type = draft.type ∧ p.nodes = draft.nodes ∧
      draft.parameters = .ok p.parameters) (draft.finish name path) := by
  cases closed : draft.opened <;> simp [finish, closed, yields_ite]

end PipeDraft

theorem PipeDraft.parameters_eq_ok {ps : List Parameter} : draft.parameters = .ok ps ↔
    if draft.type.takesParameters then Template.parameters (Text.join "\n" draft.queries) = .ok ps
    else ps = [] := by
  have whole (read : Except (Fault Template.ParameterError) (List Parameter)) :
      read.mapError (Fault.map Cause.parameter) = .ok ps ↔ read = .ok ps := by
    cases read <;> simp [Except.mapError]
  cases type : draft.type with
  | pipe | endpoint => simpa [parameters, type, PipeType.takesParameters] using whole _
  | materialized | copy => simp [parameters, type, PipeType.takesParameters, eq_comm]

theorem yields_buildPipe_queries :
    Yields (fun p => p.nodes.map (·.sql) = (ds.filterMap query?).map Template.normalize ∧
      PipeDraft.parameters { type := p.type, queries := ds.filterMap query? } = .ok p.parameters)
      (buildPipe name path ds) := by
  rw [buildPipe, yields_bind]
  intro draft taken
  refine PipeDraft.yields_finish.mono fun p finished => ?_
  obtain ⟨type, nodes, parameters⟩ := finished
  have grown := PipeDraft.yields_foldlM_take draft taken
  refine ⟨nodes ▸ grown.nodes, ?_⟩
  rw [← parameters, PipeDraft.parameters, PipeDraft.parameters, grown.queries, type]
  rfl

end Grammar

open Grammar

/-- The queries in a file, as they are written. -/
def Datafile.queries (file : Datafile) : List Text :=
  (Datafile.scan file.content).filterMap query?

/-- A call in one of the queries has a default for a parameter that its normal form is without. -/
def Datafile.LosesDefault (file : Datafile) (name : Text) : Prop :=
  ∃ sql ∈ file.queries, ∃ c ∈ Template.queryCalls sql, c.LosesDefault name

/-- Directives that are unknown give no node its query. -/
theorem Grammar.filterMap_query?_known (ds : List Datafile.Directive) :
    (knownDirectives .pipe ds).filterMap query? = ds.filterMap query? := by
  rw [knownDirectives, List.filterMap_filter]
  congr 1
  funext d
  split
  · rfl
  · rename_i unknown
    cases found : keyword? pipeKeywords d.keyword with
    | none => rw [query?, found, if_neg (by decide)]
    | some keyword =>
      refine absurd ?_ unknown
      rw [List.contains_iff_mem]
      exact List.mem_map_of_mem (mem_of_keyword? found)

theorem Datafile.parse_queries {strict : Bool} {file : Datafile} {p : Pipe}
    (parsed : file.parse strict = .ok (.pipe p)) :
    p.nodes.map (·.sql) = file.queries.map Template.normalize ∧
      PipeDraft.parameters { type := p.type, queries := file.queries } = .ok p.parameters := by
  have kind : file.kind = .pipe := (file.parse_identity parsed).1.symm
  have built : Yields (fun r => ∀ p, r = .pipe p →
      p.nodes.map (·.sql) = file.queries.map Template.normalize ∧
      PipeDraft.parameters { type := p.type, queries := file.queries } = .ok p.parameters)
      (file.parse strict) := by
    rw [Datafile.parse, yields_mapError, yields_bind]
    intro ds selected
    rw [kind, selectKnown_eq_ok] at selected
    rw [yields_bind, kind, build, yields_map]
    have queries : ds.filterMap query? = file.queries := by
      rw [← selected.2, filterMap_query?_known, Datafile.queries]
    refine yields_buildPipe_queries.mono fun q holds => ?_
    rw [queries] at holds
    cases valid : (Resource.pipe q).violations with
    | nil => simpa [requireValid, valid] using holds
    | cons v vs => simp [requireValid, valid]
  exact built _ parsed p rfl

/-- A pipe that takes parameters has the queries of its file in normal form, and each default that
is lost that way is the default of a parameter. Other pipes have no parameters. -/
theorem Datafile.parse_keeps_defaults {strict : Bool} {file : Datafile} {p : Pipe}
    (parsed : file.parse strict = .ok (.pipe p)) :
    if p.type.takesParameters then
      p.nodes.map (·.sql) = file.queries.map Template.normalize ∧
        ∀ name, file.LosesDefault name → Template.HasDefault p.parameters name
    else p.parameters = [] := by
  obtain ⟨nodes, declared⟩ := parse_queries parsed
  rw [PipeDraft.parameters_eq_ok] at declared
  cases takes : p.type.takesParameters with
  | false => simpa [takes] using declared
  | true =>
    simp only [takes, if_true] at declared ⊢
    refine ⟨nodes, ?_⟩
    rintro name ⟨sql, isQuery, c, isCall, loses⟩
    obtain ⟨expression, inQuery, inExpression⟩ := List.mem_flatMap.mp isCall
    have isCall' : c ∈ Template.queryCalls (Text.join "\n" file.queries) := List.mem_flatMap.mpr
      ⟨expression, Template.expressions_subset_join isQuery inQuery, inExpression⟩
    exact Template.hasDefault_parameters declared isCall' loses

/-- A file of a pipe whose query has a limit with a default. -/
def limitedFile (rest : Text) : Datafile where
  kind := .pipe
  path := "p.pipe"
  name := "p"
  content := "NODE n\nSQL >\n    SELECT \x7b\x7b Int32(limit, 10) \x7d\x7d\n\nTYPE " ++ rest

def limitedEndpoint : Pipe where
  name := "p"
  path := "p.pipe"
  type := .endpoint
  nodes := [{ name := "n", sql := "SELECT \x7b\x7b Int32(limit) \x7d\x7d" }]
  parameters := [{ name := "limit", type := "Int32", required := false, default := some (.int 10) }]

theorem parse_keeps_defaults_endpoint :
    (limitedFile "endpoint").parse true = .ok (.pipe limitedEndpoint) ∧
      limitedEndpoint.nodes.map (·.sql) =
        (limitedFile "endpoint").queries.map Template.normalize ∧
      ∀ name, (limitedFile "endpoint").LosesDefault name →
        Template.HasDefault limitedEndpoint.parameters name := by
  have parsed : (limitedFile "endpoint").parse true = .ok (.pipe limitedEndpoint) := by
    unfold limitedFile limitedEndpoint
    repeat rw [String.toList_ofList]
    decide +kernel
  exact ⟨parsed, Datafile.parse_keeps_defaults parsed⟩

def limitedCopy : Pipe where
  name := "p"
  path := "p.pipe"
  type := .copy
  nodes := [{ name := "n", sql := "SELECT \x7b\x7b Int32(limit) \x7d\x7d" }]
  copyTarget := some "t"

/-- A pipe that copies its result has no parameter for its limit. -/
theorem limitedFile_copy :
    (limitedFile "copy\nTARGET_DATASOURCE t").parse true = .ok (.pipe limitedCopy) ∧
      (limitedFile "copy\nTARGET_DATASOURCE t").LosesDefault "limit" ∧
      ¬ Template.HasDefault limitedCopy.parameters "limit" := by
  have parsed : (limitedFile "copy\nTARGET_DATASOURCE t").parse true = .ok (.pipe limitedCopy) := by
    unfold limitedFile limitedCopy
    repeat rw [String.toList_ofList]
    decide +kernel
  have queried : "SELECT \x7b\x7b Int32(limit, 10) \x7d\x7d".toList ∈
      (limitedFile "copy\nTARGET_DATASOURCE t").queries := by
    unfold limitedFile
    repeat rw [String.toList_ofList]
    decide +kernel
  refine ⟨parsed, ⟨_, queried, ⟨"Int32", [], "limit, 10"⟩, by decide +kernel, by decide +kernel,
    "10", by decide +kernel, .positional (by decide) (by decide)⟩, ?_⟩
  rintro ⟨_, member, _⟩
  cases member

end DatafileMigration
