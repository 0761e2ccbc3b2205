import DatafileMigration.Proofs.Grammar.Phase
import DatafileMigration.Proofs.Grammar.Query
import DatafileMigration.Proofs.Grammar.Validity

namespace DatafileMigration.Grammar

open Datafile

variable {ε α β : Type}

/-- Of two stages both have a result or neither has one, and their results belong together. -/
inductive Matches (R : α → β → Prop) : Except ε α → Option β → Prop
  | neither (e : ε) : Matches R (.error e) none
  | both {a : α} {b : β} : R a b → Matches R (.ok a) (some b)

theorem Matches.mapError {ε' : Type} {R : α → β → Prop} {x : Except ε α} {y : Option β}
    (whole : Matches R x y) (f : ε → ε') : Matches R (x.mapError f) y := by
  cases whole with
  | neither e => exact .neither (f e)
  | both related => exact .both related

theorem Matches.mono {R S : α → β → Prop} {x : Except ε α} {y : Option β} (whole : Matches R x y)
    (weaker : ∀ a b, R a b → S a b) : Matches S x y := by
  cases whole with
  | neither e => exact .neither e
  | both related => exact .both (weaker _ _ related)

/-- The lines of a query without a marker in front. -/
def withoutMarker : List Text → List Text
  | [] => []
  | first :: rest => if Text.strip first = "%" then rest else first :: rest

/-- The query in a block as it is written. -/
def queryBody (d : Directive) : Text :=
  match d.body with
  | .inline _ => []
  | .block lines => Text.join "\n" (withoutMarker lines)

/-- A name that is not empty, a description, or a query that is neither blank nor a template. -/
inductive NodeDirective (d : Directive) : Prop
  | node {value : Text} : d.keyword = "NODE" → d.body = .inline value → unquote value ≠ [] →
      NodeDirective d
  | description : d.keyword = "DESCRIPTION" → NodeDirective d
  | query {lines : List Text} : d.keyword = "SQL" → d.body = .block lines →
      Text.strip (queryBody d) ≠ [] → Template.Unopened (queryBody d) → NodeDirective d

/-- The names that directives give to nodes, in order. -/
def nodeNames (ds : List Directive) : List Text :=
  (ds.filter fun d : Directive => d.keyword = "NODE").map fun d => unquote d.value

/-- The queries that directives give to nodes, in order. -/
def nodeQueries (ds : List Directive) : List Text :=
  (ds.filter fun d : Directive => d.keyword = "SQL").map fun d => Text.strip (queryBody d)

/-- Directives of nodes with names that are all different. -/
structure NodeStream (ds : List Directive) : Prop where
  each : ∀ d ∈ ds, NodeDirective d
  distinct : (nodeNames ds).Nodup

variable {d : Directive} {ds : List Directive} {name path : Text}

theorem NodeDirective.isNodePart (part : NodeDirective d) : Phase.IsNodePart d := by
  cases part with
  | node isNode => exact .inl isNode
  | description isDescription => exact .inr (.inl isDescription)
  | query isQuery => exact .inr (.inr isQuery)

theorem nodeNames_cons (d : Directive) (ds : List Directive) :
    nodeNames (d :: ds) = nodeNames [d] ++ nodeNames ds := by
  rw [nodeNames, nodeNames, nodeNames, ← List.map_append, ← List.filter_append]
  rfl

theorem nodeNames_node (isNode : d.keyword = "NODE") : nodeNames [d] = [unquote d.value] := by
  simp [nodeNames, isNode]

theorem nodeNames_other (other : d.keyword ≠ "NODE") : nodeNames [d] = [] := by
  simpa [nodeNames, List.filter_cons, -String.reduceToList] using other

theorem readSql_of_block {lines : List Text} (block : d.body = .block lines)
    (filled : Text.strip (queryBody d) ≠ []) (node : Text) :
    readSql node d = .ok (Text.strip (queryBody d)) := by
  rw [queryBody, block] at filled ⊢
  cases lines with
  | nil => exact absurd rfl filled
  | cons first rest =>
    rw [readSql, block]
    exact if_neg filled

namespace PipeDraft

/-- How far the nodes of a draft are. -/
def phase (draft : PipeDraft) : Phase :=
  if draft.opened.isSome then .opened
  else if draft.nodes ≠ [] then .closed
  else if draft.description.isSome then .described
  else .start

/-- The names of the nodes, with the open one. -/
def names (draft : PipeDraft) : List Text :=
  draft.nodes.map (·.name) ++ draft.opened.toList.map (·.name)

/-- One draft comes from another, in a phase, by some more names of nodes. -/
structure Passes (draft next : PipeDraft) (phase : Phase) (more : List Text) : Prop where
  phase : next.phase = phase
  names : next.names = draft.names ++ more
  type : next.type = draft.type
  cacheTtl : next.cacheTtl = draft.cacheTtl

variable {draft next : PipeDraft}

theorem phase_opened (opened : draft.opened.isSome) : draft.phase = .opened := if_pos opened

theorem phase_closed (opened : draft.opened = none) (nodes : draft.nodes ≠ []) :
    draft.phase = .closed := by
  rw [phase, opened, if_neg (by decide), if_pos nodes]

theorem phase_header (opened : draft.opened = none) (nodes : draft.nodes = []) :
    draft.phase = if draft.description.isSome then .described else .start := by
  rw [phase, opened, nodes, if_neg (by decide), if_neg (by decide)]

theorem phase_ne_opened (opened : draft.opened = none) : draft.phase ≠ .opened := by
  by_cases nodes : draft.nodes = []
  · rw [phase_header opened nodes]
    split <;> decide
  · rw [phase_closed opened nodes]
    decide

theorem matches_describe (text : Text) :
    Matches (fun next phase => draft.Passes next phase []) (draft.describe text)
      draft.phase.describe := by
  unfold describe
  cases opened : draft.opened with
  | some node =>
    rw [phase_opened (by rw [opened]; rfl)]
    exact .both ⟨rfl, by simp [names, opened], rfl, rfl⟩
  | none =>
    by_cases nodes : draft.nodes = []
    · rw [phase_header opened nodes]
      cases described : draft.description with
      | none =>
        exact .both ⟨phase_header rfl nodes, by simp [names, opened], rfl, rfl⟩
      | some other =>
        simp only [nodes]
        exact .neither _
    · rw [phase_closed opened nodes]
      cases described : draft.description with
      | none => exact .both ⟨phase_closed rfl nodes, by simp [names, opened], rfl, rfl⟩
      | some other =>
        obtain ⟨before, node, whole⟩ := (List.eq_nil_or_concat' draft.nodes).resolve_left nodes
        simp only [whole, List.getLast?_concat, List.dropLast_concat]
        exact .both ⟨phase_closed rfl (by simp), by simp [names, opened, whole], rfl, rfl⟩

theorem matches_openNode (opened : draft.opened = none) (named : name ≠ [])
    (fresh : name ∉ draft.names) :
    Matches (fun next phase => draft.Passes next phase [name]) (draft.openNode name)
      (some .opened) := by
  have unknown : draft.nodes.any (·.name = name) = false := by
    simpa [names, opened] using fresh
  rw [openNode, if_neg named, unknown, if_neg Bool.false_ne_true]
  exact .both ⟨rfl, by simp [names, opened], rfl, rfl⟩

theorem matches_closeNode (read : ∀ node, ∃ sql, readSql node d = .ok sql) :
    Matches (fun next phase => draft.Passes next phase []) (draft.closeNode d)
      (if draft.phase = .opened then some .closed else none) := by
  unfold closeNode
  cases opened : draft.opened with
  | none =>
    rw [if_neg (phase_ne_opened opened)]
    exact .neither _
  | some node =>
    obtain ⟨sql, read⟩ := read node.name
    rw [if_pos (phase_opened (by rw [opened]; rfl))]
    simp only [read]
    exact .both ⟨phase_closed rfl (by simp), by simp [names, opened], rfl, rfl⟩

/-- A directive of a node takes a draft to the next phase, or is refused where the phases have
none. -/
theorem matches_take (part : NodeDirective d) (fresh : (draft.names ++ nodeNames [d]).Nodup) :
    Matches (fun next phase => draft.Passes next phase (nodeNames [d])) (draft.take d)
      (draft.phase.read d) := by
  unfold take
  cases part with
  | @node value isNode inline named =>
    have found : keyword? pipeKeywords d.keyword = some .node := isNode ▸ rfl
    have name : requireUnquoted d = .ok (unquote value) := by
      rw [requireUnquoted, requireInline, inline]
      rfl
    have spelled : nodeNames [d] = [unquote value] := by
      rw [nodeNames_node isNode, Directive.value, inline]
    rw [Phase.read_node isNode]
    simp only [found]
    cases opened : draft.opened with
    | some node =>
      rw [if_pos (phase_opened (by rw [opened]; rfl))]
      exact .neither _
    | none =>
      rw [spelled] at fresh ⊢
      have unknown : unquote value ∉ draft.names := fun known =>
        (List.nodup_append.mp fresh).2.2 _ known _ List.mem_cons_self rfl
      rw [if_neg (phase_ne_opened opened), name]
      exact (matches_openNode opened named unknown).mapError _
  | description isDescription =>
    have found : keyword? pipeKeywords d.keyword = some .description := isDescription ▸ rfl
    rw [Phase.read_description isDescription, nodeNames_other (isDescription ▸ by decide)]
    simp only [found]
    exact (matches_describe _).mapError _
  | query isQuery block filled _ =>
    have found : keyword? pipeKeywords d.keyword = some .sql := isQuery ▸ rfl
    rw [Phase.read_query isQuery, nodeNames_other (isQuery ▸ by decide)]
    simp only [found]
    exact (matches_closeNode fun node => ⟨_, readSql_of_block block filled node⟩).mapError _

/-- Directives of nodes take a draft through the phases. -/
theorem matches_foldlM_take (each : ∀ d ∈ ds, NodeDirective d)
    (fresh : (draft.names ++ nodeNames ds).Nodup) :
    Matches (fun next phase => draft.Passes next phase (nodeNames ds)) (ds.foldlM take draft)
      (ds.foldlM Phase.read draft.phase) := by
  induction ds generalizing draft with
  | nil => exact .both ⟨rfl, (List.append_nil _).symm, rfl, rfl⟩
  | cons d ds ih =>
    rw [List.forall_mem_cons] at each
    rw [nodeNames_cons, ← List.append_assoc] at fresh
    rw [List.foldlM_cons, List.foldlM_cons]
    have step := matches_take each.1 (List.nodup_append.mp fresh).1
    generalize draft.take d = taken, draft.phase.read d = reached at step
    cases step with
    | neither e => exact .neither e
    | @both next phase passes =>
      obtain rfl := passes.phase
      refine (ih each.2 (by rw [passes.names]; exact fresh)).mono fun last phase behind => ?_
      refine ⟨behind.phase, ?_, behind.type.trans passes.type,
        behind.cacheTtl.trans passes.cacheTtl⟩
      rw [behind.names, passes.names, nodeNames_cons d ds, List.append_assoc]

/-- Without what belongs to a certain type, a draft is finished exactly behind a node. -/
theorem exists_finish_iff (type : draft.type = .pipe) (cacheTtl : draft.cacheTtl = none)
    (parameters : draft.parameters = .ok []) :
    (∃ p, draft.finish name path = .ok p) ↔ draft.phase = .closed := by
  unfold finish
  cases opened : draft.opened with
  | some node =>
    rw [phase_opened (by rw [opened]; rfl)]
    refine iff_of_false ?_ (by decide)
    rintro ⟨p, finished⟩
    cases finished
  | none =>
    by_cases nodes : draft.nodes = []
    · rw [phase_header opened nodes, if_pos nodes]
      refine iff_of_false ?_ (by split <;> decide)
      rintro ⟨p, finished⟩
      cases finished
    · refine iff_of_true ?_ (phase_closed opened nodes)
      simp [nodes, type, cacheTtl, parameters]

end PipeDraft

theorem filterMap_query?_nodes (each : ∀ d ∈ ds, NodeDirective d) :
    ds.filterMap query? = nodeQueries ds := by
  rw [nodeQueries, ← List.filterMap_eq_map, List.filterMap_filter]
  refine List.filterMap_congr fun d member => ?_
  cases each d member with
  | node isNode =>
    have found : keyword? pipeKeywords d.keyword = some .node := isNode ▸ rfl
    rw [query?_of_other found (by decide), isNode]
    rfl
  | description isDescription =>
    have found : keyword? pipeKeywords d.keyword = some .description := isDescription ▸ rfl
    rw [query?_of_other found (by decide), isDescription]
    rfl
  | query isQuery block filled _ =>
    have found : keyword? pipeKeywords d.keyword = some .sql := isQuery ▸ rfl
    rw [query?_of_readSql found (readSql_of_block block filled []), isQuery]
    rfl

theorem unopened_of_mem_nodeQueries (each : ∀ d ∈ ds, NodeDirective d) :
    ∀ sql ∈ nodeQueries ds, Template.Unopened sql := by
  intro sql isSql
  obtain ⟨d, found, rfl⟩ := List.mem_map.mp isSql
  obtain ⟨member, isQuery⟩ := List.mem_filter.mp found
  rw [decide_eq_true_eq] at isQuery
  cases each d member with
  | node isNode => exact absurd (isNode.symm.trans isQuery) (by decide)
  | description isDescription => exact absurd (isDescription.symm.trans isQuery) (by decide)
  | query _ _ _ unopened => exact unopened.of_infix (Text.strip_isInfix _)

theorem NodeStream.passes (stream : NodeStream ds) :
    Matches (fun draft phase => PipeDraft.Passes {} draft phase (nodeNames ds))
      (ds.foldlM PipeDraft.take {}) (ds.foldlM Phase.read .start) :=
  PipeDraft.matches_foldlM_take stream.each stream.distinct

/-- What directives of nodes leave of a draft, if they leave one. -/
theorem NodeStream.draft_of_taken {draft : PipeDraft} (stream : NodeStream ds)
    (taken : ds.foldlM PipeDraft.take {} = .ok draft) :
    draft.names = nodeNames ds ∧ draft.type = .pipe ∧ draft.cacheTtl = none ∧
      draft.parameters = .ok [] := by
  have passes := stream.passes
  rw [taken] at passes
  generalize ds.foldlM Phase.read _ = reached at passes
  cases passes with
  | both passes =>
    refine ⟨passes.names, passes.type, passes.cacheTtl, ?_⟩
    have grown := PipeDraft.yields_foldlM_take draft taken
    rw [filterMap_query?_nodes stream.each] at grown
    have unopened := Template.Unopened.join (unopened_of_mem_nodeQueries stream.each)
    rw [PipeDraft.parameters_eq_ok, passes.type, grown.queries]
    exact unopened.parameters

/-- Directives of nodes define a pipe exactly if they are a sequence of nodes. -/
theorem exists_buildPipe_iff (stream : NodeStream ds) :
    (∃ p, buildPipe name path ds = .ok p) ↔ NodeSequence ds := by
  have parts := fun d member => (stream.each d member).isNodePart
  rw [← Phase.run_iff_nodeSequence parts, buildPipe]
  have passes := stream.passes
  have left (draft : PipeDraft) (taken : ds.foldlM PipeDraft.take {} = .ok draft) :=
    stream.draft_of_taken taken
  generalize ds.foldlM PipeDraft.take {} = taken, ds.foldlM Phase.read .start = run
    at passes left
  cases passes with
  | neither e =>
    refine iff_of_false ?_ (Option.some_ne_none _).symm
    rintro ⟨p, built⟩
    cases built
  | @both draft phase passes =>
    obtain ⟨_, type, cacheTtl, parameters⟩ := left draft rfl
    rw [Option.some.injEq, ← passes.phase]
    exact PipeDraft.exists_finish_iff type cacheTtl parameters

theorem yields_buildPipe_nodes (stream : NodeStream ds) :
    Yields (fun p => p.nodes.map (·.name) = nodeNames ds ∧ p.nodes.map (·.sql) = nodeQueries ds)
      (buildPipe name path ds) := by
  intro p built
  constructor
  · obtain ⟨draft, taken, finished⟩ := bind_eq_ok.mp built
    obtain ⟨names, type, cacheTtl, parameters⟩ := stream.draft_of_taken taken
    have closed := (PipeDraft.exists_finish_iff type cacheTtl parameters).mp ⟨p, finished⟩
    rw [(PipeDraft.yields_finish p finished).2.1, ← names, PipeDraft.names]
    cases opened : draft.opened with
    | none => exact (List.append_nil _).symm
    | some node => cases closed.symm.trans (PipeDraft.phase_opened (by rw [opened]; rfl))
  · have queries := (yields_buildPipe_queries p built).1
    rw [filterMap_query?_nodes stream.each] at queries
    rw [queries]
    have normal : ∀ sql ∈ nodeQueries ds, Template.normalize sql = id sql := fun sql isQuery =>
      (unopened_of_mem_nodeQueries stream.each sql isQuery).normalize
    rw [List.map_congr_left normal, List.map_id]

/-- Named, directives of nodes define a valid pipe exactly if they are a sequence of nodes. The
nodes of the pipe have the names and the queries of the directives, in order. -/
theorem build_nodes_iff (named : name ≠ []) (stream : NodeStream ds) :
    ((∃ r, (build .pipe name path ds >>= requireValid .pipe) = .ok r) ↔ NodeSequence ds) ∧
    ∀ r, (build .pipe name path ds >>= requireValid .pipe) = .ok r → ∃ p, r = .pipe p ∧
      p.nodes.map (·.name) = nodeNames ds ∧ p.nodes.map (·.sql) = nodeQueries ds := by
  have valid {r : Resource} : (build .pipe name path ds >>= requireValid .pipe) = .ok r ↔
      ∃ p, buildPipe name path ds = .ok p ∧ r = .pipe p := by
    rw [bind_eq_ok]
    constructor
    · rintro ⟨made, built, required⟩
      obtain ⟨p, built', rfl⟩ := map_eq_ok.mp built
      rw [requireValid_of_valid (yields_build_valid named _ built)] at required
      exact ⟨p, built', (Except.ok.inj required).symm⟩
    · rintro ⟨p, built', rfl⟩
      have built : build .pipe name path ds = .ok (.pipe p) := map_eq_ok.mpr ⟨p, built', rfl⟩
      exact ⟨_, built, requireValid_of_valid (yields_build_valid named _ built)⟩
  constructor
  · rw [← exists_buildPipe_iff stream]
    constructor
    · rintro ⟨r, accepted⟩
      obtain ⟨p, built, _⟩ := valid.mp accepted
      exact ⟨p, built⟩
    · rintro ⟨p, built⟩
      exact ⟨_, valid.mpr ⟨p, built, rfl⟩⟩
  · intro r accepted
    obtain ⟨p, built, rfl⟩ := valid.mp accepted
    exact ⟨p, rfl, yields_buildPipe_nodes stream p built⟩

/-- Two nodes; the pipe and the first of them are described, and its query is marked. -/
def twoNodes : List Directive := [
  ⟨"DESCRIPTION", .inline "both", 1⟩,
  ⟨"NODE", .inline "a", 2⟩,
  ⟨"DESCRIPTION", .block ["first"], 3⟩,
  ⟨"SQL", .block ["%", "SELECT 1"], 5⟩,
  ⟨"NODE", .inline "b", 8⟩,
  ⟨"SQL", .block ["SELECT 2"], 9⟩]

theorem build_nodes_iff_twoNodes : ("p" : Text) ≠ [] ∧ NodeStream twoNodes ∧
    NodeSequence twoNodes ∧ ∃ p,
      (build .pipe "p" "p.pipe" twoNodes >>= requireValid .pipe) = .ok (.pipe p) ∧
        p.nodes.map (·.name) = ["a", "b"] ∧ p.nodes.map (·.sql) = ["SELECT 1", "SELECT 2"] := by
  have named : ("p" : Text) ≠ [] := by decide
  have stream : NodeStream twoNodes := by
    refine ⟨?_, by decide +kernel⟩
    intro d member
    simp only [twoNodes, List.mem_cons, List.not_mem_nil, or_false] at member
    rcases member with rfl | rfl | rfl | rfl | rfl | rfl
    · exact .description rfl
    · exact .node rfl rfl (by decide)
    · exact .description rfl
    · exact .query rfl rfl (by decide) (Template.unopened_iff_isChain.mpr (by decide))
    · exact .node rfl rfl (by decide)
    · exact .query rfl rfl (by decide) (Template.unopened_iff_isChain.mpr (by decide))
  obtain ⟨accepts, nodes⟩ := @build_nodes_iff _ _ "p.pipe" named stream
  obtain ⟨r, accepted, _⟩ := exists_eq_ok (p := fun _ => true)
    (x := build .pipe "p" "p.pipe" twoNodes >>= requireValid .pipe) (by decide +kernel)
  obtain ⟨p, rfl, names, queries⟩ := nodes r accepted
  exact ⟨named, stream, accepts.mp ⟨_, accepted⟩, p, accepted, names, queries⟩

end DatafileMigration.Grammar
