import DatafileMigration.Proofs.Grammar.Query

namespace DatafileMigration.Grammar

open Datafile

variable {d : Directive} {ds : List Directive} {draft : PipeDraft} {name path : Text} {p : Pipe}
  {opened : Bool}

def isNode (d : Directive) : Bool := d.keyword = "NODE"

def isQuery (d : Directive) : Bool := d.keyword = "SQL"

def isDescription (d : Directive) : Bool := d.keyword = "DESCRIPTION"

/-- The keywords of a pipe, told from their spelling. -/
theorem spelled_iff {spelling : Text} {keyword : PipeKeyword}
    (spells : keyword? pipeKeywords spelling = some keyword) :
    decide (d.keyword = spelling) ↔ keyword? pipeKeywords d.keyword = some keyword := by
  rw [keyword?_eq_some_iff (by decide) spells, decide_eq_true_eq]

theorem isNode_iff : isNode d ↔ keyword? pipeKeywords d.keyword = some .node := spelled_iff rfl

theorem isQuery_iff : isQuery d ↔ keyword? pipeKeywords d.keyword = some .sql := spelled_iff rfl

theorem isDescription_iff :
    isDescription d ↔ keyword? pipeKeywords d.keyword = some .description := spelled_iff rfl

theorem isDescription_of_isNode (node : isNode d) : isDescription d = false := by
  refine Bool.eq_false_iff.mpr fun description => ?_
  rw [isDescription_iff, isNode_iff.mp node] at description
  cases description

theorem isDescription_of_isQuery (query : isQuery d) : isDescription d = false := by
  refine Bool.eq_false_iff.mpr fun description => ?_
  rw [isDescription_iff, isQuery_iff.mp query] at description
  cases description

/-- What stands before every node. -/
def header (ds : List Directive) : List Directive := ds.takeWhile (!isNode ·)

/-- Each node with what follows it, up to the next one. -/
def sections : List Directive → List (Directive × List Directive)
  | [] => []
  | d :: ds => if isNode d then (d, header ds) :: sections ds else sections ds

def lastDescription (ds : List Directive) : Option Text :=
  ((ds.filter isDescription).getLast?).map descriptionText

theorem header_node (node : isNode d) : header (d :: ds) = [] := by
  rw [header, List.takeWhile_cons_of_neg (by simp [node])]

theorem header_other (other : isNode d = false) : header (d :: ds) = d :: header ds := by
  rw [header, List.takeWhile_cons_of_pos (by simp [other])]
  rfl

theorem lastDescription_cons : lastDescription (d :: ds) =
    (lastDescription ds).or (if isDescription d then some (descriptionText d) else none) := by
  rw [lastDescription, lastDescription, List.filter_cons]
  cases isDescription d with
  | false => simp
  | true => simp [List.getLast?_cons]

/-- The name of a node, and the last description that follows it. -/
def account (node : Directive × List Directive) : Text × Option Text :=
  (unquote node.1.value, lastDescription node.2)

/-- The first description that stands in no open node is taken out. A node is open up to its
query. -/
def takeLoose (opened : Bool) : List Directive → Option Directive × List Directive
  | [] => (none, [])
  | d :: ds =>
    if isDescription d && !opened then (some d, ds)
    else
      let behind := takeLoose (isNode d || opened && !isQuery d) ds
      (behind.1, d :: behind.2)

/-- A pipe is described by its header, and each node by what follows it. -/
structure DescribedInPlace (p : Pipe) (ds : List Directive) : Prop where
  pipe : p.description = ((header ds).find? isDescription).map descriptionText
  nodes : p.nodes.map (fun n => (n.name, n.description)) = (sections ds).map account

theorem eq_unquote_value (read : requireUnquoted d = .ok name) : name = unquote d.value := by
  obtain ⟨value, inline, rfl⟩ := map_eq_ok.mp read
  unfold requireInline at inline
  unfold Directive.value
  cases body : d.body with
  | inline value' =>
    rw [body] at inline
    rw [Except.ok.inj inline]
  | block lines =>
    rw [body] at inline
    cases inline

/-- Whether a node is open, what describes the pipe, and what describes its nodes by name. -/
structure Descriptions where
  opened : Bool
  pipe : Option Text
  nodes : List (Text × Option Text)

/-- The last node described anew, if there is a node and a text for it. -/
def redescribe (nodes : List (Text × Option Text)) (text : Option Text) :
    List (Text × Option Text) :=
  match nodes.getLast?, text with
  | some (name, _), some t => nodes.dropLast ++ [(name, some t)]
  | _, _ => nodes

section Redescribe

variable {nodes : List (Text × Option Text)} {s t x : Option Text}

theorem redescribe_concat :
    redescribe (nodes ++ [(name, x)]) t = nodes ++ [(name, t.or x)] := by
  cases t <;> simp [redescribe]

theorem redescribe_none : redescribe nodes none = nodes := by
  unfold redescribe
  cases nodes.getLast? <;> rfl

theorem redescribe_redescribe : redescribe (redescribe nodes s) t = redescribe nodes (t.or s) := by
  rcases List.eq_nil_or_concat' nodes with rfl | ⟨before, ⟨name, x⟩, rfl⟩
  · rfl
  · rw [redescribe_concat, redescribe_concat, redescribe_concat, Option.or_assoc]

end Redescribe

namespace Descriptions

def take (known : Descriptions) (d : Directive) : Descriptions :=
  if isNode d then
    { known with opened := true, nodes := known.nodes ++ [(unquote d.value, none)] }
  else if isQuery d then { known with opened := false }
  else if isDescription d then
    if !known.opened && known.pipe.isNone then { known with pipe := some (descriptionText d) }
    else { known with nodes := redescribe known.nodes (some (descriptionText d)) }
  else known

end Descriptions

namespace PipeDraft

def descriptions (draft : PipeDraft) : Descriptions where
  opened := draft.opened.isSome
  pipe := draft.description
  nodes := draft.nodes.map (fun n => (n.name, n.description)) ++
    draft.opened.toList.map fun n => (n.name, n.description)

theorem yields_descriptions_describe (text : Text) :
    Yields (fun next => next.descriptions =
      if !draft.opened.isSome && draft.description.isNone then
        { draft.descriptions with pipe := some text }
      else { draft.descriptions with nodes := redescribe draft.descriptions.nodes (some text) })
      (draft.describe text) := by
  unfold describe
  cases opened : draft.opened with
  | some node => simp [descriptions, opened, redescribe_concat]
  | none =>
    cases described : draft.description with
    | none => simp [descriptions, opened]
    | some other =>
      cases last : draft.nodes.getLast? with
      | none => simp
      | some node =>
        obtain ⟨before, nodes⟩ := List.getLast?_eq_some_iff.mp last
        simp [descriptions, opened, described, nodes, redescribe_concat]

theorem yields_descriptions_closeNode :
    Yields (fun next => next.descriptions = { draft.descriptions with opened := false })
      (draft.closeNode d) := by
  unfold closeNode
  cases opened : draft.opened with
  | none => exact yields_error
  | some node =>
    rw [yields_bind]
    intro sql _
    simp [descriptions, opened]

theorem yields_descriptions_openNode (closed : draft.opened = none) (name : Text) :
    Yields (fun next => next.descriptions =
      { draft.descriptions with
        opened := true, nodes := draft.descriptions.nodes ++ [(name, none)] })
      (draft.openNode name) := by
  simp [openNode, yields_ite, descriptions, closed]

theorem yields_descriptions_set (keyword : PipeKeyword) :
    Yields (fun next => next.descriptions = draft.descriptions) (draft.set d keyword) := by
  refine (yields_set keyword).mono fun next kept => ?_
  obtain ⟨_, nodes, opened, description⟩ := kept
  rw [descriptions, descriptions, nodes, opened, description]

/-- A directive changes of the descriptions what its keyword tells. -/
theorem yields_descriptions_take :
    Yields (fun next => next.descriptions = draft.descriptions.take d) (draft.take d) := by
  unfold take
  simp only [Descriptions.take, isNode_iff, isQuery_iff, isDescription_iff]
  cases found : keyword? pipeKeywords d.keyword with
  | none => simp
  | some keyword =>
    cases keyword with
    | description =>
      simp only [Option.some.injEq, reduceCtorEq, if_false, if_true, yields_mapError]
      exact yields_descriptions_describe _
    | sql =>
      simp only [Option.some.injEq, reduceCtorEq, if_false, if_true, yields_mapError]
      exact yields_descriptions_closeNode
    | node =>
      cases closed : draft.opened with
      | some node => exact yields_refuse
      | none =>
        simp only [Option.some.injEq, reduceCtorEq, if_true, yields_bind, yields_mapError]
        intro name read
        rw [← eq_unquote_value read]
        exact yields_descriptions_openNode closed name
    | type | cache | datasource | deploymentMethod | targetDatasource | copySchedule | copyMode |
      token =>
      cases draft.opened with
      | some node => exact yields_refuse
      | none =>
        simp only [Option.some.injEq, reduceCtorEq, if_false]
        exact yields_descriptions_set _

theorem yields_descriptions_foldlM :
    Yields (fun next => next.descriptions = ds.foldl Descriptions.take draft.descriptions)
      (ds.foldlM PipeDraft.take draft) := by
  induction ds generalizing draft with
  | nil => exact yields_pure.mpr rfl
  | cons d ds ih =>
    rw [List.foldlM_cons, yields_bind]
    intro next taken
    refine ih.mono fun last known => ?_
    rw [known, yields_descriptions_take next taken, List.foldl_cons]

theorem yields_descriptions_finish :
    Yields (fun p => p.description = draft.descriptions.pipe ∧
      p.nodes.map (fun n => (n.name, n.description)) = draft.descriptions.nodes)
      (draft.finish name path) := by
  cases closed : draft.opened <;> simp [finish, closed, yields_ite, descriptions]

end PipeDraft

namespace Descriptions

variable {known : Descriptions}

theorem opened_take : (known.take d).opened = (isNode d || known.opened && !isQuery d) := by
  rw [take]
  cases isNode d with
  | true => rfl
  | false =>
    cases isQuery d with
    | true => simp
    | false =>
      cases isDescription d with
      | false => simp
      | true => cases loose : !known.opened && known.pipe.isNone <;> simp

section Placed

variable (placed : isDescription d → known.opened ∨ known.pipe.isSome)

include placed

theorem not_loose (description : isDescription d) :
    ¬ (!known.opened && known.pipe.isNone) = true := by
  rcases placed description with opened | described
  · simp [opened]
  · obtain ⟨t, pipe⟩ := Option.isSome_iff_exists.mp described
    simp [pipe]

theorem pipe_take : (known.take d).pipe = known.pipe := by
  rw [take]
  cases isNode d with
  | true => rfl
  | false =>
    cases isQuery d with
    | true => rfl
    | false =>
      cases description : isDescription d with
      | false => rfl
      | true => simp [not_loose placed description]

theorem nodes_take_other (other : isNode d = false) : (known.take d).nodes =
    redescribe known.nodes (if isDescription d then some (descriptionText d) else none) := by
  rw [take, other]
  cases query : isQuery d with
  | true => simp [isDescription_of_isQuery query, redescribe_none]
  | false =>
    cases description : isDescription d with
    | false => simp [redescribe_none]
    | true => simp [not_loose placed description]

/-- What a directive tells of the last node is what the header of all that follows tells of it. -/
theorem nodes_take (rest : List Directive) :
    redescribe (known.take d).nodes (lastDescription (header rest)) ++
        (sections rest).map account =
      redescribe known.nodes (lastDescription (header (d :: rest))) ++
        (sections (d :: rest)).map account := by
  rw [sections]
  cases node : isNode d with
  | true =>
    have nodes : (known.take d).nodes = known.nodes ++ [(unquote d.value, none)] := by
      rw [take, if_pos node]
    have silent : lastDescription [] = none := rfl
    rw [nodes, redescribe_concat, header_node node, silent, redescribe_none, Option.or_none,
      if_pos rfl, List.map_cons, List.append_assoc, List.singleton_append, account]
  | false =>
    rw [nodes_take_other placed node, redescribe_redescribe, header_other node,
      lastDescription_cons, if_neg Bool.false_ne_true]

end Placed

/-- Behind the description of the pipe, every description goes to the node in front. -/
theorem foldl_take_described (described : known.pipe.isSome) :
    (ds.foldl take known).pipe = known.pipe ∧ (ds.foldl take known).nodes =
      redescribe known.nodes (lastDescription (header ds)) ++ (sections ds).map account := by
  induction ds generalizing known with
  | nil =>
    have silent : lastDescription (header []) = none := rfl
    exact ⟨rfl, by simp [sections, silent, redescribe_none]⟩
  | cons d ds ih =>
    have placed : isDescription d → known.opened ∨ known.pipe.isSome := fun _ => .inr described
    have same := pipe_take placed
    have described' : (known.take d).pipe.isSome := same ▸ described
    obtain ⟨pipe, nodes⟩ := ih described'
    exact ⟨pipe.trans same, nodes.trans (nodes_take placed ds)⟩

/-- Before the description of the pipe, the first description that stands in no node becomes it. -/
theorem foldl_take_undescribed (undescribed : known.pipe = none) :
    (ds.foldl take known).pipe = (takeLoose known.opened ds).1.map descriptionText ∧
      (ds.foldl take known).nodes =
        redescribe known.nodes (lastDescription (header (takeLoose known.opened ds).2)) ++
          (sections (takeLoose known.opened ds).2).map account := by
  induction ds generalizing known with
  | nil =>
    have silent : lastDescription (header []) = none := rfl
    exact ⟨undescribed, by simp [takeLoose, sections, silent, redescribe_none]⟩
  | cons d ds ih =>
    rw [takeLoose, List.foldl_cons]
    cases loose : isDescription d && !known.opened with
    | true =>
      rw [Bool.and_eq_true, Bool.not_eq_true'] at loose
      obtain ⟨description, closed⟩ := loose
      have node : ¬ isNode d := fun node => by
        simp [isDescription_of_isNode node] at description
      have query : ¬ isQuery d := fun query => by
        simp [isDescription_of_isQuery query] at description
      have first : (!known.opened && known.pipe.isNone) = true := by simp [closed, undescribed]
      have taken : known.take d = { known with pipe := some (descriptionText d) } := by
        rw [take, if_neg node, if_neg query, if_pos description, if_pos first]
      rw [taken]
      exact foldl_take_described rfl
    | false =>
      have placed : isDescription d → known.opened ∨ known.pipe.isSome := by
        intro description
        rw [description, Bool.true_and, Bool.not_eq_false'] at loose
        exact .inl loose
      have same := pipe_take placed
      have undescribed' : (known.take d).pipe = none := same.trans undescribed
      obtain ⟨pipe, nodes⟩ := ih undescribed'
      rw [opened_take] at pipe nodes
      exact ⟨pipe, nodes.trans (nodes_take placed _)⟩

end Descriptions

/-- An accepted pipe is described by the first loose description, and its nodes by the others. -/
theorem yields_buildPipe_descriptions :
    Yields (fun p => p.description = (takeLoose false ds).1.map descriptionText ∧
      p.nodes.map (fun n => (n.name, n.description)) =
        (sections (takeLoose false ds).2).map account)
      (buildPipe name path ds) := by
  rw [buildPipe, yields_bind]
  intro draft taken
  have known := PipeDraft.yields_descriptions_foldlM draft taken
  have undescribed : (PipeDraft.descriptions {}).pipe = none := rfl
  refine PipeDraft.yields_descriptions_finish.mono fun p finished => ?_
  rw [finished.1, finished.2, known]
  exact Descriptions.foldl_take_undescribed undescribed

/-- A description in the header is the first loose one, and no node loses any. -/
theorem takeLoose_of_header (described : ∃ d ∈ header ds, isDescription d) :
    (takeLoose false ds).1 = (header ds).find? isDescription ∧
      sections (takeLoose false ds).2 = sections ds := by
  induction ds with
  | nil => simp [header] at described
  | cons d ds ih =>
    cases node : isNode d with
    | true => simp [header_node node] at described
    | false =>
      rw [header_other node] at described ⊢
      rw [takeLoose, sections, node, if_neg Bool.false_ne_true]
      cases description : isDescription d with
      | true => exact ⟨(List.find?_cons_of_pos description).symm, rfl⟩
      | false =>
        have behind : ∃ e ∈ header ds, isDescription e := by simpa [description] using described
        obtain ⟨first, same⟩ := ih behind
        rw [List.find?_cons_of_neg (by simp [description])]
        refine ⟨first, ?_⟩
        simpa [sections, node] using same

theorem takeLoose_of_none (none : (takeLoose opened ds).1 = none) :
    (takeLoose opened ds).2 = ds := by
  induction ds generalizing opened with
  | nil => rfl
  | cons d ds ih =>
    rw [takeLoose] at none ⊢
    split at none
    · cases none
    · rename_i placed
      rw [if_neg placed]
      exact congrArg (d :: ·) (ih none)

/-- The first description that stands in no open node describes the pipe, and the others the nodes
in front of them. So a pipe is described by its header, and its nodes by what follows them, if the
header has a description or none stands behind a closed node. -/
theorem buildPipe_descriptions (accepted : buildPipe name path ds = .ok p) :
    (p.description = (takeLoose false ds).1.map descriptionText ∧
      p.nodes.map (fun n => (n.name, n.description)) =
        (sections (takeLoose false ds).2).map account) ∧
    (DescribedInPlace p ds ↔
      (∃ d ∈ header ds, isDescription d) ∨ (takeLoose false ds).1 = none) := by
  obtain ⟨pipe, nodes⟩ := yields_buildPipe_descriptions p accepted
  refine ⟨⟨pipe, nodes⟩, ⟨fun inPlace => ?_, ?_⟩⟩
  · have same := inPlace.pipe.symm.trans pipe
    cases found : (header ds).find? isDescription with
    | some d => exact .inl ⟨d, List.mem_of_find?_eq_some found, List.find?_some found⟩
    | none =>
      rw [found] at same
      exact .inr (Option.map_eq_none_iff.mp same.symm)
  · rintro (described | none)
    · obtain ⟨first, same⟩ := takeLoose_of_header described
      exact ⟨first ▸ pipe, same ▸ nodes⟩
    · have bare : (header ds).find? isDescription = .none := by
        refine List.find?_eq_none.mpr fun d member description => ?_
        obtain ⟨first, _⟩ := takeLoose_of_header ⟨d, member, description⟩
        rw [none, eq_comm, List.find?_eq_none] at first
        exact first d member description
      rw [none] at pipe
      rw [takeLoose_of_none none] at nodes
      exact ⟨bare ▸ pipe, nodes⟩

/-- A described pipe of two nodes, the first one described before its query and behind it. -/
def describedDirectives : List Directive :=
  [⟨"DESCRIPTION", .inline "both", 1⟩, ⟨"NODE", .inline "a", 2⟩,
   ⟨"DESCRIPTION", .inline "early", 3⟩, ⟨"SQL", .block ["SELECT 1"], 4⟩,
   ⟨"DESCRIPTION", .inline "late", 6⟩, ⟨"NODE", .inline "b", 7⟩,
   ⟨"SQL", .block ["SELECT 2"], 8⟩]

theorem buildPipe_descriptions_describedDirectives :
    ∃ p, buildPipe "p" "p.pipe" describedDirectives = .ok p ∧
      (p.description = (takeLoose false describedDirectives).1.map descriptionText ∧
        p.nodes.map (fun n => (n.name, n.description)) =
          (sections (takeLoose false describedDirectives).2).map account) ∧
      (DescribedInPlace p describedDirectives ↔
        (∃ d ∈ header describedDirectives, isDescription d) ∨
          (takeLoose false describedDirectives).1 = none) := by
  obtain ⟨p, accepted, _⟩ := exists_eq_ok (p := fun _ => true)
    (x := buildPipe "p" "p.pipe" describedDirectives) (by decide +kernel)
  exact ⟨p, accepted, buildPipe_descriptions accepted⟩

/-- A pipe without a header, and a description behind the query of its node. -/
def lateDirectives : List Directive :=
  [⟨"NODE", .inline "n", 1⟩, ⟨"SQL", .block ["SELECT 1"], 2⟩, ⟨"DESCRIPTION", .inline "late", 5⟩]

theorem description_lateDirectives :
    ∃ p, buildPipe "p" "p.pipe" lateDirectives = .ok p ∧ p.description = some "late".toList ∧
      p.nodes.map (fun n => (n.name, n.description)) = [("n".toList, none)] ∧
      ¬ DescribedInPlace p lateDirectives := by
  obtain ⟨p, accepted, found⟩ := exists_eq_ok
    (p := fun p => p.description = some "late".toList ∧
      p.nodes.map (fun n => (n.name, n.description)) = [("n".toList, none)])
    (x := buildPipe "p" "p.pipe" lateDirectives) (by decide +kernel)
  obtain ⟨description, nodes⟩ := of_decide_eq_true found
  refine ⟨p, accepted, description, nodes, fun inPlace => ?_⟩
  have bare : (header lateDirectives).find? isDescription = none := by decide
  have absent := inPlace.pipe
  rw [bare, description] at absent
  cases absent

end DatafileMigration.Grammar
