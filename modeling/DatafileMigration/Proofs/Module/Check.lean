import DatafileMigration.Proofs.Fault.Yields
import DatafileMigration.Proofs.Module.Order
import DatafileMigration.Proofs.Text.Join

namespace DatafileMigration

variable {strict : Bool}

section Naming

variable {naming other : Naming}

theorem Operand.render_congr {o : Operand}
    (same : ∀ key ∈ o.identifiers, naming key.1 key.2 = other key.1 key.2) :
    o.render naming = o.render other := by
  cases o with
  | expression t => rfl
  | identifier kind name => exact same (kind, name) (List.mem_singleton.mpr rfl)

theorem Argument.render_congr {a : Argument}
    (same : ∀ key ∈ a.identifiers, naming key.1 key.2 = other key.1 key.2) :
    a.render naming = a.render other := by
  cases a with
  | single o => exact Operand.render_congr same
  | dict entries =>
    rw [Argument.render, Argument.render]
    refine congrArg (Layout.dict 1) (List.map_congr_left ?_)
    rintro ⟨key, o⟩ member
    dsimp only
    rw [Operand.render_congr fun k found => same k (List.mem_flatMap.mpr ⟨(key, o), member, found⟩)]

/-- A statement depends on no identifiers but its own and those that it refers to. -/
theorem Statement.render_congr {s : Statement}
    (own : naming s.kind s.name = other s.kind s.name)
    (referred : ∀ key ∈ s.references, naming key.1 key.2 = other key.1 key.2) :
    s.render naming = s.render other := by
  rw [Statement.render, Statement.render, own]
  refine congrArg (fun arguments => other s.kind s.name ++ " = "
    ++ Layout.call 0 s.function (Text.quoted s.name :: arguments) ++ "\n") (List.map_congr_left ?_)
  rintro ⟨key, a⟩ member
  dsimp only
  rw [Argument.render_congr fun k found =>
    referred k (List.mem_flatMap.mpr ⟨(key, a), member, found⟩)]

end Naming

/-- A call ends with its bracket. -/
theorem Layout.call_eq (level : Nat) (function : Text) (arguments : List Text) :
    ∃ before, call level function arguments = before ++ [')'] := by
  cases arguments with
  | nil => exact ⟨_, rfl⟩
  | cons a rest => exact ⟨_, rfl⟩

/-- A statement ends with a bracket and one line feed. -/
theorem Statement.render_eq (naming : Naming) (s : Statement) :
    ∃ before, s.render naming = before ++ [')', '\n'] := by
  rw [Statement.render]
  generalize Text.quoted s.name :: List.map _ s.arguments = arguments
  obtain ⟨before, equal⟩ := Layout.call_eq 0 s.function arguments
  refine ⟨naming s.kind s.name ++ " = " ++ before, ?_⟩
  rw [equal]
  simp only [List.append_assoc]
  rfl

theorem Kind.mem_all (kind : Kind) : kind ∈ Kind.all := by
  cases kind <;> decide

namespace Module

/-- A part of a module that ends with one line feed stands in it as it is. -/
theorem infix_assemble {parts : List Text} {body : Text} {c : Char} (solid : c ≠ '\n')
    (member : body ++ [c, '\n'] ∈ parts) : body ++ [c, '\n'] <:+: assemble parts := by
  have trimmed : body ++ [c] ∈ parts.map Text.trimNewlines := by
    rw [← Text.trimNewlines_line body solid]
    exact List.mem_map_of_mem member
  rcases @Text.infix_join "\n\n" _ _ trimmed with ⟨before, equal⟩ | inside
  · rw [assemble, equal]
    exact ⟨before, [], by simp⟩
  · have line : body ++ [c, '\n'] <:+: body ++ [c] ++ "\n\n".toList := ⟨[], ['\n'], by simp⟩
    exact (line.trans inside).trans (List.prefix_append _ _).isInfix

theorem section_of_mem {ds : List Definition} {kind : Kind} {d : Definition} (member : d ∈ ds)
    (ofKind : d.resource.kind = kind) : section? ds kind = some ("# " ++ kind.title ++ "\n\n"
      ++ Text.join "\n\n" ((ds.filter (·.resource.kind = kind)).map
        (·.statement.render (Definition.registry ds).lookup))) := by
  have found : d ∈ ds.filter (·.resource.kind = kind) :=
    List.mem_filter.mpr ⟨member, decide_eq_true ofKind⟩
  rw [section?]
  cases listed : ds.filter (·.resource.kind = kind) with
  | nil =>
    rw [listed] at found
    cases found
  | cons first rest => rfl

/-- The section of a kind has all its statements and ends with the last of them. -/
theorem section_eq {ds : List Definition} {kind : Kind} {d : Definition} (member : d ∈ ds)
    (ofKind : d.resource.kind = kind) : ∃ body, section? ds kind = some (body ++ [')', '\n']) ∧
      d.statement.render (Definition.registry ds).lookup <:+: body ++ [')', '\n'] := by
  have sectioned := section_of_mem member ofKind
  have found : d.statement.render (Definition.registry ds).lookup ∈
      (ds.filter (·.resource.kind = kind)).map
        (·.statement.render (Definition.registry ds).lookup) :=
    List.mem_map_of_mem (List.mem_filter.mpr ⟨member, decide_eq_true ofKind⟩)
  obtain ⟨body, joined⟩ := @Text.join_ends "\n\n" _ [')', '\n'] (List.ne_nil_of_mem found) (by
    intro t written
    obtain ⟨e, _, rfl⟩ := List.mem_map.mp written
    exact e.statement.render_eq _)
  have inside := @Text.infix_join_self "\n\n" _ _ found
  rw [joined] at sectioned inside
  rw [← List.append_assoc] at sectioned
  refine ⟨_, sectioned, inside.trans ?_⟩
  rw [List.append_assoc]
  exact (List.suffix_append _ _).isInfix

/-- Each statement stands in the module as it is written with the module's identifiers. -/
theorem statement_infix {ds : List Definition} {d : Definition} (member : d ∈ ds) :
    d.statement.render (Definition.registry ds).lookup <:+: ofDefinitions ds := by
  obtain ⟨body, sectioned, inside⟩ := section_eq member rfl
  have part : body ++ [')', '\n'] ∈
      header :: (importLines ds ++ Kind.all.filterMap (section? ds)) := by
    refine List.mem_cons_of_mem _ (List.mem_append_right _ ?_)
    exact List.mem_filterMap.mpr ⟨d.resource.kind, Kind.mem_all _, sectioned⟩
  exact inside.trans (infix_assemble (by decide) part)

/-- The module of resources: their definitions in order, each with the statement that is checked for
the resource alone, written with the identifiers of all of them. A statement does not depend on the
identifiers, so that a resource with a statement for itself alone has the same one in any module. -/
structure Assembles (strict : Bool) (rs : List Resource) (text : Text) (ds : List Definition) :
    Prop where
  resources : ds.map (·.resource) = Resource.sort rs
  whole : text = ofDefinitions ds
  checked : ∀ d ∈ ds, d.resource.render strict = .ok (d.statement.render (Registry.lookup {}))
  placed : ∀ d ∈ ds, d.statement.render (Definition.registry ds).lookup <:+: text
  same : ∀ d ∈ ds, (∀ key ∈ (d.statement.kind, d.statement.name) :: d.statement.references,
      (Definition.registry ds).lookup key.1 key.2 = Registry.lookup {} key.1 key.2) →
    d.statement.render (Definition.registry ds).lookup = d.statement.render (Registry.lookup {})

end Module

theorem Resource.exists_render {r : Resource} :
    (∃ t, r.render strict = .ok t) ↔ ∃ d, r.define strict = .ok d := by
  rw [Resource.render, Resource.define]
  cases r.statement strict <;> simp [Except.map]

/-- The text that is checked is that of the statement in the definition. -/
theorem Resource.render_of_define {r : Resource} {d : Definition}
    (defined : r.define strict = .ok d) :
    r.render strict = .ok (d.statement.render (Registry.lookup {})) := by
  obtain ⟨statement, stated, rfl⟩ := map_eq_ok.mp defined
  exact map_eq_ok.mpr ⟨statement, stated, rfl⟩

theorem Resource.statement_of_define {r : Resource} {d : Definition}
    (defined : r.define strict = .ok d) : r.statement strict = .ok d.statement := by
  obtain ⟨statement, stated, rfl⟩ := map_eq_ok.mp defined
  exact stated

theorem Resource.define_resource {r : Resource} {d : Definition}
    (defined : r.define strict = .ok d) : d.resource = r := by
  obtain ⟨statement, _, rfl⟩ := map_eq_ok.mp defined
  rfl

theorem Resource.statement_key (r : Resource) :
    Yields (fun s => (s.kind, s.name) = r.key) (r.statement strict) := by
  cases r with
  | connection c => cases c <;> exact yields_ok.mpr rfl
  | datasource d =>
    refine yields_ite.mpr ⟨fun _ => yields_throw, fun _ => ?_⟩
    refine yields_bind.mpr fun schema _ => yields_bind.mpr fun engine _ => ?_
    exact yields_pure.mpr rfl
  | pipe p => exact yields_bind.mpr fun arguments _ => yields_pure.mpr rfl

/-- Definitions of resources have these resources, one by one. -/
theorem Resource.definitions_resources {rs : List Resource} {ds : List Definition}
    (defined : List.Forall₂ (fun r d => r.define strict = .ok d) rs ds) :
    ds.map (·.resource) = rs ∧ ∀ d ∈ ds, d.resource.define strict = .ok d := by
  induction defined with
  | nil => exact ⟨rfl, fun d member => absurd member List.not_mem_nil⟩
  | @cons r d rs ds here _ ih =>
    obtain ⟨same, others⟩ := ih
    have own := Resource.define_resource here
    constructor
    · rw [List.map_cons, own, same]
    · intro e member
      rcases List.mem_cons.mp member with rfl | member
      · rw [own]
        exact here
      · exact others e member

namespace Module

theorem render_eq_ok {rs : List Resource} {text : Text} : render strict rs = .ok text ↔
    ∃ ds, List.Forall₂ (fun r d => r.define strict = .ok d) (Resource.sort rs) ds ∧
      ofDefinitions ds = text := by
  rw [render, map_eq_ok]
  simp only [mapM_eq_ok]

/-- Resources make up a module exactly if each of them passes the check alone. -/
theorem exists_render {rs : List Resource} :
    (∃ text, render strict rs = .ok text) ↔ ∀ r ∈ rs, ∃ t, r.render strict = .ok t := by
  simp only [render, map_eq_ok, Resource.exists_render, ← @Resource.mem_sort rs,
    ← exists_mapM_eq_ok]
  constructor
  · rintro ⟨_, ds, defined, _⟩
    exact ⟨ds, defined⟩
  · rintro ⟨ds, defined⟩
    exact ⟨_, ds, defined, rfl⟩

/-- A module that resources make up holds the definitions of these resources, in their order. -/
theorem exists_definitions {rs : List Resource} (checked : ∀ r ∈ rs, ∃ t, r.render strict = .ok t) :
    ∃ ds, render strict rs = .ok (ofDefinitions ds) ∧ ds.map (·.resource) = Resource.sort rs ∧
      ∀ d ∈ ds, d.resource.define strict = .ok d := by
  obtain ⟨text, rendered⟩ := exists_render.mpr checked
  obtain ⟨ds, each, rfl⟩ := render_eq_ok.mp rendered
  exact ⟨ds, rendered, Resource.definitions_resources each⟩

theorem assembles {rs : List Resource} {text : Text} (rendered : render strict rs = .ok text) :
    ∃ ds, Assembles strict rs text ds := by
  obtain ⟨ds, defined, rfl⟩ := render_eq_ok.mp rendered
  obtain ⟨resources, each⟩ := Resource.definitions_resources defined
  refine ⟨ds, resources, rfl, ?_, ?_, ?_⟩
  · intro d member
    exact Resource.render_of_define (each d member)
  · intro d member
    exact statement_infix member
  · intro d _ agree
    exact Statement.render_congr (agree _ (List.mem_cons_self ..))
      fun key member => agree key (List.mem_cons_of_mem _ member)

/-- Sorted definitions are the module of their resources. -/
theorem render_definitions {ds : List Definition}
    (defined : ∀ d ∈ ds, d.resource.define strict = .ok d) :
    render strict ((Definition.sort ds).map (·.resource)) =
      .ok (ofDefinitions (Definition.sort ds)) := by
  refine render_eq_ok.mpr ⟨Definition.sort ds, ?_, rfl⟩
  rw [Definition.sort_resources, Resource.sort_sort, ← Definition.sort_resources,
    List.forall₂_map_left_iff, List.forall₂_same]
  intro d member
  exact defined d (List.mem_mergeSort.mp member)

end Module

/-- Resources of one identifier, of which the last two refer to the one before. -/
def namesakes : List Resource :=
  [.pipe { name := "to-events", path := "c", nodes := [{ name := "n", sql := "SELECT 1" }],
           type := .materialized, materializedDatasource := some "events" },
   .datasource { name := "events", path := "b", columns := [{ name := "a", type := "String" }],
                 engine := { type := "MergeTree", sortingKey := ["a"] },
                 kafka := some { connection := "Events", topic := "t" } },
   .connection (.kafka { name := "Events", path := "a", bootstrapServers := "h" })]

end DatafileMigration
