import DatafileMigration.Proofs.Module.Check

namespace DatafileMigration.Module

/-- What stands in front of a statement: empty lines behind one of its kind, and else a title. -/
def gap (before : Option Kind) (kind : Kind) : Text :=
  if before = some kind then "\n\n" else "\n# " ++ kind.title ++ "\n\n"

/-- Statements, one after the other, behind one of kind `before`. -/
def layOut (naming : Naming) : Option Kind → List Definition → Text
  | _, [] => []
  | before, d :: ds =>
    gap before d.resource.kind ++ d.statement.render naming
      ++ layOut naming (some d.resource.kind) ds

/-- What stands in front of all statements. -/
def opening (ds : List Definition) : Text := header ++ (importLines ds).flatMap ('\n' :: ·)

variable {naming : Naming} {before : Option Kind} {kind : Kind} {d : Definition}
  {ds group rest : List Definition}

/-- A text that ends with one line feed. -/
def EndsLine (t : Text) : Prop := ∃ body c, c ≠ '\n' ∧ t = body ++ [c, '\n']

theorem assemble_cons {part : Text} {parts : List Text} (ends : EndsLine part)
    (all : ∀ part ∈ parts, EndsLine part) :
    assemble (part :: parts) = part ++ parts.flatMap ('\n' :: ·) := by
  obtain ⟨body, c, solid, rfl⟩ := ends
  induction parts generalizing body c with
  | nil =>
    rw [assemble, List.map_singleton, Text.trimNewlines_line body solid, Text.join]
    simp
  | cons next parts ih =>
    obtain ⟨⟨body', d, solid', rfl⟩, others⟩ := List.forall_mem_cons.mp all
    have rest : assemble ((body' ++ [d, '\n']) :: parts) = _ := ih others body' d solid'
    have step : assemble ((body ++ [c, '\n']) :: (body' ++ [d, '\n']) :: parts) =
        body ++ [c] ++ "\n\n" ++ assemble ((body' ++ [d, '\n']) :: parts) := by
      rw [assemble, List.map_cons, Text.trimNewlines_line body solid, List.map_cons, Text.join]
      simp [assemble]
    rw [step, rest]
    simp

theorem endsLine_header : EndsLine header := by
  have behind (front : List String) :
      EndsLine ((front ++ ["\"\"\"\n"]).flatMap String.toList) := by
    refine ⟨front.flatMap String.toList ++ "\"\"", '"', by decide, ?_⟩
    rw [List.flatMap_append, List.append_assoc]
    rfl
  exact behind [_, _, _]

theorem endsLine_of_mem_importLines {part : Text} (member : part ∈ importLines ds) :
    EndsLine part := by
  have solid : ∀ name ∈ sdkNames, name ≠ [] ∧ name.getLast? ≠ some '\n' := by decide
  rw [importLines] at member
  generalize selected : sdkNames.filter _ = names at member
  cases names with
  | nil => cases member
  | cons name names =>
    have imported : ∀ w ∈ name :: names, w ∈ sdkNames := by
      intro w found
      rw [← selected] at found
      exact (List.mem_filter.mp found).1
    have many := List.cons_ne_nil name names
    obtain ⟨front, joined⟩ := @Text.join_getLast ", " _ many
    obtain ⟨more, other⟩ := solid _ (imported _ (List.getLast_mem many))
    rw [List.getLast?_eq_some_getLast more, Ne, Option.some.injEq] at other
    refine ⟨"from tinybird_sdk import " ++ (front ++ ((name :: names).getLast many).dropLast), _,
      other, ?_⟩
    rw [List.mem_singleton.mp member, joined]
    conv_lhs => rw [← List.dropLast_append_getLast more]
    simp only [List.append_assoc]
    rfl

theorem endsLine_of_mem_sections {part : Text} {kinds : List Kind}
    (member : part ∈ kinds.filterMap (section? ds)) : EndsLine part := by
  obtain ⟨kind, _, found⟩ := List.mem_filterMap.mp member
  have some : ds.filter (·.resource.kind = kind) ≠ [] := by
    intro none
    rw [section?, none] at found
    cases found
  obtain ⟨d, listed⟩ := List.exists_mem_of_ne_nil _ some
  obtain ⟨member, ofKind⟩ := List.mem_filter.mp listed
  obtain ⟨body, sectioned, _⟩ := section_eq member (of_decide_eq_true ofKind)
  rw [sectioned] at found
  cases found
  exact ⟨body, ')', by decide, rfl⟩

/-- Statements of one kind have empty lines between them. -/
theorem layOut_ofKind (ofKind : ∀ e ∈ d :: group, e.resource.kind = kind) :
    d.statement.render naming ++ layOut naming (some kind) (group ++ rest) =
      Text.join "\n\n" ((d :: group).map (·.statement.render naming))
        ++ layOut naming (some kind) rest := by
  induction group generalizing d with
  | nil => rfl
  | cons e group ih =>
    obtain ⟨_, others⟩ := List.forall_mem_cons.mp ofKind
    have next : e.resource.kind = kind := others e List.mem_cons_self
    have joined : Text.join "\n\n" ((d :: e :: group).map (·.statement.render naming)) =
        d.statement.render naming ++ "\n\n"
          ++ Text.join "\n\n" ((e :: group).map (·.statement.render naming)) := rfl
    rw [List.cons_append, layOut, gap, next, if_pos rfl, List.append_assoc, ih others, joined]
    simp only [List.append_assoc]

/-- Behind another kind they have a title. -/
theorem layOut_section (ofKind : ∀ e ∈ d :: group, e.resource.kind = kind)
    (other : before ≠ some kind) :
    layOut naming before (d :: group ++ rest) =
      "\n# " ++ kind.title ++ "\n\n"
        ++ (Text.join "\n\n" ((d :: group).map (·.statement.render naming))
          ++ layOut naming (some kind) rest) := by
  have own : d.resource.kind = kind := ofKind d List.mem_cons_self
  rw [List.cons_append, layOut, own, gap, if_neg other, List.append_assoc, layOut_ofKind ofKind]

theorem flatMap_sections {kinds : List Kind} (different : kinds.Nodup)
    (other : ∀ kind ∈ kinds, before ≠ some kind) :
    (kinds.filterMap (section? ds)).flatMap ('\n' :: ·) =
      layOut (Definition.registry ds).lookup before
        (kinds.flatMap fun kind => ds.filter (·.resource.kind = kind)) := by
  induction kinds generalizing before with
  | nil => rfl
  | cons kind kinds ih =>
    obtain ⟨absent, different⟩ := List.nodup_cons.mp different
    obtain ⟨first, others⟩ := List.forall_mem_cons.mp other
    rw [List.flatMap_cons]
    cases listed : ds.filter (·.resource.kind = kind) with
    | nil =>
      have none : section? ds kind = none := by rw [section?, listed]
      rw [List.filterMap_cons_none none]
      exact ih different others
    | cons d group =>
      have ofKind : ∀ e ∈ d :: group, e.resource.kind = kind := by
        intro e member
        rw [← listed] at member
        exact of_decide_eq_true (List.mem_filter.mp member).2
      have member : d ∈ ds := (List.mem_filter.mp (listed ▸ List.mem_cons_self)).1
      have titled : section? ds kind = _ := section_of_mem member (ofKind d List.mem_cons_self)
      have next : ∀ other ∈ kinds, some kind ≠ some other := by
        rintro _ member ⟨⟩
        exact absent member
      rw [List.filterMap_cons_some titled, List.flatMap_cons, ih different next,
        layOut_section ofKind first, listed]
      simp

/-- Definitions in the order of their kinds are those of the first kind, then those of the second,
then those of the third. -/
theorem flatMap_kinds
    (sorted : ds.Pairwise fun a b => a.resource.kind.rank ≤ b.resource.kind.rank) :
    (Kind.all.flatMap fun kind => ds.filter (·.resource.kind = kind)) = ds := by
  rw [Kind.all, List.flatMap_cons, List.flatMap_cons, List.flatMap_cons, List.flatMap_nil,
    List.append_nil]
  induction sorted with
  | nil => rfl
  | @cons d ds later _ ih =>
    have none : ∀ kind : Kind, kind.rank < d.resource.kind.rank →
        ds.filter (·.resource.kind = kind) = [] := by
      intro kind less
      refine List.filter_eq_nil_iff.mpr fun e member same => ?_
      have bound := later e member
      rw [of_decide_eq_true same] at bound
      omega
    simp only [List.filter_cons]
    cases own : d.resource.kind with
    | connection => simp [ih]
    | datasource =>
      rw [own] at none
      have first := none .connection (by decide)
      rw [first] at ih ⊢
      simpa using ih
    | pipe =>
      rw [own] at none
      have first := none .connection (by decide)
      have second := none .datasource (by decide)
      rw [first, second] at ih ⊢
      simpa using ih

/-- The module of definitions in the order of their kinds. -/
theorem ofDefinitions_eq
    (sorted : ds.Pairwise fun a b => a.resource.kind.rank ≤ b.resource.kind.rank) :
    ofDefinitions ds = opening ds ++ layOut (Definition.registry ds).lookup none ds := by
  have all : ∀ part ∈ importLines ds ++ Kind.all.filterMap (section? ds), EndsLine part :=
    List.forall_mem_append.mpr ⟨fun _ => endsLine_of_mem_importLines,
      fun _ => endsLine_of_mem_sections⟩
  have sections := @flatMap_sections none ds Kind.all (by decide) nofun
  rw [flatMap_kinds sorted] at sections
  rw [ofDefinitions, assemble_cons endsLine_header all, List.flatMap_append, sections, opening,
    List.append_assoc]

end DatafileMigration.Module
