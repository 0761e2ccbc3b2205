import DatafileMigration.Batch.Normal
import DatafileMigration.Proofs.Module.Naming
import DatafileMigration.Proofs.Module.Reference
import DatafileMigration.Proofs.Script.Module

namespace DatafileMigration

namespace Module

variable {strict : Bool} {rs : List Resource} {ds : List Definition} {d e : Definition}

/-- A module that defines resources in order, each once, and writes for a resource that it defines
no identifier but the one assigned before. It is read as these assignments, and as no others. -/
structure DefinesInOrder (strict : Bool) (rs : List Resource) (text : Text)
    (ds : List Definition) : Prop where
  resources : (ds.map (·.resource)).Perm rs
  defined : ∀ d ∈ ds, d.resource.define strict = .ok d
  ordered : ds.Pairwise fun a b =>
    a.resource.precedes b.resource ∧ a.resource.key ≠ b.resource.key
  layout : text = opening ds ++ layOut (Definition.registry ds).lookup none ds
  assigned : ∀ d ∈ ds, ∃ arguments, d.statement.render (Definition.registry ds).lookup =
      (Definition.registry ds).lookup d.resource.kind d.resource.name ++ " = "
        ++ Layout.call 0 d.statement.function arguments ++ "\n" ∧
    ∀ keyword, ∀ t ∈ d.statement.written (Definition.registry ds).lookup keyword,
      Layout.keyword keyword t ∈ arguments
  different :
    (ds.map fun d => (Definition.registry ds).lookup d.resource.kind d.resource.name).Nodup
  sources : ∀ d ∈ ds, ∀ source, d.resource = .datasource source →
    ∀ e ∈ ds, e.resource.kind = .connection →
      ∀ keyword, (keyword, e.resource.name) ∈ source.sources →
        [e, d].Sublist ds ∧
          ∃ entries, d.statement.written (Definition.registry ds).lookup keyword =
            [Layout.dict 1 (("connection",
              (Definition.registry ds).lookup e.resource.kind e.resource.name) :: entries)]
  targets : ∀ d ∈ ds, ∀ pipe, d.resource = .pipe pipe →
    ∀ e ∈ ds, e.resource.kind = .datasource → pipe.target? = some e.resource.name →
      [e, d].Sublist ds ∧ d.statement.written (Definition.registry ds).lookup "datasource" =
        [(Definition.registry ds).lookup e.resource.kind e.resource.name]
  read : IsRead strict ds text
  assignments : Script.assignments? text = some (ds.map fun d =>
    (Definition.registry ds).lookup d.resource.kind d.resource.name)

/-- What is of an earlier kind stands earlier. -/
theorem sublist_of_rank_lt
    (sorted : ds.Pairwise fun a b => a.resource.kind.rank ≤ b.resource.kind.rank)
    (first : e ∈ ds) (second : d ∈ ds) (less : e.resource.kind.rank < d.resource.kind.rank) :
    [e, d].Sublist ds := by
  obtain ⟨front, back, rfl⟩ := List.append_of_mem first
  obtain ⟨_, _, across⟩ := List.pairwise_append.mp sorted
  have behind : d ∈ back := by
    rcases List.mem_append.mp second with early | late
    · have bound := across d early e List.mem_cons_self
      omega
    · rcases List.mem_cons.mp late with rfl | behind
      · omega
      · exact behind
  have pair : [e, d].Sublist (e :: back) := (List.singleton_sublist.mpr behind).cons_cons e
  exact pair.trans (List.sublist_append_right _ _)

/-- Resources of different kinds or names are defined in a strict order, each once. -/
theorem pairwise_ordered (resources : ds.map (·.resource) = Resource.sort rs)
    (different : (rs.map Resource.key).Nodup) :
    ds.Pairwise fun a b => a.resource.precedes b.resource ∧ a.resource.key ≠ b.resource.key := by
  have permuted : (Resource.sort rs).Perm rs := List.mergeSort_perm rs _
  have apart : ((Resource.sort rs).map Resource.key).Nodup :=
    (permuted.map _).nodup_iff.mpr different
  rw [← resources, List.map_map, List.Nodup, List.pairwise_map] at apart
  have sorted := Resource.pairwise_sort rs
  rw [← resources, List.pairwise_map] at sorted
  exact sorted.and apart

theorem nodup_identifiers (different : (ds.map (·.resource.key)).Nodup) :
    (ds.map fun d =>
      (Definition.registry ds).lookup d.resource.kind d.resource.name).Nodup := by
  have lookups := Registry.nodup_lookups different
  rwa [List.map_map] at lookups

/-- A statement assigns a call in which everything that it writes behind a keyword stands. -/
theorem render_assigned (defined : d.resource.define strict = .ok d) (naming : Naming) :
    ∃ arguments, d.statement.render naming = naming d.resource.kind d.resource.name ++ " = "
        ++ Layout.call 0 d.statement.function arguments ++ "\n" ∧
      ∀ keyword, ∀ t ∈ d.statement.written naming keyword,
        Layout.keyword keyword t ∈ arguments := by
  have stated := Resource.statement_of_define defined
  obtain ⟨kind, name⟩ := Prod.mk.inj (d.resource.statement_key _ stated)
  refine ⟨Text.quoted d.statement.name :: d.statement.arguments.map fun entry =>
    Layout.keyword entry.1 (entry.2.render naming), ?_, fun keyword t written => ?_⟩
  · rw [Statement.render, kind, name]
  · obtain ⟨entry, listed, rfl⟩ := List.mem_map.mp written
    obtain ⟨member, key⟩ := List.mem_filter.mp listed
    refine List.mem_cons_of_mem _ (List.mem_map.mpr ⟨entry, member, ?_⟩)
    rw [of_decide_eq_true key]

/-- Resources of different kinds or names that pass the check have a module, which assigns each of
them once, to an identifier of its own, connections first, then datasources, then pipes, by name.
What refers to a resource of the module writes the identifier that was assigned to it before. If the
module is not strict, columns that do not stand on one line may get out of the comments that tell of
them, and assign what they like. -/
theorem render_definesInOrder (strict : Bool) (rs : List Resource)
    (different : (rs.map Resource.key).Nodup)
    (checked : ∀ r ∈ rs, ∃ t, r.render strict = .ok t)
    (inline : ∀ r ∈ rs, strict ∨ r.IsInline) :
    ∃ text ds, render strict rs = .ok text ∧ DefinesInOrder strict rs text ds := by
  obtain ⟨ds, rendered, resources, defined⟩ := exists_definitions checked
  have sorted := pairwise_rank resources
  have ordered := pairwise_ordered resources different
  have permuted : (ds.map (·.resource)).Perm rs := resources ▸ List.mergeSort_perm rs _
  have apart : (ds.map (·.resource.key)).Nodup := by
    rw [List.Nodup, List.pairwise_map]
    exact ordered.imp fun pair => pair.2
  have read : IsRead strict ds (ofDefinitions ds) := by
    refine isRead_ofDefinitions defined (fun d member => ?_) sorted
    exact inline d.resource (permuted.subset (List.mem_map_of_mem member))
  refine ⟨_, ds, rendered, permuted, defined, ordered, ofDefinitions_eq sorted, ?assigned,
    nodup_identifiers apart, ?sources, ?targets, read, read.assignments?⟩
  case assigned =>
    intro d member
    exact render_assigned (defined d member) _
  case sources =>
    intro d member source same e found connection keyword listed
    have stated := Resource.statement_of_define (defined d member)
    rw [same] at stated
    have less : e.resource.kind.rank < d.resource.kind.rank := by
      rw [connection, same]
      exact Nat.zero_lt_one
    rw [connection]
    exact ⟨sublist_of_rank_lt sorted found member less, source.written_source listed _ stated⟩
  case targets =>
    intro d member pipe same e found datasource target
    have stated := Resource.statement_of_define (defined d member)
    rw [same] at stated
    have less : e.resource.kind.rank < d.resource.kind.rank := by
      rw [datasource, same]
      exact Nat.one_lt_two
    rw [datasource]
    exact ⟨sublist_of_rank_lt sorted found member less, Pipe.written_target target _ stated⟩

end Module

theorem render_definesInOrder_namesakes : (namesakes.map Resource.key).Nodup ∧
    (∀ r ∈ namesakes, ∃ t, r.render false = .ok t) ∧ (∀ r ∈ namesakes, false ∨ r.IsInline) ∧
    ∃ text ds, Module.render false namesakes = .ok text ∧
      Module.DefinesInOrder false namesakes text ds := by
  have different : (namesakes.map Resource.key).Nodup := by decide
  have passed : namesakes.all fun r => (r.render false).toOption.any fun _ => true := by
    decide +kernel
  have checked : ∀ r ∈ namesakes, ∃ t, r.render false = .ok t := by
    intro r member
    obtain ⟨t, rendered, _⟩ := exists_eq_ok (List.all_eq_true.mp passed r member)
    exact ⟨t, rendered⟩
  have inline : ∀ r ∈ namesakes, false ∨ r.IsInline := by
    intro r member
    simp only [namesakes, List.mem_cons, List.not_mem_nil, or_false] at member
    rcases member with rfl | rfl | rfl
    · exact Or.inr trivial
    · exact Or.inr (List.forall_mem_singleton.mpr ⟨by decide, nofun⟩)
    · exact Or.inr trivial
  exact ⟨different, checked, inline,
    Module.render_definesInOrder false namesakes different checked inline⟩

/-- A column whose type closes the statement and begins another one behind a carriage return. -/
def brokenOutFile : Datafile where
  kind := .datasource
  path := "d.datasource"
  name := "d"
  content := "SCHEMA >\n    a Foo\r\x7d)\rb = f(\x7b\n\nENGINE \"MergeTree\"\n" ++
    "ENGINE_SORTING_KEY \"a\"\n"

def brokenOut : Resource :=
  .datasource { name := "d", path := "d.datasource",
                columns := [{ name := "a", type := "Foo\r\x7d)\rb = f(\x7b" }],
                engine := { type := "MergeTree", sortingKey := ["a"] } }

/-- The comment ends at the carriage return, and the module of one resource has two assignments. -/
theorem render_definesInOrder_brokenOut : brokenOutFile.parse false = .ok brokenOut ∧
    brokenOut.complete = .ok brokenOut ∧ ([brokenOut].map Resource.key).Nodup ∧
    ∃ t text, brokenOut.render false = .ok t ∧ Module.render false [brokenOut] = .ok text ∧
      Script.assignments? text = some ["d".toList, "b".toList] := by
  have parsed : brokenOutFile.parse false = .ok brokenOut := by
    unfold brokenOutFile brokenOut
    repeat rw [String.toList_ofList]
    decide +kernel
  obtain ⟨t, rendered, _⟩ := exists_eq_ok (x := brokenOut.render false) (p := fun _ => true)
    (by decide +kernel)
  obtain ⟨text, module, passed⟩ := exists_eq_ok (x := Module.render false [brokenOut])
    (p := fun text => Script.assignments? text = some ["d".toList, "b".toList]) (by
      unfold Module.render Module.ofDefinitions Module.importLines Module.header sdkNames brokenOut
      repeat rw [List.flatMap_cons]
      repeat rw [String.toList_ofList]
      decide +kernel)
  exact ⟨parsed, rfl, List.nodup_singleton _, t, text, rendered, module, of_decide_eq_true passed⟩

end DatafileMigration
