import DatafileMigration.Proofs.Template.Joined
import DatafileMigration.Proofs.Template.Options

namespace DatafileMigration.Template

variable {sql name : Text} {us : List Usage} {cs : List Call} {ps : List Parameter} {p : Parameter}

/-- A call makes its parameter optional, by a default or in words. -/
def Call.SaysOptional (c : Call) : Prop :=
  c.defaults ≠ [] ∨ c.requirements.getLast? = some false

/-- The only call of a name requires its parameter in words. -/
def InsistsOnce (sql name : Text) : Prop :=
  ∃ c, callsOf sql name = [c] ∧ c.requirements.getLast? = some true

theorem Call.Makes.saysOptional_iff {c : Call} {u : Usage} (makes : c.Makes u) :
    c.SaysOptional ↔ u.options.SaysOptional := by
  rw [Call.SaysOptional, Options.SaysOptional, ← makes.default, ← makes.required,
    List.getLast?_isSome]

theorem exists_saysOptional_iff (each : List.Forall₂ Call.Makes cs us) :
    (∃ c ∈ cs, c.SaysOptional) ↔ ∃ u ∈ us, u.options.SaysOptional := by
  induction each with
  | nil => simp
  | cons makes _ ih =>
    rw [List.exists_mem_cons_iff, List.exists_mem_cons_iff, makes.saysOptional_iff, ih]

theorem exists_insists_iff (each : List.Forall₂ Call.Makes cs us) :
    (∃ c, cs = [c] ∧ c.requirements.getLast? = some true) ↔
      ∃ u, us = [u] ∧ u.options.required = some true := by
  cases each with
  | nil => simp
  | cons makes rest =>
    cases rest with
    | nil => simp [makes.required]
    | cons _ _ => simp

theorem required_eq_false_iff (declared : parameters sql = .ok ps) (member : p ∈ ps) :
    p.required = false ↔
      (∃ c ∈ callsOf sql p.name, c.SaysOptional) ∧ ¬ InsistsOnce sql p.name := by
  obtain ⟨us, makes, merged⟩ := merged_of_mem declared member
  rw [Usage.merged_required merged, exists_saysOptional_iff makes, InsistsOnce,
    exists_insists_iff makes]

/-- A query beside itself makes each of its uses twice, unless its end opens a placeholder that its
beginning closes. -/
theorem usages_append_self (used : usages sql = .ok us) (apart : ¬ Spans sql sql) :
    usages (sql ++ " " ++ sql) = .ok (us ++ us) := by
  obtain ⟨found, each, rfl⟩ := filterMapM_eq_ok.mp used
  have twice : queryCalls (sql ++ " " ++ sql) = queryCalls sql ++ queryCalls sql := by
    have spaced : sql ++ " " ++ sql = sql ++ ' ' :: sql := List.append_assoc ..
    rw [queryCalls, spaced, expressions_append_plain rfl apart, List.flatMap_append]
    rfl
  rw [usages, filterMapM_eq_ok, twice]
  exact ⟨found ++ found, List.rel_append each each, List.filterMap_append⟩

theorem parameters_append_self (declared : parameters sql = .ok ps) (apart : ¬ Spans sql sql) :
    parameters (sql ++ " " ++ sql) = .ok (ps.map Parameter.settled) := by
  obtain ⟨us, used, rfl⟩ := parameters_eq_ok.mp declared
  refine parameters_eq_ok.mpr ⟨us ++ us, usages_append_self used apart, ?_⟩
  have sorted := pairwise_sortParameters (Usage.nodup_names_foldl_record us)
  refine eq_of_pairwise_names (pairwise_sortParameters (Usage.nodup_names_foldl_record _)) ?_ ?_
  · rw [List.map_map]
    exact sorted
  · intro p
    rw [mem_sortParameters, List.filter_append, Usage.merged_append_self, Option.map_eq_some_iff,
      List.mem_map]
    constructor
    · rintro ⟨q, merged, rfl⟩
      exact ⟨q, mem_sortParameters.mpr merged, rfl⟩
    · rintro ⟨q, member, rfl⟩
      exact ⟨q, mem_sortParameters.mp member, rfl⟩

/-- A default makes its parameter optional, unless the only call requires it. -/
theorem required_of_default (declared : parameters sql = .ok ps) (member : p ∈ ps)
    (given : p.default.isSome) : p.required = false ↔ ¬ InsistsOnce sql p.name := by
  obtain ⟨us, makes, merged⟩ := merged_of_mem declared member
  rw [← Usage.merged_default merged, isSome_getLast?_filterMap] at given
  obtain ⟨u, isUse, given⟩ := given
  have optional := (exists_saysOptional_iff makes).mpr ⟨u, isUse, .inl given⟩
  rw [required_eq_false_iff declared member, and_iff_right optional]

/-- A default or a word of any call makes its parameter optional, unless the only call requires it.
A query that is repeated, and opens no placeholder at its end that its beginning closes, settles
what is optional and changes nothing else; so it changes a parameter if the only call both gives a
default and requires it. -/
theorem parameters_optional (declared : parameters sql = .ok ps) :
    (∀ p ∈ ps, p.required = false ↔
      (∃ c ∈ callsOf sql p.name, c.SaysOptional) ∧ ¬ InsistsOnce sql p.name) ∧
    (¬ Spans sql sql → parameters (sql ++ " " ++ sql) = .ok (ps.map Parameter.settled)) ∧
    (Spans sql sql → ∃ between,
      expressions (sql ++ " " ++ sql) = expressions sql ++ between :: expressions sql) ∧
    (ps.map Parameter.settled = ps ↔
      ∀ p ∈ ps, p.default.isSome → ¬ InsistsOnce sql p.name) := by
  refine ⟨fun p => required_eq_false_iff declared, parameters_append_self declared, ?_, ?_⟩
  · intro spans
    have spaced : sql ++ " " ++ sql = sql ++ ' ' :: sql := List.append_assoc ..
    rw [spaced]
    exact expressions_append_of_spans rfl spans
  · have each : ps.map Parameter.settled = ps ↔ ∀ p ∈ ps, p.settled = p := by
      simpa using List.map_inj_left (l := ps) (f := Parameter.settled) (g := id)
    rw [each]
    refine forall₂_congr fun p member => ?_
    rw [Parameter.settled_eq_self_iff]
    exact forall_congr' fun given => required_of_default declared member given

/-- A requirement with a default, taken back by a further call, and a word that makes optional. -/
def loosenedQuery : Text :=
  "\x7b\x7b Int32(x, 10, required=True) \x7d\x7d \x7b\x7b String(y, required=False) \x7d\x7d " ++
    "\x7b\x7b Int64(x) \x7d\x7d"

def loosenedParameters : List Parameter :=
  [{ name := "x", type := "Int64", required := false, default := some (.int 10) },
   { name := "y", type := "String", required := false }]

theorem parameters_optional_loosenedQuery :
    parameters loosenedQuery = .ok loosenedParameters ∧
    (∀ p ∈ loosenedParameters, p.required = false ↔
      (∃ c ∈ callsOf loosenedQuery p.name, c.SaysOptional) ∧ ¬ InsistsOnce loosenedQuery p.name) ∧
    (¬ Spans loosenedQuery loosenedQuery →
      parameters (loosenedQuery ++ " " ++ loosenedQuery) =
        .ok (loosenedParameters.map Parameter.settled)) ∧
    (Spans loosenedQuery loosenedQuery → ∃ between,
      expressions (loosenedQuery ++ " " ++ loosenedQuery) =
        expressions loosenedQuery ++ between :: expressions loosenedQuery) ∧
    (loosenedParameters.map Parameter.settled = loosenedParameters ↔
      ∀ p ∈ loosenedParameters, p.default.isSome → ¬ InsistsOnce loosenedQuery p.name) := by
  have recorded : (usages loosenedQuery).map (·.foldl Usage.record []) =
      .ok loosenedParameters := by
    unfold loosenedQuery loosenedParameters
    repeat rw [String.toList_ofList]
    decide +kernel
  have declared : parameters loosenedQuery = .ok loosenedParameters :=
    parameters_of_perm recorded (List.Perm.refl _) (by decide)
  exact ⟨declared, parameters_optional declared⟩

/-- A requirement with a default, and no further call. -/
def insistingQuery : Text := "\x7b\x7b Int32(x, 10, required=True) \x7d\x7d"

def insistingParameter : Parameter :=
  { name := "x", type := "Int32", default := some (.int 10) }

/-- The one call gives a default, and the parameter is required; two such calls make it optional. -/
theorem required_insistingQuery :
    parameters insistingQuery = .ok [insistingParameter] ∧
    (∃ c ∈ callsOf insistingQuery insistingParameter.name, c.defaults = [.int 10]) ∧
    insistingParameter.required = true ∧
    parameters (insistingQuery ++ " " ++ insistingQuery) =
      .ok [{ insistingParameter with required := false }] := by
  have calls : callsOf insistingQuery insistingParameter.name =
      [{ name := "Int32", gap := [], arguments := "x, 10, required=True" }] := by decide +kernel
  refine ⟨?_, ?_, rfl, ?_⟩
  · exact parameters_of_perm (by decide +kernel) (List.Perm.refl _) (List.pairwise_singleton _ _)
  · rw [calls]
    exact ⟨_, List.mem_singleton.mpr rfl, by decide +kernel⟩
  · exact parameters_of_perm (by decide +kernel) (List.Perm.refl _) (List.pairwise_singleton _ _)

end DatafileMigration.Template
