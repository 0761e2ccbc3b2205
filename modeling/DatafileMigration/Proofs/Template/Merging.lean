import Mathlib.Data.List.Nodup
import DatafileMigration.Proofs.Fault.Yields
import DatafileMigration.Proofs.Text.Order
import DatafileMigration.Template.Parameter

namespace DatafileMigration

/-- The parameter, optional if it has a default. -/
def Parameter.settled (p : Parameter) : Parameter :=
  { p with required := p.required && p.default.isNone }

theorem Parameter.settled_eq_self_iff {p : Parameter} :
    p.settled = p ↔ (p.default.isSome → p.required = false) := by
  obtain ⟨name, type, required, default, description⟩ := p
  cases default <;> simp [settled]

namespace Template

/-- A use makes its parameter optional by a default or in words. -/
def Options.SaysOptional (o : Options) : Prop := o.default.isSome ∨ o.required = some false

variable {u : Usage} {us : List Usage} {p : Parameter} {ps : List Parameter} {name sql : Text}

/-- What is found last behind a beginning, or else in it. -/
theorem getLast?_filterMap_cons {α β : Type} (f : α → Option β) (a : α) (l : List α) :
    ((a :: l).filterMap f).getLast? = ((l.filterMap f).getLast?).or (f a) := by
  cases found : f a with
  | none => rw [List.filterMap_cons_none found, Option.or_none]
  | some b => rw [List.filterMap_cons_some found, List.getLast?_cons, Option.or_some]

theorem isSome_getLast?_filterMap {α β : Type} {f : α → Option β} {l : List α} :
    (l.filterMap f).getLast?.isSome ↔ ∃ a ∈ l, (f a).isSome := by
  rw [List.getLast?_isSome, ne_eq, List.filterMap_eq_nil_iff]
  simp [Option.isSome_iff_ne_none]

namespace Usage

/-- A description that says something. -/
def filledDescription? (u : Usage) : Option Text := u.options.description.filter (· ≠ [])

/-- The parameter after further uses. -/
def amendAll (p : Parameter) (us : List Usage) : Parameter := us.foldl (fun p u => u.amend p) p

/-- The parameter that uses of one name declare, if there is one. -/
def merged : List Usage → Option Parameter
  | [] => none
  | u :: us => some (amendAll u.declare us)

/-- What further uses make of a parameter, part by part. A default is never taken back, so that
the last one decides whether there was any. -/
theorem amendAll_eq (p : Parameter) (us : List Usage) :
    let default := ((us.filterMap (·.options.default)).getLast?).or p.default
    amendAll p us =
      { name := p.name
        type := ((us.map (·.type)).getLast?).getD p.type
        required := p.required && us.all (·.options.required != some false)
          && (us.isEmpty || default.isNone)
        default
        description := ((us.filterMap filledDescription?).getLast?).or p.description } := by
  induction us generalizing p with
  | nil => simp [amendAll]
  | cons u us ih =>
    have step : amendAll p (u :: us) = amendAll (u.amend p) us := rfl
    rw [step, ih]
    simp only [getLast?_filterMap_cons, Option.or_assoc]
    have default : (u.amend p).default = u.options.default.or p.default := by
      simp [amend, Option.orElse_eq_or]
    have description : (u.amend p).description = (filledDescription? u).or p.description := by
      rw [amend, filledDescription?]
      cases u.options.description with
      | none => rfl
      | some t => cases t <;> rfl
    have required : (u.amend p).required = (p.required && u.options.required != some false &&
        (u.options.default.or p.default).isNone) := by
      rw [← default]
      rfl
    rw [Parameter.mk.injEq, default, description, required]
    refine ⟨rfl, by simp [List.getLast?_cons, amend], ?_, rfl, rfl⟩
    rw [List.all_cons]
    cases us with
    | nil => simp
    | cons v vs =>
      simp only [List.isEmpty_cons, Bool.false_or, Option.isNone_or]
      ac_rfl

theorem required_amendAll_cons (p : Parameter) (u : Usage) (us : List Usage) :
    (amendAll p (u :: us)).required = (p.required &&
      (u :: us).all (·.options.required != some false) &&
        (amendAll p (u :: us)).default.isNone) := by
  rw [amendAll_eq]
  rfl

theorem amendAll_append (p : Parameter) (us vs : List Usage) :
    amendAll p (us ++ vs) = amendAll (amendAll p us) vs := List.foldl_append ..

/-- A use counts for the parameter of its name only. -/
theorem find?_record (ps : List Parameter) (u : Usage) (name : Text) :
    (record ps u).find? (·.name = name) =
      if u.name = name then some (((ps.find? (·.name = name)).map u.amend).getD u.declare)
      else ps.find? (·.name = name) := by
  induction ps with
  | nil =>
    by_cases same : u.name = name
    · simp [record, declare, same]
    · simp [record, declare, same]
  | cons p ps ih =>
    rw [record]
    by_cases known : p.name = u.name
    · have amended : (u.amend p).name = p.name := rfl
      by_cases same : u.name = name
      · simp [known, same, amended]
      · simp [known, same, amended]
    · rw [if_neg known, List.find?_cons, List.find?_cons, ih]
      by_cases here : p.name = name
      · have other : ¬ u.name = name := fun same => known (here.trans same.symm)
        simp [here, other]
      · simp [here]

/-- The parameter of a name is told by the uses of that name. -/
theorem find?_foldl_record (ps : List Parameter) (us : List Usage) (name : Text) :
    (us.foldl record ps).find? (·.name = name) =
      (ps.find? (·.name = name)).elim (merged (us.filter (·.name = name)))
        fun p => some (amendAll p (us.filter (·.name = name))) := by
  induction us generalizing ps with
  | nil =>
    rw [List.foldl_nil]
    cases ps.find? (·.name = name) <;> rfl
  | cons u us ih =>
    rw [List.foldl_cons, ih, find?_record]
    by_cases same : u.name = name
    · rw [if_pos same, List.filter_cons_of_pos (by simpa using same)]
      cases ps.find? (·.name = name) <;> rfl
    · rw [if_neg same, List.filter_cons_of_neg (by simpa using same)]

theorem map_name_record (ps : List Parameter) (u : Usage) : (record ps u).map (·.name) =
    if u.name ∈ ps.map (·.name) then ps.map (·.name) else ps.map (·.name) ++ [u.name] := by
  induction ps with
  | nil => rfl
  | cons p ps ih =>
    rw [record]
    by_cases known : p.name = u.name
    · simp [known, amend]
    · have other : ¬ u.name = p.name := Ne.symm known
      rw [if_neg known, List.map_cons, ih, List.map_cons]
      simp only [List.mem_cons, other, false_or]
      split <;> rfl

/-- No name has two parameters. -/
theorem nodup_names_foldl_record (us : List Usage) :
    ((us.foldl record []).map (·.name)).Nodup := by
  suffices all : ∀ ps : List Parameter, (ps.map (·.name)).Nodup →
      ((us.foldl record ps).map (·.name)).Nodup from all [] List.nodup_nil
  induction us with
  | nil => exact fun _ nodup => nodup
  | cons u us ih =>
    intro ps nodup
    refine ih (record ps u) ?_
    rw [map_name_record]
    split
    · exact nodup
    · rename_i fresh
      rw [List.nodup_append_comm, List.singleton_append, List.nodup_cons]
      exact ⟨fresh, nodup⟩

/-- The parameters of uses are those that the uses of one name declare. -/
theorem mem_foldl_record : p ∈ us.foldl record [] ↔
    merged (us.filter (·.name = p.name)) = some p := by
  have told : (us.foldl record []).find? (·.name = p.name) =
      merged (us.filter (·.name = p.name)) := find?_foldl_record [] us p.name
  rw [← told]
  constructor
  · intro member
    have known : ((us.foldl record []).find? (·.name = p.name)).isSome :=
      List.find?_isSome.mpr ⟨p, member, by simp⟩
    obtain ⟨q, found⟩ := Option.isSome_iff_exists.mp known
    have same : q.name = p.name := by simpa using List.find?_some found
    have equal := List.inj_on_of_nodup_map (nodup_names_foldl_record us)
      (List.mem_of_find?_eq_some found) member same
    rw [found, equal]
  · exact List.mem_of_find?_eq_some

theorem merged_eq_none : merged us = none ↔ us = [] := by
  cases us <;> simp [merged]

theorem merged_name (declared : merged (us.filter (·.name = name)) = some p) : p.name = name := by
  cases chosen : us.filter (·.name = name) with
  | nil =>
    rw [chosen] at declared
    cases declared
  | cons u rest =>
    rw [chosen] at declared
    obtain rfl := Option.some.inj declared
    have member : u ∈ us.filter (·.name = name) := chosen ▸ List.mem_cons_self
    rw [amendAll_eq]
    exact of_decide_eq_true (List.mem_filter.mp member).2

theorem merged_type (declared : merged us = some p) : (us.map (·.type)).getLast? = some p.type := by
  cases us with
  | nil => cases declared
  | cons u us =>
    obtain rfl := Option.some.inj declared
    rw [amendAll_eq, List.map_cons, List.getLast?_cons]
    rfl

theorem merged_default (declared : merged us = some p) :
    (us.filterMap (·.options.default)).getLast? = p.default := by
  cases us with
  | nil => cases declared
  | cons u us =>
    obtain rfl := Option.some.inj declared
    rw [amendAll_eq, getLast?_filterMap_cons]
    rfl

theorem required_declare (u : Usage) : u.declare.required = false ↔
    u.options.SaysOptional ∧ u.options.required ≠ some true := by
  have declared : u.declare.required = u.options.required.getD u.options.default.isNone := rfl
  rw [declared]
  cases said : u.options.required with
  | none => simp [Options.SaysOptional, said]
  | some required => cases required <;> simp [Options.SaysOptional, said]

/-- Where several uses are merged, none can insist. -/
theorem required_amendAll (u v : Usage) (us : List Usage) :
    (amendAll u.declare (v :: us)).required = false ↔
      ∃ w ∈ u :: v :: us, w.options.SaysOptional := by
  have declared : merged (u :: v :: us) = some (amendAll u.declare (v :: us)) := rfl
  have given : (amendAll u.declare (v :: us)).default.isSome ↔
      ∃ w ∈ u :: v :: us, w.options.default.isSome := by
    rw [← merged_default declared, isSome_getLast?_filterMap]
  rw [required_amendAll_cons, Bool.and_eq_false_iff, Bool.and_eq_false_iff, List.all_eq_false,
    Option.isNone_eq_false_iff, given, required_declare]
  simp only [bne_iff_ne, ne_eq, not_not]
  constructor
  · rintro ((⟨optional, -⟩ | ⟨w, member, required⟩) | ⟨w, member, default⟩)
    · exact ⟨u, List.mem_cons_self, optional⟩
    · exact ⟨w, List.mem_cons_of_mem _ member, .inr required⟩
    · exact ⟨w, member, .inl default⟩
  · rintro ⟨w, member, default | required⟩
    · exact .inr ⟨w, member, default⟩
    · rcases List.mem_cons.mp member with rfl | behind
      · exact .inl (.inl ⟨.inr required, by simp [required]⟩)
      · exact .inl (.inr ⟨w, behind, required⟩)

/-- A parameter is optional if one of its uses says so, unless its only use requires it. -/
theorem merged_required (declared : merged us = some p) : p.required = false ↔
    (∃ u ∈ us, u.options.SaysOptional) ∧ ¬ ∃ u, us = [u] ∧ u.options.required = some true := by
  cases us with
  | nil => cases declared
  | cons u us =>
    obtain rfl := Option.some.inj declared
    cases us with
    | nil =>
      have alone : amendAll u.declare [] = u.declare := rfl
      rw [alone, required_declare]
      simp
    | cons v us =>
      have several : ¬ ∃ w, u :: v :: us = [w] ∧ w.options.required = some true := by simp
      rw [required_amendAll, and_iff_left several]

/-- A description that is empty is the first use's own, as no other one says anything. -/
theorem merged_description (declared : merged us = some p) :
    ((us.filterMap filledDescription?).getLast?).or p.description = p.description := by
  cases us with
  | nil => cases declared
  | cons u us =>
    obtain rfl := Option.some.inj declared
    rw [amendAll_eq, getLast?_filterMap_cons]
    cases (us.filterMap filledDescription?).getLast? with
    | some t => rfl
    | none =>
      rw [Option.none_or, Option.none_or, filledDescription?, declare]
      cases u.options.description with
      | none => rfl
      | some t => cases t <;> rfl

/-- Uses that are all repeated settle what is optional, and change nothing else. -/
theorem merged_append_self (us : List Usage) :
    merged (us ++ us) = (merged us).map Parameter.settled := by
  cases us with
  | nil => rfl
  | cons u us =>
    have declared : merged (u :: us) = some (amendAll u.declare us) := rfl
    have again : merged (u :: us ++ u :: us) =
        some (amendAll (amendAll u.declare us) (u :: us)) :=
      congrArg some (amendAll_append _ _ _)
    rw [again, declared, Option.map_some]
    generalize amendAll u.declare us = p at declared
    -- A parameter that is still required has no use that says otherwise.
    have silent : p.required = true → (u :: us).all (·.options.required != some false) := by
      intro required
      refine List.all_eq_true.mpr fun w member => bne_iff_ne.mpr fun optional => ?_
      have loosened := (merged_required declared).mpr ⟨⟨w, member, .inr optional⟩, ?_⟩
      · rw [required] at loosened
        cases loosened
      · rintro ⟨v, only, insists⟩
        rw [only, List.mem_singleton] at member
        rw [← member, optional] at insists
        cases insists
    rw [amendAll_eq, merged_type declared, merged_default declared, merged_description declared,
      Option.or_self, Parameter.settled, Option.some_inj, Parameter.mk.injEq]
    refine ⟨rfl, rfl, ?_, rfl, rfl⟩
    cases required : p.required with
    | false => rfl
    | true => rw [silent required, List.isEmpty_cons, Bool.false_or, Bool.and_true]

end Usage

theorem parameters_eq_ok : parameters sql = .ok ps ↔
    ∃ us, usages sql = .ok us ∧ sortParameters (us.foldl Usage.record []) = ps := map_eq_ok

theorem mem_sortParameters : p ∈ sortParameters (us.foldl Usage.record []) ↔
    Usage.merged (us.filter (·.name = p.name)) = some p := by
  rw [sortParameters, List.mem_mergeSort, Usage.mem_foldl_record]

/-- A name that a use has is the name of a parameter. -/
theorem exists_mem_sortParameters (member : u ∈ us) :
    ∃ p ∈ sortParameters (us.foldl Usage.record []), p.name = u.name := by
  have chosen : u ∈ us.filter (·.name = u.name) := List.mem_filter.mpr ⟨member, by simp⟩
  have filled : Usage.merged (us.filter (·.name = u.name)) ≠ none := fun none =>
    List.ne_nil_of_mem chosen (Usage.merged_eq_none.mp none)
  obtain ⟨p, merged⟩ := Option.ne_none_iff_exists'.mp filled
  have named := Usage.merged_name merged
  exact ⟨p, mem_sortParameters.mpr (named ▸ merged), named⟩

/-- Each name stands once, in the order of texts. -/
theorem pairwise_sortParameters (nodup : (ps.map (·.name)).Nodup) :
    ((sortParameters ps).map (·.name)).Pairwise (· < ·) :=
  List.pairwise_map.mpr (Text.pairwise_lt_mergeSort Parameter.name nodup)

/-- There is one way only to list parameters in the order of their names. -/
theorem eq_of_pairwise_names {qs : List Parameter} (sorted : (ps.map (·.name)).Pairwise (· < ·))
    (sorted' : (qs.map (·.name)).Pairwise (· < ·)) (same : ∀ p, p ∈ ps ↔ p ∈ qs) : ps = qs := by
  rw [List.pairwise_map] at sorted sorted'
  have distinct {p q : Parameter} (less : p.name < q.name) : p ≠ q := by
    rintro rfl
    exact List.lt_irrefl _ less
  have perm : ps.Perm qs :=
    (List.perm_ext_iff_of_nodup (sorted.imp distinct) (sorted'.imp distinct)).mpr same
  refine perm.eq_of_pairwise ?_ sorted sorted'
  exact fun p q _ _ less greater => absurd greater (List.lt_asymm less)

/-- What a query declares is what its uses record, in the order of names. -/
theorem parameters_of_perm {qs : List Parameter}
    (recorded : (usages sql).map (·.foldl Usage.record []) = .ok qs) (perm : qs.Perm ps)
    (sorted : (ps.map (·.name)).Pairwise (· < ·)) : parameters sql = .ok ps := by
  obtain ⟨us, used, rfl⟩ := map_eq_ok.mp recorded
  refine parameters_eq_ok.mpr ⟨us, used, ?_⟩
  have sorted' := pairwise_sortParameters (Usage.nodup_names_foldl_record us)
  refine eq_of_pairwise_names sorted' sorted fun p => ?_
  rw [sortParameters, List.mem_mergeSort, perm.mem_iff]

end Template

end DatafileMigration
