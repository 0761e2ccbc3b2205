import DatafileMigration.Proofs.Template.Merging
import DatafileMigration.Proofs.Template.Reduced

namespace DatafileMigration.Template

/-- An argument that gives a default, by its place or by the keyword. -/
inductive GivesDefault (argument : Text) : Prop
  | positional : Text.strip argument ≠ [] → keywordArgument? (Text.strip argument) = none →
      GivesDefault argument
  | keyword {key value} : keywordArgument? (Text.strip argument) = some (key, value) →
      Text.lower key = "default" → GivesDefault argument

/-- A call with a default that it loses when it is reduced to the name of its parameter. -/
structure Call.LosesDefault (c : Call) (name : Text) : Prop where
  named : c.parameterName? = some name
  gives : ∃ argument ∈ (Text.splitTopLevel c.arguments).tail, GivesDefault argument

/-- Among the parameters is one of the name with a default. -/
def HasDefault (ps : List Parameter) (name : Text) : Prop :=
  ∃ p ∈ ps, p.name = name ∧ p.default.isSome

variable {o said : Options} {argument name sql : Text} {arguments : List Text}
  {ps : List Parameter} {c : Call}

theorem givesDefault_of_keyword {key value : Text}
    (found : keywordArgument? (Text.strip argument) = some (key, value)) :
    GivesDefault argument ↔ Text.lower key = "default" := by
  constructor
  · rintro (⟨_, none⟩ | ⟨other, isDefault⟩)
    · rw [found] at none
      cases none
    · rw [found] at other
      cases other
      exact isDefault
  · exact .keyword found

theorem not_givesDefault_of_blank (blank : Text.strip argument = []) : ¬ GivesDefault argument := by
  rintro (⟨some, _⟩ | ⟨found, _⟩)
  · exact some blank
  · rw [blank] at found
    cases found

/-- An argument that gives no default leaves the one that there was. -/
theorem Options.yields_take :
    Yields (fun said => said.default.isSome ∨ said.default = o.default ∧ ¬ GivesDefault argument)
      (o.take argument) := by
  unfold Options.take
  by_cases blank : Text.strip argument = []
  · simp [blank, not_givesDefault_of_blank blank]
  simp only [if_neg blank]
  cases found : keywordArgument? (Text.strip argument) with
  | none => simp
  | some entry =>
    obtain ⟨key, value⟩ := entry
    simp only [givesDefault_of_keyword found, yields_ite, yields_bind]
    refine ⟨fun isDefault => ?_, fun other => ⟨fun isRequired => ?_, fun _ =>
      ⟨fun isDescription => ?_, fun _ => ?_⟩⟩⟩
    · simp
    · exact fun _ _ => yields_pure.mpr (.inr ⟨rfl, other⟩)
    · intro said _
      cases said with
      | text t => exact yields_pure.mpr (.inr ⟨rfl, other⟩)
      | bool | int | float => exact yields_throw
    · exact yields_pure.mpr (.inr ⟨rfl, other⟩)

/-- No argument takes a default back, and one that gives a default leaves one. -/
theorem Options.isSome_default_take (taken : o.take argument = .ok said)
    (default : o.default.isSome ∨ GivesDefault argument) : said.default.isSome := by
  rcases Options.yields_take said taken with given | ⟨same, none⟩
  · exact given
  · rw [same]
    exact default.resolve_right none

theorem isSome_default_foldlM (read : arguments.foldlM Options.take o = .ok said)
    (default : o.default.isSome ∨ ∃ argument ∈ arguments, GivesDefault argument) :
    said.default.isSome := by
  induction arguments generalizing o with
  | nil =>
    cases read
    exact default.resolve_right (by simp)
  | cons argument arguments ih =>
    rw [List.foldlM_cons] at read
    obtain ⟨behind, taken, read⟩ := bind_eq_ok.mp read
    refine ih read ?_
    rcases default with known | ⟨a, member, gives⟩
    · exact .inl (Options.isSome_default_take taken (.inl known))
    · rcases List.mem_cons.mp member with rfl | later
      · exact .inl (Options.isSome_default_take taken (.inr gives))
      · exact .inr ⟨a, later, gives⟩

/-- The use that a call makes has the default that the call loses. -/
theorem Call.LosesDefault.usage? {use : Option Usage} (loses : c.LosesDefault name)
    (used : c.usage? = .ok use) : ∃ u, use = some u ∧ u.name = name ∧ u.options.default.isSome := by
  obtain ⟨typed, _, options, split⟩ := c.parameterName?_eq_some.mp loses.named
  obtain ⟨argument, member, gives⟩ := loses.gives
  rw [split, List.tail_cons] at member
  cases uses_of_usage? used with
  | raising raising => simp [isTyped_of_isRaising raising] at typed
  | expression _ _ split' other =>
    rw [split] at split'
    cases split'
    rw [(c.parameterName?_eq_some.mp loses.named).2.1] at other
    cases other
  | array _ known => simp [isTyped, known] at typed
  | @typed name' options' type said _ _ _ split' _ read =>
    rw [split] at split'
    cases split'
    exact ⟨_, rfl, rfl, isSome_default_foldlM read (.inr ⟨argument, member, gives⟩)⟩

/-- Every default that a call of a query loses is a default of the parameter that it names. -/
theorem hasDefault_parameters (declared : parameters sql = .ok ps) (member : c ∈ queryCalls sql)
    (loses : c.LosesDefault name) : HasDefault ps name := by
  obtain ⟨us, used, rfl⟩ := parameters_eq_ok.mp declared
  obtain ⟨found, each, rfl⟩ := filterMapM_eq_ok.mp used
  obtain ⟨use, isFound, used⟩ : ∃ use ∈ found, c.usage? = .ok use := by
    obtain ⟨n, bound, rfl⟩ := List.mem_iff_getElem.mp member
    exact ⟨_, List.getElem_mem (each.length_eq ▸ bound), each.get bound (each.length_eq ▸ bound)⟩
  obtain ⟨u, rfl, rfl, given⟩ := loses.usage? used
  have isUse : u ∈ found.filterMap id := List.mem_filterMap.mpr ⟨_, isFound, rfl⟩
  obtain ⟨p, isParameter, named⟩ := exists_mem_sortParameters isUse
  refine ⟨p, isParameter, named, ?_⟩
  rw [← Usage.merged_default (mem_sortParameters.mp isParameter), isSome_getLast?_filterMap]
  exact ⟨u, List.mem_filter.mpr ⟨isUse, by simp [named]⟩, given⟩

end DatafileMigration.Template
