import DatafileMigration.Proofs.Fault.Breaks
import DatafileMigration.Proofs.Number.LongInteger
import DatafileMigration.Proofs.Text.Strip
import DatafileMigration.Template.Parameter

namespace DatafileMigration.Template

/-- An argument that gives an integer of too many digits, by its place or by a keyword that has
a value. -/
inductive LongOption (argument : Text) : Prop
  | positional : IsLongInteger (Text.strip argument) → LongOption argument
  | keyword {key value} : keywordArgument? (Text.strip argument) = some (key, value) →
      (Text.lower key = "default" ∨ Text.lower key = "description") → IsLongInteger value →
      LongOption argument

theorem breaks_readDefault {raw : Text} :
    Breaks (readDefault raw) ↔ IsLongInteger (Text.strip raw) := by
  rw [← PlainNumber.no_value_iff]
  unfold readDefault
  cases read : PlainNumber.ofText? (Text.strip raw) with
  | some x => simp [read]
  | none =>
    simp only [read, breaks_ite, not_breaks_ok, and_false, false_or, reduceCtorEq, false_and,
      exists_false, iff_false]
    rintro ⟨_, _, broken⟩
    cases inside : quotedInside? (Text.strip raw) <;> simp [inside] at broken

@[simp]
theorem not_breaks_readRequired {raw : Text} : ¬ Breaks (readRequired raw) := by
  simp [readRequired, breaks_ite, -String.reduceToList]

/-- No sign and no digit is an equals sign, so that a long integer is no keyword argument. -/
theorem keywordArgument?_of_long {argument : Text} (long : IsLongInteger argument) :
    keywordArgument? argument = none := by
  have absent : '=' ∉ argument := by
    intro member
    rcases long.mem member with sign | digit
    · exact absurd sign (by decide)
    · exact absurd digit (by decide)
  simp [keywordArgument?, Text.cutAt?_of_not_mem absent]

/-- The value of a keyword argument is stripped. -/
theorem strip_of_keywordArgument? {argument key value : Text}
    (found : keywordArgument? argument = some (key, value)) : Text.strip value = value := by
  simp only [keywordArgument?, Option.bind_eq_bind, Option.bind_eq_some_iff] at found
  obtain ⟨⟨rawKey, rawValue⟩, _, found⟩ := found
  split at found
  · cases found
    exact Text.strip_strip rawValue
  · cases found

theorem longOption_of_keyword {argument key value : Text}
    (found : keywordArgument? (Text.strip argument) = some (key, value)) :
    LongOption argument ↔
      (Text.lower key = "default" ∨ Text.lower key = "description") ∧ IsLongInteger value := by
  constructor
  · rintro (long | ⟨other, word, long⟩)
    · rw [keywordArgument?_of_long long] at found
      cases found
    · rw [found] at other
      cases other
      exact ⟨word, long⟩
  · rintro ⟨word, long⟩
    exact .keyword found word long

theorem longOption_of_no_keyword {argument : Text}
    (none : keywordArgument? (Text.strip argument) = none) :
    LongOption argument ↔ IsLongInteger (Text.strip argument) := by
  constructor
  · rintro (long | ⟨found, _, _⟩)
    · exact long
    · rw [none] at found
      cases found
  · exact .positional

theorem not_longOption_of_blank {argument : Text} (blank : Text.strip argument = []) :
    ¬ LongOption argument := by
  have none : keywordArgument? (Text.strip argument) = none := by rw [blank]; rfl
  rw [longOption_of_no_keyword none, blank]
  intro long
  obtain ⟨c, rest, equal, _⟩ := long.head
  cases equal

/-- The options break down with an argument exactly if it is a long integer in a place where a
value is read. -/
theorem Options.breaks_take {o : Options} {argument : Text} :
    Breaks (o.take argument) ↔ LongOption argument := by
  unfold Options.take
  by_cases blank : Text.strip argument = []
  · simp [blank, not_longOption_of_blank blank]
  simp only [if_neg blank]
  cases found : keywordArgument? (Text.strip argument) with
  | none => simp [longOption_of_no_keyword found, breaks_readDefault]
  | some entry =>
    obtain ⟨key, value⟩ := entry
    rw [longOption_of_keyword found]
    dsimp only
    have value_long : Breaks (readDefault value) ↔ IsLongInteger value := by
      rw [breaks_readDefault, strip_of_keywordArgument? found]
    by_cases isDefault : Text.lower key = "default"
    · simp [isDefault, value_long]
    by_cases isRequired : Text.lower key = "required"
    · have other : ¬ Text.lower key = "description" := by rw [isRequired]; decide
      rw [if_neg isDefault, if_pos isRequired, breaks_bind]
      simp only [isDefault, other, or_self, false_and, not_breaks_readRequired, not_breaks_pure,
        and_false, exists_false]
    by_cases isDescription : Text.lower key = "description"
    · rw [if_neg isDefault, if_neg isRequired, if_pos isDescription, breaks_bind, value_long]
      simp only [isDescription, or_true, true_and, or_iff_left_iff_imp]
      rintro ⟨x, _, broken⟩
      cases x <;> simp at broken
    · rw [if_neg isDefault, if_neg isRequired, if_neg isDescription]
      simp only [isDefault, isDescription, or_self, false_and, not_breaks_pure]

/-- A call that declares a parameter and gives it an integer of too many digits. -/
structure Call.HasLongOption (c : Call) : Prop where
  declares : ¬ c.isRaising
  typed : ∃ type, typeOfFunction? c.name = some type ∧ type ≠ "Array"
  gives : ∃ name arguments, Text.splitTopLevel c.arguments = name :: arguments ∧
    Text.isIdentifier name ∧ FoldReaches Options.take (fun _ => LongOption) {} arguments

theorem Call.breaks_usage? {c : Call} : Breaks c.usage? ↔ c.HasLongOption := by
  unfold Call.usage?
  by_cases raising : c.isRaising
  · rw [if_pos raising]
    exact ⟨fun broken => absurd broken (not_breaks_ok _), fun long => absurd raising long.declares⟩
  rw [if_neg raising]
  cases typed : typeOfFunction? c.name with
  | none =>
    refine ⟨fun broken => absurd broken (not_breaks_refused _), fun long => ?_⟩
    obtain ⟨type, found, _⟩ := long.typed
    rw [typed] at found
    cases found
  | some type =>
    cases split : Text.splitTopLevel c.arguments with
    | nil =>
      refine ⟨fun broken => absurd broken (not_breaks_refused _), fun long => ?_⟩
      obtain ⟨name, arguments, found, _⟩ := long.gives
      rw [split] at found
      cases found
    | cons name arguments =>
      have long_iff : c.HasLongOption ↔ Text.isIdentifier name ∧ type ≠ "Array" ∧
          FoldReaches Options.take (fun _ => LongOption) {} arguments := by
        constructor
        · rintro ⟨_, ⟨_, other, array⟩, _, _, found, identifier, reach⟩
          rw [typed] at other
          rw [split] at found
          cases other
          cases found
          exact ⟨identifier, array, reach⟩
        · rintro ⟨identifier, array, reach⟩
          exact ⟨raising, ⟨type, typed, array⟩, name, arguments, split, identifier, reach⟩
      rw [long_iff]
      by_cases identifier : Text.isIdentifier name
      · by_cases array : type = "Array"
        · simp [identifier, array]
        · simp only [identifier, Bool.not_true, Bool.false_eq_true, if_false, breaks_map, true_and,
            ne_eq, array, not_false_eq_true, readOptions, breaks_foldlM, Options.breaks_take]
      · simp only [identifier, Bool.not_false, if_true, breaks_ite, not_breaks_ok,
          not_breaks_refused, and_false, or_self, Bool.false_eq_true, false_and]

/-- The parameters of a query break down exactly if its calls come to one with a long integer. -/
theorem breaks_parameters {sql : Text} :
    Breaks (parameters sql) ↔ Reaches Call.usage? Call.HasLongOption (queryCalls sql) := by
  simp only [parameters, usages, breaks_map, breaks_filterMapM, Call.breaks_usage?]

end DatafileMigration.Template
