import DatafileMigration.Proofs.Fault.Yields
import DatafileMigration.Proofs.Template.Calls
import DatafileMigration.Template.Normalize
import DatafileMigration.Template.Parameter

namespace DatafileMigration.Template

namespace Call

variable {c : Call} {name : Text}

/-- The parameter that a typed call names. -/
def parameterName? (c : Call) : Option Text :=
  if c.isTyped then (Text.splitTopLevel c.arguments).head?.filter Text.isIdentifier else none

theorem parameterName?_eq_some : c.parameterName? = some name ↔
    c.isTyped ∧ Text.isIdentifier name ∧
      ∃ options, Text.splitTopLevel c.arguments = name :: options := by
  rw [parameterName?]
  cases c.isTyped with
  | false => simp
  | true => simp [Option.filter_eq_some_iff, List.head?_eq_some_iff, and_comm]

/-- A call of a named parameter with nothing but its name. -/
def reduced (c : Call) : Call :=
  match c.parameterName? with
  | some name => { name := c.name, gap := [], arguments := name }
  | none => c

theorem reduced_of_some (named : c.parameterName? = some name) :
    c.reduced = { name := c.name, gap := [], arguments := name } := by
  rw [reduced, named]

theorem reduced_of_none (unnamed : c.parameterName? = none) : c.reduced = c := by
  rw [reduced, unnamed]

@[simp]
theorem name_reduced (c : Call) : c.reduced.name = c.name := by
  cases named : c.parameterName? with
  | some name => rw [reduced_of_some named]
  | none => rw [reduced_of_none named]

theorem source_reduced (c : Call) : c.reduced.source = c.normalized := by
  rw [reduced, parameterName?, normalized]
  cases c.isTyped with
  | false => rfl
  | true =>
    cases Text.splitTopLevel c.arguments with
    | nil => rfl
    | cons name options =>
      cases identifier : Text.isIdentifier name <;> simp [Option.filter, identifier, source]

theorem parameterName?_reduced (c : Call) : c.reduced.parameterName? = c.parameterName? := by
  cases named : c.parameterName? with
  | none => rw [reduced_of_none named, named]
  | some name =>
    obtain ⟨typed, identifier, _⟩ := parameterName?_eq_some.mp named
    rw [reduced_of_some named, parameterName?_eq_some]
    exact ⟨typed, identifier, [], Text.splitTopLevel_of_isIdentifier identifier⟩

theorem reduced_reduced (c : Call) : c.reduced.reduced = c.reduced := by
  have same := c.parameterName?_reduced
  cases named : c.parameterName? with
  | none => rw [reduced_of_none named, reduced_of_none named]
  | some name =>
    rw [named] at same
    rw [reduced_of_some same, name_reduced, reduced_of_some named]

theorem IsRead.reduced (read : c.IsRead) : c.reduced.IsRead := by
  cases named : c.parameterName? with
  | none => rwa [reduced_of_none named]
  | some name =>
    obtain ⟨_, identifier, _⟩ := parameterName?_eq_some.mp named
    have free : ∀ d ∈ name, d ≠ '\'' ∧ d ≠ '"' := fun d member =>
      not_quote_of_isIdentifierChar (Text.isIdentifierChar_of_mem identifier d member)
    rw [reduced_of_some named]
    refine ⟨read.name, List.forall_mem_nil _, ?_, Quotes.isOpen_after free⟩
    intro x member
    rw [Quotes.mask_of_closed rfl free] at member
    obtain ⟨d, inside, rfl⟩ := List.mem_map.mp member
    exact isParenthesis_of_isIdentifierChar (Text.isIdentifierChar_of_mem identifier d inside)

end Call

namespace Call

variable {c : Call} {name : Text} {use : Option Usage}

/-- What use a call makes of a parameter, if it makes one. -/
inductive Uses (c : Call) : Option Usage → Prop
  | raising : c.isRaising → Uses c none
  | expression {name options} : c.isRaising = false →
      typeOfFunction? c.name = some "column".toList →
      Text.splitTopLevel c.arguments = name :: options → Text.isIdentifier name = false →
      Uses c none
  | array {name options} : c.isRaising = false → typeOfFunction? c.name = some "Array".toList →
      Text.splitTopLevel c.arguments = name :: options → Text.isIdentifier name →
      Uses c (some ⟨name, "Array", {}⟩)
  | typed {name options type said} : c.isRaising = false → typeOfFunction? c.name = some type →
      type ≠ "Array".toList → Text.splitTopLevel c.arguments = name :: options →
      Text.isIdentifier name → readOptions options = .ok said → Uses c (some ⟨name, type, said⟩)

theorem uses_of_usage? (used : c.usage? = .ok use) : c.Uses use := by
  unfold Call.usage? at used
  cases raising : c.isRaising with
  | true =>
    rw [raising, if_pos rfl] at used
    cases used
    exact .raising raising
  | false =>
  rw [raising, if_neg Bool.false_ne_true] at used
  cases known : typeOfFunction? c.name with
  | none =>
    rw [known] at used
    cases used
  | some type =>
  rw [known] at used
  cases split : Text.splitTopLevel c.arguments with
  | nil =>
    rw [split] at used
    cases used
  | cons name options =>
  simp only [split] at used
  cases identifier : Text.isIdentifier name with
  | false =>
    rw [identifier, Bool.not_false, if_pos rfl] at used
    by_cases column : type = "column".toList
    · rw [if_pos column] at used
      cases used
      exact .expression raising (column ▸ known) split identifier
    · rw [if_neg column] at used
      cases used
  | true =>
    rw [identifier, Bool.not_true, if_neg Bool.false_ne_true] at used
    by_cases array : type = "Array".toList
    · rw [if_pos array] at used
      cases used
      subst array
      exact .array raising known split identifier
    · rw [if_neg array] at used
      obtain ⟨said, read, rfl⟩ := map_eq_ok.mp used
      exact .typed raising known array split identifier read

end Call

/-- The same use without options. -/
def Usage.bare (u : Usage) : Usage := { u with options := {} }

theorem Call.isTyped_of_isRaising {c : Call} (raising : c.isRaising) : c.isTyped = false := by
  rw [isTyped, raising, Bool.not_true, Bool.false_and]

/-- A reduced call makes the use that the call made, without its options. -/
theorem Call.usage?_reduced {c : Call} {use : Option Usage} (used : c.usage? = .ok use) :
    c.reduced.usage? = .ok (use.map Usage.bare) := by
  cases uses_of_usage? used with
  | raising raising =>
    have unnamed : c.parameterName? = none := by
      simp [parameterName?, isTyped_of_isRaising raising]
    rw [reduced_of_none unnamed, used]
    rfl
  | expression _ _ split other =>
    have unnamed : c.parameterName? = none := by simp [parameterName?, split, Option.filter, other]
    rw [reduced_of_none unnamed, used]
    rfl
  | array raising known split identifier =>
    have unnamed : c.parameterName? = none := by simp [parameterName?, isTyped, known]
    rw [reduced_of_none unnamed, used]
    rfl
  | @typed name options type said raising known array split identifier read =>
    have typed : c.isTyped := by
      rw [isTyped, raising, known]
      exact decide_eq_true array
    have named := parameterName?_eq_some.mpr ⟨typed, identifier, _, split⟩
    have raising' : Call.isRaising ⟨c.name, [], name⟩ = false := raising
    rw [reduced_of_some named, usage?]
    simp only [raising', Bool.false_eq_true, if_false, known, identifier, Bool.not_true,
      Text.splitTopLevel_of_isIdentifier identifier, if_neg array]
    rfl

end DatafileMigration.Template
