import DatafileMigration.Proofs.Column.Layer

namespace DatafileMigration

namespace Text

/-- A text on one line that is one argument among others. What is in its parentheses and in its
quotes is cut nowhere. -/
structure IsArgument (t : Text) : Prop where
  part : IsPart t
  nonempty : t ≠ []
  inline : '\n' ∉ t

/-- What may stand between the parentheses behind a name. -/
structure IsArguments (t : Text) : Prop where
  enclosed : IsEnclosed t
  nonempty : t ≠ []
  inline : '\n' ∉ t

variable {name s t : Text} {parts : List Text}

theorem IsArgument.isArguments (argument : IsArgument t) : IsArguments t :=
  ⟨argument.part.isEnclosed, argument.nonempty, argument.inline⟩

theorem IsArgument.append (first : IsArgument s) (second : IsArgument t) : IsArgument (s ++ t) :=
  ⟨first.part.append second.part, List.append_ne_nil_of_left_ne_nil first.nonempty t,
    List.not_mem_append first.inline second.inline⟩

theorem IsArguments.pair (first : IsArguments s) (second : IsArguments t) :
    IsArguments (s ++ ", " ++ t) := by
  refine ⟨(first.enclosed.append isEnclosed_comma).append second.enclosed, ?_, ?_⟩
  · exact List.append_ne_nil_of_right_ne_nil _ second.nonempty
  · exact List.not_mem_append (List.not_mem_append first.inline (by decide)) second.inline

theorem isArguments_join (some : parts ≠ []) (each : ∀ part ∈ parts, IsArgument part) :
    IsArguments (join ", " parts) := by
  induction parts with
  | nil => exact absurd rfl some
  | cons part parts ih =>
    rw [List.forall_mem_cons] at each
    cases parts with
    | nil => exact each.1.isArguments
    | cons next parts =>
      rw [join_cons_of_ne_nil (List.cons_ne_nil _ _)]
      exact each.1.isArguments.pair (ih (List.cons_ne_nil _ _) each.2)

theorem isArgument_of_word (nonempty : t ≠ []) (word : ∀ c ∈ t, isWordChar c) : IsArgument t := by
  have others : ('\n' :: splitMarks).all (!isWordChar ·) := by decide
  have apart : ∀ c ∈ t, c ∉ '\n' :: splitMarks := fun c member marked => by
    have other := List.all_eq_true.mp others c marked
    rw [word c member] at other
    cases other
  refine ⟨isPart_of_plain fun c member marked => ?_, nonempty, fun member => ?_⟩
  · exact apart c member (List.mem_cons_of_mem _ marked)
  · exact apart _ member List.mem_cons_self

theorem isArgument_of_isDigits (digits : t.IsDigits) : IsArgument t :=
  isArgument_of_word digits.1 fun c member => isWordChar_of_isDigit (digits.2 c member)

theorem isArgument_of_isIdentifier (identifier : isIdentifier t) : IsArgument t :=
  isArgument_of_word (isIdentifier_ne_nil identifier) fun c member =>
    isWordChar_of_isIdentifierChar (isIdentifierChar_of_mem identifier c member)

end Text

namespace ColumnType

open Text

variable {name inside zone : Text}

theorem isArgument_quoted (label : IsLabel zone) : IsArgument ("'" ++ zone ++ "'") := by
  refine ⟨isPart_quoted fun c member => ?_, by simp, ?_⟩
  · exact ⟨(label.solid c member).1, (label.solid c member).2.1⟩
  · have inline : '\n' ∉ zone := fun member => (label.solid _ member).2.2 rfl
    simp [inline]

theorem isArgument_headed (identifier : isIdentifier name) (arguments : IsArguments inside) :
    IsArgument (headed name inside) := by
  have first := isArgument_of_isIdentifier identifier
  have spelled : headed name inside = name ++ ("(" ++ inside ++ ")") := by simp [headed]
  rw [spelled]
  refine first.append ⟨arguments.enclosed.parenthesized, by simp, ?_⟩
  simp [arguments.inline]

theorem strip_headed (identifier : isIdentifier name) (inside : Text) :
    strip (headed name inside) = headed name inside := by
  obtain ⟨c, t, rfl⟩ := List.exists_cons_of_ne_nil (isIdentifier_ne_nil identifier)
  have solid := isBlank_of_isIdentifierChar
    (isIdentifierChar_of_mem identifier c List.mem_cons_self)
  have last : (headed (c :: t) inside).getLast? = some ')' := List.getLast?_concat
  rw [strip_eq_self_iff_ends, last]
  refine ⟨?_, ?_⟩
  · intro d first
    cases first
    exact solid
  · intro d ends
    cases ends
    decide

end ColumnType

open Text ColumnType

/-- Digits, perhaps behind a minus sign. -/
inductive Text.IsInteger : Text → Prop
  | positive {digits : Text} : digits.IsDigits → IsInteger digits
  | negative {digits : Text} : digits.IsDigits → IsInteger ('-' :: digits)

/-- A member that can be written: its name fits into quotes, its number is an integer. -/
structure EnumMember.IsWritten (m : EnumMember) : Prop where
  name : IsLabel m.name
  number : m.number.IsInteger

/-- Behind a number follows no further digit. -/
def EndsNumber (t : Text) : Prop := ∀ c ∈ t.head?, isDigit c = false

variable {m : EnumMember} {number rest t : Text}

theorem Text.IsInteger.isArgument (integer : number.IsInteger) : IsArgument number := by
  cases integer with
  | positive digits => exact isArgument_of_isDigits digits
  | @negative digits isDigits =>
    have sign : IsArgument "-" :=
      ⟨isPart_of_plain (by simp [splitMarks, backtick]), by decide, by decide⟩
    exact sign.append (isArgument_of_isDigits isDigits)

theorem EnumMember.IsWritten.isArgument (written : m.IsWritten) : IsArgument m.print := by
  have equals : IsArgument " = " :=
    ⟨isPart_of_plain (by simp [splitMarks, backtick]), by decide, by decide⟩
  have spelled : m.print = "'" ++ m.name ++ "'" ++ " = " ++ m.number := by
    simp [EnumMember.print]
  rw [spelled]
  exact ((isArgument_quoted written.name).append equals).append written.number.isArgument

/-- Digits end where something else follows. -/
theorem span_digits (digits : number.IsDigits) (ends : EndsNumber rest) :
    (number ++ rest).takeWhile isDigit = number ∧ (number ++ rest).dropWhile isDigit = rest := by
  cases rest with
  | nil =>
    rw [List.append_nil]
    exact takeWhile_isDigit digits
  | cons c rest =>
    have stop := ends c rfl
    exact ⟨takeWhile_of_stop digits.2 stop, dropWhile_of_stop digits.2 stop⟩

theorem cutSign_of_isDigits (digits : number.IsDigits) (rest : Text) :
    cutSign (number ++ rest) = ([], number ++ rest) := by
  obtain ⟨c, t, rfl⟩ := List.exists_cons_of_ne_nil digits.1
  have other : c ≠ '-' := by
    rintro rfl
    exact absurd (digits.2 _ List.mem_cons_self) (by decide)
  simp [cutSign, other]

theorem integerAt?_append (integer : number.IsInteger) (ends : EndsNumber rest) :
    integerAt? (number ++ rest) = some (number, rest) := by
  cases integer with
  | positive digits =>
    obtain ⟨front, behind⟩ := span_digits digits ends
    rw [integerAt?, cutSign_of_isDigits digits]
    simp only [front, behind, digits?_of_isDigits digits]
    rfl
  | @negative body digits =>
    obtain ⟨front, behind⟩ := span_digits digits ends
    have sign : cutSign ('-' :: body ++ rest) = (['-'], body ++ rest) := rfl
    rw [integerAt?, sign]
    simp only [front, behind, digits?_of_isDigits digits]
    rfl

/-- Blanks in front of an integer go. -/
theorem Text.IsInteger.stripStart (integer : number.IsInteger) (blanks : Text)
    (blank : ∀ c ∈ blanks, isBlank c) (rest : Text) :
    stripStart (blanks ++ (number ++ rest)) = number ++ rest := by
  have solid : ∃ c t, number = c :: t ∧ isBlank c = false := by
    cases integer with
    | positive digits =>
      obtain ⟨c, t, rfl⟩ := List.exists_cons_of_ne_nil digits.1
      exact ⟨c, t, rfl, isBlank_of_isDigit (digits.2 c List.mem_cons_self)⟩
    | negative digits => exact ⟨'-', _, rfl, by decide⟩
  obtain ⟨c, t, rfl, solid⟩ := solid
  exact dropWhile_of_stop blank solid

theorem memberAt?_append (written : m.IsWritten) (ends : EndsNumber rest) :
    memberAt? (m.print ++ rest) = some (m, rest) := by
  have name : '\'' ∉ m.name := fun member => (written.name.solid _ member).1 rfl
  have spelled : m.print ++ rest =
      "'" ++ (m.name ++ '\'' :: (' ' :: '=' :: ' ' :: (m.number ++ rest))) := by
    simp [EnumMember.print]
  have equals : stripStart (' ' :: '=' :: ' ' :: (m.number ++ rest)) =
      "=" ++ ' ' :: (m.number ++ rest) := rfl
  rw [memberAt?, spelled, dropPrefix?_eq_some_iff.mpr rfl]
  have number : stripStart (' ' :: (m.number ++ rest)) = m.number ++ rest :=
    written.number.stripStart [' '] (List.forall_mem_singleton.mpr rfl) rest
  simp only [Option.bind_eq_bind, Option.bind_some, cutAt?_append name, equals,
    dropPrefix?_eq_some_iff.mpr rfl, number, integerAt?_append written.number ends]
  exact if_neg written.name.nonempty

theorem members_of_none {c : Char} (none : memberAt? (c :: t) = none) :
    members (c :: t) = members t := by
  rw [members]
  split
  · rename_i found
    rw [none] at found
    cases found
  · rfl

theorem members_of_some (found : memberAt? t = some (m, rest)) : members t = m :: members rest := by
  rw [members]
  split
  · rename_i found'
    rw [found] at found'
    cases found'
    rfl
  · rename_i none
    rw [found] at none
    cases none

/-- Members with commas between them are the members that are found. -/
theorem members_join {ms : List EnumMember} (each : ∀ m ∈ ms, m.IsWritten) :
    members (join ", " (ms.map EnumMember.print)) = ms := by
  induction ms with
  | nil =>
    rw [List.map_nil, join, members]
    rfl
  | cons m ms ih =>
    rw [List.forall_mem_cons] at each
    cases ms with
    | nil =>
      have found : memberAt? (m.print ++ []) = some (m, []) := 
        memberAt?_append each.1 (by simp [EndsNumber])
      rw [List.append_nil] at found
      rw [List.map_singleton, join, members_of_some found, members]
      rfl
    | cons next ms =>
      have ends : EndsNumber (", " ++ join ", " ((next :: ms).map EnumMember.print)) := by
        rintro c first
        cases first
        decide
      rw [List.map_cons, join_cons_of_ne_nil (by simp), List.append_assoc,
        members_of_some (memberAt?_append each.1 ends)]
      -- Neither the comma nor the blank begins a member.
      have comma := members_of_none (c := ',')
        (t := ' ' :: join ", " ((next :: ms).map EnumMember.print)) rfl
      have blank := members_of_none (c := ' ')
        (t := join ", " ((next :: ms).map EnumMember.print)) rfl
      exact congrArg (m :: ·) ((comma.trans blank).trans (ih each.2))

end DatafileMigration
