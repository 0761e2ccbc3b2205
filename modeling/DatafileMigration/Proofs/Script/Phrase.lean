import DatafileMigration.Module.Identifier
import DatafileMigration.Proofs.Script.Expression
import DatafileMigration.Proofs.Text.Word

namespace DatafileMigration.Script

/-- A reader inside of a bracket that no character closes: line ends are blanks to it. -/
def Reader.inner : Reader := { brackets := [' '] }

/-- The tokens of an expression, if it is read to its end and leaves nothing open. -/
def tokensOf? (t : Text) : Option (List Token) :=
  (Reader.inner.scan (t ++ [' '])).bind fun r =>
    if r.mode = .code && r.brackets = [' '] then some r.line.reverse else none

/-- Arguments with a comma between neighbours. -/
def commas : List (List Token) → List Token
  | [] => []
  | [argument] => argument
  | argument :: next :: arguments => argument ++ .mark ',' :: commas (next :: arguments)

def select (object : List Token) (name : Text) : List Token :=
  object ++ [.mark '.', .word name]

def call (function : List Token) (arguments : List (List Token)) : List Token :=
  function ++ .mark '(' :: commas arguments ++ [.mark ')']

/-- A word that begins with a digit of any script. -/
def Token.number? : Token → Option Text
  | .word w => if w.head?.any Text.isDigit then some w else none
  | _ => none

/-- The numbers among tokens. What stands in a string is none. -/
def numbers (tokens : List Token) : List Text := tokens.filterMap Token.number?

/-- ASCII digits, the first of which is no zero unless all are. -/
def isIntegerLiteral (t : Text) : Bool :=
  t ≠ [] && t.all Char.isDigit && (t.head? ≠ some '0' || t.all (· = '0'))

/-- A word that may stand for something. -/
def isName (w : Text) : Bool := Text.isIdentifier w && !reservedWords.contains w

mutual

/-- A name or a string, with attributes and calls behind it: the part of the grammar of expressions
that column types need. -/
inductive IsPrimary : List Token → Prop
  | name {w} : isName w → IsPrimary [.word w]
  | string (value) : IsPrimary [.string value]
  | select {object name} : IsPrimary object → isName name → IsPrimary (select object name)
  | call {function arguments} : IsPrimary function → (∀ a ∈ arguments, IsOperand a) →
      IsPrimary (call function arguments)

/-- What may be an argument. -/
inductive IsOperand : List Token → Prop
  | primary {tokens} : IsPrimary tokens → IsOperand tokens
  | number {n} : isIntegerLiteral n → IsOperand [.word n]

end

variable {inside : Bool} {t u w : Text} {tokens more : List Token} {n : Text}

/-- What is collected from tokens, one after the other, and not from marks. -/
structure IgnoresMarks (collect : List Token → List Text) : Prop where
  append : ∀ tokens more, collect (tokens ++ more) = collect tokens ++ collect more
  mark : ∀ c, collect [.mark c] = []

namespace IgnoresMarks

variable {collect : List Token → List Text}

theorem nil (ignores : IgnoresMarks collect) : collect [] = [] := by
  have twice := congrArg List.length (ignores.append [] [])
  rw [List.append_nil, List.length_append] at twice
  exact List.eq_nil_of_length_eq_zero (by omega)

theorem cons (ignores : IgnoresMarks collect) (c : Char) (tokens : List Token) :
    collect (.mark c :: tokens) = collect tokens := by
  rw [← List.singleton_append, ignores.append, ignores.mark, List.nil_append]

theorem commas (ignores : IgnoresMarks collect) (arguments : List (List Token)) :
    collect (commas arguments) = arguments.flatMap collect := by
  induction arguments with
  | nil => exact ignores.nil
  | cons argument arguments ih =>
    cases arguments with
    | nil => exact (List.append_nil _).symm
    | cons next arguments =>
      rw [Script.commas, ignores.append, ignores.cons, ih]
      rfl

theorem call (ignores : IgnoresMarks collect) (function : List Token)
    (arguments : List (List Token)) :
    collect (call function arguments) = collect function ++ arguments.flatMap collect := by
  rw [Script.call, ignores.append, ignores.append, ignores.cons, ignores.mark, ignores.commas,
    List.append_nil]

end IgnoresMarks

theorem ignoresMarks_strings : IgnoresMarks strings := ⟨strings_append, fun _ => rfl⟩

theorem ignoresMarks_numbers : IgnoresMarks numbers :=
  ⟨fun _ _ => List.filterMap_append, fun _ => rfl⟩

theorem number?_of_isDigits (digits : n.IsDigits) : (Token.word n).number? = some n := by
  obtain ⟨c, rest, rfl⟩ := List.exists_cons_of_ne_nil digits.1
  exact if_pos (digits.2 c List.mem_cons_self)

theorem numbers_of_isDigits (digits : n.IsDigits) : numbers [.word n] = [n] :=
  List.filterMap_cons_some (number?_of_isDigits digits)

/-- A name does not begin with a digit. -/
theorem number?_of_isName (name : isName w) : (Token.word w).number? = none := by
  rw [isName, Bool.and_eq_true] at name
  cases w with
  | nil => rfl
  | cons c w =>
    have start : Text.isIdentifierStart c := (Bool.and_eq_true_iff.mp name.1).1
    have other : Text.isIdentifierStart c → ¬ Text.isDigit c :=
      Text.of_isIdentifierChar (p := fun c => Text.isIdentifierStart c → ¬ Text.isDigit c)
        (by decide +kernel) (Text.isIdentifierChar_of_start start)
    exact if_neg (other start)

theorem numbers_select (object : List Token) (name : isName w) :
    numbers (select object w) = numbers object := by
  have named : numbers [.word w] = [] := List.filterMap_cons_none (number?_of_isName name)
  rw [select, ignoresMarks_numbers.append, ignoresMarks_numbers.cons, named, List.append_nil]

mutual

/-- In an expression all numbers are numbers of the language. -/
theorem IsPrimary.isIntegerLiteral : {tokens : List Token} → IsPrimary tokens →
    ∀ n ∈ numbers tokens, isIntegerLiteral n
  | _, .name name => by
    rw [numbers, List.filterMap_cons_none (number?_of_isName name)]
    exact nofun
  | _, .string _ => nofun
  | _, .select object name => by
    rw [numbers_select _ name]
    exact object.isIntegerLiteral
  | _, .call function arguments => by
    rw [ignoresMarks_numbers.call, List.forall_mem_append, List.forall_mem_flatMap]
    exact ⟨function.isIntegerLiteral, fun a member => (arguments a member).isIntegerLiteral⟩

theorem IsOperand.isIntegerLiteral : {tokens : List Token} → IsOperand tokens →
    ∀ n ∈ numbers tokens, Script.isIntegerLiteral n
  | _, .primary primary => primary.isIntegerLiteral
  | _, .number (n := w) literal => by
    intro n member
    obtain ⟨token, here, number⟩ := List.mem_filterMap.mp member
    rw [List.mem_singleton.mp here, Token.number?] at number
    split at number
    · cases number
      exact literal
    · cases number

end

section Holds

variable {free : Token → Prop} {texts others : List Text} {arguments : List (List Token)}

theorem Holds.select (object : Holds free tokens texts) (fixed : (Token.word w).isFixed) :
    Holds free (select tokens w) texts := by
  have name : Holds free [.mark '.', .word w] [] :=
    (Holds.singleton (Or.inl (by decide))).append (.singleton (Or.inl fixed))
  exact List.append_nil texts ▸ object.append name

theorem Holds.call (function : Holds free tokens texts)
    (holds : Holds free (commas arguments) others) :
    Holds free (call tokens arguments) (texts ++ others) := by
  have mark (c : Char) (fixed : (Token.mark c).isFixed) : Holds free [.mark c] [] :=
    .singleton (Or.inl fixed)
  have inner := (mark '(' (by decide)).append (holds.append (mark ')' (by decide)))
  rw [List.append_nil, List.nil_append] at inner
  rw [Script.call, List.append_assoc]
  exact function.append inner

end Holds

/-- Texts that are read as tokens, one by one. -/
abbrev SpellsAll (inside : Bool) : List Text → List (List Token) → Prop :=
  List.Forall₂ (Spells inside)

theorem Reader.line_push_inner (tokens : List Token) :
    (Reader.inner.push tokens).line.reverse = tokens := by
  rw [Reader.push, Reader.inner, List.append_nil, List.reverse_reverse]

theorem Spells.scan_inner (spells : Spells true t tokens) :
    Reader.inner.scan (t ++ [' ']) = some (Reader.inner.push tokens) := by
  have ready : Reader.inner.Ready true := ⟨rfl, fun _ => List.cons_ne_nil _ _⟩
  have step : (Reader.inner.push tokens).next ' ' = some (Reader.inner.push tokens) :=
    (Reader.next_of_code rfl).trans rfl
  rw [spells _ ready _ _ (by decide), Reader.scan_cons_of_next step]
  rfl

theorem Spells.tokensOf? (spells : Spells true t tokens) : tokensOf? t = some tokens := by
  rw [Script.tokensOf?, spells.scan_inner]
  exact congrArg some (Reader.line_push_inner tokens)

/-- A mark that separates what stands before and behind it. -/
theorem Spells.separated {c : Char} (listed : c ∈ ['.', ',', ':', '='])
    (spells : Spells inside t tokens) : Spells inside (c :: t) (.mark c :: tokens) := by
  have begins : Begins [c] [.mark c] [] := by
    simp only [List.mem_cons, List.not_mem_nil, or_false] at listed
    rcases listed with rfl | rfl | rfl | rfl <;> exact .of_scan [] (by decide) rfl
  exact spells.behind begins

theorem SpellsAll.join {items : List Text} {arguments : List (List Token)}
    (all : SpellsAll inside items arguments) :
    Spells inside (Text.join ", " items) (commas arguments) := by
  induction all with
  | nil => exact .nil
  | @cons t tokens items arguments spells rest ih =>
    cases rest with
    | nil => exact spells
    | @cons u more items arguments next rest =>
      have joined := spells.append (c := ',') (by decide) (ih.blank.separated (by decide))
      rw [Text.join, List.append_assoc]
      exact joined

theorem Spells.select (object : Spells inside t tokens) (some : w ≠ [])
    (chars : ∀ d ∈ w, Text.isWordChar d) :
    Spells inside (t ++ "." ++ w) (select tokens w) := by
  have joined := object.append (c := '.') (by decide)
    ((Spells.word some chars).separated (by decide))
  rw [List.append_assoc]
  exact joined

theorem Spells.call {items : List Text} {arguments : List (List Token)}
    (function : Spells inside t tokens) (all : SpellsAll true items arguments) :
    Spells inside (t ++ "(" ++ Text.join ", " items ++ ")") (call tokens arguments) := by
  have opens : Begins ['('] [.mark '('] [')'] := .of_scan [] (by decide) rfl
  have joined := function.append (c := '(') (by decide) (all.join.enclose opens (by decide))
  rw [Script.call, List.append_assoc, List.append_assoc, List.append_assoc]
  exact joined

end DatafileMigration.Script
