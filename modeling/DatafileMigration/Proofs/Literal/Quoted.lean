import DatafileMigration.Column.Default
import DatafileMigration.Grammar.Datasource
import DatafileMigration.Proofs.Fault.Yields
import DatafileMigration.Proofs.Number.LongInteger
import DatafileMigration.Template.Parameter

namespace DatafileMigration

open Datafile

variable {q c : Char} {t x inside : Text}

namespace Text

/-- A text between two equal quotes. -/
def enclosed (q : Char) (inside : Text) : Text := q :: (inside ++ [q])

/-- Somewhere the quote stands with no backslash directly in front of it. -/
def ShowsQuote (q : Char) (inside : Text) : Prop :=
  ∃ before after, inside = before ++ q :: after ∧ before.getLast? ≠ some '\\'

/-- One literal: between its ends the quote is escaped wherever it stands. -/
def IsLiteral (q : Char) (t : Text) : Prop :=
  ∃ inside, t = enclosed q inside ∧ ¬ ShowsQuote q inside

theorem isLiteral_enclosed_iff : IsLiteral q (enclosed q inside) ↔ ¬ ShowsQuote q inside := by
  constructor
  · rintro ⟨other, same, single⟩
    have equal : inside = other := List.append_cancel_right (List.cons.inj same).2
    rwa [equal]
  · intro single
    exact ⟨inside, rfl, single⟩

theorem insideQuotes?_eq_some_iff : insideQuotes? q t = some inside ↔ t = enclosed q inside := by
  cases t with
  | nil => simp [insideQuotes?, enclosed]
  | cons c t =>
    rw [insideQuotes?, enclosed, List.cons.injEq]
    split
    · rename_i opened
      rw [dropSuffix?_eq_some_iff, and_iff_right opened]
    · rename_i other
      simp [other]

end Text

theorem Template.quotedInside?_eq_some_iff :
    Template.quotedInside? t = some inside ↔
      ∃ q, (q = '\'' ∨ q = '"') ∧ t = Text.enclosed q inside := by
  cases t with
  | nil => simp [quotedInside?, Text.enclosed]
  | cons c t =>
    simp only [quotedInside?, Text.enclosed, List.cons.injEq, Bool.or_eq_true, decide_eq_true_eq]
    split
    · rename_i isQuote
      rw [Text.dropSuffix?_eq_some_iff]
      constructor
      · rintro rfl
        exact ⟨c, isQuote, rfl, rfl⟩
      · rintro ⟨q, _, rfl, closed⟩
        exact closed
    · rename_i other
      refine iff_of_false (by simp) ?_
      rintro ⟨q, isQuote, rfl, _⟩
      exact other isQuote

namespace PlainNumber

theorem digits?_of_not_digit (other : Text.digitValue? c = none) : digits? (c :: t) = none := by
  simp [digits?, List.mapM_cons, other]

/-- A plain number starts with a digit or a minus sign. -/
theorem ofText?_of_not_digit (other : Text.digitValue? c = none) (sign : c ≠ '-')
    (point : c ≠ '.') : ofText? (c :: t) = none := by
  rw [ofText?_unsigned fun body signed => sign (List.cons.inj signed).1, ofBody, Text.cutAt?,
    if_neg point]
  cases Text.cutAt? '.' t <;> simp [digits?_of_not_digit other]

theorem ofText?_enclosed (isQuote : q = '\'' ∨ q = '"') :
    ofText? (Text.enclosed q inside) = none := by
  rcases isQuote with rfl | rfl <;> exact ofText?_of_not_digit (by decide) (by decide) (by decide)

theorem value_ne_text {ε : Type} {f : Breakdown → ε} {n : PlainNumber} :
    n.value.mapError f ≠ .ok (.text x) := by
  unfold value
  split
  · split <;> simp [Except.mapError]
  · simp [Except.mapError]

end PlainNumber

/-- What starts with a bracket or a brace is a list or a dictionary. -/
theorem Literal.ofJson?_ne_text (opened : c = '[' ∨ c = '\x7b') :
    Literal.ofJson? (c :: t) ≠ some (.text x) := by
  have start : skipBlanks (c :: t) = c :: t := by
    rcases opened with rfl | rfl <;> exact List.dropWhile_cons_of_neg (by decide)
  have value {fuel : Nat} {after : Text} : readValue fuel (c :: t) ≠ some (.text x, after) := by
    cases fuel with
    | zero => simp [readValue]
    | succ fuel =>
      rcases opened with rfl | rfl
      · rw [readValue]
        split <;> simp
      · rw [readValue]
        split <;> simp
  intro read
  rw [ofJson?, start] at read
  split at read
  · rename_i found
    split at read
    · cases read
      exact value found
    · cases read
  · cases read

theorem Literal.ofJson?_ne_text_of_between
    (between : (Text.between? "\x7b" "\x7d" t).isSome ∨ (Text.between? "[" "]" t).isSome) :
    Literal.ofJson? t ≠ some (.text x) := by
  rcases between with braces | brackets
  · obtain ⟨inside, found⟩ := Option.isSome_iff_exists.mp braces
    rw [Text.between?_eq_some_iff.mp found]
    exact ofJson?_ne_text (Or.inr rfl)
  · obtain ⟨inside, found⟩ := Option.isSome_iff_exists.mp brackets
    rw [Text.between?_eq_some_iff.mp found]
    exact ofJson?_ne_text (Or.inl rfl)

/-- Two single quotes at the ends make a default of a column a text. -/
theorem readLiteral_eq_text_iff :
    readLiteral t = .ok (.text x) ↔
      ∃ inside, Text.strip t = Text.enclosed '\'' inside ∧ x = Text.unescapeQuotes inside := by
  unfold readLiteral
  constructor
  · intro read
    by_cases null : Text.strip t = "NULL"
    · rw [if_pos null] at read
      cases read
    rw [if_neg null] at read
    split at read
    · obtain ⟨_, given, same⟩ := map_eq_ok.mp read
      cases same
      exact absurd given PlainNumber.value_ne_text
    split at read
    · rename_i inside quoted
      cases read
      exact ⟨inside, Text.insideQuotes?_eq_some_iff.mp quoted, rfl⟩
    split at read
    · rename_i between
      split at read
      · rename_i value found
        cases read
        exact absurd found (Literal.ofJson?_ne_text_of_between (by simpa using between))
      · cases read
    · cases read
  · rintro ⟨inside, same, rfl⟩
    rw [same, if_neg (by simp [Text.enclosed]), PlainNumber.ofText?_enclosed (Or.inl rfl),
      Text.insideQuotes?_eq_some_iff.mpr rfl]

/-- Two quotes of either kind make a default of a parameter a text, which keeps its backslashes. -/
theorem Template.readDefault_eq_text_iff :
    Template.readDefault t = .ok (.text x) ↔
      ∃ q, (q = '\'' ∨ q = '"') ∧ Text.strip t = Text.enclosed q x := by
  simp only [readDefault]
  constructor
  · intro read
    split at read
    · exact absurd read PlainNumber.value_ne_text
    split at read
    · cases read
    split at read
    · cases read
    split at read
    · rename_i inside quoted
      cases read
      exact quotedInside?_eq_some_iff.mp quoted
    · cases read
  · rintro ⟨q, isQuote, same⟩
    have noWord (word : Text) (plain : word.head? = some 't' ∨ word.head? = some 'f') :
        Text.lower (Text.enclosed q x) ≠ word := by
      intro equal
      have head : (Text.lower (Text.enclosed q x)).head? = some q := by
        rcases isQuote with rfl | rfl <;> rfl
      rw [equal] at head
      rcases isQuote with rfl | rfl <;> rcases plain with first | first <;>
        simp [first] at head
    simp only [same, PlainNumber.ofText?_enclosed isQuote,
      if_neg (noWord "true" (Or.inl rfl)), if_neg (noWord "false" (Or.inr rfl)),
      quotedInside?_eq_some_iff.mpr ⟨q, isQuote, rfl⟩]

/-- Two single quotes at the ends make the value of a setting a text. -/
theorem Grammar.readSettingValue_eq_text_iff :
    Grammar.readSettingValue t = .ok (.text x) ↔
      ∃ inside, t = Text.enclosed '\'' inside ∧ x = Text.unescapeQuotes inside := by
  unfold readSettingValue
  constructor
  · intro read
    split at read
    · rename_i inside quoted
      cases read
      exact ⟨inside, Text.insideQuotes?_eq_some_iff.mp quoted, rfl⟩
    split at read
    · exact absurd read PlainNumber.value_ne_text
    split at read
    · cases read
    split at read
    · cases read
    · cases read
  · rintro ⟨inside, rfl, rfl⟩
    rw [Text.insideQuotes?_eq_some_iff.mpr rfl]

/-- A text is read by its two ends. Where the quote shows between them it is no literal, and is read
all the same. -/
theorem text_is_read_by_its_ends (t x : Text) :
    (readLiteral t = .ok (.text x) ↔
      ∃ inside, Text.strip t = Text.enclosed '\'' inside ∧ x = Text.unescapeQuotes inside) ∧
    (Template.readDefault t = .ok (.text x) ↔
      ∃ q, (q = '\'' ∨ q = '"') ∧ Text.strip t = Text.enclosed q x) ∧
    (Grammar.readSettingValue t = .ok (.text x) ↔
      ∃ inside, t = Text.enclosed '\'' inside ∧ x = Text.unescapeQuotes inside) ∧
    ∀ q inside, Text.IsLiteral q (Text.enclosed q inside) ↔ ¬ Text.ShowsQuote q inside :=
  ⟨readLiteral_eq_text_iff, Template.readDefault_eq_text_iff, Grammar.readSettingValue_eq_text_iff,
    fun _ _ => Text.isLiteral_enclosed_iff⟩

/-- The concatenation of two literals is read as one text by each of the readers. -/
theorem concatenation_is_read_as_text :
    ¬ Text.IsLiteral '\'' "'a' || 'b'" ∧ readLiteral "'a' || 'b'" = .ok (.text "a' || 'b") ∧
      Template.readDefault "'a' || 'b'" = .ok (.text "a' || 'b") ∧
      Grammar.readSettingValue "'a' || 'b'" = .ok (.text "a' || 'b") := by
  have stripped : Text.strip "'a' || 'b'" = Text.enclosed '\'' "a' || 'b" := by decide +kernel
  have shown : Text.ShowsQuote '\'' "a' || 'b" := ⟨"a", " || 'b", rfl, by decide⟩
  have compound : ¬ Text.IsLiteral '\'' (Text.enclosed '\'' "a' || 'b") :=
    fun single => Text.isLiteral_enclosed_iff.mp single shown
  refine ⟨compound, ?_, ?_, ?_⟩
  · exact readLiteral_eq_text_iff.mpr ⟨_, stripped, rfl⟩
  · exact Template.readDefault_eq_text_iff.mpr ⟨'\'', Or.inl rfl, stripped⟩
  · exact Grammar.readSettingValue_eq_text_iff.mpr ⟨"a' || 'b", rfl, rfl⟩

end DatafileMigration
