import DatafileMigration.Query.OutputColumns
import DatafileMigration.Proofs.Text.Word

namespace DatafileMigration

namespace Text

theorem isLetter_or_underscore_of_start {c : Char} (start : isIdentifierStart c) :
    isLetter c ∨ c = '_' := by
  simp only [isIdentifierStart, Bool.or_eq_true, decide_eq_true_eq] at start
  rcases start with alpha | underscore
  · left
    rw [isLetter, if_pos (toNat_lt_of_isAlpha alpha)]
    exact alpha
  · exact Or.inr underscore

end Text

namespace Query

/-- The search for words of a text, begun below `depth` parentheses, comes to a letter that can
begin no word. What is skipped and what stands below parentheses is passed over. -/
inductive StrayLetter : Int → Text → Prop
  | here {c rest} : skipAt? (c :: rest) = none → Text.isLetter c → ¬ Text.isIdentifierStart c →
      StrayLetter 0 (c :: rest)
  | skip {depth t rest} : skipAt? t = some rest → StrayLetter depth rest → StrayLetter depth t
  | opening {depth rest} : StrayLetter (depth + 1) rest → StrayLetter depth ('(' :: rest)
  | closing {depth rest} : StrayLetter (depth - 1) rest → StrayLetter depth (')' :: rest)
  | word {c rest} : skipAt? (c :: rest) = none → Text.isIdentifierStart c →
      StrayLetter 0 (rest.dropWhile Text.isIdentifierChar) → StrayLetter 0 (c :: rest)
  | other {depth c rest} : skipAt? (c :: rest) = none → c ≠ '(' → c ≠ ')' →
      ¬ (depth = 0 ∧ (Text.isLetter c ∨ c = '_')) → StrayLetter depth rest →
      StrayLetter depth (c :: rest)

theorem skipAt?_opening (rest : Text) : skipAt? ('(' :: rest) = none := by
  simp [skipAt?, Text.startsWith, Text.dropPrefix?]

theorem skipAt?_closing (rest : Text) : skipAt? (')' :: rest) = none := by
  simp [skipAt?, Text.startsWith, Text.dropPrefix?]

theorem not_strayLetter_nil {depth : Int} : ¬ StrayLetter depth [] := by
  rintro (_ | skipped)
  cases skipped

theorem strayLetter_skip {depth : Int} {t rest : Text} (skipped : skipAt? t = some rest) :
    StrayLetter depth t ↔ StrayLetter depth rest := by
  constructor
  · intro stray
    cases stray with
    | skip other stray =>
      cases skipped.symm.trans other
      exact stray
    | here none => exact absurd (none.symm.trans skipped) nofun
    | word none => exact absurd (none.symm.trans skipped) nofun
    | other none => exact absurd (none.symm.trans skipped) nofun
    | opening => exact absurd ((skipAt?_opening _).symm.trans skipped) nofun
    | closing => exact absurd ((skipAt?_closing _).symm.trans skipped) nofun
  · exact .skip skipped

theorem strayLetter_opening {depth : Int} {rest : Text} :
    StrayLetter depth ('(' :: rest) ↔ StrayLetter (depth + 1) rest := by
  constructor
  · intro stray
    cases stray with
    | opening stray => exact stray
    | skip skipped => exact absurd ((skipAt?_opening _).symm.trans skipped) nofun
    | here _ letter => exact absurd letter (by decide)
    | word _ start => exact absurd start (by decide)
    | other _ noOpening => exact absurd rfl noOpening
  · exact .opening

theorem strayLetter_closing {depth : Int} {rest : Text} :
    StrayLetter depth (')' :: rest) ↔ StrayLetter (depth - 1) rest := by
  constructor
  · intro stray
    cases stray with
    | closing stray => exact stray
    | skip skipped => exact absurd ((skipAt?_closing _).symm.trans skipped) nofun
    | here _ letter => exact absurd letter (by decide)
    | word _ start => exact absurd start (by decide)
    | other _ _ noClosing => exact absurd rfl noClosing
  · exact .closing

/-- At the top level a character that begins a word is passed over with its whole word. -/
theorem strayLetter_word {c : Char} {rest : Text} (none : skipAt? (c :: rest) = none)
    (letter : Text.isLetter c ∨ c = '_') (start : Text.isIdentifierStart c) :
    StrayLetter 0 (c :: rest) ↔ StrayLetter 0 (rest.dropWhile Text.isIdentifierChar) := by
  constructor
  · intro stray
    cases stray with
    | word _ _ stray => exact stray
    | skip skipped => exact absurd (none.symm.trans skipped) nofun
    | here _ _ noStart => exact absurd start noStart
    | other _ _ _ passed => exact absurd ⟨rfl, letter⟩ passed
    | opening => exact absurd start (by decide)
    | closing => exact absurd start (by decide)
  · exact .word none start

theorem strayLetter_other {depth : Int} {c : Char} {rest : Text} (none : skipAt? (c :: rest) = none)
    (noOpening : c ≠ '(') (noClosing : c ≠ ')')
    (passed : ¬ (depth = 0 ∧ (Text.isLetter c ∨ c = '_'))) :
    StrayLetter depth (c :: rest) ↔ StrayLetter depth rest := by
  constructor
  · intro stray
    cases stray with
    | other _ _ _ _ stray => exact stray
    | skip skipped => exact absurd (none.symm.trans skipped) nofun
    | here _ letter => exact absurd ⟨rfl, Or.inl letter⟩ passed
    | word _ start => exact absurd ⟨rfl, Text.isLetter_or_underscore_of_start start⟩ passed
    | opening => exact absurd rfl noOpening
    | closing => exact absurd rfl noClosing
  · exact .other none noOpening noClosing passed

theorem keywordsFrom_breaks {depth : Int} {index : Nat} {t : Text} :
    (∃ why, keywordsFrom depth index t = .error why) ↔ StrayLetter depth t := by
  fun_induction keywordsFrom depth index t with
  | case1 depth index t rest skipped ih => rw [ih, strayLetter_skip skipped]
  | case2 depth index => simp [not_strayLetter_nil]
  | case3 depth index rest none ih => rw [ih, strayLetter_opening]
  | case4 depth index rest none _ ih => rw [ih, strayLetter_closing]
  | case5 depth index c rest none noOpening noClosing atWord start word finish ih =>
    simp only [Bool.and_eq_true, Bool.or_eq_true, decide_eq_true_eq] at atWord
    obtain ⟨rfl, letter⟩ := atWord
    rw [strayLetter_word none letter start, ← ih]
    cases keywordsFrom 0 finish (rest.dropWhile Text.isIdentifierChar) <;> simp [Except.map]
  | case6 depth index c rest none noOpening noClosing atWord noStart =>
    simp only [Bool.and_eq_true, Bool.or_eq_true, decide_eq_true_eq] at atWord
    obtain ⟨rfl, letter | underscore⟩ := atWord
    · exact ⟨fun _ => .here none letter noStart, fun _ => ⟨_, rfl⟩⟩
    · exact absurd (by rw [underscore]; decide) noStart
  | case7 depth index c rest none noOpening noClosing passed ih =>
    simp only [Bool.and_eq_true, Bool.or_eq_true, decide_eq_true_eq] at passed
    rw [ih, strayLetter_other none noOpening noClosing passed]

/-- The output columns of a query are not found exactly if the search for words comes to a letter
that can begin none. -/
theorem outputColumns_breaks {sql : Text} :
    (∃ why, outputColumns sql = .error why) ↔ StrayLetter 0 sql := by
  rw [← @keywordsFrom_breaks 0 0 sql, outputColumns, selectList?, keywords]
  cases keywordsFrom 0 0 sql <;> simp [Except.map]

end Query

end DatafileMigration
