import Mathlib.Data.List.TakeWhile
import Mathlib.Data.Nat.Digits.Defs
import DatafileMigration.Proofs.Text.Strip
import DatafileMigration.Proofs.Text.TopLevel
import DatafileMigration.Text.Digit
import DatafileMigration.Text.Letter

namespace DatafileMigration.Text

section Span

variable {α : Type} {p : α → Bool} {front rest : List α} {stop : α}

theorem takeWhile_of_stop (all : ∀ a ∈ front, p a) (stops : p stop = false) :
    (front ++ stop :: rest).takeWhile p = front := by
  rw [List.takeWhile_append_of_pos all, List.takeWhile_cons_of_neg (by rw [stops]; decide),
    List.append_nil]

theorem dropWhile_of_stop (all : ∀ a ∈ front, p a) (stops : p stop = false) :
    (front ++ stop :: rest).dropWhile p = stop :: rest := by
  rw [List.dropWhile_append_of_pos all, List.dropWhile_cons_of_neg (by rw [stops]; decide)]

end Span

theorem cutAt?_of_not_mem {mark : Char} {t : Text} (absent : mark ∉ t) : cutAt? mark t = none := by
  induction t with
  | nil => rfl
  | cons c t ih =>
    rw [List.mem_cons, not_or] at absent
    rw [cutAt?, if_neg (Ne.symm absent.1), ih absent.2]
    rfl

theorem cutAt?_append {mark : Char} {before : Text} (absent : mark ∉ before) (after : Text) :
    cutAt? mark (before ++ mark :: after) = some (before, after) := by
  induction before with
  | nil => exact if_pos rfl
  | cons c before ih =>
    rw [List.mem_cons, not_or] at absent
    rw [List.cons_append, cutAt?, if_neg (Ne.symm absent.1), ih absent.2]
    rfl

variable {c : Char} {t : Text}

theorem toNat_lt_of_isAlpha (alpha : c.isAlpha) : c.toNat < 128 := by
  have cases : (c.isUpper || c.isLower) = true := alpha
  have value : c.toNat = c.val.toNat := rfl
  rcases Bool.or_eq_true_iff.mp cases with upper | lower
  · have bounds : decide (c.val ≥ 'A'.val ∧ c.val ≤ 'Z'.val) = true := upper
    have top : c.val.toNat ≤ 'Z'.val.toNat := (of_decide_eq_true bounds).2
    have ninety : 'Z'.val.toNat = 90 := rfl
    omega
  · have bounds : (decide (c.val ≥ 'a'.val) && decide (c.val ≤ 'z'.val)) = true := lower
    have top : c.val.toNat ≤ 'z'.val.toNat :=
      of_decide_eq_true (Bool.and_eq_true_iff.mp bounds).2
    have last : 'z'.val.toNat = 122 := rfl
    omega

theorem toNat_lt_of_isIdentifierChar (valid : isIdentifierChar c) : c.toNat < 128 := by
  rw [isIdentifierChar, Bool.or_eq_true] at valid
  rcases valid with alphanumeric | underscore
  · have cases : (c.isAlpha || c.isDigit) = true := alphanumeric
    rcases Bool.or_eq_true_iff.mp cases with alpha | digit
    · exact toNat_lt_of_isAlpha alpha
    · exact (Char.isDigit_iff_toNat.mp digit).2.trans_lt (by decide)
  · rw [of_decide_eq_true underscore]
    decide

/-- What holds of the characters of all ASCII codes holds of every ASCII character. -/
theorem of_ascii {p : Char → Prop} (codes : ∀ n < 128, p (Char.ofNat n)) (ascii : c.toNat < 128) :
    p c := by
  have known := codes c.toNat ascii
  rwa [Char.ofNat_toNat] at known

theorem of_isIdentifierChar {p : Char → Prop}
    (codes : ∀ n < 128, isIdentifierChar (Char.ofNat n) → p (Char.ofNat n))
    (valid : isIdentifierChar c) : p c :=
  of_ascii (p := fun c => isIdentifierChar c → p c) codes (toNat_lt_of_isIdentifierChar valid) valid

theorem isBlank_of_isIdentifierChar (valid : isIdentifierChar c) : isBlank c = false :=
  of_isIdentifierChar (p := fun c => isBlank c = false) (by decide +kernel) valid

theorem isIdentifierChar_of_isBlank (blank : isBlank c) : isIdentifierChar c = false := by
  refine Bool.eq_false_iff.mpr fun valid => ?_
  rw [isBlank_of_isIdentifierChar valid] at blank
  cases blank

theorem not_mem_splitMarks_of_isIdentifierChar (valid : isIdentifierChar c) : c ∉ splitMarks :=
  of_isIdentifierChar (p := (· ∉ splitMarks)) (by decide +kernel) valid

theorem ne_of_isIdentifierChar {d : Char} (valid : isIdentifierChar c)
    (other : isIdentifierChar d = false) : c ≠ d := by
  rintro rfl
  rw [valid] at other
  cases other

theorem isIdentifier_ne_nil (identifier : isIdentifier t) : t ≠ [] := by
  rintro rfl
  cases identifier

theorem isIdentifierChar_of_mem (identifier : isIdentifier t) : ∀ c ∈ t, isIdentifierChar c := by
  cases t with
  | nil => cases identifier
  | cons c t =>
    rw [isIdentifier, Bool.and_eq_true, List.all_eq_true] at identifier
    exact List.forall_mem_cons.mpr ⟨isIdentifierChar_of_start identifier.1, identifier.2⟩

theorem strip_of_isIdentifier (identifier : isIdentifier t) : strip t = t :=
  strip_of_solid fun c member =>
    isBlank_of_isIdentifierChar (isIdentifierChar_of_mem identifier c member)

/-- An identifier among arguments is an argument of its own. -/
theorem splitTopLevel_of_isIdentifier (identifier : isIdentifier t) : splitTopLevel t = [t] := by
  have free : ',' ∉ t := fun member =>
    absurd (isIdentifierChar_of_mem identifier ',' member) (by decide)
  rw [splitTopLevel, SplitState.pieces_of_no_comma free, List.map_singleton,
    strip_of_isIdentifier identifier]
  exact List.filter_cons_of_pos (decide_eq_true (isIdentifier_ne_nil identifier))

theorem isWordChar_of_isIdentifierChar (valid : isIdentifierChar c) : isWordChar c := by
  rw [isWordChar, if_pos (toNat_lt_of_isIdentifierChar valid)]
  exact valid

/-- A digit is one of ten behind a zero of some script. -/
theorem toNat_of_isDigit (digit : isDigit c) :
    ∃ low ∈ 48 :: digitZeros, low ≤ c.toNat ∧ c.toNat ≤ low + 9 := by
  rw [isDigit, digitValue?] at digit
  split at digit
  · rename_i ascii
    exact ⟨48, List.mem_cons_self, Char.isDigit_iff_toNat.mp ascii⟩
  split at digit
  · cases digit
  · rw [Option.isSome_map, List.find?_isSome] at digit
    obtain ⟨low, listed, found⟩ := digit
    rw [Bool.and_eq_true, decide_eq_true_eq, decide_eq_true_eq] at found
    exact ⟨low, List.mem_cons_of_mem _ listed, found⟩

theorem isWordChar_of_isDigit {c : Char} (digit : isDigit c) : isWordChar c := by
  have covered : digitZeros.all fun low => decide (128 ≤ low) &&
      numeralRanges.any fun range => range.1 ≤ low && low + 9 ≤ range.2 := by
    decide +kernel
  obtain ⟨low, listed, start, finish⟩ := toNat_of_isDigit digit
  rcases List.mem_cons.mp listed with rfl | listed
  · have ascii : c.isDigit := Char.isDigit_iff_toNat.mpr ⟨start, finish⟩
    rw [isWordChar, if_pos (by omega), Char.isAlphanum, ascii, Bool.or_true, Bool.true_or]
  · have here := List.all_eq_true.mp covered low listed
    rw [Bool.and_eq_true, decide_eq_true_eq, List.any_eq_true] at here
    obtain ⟨high, range, member, within⟩ := here
    rw [Bool.and_eq_true, decide_eq_true_eq, decide_eq_true_eq] at within
    have inside : inRanges numeralRanges c.toNat := by
      refine List.any_eq_true.mpr ⟨range, member, ?_⟩
      rw [Bool.and_eq_true, decide_eq_true_eq, decide_eq_true_eq]
      omega
    rw [isWordChar, if_neg (by omega), inside, Bool.or_true]

theorem isBlank_of_isDigit (digit : isDigit c) : isBlank c = false := by
  have apart : (48 :: digitZeros).all fun low => blankRanges.all fun range =>
      range.2 < low || low + 9 < range.1 := by
    decide +kernel
  obtain ⟨low, listed, start, finish⟩ := toNat_of_isDigit digit
  refine Bool.eq_false_iff.mpr fun blank => ?_
  obtain ⟨range, member, inside⟩ := List.any_eq_true.mp blank
  rw [Bool.and_eq_true, decide_eq_true_eq, decide_eq_true_eq] at inside
  have beside := List.all_eq_true.mp (List.all_eq_true.mp apart low listed) range member
  rw [Bool.or_eq_true, decide_eq_true_eq, decide_eq_true_eq] at beside
  omega

/-- Digits of any script, at least one. -/
def IsDigits (t : Text) : Prop := t ≠ [] ∧ ∀ c ∈ t, isDigit c

theorem ofNat_ne_nil (n : Nat) : ofNat n ≠ [] := Nat.toDigits_ne_nil

theorem isDigit_of_mem_ofNat {n : Nat} {c : Char} (member : c ∈ ofNat n) : c.isDigit :=
  Nat.isDigit_of_mem_toDigits (Nat.succ_pos 9) le_rfl member

theorem ofNat_injective : Function.Injective ofNat := by
  intro m n equal
  have values := congrArg (fun t => Nat.ofDigitChars 10 t 0) equal
  simpa only [ofNat, Nat.ofDigitChars_ten_toDigits] using values

end DatafileMigration.Text
