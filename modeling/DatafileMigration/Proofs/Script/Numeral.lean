import Mathlib.Data.List.TakeWhile
import DatafileMigration.Number.Shortest
import DatafileMigration.Proofs.Script.Expression
import DatafileMigration.Proofs.Text.Word

namespace DatafileMigration

namespace Text

variable {s t : Text}

theorem isDigits_ofNat (n : Nat) : IsDigits (ofNat n) :=
  ⟨ofNat_ne_nil n, fun _ member => isDigit_of_ascii (isDigit_of_mem_ofNat member)⟩

theorem isDigits_append (first : IsDigits s) (second : ∀ c ∈ t, isDigit c) : IsDigits (s ++ t) :=
  ⟨List.append_ne_nil_of_left_ne_nil first.1 t, List.forall_mem_append.mpr ⟨first.2, second⟩⟩

theorem isDigits_of_sublist (some : s ≠ []) (sub : s.Sublist t) (digits : IsDigits t) :
    IsDigits s :=
  ⟨some, fun c member => digits.2 c (sub.subset member)⟩

/-- A number with nothing but zeros is zero. -/
theorem eq_zero_of_ofNat {n : Nat} (zeros : ∀ c ∈ ofNat n, c = '0') : n = 0 := by
  have value : ∀ t : Text, (∀ c ∈ t, c = '0') → Nat.ofDigitChars 10 t 0 = 0 := by
    intro t
    induction t with
    | nil => exact fun _ => rfl
    | cons c t ih =>
      intro zeros
      obtain ⟨rfl, rest⟩ := List.forall_mem_cons.mp zeros
      exact ih rest
  exact Nat.ofDigitChars_ten_toDigits.symm.trans (value _ zeros)

end Text

namespace Binary64

variable {mantissa : Nat} {exponent : Int}

/-- Zero is none of the reals around another number. -/
theorem ne_zero_of_readsBack {c : Nat} {s : Int} (some : mantissa ≠ 0)
    (reads : readsBack mantissa exponent c s) : c ≠ 0 := by
  rintro rfl
  have quarter : 0 < Nat.pow 2 (exponent - 2).toNat * Nat.pow 10 (-s).toNat :=
    Nat.mul_pos (Nat.pow_pos (by decide)) (Nat.pow_pos (by decide))
  have low : 0 < (4 * mantissa - if mantissa = mantissaBound / 2 && exponent > leastExponent then 1
      else 2) * (Nat.pow 2 (exponent - 2).toNat * Nat.pow 10 (-s).toNat) := by
    refine Nat.mul_pos ?_ quarter
    split <;> omega
  simp only [readsBack, Nat.zero_mul] at reads
  split at reads
  · rw [Bool.and_eq_true, decide_eq_true_eq] at reads
    omega
  · rw [Bool.and_eq_true, decide_eq_true_eq] at reads
    omega

theorem roundHalfEven_cases (num den : Nat) :
    roundHalfEven num den = num / den ∨ roundHalfEven num den = num / den + 1 := by
  simp only [roundHalfEven]
  split
  · exact Or.inl rfl
  split
  · exact Or.inr rfl
  · omega

theorem ne_zero_of_onGrid? {c : Nat} {s : Int} (some : mantissa ≠ 0)
    (found : onGrid? mantissa exponent s = .some c) : c ≠ 0 := by
  simp only [onGrid?] at found
  split at found
  · rename_i reads _
    cases found
    rcases roundHalfEven_cases _ _ with same | same
    · rw [same]
      exact ne_zero_of_readsBack some reads
    · rw [same]
      exact Nat.succ_ne_zero _
  · rename_i reads _
    cases found
    exact ne_zero_of_readsBack some reads
  · cases found
    exact Nat.succ_ne_zero _
  · cases found

theorem shortestFrom_ne_zero (some : mantissa ≠ 0) (place : Int) (tries n : Nat) :
    (shortestFrom mantissa exponent place tries n).1 ≠ 0 := by
  induction tries generalizing n with
  | zero => exact Nat.mul_ne_zero some (Nat.ne_of_gt (Nat.pow_pos (by decide)))
  | succ tries ih =>
    rw [shortestFrom]
    split
    · rename_i found
      exact ne_zero_of_onGrid? some found
    · exact ih (n + 1)

/-- The digits without the zeros at their end. -/
theorem isDigits_significant {n : Nat} (some : n ≠ 0) :
    Text.IsDigits (((Text.ofNat n).reverse.dropWhile (· = '0')).reverse) := by
  refine Text.isDigits_of_sublist ?_ ?_ (Text.isDigits_ofNat n)
  · rw [Ne, List.reverse_eq_nil_iff, List.dropWhile_eq_nil_iff]
    intro zeros
    refine some (Text.eq_zero_of_ofNat fun c member => ?_)
    exact of_decide_eq_true (zeros c (List.mem_reverse.mpr member))
  · have sub := (List.dropWhile_sublist (l := (Text.ofNat n).reverse) (· = '0')).reverse
    rwa [List.reverse_reverse] at sub

end Binary64

namespace Script

open Text (IsDigits)

variable {inside : Bool} {free : Token → Prop} {s t u : Text} {c : Char}

/-- Whether a token may be part of a number. -/
def Token.isNumeric : Token → Bool
  | .word w => isNumeral w
  | .mark c => c = '.' || c = '-' || c = '+'
  | .string _ | .comment _ => false

/-- A text that is read as parts of a number. -/
def IsNumber (inside : Bool) (t : Text) : Prop :=
  ∃ tokens, Spells inside t tokens ∧ ∀ token ∈ tokens, token.isNumeric

theorem isNumeral_of_isDigits (digits : IsDigits t) : isNumeral t := by
  obtain ⟨some, all⟩ := digits
  cases t with
  | nil => exact absurd rfl some
  | cons c t =>
    obtain ⟨first, rest⟩ := List.forall_mem_cons.mp all
    rw [isNumeral, first, Bool.true_and, List.all_eq_true]
    intro d member
    rw [rest d member, Bool.true_or]

theorem isFixed_of_isDigits (digits : IsDigits t) : (Token.word t).isFixed := by
  rw [Token.isFixed, isNumeral_of_isDigits digits, Bool.or_true]

theorem Token.isFixed_of_isNumeric {token : Token} (numeric : token.isNumeric) : token.isFixed := by
  cases token with
  | word w =>
    rw [isNumeric] at numeric
    rw [isFixed, numeric, Bool.or_true]
  | mark c =>
    rw [isNumeric, Bool.or_eq_true, Bool.or_eq_true, decide_eq_true_eq, decide_eq_true_eq,
      decide_eq_true_eq] at numeric
    rcases numeric with (rfl | rfl) | rfl <;> decide
  | string value | comment t => cases numeric

namespace IsNumber

theorem numeral (numeral : isNumeral t) : IsNumber inside t := by
  refine ⟨[.word t], ?_, List.forall_mem_singleton.mpr numeral⟩
  cases t with
  | nil => cases numeral
  | cons d t =>
    rw [isNumeral, Bool.and_eq_true, List.all_eq_true] at numeral
    obtain ⟨first, rest⟩ := numeral
    refine .word (List.cons_ne_nil _ _)
      (List.forall_mem_cons.mpr ⟨Text.isWordChar_of_isDigit first, fun c member => ?_⟩)
    rcases (Bool.or_eq_true _ _).mp (rest c member) with digit | exponent
    · exact Text.isWordChar_of_isDigit digit
    · rw [of_decide_eq_true exponent]
      decide

theorem digits (digits : IsDigits t) : IsNumber inside t := numeral (isNumeral_of_isDigits digits)

theorem append (first : IsNumber inside s) (delimits : Delimits c)
    (second : IsNumber inside (c :: t)) : IsNumber inside (s ++ c :: t) := by
  obtain ⟨tokens, spells, numeric⟩ := first
  obtain ⟨more, spells', numeric'⟩ := second
  exact ⟨tokens ++ more, spells.append delimits spells',
    List.forall_mem_append.mpr ⟨numeric, numeric'⟩⟩

theorem mark (listed : c ∈ ['.', '-', '+']) (number : IsNumber inside t) :
    IsNumber inside (c :: t) := by
  obtain ⟨tokens, spells, numeric⟩ := number
  simp only [List.mem_cons, List.not_mem_nil, or_false] at listed
  have begins : Begins [c] [.mark c] [] := by
    rcases listed with rfl | rfl | rfl <;> exact .of_scan [] (by decide) rfl
  refine ⟨.mark c :: tokens, spells.behind begins, List.forall_mem_cons.mpr ⟨?_, numeric⟩⟩
  rcases listed with rfl | rfl | rfl <;> decide

/-- The words around the point of a fraction. -/
theorem fraction (whole : IsNumber inside s) (part : IsNumber inside t) :
    IsNumber inside (s ++ '.' :: t) :=
  whole.append (by decide) (part.mark (by decide))

theorem exponent {sign : Char} (signed : sign = '-' ∨ sign = '+') (lead : IsDigits s)
    (power : IsDigits t) : IsNumber inside (s ++ 'e' :: sign :: t) := by
  have word : IsNumber inside (s ++ ['e']) := by
    obtain ⟨some, all⟩ := lead
    refine numeral ?_
    cases s with
    | nil => exact absurd rfl some
    | cons c s =>
      obtain ⟨first, rest⟩ := List.forall_mem_cons.mp all
      rw [List.cons_append, isNumeral, first, Bool.true_and, List.all_eq_true]
      intro d member
      rcases List.mem_append.mp member with member | member
      · rw [rest d member, Bool.true_or]
      · rw [List.mem_singleton.mp member]
        decide
  have whole := List.append_assoc s ['e'] (sign :: t) ▸
    word.append (c := sign) (by rcases signed with rfl | rfl <;> decide)
      ((digits power).mark (by rcases signed with rfl | rfl <;> decide))
  exact whole

theorem ofNat (n : Nat) : IsNumber inside (Text.ofNat n) := digits (Text.isDigits_ofNat n)

theorem ofInt (n : Int) : IsNumber inside (Text.ofInt n) := by
  cases n with
  | ofNat n => exact ofNat n
  | negSucc n => exact (ofNat (n + 1)).mark (by decide)

theorem layOut (reads : IsDigits t) (place : Int) :
    IsNumber inside (Binary64.layOut t place) := by
  have zeros (n : Nat) : ∀ c ∈ List.replicate n '0', Text.isDigit c := by
    intro c member
    rw [List.eq_of_mem_replicate member]
    decide
  have taken {n : Nat} (some : 0 < n) : IsDigits (t.take n) := by
    refine Text.isDigits_of_sublist ?_ (List.take_sublist n t) reads
    rw [Ne, List.take_eq_nil_iff, not_or]
    exact ⟨Nat.ne_of_gt some, reads.1⟩
  have dropped {n : Nat} (more : n < t.length) : IsDigits (t.drop n) :=
    Text.isDigits_of_sublist (List.drop_eq_nil_iff.not.mpr (Nat.not_le_of_lt more))
      (List.drop_sublist n t) reads
  unfold Binary64.layOut
  split
  · split
    · have part : IsDigits (List.replicate (-place).toNat '0' ++ t) :=
        ⟨List.append_ne_nil_of_right_ne_nil _ reads.1,
          List.forall_mem_append.mpr ⟨zeros _, reads.2⟩⟩
      rw [List.append_assoc]
      exact fraction (s := ['0']) (numeral (by decide)) (digits part)
    rename_i positive
    split
    · exact fraction (t := ['0']) (digits (Text.isDigits_append reads (zeros _)))
        (numeral (by decide))
    · rename_i inner
      rw [List.append_assoc]
      exact fraction (digits (taken (by omega))) (digits (dropped (by omega)))
  · have power (n : Nat) : IsDigits (if (Text.ofNat n).length < 2 then '0' :: Text.ofNat n
        else Text.ofNat n) := by
      obtain ⟨some, all⟩ := Text.isDigits_ofNat n
      split
      · exact ⟨List.cons_ne_nil _ _, List.forall_mem_cons.mpr ⟨by decide, all⟩⟩
      · exact ⟨some, all⟩
    have signed : ∃ sign : Char, (sign = '-' ∨ sign = '+') ∧
        (if place - 1 < 0 then "-" else "+").toList = [sign] := by
      split
      · exact ⟨'-', Or.inl rfl, rfl⟩
      · exact ⟨'+', Or.inr rfl, rfl⟩
    obtain ⟨sign, signed, equal⟩ := signed
    dsimp only
    rw [equal, List.append_assoc, List.append_assoc]
    split
    · exact exponent signed reads (power _)
    · rw [List.append_assoc, List.append_assoc]
      exact fraction (digits (taken (by omega))) (exponent signed (dropped (by omega)) (power _))

/-- A number that is not finite has no expression; all others have one. -/
theorem finite (negative : Bool) (mantissa : Nat) (exponent : Int) :
    IsNumber inside (Binary64.text (.finite negative mantissa exponent)) := by
  have signed {t : Text} (number : IsNumber inside t) :
      IsNumber inside ((if negative then "-".toList else "".toList) ++ t) := by
    cases negative with
    | false => exact number
    | true => exact number.mark (by decide)
  simp only [Binary64.text]
  split
  · exact signed (fraction (s := ['0']) (t := ['0']) (numeral (by decide)) (numeral (by decide)))
  · rename_i some
    exact signed (layOut
      (Binary64.isDigits_significant (Binary64.shortestFrom_ne_zero some _ 17 1)) _)

theorem reads (number : IsNumber inside t) : Reads inside free t [] := by
  obtain ⟨tokens, spells, numeric⟩ := number
  refine spells.reads (.ofFixed (List.all_eq_true.mpr fun token member => ?_))
  exact Token.isFixed_of_isNumeric (numeric token member)

end IsNumber

end Script

end DatafileMigration
