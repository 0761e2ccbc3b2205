import Mathlib.Data.List.Basic
import DatafileMigration.Proofs.Module.Naming
import DatafileMigration.Proofs.Text.Word

namespace DatafileMigration

namespace Identifier

def isSnakeChar (c : Char) : Bool := c.isLower || c.isDigit || c = '_'

/-- A small letter or an underscore, then small letters, digits and underscores. -/
def isSnake : Text → Bool
  | [] => false
  | c :: t => (c.isLower || c = '_') && t.all isSnakeChar

variable {s t : Text} {c : Char}

theorem isIdentifierChar_of_isSnakeChar (snake : isSnakeChar c) : Text.isIdentifierChar c := by
  have parts : (c.isUpper || c.isLower || c.isDigit || decide (c = '_')) = true := by
    rw [isSnakeChar] at snake
    rw [Bool.or_assoc, Bool.or_assoc, ← Bool.or_assoc c.isLower, snake, Bool.or_true]
  exact parts

theorem isSnake_ne_nil (snake : isSnake t) : t ≠ [] := by
  rintro rfl
  cases snake

theorem isSnakeChar_of_mem (snake : isSnake t) : ∀ c ∈ t, isSnakeChar c := by
  cases t with
  | nil => cases snake
  | cons d t =>
    rw [isSnake, Bool.and_eq_true, List.all_eq_true] at snake
    refine List.forall_mem_cons.mpr ⟨?_, snake.2⟩
    rcases (Bool.or_eq_true _ _).mp snake.1 with lower | underscore
    · rw [isSnakeChar, lower, Bool.true_or, Bool.true_or]
    · rw [isSnakeChar, underscore, Bool.or_true]

theorem isSnake_append (snake : isSnake s) (chars : ∀ c ∈ t, isSnakeChar c) :
    isSnake (s ++ t) := by
  cases s with
  | nil => cases snake
  | cons d s =>
    rw [isSnake, Bool.and_eq_true] at snake
    rw [List.cons_append, isSnake, List.all_append, snake.1, snake.2, List.all_eq_true.mpr chars]
    rfl

/-- All but a digit in front makes an identifier of such characters. -/
theorem isSnake_guardDigit (some : t ≠ []) (chars : ∀ c ∈ t, isSnakeChar c) :
    isSnake (guardDigit t) := by
  cases t with
  | nil => exact absurd rfl some
  | cons d t =>
    obtain ⟨first, rest⟩ := List.forall_mem_cons.mp chars
    rw [guardDigit]
    split
    · rw [isSnake, List.all_eq_true.mpr chars]
      rfl
    · rename_i letter
      rw [isSnakeChar, Bool.or_eq_true, Bool.or_eq_true, or_right_comm] at first
      have start := first.resolve_right letter
      rw [isSnake, List.all_eq_true.mpr rest, Bool.and_true, Bool.or_eq_true]
      exact start

theorem isSnakeChar_toLower (valid : Text.isIdentifierChar c) : isSnakeChar c.toLower :=
  Text.of_isIdentifierChar (p := fun c => isSnakeChar c.toLower) (by decide +kernel) valid

theorem mem_maskInvalid {inRun : Bool} (member : c ∈ maskInvalid inRun t) :
    Text.isIdentifierChar c := by
  induction t generalizing inRun with
  | nil => cases member
  | cons d t ih =>
    rw [maskInvalid] at member
    split at member
    · rename_i valid
      rcases List.mem_cons.mp member with rfl | member
      · exact valid
      · exact ih member
    split at member
    · exact ih member
    · rcases List.mem_cons.mp member with rfl | member
      · decide
      · exact ih member

theorem squeeze_sublist (t : Text) : (squeeze t).Sublist t := by
  fun_induction squeeze t with
  | case1 c d t _ ih => exact ih.cons c
  | case2 c d t _ ih => exact ih.cons_cons c
  | case3 t _ => exact List.Sublist.refl t

theorem trimUnderscores_sublist (t : Text) : (trimUnderscores t).Sublist t := by
  have back := (List.dropWhile_sublist (l := (t.dropWhile (· = '_')).reverse) (· = '_')).reverse
  rw [List.reverse_reverse] at back
  exact back.trans (List.dropWhile_sublist _)

theorem isSnakeChar_of_mem_snakeCase (name : Text) : ∀ c ∈ snakeCase name, isSnakeChar c := by
  intro c member
  have masked := (squeeze_sublist _).subset ((trimUnderscores_sublist _).subset member)
  obtain ⟨d, found, rfl⟩ := List.mem_map.mp masked
  exact isSnakeChar_toLower (mem_maskInvalid found)

theorem isSnake_guardReserved (snake : isSnake t) : isSnake (guardReserved t) := by
  rw [guardReserved]
  split
  · exact isSnake_append snake (t := ['_']) (List.all_eq_true.mp (by decide))
  · exact snake

theorem isSnake_ofName (name : Text) : isSnake (ofName name) := by
  refine isSnake_guardReserved ?_
  split
  · decide
  · rename_i some
    exact isSnake_guardDigit some (isSnakeChar_of_mem_snakeCase name)

end Identifier

/-- So are all identifiers that a resource may get. -/
theorem IsCandidate.isSnake {kind : Kind} {name identifier : Text}
    (candidate : IsCandidate kind name identifier) : Identifier.isSnake identifier := by
  have kinded : Identifier.isSnake (Identifier.ofName name ++ "_" ++ kind.text) := by
    rw [List.append_assoc]
    refine Identifier.isSnake_append (Identifier.isSnake_ofName name) ?_
    cases kind <;> exact List.all_eq_true.mp (by decide)
  cases candidate with
  | plain => exact Identifier.isSnake_ofName name
  | ofKind => exact kinded
  | numbered n =>
    rw [List.append_assoc]
    have underscore : ∀ c ∈ "_".toList, Identifier.isSnakeChar c :=
      List.all_eq_true.mp (by decide)
    refine Identifier.isSnake_append kinded (List.forall_mem_append.mpr ⟨underscore, ?_⟩)
    intro c member
    rw [Identifier.isSnakeChar, Text.isDigit_of_mem_ofNat member, Bool.or_true, Bool.true_or]

end DatafileMigration
