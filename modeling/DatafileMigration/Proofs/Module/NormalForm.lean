import DatafileMigration.Proofs.Module.Shadow
import DatafileMigration.Proofs.Module.Snake

namespace DatafileMigration.Identifier

/-- Words of small letters and digits with one underscore between neighbours. -/
structure IsJoined (t : Text) : Prop where
  chars : ∀ c ∈ t, isSnakeChar c
  single : t.IsChain fun c d => ¬ (c = '_' ∧ d = '_')
  first : t.head? ≠ some '_'
  last : t.getLast? ≠ some '_'

/-- The words of an identifier, which are told from the name unless it has none. -/
def stem (name : Text) : Text := if snakeCase name = [] then "resource" else snakeCase name

variable {t front back name : Text} {c : Char}

theorem plain_of_isSnakeChar (snake : isSnakeChar c) : c.isUpper = false ∧ c.toLower = c :=
  Text.of_isIdentifierChar (p := fun c => isSnakeChar c → c.isUpper = false ∧ c.toLower = c)
    (by decide +kernel) (isIdentifierChar_of_isSnakeChar snake) snake

theorem splitCamel_of_chars (chars : ∀ c ∈ t, isSnakeChar c) : splitCamel t = t := by
  fun_induction splitCamel t with
  | case1 c d t camel ih =>
    have small := (plain_of_isSnakeChar (chars d (List.mem_cons_of_mem _ List.mem_cons_self))).1
    rw [small, Bool.and_false] at camel
    cases camel
  | case2 c d t _ ih => rw [ih (List.forall_mem_cons.mp chars).2]
  | case3 t => rfl

theorem maskInvalid_of_chars (chars : ∀ c ∈ t, isSnakeChar c) : maskInvalid false t = t := by
  induction t with
  | nil => rfl
  | cons c t ih =>
    obtain ⟨first, rest⟩ := List.forall_mem_cons.mp chars
    rw [maskInvalid, if_pos (isIdentifierChar_of_isSnakeChar first), ih rest]

theorem map_toLower_of_chars (chars : ∀ c ∈ t, isSnakeChar c) : t.map Char.toLower = t := by
  refine (List.map_congr_left fun c member => ?_).trans (List.map_id t)
  exact (plain_of_isSnakeChar (chars c member)).2

theorem squeeze_of_single (single : t.IsChain fun c d => ¬ (c = '_' ∧ d = '_')) :
    squeeze t = t := by
  fun_induction squeeze t with
  | case1 c d t both ih =>
    rw [Bool.and_eq_true, decide_eq_true_eq, decide_eq_true_eq] at both
    exact absurd both (List.isChain_cons_cons.mp single).1
  | case2 c d t _ ih => rw [ih (List.isChain_cons_cons.mp single).2]
  | case3 t => rfl

/-- Of such characters only the underscores may change. -/
theorem snakeCase_of_chars (chars : ∀ c ∈ t, isSnakeChar c)
    (single : t.IsChain fun c d => ¬ (c = '_' ∧ d = '_')) :
    snakeCase t = trimUnderscores t := by
  rw [snakeCase, splitCamel_of_chars chars, maskInvalid_of_chars chars, map_toLower_of_chars chars,
    squeeze_of_single single]

theorem head?_squeeze (t : Text) : (squeeze t).head? = t.head? := by
  fun_induction squeeze t with
  | case1 c d t both ih =>
    rw [Bool.and_eq_true, decide_eq_true_eq, decide_eq_true_eq] at both
    rw [ih, List.head?_cons, List.head?_cons, both.1, both.2]
  | case2 | case3 => rfl

theorem isChain_squeeze (t : Text) : (squeeze t).IsChain fun c d => ¬ (c = '_' ∧ d = '_') := by
  fun_induction squeeze t with
  | case1 c d t _ ih => exact ih
  | case2 c d t apart ih =>
    rw [Bool.and_eq_true, decide_eq_true_eq, decide_eq_true_eq] at apart
    refine List.isChain_cons.mpr ⟨fun e next => ?_, ih⟩
    rw [head?_squeeze, List.head?_cons, Option.mem_some_iff] at next
    exact next ▸ apart
  | case3 t short =>
    cases t with
    | nil => exact .nil
    | cons c t =>
      cases t with
      | nil => exact .singleton c
      | cons d t => exact absurd rfl (short c d t)

theorem head?_dropWhile_underscore (t : Text) : (t.dropWhile (· = '_')).head? ≠ some '_' := by
  intro first
  have stopped := List.head?_dropWhile_not (fun c => decide (c = '_')) t
  rw [first] at stopped
  simp at stopped

theorem trimUnderscores_isPrefix (t : Text) : trimUnderscores t <+: t.dropWhile (· = '_') := by
  have back := List.dropWhile_suffix (l := (t.dropWhile (· = '_')).reverse) (· = '_')
  have front := List.reverse_prefix.mpr back
  rwa [List.reverse_reverse] at front

theorem isChain_trimUnderscores {R : Char → Char → Prop} (chain : t.IsChain R) :
    (trimUnderscores t).IsChain R := by
  obtain ⟨front, whole⟩ := List.dropWhile_suffix (l := t) (· = '_')
  obtain ⟨more, cut⟩ := trimUnderscores_isPrefix t
  rw [← whole, ← cut] at chain
  exact chain.right_of_append.left_of_append

theorem isJoined_snakeCase (name : Text) : IsJoined (snakeCase name) where
  chars := isSnakeChar_of_mem_snakeCase name
  single := isChain_trimUnderscores (isChain_squeeze _)
  first := by
    intro first
    obtain ⟨rest, whole⟩ := List.head?_eq_some_iff.mp first
    obtain ⟨more, cut⟩ := trimUnderscores_isPrefix (squeeze ((maskInvalid false
      (splitCamel name)).map Char.toLower))
    refine head?_dropWhile_underscore (squeeze ((maskInvalid false
      (splitCamel name)).map Char.toLower)) ?_
    rw [← cut, ← snakeCase, whole]
    rfl
  last := by
    rw [snakeCase, trimUnderscores, List.getLast?_reverse]
    exact head?_dropWhile_underscore _

theorem isJoined_stem (name : Text) : IsJoined (stem name) := by
  rw [stem]
  split
  · exact ⟨List.all_eq_true.mp (by decide), by decide, by decide, by decide⟩
  · exact isJoined_snakeCase name

theorem stem_ne_nil (name : Text) : stem name ≠ [] := by
  rw [stem]
  split
  · decide
  · assumption

/-- What may stand in front of the words, and behind them. Trimming takes the guards off, and the
words bring them back. -/
def IsGuard (t : Text) : Prop := t = [] ∨ t = ['_']

theorem guards (t : Text) :
    ∃ front back, IsGuard front ∧ IsGuard back ∧
      guardReserved (guardDigit t) = front ++ t ++ back := by
  have front : ∃ front, IsGuard front ∧ guardDigit t = front ++ t := by
    cases t with
    | nil => exact ⟨[], Or.inl rfl, rfl⟩
    | cons c t =>
      rw [guardDigit]
      split
      · exact ⟨['_'], Or.inr rfl, rfl⟩
      · exact ⟨[], Or.inl rfl, rfl⟩
  obtain ⟨front, guard, digit⟩ := front
  rw [digit, guardReserved]
  split
  · exact ⟨front, ['_'], guard, Or.inr rfl, rfl⟩
  · exact ⟨front, [], guard, Or.inl rfl, (List.append_nil _).symm⟩

theorem IsGuard.underscore (guard : IsGuard t) : ∀ c ∈ t, c = '_' := by
  rcases guard with rfl | rfl
  · exact nofun
  · exact List.forall_mem_singleton.mpr rfl

/-- A guard does not meet another underscore. -/
theorem IsGuard.isChain (guard : IsGuard t) : t.IsChain fun c d => ¬ (c = '_' ∧ d = '_') := by
  rcases guard with rfl | rfl
  · exact .nil
  · exact .singleton _

/-- Words lose the guards around them. -/
theorem IsJoined.snakeCase_guarded (joined : IsJoined t) (some : t ≠ []) (guard : IsGuard front)
    (guard' : IsGuard back) : snakeCase (front ++ t ++ back) = t := by
  have chars {u : Text} (guard : IsGuard u) : ∀ c ∈ u, isSnakeChar c := fun c member =>
    guard.underscore c member ▸ rfl
  have single : (front ++ t ++ back).IsChain fun c d => ¬ (c = '_' ∧ d = '_') := by
    refine List.isChain_append.mpr ⟨List.isChain_append.mpr ⟨guard.isChain, joined.single, ?_⟩,
      guard'.isChain, ?_⟩
    · rintro c - d first ⟨-, rfl⟩
      exact joined.first first
    · rintro c last d - ⟨rfl, -⟩
      rw [List.getLast?_append_of_ne_nil _ some] at last
      exact joined.last last
  have trimmed {u v : Text} (guard : IsGuard u) (solid : v ≠ []) (first : v.head? ≠ Option.some '_') :
      (u ++ v).dropWhile (· = '_') = v := by
    rw [List.dropWhile_append_of_pos fun c member => decide_eq_true (guard.underscore c member)]
    obtain ⟨c, rest, rfl⟩ := List.exists_cons_of_ne_nil solid
    refine List.dropWhile_cons_of_neg fun underscore => first ?_
    rw [List.head?_cons, of_decide_eq_true underscore]
  have reversed : IsGuard back.reverse := by
    rcases guard' with rfl | rfl
    · exact Or.inl rfl
    · exact Or.inr rfl
  have begins : (t ++ back).head? ≠ Option.some '_' := by
    rw [List.head?_append_of_ne_nil _ some]
    exact joined.first
  have ends : t.reverse.head? ≠ Option.some '_' := by
    rw [List.head?_reverse]
    exact joined.last
  rw [snakeCase_of_chars (List.forall_mem_append.mpr ⟨List.forall_mem_append.mpr
    ⟨chars guard, joined.chars⟩, chars guard'⟩) single, trimUnderscores, List.append_assoc,
    trimmed guard (List.append_ne_nil_of_left_ne_nil some _) begins, List.reverse_append,
    trimmed reversed (List.reverse_ne_nil_iff.mpr some) ends, List.reverse_reverse]

theorem ofName_eq (name : Text) : ofName name = guardReserved (guardDigit (stem name)) := rfl

theorem stem_ofName (name : Text) : stem (ofName name) = stem name := by
  obtain ⟨front, back, guard, guard', guarded⟩ := guards (stem name)
  have words := (isJoined_stem name).snakeCase_guarded (stem_ne_nil name) guard guard'
  rw [stem, ofName_eq, guarded, words, if_neg (stem_ne_nil name)]

/-- The identifier of a name is a small letter or an underscore with small letters, digits and
underscores behind it, no word of the language and no imported name; and it is its own identifier. -/
theorem ofName_normal (name : Text) :
    isSnake (ofName name) ∧ ofName name ∉ reservedWords ∧ ofName name ∉ sdkNames ∧
      ofName (ofName name) = ofName name := by
  obtain ⟨unreserved, unimported⟩ := guardReserved_free (guardDigit (stem name))
  refine ⟨isSnake_ofName name, unreserved, unimported, ?_⟩
  rw [ofName_eq (ofName name), stem_ofName, ← ofName_eq]

example : ofName "2ndClass--Event" = "_2nd_class_event" ∧ ofName "_class_" = "class_" := by decide

end DatafileMigration.Identifier
