import Mathlib.Data.List.DropRight
import DatafileMigration.Text.Blank

namespace DatafileMigration.Text

section Ends

variable {α : Type}

/-- What is left of a list between its first and last item outside a class. -/
def dropEnds (p : α → Bool) (l : List α) : List α := ((l.dropWhile p).reverse.dropWhile p).reverse

theorem dropWhile_dropEnds (p : α → Bool) (l : List α) :
    (dropEnds p l).dropWhile p = dropEnds p l := by
  have front : dropEnds p l <+: l.dropWhile p := by
    rw [← List.reverse_suffix, dropEnds, List.reverse_reverse]
    exact List.dropWhile_suffix p
  cases left : dropEnds p l with
  | nil => rfl
  | cons a rest =>
    rw [left] at front
    obtain ⟨cut, whole⟩ := front
    have solid := List.head?_dropWhile_not p l
    rw [← whole] at solid
    exact List.dropWhile_cons_of_neg (Bool.eq_false_iff.mp solid)

theorem head?_dropEnds (p : α → Bool) (l : List α) : ∀ a ∈ (dropEnds p l).head?, p a = false := by
  intro a first
  have solid := List.head?_dropWhile_not p (dropEnds p l)
  rwa [dropWhile_dropEnds, Option.mem_def.mp first] at solid

theorem getLast?_dropEnds (p : α → Bool) (l : List α) :
    ∀ a ∈ (dropEnds p l).getLast?, p a = false := by
  intro a last
  have solid := List.head?_dropWhile_not p (l.dropWhile p).reverse
  rw [dropEnds, List.getLast?_reverse] at last
  rwa [Option.mem_def.mp last] at solid

theorem dropEnds_dropEnds (p : α → Bool) (l : List α) :
    dropEnds p (dropEnds p l) = dropEnds p l := by
  conv_lhs => rw [dropEnds, dropWhile_dropEnds, dropEnds, List.reverse_reverse,
    List.dropWhile_idempotent]
  rfl

theorem dropEnds_sublist (p : α → Bool) (l : List α) : (dropEnds p l).Sublist l := by
  have front := List.dropWhile_sublist (l := l) p
  have back := List.dropWhile_sublist (l := (l.dropWhile p).reverse) p
  rw [← List.reverse_sublist, List.reverse_reverse] at back
  exact back.trans front

/-- What is cut off at the ends is of the class. -/
theorem exists_dropEnds (p : α → Bool) (l : List α) : ∃ front back,
    (∀ a ∈ front, p a) ∧ (∀ a ∈ back, p a) ∧ l = front ++ dropEnds p l ++ back := by
  have start := List.takeWhile_append_dropWhile (p := p) (l := l)
  have finish := List.takeWhile_append_dropWhile (p := p) (l := (l.dropWhile p).reverse)
  refine ⟨l.takeWhile p, ((l.dropWhile p).reverse.takeWhile p).reverse, ?_, ?_, ?_⟩
  · exact fun a member => List.mem_takeWhile_imp member
  · exact fun a member => List.mem_takeWhile_imp (List.mem_reverse.mp member)
  · rw [dropEnds, List.append_assoc, ← List.reverse_append, finish, List.reverse_reverse, start]

/-- What stands between items of the class is left if it begins and ends with none of them. -/
theorem dropEnds_between {p : α → Bool} {front kept back : List α} (before : ∀ a ∈ front, p a)
    (after : ∀ a ∈ back, p a) (first : ∀ a ∈ kept.head?, p a = false)
    (last : ∀ a ∈ kept.getLast?, p a = false) : dropEnds p (front ++ kept ++ back) = kept := by
  have stays {l : List α} (solid : ∀ a ∈ l.head?, p a = false) : l.dropWhile p = l := by
    cases l with
    | nil => rfl
    | cons a l => exact List.dropWhile_cons_of_neg (by rw [solid a rfl]; decide)
  by_cases empty : kept = []
  · have all : (front ++ kept ++ back).dropWhile p = [] := by
      rw [empty, List.append_nil, List.dropWhile_eq_nil_iff, List.forall_mem_append]
      exact ⟨before, after⟩
    rw [dropEnds, all, empty]
    rfl
  · have start : (kept ++ back).dropWhile p = kept ++ back :=
      stays (by rwa [List.head?_append_of_ne_nil _ empty])
    have finish : kept.reverse.dropWhile p = kept.reverse :=
      stays (by rwa [List.head?_reverse])
    have after' : ∀ a ∈ back.reverse, p a := fun a member => after a (List.mem_reverse.mp member)
    rw [dropEnds, List.append_assoc, List.dropWhile_append_of_pos before, start,
      List.reverse_append, List.dropWhile_append_of_pos after', finish, List.reverse_reverse]

end Ends

theorem stripEnd_stripEnd (t : Text) : stripEnd (stripEnd t) = stripEnd t := by
  rw [stripEnd, stripEnd, List.reverse_reverse, List.dropWhile_idempotent]

theorem stripStart_eq_self_iff {t : Text} :
    stripStart t = t ↔ ∀ c rest, t = c :: rest → isBlank c = false := by
  cases t with
  | nil => simp [stripStart]
  | cons c rest =>
    constructor
    · intro same d tail equal
      cases equal
      by_contra blank
      rw [Bool.not_eq_false] at blank
      have shorter := (List.dropWhile_sublist (l := rest) isBlank).length_le
      rw [stripStart, List.dropWhile_cons_of_pos blank] at same
      rw [same, List.length_cons] at shorter
      omega
    · intro solid
      rw [stripStart, List.dropWhile_cons_of_neg (by simp [solid c rest rfl])]

/-- What is cut off the end of a text is behind all that stays. -/
theorem stripEnd_isPrefix (t : Text) : stripEnd t <+: t := by
  have suffix := List.dropWhile_suffix (l := t.reverse) isBlank
  simpa [stripEnd] using List.reverse_prefix.mpr suffix

theorem stripEnd_eq_self_iff {t : Text} :
    stripEnd t = t ↔ ∀ before c, t = before ++ [c] → isBlank c = false := by
  have mirrored : stripEnd t = t ↔ stripStart t.reverse = t.reverse := List.reverse_eq_iff
  rw [mirrored, stripStart_eq_self_iff]
  constructor
  · intro solid before c equal
    exact solid c before.reverse (by simp [equal])
  · intro solid c rest equal
    exact solid rest.reverse c (by rw [← List.reverse_reverse t, equal, List.reverse_cons])

theorem stripEnd_eq_nil_iff {t : Text} : stripEnd t = [] ↔ isBlankText t := by
  rw [stripEnd, List.reverse_eq_nil_iff, List.dropWhile_eq_nil_iff, isBlankText, List.all_eq_true]
  simp only [List.mem_reverse]

/-- A text that ends with no blank stays when the end of a longer text is stripped. -/
theorem stripEnd_append {s : Text} (whole : stripEnd s = s) (t : Text) :
    stripEnd (s ++ t) = s ++ stripEnd t := by
  have mirrored : s.reverse.dropWhile isBlank = s.reverse := List.reverse_eq_iff.mp whole
  rw [stripEnd, stripEnd, List.reverse_append, List.dropWhile_append]
  split
  · rename_i blank
    rw [List.isEmpty_iff] at blank
    rw [mirrored, blank, List.reverse_reverse, List.reverse_nil, List.append_nil]
  · rw [List.reverse_append, List.reverse_reverse]

/-- What stands in front of a text that ends with no blank stays as well. -/
theorem stripEnd_append_self {t : Text} (whole : stripEnd t = t) (some : t ≠ []) (front : Text) :
    stripEnd (front ++ t) = front ++ t := by
  rw [stripEnd_eq_self_iff] at whole ⊢
  intro before c equal
  have last := List.dropLast_append_getLast some
  have same : t.getLast some = c := by
    have ends := congrArg List.getLast? equal
    simpa [List.getLast?_eq_some_getLast some] using ends
  exact whole t.dropLast c (by rw [← same, last])

theorem stripEnd_of_append {front t : Text} (whole : stripEnd (front ++ t) = front ++ t) :
    stripEnd t = t := by
  rw [stripEnd_eq_self_iff] at whole ⊢
  intro before c equal
  exact whole (front ++ before) c (by rw [equal, List.append_assoc])

/-- What a text loses at its end are blanks. -/
theorem exists_stripEnd_append (t : Text) : ∃ blanks, isBlankText blanks ∧ t = stripEnd t ++ blanks := by
  have cut := List.takeWhile_append_dropWhile (p := isBlank) (l := t.reverse)
  refine ⟨(t.reverse.takeWhile isBlank).reverse, ?_, ?_⟩
  · rw [isBlankText, List.all_reverse, List.all_eq_true]
    exact fun c member => List.mem_takeWhile_imp member
  · rw [stripEnd, ← List.reverse_append, cut, List.reverse_reverse]

/-- What a text loses at its beginning are blanks. -/
theorem exists_append_stripStart (t : Text) :
    ∃ blanks, isBlankText blanks ∧ t = blanks ++ stripStart t := by
  refine ⟨t.takeWhile isBlank, ?_, List.takeWhile_append_dropWhile.symm⟩
  rw [isBlankText, List.all_eq_true]
  exact fun c member => List.mem_takeWhile_imp member

theorem stripEnd_append_blanks {blanks : Text} (blank : isBlankText blanks) (t : Text) :
    stripEnd (t ++ blanks) = stripEnd t := by
  rw [isBlankText, ← List.all_reverse, List.all_eq_true] at blank
  rw [stripEnd, List.reverse_append, List.dropWhile_append_of_pos blank, stripEnd]

theorem stripStart_append_blanks {blanks : Text} (blank : isBlankText blanks) (t : Text) :
    stripStart (blanks ++ t) = stripStart t :=
  List.dropWhile_append_of_pos (List.all_eq_true.mp blank)

/-- Only the blanks in front go if something else stands in a text. -/
theorem stripStart_append {t : Text} (filled : isBlankText t = false) (u : Text) :
    stripStart (t ++ u) = stripStart t ++ u := by
  have left : ¬ (t.dropWhile isBlank).isEmpty := by
    rw [List.isEmpty_iff, List.dropWhile_eq_nil_iff, ← List.all_eq_true, ← isBlankText, filled]
    decide
  exact List.dropWhile_append.trans (if_neg left)

theorem isBlankText_stripEnd (t : Text) : isBlankText (stripEnd t) = isBlankText t := by
  rw [Bool.eq_iff_iff, ← stripEnd_eq_nil_iff, ← stripEnd_eq_nil_iff, stripEnd_stripEnd]

theorem mem_of_mem_stripEnd {t : Text} {c : Char} (member : c ∈ stripEnd t) : c ∈ t :=
  (stripEnd_isPrefix t).subset member

/-- What stripping keeps stands together. -/
theorem strip_isInfix (t : Text) : strip t <:+: t :=
  (stripEnd_isPrefix (stripStart t)).isInfix.trans (List.dropWhile_suffix isBlank).isInfix

theorem mem_of_mem_strip {t : Text} {c : Char} (member : c ∈ strip t) : c ∈ t :=
  (dropEnds_sublist isBlank t).subset member

/-- Only blanks are stripped. -/
theorem mem_strip {t : Text} {c : Char} (member : c ∈ t) (solid : isBlank c = false) :
    c ∈ strip t := by
  obtain ⟨front, back, before, after, whole⟩ := exists_dropEnds isBlank t
  have blank (here : isBlank c = true) : c ∈ strip t := by
    rw [solid] at here
    cases here
  rw [whole, List.mem_append, List.mem_append] at member
  rcases member with (inFront | inside) | inBack
  · exact blank (before c inFront)
  · exact inside
  · exact blank (after c inBack)

@[simp]
theorem strip_strip (t : Text) : strip (strip t) = strip t := dropEnds_dropEnds isBlank t

@[simp]
theorem strip_cons_blank {c : Char} {t : Text} (blank : isBlank c) : strip (c :: t) = strip t := by
  rw [strip, stripStart, List.dropWhile_cons_of_pos blank]
  rfl

@[simp]
theorem strip_append_blank {c : Char} {t : Text} (blank : isBlank c) :
    strip (t ++ [c]) = strip t := by
  have dropped (s : Text) : stripEnd (s ++ [c]) = stripEnd s := by
    rw [stripEnd, List.reverse_append, List.reverse_singleton, List.singleton_append,
      List.dropWhile_cons_of_pos blank, stripEnd]
  rw [strip, stripStart, List.dropWhile_append, strip, stripStart]
  split
  · rename_i nothing
    rw [List.isEmpty_iff.mp nothing, List.dropWhile_cons_of_pos blank]
    rfl
  · exact dropped _

theorem strip_append_blanks {blanks : Text} (blank : isBlankText blanks) (t : Text) :
    strip (t ++ blanks) = strip t := by
  induction blanks using List.reverseRecOn with
  | nil => rw [List.append_nil]
  | append_singleton blanks c ih =>
    rw [isBlankText, List.all_append, Bool.and_eq_true] at blank
    rw [← List.append_assoc, strip_append_blank (by simpa using blank.2), ih blank.1]

/-- Blanks in front and behind go. -/
theorem strip_between_blanks {front back : Text} (blank : isBlankText front)
    (blank' : isBlankText back) (t : Text) : strip (front ++ t ++ back) = strip t := by
  rw [strip_append_blanks blank', strip, stripStart_append_blanks blank, ← strip]

theorem strip_stripEnd (t : Text) : strip (stripEnd t) = strip t := by
  obtain ⟨blanks, blank, whole⟩ := exists_stripEnd_append t
  conv_rhs => rw [whole, strip_append_blanks blank]

theorem strip_stripStart (t : Text) : strip (stripStart t) = strip t := by
  rw [strip, strip, stripStart, stripStart, List.dropWhile_idempotent]

/-- Nothing goes at the end of a text that ends with no blank. -/
theorem strip_eq_stripStart {t : Text} (whole : stripEnd t = t) : strip t = stripStart t := by
  obtain ⟨blanks, -, start⟩ := exists_append_stripStart t
  rw [start] at whole
  rw [strip, stripEnd_of_append whole]

/-- What is stripped already stays when its parts are stripped. -/
theorem strip_eq_self_iff {t : Text} : strip t = t ↔ stripStart t = t ∧ stripEnd t = t := by
  constructor
  · intro stripped
    have solid : stripStart (strip t) = strip t := dropWhile_dropEnds isBlank t
    have whole : stripEnd (strip t) = strip t := stripEnd_stripEnd _
    rw [stripped] at solid whole
    exact ⟨solid, whole⟩
  · rintro ⟨solid, whole⟩
    rw [strip, solid, whole]

/-- A stripped text is told by its first and its last character. -/
theorem strip_eq_self_iff_ends {t : Text} : strip t = t ↔
    (∀ c ∈ t.head?, isBlank c = false) ∧ ∀ c ∈ t.getLast?, isBlank c = false := by
  rw [strip_eq_self_iff, stripStart_eq_self_iff, stripEnd_eq_self_iff]
  refine and_congr ?_ ?_
  · simp only [Option.mem_def, List.head?_eq_some_iff, forall_exists_index]
  · simp only [Option.mem_def, List.getLast?_eq_some_iff, forall_exists_index]
    exact forall_comm

/-- A text without blanks has none to strip. -/
theorem strip_of_solid {t : Text} (solid : ∀ c ∈ t, isBlank c = false) : strip t = t :=
  strip_eq_self_iff_ends.mpr ⟨fun c first => solid c (List.mem_of_head? first),
    fun c last => solid c (List.mem_of_getLast? last)⟩

theorem strip_eq_nil_iff {t : Text} : strip t = [] ↔ isBlankText t := by
  obtain ⟨blanks, blank, whole⟩ := exists_append_stripStart t
  have front : blanks.all isBlank = true := blank
  rw [strip, stripEnd_eq_nil_iff, isBlankText, isBlankText]
  conv_rhs => rw [whole, List.all_append, front, Bool.true_and]

theorem head?_strip {t : Text} (filled : strip t ≠ []) :
    (strip t).head? = (stripStart t).head? := by
  obtain ⟨cut, whole⟩ := stripEnd_isPrefix (stripStart t)
  conv_rhs => rw [← whole, ← strip, List.head?_append_of_ne_nil _ filled]

theorem solid_of_all {t : Text} (all : t.all (!isBlank ·)) : ∀ c ∈ t, isBlank c = false := by
  simpa [List.all_eq_true] using all

theorem strip_cons_ne_nil {c : Char} (solid : isBlank c = false) (t : Text) :
    strip (c :: t) ≠ [] := by
  rw [Ne, strip_eq_nil_iff, isBlankText, List.all_cons, solid]
  simp

theorem head?_strip_cons {c : Char} (solid : isBlank c = false) (t : Text) :
    (strip (c :: t)).head? = some c := by
  rw [head?_strip (strip_cons_ne_nil solid t), stripStart,
    List.dropWhile_cons_of_neg (by simp [solid]), List.head?_cons]

/-- What stands behind a text does not change its first character that is no blank. -/
theorem head?_strip_append {t : Text} (filled : strip t ≠ []) (u : Text) :
    (strip (t ++ u)).head? = (strip t).head? := by
  have start : stripStart t ≠ [] := by
    intro empty
    rw [strip, empty] at filled
    exact filled rfl
  have filled' : strip (t ++ u) ≠ [] := by
    rw [Ne, strip_eq_nil_iff, isBlankText, List.all_append, Bool.and_eq_true, not_and_or]
    exact Or.inl (mt strip_eq_nil_iff.mpr filled)
  have longer := stripStart_append (Bool.eq_false_iff.mpr (mt strip_eq_nil_iff.mpr filled)) u
  rw [head?_strip filled', longer, List.head?_append_of_ne_nil _ start, head?_strip filled]

/-- Behind a blank that is not stripped stands more than blanks. -/
theorem strip_ne_nil_behind_blank {front t : Text} {c : Char}
    (whole : strip (front ++ c :: t) = front ++ c :: t) (blank : isBlank c) : strip t ≠ [] := by
  intro empty
  have blanks : isBlankText (c :: t) := by
    rw [isBlankText, List.all_cons, blank, Bool.true_and]
    exact strip_eq_nil_iff.mp empty
  have shorter := (stripEnd_isPrefix front).length_le
  rw [← stripEnd_append_blanks blanks, (strip_eq_self_iff.mp whole).2, List.length_append,
    List.length_cons] at shorter
  omega

/-- Behind a stripped text, a text that ends with no blank stays. -/
theorem strip_append {s t : Text} (whole : strip s = s) (some : s ≠ []) (back : stripEnd t = t) :
    strip (s ++ t) = s ++ t := by
  obtain ⟨start, finish⟩ := strip_eq_self_iff.mp whole
  obtain ⟨ch, s, rfl⟩ := List.exists_cons_of_ne_nil some
  have solid : isBlank ch = false := stripStart_eq_self_iff.mp start ch s rfl
  have front : stripStart (ch :: s ++ t) = ch :: s ++ t :=
    List.dropWhile_cons_of_neg (by simp [solid])
  rw [strip_eq_self_iff, stripEnd_append finish, back]
  exact ⟨front, rfl⟩

theorem length_stripStart_le (x t : Text) :
    (stripStart t).length ≤ (stripStart (x ++ t)).length := by
  have shorter : (stripStart t).length ≤ t.length := List.length_dropWhile_le ..
  rw [stripStart, stripStart, List.dropWhile_append]
  split
  · exact le_rfl
  · rw [List.length_append]
    exact Nat.le_add_left_of_le shorter

/-- Blanks at the ends change neither the first word of a text nor the rest. -/
theorem cutWord_strip (t : Text) : cutWord (strip t) = cutWord t := by
  obtain ⟨blanks, blank, whole⟩ := exists_stripEnd_append (stripStart t)
  rw [← strip] at whole
  have none : blanks.takeWhile (!isBlank ·) = [] := by
    cases blanks with
    | nil => rfl
    | cons c blanks =>
      rw [isBlankText, List.all_cons, Bool.and_eq_true] at blank
      exact List.takeWhile_cons_of_neg (by simp [blank.1])
  have word : (strip t ++ blanks).takeWhile (!isBlank ·) = (strip t).takeWhile (!isBlank ·) := by
    rw [List.takeWhile_append, none, List.append_nil]
    split
    · rename_i all
      exact ((List.takeWhile_prefix _).eq_of_length all).symm
    · rfl
  have rest : strip ((strip t ++ blanks).dropWhile (!isBlank ·)) =
      strip ((strip t).dropWhile (!isBlank ·)) := by
    have all : blanks.dropWhile (!isBlank ·) = blanks := by
      have both := List.takeWhile_append_dropWhile (p := (!isBlank ·)) (l := blanks)
      rwa [none, List.nil_append] at both
    rw [List.dropWhile_append, all]
    split
    · rename_i empty
      rw [List.isEmpty_iff.mp empty, strip_eq_nil_iff.mpr blank]
      rfl
    · exact strip_append_blanks blank _
  have start : stripStart (strip t) = strip t := (strip_eq_self_iff.mp (strip_strip t)).1
  rw [cutWord, cutWord, start, whole, word, rest]

end DatafileMigration.Text
