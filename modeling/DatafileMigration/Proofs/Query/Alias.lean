import DatafileMigration.Proofs.Text.Word
import DatafileMigration.Query.OutputColumns

namespace DatafileMigration.Query

/-- An expression with its alias. -/
def aliased (item : Text × Text) : Text := item.1 ++ " AS " ++ item.2

variable {c : Char} {a e r t more : Text}

theorem isIdentifierChar_foldCase (valid : Text.isIdentifierChar c) :
    Text.isIdentifierChar (foldCase c) :=
  Text.of_isIdentifierChar (p := fun c => Text.isIdentifierChar (foldCase c)) (by decide +kernel)
    valid

theorem isIdentifierStart_foldCase (start : Text.isIdentifierStart c) :
    Text.isIdentifierStart (foldCase c) :=
  Text.of_isIdentifierChar
    (p := fun c => Text.isIdentifierStart c → Text.isIdentifierStart (foldCase c))
    (by decide +kernel) (Text.isIdentifierChar_of_start start) start

theorem dropQuote_of_isIdentifier (identifier : Text.isIdentifier a) : dropQuote a = a := by
  obtain ⟨c, a, rfl⟩ := List.exists_cons_of_ne_nil (Text.isIdentifier_ne_nil identifier)
  have valid := Text.isIdentifierChar_of_mem identifier c List.mem_cons_self
  have tick : c ≠ '\x60' := Text.ne_of_isIdentifierChar valid (by decide)
  have double : c ≠ '"' := Text.ne_of_isIdentifierChar valid (by decide)
  exact if_neg (by simp [tick, double])

/-- A mark that is dropped stands in front of what follows a blank. -/
theorem exists_dropQuote (t a : Text) : ∃ front, dropQuote (t ++ ' ' :: a) = front ++ ' ' :: a := by
  cases t with
  | nil => exact ⟨[], rfl⟩
  | cons c t =>
    rw [List.cons_append, dropQuote]
    split
    · exact ⟨t, rfl⟩
    · exact ⟨c :: t, rfl⟩

theorem finalName?_of_isIdentifier (identifier : Text.isIdentifier a) :
    finalName? foldCase a = some a := by
  have valid : ∀ c ∈ a, Text.isIdentifierChar (foldCase c) := fun c member =>
    isIdentifierChar_foldCase (Text.isIdentifierChar_of_mem identifier c member)
  have name := List.takeWhile_eq_self_iff.mpr valid
  have rest := List.dropWhile_eq_nil_iff.mpr valid
  rw [finalName?, dropQuote_of_isIdentifier identifier, name, rest]
  obtain ⟨c, a, rfl⟩ := List.exists_cons_of_ne_nil (Text.isIdentifier_ne_nil identifier)
  rw [Text.isIdentifier, Bool.and_eq_true] at identifier
  exact if_pos (Bool.and_eq_true_iff.mpr ⟨isIdentifierStart_foldCase identifier.1, rfl⟩)

/-- What stands in front of a blank and a name is no name that reaches to the end. -/
theorem finalName?_behind_blank (identifier : Text.isIdentifier a) (t : Text) :
    finalName? foldCase (t ++ ' ' :: a) = none := by
  obtain ⟨front, body⟩ := exists_dropQuote t a
  have stops : ∀ front : Text, (front ++ ' ' :: a).dropWhile
      (fun c => Text.isIdentifierChar (foldCase c)) =
        front.dropWhile (fun c => Text.isIdentifierChar (foldCase c)) ++ ' ' :: a := by
    intro front
    rw [List.dropWhile_append]
    split
    · rename_i nothing
      rw [List.isEmpty_iff.mp nothing]
      exact List.dropWhile_cons_of_neg (by decide)
    · rfl
  obtain ⟨back, rest⟩ := exists_dropQuote
    (front.dropWhile fun c => Text.isIdentifierChar (foldCase c)) a
  have filled : Text.isBlankText (back ++ ' ' :: a) = false := by
    obtain ⟨c, a, rfl⟩ := List.exists_cons_of_ne_nil (Text.isIdentifier_ne_nil identifier)
    have valid := Text.isIdentifierChar_of_mem identifier c List.mem_cons_self
    have solid := Text.isBlank_of_isIdentifierChar valid
    rw [Text.isBlankText, List.all_eq_false]
    exact ⟨c, by simp, by simp [solid]⟩
  rw [finalName?, body, stops, rest, filled]
  split
  · rfl
  · rw [Bool.and_false]
    rfl

/-- Nothing but blanks may stand in front of a name that reaches to the end. -/
theorem finalName?_append (identifier : Text.isIdentifier a) (r : Text) :
    finalName? foldCase (Text.stripStart (r ++ ' ' :: a)) =
      if Text.isBlankText r then some a else none := by
  by_cases blank : Text.isBlankText r
  · have start := (Text.strip_eq_self_iff.mp (Text.strip_of_isIdentifier identifier)).1
    have name : Text.stripStart (r ++ ' ' :: a) = a := by
      rw [Text.stripStart_append_blanks blank]
      exact start
    rw [name, finalName?_of_isIdentifier identifier, if_pos blank]
  · have longer := Text.stripStart_append (Bool.eq_false_iff.mpr blank) (' ' :: a)
    rw [longer, finalName?_behind_blank identifier, if_neg blank]

theorem exists_dropWord? {word : Text} (found : dropWord? word t = some r) :
    ∃ front, t = front ++ r := by
  rw [dropWord?] at found
  split at found
  · cases found
    exact ⟨_, (List.take_append_drop word.length t).symm⟩
  · cases found

/-- What the name is read from behind an `AS`. -/
theorem of_aliasHere? (found : aliasHere? t = some r) : ∃ front d rest,
    t = front ++ d :: rest ∧ Text.isBlank d ∧
      finalName? foldCase (Text.stripStart (d :: rest)) = some r := by
  cases t with
  | nil => cases found
  | cons c t =>
    by_cases blank : Text.isBlank c
    · simp only [aliasHere?, blank, Bool.not_true, Bool.false_eq_true, if_false] at found
      obtain ⟨rest, word, named⟩ := Option.bind_eq_some_iff.mp found
      obtain ⟨front, whole⟩ := exists_dropWord? word
      obtain ⟨blanks, -, start⟩ := Text.exists_append_stripStart (c :: t)
      rw [whole, ← List.append_assoc] at start
      cases rest with
      | nil => cases named
      | cons d rest =>
        by_cases blank' : Text.isBlank d
        · exact ⟨_, d, rest, start, blank', by simpa [blank'] using named⟩
        · simp [blank'] at named
    · simp [aliasHere?, blank] at found

/-- The `AS` in front of the name that ends a text is the only one that counts. -/
theorem aliasHere?_append (identifier : Text.isIdentifier a)
    (found : aliasHere? (t ++ ' ' :: a) = some r) : r = a := by
  obtain ⟨front, d, rest, whole, blank, named⟩ := of_aliasHere? found
  obtain ⟨between, behind⟩ : ∃ between, d :: rest = between ++ ' ' :: a := by
    have long : d :: rest <:+ t ++ ' ' :: a := ⟨front, whole.symm⟩
    rcases List.suffix_or_suffix_of_suffix long (List.suffix_append t (' ' :: a)) with
      short | ⟨between, behind⟩
    · rcases List.suffix_cons_iff.mp short with same | inside
      · exact ⟨[], same⟩
      · have valid := Text.isIdentifierChar_of_mem identifier d (inside.subset List.mem_cons_self)
        rw [Text.isBlank_of_isIdentifierChar valid] at blank
        cases blank
    · exact ⟨between, behind.symm⟩
  rw [behind, finalName?_append identifier] at named
  split at named
  · exact (Option.some.inj named).symm
  · cases named

theorem alias?_aliased (identifier : Text.isIdentifier a) (e : Text) :
    alias? (aliased (e, a)) = some a := by
  induction e with
  | nil =>
    have here : aliasHere? (" AS " ++ a) = some a := by
      have name := finalName?_append identifier []
      exact name
    have first : alias? (aliased ([], a)) =
        (aliasHere? (" AS " ++ a) <|> alias? ("AS " ++ a)) := rfl
    rw [first, here]
    rfl
  | cons c e ih =>
    have next : alias? (aliased (c :: e, a)) =
        (aliasHere? (aliased (c :: e, a)) <|> alias? (aliased (e, a))) := rfl
    rw [next, ih]
    cases found : aliasHere? (aliased (c :: e, a)) with
    | none => rfl
    | some r =>
      have whole : aliased (c :: e, a) = (c :: e ++ " AS") ++ ' ' :: a := by simp [aliased]
      rw [whole] at found
      rw [aliasHere?_append identifier found]
      rfl

/-- Blanks in front of an aliased expression are all that stripping takes away. -/
theorem strip_aliased (identifier : Text.isIdentifier a) (filled : Text.isBlankText e = false) :
    Text.strip (aliased (e, a)) = aliased (Text.stripStart e, a) := by
  have start : Text.stripStart (aliased (e, a)) = aliased (Text.stripStart e, a) := by
    rw [aliased, List.append_assoc, Text.stripStart_append filled, ← List.append_assoc]
    rfl
  have whole := (Text.strip_eq_self_iff.mp (Text.strip_of_isIdentifier identifier)).2
  rw [Text.strip, start]
  exact Text.stripEnd_append_self whole (Text.isIdentifier_ne_nil identifier) _

theorem isIdentifierChar_of_aliased {before : Text} (identifier : Text.isIdentifier a)
    (ends : aliased (e, a) = before ++ [c]) : Text.isIdentifierChar c := by
  have last := congrArg List.getLast? ends
  rw [aliased, List.getLast?_append_of_ne_nil _ (Text.isIdentifier_ne_nil identifier),
    List.getLast?_concat] at last
  exact Text.isIdentifierChar_of_mem identifier c (List.mem_of_getLast? last)

theorem columnName?_aliased (identifier : Text.isIdentifier a) (position : Nat) (e : Text) :
    columnName? position (aliased (e, a)) = some a := by
  have noStar : ∀ before : Text, aliased (e, a) ≠ before ++ ['*'] := fun before ends =>
    absurd (isIdentifierChar_of_aliased identifier ends) (by decide)
  have noPoint : Text.endsWith ".*" (aliased (e, a)) = false := by
    rw [Text.endsWith, Option.isSome_eq_false_iff, Option.isNone_iff_eq_none,
      Option.eq_none_iff_forall_ne_some]
    intro before found
    refine noStar (before ++ ['.']) ((Text.dropSuffix?_eq_some_iff.mp found).trans ?_)
    simp
  rw [columnName?, noPoint, if_neg (by simpa using noStar []), alias?_aliased identifier]

/-- The names that are kept of a list that repeats none. -/
theorem foldl_names {known names : List Text} (distinct : (known ++ names).Nodup) :
    names.foldl (fun known name => if known.contains name then known else known ++ [name]) known =
      known ++ names := by
  induction names generalizing known with
  | nil => rw [List.foldl_nil, List.append_nil]
  | cons name names ih =>
    have new : name ∉ known := fun member =>
      (List.nodup_append.mp distinct).2.2 name member name List.mem_cons_self rfl
    rw [List.foldl_cons, if_neg (by rwa [List.contains_iff_mem]), ih (by simpa using distinct),
      List.append_assoc, List.singleton_append]

/-- A word without blanks is found in front of a blank or not at all. -/
theorem exists_dropWord?_append {word : Text} (solid : ' ' ∉ word)
    (found : dropWord? word (t ++ ' ' :: more) = some r) : ∃ front rest, t = front ++ rest ∧
      front.map foldCase = word ∧ r = rest ++ ' ' :: more := by
  rw [dropWord?] at found
  split at found
  · rename_i same
    cases found
    have long : word.length ≤ t.length := by
      by_contra short
      obtain ⟨k, positive⟩ : ∃ k, word.length - t.length = k + 1 :=
        Nat.exists_eq_add_one_of_ne_zero (by omega)
      have between : ' ' ∈ (t ++ ' ' :: more).take word.length := by
        rw [List.take_append, positive, List.take_succ_cons]
        exact List.mem_append_right _ List.mem_cons_self
      have folded := List.mem_map_of_mem (f := foldCase) between
      rw [same] at folded
      exact solid folded
    rw [List.take_append_of_le_length long] at same
    exact ⟨_, _, (List.take_append_drop word.length t).symm, same,
      List.drop_append_of_le_length long⟩
  · cases found

theorem dropDistinct_of_dropWord? (found : dropWord? "distinct" t = some (c :: r)) :
    dropDistinct t = if Text.isBlank c then Text.stripStart r else t := by
  rw [dropDistinct, found]

theorem foldCase_of_ascii (ascii : c.toNat < 128) : foldCase c = c.toLower :=
  Text.of_ascii (p := fun c => foldCase c = c.toLower) (by decide +kernel) ascii

theorem isIdentifierChar_of_foldCase (ascii : c.toNat < 128)
    (valid : Text.isIdentifierChar (foldCase c)) : Text.isIdentifierChar c :=
  Text.of_ascii (p := fun c => Text.isIdentifierChar (foldCase c) → Text.isIdentifierChar c)
    (by decide +kernel) ascii valid

/-- A leading `DISTINCT` takes away no mark of the splitter, and not the whole expression. -/
theorem exists_dropDistinct (ascii : ∀ c ∈ e, c.toNat < 128) (filled : Text.isBlankText e = false)
    (other : (Text.strip e).map Char.toLower ≠ "distinct".toList) (more : Text) :
    ∃ front rest, e = front ++ rest ∧ (∀ c ∈ front, c ∉ Text.splitMarks) ∧
      Text.isBlankText rest = false ∧
      dropDistinct (Text.stripStart (e ++ ' ' :: more)) =
        Text.stripStart (rest ++ ' ' :: more) := by
  have start := Text.stripStart_append filled (' ' :: more)
  by_cases same : dropDistinct (Text.stripStart (e ++ ' ' :: more)) =
      Text.stripStart (e ++ ' ' :: more)
  · exact ⟨[], e, rfl, by simp, filled, same⟩
  rw [start] at same ⊢
  cases found : dropWord? "distinct" (Text.stripStart e ++ ' ' :: more) with
  | none =>
    rw [dropDistinct, found] at same
    exact absurd rfl same
  | some r =>
  obtain ⟨word, rest, cut, folded, rfl⟩ := exists_dropWord?_append (by decide) found
  obtain ⟨blanks, blank, whole⟩ := Text.exists_append_stripStart e
  rw [cut] at whole
  have asciiWord : ∀ c ∈ word, c.toNat < 128 := fun c member =>
    ascii c (by rw [whole]; simp [member])
  have valid : ∀ c ∈ word, Text.isIdentifierChar c := by
    have letters : ∀ c ∈ "distinct".toList, Text.isIdentifierChar c :=
      List.all_eq_true.mp (by decide)
    rw [← folded] at letters
    exact fun c member => isIdentifierChar_of_foldCase (asciiWord c member)
      (letters _ (List.mem_map_of_mem member))
  have small : word.map Char.toLower = "distinct".toList := by
    rw [← folded]
    exact List.map_congr_left fun c member => (foldCase_of_ascii (asciiWord c member)).symm
  have left : Text.isBlankText rest = false := by
    refine Bool.eq_false_iff.mpr fun blank' => other ?_
    have stripped : Text.strip e = word := by
      rw [whole, ← List.append_assoc, Text.strip_between_blanks blank blank']
      exact Text.strip_of_solid fun c member => Text.isBlank_of_isIdentifierChar (valid c member)
    rw [stripped, small]
  cases rest with
  | nil => cases left
  | cons c rest =>
    by_cases separated : Text.isBlank c
    · refine ⟨blanks ++ word ++ [c], rest, by rw [whole]; simp, ?_, ?_, ?_⟩
      · have gap : Text.isBlankText [c] := by simpa [Text.isBlankText] using separated
        simp only [List.forall_mem_append]
        exact ⟨⟨Text.plain_of_blank blank, fun c member =>
          Text.not_mem_splitMarks_of_isIdentifierChar (valid c member)⟩, Text.plain_of_blank gap⟩
      · simpa [Text.isBlankText, separated] using left
      · exact (dropDistinct_of_dropWord? found).trans (if_pos separated)
    · have unchanged := (dropDistinct_of_dropWord? found).trans (if_neg separated)
      exact absurd unchanged same

end DatafileMigration.Query
