import DatafileMigration.Proofs.Query.StrayLetter

namespace DatafileMigration

namespace Text

variable {start t : Text}

theorem startsWith_iff : startsWith start t ↔ start <+: t := by
  rw [startsWith, Option.isSome_iff_exists]
  exact exists_congr fun rest => dropPrefix?_eq_some_iff.trans eq_comm

end Text

namespace Query

/-- The marks that stand around quoted text. -/
def isQuote (c : Char) : Bool := c = '\'' || c = '"' || c = '\x60'

/-- What begins a comment. -/
def commentMark : Text := "--"

/-- What begins a placeholder. -/
def placeholderMark : Text := "\x7b\x7b"

/-- What ends a placeholder. -/
def placeholderEnd : Text := "\x7d\x7d"

variable {c q : Char} {t u body rest mark line w : Text} {depth : Int} {index : Nat}

theorem isQuote_of_isIdentifierChar (word : Text.isIdentifierChar c) : isQuote c = false :=
  Text.of_isIdentifierChar (p := fun c => isQuote c = false) (by decide +kernel) word

theorem skipPast_char (absent : c ∉ body) (rest : Text) :
    skipPast [c] (body ++ c :: rest) = rest := by
  induction body with
  | nil => simp [skipPast, Text.dropPrefix?]
  | cons b body ih =>
    rw [List.mem_cons, not_or] at absent
    have other : Text.dropPrefix? [c] (b :: (body ++ c :: rest)) = none := if_neg absent.1
    rw [List.cons_append, skipPast, other]
    exact ih absent.2

theorem skipPast_of_not_mem (absent : c ∉ t) : skipPast [c] t = [] := by
  induction t with
  | nil => rfl
  | cons b t ih =>
    rw [List.mem_cons, not_or] at absent
    have other : Text.dropPrefix? [c] (b :: t) = none := if_neg absent.1
    rw [skipPast, other]
    exact ih absent.2

/-- A mark is found behind a text if it does not occur before. -/
theorem skipPast_append (some : mark ≠ []) (first : ¬ mark <:+: body ++ mark.dropLast)
    (rest : Text) : skipPast mark (body ++ mark ++ rest) = rest := by
  induction body with
  | nil =>
    obtain ⟨c, mark, rfl⟩ := List.exists_cons_of_ne_nil some
    rw [List.nil_append, List.cons_append, skipPast, ← List.cons_append,
      Text.dropPrefix?_eq_some_iff.mpr rfl]
  | cons c body ih =>
    have later : Text.dropPrefix? mark (c :: (body ++ mark ++ rest)) = none := by
      refine Option.eq_none_iff_forall_ne_some.mpr fun behind found => first ?_
      have whole := Text.dropPrefix?_eq_some_iff.mp found
      have longer : c :: body ++ mark.dropLast <+: c :: (body ++ mark ++ rest) := by
        rw [List.cons_append, List.prefix_cons_inj, List.append_assoc, List.prefix_append_right_inj]
        exact (List.dropLast_prefix mark).trans (List.prefix_append _ _)
      refine (List.prefix_of_prefix_length_le ⟨behind, whole.symm⟩ longer ?_).isInfix
      rw [List.length_append, List.length_cons, List.length_dropLast]
      omega
    rw [List.cons_append, List.cons_append, skipPast, later]
    exact ih fun inside => first (inside.trans (List.suffix_cons c _).isInfix)

theorem skipAt?_cons (c : Char) (t : Text) :
    skipAt? (c :: t) =
      if isQuote c then some (skipPast [c] t)
      else if Text.startsWith commentMark (c :: t) then some (skipPast ['\n'] (c :: t))
      else if Text.startsWith placeholderMark (c :: t) then some (skipPast placeholderEnd (c :: t))
      else none := rfl

theorem skipAt?_quote (quote : isQuote q) (absent : q ∉ body) (rest : Text) :
    skipAt? (q :: (body ++ q :: rest)) = some rest := by
  rw [skipAt?_cons, if_pos quote, skipPast_char absent]

/-- A comment reaches to the end of its line. -/
theorem skipAt?_comment (t : Text) :
    skipAt? (commentMark ++ t) = some (skipPast ['\n'] (commentMark ++ t)) := by
  have begins : Text.startsWith commentMark (commentMark ++ t) :=
    Text.startsWith_iff.mpr (List.prefix_append _ _)
  exact (skipAt?_cons '-' ('-' :: t)).trans ((if_neg (by decide)).trans (if_pos begins))

theorem skipAt?_placeholder (first : ¬ placeholderEnd <:+: body ++ ['\x7d']) (rest : Text) :
    skipAt? (placeholderMark ++ body ++ placeholderEnd ++ rest) = some rest := by
  have shorter : ∀ t : Text, placeholderEnd <:+: '\x7b' :: t → placeholderEnd <:+: t :=
    fun t inside => (List.infix_cons_iff.mp inside).resolve_left fun begins =>
      absurd (List.cons_prefix_cons.mp begins).1 (by decide)
  have skipped := skipPast_append (by decide : placeholderEnd ≠ [])
    (fun inside => first (shorter _ (shorter _ inside)) :
      ¬ placeholderEnd <:+: placeholderMark ++ body ++ placeholderEnd.dropLast) rest
  have begins : Text.startsWith placeholderMark
      (placeholderMark ++ body ++ placeholderEnd ++ rest) := by
    rw [Text.startsWith_iff, List.append_assoc, List.append_assoc]
    exact List.prefix_append _ _
  have dashes : ¬ Text.startsWith commentMark
      (placeholderMark ++ body ++ placeholderEnd ++ rest) := by
    rw [Text.startsWith_iff]
    exact fun begins => absurd (List.cons_prefix_cons.mp begins).1 (by decide)
  refine (skipAt?_cons '\x7b' ('\x7b' :: (body ++ placeholderEnd ++ rest))).trans ?_
  exact (if_neg (by decide)).trans
    ((if_neg dashes).trans ((if_pos begins).trans (congrArg some skipped)))

/-- Nothing is skipped at a character that is no quote and begins no mark. -/
theorem skipAt?_other (quote : isQuote c = false) (comment : ¬ commentMark <+: c :: t)
    (placeholder : ¬ placeholderMark <+: c :: t) : skipAt? (c :: t) = none := by
  rw [← Text.startsWith_iff] at comment placeholder
  rw [skipAt?_cons, if_neg (Bool.eq_false_iff.mp quote), if_neg comment, if_neg placeholder]

/-- A mark of two characters does not begin where a separator stands behind its first. -/
theorem not_mark_append {m sep : Char} (none : ¬ [m, m] <+: c :: t) (other : sep ≠ m)
    (u : Text) : ¬ [m, m] <+: c :: (t ++ sep :: u) := by
  intro begins
  obtain ⟨first, second⟩ := List.cons_prefix_cons.mp begins
  cases t with
  | nil => exact other (List.cons_prefix_cons.mp second).1.symm
  | cons d t =>
    have same := (List.cons_prefix_cons.mp second).1
    have mark : [m] <+: d :: t := List.cons_prefix_cons.mpr ⟨same, List.nil_prefix⟩
    exact none (List.cons_prefix_cons.mpr ⟨first, mark⟩)

theorem keywordsFrom_nil (depth : Int) (index : Nat) : keywordsFrom depth index [] = .ok [] := by
  rw [keywordsFrom]
  rfl

theorem keywordsFrom_skip (skipped : skipAt? t = some rest) (depth : Int) (index : Nat) :
    keywordsFrom depth index t = keywordsFrom depth (index + (t.length - rest.length)) rest := by
  rw [keywordsFrom]
  split
  · rename_i other same
    cases skipped.symm.trans same
    rfl
  · rename_i none
    cases none.symm.trans skipped

/-- The branches at a character at which nothing is skipped. -/
theorem keywordsFrom_cons (none : skipAt? (c :: t) = none) (depth : Int) (index : Nat) :
    keywordsFrom depth index (c :: t) =
      if c = '(' then keywordsFrom (depth + 1) (index + 1) t
      else if c = ')' then keywordsFrom (depth - 1) (index + 1) t
      else if depth = 0 && (Text.isLetter c || c = '_') then
        if Text.isIdentifierStart c then
          let word := c :: t.takeWhile Text.isIdentifierChar
          let finish := index + word.length
          (keywordsFrom depth finish (t.dropWhile Text.isIdentifierChar)).map fun found =>
            { word := word.map Char.toUpper, start := index, finish } :: found
        else .error .strayLetter
      else keywordsFrom depth (index + 1) t := by
  rw [keywordsFrom]
  split
  · rename_i skipped
    cases none.symm.trans skipped
  · rfl

theorem keywordsFrom_opening (depth : Int) (index : Nat) (t : Text) :
    keywordsFrom depth index ('(' :: t) = keywordsFrom (depth + 1) (index + 1) t := by
  rw [keywordsFrom_cons (skipAt?_opening t), if_pos rfl]

theorem keywordsFrom_closing (depth : Int) (index : Nat) (t : Text) :
    keywordsFrom depth index (')' :: t) = keywordsFrom (depth - 1) (index + 1) t := by
  rw [keywordsFrom_cons (skipAt?_closing t), if_neg (by decide), if_pos rfl]

/-- Nothing is skipped at a word. -/
theorem skipAt?_word (start : Text.isIdentifierStart c) (t : Text) : skipAt? (c :: t) = none := by
  have word := Text.isIdentifierChar_of_start start
  have apart : ∀ m : Char, Text.isIdentifierChar m = false → ¬ [m, m] <+: c :: t :=
    fun m other begins =>
      Text.ne_of_isIdentifierChar word other (List.cons_prefix_cons.mp begins).1.symm
  exact skipAt?_other (isQuote_of_isIdentifierChar word) (apart '-' rfl) (apart '\x7b' rfl)

/-- A word at the top level is found as a whole. -/
theorem keywordsFrom_word (identifier : Text.isIdentifier w)
    (ends : ∀ d ∈ t.head?, Text.isIdentifierChar d = false) (index : Nat) :
    keywordsFrom 0 index (w ++ t) = (keywordsFrom 0 (index + w.length) t).map
      ({ word := w.map Char.toUpper, start := index, finish := index + w.length } :: ·) := by
  obtain ⟨c, w, rfl⟩ := List.exists_cons_of_ne_nil (Text.isIdentifier_ne_nil identifier)
  rw [Text.isIdentifier, Bool.and_eq_true, List.all_eq_true] at identifier
  obtain ⟨start, chars⟩ := identifier
  have apart : ∀ d : Char, ¬ Text.isIdentifierStart d → ¬ c = d :=
    fun d no same => no (same ▸ start)
  have letter : (Text.isLetter c || decide (c = '_')) = true := by
    simpa using Text.isLetter_or_underscore_of_start start
  have span : (w ++ t).takeWhile Text.isIdentifierChar = w ∧
      (w ++ t).dropWhile Text.isIdentifierChar = t := by
    cases t with
    | nil =>
      rw [List.append_nil, List.takeWhile_eq_self_iff, List.dropWhile_eq_nil_iff]
      exact ⟨chars, chars⟩
    | cons d t =>
      exact ⟨Text.takeWhile_of_stop chars (ends d rfl), Text.dropWhile_of_stop chars (ends d rfl)⟩
  rw [List.cons_append, keywordsFrom_cons (skipAt?_word start _), if_neg (apart '(' (by decide)),
    if_neg (apart ')' (by decide)), if_pos (by rw [letter]; rfl), if_pos start, span.1, span.2]

/-- Any other character is passed over. -/
theorem keywordsFrom_other (none : skipAt? (c :: t) = none) (opening : c ≠ '(') (closing : c ≠ ')')
    (passed : depth = 0 → Text.isLetter c = false ∧ c ≠ '_') (index : Nat) :
    keywordsFrom depth index (c :: t) = keywordsFrom depth (index + 1) t := by
  have noWord : ¬ (decide (depth = 0) && (Text.isLetter c || decide (c = '_'))) = true := by
    rw [Bool.and_eq_true, decide_eq_true_eq, Bool.or_eq_true, decide_eq_true_eq]
    rintro ⟨top, letter | underscore⟩
    · rw [(passed top).1] at letter
      cases letter
    · exact (passed top).2 underscore
  rw [keywordsFrom_cons none, if_neg opening, if_neg closing, if_neg noWord]

theorem keywordsFrom_blank (depth : Int) (index : Nat) (t : Text) :
    keywordsFrom depth index (' ' :: t) = keywordsFrom depth (index + 1) t :=
  keywordsFrom_other rfl (by decide) (by decide) (fun _ => ⟨by decide, by decide⟩) index

/-- A word with which a text begins. -/
theorem exists_word (start : Text.isIdentifierStart c) (t : Text) : ∃ w rest,
    Text.isIdentifier (c :: w) ∧ t = w ++ rest ∧
      ∀ d ∈ rest.head?, Text.isIdentifierChar d = false := by
  refine ⟨t.takeWhile Text.isIdentifierChar, t.dropWhile Text.isIdentifierChar, ?_,
    List.takeWhile_append_dropWhile.symm, fun d isHead => ?_⟩
  · rw [Text.isIdentifier, start, Bool.true_and, List.all_eq_true]
    exact fun d member => List.mem_takeWhile_imp member
  · have stops := List.head?_dropWhile_not Text.isIdentifierChar t
    rwa [Option.mem_def.mp isHead] at stops

theorem ascii_of_all (all : t.all (·.toNat < 128)) : ∀ c ∈ t, c.toNat < 128 := by
  simpa [List.all_eq_true] using all

theorem skipPast_suffix (mark t : Text) : skipPast mark t <:+ t := by
  induction t with
  | nil => exact List.suffix_refl _
  | cons d t ih =>
    rw [skipPast]
    split
    · rename_i rest found
      exact ⟨mark, (Text.dropPrefix?_eq_some_iff.mp found).symm⟩
    · exact ih.trans (List.suffix_cons d t)

theorem suffix_of_skipAt? (skipped : skipAt? t = some rest) : rest <:+ t := by
  cases t with
  | nil => cases skipped
  | cons d t =>
    rw [skipAt?_cons] at skipped
    split_ifs at skipped <;> cases skipped
    · exact (skipPast_suffix _ t).trans (List.suffix_cons d t)
    · exact skipPast_suffix _ _
    · exact skipPast_suffix _ _

/-- An ASCII letter begins a word. -/
theorem isIdentifierStart_of_letter (ascii : c.toNat < 128) (letter : Text.isLetter c) :
    Text.isIdentifierStart c := by
  rw [Text.isLetter, if_pos ascii] at letter
  rw [Text.isIdentifierStart, letter, Bool.true_or]

/-- Other ASCII characters are no letters. -/
theorem not_letter_of_ascii (ascii : c.toNat < 128) (start : Text.isIdentifierStart c = false) :
    Text.isLetter c = false ∧ c ≠ '_' := by
  refine ⟨Bool.eq_false_iff.mpr fun letter => ?_, ?_⟩
  · rw [isIdentifierStart_of_letter ascii letter] at start
    cases start
  · rintro rfl
    cases start

theorem not_strayLetter_of_ascii (ascii : ∀ c ∈ t, c.toNat < 128) : ¬ StrayLetter depth t := by
  intro stray
  induction stray with
  | here _ letter noStart =>
    exact noStart (isIdentifierStart_of_letter (ascii _ List.mem_cons_self) letter)
  | skip skipped _ ih => exact ih fun c member => ascii c ((suffix_of_skipAt? skipped).subset member)
  | opening _ ih | closing _ ih => exact ih fun c member => ascii c (List.mem_cons_of_mem _ member)
  | word _ _ _ ih =>
    exact ih fun c member =>
      ascii c (List.mem_cons_of_mem _ ((List.dropWhile_sublist _).subset member))
  | other _ _ _ _ _ ih => exact ih fun c member => ascii c (List.mem_cons_of_mem _ member)

/-- All words of a text of ASCII characters are found. -/
theorem exists_keywordsFrom (ascii : ∀ c ∈ t, c.toNat < 128) (depth : Int) (index : Nat) :
    ∃ found, keywordsFrom depth index t = .ok found := by
  cases found : keywordsFrom depth index t with
  | ok words => exact ⟨words, rfl⟩
  | error why => exact absurd (keywordsFrom_breaks.mp ⟨why, found⟩) (not_strayLetter_of_ascii ascii)

/-- In front of what follows, the search finds words of its own in a text, all of them known, and
goes on behind it below `last` parentheses. -/
def Finds (follows : Text → Prop) (known : Keyword → Prop) (depth last : Int) (index : Nat)
    (t : Text) : Prop :=
  ∃ words : List Keyword, (∀ k ∈ words, known k) ∧ ∀ behind, follows behind → ∀ more,
    keywordsFrom last (index + t.length) behind = .ok more →
      keywordsFrom depth index (t ++ behind) = .ok (words ++ more)

namespace Finds

variable {follows : Text → Prop} {known : Keyword → Prop} {inner last : Int} {stretch : Text}

theorem nil : Finds follows known depth depth index [] := ⟨[], by simp, fun _ _ _ ok => ok⟩

/-- A stretch without words of its own is passed over. -/
theorem behind_stretch (stretch : Text)
    (finds : Finds follows known inner last (index + stretch.length) t)
    (passed : ∀ behind, follows behind → keywordsFrom depth index (stretch ++ (t ++ behind)) =
      keywordsFrom inner (index + stretch.length) (t ++ behind)) :
    Finds follows known depth last index (stretch ++ t) := by
  obtain ⟨words, isKnown, found⟩ := finds
  refine ⟨words, isKnown, fun behind isBehind more ok => ?_⟩
  rw [List.length_append, ← Nat.add_assoc] at ok
  rw [List.append_assoc, passed behind isBehind]
  exact found behind isBehind more ok

theorem behind_skipped (finds : Finds follows known depth last (index + stretch.length) t)
    (skipped : ∀ u, skipAt? (stretch ++ u) = some u) :
    Finds follows known depth last index (stretch ++ t) := by
  refine finds.behind_stretch stretch fun behind _ => ?_
  rw [keywordsFrom_skip (skipped _), List.length_append, Nat.add_sub_cancel]

theorem behind_quoted (quote : isQuote q) (absent : q ∉ body)
    (finds : Finds follows known depth last (index + (q :: (body ++ [q])).length) t) :
    Finds follows known depth last index (q :: (body ++ q :: t)) := by
  have skipped := finds.behind_skipped fun u => by simpa using skipAt?_quote quote absent u
  simpa using skipped

theorem behind_opening (finds : Finds follows known (depth + 1) last (index + 1) t) :
    Finds follows known depth last index ('(' :: t) :=
  finds.behind_stretch ['('] fun _ _ => keywordsFrom_opening depth index _

theorem behind_closing (finds : Finds follows known (depth - 1) last (index + 1) t) :
    Finds follows known depth last index (')' :: t) :=
  finds.behind_stretch [')'] fun _ _ => keywordsFrom_closing depth index _

theorem behind_other (finds : Finds follows known depth last (index + 1) t)
    (none : ∀ behind, follows behind → skipAt? (c :: (t ++ behind)) = none)
    (opening : c ≠ '(') (closing : c ≠ ')')
    (passed : depth = 0 → Text.isLetter c = false ∧ c ≠ '_') :
    Finds follows known depth last index (c :: t) :=
  finds.behind_stretch [c] fun behind isBehind =>
    keywordsFrom_other (none behind isBehind) opening closing passed index

theorem behind_word (finds : Finds follows known 0 last (index + w.length) t)
    (identifier : Text.isIdentifier w)
    (ends : ∀ behind, follows behind →
      ∀ d ∈ (t ++ behind).head?, Text.isIdentifierChar d = false)
    (isKnown : known ⟨w.map Char.toUpper, index, index + w.length⟩) :
    Finds follows known 0 last index (w ++ t) := by
  obtain ⟨words, areKnown, found⟩ := finds
  refine ⟨_ :: words, List.forall_mem_cons.mpr ⟨isKnown, areKnown⟩, fun behind isBehind more ok => ?_⟩
  rw [List.length_append, ← Nat.add_assoc] at ok
  rw [List.append_assoc, keywordsFrom_word identifier (ends behind isBehind),
    found behind isBehind more ok]
  rfl

end Finds

variable {k : Keyword} {words : List Keyword}

theorem selectList?_of_keywords {sql : Text} (read : keywords sql = .ok words) :
    selectList? sql = .ok ((selectBounds? words).map fun bounds =>
      Text.strip ((sql.take bounds.2).drop bounds.1)) := by
  rw [selectList?, read]
  rfl

theorem selectBounds?_select (select : Keyword.is "SELECT" k) : selectBounds? (k :: words) =
    (words.find? (Keyword.is "FROM")).map fun source => (k.finish, source.start) := by
  have behind : ((k :: words).dropWhile (!Keyword.is "SELECT" ·)).drop 1 = words := by
    rw [List.dropWhile_cons_of_neg (by simpa using select)]
    rfl
  rw [selectBounds?, List.find?_cons_of_pos select, behind]
  change (words.find? (Keyword.is "FROM")).bind (fun source => some (k.finish, source.start)) = _
  cases words.find? (Keyword.is "FROM") <;> rfl

theorem selectBounds?_other (other : ¬ Keyword.is "SELECT" k) :
    selectBounds? (k :: words) = selectBounds? words := by
  have behind : (k :: words).dropWhile (!Keyword.is "SELECT" ·) =
      words.dropWhile (!Keyword.is "SELECT" ·) := List.dropWhile_cons_of_pos (by simpa using other)
  rw [selectBounds?, List.find?_cons_of_neg other, behind, selectBounds?]

end Query

end DatafileMigration
