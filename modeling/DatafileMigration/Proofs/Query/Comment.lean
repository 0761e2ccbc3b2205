import DatafileMigration.Proofs.Query.Keywords

namespace DatafileMigration.Query

/-- The same word further on. -/
def Keyword.shift (n : Nat) (k : Keyword) : Keyword :=
  { k with start := k.start + n, finish := k.finish + n }

/-- No quote, comment or placeholder is open behind a text where `rest` follows. -/
inductive Outside (rest : Text) : Text → Prop
  | nil : Outside rest []
  | quoted {q body front} : isQuote q → q ∉ body → Outside rest front →
      Outside rest (q :: (body ++ q :: front))
  | comment {line front} : '\n' ∉ line → Outside rest front →
      Outside rest ('-' :: '-' :: (line ++ '\n' :: front))
  | placeholder {body front} : ¬ placeholderEnd <:+: body ++ ['\x7d'] → Outside rest front →
      Outside rest ('\x7b' :: '\x7b' :: (body ++ '\x7d' :: '\x7d' :: front))
  | other {c front} : isQuote c = false → ¬ commentMark <+: c :: (front ++ rest) →
      ¬ placeholderMark <+: c :: (front ++ rest) → Outside rest front → Outside rest (c :: front)

/-- A comment between two texts, which reaches to the end of its line. -/
structure IsComment (front comment after : Text) : Prop where
  outside : Outside (comment ++ after) front
  mark : commentMark <+: comment
  line : '\n' ∉ comment
  ends : ∀ c ∈ after.head?, c = '\n'

variable {front comment after rest behind t w : Text} {depth : Int} {index : Nat} {c : Char}

/-- The words of a text are found at places that go with the place where it begins. -/
theorem keywordsFrom_shift (n : Nat) : keywordsFrom depth (index + n) t =
    (keywordsFrom depth index t).map (List.map (Keyword.shift n)) := by
  fun_induction keywordsFrom depth index t with
  | case1 depth index t rest skipped ih =>
    rw [keywordsFrom_skip skipped, Nat.add_right_comm, ih]
  | case2 depth index =>
    rw [keywordsFrom_nil]
    rfl
  | case3 depth index rest none ih => rw [keywordsFrom_opening, Nat.add_right_comm, ih]
  | case4 depth index rest none _ ih => rw [keywordsFrom_closing, Nat.add_right_comm, ih]
  | case5 depth index c rest none noOpening noClosing atWord start word finish ih =>
    have place : index + n + word.length = finish + n := Nat.add_right_comm index n word.length
    rw [keywordsFrom_cons none, if_neg noOpening, if_neg noClosing, if_pos atWord, if_pos start]
    simp only [word] at place
    simp only [place, ih]
    cases keywordsFrom depth finish (rest.dropWhile Text.isIdentifierChar) <;> rfl
  | case6 depth index c rest none noOpening noClosing atWord noStart =>
    rw [keywordsFrom_cons none, if_neg noOpening, if_neg noClosing, if_pos atWord, if_neg noStart]
    rfl
  | case7 depth index c rest none noOpening noClosing passed ih =>
    rw [keywordsFrom_cons none, if_neg noOpening, if_neg noClosing, if_neg passed,
      Nat.add_right_comm, ih]

/-- What can follow a text in place of `rest`: the same, or anything behind a blank. -/
def Follows (rest behind : Text) : Prop := behind = rest ∨ ∃ after, behind = ' ' :: after

namespace Outside

/-- What begins no mark of two characters begins none either where a blank follows. -/
theorem not_mark {m : Char} (none : ¬ [m, m] <+: c :: (front ++ rest)) (other : ' ' ≠ m)
    (follows : Follows rest behind) : ¬ [m, m] <+: c :: (front ++ behind) := by
  obtain rfl | ⟨after, rfl⟩ := follows
  · exact none
  · refine not_mark_append (fun begins => none (begins.trans ?_)) other after
    exact List.prefix_append (c :: front) rest

theorem ends_of_follows (mark : commentMark <+: rest) (follows : Follows rest behind) :
    ∀ d ∈ behind.head?, Text.isIdentifierChar d = false := by
  obtain rfl | ⟨after, rfl⟩ := follows
  · obtain ⟨line, rfl⟩ := mark
    rintro _ ⟨⟩
    rfl
  · rintro _ ⟨⟩
    rfl

/-- Nothing is open behind a part of a word. -/
theorem behind_word (outside : Outside rest (c :: front)) (word : Text.isIdentifierChar c) :
    Outside rest front := by
  cases outside with
  | quoted quote =>
    rw [isQuote_of_isIdentifierChar word] at quote
    cases quote
  | comment => exact absurd word (by decide)
  | placeholder => exact absurd word (by decide)
  | other _ _ _ outside => exact outside

theorem of_word_append (outside : Outside rest (w ++ front))
    (word : ∀ c ∈ w, Text.isIdentifierChar c) : Outside rest front := by
  induction w with
  | nil => exact outside
  | cons c w ih =>
    obtain ⟨first, others⟩ := List.forall_mem_cons.mp word
    exact ih (behind_word outside first) others

/-- Nothing is open behind a text that opens nothing. -/
theorem of_plain (plain : front.all fun c => !isQuote c && c != '-' && c != '\x7b') :
    Outside rest front := by
  induction front with
  | nil => exact .nil
  | cons c front ih =>
    simp only [List.all_cons, Bool.and_eq_true, Bool.not_eq_true', bne_iff_ne] at plain
    obtain ⟨⟨⟨quote, dash⟩, brace⟩, more⟩ := plain
    exact .other quote (fun begins => dash (List.cons_prefix_cons.mp begins).1.symm)
      (fun begins => brace (List.cons_prefix_cons.mp begins).1.symm) (ih more)

end Outside

/-- Behind such a text, the search goes on with what follows, with words found that lie in the
text. -/
theorem Outside.finds {bound : Nat} (outside : Outside rest front) (mark : commentMark <+: rest)
    (ascii : ∀ c ∈ front, c.toNat < 128) (depth : Int) (index : Nat)
    (inside : index + front.length ≤ bound) :
    ∃ last, Finds (Follows rest) (fun k => k.start ≤ k.finish ∧ k.finish ≤ bound) depth last index
      front := by
  -- A word is passed over as a whole, so that the induction is on the length of the text.
  induction length : front.length using Nat.strong_induction_on generalizing front depth index with
  | _ n ih =>
  subst length
  have shorter : ∀ (stretch : Text) {u : Text}, front = stretch ++ u → stretch ≠ [] →
      Outside rest u → ∀ depth, ∃ last, Finds (Follows rest)
        (fun k => k.start ≤ k.finish ∧ k.finish ≤ bound) depth last (index + stretch.length) u := by
    rintro stretch u rfl some outside depth
    have positive := List.length_pos_iff.mpr some
    rw [List.length_append] at ih inside
    exact ih u.length (by omega) outside (fun c member => ascii c (List.mem_append_right _ member))
      depth _ (by omega) rfl
  cases outside with
  | nil => exact ⟨depth, .nil⟩
  | @quoted q body front quote absent outside =>
    obtain ⟨last, finds⟩ := shorter (q :: (body ++ [q])) (by simp) (by simp) outside depth
    exact ⟨last, .behind_quoted quote absent finds⟩
  | @comment line front absent outside =>
    obtain ⟨last, finds⟩ := shorter ('-' :: '-' :: (line ++ ['\n'])) (by simp) (by simp) outside depth
    have absent' : '\n' ∉ '-' :: '-' :: line := by simp [absent]
    have passed := finds.behind_skipped fun u => by
      have whole : '-' :: '-' :: (line ++ ['\n']) ++ u = '-' :: '-' :: line ++ '\n' :: u := by simp
      rw [whole]
      exact (skipAt?_comment (line ++ '\n' :: u)).trans (congrArg some (skipPast_char absent' u))
    exact ⟨last, by simpa using passed⟩
  | @placeholder body front first outside =>
    obtain ⟨last, finds⟩ := shorter (placeholderMark ++ body ++ placeholderEnd)
      (by simp [placeholderMark, placeholderEnd]) (by simp [placeholderMark]) outside depth
    have passed := finds.behind_skipped fun u => skipAt?_placeholder first u
    exact ⟨last, by simpa [placeholderMark, placeholderEnd] using passed⟩
  | @other c front quote comment placeholder outside =>
    have first := ascii c List.mem_cons_self
    by_cases opening : c = '('
    · subst opening
      obtain ⟨last, finds⟩ := shorter ['('] rfl (by simp) outside (depth + 1)
      exact ⟨last, finds.behind_opening⟩
    by_cases closing : c = ')'
    · subst closing
      obtain ⟨last, finds⟩ := shorter [')'] rfl (by simp) outside (depth - 1)
      exact ⟨last, finds.behind_closing⟩
    by_cases top : depth = 0 ∧ Text.isIdentifierStart c
    · obtain ⟨rfl, start⟩ := top
      obtain ⟨w, front, identifier, rfl, ends⟩ := exists_word start front
      have word := Text.isIdentifierChar_of_mem identifier
      have behind := outside.of_word_append (List.forall_mem_cons.mp word).2
      obtain ⟨last, finds⟩ := shorter (c :: w) rfl (by simp) behind 0
      refine ⟨last, finds.behind_word identifier (fun behind follows => ?_)
        ⟨Nat.le_add_right _ _, ?_⟩⟩
      · cases front with
        | nil => exact ends_of_follows mark follows
        | cons d front => exact ends
      · rw [List.length_cons, List.length_append] at inside
        change index + (w.length + 1) ≤ bound
        omega
    · rw [not_and, Bool.not_eq_true] at top
      obtain ⟨last, finds⟩ := shorter [c] rfl (by simp) outside depth
      refine ⟨last, finds.behind_other (fun behind follows => ?_) opening closing
        fun zero => not_letter_of_ascii first (top zero)⟩
      exact skipAt?_other quote (not_mark comment (by decide) follows)
        (not_mark placeholder (by decide) follows)

variable {words found : List Keyword} {mid : Text}

/-- The first `SELECT` stands behind some words, or they hold it, with a `FROM` or without. -/
theorem selectBounds?_append (words : List Keyword) :
    (∀ more, selectBounds? (words ++ more) = selectBounds? more) ∨
    ∃ select ∈ words,
      (∃ source ∈ words, ∀ more,
        selectBounds? (words ++ more) = some (select.finish, source.start)) ∨
      ∀ more, selectBounds? (words ++ more) =
        (more.find? (Keyword.is "FROM")).map fun source => (select.finish, source.start) := by
  induction words with
  | nil => exact Or.inl fun _ => rfl
  | cons k words ih =>
    by_cases select : Keyword.is "SELECT" k
    · refine Or.inr ⟨k, List.mem_cons_self, ?_⟩
      cases source : words.find? (Keyword.is "FROM") with
      | some from' =>
        have member := List.mem_cons_of_mem k (List.mem_of_find?_eq_some source)
        refine Or.inl ⟨from', member, fun more => ?_⟩
        rw [List.cons_append, selectBounds?_select select, List.find?_append, source]
        rfl
      | none =>
        refine Or.inr fun more => ?_
        rw [List.cons_append, selectBounds?_select select, List.find?_append, source]
        rfl
    · have skip : ∀ more, selectBounds? (k :: words ++ more) = selectBounds? (words ++ more) :=
        fun more => selectBounds?_other select
      rcases ih with behind | ⟨select', member, ⟨source, member', inside⟩ | across⟩
      · exact Or.inl fun more => (skip more).trans (behind more)
      · exact Or.inr ⟨select', List.mem_cons_of_mem k member, Or.inl
          ⟨source, List.mem_cons_of_mem k member', fun more => (skip more).trans (inside more)⟩⟩
      · exact Or.inr ⟨select', List.mem_cons_of_mem k member, Or.inr
          fun more => (skip more).trans (across more)⟩

theorem find?_shift (word : Text) (n : Nat) (words : List Keyword) :
    (words.map (Keyword.shift n)).find? (Keyword.is word) =
      (words.find? (Keyword.is word)).map (Keyword.shift n) := List.find?_map

theorem selectBounds?_shift (n : Nat) (words : List Keyword) :
    selectBounds? (words.map (Keyword.shift n)) =
      (selectBounds? words).map fun bounds => (bounds.1 + n, bounds.2 + n) := by
  induction words with
  | nil => rfl
  | cons k words ih =>
    by_cases select : Keyword.is "SELECT" k
    · rw [List.map_cons, selectBounds?_select (k := k.shift n) select, find?_shift,
        selectBounds?_select select, Option.map_map, Option.map_map]
      rfl
    · rw [List.map_cons, selectBounds?_other (k := k.shift n) select, ih,
        selectBounds?_other select]

/-- What stands between two words of a text is the select list of every query in which the words are
found, or it goes over what stands in the middle. -/
theorem selectList?_mid (words found : List Keyword) (front after : Text)
    (bounds : ∀ k ∈ words, k.start ≤ k.finish ∧ k.finish ≤ front.length) :
    (∃ list, ∀ mid, keywords (front ++ mid ++ after) =
        .ok (words ++ found.map (Keyword.shift (front.length + mid.length))) →
          selectList? (front ++ mid ++ after) = .ok list) ∨
    ∃ before x y behind, front = before ++ x ∧ after = y ++ behind ∧ ∀ mid,
      keywords (front ++ mid ++ after) =
        .ok (words ++ found.map (Keyword.shift (front.length + mid.length))) →
          selectList? (front ++ mid ++ after) = .ok (some (Text.strip (x ++ mid ++ y))) := by
  have length (mid : Text) : (front ++ mid).length = front.length + mid.length := List.length_append
  rcases selectBounds?_append words with
    behind | ⟨select, member, ⟨source, member', inside⟩ | across⟩
  · refine Or.inl ⟨(selectBounds? found).map fun bounds =>
      Text.strip ((after.take bounds.2).drop bounds.1), fun mid read => ?_⟩
    have cut (start finish : Nat) : ((front ++ mid ++ after).take
        (finish + (front.length + mid.length))).drop (start + (front.length + mid.length)) =
          (after.take finish).drop start := by
      rw [← length, Nat.add_comm finish, List.take_length_add_append, Nat.add_comm start,
        List.drop_length_add_append]
    rw [selectList?_of_keywords read, behind, selectBounds?_shift, Option.map_map]
    exact congrArg Except.ok (congrArg (fun f => Option.map f (selectBounds? found))
      (funext fun bounds => congrArg Text.strip (cut bounds.1 bounds.2)))
  · refine Or.inl ⟨some (Text.strip ((front.take source.start).drop select.finish)),
      fun mid read => ?_⟩
    obtain ⟨order, short⟩ := bounds source member'
    rw [selectList?_of_keywords read, inside, List.append_assoc, Option.map_some,
      List.take_append_of_le_length (order.trans short)]
  · cases here : found.find? (Keyword.is "FROM") with
    | none =>
      refine Or.inl ⟨none, fun mid read => ?_⟩
      rw [selectList?_of_keywords read, across, find?_shift, here]
      rfl
    | some source =>
      refine Or.inr ⟨front.take select.finish, front.drop select.finish, after.take source.start,
        after.drop source.start, (List.take_append_drop ..).symm, (List.take_append_drop ..).symm,
        fun mid read => ?_⟩
      have cut : ((front ++ mid ++ after).take (source.start + (front.length + mid.length))).drop
          select.finish = front.drop select.finish ++ mid ++ after.take source.start := by
        rw [← length, Nat.add_comm source.start, List.take_length_add_append, List.append_assoc,
          List.drop_append_of_le_length (bounds select member).2, List.append_assoc]
      rw [selectList?_of_keywords read, across, find?_shift, here, Option.map_some, Option.map_some,
        Option.map_some]
      exact congrArg (fun t => Except.ok (some (Text.strip t))) cut

/-- The search goes on behind a comment with the end of its line. -/
theorem keywordsFrom_comment (mark : commentMark <+: comment) (line : '\n' ∉ comment)
    (ends : ∀ c ∈ after.head?, c = '\n') (depth : Int) (index : Nat) :
    keywordsFrom depth index (comment ++ after) =
      keywordsFrom depth (index + comment.length) after := by
  obtain ⟨line', rfl⟩ := mark
  have skipped := skipAt?_comment (line' ++ after)
  rw [← List.append_assoc] at skipped
  cases after with
  | nil =>
    rw [List.append_nil] at skipped ⊢
    rw [skipPast_of_not_mem line] at skipped
    rw [keywordsFrom_skip skipped, keywordsFrom_nil, keywordsFrom_nil]
  | cons c after =>
    obtain rfl : c = '\n' := ends c rfl
    rw [skipPast_char line] at skipped
    have length : (commentMark ++ line' ++ '\n' :: after).length - after.length =
        (commentMark ++ line').length + 1 := by
      rw [List.length_append, List.length_cons]
      omega
    rw [keywordsFrom_skip skipped, length,
      keywordsFrom_other rfl (by decide) (by decide) (fun _ => ⟨by decide, by decide⟩),
      Nat.add_assoc]

/-- A comment and a blank in its place leave the same words. -/
theorem exists_keywords_comment (isComment : IsComment front comment after)
    (ascii : ∀ c ∈ front ++ after, c.toNat < 128) : ∃ words found : List Keyword,
      (∀ k ∈ words, k.start ≤ k.finish ∧ k.finish ≤ front.length) ∧
      ∀ mid ∈ [comment, [' ']], keywords (front ++ mid ++ after) =
        .ok (words ++ found.map (Keyword.shift (front.length + mid.length))) := by
  obtain ⟨asciiFront, asciiAfter⟩ := List.forall_mem_append.mp ascii
  have mark := isComment.mark.trans (List.prefix_append comment after)
  obtain ⟨last, words, bounds, read⟩ := isComment.outside.finds mark asciiFront 0 0
    (Nat.zero_add _).le
  obtain ⟨found, rest⟩ := exists_keywordsFrom asciiAfter last 0
  have shifted (n : Nat) : keywordsFrom last n after = .ok (found.map (Keyword.shift n)) := by
    rw [← Nat.zero_add n, keywordsFrom_shift, rest]
    simp [Except.map]
  rw [Nat.zero_add] at read
  refine ⟨words, found, bounds, fun mid isMid => ?_⟩
  rw [keywords, List.append_assoc]
  rcases List.mem_pair.mp isMid with rfl | rfl
  · refine read _ (Or.inl rfl) _ ?_
    rw [keywordsFrom_comment isComment.mark isComment.line isComment.ends, shifted]
  · refine read _ (Or.inr ⟨after, rfl⟩) _ ?_
    exact (keywordsFrom_blank ..).trans (shifted _)

/-- No word of a comment counts, and no other word is lost. If the comment does not stand in the
select list, the output is the same as with a blank in its place; otherwise the list is read as it
stands, with the comment as a part of it. -/
theorem outputColumns_comment (isComment : IsComment front comment after)
    (ascii : ∀ c ∈ front ++ after, c.toNat < 128) :
    (keywords (front ++ comment ++ after)).map (List.map Keyword.word) =
      (keywords (front ++ [' '] ++ after)).map (List.map Keyword.word) ∧
    (outputColumns (front ++ comment ++ after) = outputColumns (front ++ [' '] ++ after) ∨
      ∃ before x y behind, front = before ++ x ∧ after = y ++ behind ∧
        selectList? (front ++ comment ++ after) = .ok (some (Text.strip (x ++ comment ++ y))) ∧
        selectList? (front ++ [' '] ++ after) = .ok (some (Text.strip (x ++ [' '] ++ y)))) := by
  obtain ⟨words, found, bounds, read⟩ := exists_keywords_comment isComment ascii
  have withComment := read comment (by simp)
  have withBlank := read [' '] (by simp)
  refine ⟨?_, ?_⟩
  · rw [withComment, withBlank]
    simp [Except.map, Keyword.shift, Function.comp_def]
  · rcases selectList?_mid words found front after bounds with ⟨list, same⟩ |
      ⟨before, x, y, behind, first, last, inside⟩
    · left
      rw [outputColumns, outputColumns, same _ withComment, same _ withBlank]
    · exact Or.inr ⟨before, x, y, behind, first, last, inside _ withComment, inside _ withBlank⟩

/-- Behind the select list, the words and marks of a comment do not count. -/
theorem outputColumns_comment_behind :
    IsComment "SELECT a FROM t " "-- it's (b, FROM" "\nWHERE b" ∧
    (keywords ("SELECT a FROM t " ++ "-- it's (b, FROM" ++ "\nWHERE b")).map
      (List.map Keyword.word) =
        (keywords ("SELECT a FROM t " ++ " " ++ "\nWHERE b")).map (List.map Keyword.word) := by
  have isComment : IsComment "SELECT a FROM t " "-- it's (b, FROM" "\nWHERE b" :=
    ⟨Outside.of_plain (by decide), by decide, by decide, by rintro _ ⟨⟩; rfl⟩
  exact ⟨isComment, (outputColumns_comment isComment (ascii_of_all (by decide))).1⟩

/-- In the select list, its comma cuts the comment, and the column behind it loses its name. -/
theorem outputColumns_comment_inside : IsComment "SELECT a, " "-- b, c" "\n d FROM t" ∧
    outputColumns ("SELECT a, " ++ "-- b, c" ++ "\n d FROM t") =
      .ok ["a".toList, "column_2".toList, "column_3".toList] ∧
    outputColumns ("SELECT a, " ++ " " ++ "\n d FROM t") = .ok ["a".toList, "d".toList] :=
  ⟨⟨Outside.of_plain (by decide), by decide, by decide, by rintro _ ⟨⟩; rfl⟩, by decide +kernel,
    by decide +kernel⟩

end DatafileMigration.Query
