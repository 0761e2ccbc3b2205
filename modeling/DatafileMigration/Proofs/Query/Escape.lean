import DatafileMigration.Proofs.Query.Reading
import DatafileMigration.Query.OutputColumns

namespace DatafileMigration.Query

open Text (SplitState)

variable {s : Context} {c q : Char} {t u front before gap rest w sql : Text}
  {depth inner : Int} {index n m : Nat} {words : List Keyword} {k : Keyword}

/-- Outside of quotes, no comment and no placeholder begins within the first `n` characters. -/
def IsBare (s : Context) (n : Nat) (t : Text) : Prop :=
  ∀ before rest, t = before ++ rest → before.length < n →
    commentMark <+: rest ∨ placeholderMark <+: rest → (s.after before).quote ≠ none

namespace IsBare

theorem behind (bare : IsBare s n (front ++ t)) (within : front.length + m ≤ n) :
    IsBare (s.after front) m t := by
  rintro before rest rfl shorter begins
  rw [← Context.after_append]
  refine bare (front ++ before) rest (List.append_assoc ..).symm ?_ begins
  rw [List.length_append]
  omega

theorem mono (bare : IsBare s n t) (within : m ≤ n) : IsBare s m t :=
  fun before rest whole shorter => bare before rest whole (Nat.lt_of_lt_of_le shorter within)

theorem append (bare : IsBare s front.length (front ++ t)) (behind : IsBare (s.after front) m t) :
    IsBare s (front.length + m) (front ++ t) := by
  intro before rest whole shorter begins
  by_cases inside : before.length < front.length
  · exact bare before rest whole inside begins
  · obtain ⟨later, rfl⟩ : front <+: before :=
      List.prefix_of_prefix_length_le ⟨t, rfl⟩ ⟨rest, whole.symm⟩ (not_lt.mp inside)
    rw [List.append_assoc, List.append_cancel_left_eq] at whole
    rw [List.length_append, Nat.add_lt_add_iff_left] at shorter
    rw [Context.after_append]
    exact behind later rest whole shorter begins

/-- Neither of the two begins in a text without their first characters. -/
theorem of_unmarked (unmarked : ∀ c ∈ front, c ≠ '-' ∧ c ≠ '\x7b') (s : Context) (t : Text) :
    IsBare s front.length (front ++ t) := by
  intro before rest whole shorter begins
  obtain ⟨later, rfl⟩ : before <+: front :=
    List.prefix_of_prefix_length_le ⟨rest, whole.symm⟩ ⟨t, rfl⟩ shorter.le
  cases later with
  | nil => simp at shorter
  | cons c later =>
    rw [List.append_assoc, List.append_cancel_left_eq] at whole
    subst whole
    obtain ⟨dash, brace⟩ := unmarked c (List.mem_append_right before List.mem_cons_self)
    rcases begins with comment | placeholder
    · exact absurd (List.cons_prefix_cons.mp comment).1.symm dash
    · exact absurd (List.cons_prefix_cons.mp placeholder).1.symm brace

theorem not_begins (bare : IsBare ⟨none, depth⟩ n t) (some : 0 < n) :
    ¬ (commentMark <+: t ∨ placeholderMark <+: t) :=
  fun begins => bare [] t rfl some begins rfl

end IsBare

/-- What is skipped is a stretch in quotes, if neither a comment nor a placeholder begins. -/
theorem exists_quoted (skipped : skipAt? t = some rest)
    (plain : ¬ (commentMark <+: t ∨ placeholderMark <+: t)) :
    ∃ q body, isQuote q ∧ t = q :: body ∧ skipPast [q] body = rest := by
  cases t with
  | nil => cases skipped
  | cons c t =>
    simp only [← Text.startsWith_iff, not_or] at plain
    rw [skipAt?_cons, if_neg plain.1, if_neg plain.2] at skipped
    split_ifs at skipped with quote
    exact ⟨c, t, quote, rfl, Option.some.inj skipped⟩

/-- Behind what is skipped, the same is open as before, unless nothing is left. -/
theorem exists_skipped (skipped : skipAt? t = some rest) (more : rest ≠ []) (depth : Int) :
    ∃ front, t = front ++ rest ∧ (IsBare ⟨none, depth⟩ front.length t →
      Context.after ⟨none, depth⟩ front = ⟨none, depth⟩) := by
  obtain ⟨front, rfl⟩ := suffix_of_skipAt? skipped
  refine ⟨front, rfl, fun bare => ?_⟩
  have some : 0 < front.length := by
    have shorter := length_lt_of_skipAt? skipped
    rw [List.length_append] at shorter
    omega
  obtain ⟨q, body, quote, whole, behind⟩ := exists_quoted skipped (bare.not_begins some)
  have member : q ∈ body := by
    by_contra absent
    rw [skipPast_of_not_mem absent] at behind
    exact more behind.symm
  obtain ⟨inside, after, rfl, absent⟩ := List.eq_append_cons_of_mem member
  rw [skipPast_char absent] at behind
  subst behind
  have same : front = q :: (inside ++ [q]) := by
    refine List.append_cancel_right (whole.trans ?_)
    simp
  rw [same, Context.after_cons, Context.next_quote quote, Context.after_close absent]
  rfl

/-- Nothing is open where a word stands in a text that begins at `index`, unless a comment or a
placeholder begins before. -/
def StartsFree (depth : Int) (index : Nat) (t : Text) (k : Keyword) : Prop :=
  ∃ before rest, t = before ++ rest ∧ k.start = index + before.length ∧
    (IsBare ⟨none, depth⟩ before.length t → Context.after ⟨none, depth⟩ before = {})

theorem StartsFree.behind (front : Text) (free : StartsFree inner (index + front.length) t k)
    (through : IsBare ⟨none, depth⟩ front.length (front ++ t) →
      Context.after ⟨none, depth⟩ front = ⟨none, inner⟩) :
    StartsFree depth index (front ++ t) k := by
  obtain ⟨before, rest, rfl, start, top⟩ := free
  refine ⟨front ++ before, rest, (List.append_assoc ..).symm, ?_, fun bare => ?_⟩
  · rw [start, List.length_append, Nat.add_assoc]
  · rw [List.length_append] at bare
    have first := through (bare.mono (Nat.le_add_right _ _))
    have later := bare.behind le_rfl
    rw [first] at later
    rw [Context.after_append, first, top later]

/-- The search finds words where nothing is open. -/
theorem startsFree_of_mem (found : keywordsFrom depth index t = .ok words) (member : k ∈ words) :
    StartsFree depth index t k := by
  fun_induction keywordsFrom depth index t generalizing words with
  | case1 depth index t rest skipped ih =>
    have more : rest ≠ [] := by
      rintro rfl
      rw [keywordsFrom_nil] at found
      cases found
      cases member
    obtain ⟨front, whole, through⟩ := exists_skipped skipped more depth
    have place : t.length - rest.length = front.length := by
      rw [whole, List.length_append, Nat.add_sub_cancel]
    have free := ih found member
    rw [place] at free
    rw [whole] at through ⊢
    exact free.behind front through
  | case2 depth index =>
    cases found
    cases member
  | case3 depth index rest none ih => exact (ih found member).behind ['('] fun _ => rfl
  | case4 depth index rest none _ ih => exact (ih found member).behind [')'] fun _ => rfl
  | case5 depth index c rest none noOpening noClosing atWord start word finish =>
    rename_i ih
    have top : depth = 0 := by
      rw [Bool.and_eq_true, decide_eq_true_eq] at atWord
      exact atWord.1
    subst top
    have whole : c :: rest = word ++ rest.dropWhile Text.isIdentifierChar := by
      rw [List.cons_append, List.takeWhile_append_dropWhile]
    cases more : keywordsFrom 0 finish (rest.dropWhile Text.isIdentifierChar) with
    | error why =>
      rw [more] at found
      cases found
    | ok others =>
      rw [more] at found
      cases found
      rcases List.mem_cons.mp member with rfl | later
      · exact ⟨[], c :: rest, rfl, rfl, fun _ => rfl⟩
      · rw [whole]
        refine (ih more later).behind word fun _ => Context.after_word ?_ 0
        exact List.forall_mem_cons.mpr ⟨Text.isIdentifierChar_of_start start,
          fun d member => List.mem_takeWhile_imp member⟩
  | case6 depth index c rest none noOpening noClosing atWord noStart => cases found
  | case7 depth index c rest none noOpening noClosing passed ih =>
    refine (ih found member).behind [c] fun _ => ?_
    have quote : isQuote c = false := by
      by_contra quote
      rw [Bool.not_eq_false] at quote
      rw [skipAt?_cons, if_pos quote] at none
      cases none
    exact Context.next_other quote noOpening noClosing depth

theorem IsWordBetween.behind (word : IsWordBetween (front ++ before) w rest) :
    IsWordBetween before w rest where
  identifier := word.identifier
  starts := by
    refine Bool.eq_false_iff.mpr fun ends => ?_
    have longer := endsInWord_append front ends
    rw [word.starts] at longer
    cases longer
  ends := word.ends

/-- The word `w` of a text of ASCII characters stands where nothing is open, and neither a comment
nor a placeholder begins before. -/
structure IsFreeWord (depth : Int) (before w rest : Text) : Prop
    extends IsWordBetween before w rest where
  top : Context.after ⟨none, depth⟩ before = {}
  bare : IsBare ⟨none, depth⟩ before.length (before ++ (w ++ rest))
  ascii : ∀ c ∈ before ++ (w ++ rest), c.toNat < 128

namespace IsFreeWord

/-- So it stands behind a first part of what is before, if that part leaves no quote open. -/
theorem behind (front : Text) (free : IsFreeWord depth (front ++ before) w rest)
    (through : Context.after ⟨none, depth⟩ front = ⟨none, inner⟩) :
    IsFreeWord inner before w rest where
  toIsWordBetween := free.toIsWordBetween.behind
  top := by
    have top := free.top
    rwa [Context.after_append, through] at top
  bare := by
    have bare := free.bare
    rw [List.length_append, List.append_assoc] at bare
    have behind := bare.behind le_rfl
    rwa [through] at behind
  ascii c member := by
    refine free.ascii c ?_
    rw [List.append_assoc]
    exact List.mem_append_right front member

/-- The search goes on up to the word. -/
theorem finds {before : Text} {depth : Int} (free : IsFreeWord depth before w rest) (index : Nat) :
    Finds (· = w ++ rest) (fun _ => True) depth 0 index before := by
  match before with
  | [] =>
    have top : depth = 0 := congrArg Context.depth free.top
    exact top ▸ .nil
  | c :: before =>
    by_cases quote : isQuote c
    · have closed := congrArg Context.quote free.top
      rw [Context.after_cons, Context.next_quote quote] at closed
      obtain ⟨body, later, equal, absent⟩ := Context.exists_close closed
      have shorter : later.length < (c :: before).length := by
        rw [equal, List.length_cons, List.length_append, List.length_cons]
        omega
      have through : Context.after ⟨none, depth⟩ (c :: (body ++ [c])) = ⟨none, depth⟩ := by
        rw [Context.after_cons, Context.next_quote quote, Context.after_close absent]
        rfl
      have whole : c :: before = c :: (body ++ [c]) ++ later := by rw [equal]; simp
      rw [whole] at free
      rw [equal]
      exact .behind_quoted quote absent ((free.behind _ through).finds _)
    by_cases opening : c = '('
    · subst opening
      exact .behind_opening ((free.behind ['('] rfl).finds _)
    by_cases closing : c = ')'
    · subst closing
      exact .behind_closing ((free.behind [')'] rfl).finds _)
    by_cases atWord : depth = 0 ∧ Text.isIdentifierStart c
    · obtain ⟨rfl, start⟩ := atWord
      obtain ⟨v, later, identifier, equal, ends⟩ := exists_word start before
      have shorter : later.length < (c :: before).length := by
        rw [equal, List.length_cons, List.length_append]
        omega
      rw [equal] at free ⊢
      have more : later ≠ [] := by
        rintro rfl
        have inWord := endsInWord_of_isIdentifier identifier
        rw [← List.append_nil v, free.starts] at inWord
        cases inWord
      have through := Context.after_word (Text.isIdentifierChar_of_mem identifier) 0
      refine .behind_word (w := c :: v) ((free.behind (c :: v) through).finds _) identifier ?_ trivial
      rintro _ rfl d isHead
      obtain ⟨e, later, rfl⟩ := List.exists_cons_of_ne_nil more
      exact ends d isHead
    · have noQuote := Bool.eq_false_iff.mpr quote
      have noMark := free.bare.not_begins (Nat.succ_pos _)
      have through : Context.after ⟨none, depth⟩ [c] = ⟨none, depth⟩ :=
        Context.next_other noQuote opening closing depth
      rw [not_or] at noMark
      rw [not_and, Bool.not_eq_true] at atWord
      refine .behind_other ((free.behind [c] through).finds _) ?_ opening closing
        fun top => not_letter_of_ascii (free.ascii c List.mem_cons_self) (atWord top)
      rintro _ rfl
      exact skipAt?_other noQuote noMark.1 noMark.2
termination_by before.length
decreasing_by
  · exact shorter
  · exact Nat.lt_add_one _
  · exact Nat.lt_add_one _
  · exact shorter
  · exact Nat.lt_add_one _

/-- The search finds it. -/
theorem mem (free : IsFreeWord depth before w rest)
    (found : keywordsFrom depth index (before ++ (w ++ rest)) = .ok words) :
    ⟨w.map Char.toUpper, index + before.length, index + before.length + w.length⟩ ∈ words := by
  have ascii : ∀ c ∈ rest, c.toNat < 128 := fun c member =>
    free.ascii c (List.mem_append_right before (List.mem_append_right w member))
  obtain ⟨later, source⟩ := exists_keywordsFrom ascii 0 (index + before.length + w.length)
  have here := keywordsFrom_word free.identifier free.ends (index + before.length)
  rw [source] at here
  obtain ⟨earlier, -, goesOn⟩ := free.finds index
  have all := goesOn _ rfl _ here
  rw [found] at all
  cases all
  exact List.mem_append_right earlier List.mem_cons_self

end IsFreeWord

/-- Behind a text, a quote is open to the splitter, which goes on there in the state after the text
(`SplitState.exists_pieces_append`). -/
def InQuotes (before : Text) : Prop := (SplitState.after {} before).opened ≠ none

/-- Behind a text, the mark `q` is kept from counting. -/
def IsKept (front : Text) (q : Char) : Prop := Keeps (SplitState.after {} front) q

/-- No mark of a text is kept from counting. -/
def AllCount (t : Text) : Prop := ∀ front c rest, t = front ++ c :: rest → ¬ IsKept front c

/-- Comments and placeholders begin in quotes alone, be it the quotes of a context or those of the
splitter. -/
def HidesMarks (t : Text) : Prop :=
  ∀ before rest, t = before ++ rest → commentMark <+: rest ∨ placeholderMark <+: rest →
    InQuotes before ∨ (Context.after {} before).quote ≠ none

/-- Behind `front`, the mark `q` is the first that is kept from counting, and the splitter goes on
with the quote that it does not close. The word `w` follows behind characters that open nothing. -/
structure IsMisread (front : Text) (q : Char) (gap w rest : Text) : Prop where
  counts : AllCount front
  mark : q = '\'' ∨ q = '"'
  opened : SplitState.after {} front = ⟨some q, 0, true⟩
  plain : ∀ c ∈ gap, isQuote c = false ∧ c ≠ '(' ∧ c ≠ ')'
  unmarked : ∀ c ∈ gap, c ≠ '-' ∧ c ≠ '\x7b'
  word : IsWordBetween gap w rest

instance : Decidable (InQuotes before) := instDecidableNot

instance : Decidable (IsKept front q) := inferInstanceAs (Decidable (Keeps _ _))

theorem allCount_iff :
    AllCount t ↔ ∀ cut ∈ cuts t, cut.2.head?.all fun c => decide (¬ IsKept cut.1 c) := by
  simp only [Option.all_eq_true, decide_eq_true_eq]
  constructor
  · rintro counts ⟨front, rest⟩ isCut c isHead
    obtain ⟨rest, rfl⟩ := List.head?_eq_some_iff.mp isHead
    exact counts front c rest (mem_cuts.mp isCut)
  · intro counts front c rest whole
    exact counts (front, c :: rest) (mem_cuts.mpr whole) c rfl

instance : Decidable (AllCount t) := decidable_of_iff _ allCount_iff.symm

theorem hidesMarks_iff : HidesMarks t ↔ ∀ cut ∈ cuts t,
    commentMark <+: cut.2 ∨ placeholderMark <+: cut.2 →
      InQuotes cut.1 ∨ (Context.after {} cut.1).quote ≠ none := by
  constructor
  · rintro hides ⟨before, rest⟩ isCut begins
    exact hides before rest (mem_cuts.mp isCut) begins
  · intro hides before rest whole begins
    exact hides (before, rest) (mem_cuts.mpr whole) begins

instance : Decidable (HidesMarks t) := decidable_of_iff _ hidesMarks_iff.symm

namespace AllCount

theorem of_append (counts : AllCount (front ++ t)) : AllCount front := by
  rintro before c rest rfl
  exact counts before c (rest ++ t) (by simp)

/-- The two readings are the same behind a text all marks of which count. -/
theorem context_eq (counts : AllCount t) :
    context (SplitState.after {} t) = Context.after {} t :=
  context_after (by simp) counts

theorem isBare (counts : AllCount front) (hides : HidesMarks (front ++ t)) :
    IsBare {} front.length (front ++ t) := by
  intro before rest whole shorter begins
  obtain ⟨later, rfl⟩ : before <+: front :=
    List.prefix_of_prefix_length_le ⟨rest, whole.symm⟩ ⟨t, rfl⟩ shorter.le
  rcases hides before rest whole begins with inQuotes | quote
  · rw [← counts.of_append.context_eq]
    exact inQuotes
  · exact quote

end AllCount

namespace IsMisread

variable (misread : IsMisread front q gap w rest)

include misread

theorem isQuote : isQuote q := isQuote_iff.mpr (Or.inl misread.mark)

theorem inQuotes : InQuotes (front ++ q :: gap) := by
  have absent : q ∉ gap := fun member => by
    have other := (misread.plain q member).1
    rw [misread.isQuote] at other
    cases other
  have keeps : Keeps (SplitState.after {} front) q := by
    rw [misread.opened]
    exact ⟨rfl, misread.mark, Or.inr rfl⟩
  have behind : (SplitState.after {} (front ++ [q])).opened = some q := by
    rw [SplitState.after_append]
    change (SplitState.next _ q).opened = some q
    rw [next_of_keeps keeps, misread.opened]
  have opened := opened_after behind absent
  rw [← SplitState.after_append, List.append_assoc] at opened
  rw [InQuotes]
  exact opened ▸ Option.some_ne_none q

/-- To a context, the mark closes the quote. -/
theorem context_eq : Context.after {} (front ++ q :: gap) = {} := by
  have behind : Context.after {} front = ⟨some q, 0⟩ := by
    rw [← misread.counts.context_eq, misread.opened]
    rfl
  rw [Context.after_append, behind, Context.after_cons, Context.next_close]
  exact Context.after_plain misread.plain 0

theorem isBare (hides : HidesMarks (front ++ q :: (gap ++ (w ++ rest)))) :
    IsBare {} (front ++ q :: gap).length (front ++ q :: (gap ++ (w ++ rest))) := by
  have unmarked : ∀ c ∈ q :: gap, c ≠ '-' ∧ c ≠ '\x7b' := by
    refine List.forall_mem_cons.mpr ⟨?_, misread.unmarked⟩
    rcases misread.mark with rfl | rfl <;> decide
  rw [List.length_append]
  exact (misread.counts.isBare hides).append (.of_unmarked unmarked _ (w ++ rest))

theorem isWordBetween : IsWordBetween (front ++ q :: gap) w rest where
  identifier := misread.word.identifier
  starts := by
    have other : Text.isIdentifierChar q = false := by
      rcases misread.mark with rfl | rfl <;> rfl
    rw [endsInWord_behind other]
    exact misread.word.starts
  ends := misread.word.ends

end IsMisread

/-- A select list ends at a word that was found. -/
theorem exists_source {bounds : Nat × Nat} (isBounds : bounds ∈ selectBounds? words) :
    ∃ k ∈ words, k.start = bounds.2 := by
  induction words with
  | nil => cases isBounds
  | cons first words ih =>
    by_cases select : Keyword.is "SELECT" first
    · rw [selectBounds?_select select, Option.mem_def, Option.map_eq_some_iff] at isBounds
      obtain ⟨source, isSource, rfl⟩ := isBounds
      exact ⟨source, List.mem_cons_of_mem first (List.mem_of_find?_eq_some isSource), rfl⟩
    · rw [selectBounds?_other select] at isBounds
      obtain ⟨k, member, start⟩ := ih isBounds
      exact ⟨k, List.mem_cons_of_mem first member, start⟩

/-- No word that the search finds stands in quotes to the splitter, nor the `FROM` that ends a
select list, unless a mark in front of it is kept from counting. Behind the first mark that is kept
from closing a quote, the search finds words in that quote. -/
theorem keywords_escaped (ascii : ∀ c ∈ sql, c.toNat < 128) (hides : HidesMarks sql) :
    ∃ words, keywords sql = .ok words ∧
      (∀ k ∈ words, InQuotes (sql.take k.start) → ¬ AllCount (sql.take k.start)) ∧
      (∀ bounds ∈ selectBounds? words,
        InQuotes (sql.take bounds.2) → ¬ AllCount (sql.take bounds.2)) ∧
      ∀ front q gap w rest, sql = front ++ q :: (gap ++ (w ++ rest)) →
        IsMisread front q gap w rest → ∃ k ∈ words, k.word = w.map Char.toUpper ∧
          sql.take k.start = front ++ q :: gap ∧ InQuotes (sql.take k.start) := by
  obtain ⟨words, found⟩ := exists_keywordsFrom ascii 0 0
  have outside : ∀ k ∈ words, InQuotes (sql.take k.start) → ¬ AllCount (sql.take k.start) := by
    intro k member inQuotes counts
    obtain ⟨before, rest, rfl, start, free⟩ := startsFree_of_mem found member
    have place : (before ++ rest).take k.start = before := by
      rw [start, Nat.zero_add, List.take_left]
    rw [place] at inQuotes counts
    have top : context (SplitState.after {} before) = {} :=
      counts.context_eq.trans (free (counts.isBare hides))
    exact inQuotes (congrArg Context.quote top)
  refine ⟨words, found, outside, fun bounds isBounds => ?_, ?_⟩
  · obtain ⟨k, member, start⟩ := exists_source isBounds
    rw [← start]
    exact outside k member
  · rintro front q gap w rest rfl misread
    have whole : front ++ q :: (gap ++ (w ++ rest)) = (front ++ q :: gap) ++ (w ++ rest) := by simp
    have bare := misread.isBare hides
    rw [whole] at found ascii bare ⊢
    have free : IsFreeWord 0 (front ++ q :: gap) w rest :=
      ⟨misread.isWordBetween, misread.context_eq, bare, ascii⟩
    refine ⟨_, free.mem found, rfl, ?_, ?_⟩
    · rw [Nat.zero_add, List.take_left]
    · rw [Nat.zero_add, List.take_left]
      exact misread.inQuotes

/-- A quote that a backslash keeps open, with a `FROM` in it. -/
def escapedQuery : Text := "SELECT 'it\\'s FROM x' AS y FROM t"

theorem keywords_escaped_misread :
    (∀ c ∈ escapedQuery, c.toNat < 128) ∧ HidesMarks escapedQuery ∧
      IsMisread "SELECT 'it\\" '\'' "s " "FROM" " x' AS y FROM t" ∧
      ∃ words, keywords escapedQuery = .ok words ∧ ∃ k ∈ words, k.word = "FROM".toList ∧
        InQuotes (escapedQuery.take k.start) := by
  have ascii : ∀ c ∈ escapedQuery, c.toNat < 128 := ascii_of_all (by decide)
  have hides : HidesMarks escapedQuery := by decide +kernel
  have misread : IsMisread "SELECT 'it\\" '\'' "s " "FROM" " x' AS y FROM t" :=
    ⟨by decide +kernel, Or.inl rfl, by decide, by simp [isQuote], by simp, by decide⟩
  obtain ⟨words, found, -, -, all⟩ := keywords_escaped ascii hides
  obtain ⟨k, member, word, -, inQuotes⟩ := all _ _ _ _ _ rfl misread
  exact ⟨ascii, hides, misread, words, found, k, member, word, inQuotes⟩

/-- The select list is cut at that `FROM`. -/
theorem keywords_escaped_cut :
    (∀ c ∈ escapedQuery, c.toNat < 128) ∧ ¬ commentMark <:+: escapedQuery ∧
      ¬ placeholderMark <:+: escapedQuery ∧
      (∃ words, keywords escapedQuery = .ok words ∧ ∃ k ∈ words, k.word = "FROM".toList ∧
        InQuotes (escapedQuery.take k.start)) ∧
      selectList? escapedQuery = .ok (some "'it\\'s") := by
  refine ⟨ascii_of_all (by decide), by decide, by decide, ?_, by decide +kernel⟩
  exact ⟨[⟨"SELECT", 0, 6⟩, ⟨"S", 12, 13⟩, ⟨"FROM", 14, 18⟩, ⟨"X", 19, 20⟩], by decide +kernel,
    by decide +kernel⟩

end DatafileMigration.Query
