import Mathlib.Data.List.Infix
import DatafileMigration.Proofs.Query.Keywords

namespace DatafileMigration.Query

/-- What is open at a place of a text. -/
@[ext]
structure Context where
  quote : Option Char := none
  depth : Int := 0
  deriving DecidableEq, Repr

namespace Context

/-- A quote is closed by the next mark of its kind; parentheses count outside of quotes. -/
def next (s : Context) (c : Char) : Context :=
  match s.quote with
  | some q => if c = q then { s with quote := none } else s
  | none =>
    if isQuote c then { s with quote := some c }
    else if c = '(' then { s with depth := s.depth + 1 }
    else if c = ')' then { s with depth := s.depth - 1 }
    else s

/-- What is open behind a text. -/
def after (s : Context) (t : Text) : Context := t.foldl next s

end Context

/-- A word ends where a text ends: the characters of words at its end have one among them that
begins a word. Digits alone are no word, and a word may begin right behind them. -/
def endsInWord (t : Text) : Bool :=
  (t.reverse.takeWhile Text.isIdentifierChar).any Text.isIdentifierStart

/-- The word `w` stands by itself between two texts. -/
structure IsWordBetween (before w after : Text) : Prop where
  identifier : Text.isIdentifier w
  starts : endsInWord before = false
  ends : ∀ c ∈ after.head?, Text.isIdentifierChar c = false

/-- A text that is read from a context closes all that is open, and does not show a comment or a
placeholder outside of quotes, nor a `FROM` at the top level. -/
structure Passes (s : Context) (t : Text) : Prop where
  closed : s.after t = {}
  comment : ∀ before rest, t = before ++ commentMark ++ rest → (s.after before).quote ≠ none
  placeholder : ∀ before rest, t = before ++ placeholderMark ++ rest → (s.after before).quote ≠ none
  source : ∀ before w rest, t = before ++ w ++ rest → IsWordBetween before w rest →
    s.after before = {} → w.map Char.toUpper ≠ "FROM".toList

/-- An expression that can stand in front of an alias. -/
structure IsExpression (e : Text) : Prop extends Passes {} e where
  ascii : ∀ c ∈ e, c.toNat < 128
  filled : Text.isBlankText e = false
  comma : ∀ before rest, e = before ++ ',' :: rest → Context.after {} before ≠ {}
  /-- No quote stands behind a backslash. -/
  unescaped : ∀ q, q = '\'' ∨ q = '"' → ¬ ['\\', q] <:+: e
  other : (Text.strip e).map Char.toLower ≠ "distinct".toList

/-- Texts that the search for words goes over from a depth to the top level without finding a
`FROM`: stretches in quotes, parentheses, words, and other characters. -/
inductive Passage : Int → Text → Prop
  | nil : Passage 0 []
  | quoted {depth q body t} : isQuote q → q ∉ body → Passage depth t →
      Passage depth (q :: (body ++ q :: t))
  | opening {depth t} : Passage (depth + 1) t → Passage depth ('(' :: t)
  | closing {depth t} : Passage (depth - 1) t → Passage depth (')' :: t)
  | word {w t} : Text.isIdentifier w → (∀ c ∈ t.head?, Text.isIdentifierChar c = false) →
      w.map Char.toUpper ≠ "FROM".toList → Passage 0 t → Passage 0 (w ++ t)
  | other {depth c t} : isQuote c = false → c ≠ '(' → c ≠ ')' → c.toNat < 128 →
      (depth = 0 → Text.isIdentifierStart c = false) → ¬ commentMark <+: c :: t →
      ¬ placeholderMark <+: c :: t → Passage depth t → Passage depth (c :: t)

variable {s : Context} {c q : Char} {t u body before rest w : Text} {depth : Int}

/-- All ways to cut a text in two. -/
def cuts : Text → List (Text × Text)
  | [] => [([], [])]
  | c :: t => ([], c :: t) :: (cuts t).map fun cut => (c :: cut.1, cut.2)

theorem mem_cuts : (before, rest) ∈ cuts t ↔ t = before ++ rest := by
  induction t generalizing before with
  | nil => simp [cuts, eq_comm]
  | cons c t ih =>
    cases before with
    | nil => simp [cuts, eq_comm]
    | cons d before => simp [cuts, ih, and_comm, eq_comm]

/-- What holds of each place at which a mark stands. -/
theorem forall_mark_iff {mark : Text} {p : Text → Prop} :
    (∀ before rest, t = before ++ mark ++ rest → p before) ↔
      ∀ cut ∈ cuts t, mark <+: cut.2 → p cut.1 := by
  constructor
  · rintro all ⟨before, _⟩ isCut ⟨rest, rfl⟩
    exact all before rest (by rw [mem_cuts.mp isCut, List.append_assoc])
  · rintro all before rest rfl
    exact all (before, mark ++ rest) (mem_cuts.mpr (List.append_assoc ..)) ⟨rest, rfl⟩

instance : Decidable (IsWordBetween before w rest) :=
  decidable_of_iff (Text.isIdentifier w ∧ endsInWord before = false ∧
      rest.head?.all (!Text.isIdentifierChar ·))
    ⟨fun ⟨identifier, starts, ends⟩ => ⟨identifier, starts, by simpa [Option.all_eq_true] using ends⟩,
      fun ⟨identifier, starts, ends⟩ => ⟨identifier, starts, by simpa [Option.all_eq_true] using ends⟩⟩

theorem passes_iff : Passes s t ↔ s.after t = {} ∧
    (∀ cut ∈ cuts t, commentMark <+: cut.2 → (s.after cut.1).quote ≠ none) ∧
    (∀ cut ∈ cuts t, placeholderMark <+: cut.2 → (s.after cut.1).quote ≠ none) ∧
    ∀ cut ∈ cuts t, ∀ word ∈ cuts cut.2, IsWordBetween cut.1 word.1 word.2 →
      s.after cut.1 = {} → word.1.map Char.toUpper ≠ "FROM".toList := by
  rw [← forall_mark_iff (p := fun before => (s.after before).quote ≠ none),
    ← forall_mark_iff (p := fun before => (s.after before).quote ≠ none)]
  constructor
  · rintro ⟨closed, comment, placeholder, source⟩
    refine ⟨closed, comment, placeholder, ?_⟩
    rintro ⟨before, behind⟩ isCut ⟨w, rest⟩ isWord
    have behind : behind = w ++ rest := mem_cuts.mp isWord
    exact source before w rest (by rw [mem_cuts.mp isCut, behind, List.append_assoc])
  · rintro ⟨closed, comment, placeholder, source⟩
    refine ⟨closed, comment, placeholder, ?_⟩
    rintro before w rest rfl
    exact source (before, w ++ rest) (mem_cuts.mpr (List.append_assoc ..)) (w, rest)
      (mem_cuts.mpr rfl)

instance : Decidable (Passes s t) := decidable_of_iff _ passes_iff.symm

theorem isExpression_iff : IsExpression t ↔ Passes {} t ∧ t.all (·.toNat < 128) ∧
    Text.isBlankText t = false ∧ (∀ cut ∈ cuts t, [','] <+: cut.2 → Context.after {} cut.1 ≠ {}) ∧
    (¬ ['\\', '\''] <:+: t ∧ ¬ ['\\', '"'] <:+: t) ∧
    (Text.strip t).map Char.toLower ≠ "distinct".toList := by
  rw [← forall_mark_iff (p := fun before => Context.after {} before ≠ {})]
  constructor
  · rintro ⟨passes, ascii, filled, comma, unescaped, other⟩
    exact ⟨passes, by simpa using ascii, filled, by simpa using comma, by simpa using unescaped,
      other⟩
  · rintro ⟨passes, ascii, filled, comma, unescaped, other⟩
    exact ⟨passes, by simpa using ascii, filled, by simpa using comma, by simpa using unescaped,
      other⟩

instance : Decidable (IsExpression t) := decidable_of_iff _ isExpression_iff.symm

example : IsExpression "if(a, 'x, y FROM (', 2)" := by decide +kernel

example : ¬ IsExpression "1FROM" := by decide +kernel

namespace Context

theorem after_cons (s : Context) (c : Char) (t : Text) :
    s.after (c :: t) = (s.next c).after t := rfl

theorem after_append (s : Context) (t u : Text) : s.after (t ++ u) = (s.after t).after u :=
  List.foldl_append

theorem next_quote (quote : isQuote c) (depth : Int) :
    next ⟨none, depth⟩ c = ⟨some c, depth⟩ := if_pos quote

theorem next_other (quote : isQuote c = false) (opening : c ≠ '(') (closing : c ≠ ')')
    (depth : Int) : next ⟨none, depth⟩ c = ⟨none, depth⟩ := by
  simp [next, quote, opening, closing]

theorem next_in_quote (other : c ≠ q) (depth : Int) :
    next ⟨some q, depth⟩ c = ⟨some q, depth⟩ := if_neg other

theorem next_close (q : Char) (depth : Int) : next ⟨some q, depth⟩ q = ⟨none, depth⟩ := if_pos rfl

/-- In a quote nothing counts but the mark that closes it. -/
theorem after_quoted (absent : q ∉ t) (depth : Int) :
    after ⟨some q, depth⟩ t = ⟨some q, depth⟩ := by
  induction t with
  | nil => rfl
  | cons c t ih =>
    rw [List.mem_cons, not_or] at absent
    rw [after_cons, next_in_quote (Ne.symm absent.1), ih absent.2]

theorem after_close (absent : q ∉ body) (depth : Int) (t : Text) :
    after ⟨some q, depth⟩ (body ++ q :: t) = after ⟨none, depth⟩ t := by
  rw [after_append, after_quoted absent, after_cons, next_close]

/-- A quote that is closed is closed by the next mark of its kind. -/
theorem exists_close (closed : (after ⟨some q, depth⟩ t).quote = none) :
    ∃ body rest, t = body ++ q :: rest ∧ q ∉ body := by
  by_cases member : q ∈ t
  · exact List.eq_append_cons_of_mem member
  · rw [after_quoted member] at closed
    cases closed

/-- Outside of quotes, nothing counts but quotes and parentheses. -/
theorem after_plain (plain : ∀ c ∈ t, isQuote c = false ∧ c ≠ '(' ∧ c ≠ ')') (depth : Int) :
    after ⟨none, depth⟩ t = ⟨none, depth⟩ := by
  induction t with
  | nil => rfl
  | cons c t ih =>
    obtain ⟨⟨quote, opening, closing⟩, rest⟩ := List.forall_mem_cons.mp plain
    rw [after_cons, next_other quote opening closing, ih rest]

theorem after_word (word : ∀ c ∈ t, Text.isIdentifierChar c) (depth : Int) :
    after ⟨none, depth⟩ t = ⟨none, depth⟩ :=
  after_plain (fun c member => ⟨isQuote_of_isIdentifierChar (word c member),
    Text.ne_of_isIdentifierChar (word c member) rfl,
    Text.ne_of_isIdentifierChar (word c member) rfl⟩) depth

end Context

/-- What stands in front of a character that is none of a word does not matter. -/
theorem endsInWord_behind (other : Text.isIdentifierChar c = false) (before t : Text) :
    endsInWord (before ++ c :: t) = endsInWord t := by
  have stop : (c :: before.reverse).takeWhile Text.isIdentifierChar = [] :=
    List.takeWhile_cons_of_neg (by simp [other])
  rw [endsInWord, endsInWord, List.reverse_append, List.reverse_cons, List.append_assoc,
    List.singleton_append, List.takeWhile_append, stop, List.append_nil]
  split
  · rename_i all
    rw [(List.takeWhile_prefix _).eq_of_length all]
  · rfl

/-- Neither does one that begins no word. -/
theorem endsInWord_cons (other : Text.isIdentifierStart c = false) (t : Text) :
    endsInWord (c :: t) = endsInWord t := by
  by_cases inWord : Text.isIdentifierChar c
  · have only : [c].takeWhile Text.isIdentifierChar = [c] := List.takeWhile_cons_of_pos inWord
    rw [endsInWord, endsInWord, List.reverse_cons, List.takeWhile_append, only]
    split
    · rename_i all
      rw [(List.takeWhile_prefix _).eq_of_length all, List.any_append, List.any_cons, other]
      simp
    · rfl
  · exact endsInWord_behind (Bool.eq_false_iff.mpr inWord) [] t

/-- A word that ends a text ends a longer one. -/
theorem endsInWord_append (front : Text) (ends : endsInWord t) : endsInWord (front ++ t) := by
  rw [endsInWord, List.reverse_append, List.takeWhile_append]
  split
  · rename_i all
    rw [← (List.takeWhile_prefix _).eq_of_length all, List.any_append, Bool.or_eq_true]
    exact Or.inl (by rwa [endsInWord] at ends)
  · exact ends

theorem endsInWord_of_isIdentifier (identifier : Text.isIdentifier w) : endsInWord w := by
  obtain ⟨c, t, rfl⟩ := List.exists_cons_of_ne_nil (Text.isIdentifier_ne_nil identifier)
  have all : (c :: t).reverse.takeWhile Text.isIdentifierChar = (c :: t).reverse := by
    refine List.takeWhile_eq_self_iff.mpr fun d member => ?_
    exact Text.isIdentifierChar_of_mem identifier d (List.mem_reverse.mp member)
  rw [Text.isIdentifier, Bool.and_eq_true] at identifier
  rw [endsInWord, all, List.any_eq_true]
  exact ⟨c, List.mem_reverse.mpr List.mem_cons_self, identifier.1⟩

/-- A word ends behind more of a text only where nothing but characters of words was added. -/
theorem isIdentifierChar_of_endsInWord (front : Text) (without : endsInWord t = false)
    (ends : endsInWord (front ++ t)) : ∀ c ∈ t, Text.isIdentifierChar c := by
  by_contra other
  push Not at other
  obtain ⟨c, member, noWord⟩ := other
  obtain ⟨before, rest, rfl⟩ := List.append_of_mem member
  have behind := endsInWord_behind (Bool.eq_false_iff.mpr noWord)
  rw [← List.append_assoc, behind, ← behind before, without] at ends
  cases ends

namespace Passes

/-- A text that is passed over in part, if no word of the rest has begun in that part. -/
theorem behind (front : Text) (passes : Passes s (front ++ t))
    (words : ∀ before w rest, t = before ++ w ++ rest → IsWordBetween before w rest →
      s.after (front ++ before) = {} → endsInWord (front ++ before) = false) :
    Passes (s.after front) t where
  closed := by rw [← Context.after_append, passes.closed]
  comment before rest equal := by
    rw [← Context.after_append]
    exact passes.comment (front ++ before) rest (by rw [equal]; simp only [List.append_assoc])
  placeholder before rest equal := by
    rw [← Context.after_append]
    exact passes.placeholder (front ++ before) rest (by rw [equal]; simp only [List.append_assoc])
  source before w rest equal word top := by
    rw [← Context.after_append] at top
    have alone : IsWordBetween (front ++ before) w rest :=
      ⟨word.identifier, words before w rest equal word top, word.ends⟩
    exact passes.source (front ++ before) w rest (by rw [equal]; simp only [List.append_assoc])
      alone top

theorem behind_char (passes : Passes s (c :: t)) (other : Text.isIdentifierStart c = false) :
    Passes (s.next c) t :=
  passes.behind [c] fun before _ _ _ word _ =>
    (endsInWord_cons other before).trans word.starts

theorem behind_quoted (passes : Passes ⟨none, depth⟩ (q :: (body ++ q :: t))) (quote : isQuote q)
    (absent : q ∉ body) : Passes ⟨none, depth⟩ t := by
  have other : Text.isIdentifierChar q = false := by
    refine Bool.eq_false_iff.mpr fun word => ?_
    rw [isQuote_of_isIdentifierChar word] at quote
    cases quote
  have whole : q :: (body ++ q :: t) = (q :: (body ++ [q])) ++ t := by simp
  have through : Context.after ⟨none, depth⟩ (q :: (body ++ [q])) = ⟨none, depth⟩ := by
    rw [Context.after_cons, Context.next_quote quote, Context.after_close absent]
    rfl
  rw [whole] at passes
  rw [← through]
  refine passes.behind _ fun before _ _ _ word _ => ?_
  have same := endsInWord_behind other (q :: body) before
  simpa [word.starts] using same

/-- Behind a whole word, the next word is another one. -/
theorem behind_word (passes : Passes ⟨none, depth⟩ (w ++ t))
    (word : ∀ c ∈ w, Text.isIdentifierChar c)
    (ends : ∀ c ∈ t.head?, Text.isIdentifierChar c = false) : Passes ⟨none, depth⟩ t := by
  have through := Context.after_word word depth
  rw [← through]
  refine passes.behind _ fun before v rest equal next _ => ?_
  cases before with
  | nil =>
    obtain ⟨c, v, rfl⟩ := List.exists_cons_of_ne_nil (Text.isIdentifier_ne_nil next.identifier)
    have inWord := Text.isIdentifierChar_of_mem next.identifier c List.mem_cons_self
    rw [ends c (by rw [equal]; rfl)] at inWord
    cases inWord
  | cons c before =>
    have other : Text.isIdentifierChar c = false := ends c (by rw [equal]; rfl)
    rw [endsInWord_behind other, ← endsInWord_behind other []]
    exact next.starts

/-- In parentheses, a character is passed over even if a word begins with it. -/
theorem behind_inside (passes : Passes ⟨none, depth⟩ (c :: t)) (inside : depth ≠ 0)
    (word : Text.isIdentifierChar c) : Passes ⟨none, depth⟩ t := by
  have through := Context.after_word (t := [c]) (by simpa using word) depth
  rw [← through]
  refine passes.behind [c] fun before _ _ _ next top => ?_
  by_contra ends
  have chars := isIdentifierChar_of_endsInWord [c] next.starts (by simpa using ends)
  have deep := Context.after_word (t := [c] ++ before) (by simpa using ⟨word, chars⟩) depth
  rw [deep] at top
  exact inside (congrArg Context.depth top)

/-- The stretches, parentheses, words and other characters of a text that is passed over. -/
theorem passage {depth : Int} {t : Text} (passes : Passes ⟨none, depth⟩ t)
    (ascii : ∀ c ∈ t, c.toNat < 128) : Passage depth t := by
  match t with
  | [] =>
    have top : depth = 0 := congrArg Context.depth passes.closed
    exact top ▸ .nil
  | c :: t =>
    obtain ⟨first, more⟩ := List.forall_mem_cons.mp ascii
    by_cases quote : isQuote c
    · have closed := congrArg Context.quote passes.closed
      rw [Context.after_cons, Context.next_quote quote] at closed
      obtain ⟨body, rest, equal, absent⟩ := Context.exists_close closed
      have shorter : rest.length < (c :: t).length := by
        rw [equal, List.length_cons, List.length_append, List.length_cons]
        omega
      rw [equal] at passes more ⊢
      exact .quoted quote absent ((passes.behind_quoted quote absent).passage
        fun d member => more d (List.mem_append_right _ (List.mem_cons_of_mem _ member)))
    by_cases opening : c = '('
    · subst opening
      exact .opening ((passes.behind_char (by decide)).passage more)
    by_cases closing : c = ')'
    · subst closing
      exact .closing ((passes.behind_char (by decide)).passage more)
    have noQuote := Bool.eq_false_iff.mpr quote
    have noComment : ¬ commentMark <+: c :: t := fun ⟨rest, equal⟩ =>
      passes.comment [] rest equal.symm rfl
    have noPlaceholder : ¬ placeholderMark <+: c :: t := fun ⟨rest, equal⟩ =>
      passes.placeholder [] rest equal.symm rfl
    by_cases top : depth = 0 ∧ Text.isIdentifierStart c
    · obtain ⟨rfl, start⟩ := top
      obtain ⟨w, rest, identifier, equal, ends⟩ := exists_word start t
      have shorter : rest.length < (c :: t).length := by
        rw [equal, List.length_cons, List.length_append]
        omega
      rw [equal] at passes more ⊢
      have noSource := passes.source [] (c :: w) rest rfl ⟨identifier, rfl, ends⟩ rfl
      have behind := passes.behind_word (w := c :: w) (Text.isIdentifierChar_of_mem identifier) ends
      exact .word identifier ends noSource
        (behind.passage fun d member => more d (List.mem_append_right w member))
    · rw [not_and, Bool.not_eq_true] at top
      refine .other noQuote opening closing first top noComment noPlaceholder (passage ?_ more)
      have same := Context.next_other noQuote opening closing depth
      cases start : Text.isIdentifierStart c with
      | false => exact same ▸ passes.behind_char start
      | true =>
        refine passes.behind_inside (fun zero => ?_) (Text.isIdentifierChar_of_start start)
        exact absurd (top zero) (by simp [start])
  termination_by t.length
  decreasing_by
    · exact shorter
    · exact Nat.lt_add_one _
    · exact Nat.lt_add_one _
    · exact shorter
    · exact Nat.lt_add_one _

end Passes

namespace Passage

variable {sep : Char}

/-- Where a separator stands behind a text, no word of the text goes on. -/
theorem ends_append (ends : ∀ c ∈ t.head?, Text.isIdentifierChar c = false)
    (separator : sep = ' ' ∨ sep = ',') (u : Text) :
    ∀ c ∈ (t ++ sep :: u).head?, Text.isIdentifierChar c = false := by
  cases t with
  | nil =>
    rintro _ ⟨⟩
    rcases separator with rfl | rfl <;> rfl
  | cons d t => exact ends

theorem separator_ne (separator : sep = ' ' ∨ sep = ',') : sep ≠ '-' ∧ sep ≠ '\x7b' := by
  rcases separator with rfl | rfl <;> decide

theorem append (passage : Passage depth t) (separator : sep = ' ' ∨ sep = ',')
    (behind : Passage 0 (sep :: u)) : Passage depth (t ++ sep :: u) := by
  obtain ⟨noDash, noBrace⟩ := separator_ne separator
  induction passage with
  | nil => exact behind
  | quoted quote absent _ ih =>
    rw [List.cons_append, List.append_assoc, List.cons_append]
    exact .quoted quote absent ih
  | opening _ ih => exact .opening ih
  | closing _ ih => exact .closing ih
  | word identifier ends other _ ih =>
    rw [List.append_assoc]
    exact .word identifier (ends_append ends separator u) other ih
  | other quote opening closing ascii start comment placeholder _ ih =>
    exact .other quote opening closing ascii start (not_mark_append comment noDash u)
      (not_mark_append placeholder noBrace u) ih

theorem behind_separator (passage : Passage depth t) (separator : sep = ' ' ∨ sep = ',') :
    Passage depth (sep :: t) := by
  obtain ⟨noDash, noBrace⟩ := separator_ne separator
  have apart : ∀ mark : Char, sep ≠ mark → ¬ [mark, mark] <+: sep :: t := fun mark other begins =>
    other (List.cons_prefix_cons.mp begins).1.symm
  rcases separator with rfl | rfl
  · exact .other rfl (by decide) (by decide) (by decide) (fun _ => rfl) (apart _ noDash)
      (apart _ noBrace) passage
  · exact .other rfl (by decide) (by decide) (by decide) (fun _ => rfl) (apart _ noDash)
      (apart _ noBrace) passage

/-- The search goes over a passage in front of a blank, and finds no `FROM` there. -/
theorem finds (passage : Passage depth t) (index : Nat) :
    Finds (fun behind => ∃ u, behind = ' ' :: u) (·.word ≠ "FROM".toList) depth 0 index t := by
  induction passage generalizing index with
  | nil => exact .nil
  | quoted quote absent _ ih => exact .behind_quoted quote absent (ih _)
  | opening _ ih => exact (ih _).behind_opening
  | closing _ ih => exact (ih _).behind_closing
  | word identifier ends other _ ih =>
    refine (ih _).behind_word identifier ?_ other
    rintro _ ⟨u, rfl⟩
    exact ends_append ends (Or.inl rfl) u
  | other quote opening closing ascii start comment placeholder _ ih =>
    refine (ih _).behind_other ?_ opening closing fun top => not_letter_of_ascii ascii (start top)
    rintro _ ⟨u, rfl⟩
    exact skipAt?_other quote (not_mark_append comment (by decide) u)
      (not_mark_append placeholder (by decide) u)

end Passage

end DatafileMigration.Query
