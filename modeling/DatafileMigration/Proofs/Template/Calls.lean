import DatafileMigration.Proofs.Template.Quotes
import DatafileMigration.Proofs.Text.Word

namespace DatafileMigration.Template

/-- The call is read where it is written: its name is an identifier with nothing but blanks behind
it, and no parenthesis of its arguments stands outside of their quotes, which are closed at the
end. -/
structure Call.IsRead (c : Call) : Prop where
  name : Text.isIdentifier c.name
  gap : ∀ d ∈ c.gap, Text.isBlank d
  arguments : ∀ x ∈ ({} : Quotes).mask c.arguments, isParenthesis x.1 = false
  closed : (({} : Quotes).after c.arguments).isOpen = false

variable {q : Quotes} {c : Call} {t : Text}

theorem not_quote_of_isIdentifierChar {d : Char} (valid : Text.isIdentifierChar d) :
    d ≠ '\'' ∧ d ≠ '"' :=
  ⟨Text.ne_of_isIdentifierChar valid (by decide), Text.ne_of_isIdentifierChar valid (by decide)⟩

theorem not_quote_of_isBlank {d : Char} (blank : Text.isBlank d) : d ≠ '\'' ∧ d ≠ '"' := by
  constructor <;> rintro rfl <;> exact absurd blank (by decide)

theorem isParenthesis_of_isIdentifierChar {d : Char} (valid : Text.isIdentifierChar d) :
    isParenthesis d = false := by
  rw [isParenthesis, Bool.or_eq_false_iff, decide_eq_false_iff_not, decide_eq_false_iff_not]
  exact ⟨Text.ne_of_isIdentifierChar valid (by decide),
    Text.ne_of_isIdentifierChar valid (by decide)⟩

theorem isParenthesis_of_isBlank {d : Char} (blank : Text.isBlank d) : isParenthesis d = false := by
  rw [isParenthesis, Bool.or_eq_false_iff, decide_eq_false_iff_not, decide_eq_false_iff_not]
  constructor <;> rintro rfl <;> exact absurd blank (by decide)

section Reader

variable {name gap arguments rest : List (Char × Char)} {shown opening closing : Char}

/-- A call is read from a name, a gap and arguments between parentheses that are seen. -/
theorem callAt?_append {first : Char × Char} (start : Text.isIdentifierStart first.1)
    (word : ∀ x ∈ name, Text.isIdentifierChar x.1) (blank : ∀ x ∈ gap, Text.isBlank x.1)
    (inside : ∀ x ∈ arguments, isParenthesis x.1 = false) :
    callAt? (first :: name ++ (gap ++ ('(', opening) :: (arguments ++ (')', closing) :: rest))) =
      some (⟨(first :: name).map (·.2), gap.map (·.2), arguments.map (·.2)⟩, rest) := by
  have whole : ∀ x ∈ first :: name, Text.isIdentifierChar x.1 :=
    List.forall_mem_cons.mpr ⟨Text.isIdentifierChar_of_start start, word⟩
  -- The name ends in front of a blank or of the parenthesis, neither of which is part of a word.
  obtain ⟨next, more, behind, stop⟩ : ∃ next more,
      gap ++ ('(', opening) :: (arguments ++ (')', closing) :: rest) = next :: more ∧
        Text.isIdentifierChar next.1 = false := by
    cases gap with
    | nil => exact ⟨_, _, rfl, by rfl⟩
    | cons x gap => exact ⟨x, _, rfl, Text.isIdentifierChar_of_isBlank (blank x List.mem_cons_self)⟩
  have solid : ∀ x ∈ arguments, (!isParenthesis x.1) = true := fun x member => by
    rw [inside x member]
    rfl
  obtain ⟨seen, shown⟩ := first
  rw [List.cons_append, callAt?]
  simp only [start, Bool.not_true, Bool.false_eq_true, if_false]
  rw [← List.cons_append, behind, Text.takeWhile_of_stop whole stop,
    Text.dropWhile_of_stop whole stop, ← behind, Text.takeWhile_of_stop blank rfl,
    Text.dropWhile_of_stop blank rfl]
  simp only
  rw [Text.takeWhile_of_stop solid rfl, Text.dropWhile_of_stop solid rfl]
  rfl

/-- Every call that is read stands between such parts. -/
theorem append_of_callAt? {l : List (Char × Char)} (read : callAt? l = some (c, rest)) :
    ∃ first name gap opening arguments closing,
      l = first :: name ++ (gap ++ ('(', opening) :: (arguments ++ (')', closing) :: rest)) ∧
      Text.isIdentifierStart first.1 ∧ (∀ x ∈ name, Text.isIdentifierChar x.1) ∧
      (∀ x ∈ gap, Text.isBlank x.1) ∧ (∀ x ∈ arguments, isParenthesis x.1 = false) ∧
      c = ⟨(first :: name).map (·.2), gap.map (·.2), arguments.map (·.2)⟩ := by
  unfold callAt? at read
  split at read
  · cases read
  rename_i seen shown tail
  split at read
  · cases read
  rename_i start
  rw [Bool.not_eq_true, Bool.not_eq_false'] at start
  have word := Text.isIdentifierChar_of_start start
  have front : ((seen, shown) :: tail).takeWhile (Text.isIdentifierChar ·.1) =
      (seen, shown) :: tail.takeWhile (Text.isIdentifierChar ·.1) :=
    List.takeWhile_cons_of_pos word
  have behind : ((seen, shown) :: tail).dropWhile (Text.isIdentifierChar ·.1) =
      tail.dropWhile (Text.isIdentifierChar ·.1) :=
    List.dropWhile_cons_of_pos word
  rw [front, behind] at read
  simp only at read
  split at read
  · rename_i opening inside atOpening
    split at read
    · rename_i closing after atClosing
      cases read
      refine ⟨(seen, shown), tail.takeWhile (Text.isIdentifierChar ·.1),
        (tail.dropWhile (Text.isIdentifierChar ·.1)).takeWhile (Text.isBlank ·.1), opening,
        inside.takeWhile (!isParenthesis ·.1), closing, ?_, start, ?_, ?_, ?_, ?_⟩
      · rw [← atClosing, List.takeWhile_append_dropWhile, ← atOpening,
          List.takeWhile_append_dropWhile, List.cons_append, List.takeWhile_append_dropWhile]
      · intro x member
        simpa using List.mem_takeWhile_imp member
      · intro x member
        simpa using List.mem_takeWhile_imp member
      · intro x member
        simpa using List.mem_takeWhile_imp member
      · rfl
    · cases read
  · cases read

end Reader

/-- No quote stands in front of the arguments of a call. -/
theorem Call.IsRead.not_quote (read : c.IsRead) : ∀ d ∈ c.name ++ c.gap, d ≠ '\'' ∧ d ≠ '"' :=
  List.forall_mem_append.mpr
    ⟨fun d member =>
      not_quote_of_isIdentifierChar (Text.isIdentifierChar_of_mem read.name d member),
    fun d member => not_quote_of_isBlank (read.gap d member)⟩

/-- What is seen of a call that stands where no quote is open. -/
theorem Call.IsRead.mask_source (read : c.IsRead) (closed : q.isOpen = false) (t : Text) :
    q.mask (c.source ++ t) = c.name.map (fun d => (d, d)) ++ (c.gap.map (fun d => (d, d)) ++
      ('(', '(') :: (({} : Quotes).mask c.arguments ++ (')', ')') :: ({} : Quotes).mask t)) := by
  have behind := (Quotes.isOpen_after read.not_quote).trans closed
  have spelled : c.source ++ t = (c.name ++ c.gap) ++ '(' :: (c.arguments ++ ')' :: t) := by
    simp [Call.source]
  rw [spelled, Quotes.mask_append, Quotes.mask_of_closed closed read.not_quote, List.map_append,
    List.append_assoc, Quotes.mask_cons, Quotes.seen_of_closed behind,
    Quotes.next_of_parenthesis behind rfl, Quotes.mask_append, Quotes.mask_cons,
    Quotes.seen_of_closed read.closed, Quotes.next_of_parenthesis read.closed rfl]

/-- A call that is read where it is written is read wherever no quote is open, whatever follows. -/
theorem Call.IsRead.callAt? (read : c.IsRead) (closed : q.isOpen = false) (t : Text) :
    Template.callAt? (q.mask (c.source ++ t)) = some (c, ({} : Quotes).mask t) := by
  rw [read.mask_source closed]
  obtain ⟨name, gap, arguments⟩ := c
  have identifier := read.name
  cases name with
  | nil => cases identifier
  | cons first name =>
    have word := Text.isIdentifierChar_of_mem identifier
    rw [Text.isIdentifier, Bool.and_eq_true] at identifier
    rw [List.map_cons, callAt?_append identifier.1]
    · simp [Quotes.map_mask, Function.comp_def]
    · intro x member
      obtain ⟨d, inside, rfl⟩ := List.mem_map.mp member
      exact word d (List.mem_cons_of_mem _ inside)
    · intro x member
      obtain ⟨d, inside, rfl⟩ := List.mem_map.mp member
      exact read.gap d inside
    · exact read.arguments

/-- Every call that is found stands where no quote is open, and is read where it is written. -/
theorem of_callAt?_mask {rest : List (Char × Char)} (found : callAt? (q.mask t) = some (c, rest)) :
    q.isOpen = false ∧ c.IsRead ∧
      ∃ behind, t = c.source ++ behind ∧ rest = ({} : Quotes).mask behind := by
  obtain ⟨first, name, gap, opening, arguments, closing, whole, start, word, blank, inside, rfl⟩ :=
    append_of_callAt? found
  obtain ⟨n, behindName, rfl, seenName, whole⟩ := Quotes.of_mask_eq_append whole
  obtain ⟨g, behindGap, rfl, seenGap, whole⟩ := Quotes.of_mask_eq_append whole
  obtain ⟨openingClosed, behindOpening, rfl, after⟩ := Quotes.of_mask_eq_parenthesis rfl whole
  obtain ⟨a, behindArguments, rfl, seenArguments, whole⟩ := Quotes.of_mask_eq_append after.symm
  obtain ⟨closingClosed, behind, rfl, rfl⟩ := Quotes.of_mask_eq_parenthesis rfl whole
  -- Nothing in front of the parentheses is a quote, so that none is open at the name either.
  have nameFree : ∀ d ∈ n, d ≠ '\'' ∧ d ≠ '"' := Quotes.free_of_mask (by
    rw [seenName, List.forall_mem_cons]
    exact ⟨not_quote_of_isIdentifierChar (Text.isIdentifierChar_of_start start),
      fun x member => not_quote_of_isIdentifierChar (word x member)⟩)
  have gapFree : ∀ d ∈ g, d ≠ '\'' ∧ d ≠ '"' := Quotes.free_of_mask (by
    rw [seenGap]
    exact fun x member => not_quote_of_isBlank (blank x member))
  have nameClosed : (q.after n).isOpen = false :=
    (Quotes.isOpen_after gapFree).symm.trans openingClosed
  have closed : q.isOpen = false := (Quotes.isOpen_after nameFree).symm.trans nameClosed
  rw [Quotes.mask_of_closed closed nameFree] at seenName
  rw [Quotes.mask_of_closed nameClosed gapFree] at seenGap
  have spelledName : (first :: name).map (·.2) = n := by simp [← seenName, Function.comp_def]
  have spelledGap : gap.map (·.2) = g := by simp [← seenGap, Function.comp_def]
  have spelledArguments : arguments.map (·.2) = a := by rw [← seenArguments, Quotes.map_mask]
  rw [spelledName, spelledGap, spelledArguments]
  refine ⟨closed, ⟨?_, ?_, ?_, closingClosed⟩, behind, by simp [Call.source], rfl⟩
  · cases n with
    | nil => cases seenName
    | cons d n =>
      rw [List.map_cons, List.cons.injEq] at seenName
      obtain ⟨rfl, rfl⟩ := seenName
      rw [Text.isIdentifier, Bool.and_eq_true, List.all_eq_true]
      exact ⟨start, fun e member => word (e, e) (List.mem_map_of_mem member)⟩
  · intro d member
    exact blank (d, d) (by rw [← seenGap]; exact List.mem_map_of_mem member)
  · rw [seenArguments]
    exact inside

end DatafileMigration.Template
