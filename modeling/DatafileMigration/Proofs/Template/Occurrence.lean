import DatafileMigration.Proofs.Template.Joined

namespace DatafileMigration.Template

variable {q : Quotes} {c : Call} {d : Char} {front behind expression sql t : Text} {ps : List Piece}

/-- A call that is read where it is written, behind a text that opens no quote and does not end in
a part of its name. -/
structure Call.StandsBehind (c : Call) (q : Quotes) (front : Text) : Prop where
  read : c.IsRead
  outside : (q.after front).isOpen = false
  whole : ∀ before d word, front = before ++ d :: word →
    (∀ e ∈ d :: word, Text.isIdentifierChar e) → Text.isIdentifierStart d = false

namespace Quotes

theorem after_append (s t : Text) : q.after (s ++ t) = (q.after s).after t := List.foldl_append ..

end Quotes

/-- Behind a call nothing is left of what stands in front of it. -/
theorem Call.IsRead.after_source (read : c.IsRead) (closed : q.isOpen = false) :
    q.after c.source = {} := by
  have behind := (Quotes.isOpen_after read.not_quote).trans closed
  have spelled : c.source = (c.name ++ c.gap) ++ '(' :: (c.arguments ++ [')']) := by
    simp [Call.source]
  rw [spelled, Quotes.after_append, Quotes.after_cons, Quotes.next_of_parenthesis behind rfl,
    Quotes.after_append, Quotes.after_cons, Quotes.next_of_parenthesis read.closed rfl]
  rfl

namespace Quotes

/-- Only a parenthesis may look like something else, and then like a space. -/
theorem isIdentifierChar_seen : Text.isIdentifierChar (q.seen d) = Text.isIdentifierChar d := by
  rw [seen]
  split
  · rename_i hidden
    rw [Bool.and_eq_true, isParenthesis, Bool.or_eq_true, decide_eq_true_eq,
      decide_eq_true_eq] at hidden
    rcases hidden.2 with rfl | rfl <;> decide
  · rfl

theorem isIdentifierStart_seen (word : Text.isIdentifierChar d) :
    Text.isIdentifierStart (q.seen d) = Text.isIdentifierStart d := by
  rw [seen, isParenthesis_of_isIdentifierChar word, Bool.and_false, if_neg Bool.false_ne_true]

end Quotes

/-- What goes on to a call behind a text is completed in the text already, or the text is part of
a name that the call's name lengthens. -/
theorem CallPart.completes_append_call {part : CallPart} (read : c.IsRead)
    (outside : (q.after front).isOpen = false) :
    part.completes (q.mask (front ++ (c.source ++ t))) ↔
      part.completes (q.mask front) ∨ part = .name ∧ ∀ d ∈ front, Text.isIdentifierChar d := by
  induction front generalizing q part with
  | nil =>
    rw [List.nil_append, read.completes (q := q) outside, decide_eq_true_eq]
    simp [completes]
  | cons d front ih =>
    have behind (part : CallPart) :
        part.completes ((q.next d).mask (front ++ (c.source ++ t))) ↔
          part.completes ((q.next d).mask front) ∨
            part = .name ∧ ∀ d ∈ front, Text.isIdentifierChar d := ih outside
    rw [List.cons_append, Quotes.mask_cons, Quotes.mask_cons]
    cases part with
    | name =>
      rw [completes, completes, Quotes.isIdentifierChar_seen]
      cases word : Text.isIdentifierChar d with
      | true => simp [behind, word]
      | false =>
        rw [if_neg Bool.false_ne_true]
        split <;> simp [behind, word]
    | gap =>
      rw [completes, completes]
      split <;> simp [behind]
    | arguments =>
      rw [completes, completes]
      split <;> simp [behind]

/-- A character in front of a call begins none, if it begins none there and the call's name does not
go on from it. -/
theorem callAt?_append_call_eq_none (read : c.IsRead)
    (outside : (q.after (d :: front)).isOpen = false) :
    callAt? (q.mask (d :: front ++ (c.source ++ t))) = none ↔
      callAt? (q.mask (d :: front)) = none ∧
        ((∀ e ∈ d :: front, Text.isIdentifierChar e) → Text.isIdentifierStart d = false) := by
  have begins (s : Text) : callAt? (q.mask (d :: s)) = none ↔
      ¬ (Text.isIdentifierStart (q.seen d) ∧ CallPart.name.completes (q.mask (d :: s))) := by
    rw [← Option.not_isSome_iff_eq_none, Quotes.mask_cons, isSome_callAt?, Bool.and_eq_true]
  rw [List.cons_append, begins, begins, ← List.cons_append,
    CallPart.completes_append_call read outside]
  by_cases word : ∀ e ∈ d :: front, Text.isIdentifierChar e
  · rw [Quotes.isIdentifierStart_seen (word d List.mem_cons_self)]
    cases Text.isIdentifierStart d <;> simp [word]
  · simp only [word, and_false, or_false, IsEmpty.forall_iff, and_true]

section Pieces

variable {more : List Piece}

theorem settled_plain : Settled q (.plain d :: ps) ↔
    callAt? (q.mask (d :: ps.flatMap Piece.source)) = none ∧ Settled (q.next d) ps := by
  constructor
  · rintro (_ | ⟨none, settled⟩)
    exact ⟨none, settled⟩
  · exact fun parts => .plain parts.1 parts.2

theorem settled_call : Settled q (.call c :: ps) ↔ q.isOpen = false ∧ c.IsRead ∧ Settled {} ps := by
  constructor
  · rintro (_ | _ | ⟨closed, read, settled⟩)
    exact ⟨closed, read, settled⟩
  · exact fun parts => .call parts.1 parts.2.1 parts.2.2

namespace Call.StandsBehind

theorem nil_iff : c.StandsBehind q [] ↔ q.isOpen = false ∧ c.IsRead := by
  constructor
  · exact fun stands => ⟨stands.outside, stands.read⟩
  · refine fun parts => ⟨parts.2, parts.1, fun before d word empty => ?_⟩
    exact absurd empty.symm (by simp)

theorem cons_iff : c.StandsBehind q (d :: front) ↔ c.StandsBehind (q.next d) front ∧
    ((∀ e ∈ d :: front, Text.isIdentifierChar e) → Text.isIdentifierStart d = false) := by
  constructor
  · intro stands
    have further : c.StandsBehind (q.next d) front :=
      ⟨stands.read, stands.outside, fun before e word same =>
        stands.whole (d :: before) e word (congrArg (d :: ·) same)⟩
    exact ⟨further, stands.whole [] d front rfl⟩
  · rintro ⟨stands, here⟩
    refine ⟨stands.read, stands.outside, fun before e word same all => ?_⟩
    cases before with
    | nil =>
      obtain ⟨rfl, rfl⟩ := List.cons.inj same
      exact here all
    | cons first before => exact stands.whole before e word (List.cons.inj same).2 all

/-- Behind a call that is read, only what stands behind that call counts. -/
theorem source_append_iff {c' : Call} (read : c'.IsRead) (closed : q.isOpen = false) :
    c.StandsBehind q (c'.source ++ front) ↔ c.StandsBehind {} front := by
  have after : q.after (c'.source ++ front) = Quotes.after {} front := by
    rw [Quotes.after_append, read.after_source closed]
  constructor
  · intro stands
    refine ⟨stands.read, after ▸ stands.outside, fun before e word same => ?_⟩
    exact stands.whole (c'.source ++ before) e word (by rw [same, List.append_assoc])
  · intro stands
    refine ⟨stands.read, after ▸ stands.outside, fun before e word same all => ?_⟩
    rcases List.append_eq_append_iff.mp same with ⟨within, _, rest⟩ | ⟨within, rest, there⟩
    · exact stands.whole within e word rest all
    · cases within with
      | nil => exact stands.whole [] e word there.symm all
      | cons x within =>
        -- The call ends in a parenthesis, which is part of no name.
        have last : ')' ∈ e :: word := by
          have ends := c'.getLast?_source
          rw [rest, List.getLast?_append_of_ne_nil _ (List.cons_ne_nil _ _)] at ends
          rw [there]
          exact List.mem_append_left _ (List.mem_of_getLast? ends)
        exact absurd (all _ last) (by decide)

end Call.StandsBehind

/-- Pieces with a call among them are read where they are written exactly if both sides are and the
call stands behind what is in front of it. -/
theorem settled_append_call : Settled q (ps ++ .call c :: more) ↔
    Settled q ps ∧ c.StandsBehind q (ps.flatMap Piece.source) ∧ Settled {} more := by
  induction ps generalizing q with
  | nil =>
    rw [List.nil_append, settled_call, List.flatMap_nil, Call.StandsBehind.nil_iff, and_assoc]
    exact ⟨fun parts => ⟨.nil, parts⟩, And.right⟩
  | cons p ps ih =>
    cases p with
    | plain d =>
      rw [List.cons_append, settled_plain, settled_plain, ih, List.flatMap_cons, Piece.source,
        List.singleton_append, Call.StandsBehind.cons_iff]
      have whole : d :: (ps ++ .call c :: more).flatMap Piece.source =
          d :: ps.flatMap Piece.source ++ (c.source ++ more.flatMap Piece.source) := by
        rw [List.flatMap_append, List.flatMap_cons]
        rfl
      rw [whole]
      constructor
      · rintro ⟨none, settled, stands, last⟩
        rw [callAt?_append_call_eq_none stands.read stands.outside] at none
        exact ⟨⟨none.1, settled⟩, ⟨stands, none.2⟩, last⟩
      · rintro ⟨⟨none, settled⟩, ⟨stands, here⟩, last⟩
        rw [callAt?_append_call_eq_none stands.read stands.outside]
        exact ⟨⟨none, here⟩, settled, stands, last⟩
    | call c' =>
      rw [List.cons_append, settled_call, settled_call, ih, List.flatMap_cons, Piece.source]
      constructor
      · rintro ⟨closed, read, settled, stands, last⟩
        have further := (Call.StandsBehind.source_append_iff read closed).mpr stands
        exact ⟨⟨closed, read, settled⟩, further, last⟩
      · rintro ⟨⟨closed, read, settled⟩, stands, last⟩
        have further := (Call.StandsBehind.source_append_iff read closed).mp stands
        exact ⟨closed, read, settled, further, last⟩

end Pieces

/-- A call stands in an expression, with anything behind it. -/
def Call.StandsInExpression (c : Call) (expression : Text) : Prop :=
  ∃ front behind, expression = front ++ c.source ++ behind ∧ c.StandsBehind {} front

/-- The calls that are read off an expression are those that stand in it. -/
theorem mem_calls_iff : c ∈ calls expression ↔ c.StandsInExpression expression := by
  have isPiece : c ∈ calls expression ↔ .call c ∈ pieces expression := by
    rw [calls, List.mem_filterMap]
    constructor
    · rintro ⟨p, member, found⟩
      cases p with
      | plain d => cases found
      | call c' =>
        obtain rfl := Option.some.inj found
        exact member
    · exact fun member => ⟨.call c, member, rfl⟩
  rw [isPiece]
  constructor
  · intro member
    obtain ⟨before, after, split⟩ := List.append_of_mem member
    have read : piecesOf (Quotes.mask {} expression) = before ++ .call c :: after := split
    obtain ⟨settled, whole⟩ := settled_piecesOf {} expression
    rw [read] at settled whole
    obtain ⟨_, stands, _⟩ := settled_append_call.mp settled
    refine ⟨before.flatMap Piece.source, after.flatMap Piece.source, ?_, stands⟩
    rw [← whole, List.flatMap_append, List.flatMap_cons, List.append_assoc]
    rfl
  · rintro ⟨front, behind, rfl, stands⟩
    obtain ⟨before, first⟩ := settled_piecesOf {} front
    obtain ⟨after, last⟩ := settled_piecesOf {} behind
    have settled := settled_append_call.mpr ⟨before, by rw [first]; exact stands, after⟩
    have split := settled.piecesOf_eq
    rw [List.flatMap_append, List.flatMap_cons, first, last, Piece.source, ← List.append_assoc]
      at split
    have read : pieces (front ++ c.source ++ behind) = _ := split
    rw [read]
    exact List.mem_append_right _ List.mem_cons_self

namespace Segment

theorem Settled.isInside {ss : List Segment} {inside : Text} (settled : Settled ss)
    (member : .placeholder inside ∈ ss) : IsInside inside := by
  induction settled with
  | nil => cases member
  | plain _ _ ih => exact ih (List.mem_of_ne_of_mem (by simp) member)
  | placeholder isInside _ ih =>
    rcases List.mem_cons.mp member with same | later
    · cases same
      exact isInside
    · exact ih later

end Segment

/-- The expressions of a query are what stands between double braces without a brace inside. -/
theorem mem_expressions_iff : expression ∈ expressions sql ↔
    ∃ before inside behind, sql = before ++ (Segment.placeholder inside).source ++ behind ∧
      IsInside inside ∧ Text.strip inside = expression := by
  constructor
  · intro member
    obtain ⟨s, isSegment, found⟩ := List.mem_filterMap.mp member
    cases s with
    | plain d => cases found
    | placeholder inside =>
      obtain rfl := Option.some.inj found
      obtain ⟨before, after, split⟩ := List.append_of_mem isSegment
      have whole := flatMap_source_segments sql
      rw [split, List.flatMap_append, List.flatMap_cons] at whole
      have settled := Segment.settled_segments sql
      rw [split] at settled
      exact ⟨before.flatMap Segment.source, inside, after.flatMap Segment.source, by simp [← whole],
        settled.isInside (List.mem_append_right _ List.mem_cons_self), rfl⟩
  · rintro ⟨before, inside, behind, rfl, isInside, rfl⟩
    have found := placeholderAt?_eq_some.mpr
      ⟨isInside, (rfl : (Segment.placeholder inside).source ++ behind = _)⟩
    have opens : before ++ (Segment.placeholder inside).source ++ behind =
        before ++ '\x7b' :: '\x7b' :: (inside ++ "\x7d\x7d" ++ behind) := by
      simp [Segment.source]
    rw [opens, expressions_append_opening]
    have same : '\x7b' :: '\x7b' :: (inside ++ "\x7d\x7d" ++ behind) =
        (Segment.placeholder inside).source ++ behind := by
      simp [Segment.source]
    rw [same, expressions_placeholder found]
    exact List.mem_append_right _ List.mem_cons_self

/-- A call stands in a query, inside of braces that enclose no brace. -/
def Call.StandsIn (c : Call) (sql : Text) : Prop :=
  ∃ before inside behind, sql = before ++ (Segment.placeholder inside).source ++ behind ∧
    IsInside inside ∧ c.StandsInExpression (Text.strip inside)

/-- No call that stands in a query has a brace. -/
theorem Call.StandsIn.solid (stands : c.StandsIn sql) : ∀ d ∈ c.source, isBrace d = false := by
  obtain ⟨_, inside, _, _, isInside, front, behind, whole, _⟩ := stands
  intro d member
  refine isInside.solid d (Text.mem_of_mem_strip ?_)
  rw [whole]
  exact List.mem_append_left _ (List.mem_append_right _ member)

/-- The calls that are read off a query are those that stand in it. -/
theorem mem_queryCalls_iff : c ∈ queryCalls sql ↔ c.StandsIn sql := by
  rw [queryCalls, List.mem_flatMap]
  constructor
  · rintro ⟨expression, isExpression, member⟩
    obtain ⟨before, inside, behind, whole, isInside, rfl⟩ := mem_expressions_iff.mp isExpression
    exact ⟨before, inside, behind, whole, isInside, mem_calls_iff.mp member⟩
  · rintro ⟨before, inside, behind, whole, isInside, stands⟩
    have isExpression := mem_expressions_iff.mpr ⟨before, inside, behind, whole, isInside, rfl⟩
    exact ⟨Text.strip inside, isExpression, mem_calls_iff.mpr stands⟩

end DatafileMigration.Template
