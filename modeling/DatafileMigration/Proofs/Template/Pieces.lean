import DatafileMigration.Proofs.Template.Reduced

namespace DatafileMigration.Template

/-- Where a reader may stand in a call. -/
inductive CallPart where
  | name
  | gap
  | arguments
  deriving DecidableEq

namespace CallPart

/-- Whether a text is what is left of a call from such a place on, with anything behind. -/
def completes : CallPart → List (Char × Char) → Bool
  | _, [] => false
  | name, (c, _) :: t =>
    if Text.isIdentifierChar c then completes name t
    else if Text.isBlank c then completes gap t
    else c = '(' && completes arguments t
  | gap, (c, _) :: t => if Text.isBlank c then completes gap t else c = '(' && completes arguments t
  | arguments, (c, _) :: t => if isParenthesis c then c = ')' else completes arguments t

theorem completes_arguments (l : List (Char × Char)) : arguments.completes l =
    (l.dropWhile (!isParenthesis ·.1)).head?.any (·.1 = ')') := by
  induction l with
  | nil => rfl
  | cons x l ih =>
    obtain ⟨c, shown⟩ := x
    rw [completes, List.dropWhile_cons]
    by_cases parenthesis : isParenthesis c
    · simp [parenthesis]
    · simp [parenthesis, ih]

theorem completes_gap (l : List (Char × Char)) : gap.completes l =
    ((l.dropWhile (Text.isBlank ·.1)).head?.any (·.1 = '(')
      && arguments.completes (l.dropWhile (Text.isBlank ·.1)).tail) := by
  induction l with
  | nil => rfl
  | cons x l ih =>
    obtain ⟨c, shown⟩ := x
    rw [completes, List.dropWhile_cons]
    by_cases blank : Text.isBlank c
    · simp [blank, ih]
    · simp [blank]

theorem completes_name (l : List (Char × Char)) :
    name.completes l = gap.completes (l.dropWhile (Text.isIdentifierChar ·.1)) := by
  induction l with
  | nil => rfl
  | cons x l ih =>
    obtain ⟨c, shown⟩ := x
    rw [completes, List.dropWhile_cons]
    by_cases word : Text.isIdentifierChar c
    · rw [if_pos word, ih]
      simp only [word, if_true]
    · rw [if_neg word]
      simp only [word, Bool.false_eq_true, if_false, completes]

end CallPart

theorem head?_any_eq_false {l : List (Char × Char)} {c : Char}
    (other : ∀ shown rest, l = (c, shown) :: rest → False) : l.head?.any (·.1 = c) = false := by
  cases l with
  | nil => rfl
  | cons x rest => exact decide_eq_false fun same => other x.2 rest (by rw [← same])

/-- A call is found at a character that may begin a name, if a call goes on from there. -/
theorem isSome_callAt? {x : Char × Char} {l : List (Char × Char)} :
    (callAt? (x :: l)).isSome =
      (Text.isIdentifierStart x.1 && CallPart.name.completes (x :: l)) := by
  obtain ⟨seen, shown⟩ := x
  rw [callAt?, CallPart.completes_name, CallPart.completes_gap, CallPart.completes_arguments]
  cases start : Text.isIdentifierStart seen with
  | false => rfl
  | true =>
    simp only [Bool.not_true, Bool.false_eq_true, if_false, Bool.true_and]
    split
    · rename_i behindGap
      rw [behindGap, List.tail_cons]
      split
      · rename_i behindArguments
        rw [behindArguments]
        rfl
      · rename_i other
        rw [head?_any_eq_false other]
        rfl
    · rename_i other
      rw [head?_any_eq_false other]
      rfl

theorem piecesOf_call {l rest : List (Char × Char)} {c : Call}
    (found : callAt? l = some (c, rest)) : piecesOf l = .call c :: piecesOf rest := by
  rw [piecesOf]
  split
  · rename_i found'
    rw [found] at found'
    cases found'
    rfl
  · rename_i none
    rw [found] at none
    cases none

theorem piecesOf_plain {x : Char × Char} {l : List (Char × Char)} (none : callAt? (x :: l) = none) :
    piecesOf (x :: l) = .plain x.2 :: piecesOf l := by
  rw [piecesOf]
  split
  · rename_i found
    rw [none] at found
    cases found
  · rfl

/-- Pieces that are read where they are written, one after the other from a place on. -/
inductive Settled : Quotes → List Piece → Prop
  | nil {q} : Settled q []
  | plain {q c ps} : callAt? (q.mask (c :: ps.flatMap Piece.source)) = none →
      Settled (q.next c) ps → Settled q (.plain c :: ps)
  | call {q c ps} : q.isOpen = false → Call.IsRead c → Settled {} ps → Settled q (.call c :: ps)

variable {q : Quotes} {ps : List Piece}

/-- The pieces of a text are read where they are written, and nothing is lost between them. -/
theorem settled_piecesOf (q : Quotes) (t : Text) :
    Settled q (piecesOf (q.mask t)) ∧ (piecesOf (q.mask t)).flatMap Piece.source = t := by
  generalize size : t.length = n
  induction n using Nat.strong_induction_on generalizing q t with
  | _ n ih =>
    cases found : callAt? (q.mask t) with
    | some entry =>
      obtain ⟨c, rest⟩ := entry
      obtain ⟨closed, read, behind, rfl, rfl⟩ := of_callAt?_mask found
      have shorter : behind.length < n := by
        rw [← size]
        simp [Call.source]
        omega
      obtain ⟨settled, whole⟩ := ih behind.length shorter {} behind rfl
      rw [piecesOf_call found, List.flatMap_cons, whole]
      exact ⟨.call closed read settled, rfl⟩
    | none =>
      cases t with
      | nil =>
        rw [Quotes.mask_nil, piecesOf]
        exact ⟨.nil, rfl⟩
      | cons c t =>
        obtain ⟨settled, whole⟩ := ih t.length (by simp [← size]) (q.next c) t rfl
        rw [Quotes.mask_cons] at found ⊢
        rw [piecesOf_plain found, List.flatMap_cons, whole]
        exact ⟨.plain (by rw [whole, Quotes.mask_cons]; exact found) settled, rfl⟩

theorem Settled.piecesOf_eq (settled : Settled q ps) :
    piecesOf (q.mask (ps.flatMap Piece.source)) = ps := by
  induction settled with
  | nil =>
    rw [List.flatMap_nil, Quotes.mask_nil, piecesOf]
    rfl
  | @plain q c ps none _ ih =>
    rw [List.flatMap_cons, Piece.source, List.singleton_append, Quotes.mask_cons]
    rw [Quotes.mask_cons] at none
    rw [piecesOf_plain none, ih]
  | @call q c ps closed read _ ih =>
    rw [List.flatMap_cons, Piece.source, piecesOf_call (read.callAt? closed _), ih]

/-- A call can go on with another one only where the names of both run together: in a gap it would
need its parenthesis, and among arguments there is none. -/
theorem Call.IsRead.completes {c : Call} (read : c.IsRead) (closed : q.isOpen = false)
    (part : CallPart) (t : Text) :
    part.completes (q.mask (c.source ++ t)) = decide (part = .name) := by
  have found := read.callAt? closed t
  have identifier := read.name
  have word := Text.isIdentifierChar_of_mem identifier
  rw [read.mask_source closed] at found ⊢
  obtain ⟨name, gap, arguments⟩ := c
  cases name with
  | nil => cases identifier
  | cons first name =>
    rw [Text.isIdentifier, Bool.and_eq_true] at identifier
    cases part with
    | name =>
      have some := congrArg Option.isSome found
      rw [List.map_cons, List.cons_append, isSome_callAt?, identifier.1, Bool.true_and] at some
      rw [List.map_cons, List.cons_append, some]
      rfl
    | gap =>
      have start := word first List.mem_cons_self
      have mark : first ≠ '(' := Text.ne_of_isIdentifierChar start (by decide)
      simp [CallPart.completes, Text.isBlank_of_isIdentifierChar start, mark]
    | arguments =>
      have solid : ∀ x ∈ (first :: name).map (fun d => (d, d)) ++ gap.map (fun d => (d, d)),
          (!isParenthesis x.1) = true := by
        intro x member
        rw [← List.map_append] at member
        obtain ⟨d, inside, rfl⟩ := List.mem_map.mp member
        rw [Bool.not_eq_true']
        rcases List.mem_append.mp inside with inName | inGap
        · exact isParenthesis_of_isIdentifierChar (word d inName)
        · exact isParenthesis_of_isBlank (read.gap d inGap)
      rw [CallPart.completes_arguments, ← List.append_assoc, Text.dropWhile_of_stop solid rfl]
      rfl

def Piece.reduced : Piece → Piece
  | .plain c => .plain c
  | .call c => .call c.reduced

theorem Piece.source_reduced (p : Piece) : p.reduced.source = p.normalized := by
  cases p with
  | plain c => rfl
  | call c => exact c.source_reduced

/-- What stands behind a place completes a call there or does not, reduced or not. -/
theorem Settled.completes_reduced (settled : Settled q ps) (part : CallPart) :
    part.completes (q.mask ((ps.map Piece.reduced).flatMap Piece.source)) =
      part.completes (q.mask (ps.flatMap Piece.source)) := by
  induction settled generalizing part with
  | nil => rfl
  | @plain q c ps _ _ ih =>
    simp only [List.map_cons, List.flatMap_cons, Piece.reduced, Piece.source, List.singleton_append,
      Quotes.mask_cons]
    cases part <;> simp only [CallPart.completes, ih]
  | @call q c ps closed read _ _ =>
    simp only [List.map_cons, List.flatMap_cons, Piece.reduced, Piece.source]
    rw [read.reduced.completes closed, read.completes closed]

/-- Reduced pieces are read where they are written. -/
theorem Settled.reduced (settled : Settled q ps) : Settled q (ps.map Piece.reduced) := by
  induction settled with
  | nil => exact .nil
  | @plain q c ps none settled ih =>
    refine .plain ?_ ih
    have same := (Settled.plain none settled).completes_reduced .name
    simp only [List.map_cons, List.flatMap_cons, Piece.reduced, Piece.source, List.singleton_append,
      Quotes.mask_cons] at same
    rw [Quotes.mask_cons, ← Option.not_isSome_iff_eq_none, isSome_callAt?] at none ⊢
    rw [same]
    exact none
  | call closed read _ ih => exact .call closed read.reduced ih

theorem Piece.flatMap_normalized (ps : List Piece) :
    ps.flatMap Piece.normalized = (ps.map Piece.reduced).flatMap Piece.source := by
  rw [List.flatMap_map]
  simp only [Piece.source_reduced]

/-- The pieces of an expression whose calls are reduced are the reduced pieces. Neither does a call
go, nor does a new one come into being between the calls that became shorter. -/
theorem pieces_reduced (expression : Text) :
    pieces ((pieces expression).flatMap Piece.normalized) =
      (pieces expression).map Piece.reduced := by
  rw [Piece.flatMap_normalized]
  exact (settled_piecesOf {} expression).1.reduced.piecesOf_eq

theorem Call.getLast?_source (c : Call) : c.source.getLast? = some ')' :=
  List.getLast?_concat

theorem Settled.head?_reduced (settled : Settled q ps) :
    ((ps.map Piece.reduced).flatMap Piece.source).head? = (ps.flatMap Piece.source).head? := by
  cases settled with
  | nil => rfl
  | plain _ _ => rfl
  | @call _ c ps _ read _ =>
    obtain ⟨first, more, name⟩ := List.exists_cons_of_ne_nil (Text.isIdentifier_ne_nil read.name)
    simp only [List.map_cons, List.flatMap_cons, Piece.reduced, Piece.source, Call.source,
      c.name_reduced, name, List.cons_append, List.head?_cons]

theorem Settled.getLast?_reduced (settled : Settled q ps) :
    ((ps.map Piece.reduced).flatMap Piece.source).getLast? =
      (ps.flatMap Piece.source).getLast? := by
  induction settled with
  | nil => rfl
  | plain _ _ ih =>
    simp only [List.map_cons, List.flatMap_cons, List.getLast?_append, ih]
    rfl
  | call _ _ _ ih =>
    simp only [List.map_cons, List.flatMap_cons, List.getLast?_append, ih, Piece.reduced,
      Piece.source, Call.getLast?_source]

section Expression

variable {expression : Text} (stripped : Text.strip expression = expression)
include stripped

/-- The normal form of a stripped expression begins and ends as the expression does. -/
theorem normalizeExpression_eq :
    normalizeExpression expression = (pieces expression).flatMap Piece.normalized := by
  obtain ⟨settled, whole⟩ := settled_piecesOf {} expression
  rw [← whole, Text.strip_eq_self_iff_ends, ← settled.head?_reduced, ← settled.getLast?_reduced,
    ← Text.strip_eq_self_iff_ends, ← Piece.flatMap_normalized] at stripped
  exact stripped

theorem pieces_normalizeExpression :
    pieces (normalizeExpression expression) = (pieces expression).map Piece.reduced := by
  rw [normalizeExpression_eq stripped, pieces_reduced]

theorem calls_normalizeExpression :
    calls (normalizeExpression expression) = (calls expression).map Call.reduced := by
  rw [calls, pieces_normalizeExpression stripped, calls, List.filterMap_map, List.map_filterMap]
  congr 1
  funext p
  cases p <;> rfl

theorem normalizeExpression_normalizeExpression :
    normalizeExpression (normalizeExpression expression) = normalizeExpression expression := by
  have again (p : Piece) : p.reduced.reduced = p.reduced := by
    cases p with
    | plain c => rfl
    | call c => rw [Piece.reduced, Piece.reduced, Call.reduced_reduced]
  rw [normalizeExpression, pieces_normalizeExpression stripped, normalizeExpression,
    Piece.flatMap_normalized, Piece.flatMap_normalized, List.map_map]
  congr 3
  funext p
  exact again p

end Expression

end DatafileMigration.Template
