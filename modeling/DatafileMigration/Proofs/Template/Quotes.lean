import DatafileMigration.Template.Call

namespace DatafileMigration.Template

/-- What is known at a place of an expression: which quotes are open, and whether the last character
was a backslash. What comes before a place counts there by these facts only. -/
structure Quotes where
  inSingle : Bool := false
  inDouble : Bool := false
  escaped : Bool := false
  deriving DecidableEq, Repr

namespace Quotes

variable {q : Quotes} {c : Char} {s t : Text}

def isOpen (q : Quotes) : Bool := q.inSingle || q.inDouble

/-- What the call reader sees in the place of a character. -/
def seen (q : Quotes) (c : Char) : Char := if q.isOpen && isParenthesis c then ' ' else c

/-- What is known behind a character. -/
def next (q : Quotes) (c : Char) : Quotes :=
  let escaped := c == '\\'
  if c = '\'' && !q.inDouble && !q.escaped then { q with inSingle := !q.inSingle, escaped }
  else if c = '"' && !q.inSingle && !q.escaped then { q with inDouble := !q.inDouble, escaped }
  else { q with escaped }

def after (q : Quotes) (t : Text) : Quotes := t.foldl next q

/-- A text as it is seen from this state on. -/
def mask (q : Quotes) (t : Text) : List (Char × Char) :=
  Template.mask q.inSingle q.inDouble q.escaped t

@[simp]
theorem after_cons : q.after (c :: t) = (q.next c).after t := rfl

@[simp]
theorem mask_nil : q.mask [] = [] := rfl

/-- Only parentheses may look like something else, and they are no quotes. -/
@[simp]
theorem mask_cons : q.mask (c :: t) = (q.seen c, c) :: (q.next c).mask t := by
  have solid (quote : c = '\'' ∨ c = '"') : q.seen c = c := by
    rcases quote with rfl | rfl <;> simp [seen, isParenthesis]
  rw [mask, Template.mask, next]
  split
  · rename_i single
    simp only [Bool.and_eq_true, decide_eq_true_eq] at single
    rw [solid (Or.inl single.1.1)]
    rfl
  split
  · rename_i double
    simp only [Bool.and_eq_true, decide_eq_true_eq] at double
    rw [solid (Or.inr double.1.1)]
    rfl
  split
  · rename_i hidden
    rw [seen, isOpen, isParenthesis, if_pos hidden]
    rfl
  · rename_i shown
    rw [seen, isOpen, isParenthesis, if_neg shown]
    rfl

theorem next_of_not_quote (free : c ≠ '\'' ∧ c ≠ '"') :
    q.next c = { q with escaped := c == '\\' } := by
  simp [next, free.1, free.2]

theorem mask_append : q.mask (s ++ t) = q.mask s ++ (q.after s).mask t := by
  induction s generalizing q with
  | nil => rfl
  | cons c s ih => rw [List.cons_append, mask_cons, mask_cons, ih, after_cons, List.cons_append]

/-- Beside what is seen stands the text itself. -/
theorem map_mask : (q.mask t).map (·.2) = t := by
  induction t generalizing q with
  | nil => rfl
  | cons c t ih => rw [mask_cons, List.map_cons, ih]

/-- What is seen of a text comes apart where the text does. -/
theorem of_mask_eq_append {front behind : List (Char × Char)} (whole : q.mask t = front ++ behind) :
    ∃ s u, t = s ++ u ∧ q.mask s = front ∧ (q.after s).mask u = behind := by
  induction front generalizing q t with
  | nil => exact ⟨[], t, rfl, rfl, whole⟩
  | cons x front ih =>
    cases t with
    | nil => cases whole
    | cons c t =>
      rw [mask_cons, List.cons_append, List.cons.injEq] at whole
      obtain ⟨rfl, rest⟩ := whole
      obtain ⟨s, u, rfl, rfl, rfl⟩ := ih rest
      exact ⟨c :: s, u, rfl, mask_cons, rfl⟩

theorem of_mask_eq_cons {x : Char × Char} {behind : List (Char × Char)}
    (whole : q.mask t = x :: behind) :
    ∃ c u, t = c :: u ∧ x = (q.seen c, c) ∧ (q.next c).mask u = behind := by
  cases t with
  | nil => cases whole
  | cons c t =>
    rw [mask_cons, List.cons.injEq] at whole
    exact ⟨c, t, rfl, whole.1.symm, whole.2⟩

/-- A quote is never seen as something else. -/
theorem free_of_mask (free : ∀ x ∈ q.mask t, x.1 ≠ '\'' ∧ x.1 ≠ '"') :
    ∀ c ∈ t, c ≠ '\'' ∧ c ≠ '"' := by
  induction t generalizing q with
  | nil => exact List.forall_mem_nil _
  | cons c t ih =>
    rw [mask_cons, List.forall_mem_cons] at free
    obtain ⟨here, rest⟩ := free
    refine List.forall_mem_cons.mpr ⟨?_, ih rest⟩
    constructor <;> rintro rfl <;> simp [seen, isParenthesis] at here

/-- A parenthesis that is seen stands outside of quotes. -/
theorem isOpen_of_seen (parenthesis : isParenthesis (q.seen c)) :
    q.isOpen = false ∧ q.seen c = c := by
  unfold seen at parenthesis ⊢
  split at parenthesis
  · exact absurd parenthesis (by decide)
  · rename_i shown
    rw [if_neg shown]
    simp_all

theorem seen_of_closed (closed : q.isOpen = false) : q.seen c = c := by
  rw [seen, closed, Bool.false_and, if_neg Bool.false_ne_true]

theorem next_of_parenthesis (closed : q.isOpen = false) (parenthesis : isParenthesis c) :
    q.next c = {} := by
  rw [isOpen, Bool.or_eq_false_iff] at closed
  rw [isParenthesis, Bool.or_eq_true, decide_eq_true_eq, decide_eq_true_eq] at parenthesis
  rcases parenthesis with rfl | rfl <;> simp [next, closed]

/-- Behind a parenthesis that is seen, what came before does not count. -/
theorem of_mask_eq_parenthesis {shown : Char} {behind : List (Char × Char)}
    (parenthesis : isParenthesis c) (whole : q.mask t = (c, shown) :: behind) :
    q.isOpen = false ∧ ∃ u, t = c :: u ∧ behind = ({} : Quotes).mask u := by
  obtain ⟨d, u, rfl, front, rfl⟩ := of_mask_eq_cons whole
  rw [Prod.mk.injEq] at front
  obtain ⟨rfl, rfl⟩ := front
  obtain ⟨closed, same⟩ := isOpen_of_seen parenthesis
  rw [same] at parenthesis ⊢
  exact ⟨closed, u, rfl, by rw [next_of_parenthesis closed parenthesis]⟩

/-- Where no quote stands, those that are open stay so. -/
theorem isOpen_after (free : ∀ c ∈ t, c ≠ '\'' ∧ c ≠ '"') : (q.after t).isOpen = q.isOpen := by
  induction t generalizing q with
  | nil => rfl
  | cons c t ih =>
    obtain ⟨here, rest⟩ := List.forall_mem_cons.mp free
    rw [after_cons, ih rest, next_of_not_quote here, isOpen, isOpen]

/-- What is seen of a text without quotes, outside of quotes, is the text itself. -/
theorem mask_of_closed (closed : q.isOpen = false) (free : ∀ c ∈ t, c ≠ '\'' ∧ c ≠ '"') :
    q.mask t = t.map fun c => (c, c) := by
  induction t generalizing q with
  | nil => rfl
  | cons c t ih =>
    obtain ⟨here, rest⟩ := List.forall_mem_cons.mp free
    rw [mask_cons, seen_of_closed closed, next_of_not_quote here, List.map_cons]
    rw [ih (by rw [isOpen] at closed ⊢; exact closed) rest]

end Quotes

end DatafileMigration.Template
