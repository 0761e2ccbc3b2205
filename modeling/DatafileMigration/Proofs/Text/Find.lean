import Mathlib.Data.List.Infix
import DatafileMigration.Proofs.Text.Strip
import DatafileMigration.Text.TopLevel

namespace DatafileMigration.Text

namespace FindState

variable {s : FindState} {escaped : Bool} {c : Char} {token t u v : Text} {index n : Nat}

/-- The state behind a text. -/
def after (s : FindState) (escaped : Bool) : Text → FindState
  | [] => s
  | c :: t => (s.next escaped c).after (c == '\\') t

/-- Whether a backslash ends a text. -/
def escapes (escaped : Bool) (t : Text) : Bool := (t.getLast?.map (· == '\\')).getD escaped

theorem after_append :
    s.after escaped (t ++ u) = (s.after escaped t).after (escapes escaped t) u := by
  induction t generalizing s escaped with
  | nil => rfl
  | cons c t ih =>
    rw [List.cons_append, after, ih, after]
    cases t with
    | nil => rfl
    | cons d t => rfl

theorem next_space : s.next escaped ' ' = s := by
  simp [next, backtick]

/-- Nothing is open. -/
theorem neutral_iff : (!s.isQuoted && s.depth == 0) = true ↔ s = {} := by
  obtain ⟨single, double, tick, depth⟩ := s
  simp [isQuoted, and_assoc]

/-- Between backticks nothing counts but a backtick. -/
theorem after_ticked (s : FindState) (ticked : s.inBacktick = true) (free : backtick ∉ t) :
    s.after escaped t = s := by
  induction t generalizing escaped with
  | nil => rfl
  | cons c t ih =>
    rw [List.mem_cons, not_or] at free
    have same : s.next escaped c = s := by
      simp [next, ticked, Ne.symm free.1, isQuoted]
    rw [after, same, ih free.2]

/-- The finder stops where the token stands and nothing is open. -/
theorem find?_cons_of_stands (stands : (' ' :: token) <+: c :: t) :
    find? (' ' :: token) {} escaped index (c :: t) = some index := by
  obtain ⟨rest, whole⟩ := stands
  have begins : startsWith (' ' :: token) (c :: t) = true := by
    rw [startsWith, dropPrefix?_eq_some_iff.mpr whole.symm, Option.isSome_some]
  obtain ⟨rfl, -⟩ := List.cons.inj whole
  rw [find?, next_space, begins]
  rfl

theorem find?_cons_of_not_stands (stands : s = {} → ¬ (' ' :: token) <+: c :: t) :
    find? (' ' :: token) s escaped index (c :: t) =
      find? (' ' :: token) (s.next escaped c) (c == '\\') (index + 1) t := by
  rw [find?, if_neg]
  intro here
  rw [Bool.and_eq_true, neutral_iff, startsWith, Option.isSome_iff_exists] at here
  obtain ⟨nothing, rest, begins⟩ := here
  have whole := dropPrefix?_eq_some_iff.mp begins
  obtain ⟨rfl, -⟩ := List.cons.inj whole
  rw [next_space] at nothing
  exact stands nothing ⟨rest, whole.symm⟩

/-- The first place of a token behind a text that closes all that it opens. -/
theorem find?_of_first (closed : s.after escaped u = {})
    (first : ∀ p, s.after escaped p = {} → p ++ (' ' :: token) <+: u ++ (' ' :: token) ++ v →
      u.length ≤ p.length) :
    find? (' ' :: token) s escaped index (u ++ (' ' :: token) ++ v) = some (index + u.length) := by
  induction u generalizing s escaped index with
  | nil =>
    obtain rfl : s = {} := closed
    exact find?_cons_of_stands (List.prefix_append ..)
  | cons c u ih =>
    have notHere : s = {} → ¬ (' ' :: token) <+: c :: (u ++ (' ' :: token) ++ v) :=
      fun nothing here => absurd (first [] nothing here) (by simp)
    rw [List.cons_append, List.cons_append, find?_cons_of_not_stands notHere]
    refine (ih closed fun p closed' here => ?_).trans (by simp; omega)
    have longer := first (c :: p) closed' (by simpa using here)
    simpa using longer

/-- No place of a token. -/
theorem find?_eq_none
    (never : ∀ p, s.after escaped p = {} → ¬ p ++ (' ' :: token) <+: t) :
    find? (' ' :: token) s escaped index t = none := by
  induction t generalizing s escaped index with
  | nil => rfl
  | cons c t ih =>
    have notHere : s = {} → ¬ (' ' :: token) <+: c :: t := never []
    rw [find?_cons_of_not_stands notHere]
    refine ih fun p closed here => never (c :: p) closed ?_
    simpa using here

/-- What is found stands there. -/
theorem stands_of_find? (found : find? (' ' :: token) s escaped index t = some n) :
    ∃ u v, t = u ++ (' ' :: token) ++ v ∧ n = index + u.length := by
  induction t generalizing s escaped index with
  | nil => cases found
  | cons c t ih =>
    rw [find?] at found
    split at found
    · rename_i here
      rw [Bool.and_eq_true, startsWith, Option.isSome_iff_exists] at here
      obtain ⟨-, rest, begins⟩ := here
      obtain rfl := Option.some.inj found
      exact ⟨[], rest, dropPrefix?_eq_some_iff.mp begins, rfl⟩
    · obtain ⟨u, v, rfl, rfl⟩ := ih found
      exact ⟨c :: u, v, rfl, by simp; omega⟩

end FindState

/-- A text closes its quotes and backticks, and as many parentheses as it opens. -/
def IsClosed (t : Text) : Prop := FindState.after {} false t = {}

instance : DecidablePred IsClosed := fun t =>
  inferInstanceAs (Decidable (FindState.after {} false t = {}))

/-- A text holds a mark nowhere outside its quotes, backticks and parentheses. -/
def Lacks (mark t : Text) : Prop := ∀ p ∈ t.inits, IsClosed p → ¬ p ++ mark <+: t

instance (mark t : Text) : Decidable (Lacks mark t) :=
  inferInstanceAs (Decidable (∀ p ∈ t.inits, IsClosed p → ¬ p ++ mark <+: t))

variable {mark p t u : Text}

theorem Lacks.not_prefix (lacks : Lacks mark t) (closed : IsClosed p) : ¬ p ++ mark <+: t :=
  fun stands => lacks p ((List.mem_inits p t).mpr ((List.prefix_append ..).trans stands)) closed stands

theorem IsClosed.after_tick (closed : IsClosed t) (free : backtick ∉ u) :
    FindState.after {} false (t ++ [' ', backtick] ++ u) = { inBacktick := true } := by
  have opened (escaped : Bool) :
      FindState.after {} escaped [' ', backtick] = { inBacktick := true } := by
    rw [FindState.after, FindState.next_space]
    rfl
  rw [FindState.after_append, FindState.after_append, closed, opened,
    FindState.after_ticked _ rfl free]

/-- Behind a closed text, a text between backticks is closed. -/
theorem IsClosed.append_ticked (closed : IsClosed t) (free : backtick ∉ u) :
    IsClosed (t ++ [' ', backtick] ++ u ++ [backtick]) := by
  rw [IsClosed, FindState.after_append, closed.after_tick free]
  rfl

theorem IsClosed.not_append_tick (closed : IsClosed t) (free : backtick ∉ u) :
    ¬ IsClosed (t ++ [' ', backtick] ++ u) := by
  rw [IsClosed, closed.after_tick free]
  exact fun same => absurd (congrArg FindState.inBacktick same) (by decide)

end DatafileMigration.Text
