import DatafileMigration.Proofs.Query.Expression
import DatafileMigration.Proofs.Text.TopLevel

namespace DatafileMigration.Query

open Text (SplitState)

variable {s : SplitState} {c q : Char} {t : Text}

/-- What is open to the splitter. -/
def context (s : SplitState) : Context := ⟨s.opened, s.depth⟩

/-- A backslash keeps the mark `q` from opening or closing a quote. A backtick always counts. -/
structure Keeps (s : SplitState) (q : Char) : Prop where
  escaped : s.escaped
  mark : q = '\'' ∨ q = '"'
  opened : s.opened = none ∨ s.opened = some q

instance : Decidable (Keeps s q) :=
  decidable_of_iff (s.escaped ∧ (q = '\'' ∨ q = '"') ∧ (s.opened = none ∨ s.opened = some q))
    ⟨fun ⟨escaped, mark, opened⟩ => ⟨escaped, mark, opened⟩,
      fun ⟨escaped, mark, opened⟩ => ⟨escaped, mark, opened⟩⟩

theorem isQuote_iff : isQuote c ↔ (c = '\'' ∨ c = '"') ∨ c = Text.backtick := by
  simp only [isQuote, Bool.or_eq_true, decide_eq_true_eq]
  exact Iff.rfl

theorem isQuote_of_next {s : Context} (quoted : ∀ q ∈ s.quote, isQuote q) :
    ∀ q ∈ (s.next c).quote, isQuote q := by
  obtain ⟨quote, depth⟩ := s
  intro q member
  cases quote with
  | some opened =>
    simp only [Context.next] at member
    split at member
    · cases member
    · exact quoted q member
  | none =>
    by_cases quote : isQuote c
    · rw [Context.next_quote quote] at member
      cases member
      exact quote
    · rw [Context.next, if_neg quote] at member
      split_ifs at member <;> cases member

/-- A character that is not kept from counting does to the splitter what it does to a context. -/
theorem next_eq (quoted : ∀ q ∈ s.opened, isQuote q) (counts : ¬ Keeps s c) :
    s.next c = ⟨((context s).next c).quote, ((context s).next c).depth, c == '\\'⟩ := by
  obtain ⟨opened, depth, escaped⟩ := s
  cases opened with
  | some q =>
    by_cases closes : c = q
    · subst closes
      have counted : escaped = true → c = Text.backtick := by
        intro kept
        by_contra noTick
        have mark := (isQuote_iff.mp (quoted c rfl)).resolve_right noTick
        exact counts ⟨kept, mark, Or.inr rfl⟩
      simpa [SplitState.next, context, Context.next, or_iff_not_imp_right] using counted
    · simp [SplitState.next, context, Context.next, closes]
  | none =>
    by_cases tick : c = Text.backtick
    · subst tick
      rfl
    by_cases mark : c = '\'' ∨ c = '"'
    · have counted : escaped = false :=
        Bool.eq_false_iff.mpr fun kept => counts ⟨kept, mark, Or.inl rfl⟩
      have quote : isQuote c := isQuote_iff.mpr (Or.inl mark)
      simp [SplitState.next, context, Context.next, tick, mark, counted, quote]
    · have quote : isQuote c = false :=
        Bool.eq_false_iff.mpr fun quote => (isQuote_iff.mp quote).elim mark tick
      by_cases opening : c = '('
      · subst opening
        rfl
      by_cases closing : c = ')'
      · subst closing
        rfl
      simp [SplitState.next, context, Context.next, tick, mark, quote, opening, closing]

theorem context_next (quoted : ∀ q ∈ s.opened, isQuote q) (counts : ¬ Keeps s c) :
    context (s.next c) = (context s).next c := by
  rw [next_eq quoted counts]
  rfl

/-- The splitter and a context know the same to be open behind a text that shows no mark that is
kept from counting. -/
theorem context_after (quoted : ∀ q ∈ s.opened, isQuote q)
    (counts : ∀ front c rest, t = front ++ c :: rest → ¬ Keeps (s.after front) c) :
    context (s.after t) = (context s).after t := by
  induction t generalizing s with
  | nil => rfl
  | cons c t ih =>
    have first := context_next quoted (counts [] c t rfl)
    have quoted' : ∀ q ∈ (s.next c).opened, isQuote q := fun q member =>
      isQuote_of_next (s := context s) quoted q (first ▸ member : q ∈ ((context s).next c).quote)
    rw [Context.after_cons, ← first]
    refine ih quoted' fun front d rest equal => ?_
    exact counts (c :: front) d rest (congrArg (c :: ·) equal)

/-- A quote that is open stays open where its mark does not occur. -/
theorem opened_after (opened : s.opened = some q) (absent : q ∉ t) :
    (s.after t).opened = some q := by
  induction t generalizing s with
  | nil => exact opened
  | cons c t ih =>
    rw [List.mem_cons, not_or] at absent
    have same : (s.next c).opened = some q := by
      simp [SplitState.next, opened, Ne.symm absent.1]
    exact ih same absent.2

/-- A mark that is kept from counting changes nothing but that no backslash stands last. -/
theorem next_of_keeps (keeps : Keeps s q) : s.next q = { s with escaped := false } := by
  obtain ⟨escaped, mark, opened⟩ := keeps
  rcases mark with rfl | rfl <;> rcases opened with opened | opened <;>
    simp [SplitState.next, Text.backtick, escaped, opened]

end DatafileMigration.Query
