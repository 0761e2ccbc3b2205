import DatafileMigration.Batch.Normal
import DatafileMigration.Proofs.Fault.Yields
import DatafileMigration.Proofs.Query.StrayLetter

namespace DatafileMigration

/-- An endpoint without output columns whose last query comes to a stray letter. -/
structure Pipe.HasStrayLetter (p : Pipe) : Prop where
  endpoint : p.type = .endpoint
  unknown : p.outputColumns = []
  stray : ∃ node, p.outputNode? = some node ∧ Query.StrayLetter 0 node.sql

theorem Pipe.complete_breaks {p : Pipe} : (∃ why, p.complete = .error why) ↔ p.HasStrayLetter := by
  unfold Pipe.complete
  by_cases asks : p.type = .endpoint ∧ p.outputColumns = []
  · obtain ⟨endpoint, unknown⟩ := asks
    cases last : p.outputNode? with
    | none =>
      refine iff_of_false (by simp [endpoint, unknown]) ?_
      intro letter
      obtain ⟨node, found, _⟩ := letter.stray
      rw [last] at found
      cases found
    | some node =>
      have stray_iff : p.HasStrayLetter ↔ Query.StrayLetter 0 node.sql := by
        constructor
        · intro letter
          obtain ⟨other, found, stray⟩ := letter.stray
          rw [last] at found
          cases found
          exact stray
        · intro stray
          exact ⟨endpoint, unknown, node, last, stray⟩
      rw [stray_iff, ← Query.outputColumns_breaks]
      cases read : Query.outputColumns node.sql <;>
        simp [endpoint, unknown, read, bind, Except.bind, pure, Except.pure]
  · refine iff_of_false (by simp [asks]) ?_
    intro letter
    exact asks ⟨letter.endpoint, letter.unknown⟩

theorem Pipe.yields_complete {p : Pipe} :
    Yields (fun q => ∃ columns, q = { p with outputColumns := columns }) p.complete := by
  unfold Pipe.complete
  rw [yields_ite]
  constructor
  · intro _
    cases p.outputNode? with
    | some node => simp
    | none => exact yields_ok.mpr ⟨p.outputColumns, rfl⟩
  · intro _
    exact yields_ok.mpr ⟨p.outputColumns, rfl⟩

/-- A resource is completed unless it is an endpoint with such a query. -/
theorem Resource.complete_breaks {r : Resource} :
    (∃ why, r.complete = .error why) ↔ ∃ p, r = .pipe p ∧ p.HasStrayLetter := by
  cases r with
  | connection c => simp [complete]
  | datasource d => simp [complete]
  | pipe p =>
    simp only [Resource.pipe.injEq, exists_eq_left', ← Pipe.complete_breaks, complete]
    cases p.complete <;> simp [Except.map]

/-- Completion keeps what a resource is told by. -/
theorem Resource.complete_identity {r c : Resource} (completed : r.complete = .ok c) :
    c.kind = r.kind ∧ c.name = r.name ∧ c.path = r.path := by
  have identity : Yields (fun c => c.kind = r.kind ∧ c.name = r.name ∧ c.path = r.path)
      r.complete := by
    cases r with
    | connection c => simp [complete]
    | datasource d => simp [complete]
    | pipe p =>
      rw [complete, yields_map]
      refine p.yields_complete.mono ?_
      rintro q ⟨columns, rfl⟩
      exact ⟨rfl, rfl, rfl⟩
  exact identity c completed

end DatafileMigration
