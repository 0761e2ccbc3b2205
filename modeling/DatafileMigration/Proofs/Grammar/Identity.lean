import DatafileMigration.Grammar.Parse
import DatafileMigration.Proofs.Fault.Breaks
import DatafileMigration.Proofs.Fault.Yields

namespace DatafileMigration

namespace Grammar

open Datafile

@[simp]
theorem yields_refuse {α : Type} {P : α → Prop} {cause : Cause} :
    Yields P (refuse cause : Parse α) := yields_error

theorem yields_buildDatasource {name path : Text} {ds : List Directive} :
    Yields (fun d => d.name = name ∧ d.path = path) (buildDatasource name path ds) := by
  simp [buildDatasource, DatasourceDraft.finish, yields_ite]

theorem yields_buildPipe {name path : Text} {ds : List Directive} :
    Yields (fun p => p.name = name ∧ p.path = path ∧ p.outputColumns = [])
      (buildPipe name path ds) := by
  rw [buildPipe, yields_bind]
  intro draft _
  cases closed : draft.opened with
  | some node => simp [PipeDraft.finish, closed, yields_ite]
  | none => simp [PipeDraft.finish, closed, yields_ite]

theorem yields_buildConnection {name path : Text} {ds : List Directive} :
    Yields (fun c => (Resource.connection c).name = name ∧ (Resource.connection c).path = path)
      (buildConnection name path ds) := by
  simp [buildConnection, ConnectionDraft.finish, ConnectionDraft.toKafka, ConnectionDraft.toS3,
    yields_ite, Resource.name, Resource.path, -String.reduceToList]

/-- What directives define has the kind, the name and the path that it is built with, and an
endpoint no output columns yet. -/
theorem yields_build {kind : Kind} {name path : Text} {ds : List Directive} :
    Yields (fun r => r.kind = kind ∧ r.name = name ∧ r.path = path) (build kind name path ds) := by
  cases kind with
  | connection =>
    rw [build, yields_map]
    exact yields_buildConnection.mono fun c identity => ⟨rfl, identity⟩
  | datasource =>
    rw [build, yields_map]
    exact yields_buildDatasource.mono fun d identity => ⟨rfl, identity⟩
  | pipe =>
    rw [build, yields_map]
    exact yields_buildPipe.mono fun p identity => ⟨rfl, identity.1, identity.2.1⟩

end Grammar

open Grammar

/-- A parsed resource is the one of its file. -/
theorem Datafile.parse_identity {strict : Bool} {file : Datafile} {r : Resource}
    (parsed : file.parse strict = .ok r) :
    r.kind = file.kind ∧ r.name = file.name ∧ r.path = file.path := by
  have identity : Yields (fun r => r.kind = file.kind ∧ r.name = file.name ∧ r.path = file.path)
      (file.parse strict) := by
    rw [Datafile.parse, yields_mapError, yields_bind]
    intro ds _
    rw [yields_bind]
    refine Yields.mono yields_build ?_
    intro s identity
    cases valid : s.violations <;> simp [requireValid, valid, identity]
  exact identity r parsed

/-- So is the file that a refusal names. -/
theorem Datafile.refusal_identity {strict : Bool} {file : Datafile} {e : ParseError}
    (refused : file.parse strict = .error (.refused e)) :
    e.kind = file.kind ∧ e.name = file.name ∧ e.path = file.path := by
  obtain ⟨cause, _, rfl⟩ := mapError_map_eq_refused.mp refused
  exact ⟨rfl, rfl, rfl⟩

end DatafileMigration
