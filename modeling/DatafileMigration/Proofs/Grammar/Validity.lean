import DatafileMigration.Proofs.Grammar.Refusal
import DatafileMigration.Proofs.Resource.Record

namespace DatafileMigration

namespace Grammar

open Datafile

theorem emptyTextOf_eq_nil {t : Text} : emptyTextOf t = [] ↔ t ≠ [] := by
  cases t <;> simp [emptyTextOf]

theorem violations_eq_nil {r : Resource} :
    r.violations = [] ↔ r.fieldViolations = [] ∧ r.jointViolations = [] := by
  unfold Resource.violations
  cases r.fieldViolations <;> simp

variable {name path : Text}

namespace DatasourceDraft

variable {draft : DatasourceDraft}

theorem yields_kafka? :
    Yields (fun kafka => ∀ k ∈ kafka, k.connection ≠ [] ∧ k.topic ≠ []) draft.kafka? := by
  simp only [kafka?, yields_ite, yields_ok, yields_refuse, implies_true, true_and]
  refine ⟨by simp, fun _ filled => ?_⟩
  simpa [isFilled] using filled

theorem yields_s3? :
    Yields (fun s3 => ∀ s ∈ s3, s.connection ≠ [] ∧ s.bucketUri ≠ []) draft.s3? := by
  simp only [s3?, yields_ite, yields_ok, yields_refuse, implies_true, true_and]
  refine ⟨by simp, fun _ filled => ?_⟩
  simpa [isFilled] using filled

theorem yields_valid (named : name ≠ []) :
    Yields (fun d => (Resource.datasource d).violations = []) (draft.finish name path) := by
  simp only [finish, yields_bind, yields_ite, yields_refuse, yields_pure, implies_true, true_and]
  intro _ _ _ kafka topic s3 bucket unmixed
  have topic := yields_kafka? kafka topic
  have bucket := yields_s3? s3 bucket
  rw [violations_eq_nil]
  constructor
  · have fromTopic :
        (kafka.elim [] fun k => emptyTextOf k.connection ++ emptyTextOf k.topic) = [] := by
      cases kafka with
      | none => rfl
      | some k => simpa [emptyTextOf_eq_nil] using topic
    have fromBucket :
        (s3.elim [] fun s => emptyTextOf s.connection ++ emptyTextOf s.bucketUri) = [] := by
      cases s3 with
      | none => rfl
      | some s => simpa [emptyTextOf_eq_nil] using bucket
    simp [Resource.fieldViolations, Datasource.fieldViolations, emptyTextOf_eq_nil, named,
      fromTopic, fromBucket]
  · exact if_neg unmixed

end DatasourceDraft

theorem PipeDraft.yields_valid {draft : PipeDraft} (named : name ≠ []) :
    Yields (fun p => (Resource.pipe p).violations = []) (draft.finish name path) := by
  cases closed : draft.opened with
  | some node => simp [finish, closed]
  | none =>
    simp only [finish, closed, yields_bind, yields_ite, yields_refuse, yields_pure, implies_true,
      true_and]
    intro nodes _ materialized copied parameters _
    rw [violations_eq_nil]
    constructor
    · simp [Resource.fieldViolations, Pipe.fieldViolations, emptyTextOf_eq_nil, named, nodes]
    · exact (if_neg materialized).trans (if_neg copied)

theorem ConnectionDraft.yields_valid {draft : ConnectionDraft} (named : name ≠ []) :
    Yields (fun c => (Resource.connection c).violations = []) (draft.finish name path) := by
  simp only [finish, yields_ite, yields_refuse, implies_true, true_and, and_true]
  refine fun _ => ⟨fun _ => ?_, fun _ _ => ?_⟩
  · simp only [toKafka, yields_bind, yields_ite, yields_refuse, yields_pure, implies_true, true_and]
    intro _ servers protocol _ mechanism _
    have filled : draft.bootstrapServers.getD [] ≠ [] := by simpa [isFilled] using servers
    simp [violations_eq_nil, Resource.fieldViolations, Connection.fieldViolations,
      Resource.jointViolations, Connection.jointViolations, emptyTextOf_eq_nil, named, filled]
  · simp only [toS3, yields_bind, yields_ite, yields_refuse, yields_pure, implies_true, true_and]
    intro _ region credentials _
    have filled : draft.region.getD [] ≠ [] := by simpa [isFilled] using region
    rw [violations_eq_nil]
    constructor
    · simp [Resource.fieldViolations, Connection.fieldViolations, emptyTextOf_eq_nil, named, filled]
    · refine if_pos ?_
      simpa [or_iff_not_imp_left] using credentials

/-- What directives define under a name meets all conditions of a resource. -/
theorem yields_build_valid {kind : Kind} {ds : List Directive} (named : name ≠ []) :
    Yields (fun r => r.violations = []) (build kind name path ds) := by
  cases kind with
  | connection =>
    rw [build, yields_map, buildConnection, yields_bind]
    exact fun draft _ => draft.yields_valid named
  | datasource =>
    rw [build, yields_map, buildDatasource, yields_bind]
    exact fun draft _ => DatasourceDraft.yields_valid named
  | pipe =>
    rw [build, yields_map, buildPipe, yields_bind]
    exact fun draft _ => PipeDraft.yields_valid named

theorem requireValid_of_valid {kind : Kind} {r : Resource} (valid : r.violations = []) :
    requireValid kind r = .ok r := by
  rw [requireValid, valid]

end Grammar

open Grammar

/-- The grammar leaves nothing to the conditions of a resource: a file with a name is never refused
for one of them, whatever it says, and what directives define under the name meets them all and is
read back from its record. -/
theorem Datafile.parse_ne_invalid {file : Datafile} (named : file.name ≠ []) :
    (∀ strict e, file.parse strict = .error (.refused e) → ∀ kind vs, e.cause ≠ .invalid kind vs) ∧
    ∀ ds r, build file.kind file.name file.path ds = .ok r →
      requireValid file.kind r = .ok r ∧
        ∃ fields, r.toRecord = .dict fields ∧ Resource.ofRecord file.kind fields = .ok r := by
  constructor
  · intro strict e refused
    obtain ⟨cause, found, rfl⟩ := mapError_map_eq_refused.mp refused
    have early : Throws Early (do
        let ds ← selectKnown strict file.kind (Datafile.scan file.content)
        let r ← build file.kind file.name file.path ds
        requireValid file.kind r) := by
      simp only [throws_bind]
      refine ⟨early_selectKnown _ _ _, fun ds _ => ⟨early_build _ _ _ _, fun r built => ?_⟩⟩
      have valid := yields_build_valid named r built
      show Throws Early (requireValid file.kind r)
      rw [requireValid_of_valid valid]
      exact throws_ok
    exact early _ found cause rfl
  · intro ds r built
    have valid := yields_build_valid named r built
    obtain ⟨fields, record, read⟩ := r.ofRecord_toRecord
    rw [(yields_build r built).1, valid] at read
    exact ⟨requireValid_of_valid valid, fields, record, read⟩

/-- A file of a datasource whose topic is two quotes. -/
def quotedEmptyTopic : Datafile where
  kind := .datasource
  path := "a.datasource"
  name := "a"
  content := "SCHEMA >\n    c String\n\nENGINE_SORTING_KEY c\n"
    ++ "KAFKA_CONNECTION_NAME k\nKAFKA_TOPIC \"\""

theorem parse_ne_invalid_quotedEmptyTopic : quotedEmptyTopic.name ≠ [] ∧
    ∃ e, quotedEmptyTopic.parse true = .error (.refused e) ∧ e.cause = .kafkaIncomplete ∧
      ∀ kind vs, e.cause ≠ .invalid kind vs := by
  have named : quotedEmptyTopic.name ≠ [] := by decide
  have refused : quotedEmptyTopic.parse true =
      .error (.refused ⟨"a.datasource", .datasource, "a", .kafkaIncomplete⟩) := by
    unfold quotedEmptyTopic
    repeat rw [String.toList_ofList]
    decide +kernel
  exact ⟨named, _, refused, rfl, (Datafile.parse_ne_invalid named).1 true _ refused⟩

end DatafileMigration
