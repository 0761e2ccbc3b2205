import DatafileMigration.Project.Run
import DatafileMigration.Proofs.Batch.Stages

namespace DatafileMigration

variable {strict : Bool} {before files : List Datafile} {file : Datafile}

/-- What an outcome tells is told of the file. -/
def Outcome.Concerns (file : Datafile) : Outcome → Prop
  | migrated d =>
    d.resource.kind = file.kind ∧ d.resource.name = file.name ∧ d.resource.path = file.path
  | failed f =>
    f.notice.kind = some file.kind ∧ f.notice.name = file.name ∧ f.notice.path = file.path

/-- A migration has what an outcome tells. -/
def Outcome.RecordedIn (m : Migration) : Outcome → Prop
  | migrated d => d.resource ∈ m.migrated
  | failed f => f ∈ m.failures

/-- A resource that a file leads with is completed as the resource of that file. -/
theorem Datafile.Leads.completed_identity {r c : Resource} (leads : file.Leads strict before r)
    (completed : r.complete = .ok c) :
    c.kind = file.kind ∧ c.name = file.name ∧ c.path = file.path := by
  obtain ⟨kind, name, path⟩ := Datafile.parse_identity leads.parsed
  obtain ⟨sameKind, sameName, samePath⟩ := Resource.complete_identity completed
  exact ⟨sameKind.trans kind, sameName.trans name, samePath.trans path⟩

/-- A resource of the batch is that of a file that leads. -/
theorem Datafile.Becomes.key_of_kept {o : Outcome} {r : Resource}
    (becomes : file.Becomes strict before o) (kept : o.kept? = some r) :
    r.key = file.key ∧ ∃ s, file.Leads strict before s := by
  have identity : ∀ {s c}, file.Leads strict before s → s.complete = .ok c → c.key = file.key := by
    intro s c leads completed
    obtain ⟨kind, name, _⟩ := leads.completed_identity completed
    rw [Resource.key, kind, name, Datafile.key]
  cases becomes with
  | unparsed => cases kept
  | duplicate => cases kept
  | unrendered leads completed =>
    obtain rfl := Option.some.inj kept
    exact ⟨identity leads completed, _, leads⟩
  | migrated leads completed defined =>
    obtain rfl := Option.some.inj kept
    rw [Resource.define_resource defined]
    exact ⟨identity leads completed, _, leads⟩

theorem Datafile.Becomes.concerns {o : Outcome} (becomes : file.Becomes strict before o) :
    o.Concerns file := by
  cases becomes with
  | unparsed refused =>
    obtain ⟨kind, name, path⟩ := Datafile.refusal_identity refused
    exact ⟨congrArg some kind, name, path⟩
  | duplicate parsed _ =>
    obtain ⟨kind, name, path⟩ := Datafile.parse_identity parsed
    exact ⟨congrArg some kind, name, path⟩
  | unrendered leads completed _ =>
    obtain ⟨kind, name, path⟩ := leads.completed_identity completed
    exact ⟨congrArg some kind, name, path⟩
  | migrated leads completed defined =>
    have same := Resource.define_resource defined
    have identity := leads.completed_identity completed
    rw [← same] at identity
    exact identity

theorem Outcomes.concerns {os : List Outcome} (outcomes : Outcomes strict before files os) :
    List.Forall₂ Outcome.Concerns files os := by
  induction outcomes with
  | nil => exact .nil
  | cons becomes _ ih => exact .cons becomes.concerns ih

/-- The failures of the stages are those of the outcomes, in another order. -/
theorem Migration.failures_perm (os : List Outcome) :
    (Migration.ofOutcomes os).failures.Perm (os.filterMap Outcome.failure?) := by
  unfold Migration.ofOutcomes
  dsimp only
  induction os with
  | nil => exact .nil
  | cons o os ih =>
    match o with
    | .migrated d => exact ih
    | .failed (.unparsed e) => exact ih.cons _
    | .failed (.duplicate d) => exact List.perm_middle.trans (ih.cons _)
    | .failed (.unrendered r cause) =>
      refine .trans ?_ (ih.cons _)
      rw [← List.append_assoc, ← List.append_assoc]
      exact List.perm_middle

theorem Migration.migrated_perm (os : List Outcome) :
    (Migration.ofOutcomes os).migrated.Perm
      ((os.filterMap Outcome.definition?).map (·.resource)) :=
  (List.mergeSort_perm _ _).map _

theorem Outcome.definition?_eq_some {o : Outcome} {d : Definition} :
    o.definition? = some d ↔ o = .migrated d := by
  cases o <;> simp [Outcome.definition?]

theorem Migration.mem_migrated {os : List Outcome} {r : Resource} :
    r ∈ (Migration.ofOutcomes os).migrated ↔ ∃ d, .migrated d ∈ os ∧ d.resource = r := by
  rw [(migrated_perm os).mem_iff]
  simp [Outcome.definition?_eq_some]

theorem Outcome.recorded {os : List Outcome} {o : Outcome} (member : o ∈ os) :
    o.RecordedIn (Migration.ofOutcomes os) := by
  cases o with
  | migrated d => exact Migration.mem_migrated.mpr ⟨d, member, rfl⟩
  | failed f =>
    exact (Migration.failures_perm os).mem_iff.mpr (List.mem_filterMap.mpr ⟨_, member, rfl⟩)

/-- A file whose path no migrated resource has is not migrated. -/
theorem Datafile.not_migrated {after : List Datafile} {m : Migration}
    (run : migrate strict (before ++ file :: after) = .ok m)
    (absent : ∀ r ∈ m.migrated, r.path ≠ file.path) (d : Definition) :
    ¬ file.Becomes strict before (.migrated d) := by
  intro becomes
  obtain ⟨os, outcomes, rfl⟩ := migrate_iff_outcomes.mp run
  have member := Outcome.recorded (outcomes.mem becomes)
  exact absent d.resource member becomes.concerns.2.2

theorem Outcome.length_split (os : List Outcome) :
    os.length = (os.filterMap definition?).length + (os.filterMap failure?).length := by
  induction os with
  | nil => rfl
  | cons o os ih =>
    cases o with
    | migrated d =>
      have split : (d :: os.filterMap definition?).length + (os.filterMap failure?).length =
          os.length + 1 := by
        rw [List.length_cons, ih]
        omega
      exact split.symm
    | failed f =>
      have split : (os.filterMap definition?).length + (f :: os.filterMap failure?).length =
          os.length + 1 := by
        rw [List.length_cons, ih]
        omega
      exact split.symm

/-- The account of a migration: one outcome for each file, which names it, and nothing in the
migration beside the outcomes. -/
structure Migration.Accounts (m : Migration) (strict : Bool) (files : List Datafile)
    (os : List Outcome) : Prop where
  outcomes : Outcomes strict [] files os
  only : ∀ others, Outcomes strict [] files others → others = os
  concerns : List.Forall₂ Outcome.Concerns files os
  migrated : m.migrated.Perm ((os.filterMap Outcome.definition?).map (·.resource))
  failures : m.failures.Perm (os.filterMap Outcome.failure?)

theorem Migration.accounts {m : Migration} (run : migrate strict files = .ok m) :
    ∃ os, m.Accounts strict files os := by
  obtain ⟨os, outcomes, rfl⟩ := migrate_iff_outcomes.mp run
  exact ⟨os, outcomes, fun _ others => others.unique outcomes, outcomes.concerns, migrated_perm os,
    failures_perm os⟩

theorem Migration.Accounts.length {m : Migration} {os : List Outcome}
    (accounts : m.Accounts strict files os) :
    files.length = m.migrated.length + m.failures.length := by
  rw [accounts.migrated.length_eq, accounts.failures.length_eq, List.length_map,
    accounts.concerns.length_eq]
  exact Outcome.length_split os

/-- Each file of a batch is migrated or has one failure, so that files are as many as migrated
resources and failures together. -/
theorem migrate_accounts {m : Migration} (run : migrate strict files = .ok m) :
    (∃ os, m.Accounts strict files os) ∧
      files.length = m.migrated.length + m.failures.length := by
  obtain ⟨os, accounts⟩ := Migration.accounts run
  exact ⟨⟨os, accounts⟩, accounts.length⟩

/-- A pipe, another one of its name, and a datasource that says nothing. -/
def oneOfThree : List Datafile :=
  [⟨.pipe, "a/p.pipe", "p", "NODE n\nSQL >\n    SELECT 1"⟩,
   ⟨.pipe, "b/p.pipe", "p", "NODE n\nSQL >\n    SELECT 2"⟩, ⟨.datasource, "d", "d", ""⟩]

theorem migrate_accounts_one_of_three : ∃ m, migrate true oneOfThree = .ok m ∧
    m.migrated.length = 1 ∧ (∃ os, m.Accounts true oneOfThree os) ∧
    3 = m.migrated.length + m.failures.length := by
  obtain ⟨m, run, one⟩ := exists_eq_ok (x := migrate true oneOfThree)
    (p := fun m => m.migrated.length = 1) (by decide +kernel)
  exact ⟨m, run, of_decide_eq_true one, migrate_accounts run⟩

/-- What a run reports beyond the failures of discovery is one migrated resource or one error for
each file that is found. -/
theorem Options.report_accounts {o : Options} {resolver : Resolver} {root : Tree} {report : Report}
    (asked : o.patterns ≠ []) (run : o.report resolver root = .ok report) :
    ∃ discovery, root.discover resolver o.cwd o.patterns = .ok discovery ∧
      discovery.files.length + discovery.failures.length =
        report.migrated.length + report.errors.length := by
  rw [Options.report, if_neg asked] at run
  obtain ⟨discovery, found, run⟩ := bind_eq_ok.mp run
  obtain ⟨m, migrated, run⟩ := bind_eq_ok.mp run
  cases run
  obtain ⟨os, accounts⟩ := Migration.accounts migrated
  have count := accounts.length
  refine ⟨discovery, found, ?_⟩
  simp only [List.length_map, List.length_append] at count ⊢
  omega

end DatafileMigration
