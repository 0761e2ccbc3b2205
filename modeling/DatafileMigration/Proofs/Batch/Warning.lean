import DatafileMigration.Proofs.Batch.Account
import DatafileMigration.Proofs.Batch.Reference
import DatafileMigration.Proofs.Project.Effect

namespace DatafileMigration

def Failure.rejected? : Failure → Option Resource
  | unrendered r _ => some r
  | _ => none

/-- The resources of the batch that have no statement. -/
def Migration.rejected (m : Migration) : List Resource := m.failures.filterMap Failure.rejected?

theorem Migration.mem_rejected {m : Migration} {r : Resource} :
    r ∈ m.rejected ↔ ∃ cause, .unrendered r cause ∈ m.failures := by
  rw [rejected, List.mem_filterMap]
  constructor
  · rintro ⟨f, member, found⟩
    cases f with
    | unrendered s cause =>
      obtain rfl := Option.some.inj found
      exact ⟨cause, member⟩
    | unparsed e => cases found
    | duplicate d => cases found
  · rintro ⟨cause, member⟩
    exact ⟨_, member, rfl⟩

/-- Connections have a statement whatever they say. -/
theorem Connection.exists_define (strict : Bool) (c : Connection) :
    ∃ d, (Resource.connection c).define strict = .ok d := ⟨_, rfl⟩

section Outcomes

variable {strict : Bool} {before files : List Datafile} {os : List Outcome} {r : Resource}

theorem Migration.rejected_perm (os : List Outcome) : (ofOutcomes os).rejected.Perm
    ((os.filterMap Outcome.failure?).filterMap Failure.rejected?) :=
  (failures_perm os).filterMap _

/-- The batch in normal form is what is migrated and what is rejected. -/
theorem Migration.kept_perm (os : List Outcome) : (os.filterMap Outcome.kept?).Perm
    ((ofOutcomes os).migrated ++ (ofOutcomes os).rejected) := by
  refine .trans ?_ ((migrated_perm os).append (rejected_perm os)).symm
  induction os with
  | nil => exact .nil
  | cons o os ih =>
    match o with
    | .migrated d => exact ih.cons _
    | .failed (.unparsed e) => exact ih
    | .failed (.duplicate d) => exact ih
    | .failed (.unrendered r cause) => exact (ih.cons _).trans List.perm_middle.symm

/-- No two resources of the batch have the same kind and name. -/
theorem Outcomes.nodup_kept (outcomes : Outcomes strict before files os) :
    ((os.filterMap Outcome.kept?).map Resource.key).Nodup ∧
      ∀ r ∈ os.filterMap Outcome.kept?, ∀ g ∈ before, g.key = r.key →
        ∀ s, g.parse strict ≠ .ok s := by
  induction outcomes with
  | nil => exact ⟨.nil, fun r member => absurd member List.not_mem_nil⟩
  | @cons before file rest o os becomes _ ih =>
    obtain ⟨distinct, fresh⟩ := ih
    have fresh' : ∀ r ∈ os.filterMap Outcome.kept?, ∀ g ∈ before, g.key = r.key →
        ∀ s, g.parse strict ≠ .ok s :=
      fun r member g ahead => fresh r member g (List.mem_append_left _ ahead)
    cases kept : o.kept? with
    | none =>
      rw [List.filterMap_cons_none kept]
      exact ⟨distinct, fresh'⟩
    | some r =>
      obtain ⟨key, s, leads⟩ := becomes.key_of_kept kept
      rw [List.filterMap_cons_some kept]
      constructor
      · refine List.nodup_cons.mpr ⟨fun twice => ?_, distinct⟩
        obtain ⟨t, member, same⟩ := List.mem_map.mp twice
        have here : file ∈ before ++ [file] := List.mem_append_right _ (List.mem_singleton_self _)
        exact fresh t member file here (key.symm.trans same.symm) s leads.parsed
      · refine List.forall_mem_cons.mpr ⟨fun g ahead same => ?_, fresh'⟩
        exact leads.first g ahead (same.trans key)

end Outcomes

/-- What the warnings of a migration are about. -/
structure Migration.Warns (m : Migration) (strict : Bool) : Prop where
  /-- What is rejected has no statement, and this is one of the failures. -/
  rejected : ∀ r ∈ m.rejected, ∃ cause, r.define strict = .error (.refused cause) ∧
    .unrendered r cause ∈ m.failures
  distinct : ((m.migrated ++ m.rejected).map Resource.key).Nodup
  /-- The warnings are those of the migrated and the rejected resources together. -/
  batch : m.warnings.Perm (referenceWarnings (m.migrated ++ m.rejected))
  concerns : ∀ w ∈ m.warnings, w.resource ∈ m.migrated ∨ w.resource ∈ m.rejected
  /-- A migrated resource has the warning that it has among the migrated ones, unless it fills a
  rejected datasource. -/
  migrated : ∀ r ∈ m.migrated, ∀ fault, { resource := r, fault } ∈ m.warnings ↔
    r.referenceFault? m.migrated = some fault ∧ ¬ r.Fills m.rejected
  /-- The warnings are those of the migrated resources alone exactly if no rejected resource has a
  warning and no migrated one fills a rejected datasource. -/
  exact : (m.warnings.map Warning.notice).Perm ((referenceWarnings m.migrated).map Warning.notice) ↔
    (∀ r ∈ m.rejected, r.referenceFault? (m.migrated ++ m.rejected) = none) ∧
      ∀ r ∈ m.migrated, ¬ r.Fills m.rejected

section Exact

variable {migrated rejected : List Resource} {r : Resource} {warnings : List Warning} {w : Warning}

/-- What a notice is told from is a warning about the same resource. -/
theorem Warning.exists_of_notice {rs : List Resource} (distinct : (rs.map Resource.key).Nodup)
    (concerns : ∀ v ∈ warnings, v.resource ∈ rs) (own : w.resource ∈ rs)
    (told : w.notice ∈ warnings.map Warning.notice) : ∃ v ∈ warnings, v.resource = w.resource := by
  obtain ⟨v, member, same⟩ := List.mem_map.mp told
  have sameKey := Warning.key_of_notice same
  exact ⟨v, member, List.inj_on_of_nodup_map distinct (concerns v member) own sameKey⟩

theorem referenceWarnings_exact (free : ∀ c, .connection c ∉ rejected)
    (distinct : ((migrated ++ rejected).map Resource.key).Nodup)
    (batch : warnings.Perm (referenceWarnings (migrated ++ rejected))) :
    (warnings.map Warning.notice).Perm ((referenceWarnings migrated).map Warning.notice) ↔
      (∀ r ∈ rejected, r.referenceFault? (migrated ++ rejected) = none) ∧
        ∀ r ∈ migrated, ¬ r.Fills rejected := by
  constructor
  · intro told
    have apart : (migrated.map Resource.key).Disjoint (rejected.map Resource.key) := by
      rw [List.map_append] at distinct
      exact List.disjoint_of_nodup_append distinct
    constructor
    · -- A warning about a rejected resource is none about a migrated one.
      intro r member
      by_contra warned
      obtain ⟨fault, found⟩ := Option.ne_none_iff_exists'.mp warned
      have inBatch : r ∈ migrated ++ rejected := List.mem_append_right _ member
      have here : { resource := r, fault } ∈ warnings :=
        batch.mem_iff.mpr (mem_referenceWarnings.mpr ⟨inBatch, found⟩)
      have there := told.mem_iff.mp (List.mem_map_of_mem here)
      obtain ⟨v, listed, same⟩ := Warning.exists_of_notice distinct
        (fun v listed => List.mem_append_left _ (mem_referenceWarnings.mp listed).1) inBatch there
      have member' : v.resource ∈ migrated := (mem_referenceWarnings.mp listed).1
      rw [same] at member'
      exact apart (List.mem_map_of_mem member') (List.mem_map_of_mem member)
    · -- A pipe that fills a rejected datasource lacks a warning.
      intro r member fills
      obtain ⟨fault, found⟩ := fills.exists_fault apart
      have inBatch : r ∈ migrated ++ rejected := List.mem_append_left _ member
      have here : { resource := r, fault } ∈ referenceWarnings migrated :=
        mem_referenceWarnings.mpr ⟨member, found⟩
      have there := told.mem_iff.mpr (List.mem_map_of_mem here)
      obtain ⟨v, listed, same⟩ := Warning.exists_of_notice distinct
        (fun v listed => (mem_referenceWarnings.mp (batch.mem_iff.mp listed)).1) inBatch there
      have warned := (mem_referenceWarnings.mp (batch.mem_iff.mp listed)).2
      rw [same, Resource.referenceFault?_append free] at warned
      exact warned.2 fills
  · rintro ⟨silent, unfilled⟩
    rw [referenceWarnings_append free silent unfilled] at batch
    exact batch.map _

end Exact

theorem Outcomes.define_of_rejected {strict : Bool} {before files : List Datafile}
    {os : List Outcome} {r : Resource} {cause : RenderError}
    (outcomes : Outcomes strict before files os)
    (failed : .unrendered r cause ∈ (Migration.ofOutcomes os).failures) :
    r.define strict = .error (.refused cause) := by
  obtain ⟨o, member, same⟩ :=
    List.mem_filterMap.mp ((Migration.failures_perm os).mem_iff.mp failed)
  obtain ⟨mid, g, rest, _, becomes⟩ := outcomes.of_mem member
  cases o with
  | migrated d => cases same
  | failed f =>
    obtain rfl := Option.some.inj same
    cases becomes with
    | unrendered _ _ refused => exact refused

theorem Migration.warns {strict : Bool} {files : List Datafile} {m : Migration}
    (run : migrate strict files = .ok m) : m.Warns strict := by
  obtain ⟨os, outcomes, rfl⟩ := migrate_iff_outcomes.mp run
  have kept := kept_perm os
  have single := outcomes.nodup_kept.1
  have distinct := (kept.map Resource.key).nodup_iff.mp single
  have batch : (ofOutcomes os).warnings.Perm
      (referenceWarnings ((ofOutcomes os).migrated ++ (ofOutcomes os).rejected)) :=
    referenceWarnings_perm kept single
  have refused : ∀ r ∈ (ofOutcomes os).rejected, ∃ cause,
      r.define strict = .error (.refused cause) ∧
        .unrendered r cause ∈ (ofOutcomes os).failures := by
    intro r member
    obtain ⟨cause, failed⟩ := mem_rejected.mp member
    exact ⟨cause, outcomes.define_of_rejected failed, failed⟩
  have free : ∀ c, .connection c ∉ (ofOutcomes os).rejected := by
    intro c member
    obtain ⟨cause, rejected, _⟩ := refused _ member
    obtain ⟨d, defined⟩ := c.exists_define strict
    cases defined.symm.trans rejected
  have mem_iff : ∀ w, w ∈ (ofOutcomes os).warnings ↔ _ :=
    fun w => batch.mem_iff.trans mem_referenceWarnings
  refine ⟨refused, distinct, batch, ?_, ?_, referenceWarnings_exact free distinct batch⟩
  · intro w member
    exact List.mem_append.mp ((mem_iff w).mp member).1
  · intro r member fault
    rw [mem_iff, and_iff_right (List.mem_append_left _ member)]
    exact Resource.referenceFault?_append free

theorem migrate_nil (strict : Bool) : migrate strict [] =
    .ok { failures := [], warnings := [], migrated := [], content := none } := by
  refine migrate_iff_outcomes.mpr ⟨[], .nil, ?_⟩
  simp [Migration.ofOutcomes, Definition.sort, referenceWarnings]

/-- A run that comes to its end warns about the references of what it migrates and of what it
rejects, taken together. What the check rejects is still referred to, and still warned about, as the
warnings are about the batch in normal form. -/
theorem Options.execute_warns {o : Options} {resolver : Resolver} {root tree : Tree}
    {report : Report} (ran : o.execute resolver root = .ok report tree) :
    ∃ files m, migrate o.strict files = .ok m ∧ report.migrated = m.migrated ∧
      report.warnings = m.warnings.map Warning.notice ∧
      (∀ f ∈ m.failures, f.notice ∈ report.errors) ∧ m.Warns o.strict := by
  have reported := (execute_ok ran).1
  by_cases none : o.patterns = []
  · rw [report_of_none none] at reported
    obtain rfl := Except.ok.inj reported
    have nothing := migrate_nil o.strict
    refine ⟨[], _, nothing, rfl, rfl, ?_, Migration.warns nothing⟩
    exact fun f member => absurd member List.not_mem_nil
  obtain ⟨discovery, m, _, migrated, rfl⟩ := (report_eq_ok none).mp reported
  refine ⟨_, m, migrated, rfl, rfl, ?_, Migration.warns migrated⟩
  intro f member
  exact List.mem_append_right _ (List.mem_map_of_mem member)

/-- Files that are found in the order of their paths stay in it. -/
theorem Tree.discover_of_pairwise {root : Tree} {resolver : Resolver} {cwd : Text}
    {patterns : List Text} {d : Discovery}
    (taken : patterns.foldlM (root.discoverPattern resolver (Path.normalize cwd)) {} = .ok d)
    (sorted : d.files.Pairwise fun a b => Text.precedes a.file.path b.file.path) :
    root.discover resolver cwd patterns = .ok d := by
  refine bind_eq_ok.mpr ⟨d, taken, ?_⟩
  rw [List.mergeSort_of_pairwise sorted]
  rfl

/-- A project with a datasource whose column is of an unknown type, and a pipe that fills it. -/
def strangeProject : Tree := .directory
  [("a.datasource", .file (Text.encode
    "SCHEMA >\n    c Foo\n\nENGINE \"MergeTree\"\nENGINE_SORTING_KEY \"c\"\n")),
   ("p.pipe", .file (Text.encode
    "NODE n\nSQL >\n    SELECT 1 AS c\n\nTYPE materialized\nDATASOURCE a\n"))]

/-- A dry run in the strange project. -/
def strangeRun (patterns : List Text) : Options := { cwd := "/", patterns, dryRun := true }

/-- The pipe alone is warned about. -/
theorem Options.execute_warns_pipe : ∃ report tree files m,
    (strangeRun ["p.pipe"]).execute strangeProject.resolveIncludes strangeProject =
      .ok report tree ∧ report.migrated.length = 1 ∧ report.warnings.length = 1 ∧
    migrate true files = .ok m ∧ report.migrated = m.migrated ∧
      report.warnings = m.warnings.map Warning.notice ∧
      (∀ f ∈ m.failures, f.notice ∈ report.errors) ∧ m.Warns true := by
  have tested : passes (fun report _ =>
        decide (report.migrated.length = 1 ∧ report.warnings.length = 1))
      ((strangeRun ["p.pipe"]).execute strangeProject.resolveIncludes strangeProject) := by
    unfold strangeProject
    repeat rw [String.toList_ofList]
    decide +kernel
  obtain ⟨report, tree, ran, tested⟩ := of_passes tested
  obtain ⟨migrated, warned⟩ := of_decide_eq_true tested
  obtain ⟨files, m, rest⟩ := execute_warns ran
  exact ⟨report, tree, files, m, ran, migrated, warned, rest⟩

/-- With the datasource, which is rejected, there is no warning, though the pipe fills a datasource
that is not migrated. -/
theorem Options.execute_silent_pipe : ∃ report tree,
    (strangeRun ["a.datasource", "p.pipe"]).execute strangeProject.resolveIncludes strangeProject =
      .ok report tree ∧ report.warnings = [] ∧
      ∃ r ∈ report.migrated, r.referenceFault? report.migrated = some (.missingTarget "a") := by
  obtain ⟨d, taken, tested⟩ := exists_eq_ok
    (x := (strangeRun ["a.datasource", "p.pipe"]).patterns.foldlM
      (strangeProject.discoverPattern strangeProject.resolveIncludes (Path.normalize "/")) {})
    (p := fun d : Discovery =>
      decide (d.files.Pairwise fun a b => Text.precedes a.file.path b.file.path) &&
      (migrate true (d.files.map (·.file))).toOption.any fun m : Migration =>
        decide (m.warnings = [] ∧
          ∃ r ∈ m.migrated, r.referenceFault? m.migrated = some (.missingTarget "a"))) (by
      unfold strangeProject
      repeat rw [String.toList_ofList]
      decide +kernel)
  obtain ⟨sorted, tested⟩ := Bool.and_eq_true_iff.mp tested
  obtain ⟨m, migrated, tested⟩ := exists_eq_ok tested
  obtain ⟨silent, missing⟩ := of_decide_eq_true tested
  have discovered := Tree.discover_of_pairwise taken (of_decide_eq_true sorted)
  have reported := (report_eq_ok (o := strangeRun ["a.datasource", "p.pipe"]) nofun).mpr
    ⟨d, m, discovered, migrated, rfl⟩
  refine ⟨_, _, execute_idle reported (Or.inl rfl), ?_, missing⟩
  exact List.map_eq_nil_iff.mpr silent

end DatafileMigration
