import DatafileMigration.Proofs.Project.Effect
import DatafileMigration.Proofs.Project.Rediscovery

namespace DatafileMigration

variable {o : Options} {root tree : Tree} {report : Report} {path text : Text} {force : Bool}

/-- A text that is saved under a name of its own leaves the datafiles what they are. -/
theorem Tree.sameDatafiles_of_saving {u : Unit} (unknown : Path.kind? path = none)
    (saved : saving path text force root = .ok u tree) : SameDatafiles root tree := by
  obtain ⟨_, _, written⟩ := saving_eq_ok.mp saved
  obtain ⟨parent, target, rfl⟩ := write_eq_ok.mp written
  have unknown' := (Path.kind?_baseName path).trans unknown
  exact target.slot.sameDatafiles target.isName unknown' (Text.encode text)

namespace Options

/-- No glob pattern that leads to datafiles comes to name a file. -/
def GlobsStay (o : Options) (root tree : Tree) : Prop :=
  ∀ pattern ∈ o.patterns, Tree.GlobStays root tree (Path.normalize o.cwd) pattern

instance (o : Options) (root tree : Tree) : Decidable (o.GlobsStay root tree) :=
  inferInstanceAs (Decidable (∀ pattern ∈ o.patterns, _))

/-- From the same datafiles, the same is migrated. -/
theorem report_again (same : Tree.SameDatafiles root tree) (stay : o.GlobsStay root tree)
    (reported : o.report root.resolveIncludes root = .ok report) :
    ∃ again, o.report tree.resolveIncludes tree = .ok again ∧
      again.migrated = report.migrated ∧ again.content = report.content := by
  by_cases none : o.patterns = []
  · rw [report_of_none none] at reported
    exact ⟨report, (report_of_none none).trans reported, rfl, rfl⟩
  obtain ⟨discovery, m, discovered, migrated, rfl⟩ := (report_eq_ok none).mp reported
  obtain ⟨discovery', discovered', alike⟩ := same.discover stay discovered
  rw [← alike.files] at migrated
  exact ⟨_, (report_eq_ok none).mpr ⟨discovery', m, discovered', migrated, rfl⟩, rfl, rfl⟩

/-- A run that is made again migrates the same resources, writes the same module, and leaves the
tree as the first run left it. -/
theorem execute_again (forced : o.force) (real : o.dryRun = false)
    (unknown : Path.kind? o.outputPath = none)
    (ran : o.execute root.resolveIncludes root = .ok report tree) (some : report.content ≠ none)
    (stay : o.GlobsStay root tree) :
    ∃ again, o.execute tree.resolveIncludes tree = .ok again tree ∧
      again.migrated = report.migrated ∧ again.content = report.content := by
  obtain ⟨reported, ⟨dry | nothing, _⟩ | ⟨_, content, written, saved⟩⟩ := execute_ok ran
  · cases real.symm.trans dry
  · exact absurd nothing some
  have same := Tree.sameDatafiles_of_saving unknown saved
  obtain ⟨again, reported', migrated, content'⟩ := report_again same stay reported
  refine ⟨again, ?_, migrated, content'⟩
  rw [execute_saving reported' real (content'.trans written), EStateM.map, forced,
    Tree.saving_again saved]

/-- A project with one datafile. -/
def smallProject : Tree := .directory [("a.datasource", .file (Text.encode
  "SCHEMA >\n    c String\n\nENGINE \"MergeTree\"\nENGINE_SORTING_KEY \"c\"\n"))]

/-- A run that migrates what a pattern leads to in the small project. -/
def smallRun (pattern out : Text) : Options :=
  { cwd := "/", patterns := [pattern], out, force := true }

theorem execute_again_small : ∃ report tree again,
    (smallRun "*.datasource" "out.py").execute smallProject.resolveIncludes smallProject =
      .ok report tree ∧ report.migrated ≠ [] ∧
    (smallRun "*.datasource" "out.py").execute tree.resolveIncludes tree = .ok again tree ∧
      again.migrated = report.migrated ∧ again.content = report.content := by
  have tested : passes (fun report tree => decide (report.content ≠ none ∧ report.migrated ≠ [] ∧
        (smallRun "*.datasource" "out.py").GlobsStay smallProject tree))
      ((smallRun "*.datasource" "out.py").execute smallProject.resolveIncludes smallProject) := by
    decide +kernel
  obtain ⟨report, tree, ran, tested⟩ := of_passes tested
  obtain ⟨some, migrated, stay⟩ := of_decide_eq_true tested
  obtain ⟨again, ran', same⟩ := execute_again rfl rfl (by decide +kernel) ran some stay
  exact ⟨report, tree, again, ran, migrated, ran', same⟩

/-- A pattern that matches everything names the module, once the module is saved under that name;
then it leads to the module, which is no datafile. -/
theorem execute_differs_star : ¬ ∀ (o : Options) (root tree : Tree) (report : Report),
    o.force → o.dryRun = false → Path.kind? o.outputPath = none →
    o.execute root.resolveIncludes root = .ok report tree → report.content ≠ none →
    ∃ again, o.execute tree.resolveIncludes tree = .ok again tree ∧
      again.migrated = report.migrated ∧ again.content = report.content := by
  intro claimed
  have tested : passes (fun report tree => decide (report.content ≠ none) &&
        passes (fun again _ => decide (again.content = none))
          ((smallRun "*" "*").execute tree.resolveIncludes tree))
      ((smallRun "*" "*").execute smallProject.resolveIncludes smallProject) := by decide +kernel
  obtain ⟨report, tree, ran, tested⟩ := of_passes tested
  obtain ⟨some, tested⟩ := Bool.and_eq_true_iff.mp tested
  have some := of_decide_eq_true some
  obtain ⟨again, ran', _, same⟩ :=
    claimed (smallRun "*" "*") smallProject tree report rfl rfl (by decide +kernel) ran some
  rw [ran'] at tested
  exact some (same.symm.trans (of_decide_eq_true tested))

end Options

end DatafileMigration
