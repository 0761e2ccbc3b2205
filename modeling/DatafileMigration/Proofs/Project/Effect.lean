import DatafileMigration.Project.Run
import DatafileMigration.Proofs.Fault.Yields
import DatafileMigration.Proofs.Project.Save

namespace DatafileMigration.Options

variable {o : Options} {resolver : Resolver} {root tree : Tree} {report : Report} {content : Text}
  {e : Fault WriteError}

/-- Whether a run ends with a report, in a tree, that pass a test. -/
def passes (test : Report → Tree → Bool) : EStateM.Result (Fault WriteError) Tree Report → Bool
  | .ok report tree => test report tree
  | .error _ _ => false

theorem of_passes {test : Report → Tree → Bool}
    {run : EStateM.Result (Fault WriteError) Tree Report} (passed : passes test run) :
    ∃ report tree, run = .ok report tree ∧ test report tree := by
  cases run with
  | ok report tree => exact ⟨report, tree, rfl, passed⟩
  | error e tree => cases passed

/-- A run saves nothing if there is nothing to save, and a dry run saves nothing at all. -/
theorem execute_idle (reported : o.report resolver root = .ok report)
    (idle : o.dryRun ∨ report.content = none) : o.execute resolver root = .ok report root := by
  rw [execute, reported]
  dsimp only
  cases written : report.content with
  | none => rfl
  | some content =>
    rcases idle with dry | nothing
    · exact if_pos dry
    · rw [written] at nothing
      cases nothing

theorem execute_saving (reported : o.report resolver root = .ok report) (real : o.dryRun = false)
    (written : report.content = some content) :
    o.execute resolver root =
      (Tree.saving o.outputPath content o.force).map (fun _ => report) root := by
  rw [execute, reported]
  dsimp only
  rw [written]
  exact if_neg (by rw [real]; decide)

theorem execute_cases (o : Options) (resolver : Resolver) (root : Tree) :
    (∃ why, o.execute resolver root = .error (.broken why) root) ∨
    (∃ report, o.report resolver root = .ok report ∧ (o.dryRun ∨ report.content = none) ∧
      o.execute resolver root = .ok report root) ∨
    ∃ report content, o.report resolver root = .ok report ∧ o.dryRun = false ∧
      report.content = some content ∧ o.execute resolver root =
        (Tree.saving o.outputPath content o.force).map (fun _ => report) root := by
  cases reported : o.report resolver root with
  | error why =>
    refine Or.inl ⟨why, ?_⟩
    rw [execute, reported]
  | ok report =>
    by_cases idle : o.dryRun ∨ report.content = none
    · exact Or.inr (Or.inl ⟨report, rfl, idle, execute_idle reported idle⟩)
    · rw [not_or, Bool.not_eq_true] at idle
      obtain ⟨content, written⟩ := Option.ne_none_iff_exists'.mp idle.2
      exact Or.inr (Or.inr ⟨report, content, rfl, idle.1, written,
        execute_saving reported idle.1 written⟩)

/-- A run that is aborted leaves the tree as it was. -/
theorem execute_error (aborted : o.execute resolver root = .error e tree) : tree = root := by
  rcases execute_cases o resolver root with
    ⟨why, ran⟩ | ⟨report, _, _, ran⟩ | ⟨report, content, _, _, _, ran⟩
  · cases ran.symm.trans aborted
    rfl
  · cases ran.symm.trans aborted
  · rw [ran, EStateM.map] at aborted
    cases saved : Tree.saving o.outputPath content o.force root with
    | ok u left =>
      rw [saved] at aborted
      cases aborted
    | error cause left =>
      rw [saved] at aborted
      cases aborted
      exact Tree.saving_error saved

/-- A run that comes to its end had nothing to save, or saved what it reports. -/
theorem execute_ok (ran : o.execute resolver root = .ok report tree) :
    o.report resolver root = .ok report ∧
      ((o.dryRun ∨ report.content = none) ∧ tree = root ∨
        o.dryRun = false ∧ ∃ content, report.content = some content ∧
          Tree.saving o.outputPath content o.force root = .ok () tree) := by
  rcases execute_cases o resolver root with
    ⟨why, other⟩ | ⟨report', reported, idle, other⟩ | ⟨report', content, reported, real, written, other⟩
  · cases other.symm.trans ran
  · cases other.symm.trans ran
    exact ⟨reported, Or.inl ⟨idle, rfl⟩⟩
  · rw [other, EStateM.map] at ran
    cases saved : Tree.saving o.outputPath content o.force root with
    | ok u left =>
      rw [saved] at ran
      cases ran
      exact ⟨reported, Or.inr ⟨real, content, written, saved⟩⟩
    | error cause left =>
      rw [saved] at ran
      cases ran

/-- What a run reports that is asked for something. -/
theorem report_eq_ok (asked : o.patterns ≠ []) : o.report resolver root = .ok report ↔
    ∃ discovery m, root.discover resolver o.cwd o.patterns = .ok discovery ∧
      migrate o.strict (discovery.files.map (·.file)) = .ok m ∧ report =
        { outputPath := o.outputPath
          dryRun := o.dryRun
          migrated := m.migrated
          errors := discovery.failures.map DiscoveryFailure.notice
            ++ m.failures.map Failure.notice
          warnings := m.warnings.map Warning.notice
          content := m.content } := by
  rw [Options.report, if_neg asked, bind_eq_ok]
  constructor
  · rintro ⟨discovery, discovered, reported⟩
    obtain ⟨m, migrated, done⟩ := bind_eq_ok.mp reported
    exact ⟨discovery, m, discovered, migrated, (Except.ok.inj done).symm⟩
  · rintro ⟨discovery, m, discovered, migrated, rfl⟩
    exact ⟨discovery, discovered, bind_eq_ok.mpr ⟨m, migrated, rfl⟩⟩

theorem report_of_none (none : o.patterns = []) : o.report resolver root =
    .ok { outputPath := o.outputPath, dryRun := o.dryRun, errors := [noPatterns] } := by
  rw [Options.report, if_pos none]

/-- There is a module exactly if something is migrated. -/
theorem report_content (reported : o.report resolver root = .ok report) :
    report.content = none ↔ report.migrated = [] := by
  by_cases none : o.patterns = []
  · rw [report_of_none none] at reported
    obtain rfl := Except.ok.inj reported
    exact iff_of_true rfl rfl
  obtain ⟨_, m, _, migrated, rfl⟩ := (report_eq_ok none).mp reported
  obtain ⟨parsed, _, migrated⟩ := bind_eq_ok.mp migrated
  obtain ⟨selection, _, migrated⟩ := bind_eq_ok.mp migrated
  cases migrated
  simp

/-- A dry run has the same report. -/
theorem report_dryRun (reported : o.report resolver root = .ok report) :
    ({ o with dryRun := true } : Options).report resolver root =
      .ok { report with dryRun := true } := by
  by_cases none : o.patterns = []
  · rw [report_of_none none] at reported
    obtain rfl := Except.ok.inj reported
    exact report_of_none none
  obtain ⟨discovery, m, discovered, migrated, rfl⟩ := (report_eq_ok none).mp reported
  exact (report_eq_ok (o := { o with dryRun := true }) none).mpr
    ⟨discovery, m, discovered, migrated, rfl⟩

/-- What a run does to the tree. -/
structure Disciplined (o : Options) (resolver : Resolver) (root : Tree) : Prop where
  /-- A dry run, and one that migrates nothing, leaves the tree as it was. -/
  idle : ∀ report tree, o.execute resolver root = .ok report tree →
    o.dryRun ∨ report.migrated = [] → tree = root
  /-- So does a run that is aborted. In a tree, what fails to be written fails before anything is. -/
  aborted : ∀ e tree, o.execute resolver root = .error e tree → tree = root
  /-- A run that would have to replace a file is aborted, unless it is forced. -/
  kept : ∀ report, o.report resolver root = .ok report → report.migrated ≠ [] →
    o.dryRun = false → o.force = false → root.has o.outputPath →
    o.execute resolver root = .error (.refused { path := o.outputPath, cause := .exists }) root
  /-- Any other run that comes to its end writes the module to the output path and nothing else. -/
  saved : ∀ report tree, o.execute resolver root = .ok report tree →
    o.dryRun = false → report.migrated ≠ [] →
    ∃ content, report.content = some content ∧ Tree.Saved root tree o.outputPath content
  /-- The dry run reports what the real run reports. -/
  preview : ∀ report tree, o.execute resolver root = .ok report tree →
    ({ o with dryRun := true } : Options).execute resolver root =
      .ok { report with dryRun := true } root

/-- A run writes what it reports to the output path, if it is to write anything, and leaves all else
as it was. -/
theorem execute_disciplined (o : Options) (resolver : Resolver) (root : Tree) :
    o.Disciplined resolver root := by
  constructor
  case idle =>
    intro report tree ran idle
    obtain ⟨reported, ⟨_, same⟩ | ⟨real, content, written, _⟩⟩ := execute_ok ran
    · exact same
    · rw [← report_content reported, written] at idle
      rcases idle with dry | nothing
      · cases real.symm.trans dry
      · cases nothing
  case aborted =>
    intro e tree aborted
    exact execute_error aborted
  case kept =>
    intro report reported some real unforced present
    rw [Ne, ← report_content reported] at some
    obtain ⟨content, written⟩ := Option.ne_none_iff_exists'.mp some
    rw [execute_saving reported real written, EStateM.map, Tree.saving_existing present unforced]
  case saved =>
    intro report tree ran real some
    obtain ⟨reported, ⟨dry | nothing, _⟩ | ⟨_, content, written, saved⟩⟩ := execute_ok ran
    · cases real.symm.trans dry
    · exact absurd ((report_content reported).mp nothing) some
    · exact ⟨content, written, Tree.saving_saved saved⟩
  case preview =>
    intro report tree ran
    have reported := report_dryRun (execute_ok ran).1
    exact execute_idle reported (Or.inl rfl)

end DatafileMigration.Options
