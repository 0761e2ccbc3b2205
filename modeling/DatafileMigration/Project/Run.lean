import DatafileMigration.Batch.Migrate
import DatafileMigration.Project.Discovery
import DatafileMigration.Project.Save

namespace DatafileMigration

structure Options where
  /-- The directory that patterns and the output path are read from. -/
  cwd : Text
  patterns : List Text
  out : Text := "tinybird_migration.py"
  strict : Bool := true
  dryRun : Bool := false
  force : Bool := false
  deriving DecidableEq, Repr

def Options.outputPath (o : Options) : Text :=
  if Path.isAbsolute o.out then o.out else Path.absolute o.cwd o.out

structure Report where
  outputPath : Text
  dryRun : Bool
  migrated : List Resource := []
  errors : List Notice := []
  warnings : List Notice := []
  content : Option Text := none
  deriving DecidableEq, Repr

namespace Report

/-- A run succeeds if it has no error to report. -/
def success (r : Report) : Bool := r.errors = []

/-- The names of migrated resources, of one kind if it is given. -/
def migratedNames (r : Report) (kind : Option Kind) : List Text :=
  (r.migrated.filter fun m => kind.all (· = m.kind)).map Resource.name

/-- The first error about a name. -/
def errorFor (r : Report) (name : Text) : Option Notice := r.errors.find? (·.name = name)

end Report

/-- The complaint about a run without patterns. -/
def noPatterns : Notice where
  path := "."
  name := "patterns"
  kind := none
  message := "At least one file, directory, or glob pattern is required."

namespace Options

/-- What a run reports if nothing goes wrong when the module is saved. -/
def report (o : Options) (resolver : Resolver) (root : Tree) : Except Breakdown Report :=
  let start : Report := { outputPath := o.outputPath, dryRun := o.dryRun }
  if o.patterns = [] then .ok { start with errors := [noPatterns] }
  else do
    let discovery ← root.discover resolver o.cwd o.patterns
    let migration ← migrate o.strict (discovery.files.map (·.file))
    return { start with
      migrated := migration.migrated
      errors := discovery.failures.map DiscoveryFailure.notice
        ++ migration.failures.map Failure.notice
      warnings := migration.warnings.map Warning.notice
      content := migration.content }

/-- A run: what it reports, and what it does to the tree. It changes nothing but the file that it
saves. -/
def execute (o : Options) (resolver : Resolver) : EStateM (Fault WriteError) Tree Report :=
  fun root =>
    match o.report resolver root with
    | .error why => .error (.broken why) root
    | .ok report =>
      match report.content with
      | some content =>
        if o.dryRun then .ok report root
        else (Tree.saving o.outputPath content o.force).map (fun _ => report) root
      | none => .ok report root

/-- What a run reports, and the tree that it leaves. -/
def run (o : Options) (resolver : Resolver) (root : Tree) :
    Except (Fault WriteError) (Report × Tree) :=
  match o.execute resolver root with
  | .ok report tree => .ok (report, tree)
  | .error e _ => .error e

end Options

end DatafileMigration
