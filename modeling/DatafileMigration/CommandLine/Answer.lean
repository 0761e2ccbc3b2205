import DatafileMigration.CommandLine.Arguments

namespace DatafileMigration.CommandLine

inductive Printed where
  | text (t : Text)
  | table (title : Text) (columns : List Text) (rows : List (List Text))
  deriving DecidableEq, Repr

/-- What a command prints, and how it ends. -/
structure Answer where
  exit : Nat
  printed : List Printed
  tree : Tree
  deriving Repr

def errorTable (errors : List Notice) : Printed :=
  .table "Migration errors" ["File", "Resource", "Kind", "Error"]
    (errors.map fun e => [e.path, e.name, e.kind.elim "-" Kind.text, e.message])

/-- The generated module between two lines. -/
def printedModule (content : Text) : List Printed :=
  let rule : Printed := .text (List.replicate 60 '=')
  [.text "\n📝 Generated module:", rule, .text content, rule]

/-- How many resources of each kind were migrated. -/
def summary (r : Report) : Text :=
  let count (kind : Kind) : Text := Text.ofNat (r.migratedNames (some kind)).length
  "\n✓ Migrated " ++ Text.ofNat r.migrated.length ++ " resources (" ++ count .connection
    ++ " connections, " ++ count .datasource ++ " datasources, " ++ count .pipe ++ " pipes)"

def printedReport (r : Report) : List Printed :=
  let content := r.content.getD []
  (if r.dryRun && content ≠ [] then printedModule content else [])
    ++ (if r.errors = [] then [] else [errorTable r.errors])
    ++ r.warnings.map (fun w => .text ("⚠️  " ++ w.path ++ ": " ++ w.message))
    ++ [.text (summary r)]
    ++ (if r.migrated ≠ [] && !r.dryRun then [.text ("  - Output: " ++ r.outputPath)] else [])
    ++ if r.success then [] else [.text ("❌ " ++ Text.ofNat r.errors.length ++ " errors")]

/-- The answer to a request for a migration. -/
def answerMigrate (root : Tree) (o : Options) : Answer :=
  match o.execute root.resolveIncludes root with
  | .ok report tree =>
    { exit := if report.success then 0 else 1, printed := printedReport report, tree }
  | .error (.refused e) tree => { exit := 1, printed := [.text ("❌ Error: " ++ e.message)], tree }
  | .error (.broken _) tree => { exit := 1, printed := [], tree }

/-- The answer to a command line; one that is not well formed is not answered. -/
def answer (env : Environment) (here : Text) (root : Tree) (arguments : List Text) : Answer :=
  match read env here arguments with
  | none => { exit := 2, printed := [], tree := root }
  | some .help => { exit := 0, printed := [], tree := root }
  | some .version => { exit := 0, printed := [.text "tinybird-migrate v0.1.0"], tree := root }
  | some (.migrate o) => answerMigrate root o

end DatafileMigration.CommandLine
