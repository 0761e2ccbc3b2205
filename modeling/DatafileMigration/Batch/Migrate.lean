import DatafileMigration.Batch.Normal
import DatafileMigration.Batch.Reference
import DatafileMigration.Grammar.Parse
import DatafileMigration.Literal.Basic
import DatafileMigration.Module.Assembly

namespace DatafileMigration

/-- The refused items with their causes, and what became of the others, both in order. -/
structure Sifted (α ε β : Type) where
  refused : List (α × ε) := []
  passed : List β := []
  deriving Repr

/-- One step for each item, taken on its own: a refused item stands aside with its cause and changes
nothing for the others, whereas a breakdown ends it all. -/
def sift {α ε β : Type} (step : α → Except (Fault ε) β) :
    List α → Except Breakdown (Sifted α ε β)
  | [] => .ok {}
  | a :: rest =>
    match step a with
    | .error (.broken why) => .error why
    | .error (.refused cause) =>
      (sift step rest).map fun s => { s with refused := (a, cause) :: s.refused }
    | .ok b => (sift step rest).map fun s => { s with passed := b :: s.passed }

/-- Why a file of a batch has no statement in the module. -/
inductive Failure where
  | unparsed (e : ParseError)
  | duplicate (d : Duplicate)
  | unrendered (r : Resource) (e : RenderError)
  deriving DecidableEq, Repr

def ParseError.notice (e : ParseError) : Notice :=
  { path := e.path, name := e.name, kind := some e.kind, message := e.message }

def Failure.notice : Failure → Notice
  | unparsed e => e.notice
  | duplicate d => d.notice
  | unrendered r e => r.notice e.message

/-- Resources in normal form, and the definitions of those that have a statement. -/
structure Selection where
  normalized : Normalized
  checked : Sifted Resource RenderError Definition
  deriving Repr

/-- The resources with a statement among those of a batch. -/
def select (strict : Bool) (rs : List Resource) : Except Breakdown Selection := do
  let normalized ← normalize rs
  let checked ← sift (Resource.define strict) normalized.kept
  return { normalized, checked }

namespace Selection

def warnings (s : Selection) : List Warning := referenceWarnings s.normalized.kept

def definitions (s : Selection) : List Definition := Definition.sort s.checked.passed

def failures (s : Selection) : List Failure :=
  s.normalized.duplicates.map .duplicate
    ++ s.checked.refused.map fun (r, e) => .unrendered r e

end Selection

structure Migration where
  failures : List Failure
  warnings : List Warning
  /-- The resources of the module, in the order of definition. -/
  migrated : List Resource
  /-- The module, if there is anything to define. -/
  content : Option Text
  deriving DecidableEq, Repr

/-- The datafiles are parsed, the resources are normalized, and those that have a statement make up
the module. -/
def migrate (strict : Bool) (files : List Datafile) : Except Breakdown Migration := do
  let parsed ← sift (Datafile.parse strict) files
  let selection ← select strict parsed.passed
  let definitions := selection.definitions
  return {
    failures := parsed.refused.map (fun (_, e) => .unparsed e) ++ selection.failures
    warnings := selection.warnings
    migrated := definitions.map (·.resource)
    content := if definitions = [] then none else some (Module.ofDefinitions definitions) }

end DatafileMigration
