import DatafileMigration.Literal.Basic
import DatafileMigration.Project.Tree

namespace DatafileMigration

inductive WriteCause where
  | exists
  | system (e : SystemError)
  deriving DecidableEq, Repr

structure WriteError where
  path : Text
  cause : WriteCause
  deriving DecidableEq, Repr

def WriteError.message (e : WriteError) : Text :=
  match e.cause with
  | .exists => "Output file already exists: " ++ e.path ++ ". Use --force to overwrite."
  | .system cause => "Could not write " ++ e.path ++ ": " ++ cause.message e.path

namespace Tree

/-- A text is saved at a path. Where that fails, the tree is left as it was. A file that exists
stays as it is, unless it may be replaced. -/
def saving (path content : Text) (force : Bool) : EStateM (Fault WriteError) Tree Unit := fun root =>
  if root.has path && !force then .error (.refused { path, cause := .exists }) root
  else if isImpossible path then .error (.broken .impossiblePath) root
  else match root.write path (Text.encode content) with
    | .ok tree => .ok () tree
    | .error e => .error (.refused { path, cause := .system e }) root

/-- The tree after a text is saved at a path. -/
def save (root : Tree) (path content : Text) (force : Bool) : Except (Fault WriteError) Tree :=
  match saving path content force root with
  | .ok _ tree => .ok tree
  | .error e _ => .error e

end Tree

end DatafileMigration
