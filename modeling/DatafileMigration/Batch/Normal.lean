import DatafileMigration.Batch.Notice
import DatafileMigration.Query.OutputColumns

namespace DatafileMigration

/-- A resource whose kind and name another has already. -/
structure Duplicate where
  resource : Resource
  /-- The path of the other. -/
  first : Text
  deriving DecidableEq, Repr

def Duplicate.message (d : Duplicate) : Text :=
  "Duplicate " ++ d.resource.kind.text ++ " name \"" ++ d.resource.name ++ "\" (already defined in "
    ++ d.first ++ ")."

def Duplicate.notice (d : Duplicate) : Notice := d.resource.notice d.message

/-- The first resource of each kind and name, and the others. -/
def keepFirsts (seen : List Resource) : List Resource → List Resource × List Duplicate
  | [] => ([], [])
  | r :: rest =>
    match seen.find? (·.key = r.key) with
    | some first =>
      let (kept, duplicates) := keepFirsts seen rest
      (kept, { resource := r, first := first.path } :: duplicates)
    | none =>
      let (kept, duplicates) := keepFirsts (r :: seen) rest
      (r :: kept, duplicates)

/-- A pipe with the output columns of its last node, if it is an endpoint without any. -/
def Pipe.complete (p : Pipe) : Except Breakdown Pipe :=
  if p.type = .endpoint && p.outputColumns = [] then
    match p.outputNode? with
    | some node => do
      let columns ← Query.outputColumns node.sql
      return { p with outputColumns := columns }
    | none => .ok p
  else .ok p

def Resource.complete : Resource → Except Breakdown Resource
  | .pipe p => p.complete.map .pipe
  | r => .ok r

/-- A batch in normal form, and what was left out of it. -/
structure Normalized where
  kept : List Resource
  duplicates : List Duplicate
  deriving DecidableEq, Repr

/-- No two resources of the normal form have the same kind and name, and its endpoints know their
output columns. -/
def normalize (rs : List Resource) : Except Breakdown Normalized := do
  let (firsts, duplicates) := keepFirsts [] rs
  let kept ← firsts.mapM Resource.complete
  return { kept, duplicates }

end DatafileMigration
