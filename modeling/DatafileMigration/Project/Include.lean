import DatafileMigration.Project.Glob
import DatafileMigration.Project.Tree

namespace DatafileMigration

/-- A file that a pattern includes: as the pattern names it, and as the system does. -/
structure IncludedFile where
  source : Text
  absolute : Text
  deriving DecidableEq, Repr

/-- Why a pattern includes nothing. -/
inductive IncludeError where
  | noMatch (pattern : Text)
  | notFound (pattern absolute : Text)
  | system (path : Text) (e : SystemError)
  /-- The refusal of some other way to resolve patterns. -/
  | refused (message : Text)
  deriving DecidableEq, Repr

def IncludeError.message : IncludeError → Text
  | noMatch pattern => "Include pattern matched no files: " ++ pattern
  | notFound _ absolute => "Include file not found: " ++ absolute
  | system path e => e.message path
  | refused message => message

/-- A way to resolve patterns from a directory. -/
abbrev Resolver := List Text → Text → Except IncludeError (List IncludedFile)

namespace Tree

/-- The files that an absolute pattern matches, in order. -/
def expandGlob (root : Tree) (pattern : Text) : List Text :=
  ((root.filesBelow (Glob.rootDirectory pattern)).filter (Glob.matchesPath pattern)).mergeSort
    Text.precedes

/-- Whether a path leads anywhere; a path that is too long is an error of its own. -/
def exists? (root : Tree) (path : Text) : Except IncludeError Bool :=
  if isImpossible path then .ok false
  else match root.find path with
    | .ok _ => .ok true
    | .error .nameTooLong => .error (.system path .nameTooLong)
    | .error _ => .ok false

/-- The files that one pattern includes. A pattern with special characters stands for the files that
it matches, any other one for the file that it names. -/
def resolvePattern (root : Tree) (cwd pattern : Text) : Except IncludeError (List IncludedFile) :=
  let isAbsolute := Path.isAbsolute pattern
  let absolute := if isAbsolute then pattern else Path.absolute cwd pattern
  if Path.hasGlob pattern then
    match root.expandGlob absolute with
    | [] => .error (.noMatch pattern)
    | files => .ok (files.map fun f =>
      { source := Path.unifySlashes (if isAbsolute then f else Path.relative cwd f), absolute := f })
  else do
    if ← root.exists? (Path.tidy absolute) then
      return [{ source := Path.unifySlashes pattern, absolute }]
    else throw (.notFound pattern absolute)

/-- Each file once, as the first pattern that includes it names it. -/
def keepFirstPaths (seen : List Text) : List IncludedFile → List IncludedFile
  | [] => []
  | f :: rest =>
    if seen.contains f.absolute then keepFirstPaths seen rest
    else f :: keepFirstPaths (f.absolute :: seen) rest

/-- The files that patterns include, in the order of the patterns. -/
def resolveIncludes (root : Tree) : Resolver := fun patterns cwd =>
  (patterns.mapM (root.resolvePattern cwd)).map fun files => keepFirstPaths [] files.flatten

end Tree

end DatafileMigration
