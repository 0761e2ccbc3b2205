import DatafileMigration.Batch.Notice
import DatafileMigration.Project.Include

namespace DatafileMigration

/-- A datafile and its path in the system. -/
structure DiscoveredFile where
  absolute : Text
  file : Datafile
  deriving DecidableEq, Repr

inductive ReadError where
  | system (path : Text) (e : SystemError)
  | encoding (e : Text.Utf8Error)
  deriving DecidableEq, Repr

def ReadError.message : ReadError → Text
  | system path e => e.message path
  | encoding e => e.message

/-- A pattern or a file that gave no datafile. -/
inductive DiscoveryFailure where
  | unsupportedExtension (pattern absolute : Text)
  | unresolved (pattern : Text) (e : IncludeError)
  | unreadable (path name : Text) (kind : Kind) (e : ReadError)
  deriving DecidableEq, Repr

def DiscoveryFailure.notice : DiscoveryFailure → Notice
  | unsupportedExtension pattern absolute =>
    let shown : Text := match Path.extension absolute with
      | [] => "(none)"
      | t => t
    { path := pattern, name := Path.baseName absolute, kind := none
      message := "Unsupported file extension: " ++ shown
        ++ ". Use .datasource, .pipe, or .connection." }
  | unresolved pattern e =>
    { path := pattern, name := Path.baseName pattern, kind := none, message := e.message }
  | unreadable path name kind e =>
    { path, name, kind := some kind, message := "Could not read file: " ++ e.message }

structure Discovery where
  files : List DiscoveredFile := []
  failures : List DiscoveryFailure := []
  /-- The normal forms of the paths that were read. -/
  seen : List Text := []
  deriving DecidableEq, Repr

/-- A file to be read: its kind, its path in the system, and the path that reports show. -/
structure Candidate where
  kind : Kind
  absolute : Text
  path : Text
  deriving DecidableEq, Repr

namespace Tree

/-- The text of a file: its octets are UTF-8, and its lines end in any way. -/
def readText (root : Tree) (path : Text) : Except (Fault ReadError) Text :=
  if isImpossible path then .error (.broken .impossiblePath)
  else match root.read path with
    | .error e => .error (.refused (.system path e))
    | .ok octets =>
      match Text.decode octets with
      | .error e => .error (.refused (.encoding e))
      | .ok t => .ok (Text.lineFeeds t)

/-- The candidate at a path, if it has the extension of a datafile. -/
def candidate? (absolute path : Text) : Option Candidate :=
  (Path.kind? absolute).map fun kind => { kind, absolute, path }

/-- The candidates that a pattern leads to. A pattern that names a directory stands for the
datafiles below it, one that names a file for that file, and any other one is left to the resolver.
-/
def candidates (root : Tree) (resolver : Resolver) (cwd pattern : Text) :
    Except DiscoveryFailure (List Candidate) :=
  let absolute := Path.absolute cwd pattern
  let relative := fun p => Path.unifySlashes (Path.relative cwd p)
  if root.hasDirectory absolute then
    .ok ((root.filesBelow absolute).filterMap fun f => candidate? f (relative f))
  else if root.hasFile absolute then
    match candidate? absolute (relative absolute) with
    | some c => .ok [c]
    | none => .error (.unsupportedExtension pattern absolute)
  else match resolver [pattern] cwd with
    | .error e => .error (.unresolved pattern e)
    | .ok included => .ok (included.filterMap fun f =>
      candidate? f.absolute (Path.unifySlashes f.source))

/-- What is discovered with one more candidate. -/
def discoverCandidate (root : Tree) (d : Discovery) (c : Candidate) :
    Except Breakdown Discovery :=
  let key := Path.unifySlashes (Path.normalize c.absolute)
  if d.seen.contains key then .ok d
  else
    let d := { d with seen := key :: d.seen }
    let name := Path.resourceName c.absolute
    match root.readText c.absolute with
    | .error (.broken why) => .error why
    | .error (.refused e) =>
      .ok { d with failures := d.failures ++ [.unreadable c.path name c.kind e] }
    | .ok content =>
      .ok { d with files := d.files ++
        [{ absolute := c.absolute, file := { kind := c.kind, path := c.path, name, content } }] }

/-- What is discovered with one more pattern. -/
def discoverPattern (root : Tree) (resolver : Resolver) (cwd : Text) (d : Discovery)
    (pattern : Text) : Except Breakdown Discovery :=
  match root.candidates resolver cwd pattern with
  | .error e => .ok { d with failures := d.failures ++ [e] }
  | .ok cs => cs.foldlM root.discoverCandidate d

/-- The datafiles that patterns lead to, in the order of their paths. Each file is read once,
however many patterns lead to it. -/
def discover (root : Tree) (resolver : Resolver) (cwd : Text) (patterns : List Text) :
    Except Breakdown Discovery := do
  let cwd := Path.normalize cwd
  let d ← patterns.foldlM (root.discoverPattern resolver cwd) {}
  return { d with files := d.files.mergeSort fun a b => Text.precedes a.file.path b.file.path }

end Tree

end DatafileMigration
