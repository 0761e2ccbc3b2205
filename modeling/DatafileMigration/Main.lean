import DatafileMigration.CommandLine.Answer

namespace DatafileMigration.CommandLine

/-- Directories without those that no walk enters, and files; only datafiles keep their content. -/
partial def load (e : IO.FS.DirEntry) : IO Tree := do
  if ← e.path.isDir then
    let mut entries := []
    for child in ← e.path.readDir do
      let name := child.fileName.toList
      if !Tree.ignoredDirectories.contains name then
        entries := (name, ← load child) :: entries
    return .directory entries
  else if (Path.kind? e.fileName.toList).isSome then
    return .file (← IO.FS.readBinFile e.path).toList
  else return .file []

/-- The tree with what stands at an absolute path, if anything does. -/
def addPath (root : Tree) (path : Text) : IO Tree := do
  let e : IO.FS.DirEntry := { root := ← IO.currentDir, fileName := String.ofList path }
  if ← e.path.pathExists then return Tree.put (← load e) (Path.normalSegments path) root
  else return root

/-- The tree with a directory at an absolute path, if one is there. -/
def addDirectory (root : Tree) (path : Text) : IO Tree := do
  let e : IO.FS.DirEntry := { root := ← IO.currentDir, fileName := String.ofList path }
  if !root.has path && (← e.path.isDir) then
    return Tree.put Tree.empty (Path.normalSegments path) root
  else return root

/-- What a migration can reach, the outer directories before the inner ones. -/
def reach (o : Options) : List Text :=
  let named := o.patterns.map (Path.absolute o.cwd)
  let searched := (named.filter Path.hasGlob).map Glob.rootDirectory
  (searched ++ named).mergeSort fun a b => a.length ≤ b.length

def loadReach (o : Options) : IO Tree := do
  let mut root := Tree.empty
  for path in reach o do
    root ← addPath root path
  root ← addDirectory root (Path.absolute o.outputPath "..")
  if root.has o.outputPath then return root else addPath root o.outputPath

/-- Writes the module if an answer saved one. -/
def store (o : Options) (before after : Tree) : IO Unit :=
  match before.read o.outputPath, after.read o.outputPath with
  | .ok old, .ok new =>
    if old = new then return ()
    else IO.FS.writeBinFile (String.ofList o.outputPath) (ByteArray.mk new.toArray)
  | .error _, .ok new =>
    IO.FS.writeBinFile (String.ofList o.outputPath) (ByteArray.mk new.toArray)
  | _, .error _ => return ()

def printLine (t : Text) : IO Unit := IO.println (String.ofList t)

def Printed.print : Printed → IO Unit
  | .text t => printLine t
  | .table title columns rows => do
    printLine title
    for row in columns :: rows do
      printLine (Text.join " | " row)

def usage : String :=
  "Usage: tinybird-migrate migrate [PATTERNS]... [--cwd PATH] [--out PATH] "
    ++ "[--strict/--no-strict] [--dry-run] [--force]\n       tinybird-migrate version"

/-- The variables that set defaults. -/
def readEnvironment : IO Environment := do
  let mut values := []
  for name in ["CWD", "OUT", "STRICT", "FORCE"] do
    let key := Environment.variableName name
    if let some value ← IO.getEnv (String.ofList key) then
      values := (key, value.toList) :: values
  let known := values
  return fun key => (known.find? fun entry => entry.1 = key).map fun entry => entry.2

end DatafileMigration.CommandLine

open DatafileMigration DatafileMigration.CommandLine

/-- What a request can reach on the disk is loaded, the request is answered, and a saved module is
written. -/
def main (arguments : List String) : IO UInt32 := do
  let env ← readEnvironment
  let here := (toString (← IO.currentDir)).toList
  let words := arguments.map String.toList
  let root ← match CommandLine.read env here words with
    | some (.migrate o) => loadReach o
    | _ => pure Tree.empty
  let answer := CommandLine.answer env here root words
  match CommandLine.read env here words with
  | some (.migrate o) => store o root answer.tree
  | some .version => pure ()
  | some .help => IO.println usage
  | none => IO.eprintln usage
  for p in answer.printed do
    p.print
  return UInt32.ofNat answer.exit
