import DatafileMigration.Project.Path
import DatafileMigration.Text.Utf8

namespace DatafileMigration

open Text (Octets)

/-- What is on the disk. There are no symbolic links and no special files in a tree, nothing in it
lacks a permission, and a file that can be opened for writing is written to its end. -/
inductive Tree where
  | file (content : Octets)
  | directory (entries : List (Text × Tree))
  deriving Repr

inductive SystemError where
  | missing
  | notDirectory
  | isDirectory
  | nameTooLong
  deriving DecidableEq, Repr

namespace SystemError

def number : SystemError → Nat
  | missing => 2
  | notDirectory => 20
  | isDirectory => 21
  | nameTooLong => 36

def reason : SystemError → Text
  | missing => "No such file or directory"
  | notDirectory => "Not a directory"
  | isDirectory => "Is a directory"
  | nameTooLong => "File name too long"

/-- The error as the system words it for a path. -/
def message (path : Text) (e : SystemError) : Text :=
  "[Errno " ++ Text.ofNat e.number ++ "] " ++ e.reason ++ ": " ++ Text.shown path

end SystemError

/-- The names that lead from the root to a place. -/
abbrev Place := List Text

namespace Tree

def empty : Tree := .directory []

def isDirectory : Tree → Bool
  | directory _ => true
  | file _ => false

def isFile (t : Tree) : Bool := !t.isDirectory

def child? (name : Text) : Tree → Option Tree
  | directory entries => (entries.find? (·.1 = name)).map (·.2)
  | file _ => none

def at? : Place → Tree → Option Tree
  | [], t => some t
  | name :: rest, t => (t.child? name).bind (at? rest)

/-- More octets than a name can have. -/
def isLongName (name : Text) : Bool := (Text.encode name).length > 255

/-- More octets than a path can have. -/
def isLongPath (path : Text) : Bool := (Text.encode path).length ≥ 4096

/-- No path holds the character that ends it. -/
def isImpossible (path : Text) : Bool := path.contains '\x00'

/-- The place that a segment leads to from a place. -/
def step (root : Tree) (place : Place) (segment : Text) : Except SystemError Place :=
  match root.at? place with
  | some (directory entries) =>
    if segment = [] || segment = "." then .ok place
    else if segment = ".." then .ok place.dropLast
    else if isLongName segment then .error .nameTooLong
    else if entries.any (·.1 = segment) then .ok (place ++ [segment])
    else .error .missing
  | some (file _) => .error .notDirectory
  | none => .error .missing

/-- A path is followed segment by segment, `..` leads back to the directory above, and what fails
first decides the error. -/
def locate (root : Tree) (path : Text) : Except SystemError Place :=
  if path = [] then .error .missing
  else if isLongPath path then .error .nameTooLong
  else (Text.splitOn '/' path).foldlM (step root) []

def find (root : Tree) (path : Text) : Except SystemError Tree := do
  let place ← root.locate path
  match root.at? place with
  | some t => return t
  | none => throw .missing

/-- Whether a path leads to something that passes a test. -/
def leadsTo (test : Tree → Bool) (root : Tree) (path : Text) : Bool :=
  !isImpossible path && match root.find path with
    | .ok t => test t
    | .error _ => false

def hasDirectory : Tree → Text → Bool := leadsTo isDirectory

def hasFile : Tree → Text → Bool := leadsTo isFile

def has : Tree → Text → Bool := leadsTo fun _ => true

def read (root : Tree) (path : Text) : Except SystemError Octets := do
  match ← root.find path with
  | file content => return content
  | directory _ => throw .isDirectory

/-- Entries with one more, or with another one under a name. -/
def putEntry (name : Text) (t : Tree) : List (Text × Tree) → List (Text × Tree)
  | [] => [(name, t)]
  | (n, old) :: rest => if n = name then (n, t) :: rest else (n, old) :: putEntry name t rest

/-- The tree with `t` at a place whose directories are made where they are missing. -/
def put (t : Tree) : Place → Tree → Tree
  | [], _ => t
  | name :: rest, directory entries =>
    directory (putEntry name
      (put t rest (((entries.find? (·.1 = name)).map (·.2)).getD empty)) entries)
  | name :: rest, file _ => directory [(name, put t rest empty)]

def remove : Place → Tree → Tree
  | [name], directory entries => directory (entries.filter (·.1 ≠ name))
  | name :: rest, directory entries =>
    directory (entries.map fun (n, t) => (n, if n = name then remove rest t else t))
  | _, t => t

/-- The place where a path lets a file be written. A slash at its end asks for a directory. -/
def writable (root : Tree) (path : Text) : Except SystemError Place := do
  if path = [] then throw .missing
  if isLongPath path then throw .nameTooLong
  let segments := (Text.splitOn '/' path).reverse.dropWhile (· = [])
  let last := segments.head?.getD []
  let parent ← segments.tail.reverse.foldlM (step root) []
  match root.at? parent with
  | some (directory entries) =>
    if Text.endsWith "/" path || last = "." || last = ".." then throw .isDirectory
    if isLongName last then throw .nameTooLong
    match (entries.find? (·.1 = last)).map (·.2) with
    | some (directory _) => throw .isDirectory
    | _ => return parent ++ [last]
  | some (file _) => throw .notDirectory
  | none => throw .missing

def write (root : Tree) (path : Text) (content : Octets) : Except SystemError Tree :=
  (root.writable path).map fun place => put (.file content) place root

/-- Directories that a walk does not enter. -/
def ignoredDirectories : List Text :=
  [".git", ".hg", ".svn", "node_modules", "__pycache__", ".venv", "venv"]

def sortEntries {α : Type} (entries : List (Text × α)) : List (Text × α) :=
  entries.mergeSort fun a b => Text.precedes a.1 b.1

mutual

/-- The files below a directory at a path: first its own, then those of its directories. -/
def walk (path : Text) : Tree → List Text
  | file _ => []
  | directory entries =>
    let own := (entries.filter (·.2.isFile)).map (·.1)
    (own.mergeSort Text.precedes).map (Path.join path)
      ++ ((sortEntries (walkEntries path entries)).flatMap (·.2))

/-- The files below each directory among entries. -/
def walkEntries (path : Text) : List (Text × Tree) → List (Text × List Text)
  | [] => []
  | (name, t) :: rest =>
    if t.isDirectory && !ignoredDirectories.contains name then
      (name, walk (Path.join path name) t) :: walkEntries path rest
    else walkEntries path rest

end

/-- The files below the directory that a path leads to; none if it leads to no directory. -/
def filesBelow (root : Tree) (path : Text) : List Text :=
  if isImpossible path then []
  else match root.find path with
    | .ok t => walk path t
    | .error _ => []

end Tree

end DatafileMigration
