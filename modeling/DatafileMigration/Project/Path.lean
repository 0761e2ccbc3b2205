import DatafileMigration.Resource.Kind
import DatafileMigration.Text.Case

namespace DatafileMigration.Path

def isAbsolute (p : Text) : Bool := Text.startsWith "/" p

/-- The slashes that an absolute path begins with: two stay two, more are one. -/
def root : Text → Text
  | '/' :: '/' :: '/' :: _ => "/"
  | '/' :: '/' :: _ => "//"
  | '/' :: _ => "/"
  | _ => []

/-- The segments that say something. -/
def segments (p : Text) : List Text := (Text.splitOn '/' p).filter (· ≠ [])

/-- `p` read from the directory `d`. -/
def join (d p : Text) : Text :=
  if isAbsolute p then p
  else if d = [] || Text.endsWith "/" d then d ++ p
  else d ++ "/" ++ p

/-- The segments, the last first, after one more. Nothing is above the root. -/
def push (rooted : Bool) (stack : List Text) (segment : Text) : List Text :=
  if segment = "." then stack
  else if segment = ".." then
    match stack with
    | [] => if rooted then [] else [segment]
    | top :: below => if top = ".." then segment :: stack else below
  else segment :: stack

def normalSegments (p : Text) : List Text :=
  ((segments p).foldl (push (isAbsolute p)) []).reverse

/-- The normal form of a path has no empty segment, no `.`, and `..` only where nothing is left to
go up from. -/
def normalize (p : Text) : Text :=
  match root p ++ Text.join "/" (normalSegments p) with
  | [] => "."
  | t => t

/-- The normal form of a path that is read from the directory `here`. -/
def absolute (here p : Text) : Text := normalize (join here p)

/-- Without empty segments and `.`; `..` stays, since it depends on what is on disk. -/
def tidy (p : Text) : Text :=
  match root p ++ Text.join "/" ((segments p).filter (· ≠ ".")) with
  | [] => "."
  | t => t

/-- Both lists without their common beginning. -/
def dropCommon : List Text → List Text → List Text × List Text
  | s :: ss, t :: ts => if s = t then dropCommon ss ts else (s :: ss, t :: ts)
  | ss, ts => (ss, ts)

/-- The absolute path `p` as read from the absolute directory `d`. -/
def relative (d p : Text) : Text :=
  let (up, down) := dropCommon (normalSegments d) (normalSegments p)
  match up.map (fun _ => ['.', '.']) ++ down with
  | [] => "."
  | parts => Text.join "/" parts

/-- What follows the last slash. -/
def baseName (p : Text) : Text := (p.reverse.takeWhile (· ≠ '/')).reverse

/-- A name cut in front of its last dot; dots that begin it do not count. -/
def splitExtension (name : Text) : Text × Text :=
  match Text.cutAt? '.' name.reverse with
  | some (after, before) =>
    if before.all (· = '.') then (name, []) else (before.reverse, '.' :: after.reverse)
  | none => (name, [])

def extension (p : Text) : Text := (splitExtension (baseName p)).2

/-- The kind of datafile that an extension stands for, in any case. -/
def kind? (p : Text) : Option Kind :=
  match Text.lower (extension p) with
  | '.' :: word => Kind.ofText? word
  | _ => none

def resourceName (p : Text) : Text := (splitExtension (baseName p)).1

def unifySlashes (p : Text) : Text := Text.replaceChar '\\' '/' p

/-- Whether a text holds a character with a meaning in patterns. -/
def hasGlob (p : Text) : Bool := p.any fun c => c = '*' || c = '?' || c = '['

end DatafileMigration.Path
