import DatafileMigration.Grammar.Connection
import DatafileMigration.Grammar.Pipe

namespace DatafileMigration

structure ParseError where
  path : Text
  kind : Kind
  name : Text
  cause : Grammar.Cause
  deriving DecidableEq, Repr

def ParseError.message (e : ParseError) : Text := e.cause.message

namespace Grammar

open Datafile

def build (kind : Kind) (name path : Text) (ds : List Directive) : Parse Resource :=
  match kind with
  | .connection => (buildConnection name path ds).map .connection
  | .datasource => (buildDatasource name path ds).map .datasource
  | .pipe => (buildPipe name path ds).map .pipe

/-- The directives that count. Unknown ones refuse the file if `strict`, and count for nothing
otherwise. -/
def selectKnown (strict : Bool) (kind : Kind) (ds : List Directive) : Parse (List Directive) :=
  let unknown := unknownDirectives kind ds
  if strict && unknown ≠ [] then
    refuse (.unsupportedDirectives kind (unknown.map Directive.source))
  else .ok (knownDirectives kind ds)

/-- A resource that meets all its conditions. -/
def requireValid (kind : Kind) (r : Resource) : Parse Resource :=
  match r.violations with
  | [] => .ok r
  | vs => refuse (.invalid kind vs)

end Grammar

/-- The resource that a datafile defines. -/
def Datafile.parse (strict : Bool) (file : Datafile) : Except (Fault ParseError) Resource :=
  let parsed : Grammar.Parse Resource := do
    let ds ← Grammar.selectKnown strict file.kind (Datafile.scan file.content)
    let resource ← Grammar.build file.kind file.name file.path ds
    Grammar.requireValid file.kind resource
  parsed.mapError (Fault.map fun cause =>
    { path := file.path, kind := file.kind, name := file.name, cause })

/-- The directives of a file that are skipped when parsing is not strict. -/
def Datafile.skipped (file : Datafile) : List Datafile.Directive :=
  Grammar.unknownDirectives file.kind (Datafile.scan file.content)

/-- What is said of a skipped directive. -/
def Datafile.skipNotice (file : Datafile) (d : Datafile.Directive) : Text :=
  "Skipping unsupported " ++ file.kind.text ++ " directive '" ++ d.source ++ "' in " ++ file.path
    ++ ":" ++ Text.ofNat d.line

/-- What parsing a file says about it. -/
def Datafile.notices (strict : Bool) (file : Datafile) : List Text :=
  if strict then [] else file.skipped.map file.skipNotice

end DatafileMigration
