import DatafileMigration.Datafile.Block

namespace DatafileMigration.Datafile

inductive Body where
  | inline (value : Text)
  | block (lines : List Text)
  deriving DecidableEq, Repr

/-- A directive of a datafile and the number of its first line, counted from one. It is led by a
keyword, and carries a value on its line, or the indented block below it if `>` stands in the
value's place. -/
structure Directive where
  keyword : Text
  body : Body
  line : Nat
  deriving DecidableEq, Repr

namespace Directive

def isBlock (d : Directive) : Bool :=
  match d.body with
  | .inline _ => false
  | .block _ => true

def text (d : Directive) : Text :=
  match d.body with
  | .inline value => value
  | .block lines => Text.join "\n" lines

/-- The value; a block has none. -/
def value (d : Directive) : Text :=
  match d.body with
  | .inline value => value
  | .block _ => []

/-- The directive as it stands on its first line. -/
def source (d : Directive) : Text :=
  match d.body with
  | .inline value => Text.strip (d.keyword ++ " " ++ value)
  | .block _ => d.keyword ++ " >"

/-- The canonical lines of a directive: a value follows its keyword on one line, the lines of a
block follow theirs with four spaces in front, empty ones without. -/
def printLines (d : Directive) : List Text :=
  match d.body with
  | .inline value => [d.keyword ++ " " ++ value]
  | .block lines =>
    (d.keyword ++ " >") :: lines.map fun line => if line = [] then line else "    " ++ line

end Directive

def linesOf (content : Text) : List Text := Text.splitOn '\n' (Text.unifyNewlines content)

/-- The directives of the lines from number `number` on. Blank lines and lines whose first
character that is no blank is `#` stand for nothing. -/
def scanLines (number : Nat) : List Text → List Directive
  | [] => []
  | line :: rest =>
    let stripped := Text.strip line
    if stripped = [] || Text.startsWith "#" stripped then scanLines (number + 1) rest
    else
      let (keyword, value) := Text.cutWord stripped
      if value = ">" then
        { keyword, body := .block (blockContent rest), line := number }
          :: scanLines (number + 1 + (blockExtent rest).length) (afterBlock rest)
      else { keyword, body := .inline value, line := number } :: scanLines (number + 1) rest
termination_by lines => lines.length
decreasing_by
  all_goals simp_wf
  have := length_afterBlock_le rest
  omega

/-- The directives of a text. -/
def scan (content : Text) : List Directive := scanLines 1 (linesOf content)

/-- Directives in canonical form, one below the other. -/
def print (ds : List Directive) : Text := Text.join "\n" (ds.flatMap Directive.printLines)

end DatafileMigration.Datafile
