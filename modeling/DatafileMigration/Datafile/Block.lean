import DatafileMigration.Text.Blank

namespace DatafileMigration.Datafile

/-- A line that is not empty and does not begin with a blank. -/
def startsAtColumnZero : Text → Bool
  | [] => false
  | c :: _ => !Text.isBlank c

/-- The lines that belong to a block beginning here, which is below the line that introduces it: all
up to the next one that starts at column zero. -/
def blockExtent (lines : List Text) : List Text := lines.takeWhile (!startsAtColumnZero ·)

def afterBlock (lines : List Text) : List Text := lines.dropWhile (!startsAtColumnZero ·)

theorem blockExtent_append_afterBlock (lines : List Text) :
    blockExtent lines ++ afterBlock lines = lines := List.takeWhile_append_dropWhile

theorem length_afterBlock_le (lines : List Text) : (afterBlock lines).length ≤ lines.length :=
  (List.dropWhile_sublist _).length_le

/-- Spaces and tabs make up an indentation; other blanks do not. -/
def isIndent (c : Char) : Bool := c = ' ' || c = '\t'

def indentOf (line : Text) : Text := line.takeWhile isIndent

/-- The longest beginning that two texts share. -/
def sharedPrefix : Text → Text → Text
  | c :: s, d :: t => if c = d then c :: sharedPrefix s t else []
  | _, _ => []

/-- The indentation that all lines share, lines of nothing but indentation aside. -/
def margin (lines : List Text) : Text :=
  match lines.filter (!·.all isIndent) with
  | [] => []
  | line :: rest => rest.foldl (fun shared line => sharedPrefix shared (indentOf line)) (indentOf line)

/-- The lines without the indentation they share; lines of nothing but indentation become
empty. -/
def dedent (lines : List Text) : List Text :=
  let shared := margin lines
  lines.map fun line =>
    if line.all isIndent then [] else line.drop shared.length

/-- Blank lines at both ends go. -/
def trimBlankLines (lines : List Text) : List Text :=
  ((lines.dropWhile Text.isBlankText).reverse.dropWhile Text.isBlankText).reverse

/-- A block loses its outer blank lines, the blanks at the ends of its lines, and the indentation
that all its lines share. -/
def blockContent (lines : List Text) : List Text :=
  dedent ((trimBlankLines (blockExtent lines)).map Text.stripEnd)

end DatafileMigration.Datafile
