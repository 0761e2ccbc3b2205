import DatafileMigration.Literal.Json
import DatafileMigration.Text.Letter

namespace DatafileMigration.Script

/-- A string is told by its value. -/
inductive Token where
  | word (t : Text)
  | string (value : Text)
  | mark (c : Char)
  | comment (t : Text)
  deriving DecidableEq, Repr

def Token.isComment : Token → Bool
  | .comment _ => true
  | _ => false

/-- Where a reader stands. What it has read of a word or a value is kept last character first;
`long` says that a string stands between tripled quotes. -/
inductive Mode where
  | code
  | word (t : Text)
  | comment (t : Text)
  /-- Behind the first quote of a string. -/
  | opened
  /-- Behind two quotes, which are an empty string or begin a long one. -/
  | twice
  | string (long : Bool) (value : Text)
  | escape (long : Bool) (value : Text)
  /-- In the hexadecimal code of a character, of which so many digits are to come. -/
  | code16 (long : Bool) (value : Text) (digits : Nat) (code : Nat)
  /-- Behind one or two quotes in a long string. -/
  | closing (value : Text) (two : Bool)
  deriving DecidableEq, Repr

/-- A reader: the brackets that are still to be closed, the innermost first, the tokens of the
line at hand and the lines before it, both the last first. -/
structure Reader where
  mode : Mode := .code
  brackets : List Char := []
  line : List Token := []
  lines : List (List Token) := []
  deriving DecidableEq, Repr

/-- The bracket that closes one. -/
def closer? (c : Char) : Option Char :=
  if c = '(' then some ')'
  else if c = '[' then some ']'
  else if c = '\x7b' then some '\x7d'
  else none

def isCloser (c : Char) : Bool := c = ')' || c = ']' || c = '\x7d'

def isLineEnd (c : Char) : Bool := c = '\n' || c = '\r'

/-- What an escaped character stands for. -/
def escaped? (c : Char) : Option Char :=
  if c = '"' || c = '\\' then some c
  else if c = 'n' then some '\n'
  else if c = 'r' then some '\r'
  else if c = 't' then some '\t'
  else if c = 'b' then some (Char.ofNat 8)
  else if c = 'f' then some (Char.ofNat 12)
  else none

namespace Reader

def push (r : Reader) (tokens : List Token) : Reader :=
  { r with line := tokens.reverse ++ r.line }

/-- A line end outside of brackets; a line with nothing but comments goes on. -/
def endLine (r : Reader) : Reader :=
  if r.line.all Token.isComment then r
  else { r with line := [], lines := r.line.reverse :: r.lines }

/-- A character outside of words, strings and comments. -/
def inCode (r : Reader) (c : Char) : Option Reader :=
  if c = '"' then some { r with mode := .opened }
  else if c = '#' then some { r with mode := .comment [] }
  else if Text.isWordChar c then some { r with mode := .word [c] }
  else if isLineEnd c then some (if r.brackets = [] then r.endLine else r)
  else if c = ' ' || c = '\t' then some r
  else if c = '\'' || c = '\\' then none
  else match closer? c with
    | some close => some { r.push [.mark c] with brackets := close :: r.brackets }
    | none =>
      if isCloser c then
        match r.brackets with
        | [] => none
        | close :: rest =>
          if c = close then some { r.push [.mark c] with brackets := rest } else none
      else some (r.push [.mark c])

/-- A character of a string. -/
def inString (r : Reader) (long : Bool) (value : Text) (c : Char) : Option Reader :=
  if c = '\\' then some { r with mode := .escape long value }
  else if c = '"' then
    if long then some { r with mode := .closing value false }
    else some { r.push [.string value.reverse] with mode := .code }
  else if !long && isLineEnd c then none
  else some { r with mode := .string long (c :: value) }

def next (r : Reader) (c : Char) : Option Reader :=
  match r.mode with
  | .code => r.inCode c
  | .word t =>
    if Text.isWordChar c then some { r with mode := .word (c :: t) }
    else if c = '"' then none
    else { r.push [.word t.reverse] with mode := .code }.inCode c
  | .comment t =>
    if isLineEnd c then { r.push [.comment t.reverse] with mode := .code }.inCode c
    else some { r with mode := .comment (c :: t) }
  | .opened => if c = '"' then some { r with mode := .twice } else r.inString false [] c
  | .twice =>
    if c = '"' then some { r with mode := .string true [] }
    else { r.push [.string []] with mode := .code }.inCode c
  | .string long value => r.inString long value c
  | .escape long value =>
    if c = 'u' then some { r with mode := .code16 long value 4 0 }
    else (escaped? c).map fun d => { r with mode := .string long (d :: value) }
  | .code16 long value digits code =>
    (Literal.hexValue? c).map fun n =>
      if digits = 1 then { r with mode := .string long (Char.ofNat (16 * code + n) :: value) }
      else { r with mode := .code16 long value (digits - 1) (16 * code + n) }
  | .closing value two =>
    if c = '"' then
      if two then some { r.push [.string value.reverse] with mode := .code }
      else some { r with mode := .closing value true }
    else r.inString true (if two then '"' :: '"' :: value else '"' :: value) c

/-- The reader behind a text. -/
def scan (r : Reader) (t : Text) : Option Reader := t.foldlM next r

/-- The lines that were read, if nothing is left open. -/
def finish (r : Reader) : Option (List (List Token)) :=
  if r.mode = .code && r.brackets = [] && r.line = [] then some r.lines.reverse else none

end Reader

/-- The lines of a whole module, by the lexical rules of its language: words, marks and
double-quoted strings, of one line or between tripled quotes, with comments from `#` on, and
brackets that must match. A line goes on while a bracket is open, and so does one with nothing but
comments. Single quotes, prefixed strings, backslashes outside of strings and further escapes are
refused, as no module has them. -/
def read (t : Text) : Option (List (List Token)) := (Reader.scan {} t).bind Reader.finish

example : read "a = f(\n    \"x\\\"\",\n)\n\nb = g(\"\"\"a\nb\"\"\")\n" =
    some [[.word "a", .mark '=', .word "f", .mark '(', .string "x\"", .mark ',', .mark ')'],
      [.word "b", .mark '=', .word "g", .mark '(', .string "a\nb", .mark ')']] := by
  decide +kernel

end DatafileMigration.Script
