import DatafileMigration.Text.Quoted

namespace DatafileMigration.Layout

/-- The blanks in front of a line. -/
def indent (level : Nat) : Text := List.replicate (4 * level) ' '

def line (level : Nat) (item : Text) : Text := indent level ++ item ++ ",\n"

/-- Items between brackets that stand at the given level: one item a line with a comma behind it,
one level deeper than the brackets, which stand together when nothing is between them. -/
def block (opener closer : Text) (level : Nat) : List Text → Text
  | [] => opener ++ closer
  | items => opener ++ "\n" ++ items.flatMap (line (level + 1)) ++ indent level ++ closer

def call (level : Nat) (function : Text) (arguments : List Text) : Text :=
  block (function ++ "(") ")" level arguments

def list (level : Nat) (items : List Text) : Text := block "[" "]" level items

def entry (key value : Text) : Text := Text.quoted key ++ ": " ++ value

def dict (level : Nat) (entries : List (Text × Text)) : Text :=
  block "\x7b" "\x7d" level (entries.map fun (key, value) => entry key value)

/-- A dictionary on one line. -/
def inlineDict (entries : List (Text × Text)) : Text :=
  "\x7b" ++ Text.join ", " (entries.map fun (key, value) => entry key value) ++ "\x7d"

def keyword (key value : Text) : Text := key ++ "=" ++ value

end DatafileMigration.Layout
