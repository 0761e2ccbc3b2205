import DatafileMigration.Literal.Basic
import DatafileMigration.Number.Shortest
import DatafileMigration.Text.Quoted

namespace DatafileMigration

/-- A number without an expression. -/
structure NotFinite where
  number : Binary64
  deriving DecidableEq, Repr

def Scalar.render : Scalar → Except NotFinite Text
  | .bool b => .ok (if b then "True" else "False")
  | .int n => .ok (Text.ofInt n)
  | .float x =>
    match x with
    | .finite .. => .ok x.text
    | _ => .error ⟨x⟩
  | .text t => .ok (Text.quoted t)

namespace Literal

mutual

/-- The expression of a literal in the generated module. A number that is not finite has none. -/
def render : Literal → Except NotFinite Text
  | .null => .ok "None"
  | .scalar x => x.render
  | .list items => do
    let parts ← renderItems items
    return "[" ++ Text.join ", " parts ++ "]"
  | .dict entries => do
    let parts ← renderEntries entries
    return "\x7b" ++ Text.join ", " parts ++ "\x7d"

def renderItems : List Literal → Except NotFinite (List Text)
  | [] => .ok []
  | item :: items => do
    let part ← item.render
    let parts ← renderItems items
    return part :: parts

def renderEntries : List (Text × Literal) → Except NotFinite (List Text)
  | [] => .ok []
  | (key, value) :: entries => do
    let part ← value.render
    let parts ← renderEntries entries
    return (Text.quoted key ++ ": " ++ part) :: parts

end

end Literal

/-- A list of texts has an expression always. -/
def renderTexts (texts : List Text) : Text := "[" ++ Text.join ", " (texts.map Text.quoted) ++ "]"

/-- One key as a text, several keys as a list. -/
def renderKeys : List Text → Text
  | [key] => Text.quoted key
  | keys => renderTexts keys

end DatafileMigration
