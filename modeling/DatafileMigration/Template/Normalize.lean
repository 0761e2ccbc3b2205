import DatafileMigration.Template.ParameterType
import DatafileMigration.Template.Placeholder
import DatafileMigration.Text.TopLevel

namespace DatafileMigration.Template

/-- A typed call of a named parameter without its options. -/
def Call.normalized (c : Call) : Text :=
  if !c.isTyped then c.source
  else match Text.splitTopLevel c.arguments with
    | name :: _ => if Text.isIdentifier name then c.name ++ "(" ++ name ++ ")" else c.source
    | [] => c.source

def Piece.normalized : Piece → Text
  | .plain c => [c]
  | .call c => c.normalized

def normalizeExpression (expression : Text) : Text :=
  Text.strip ((pieces expression).flatMap Piece.normalized)

/-- A placeholder whose expression is normal already keeps its blanks. -/
def Segment.normalized : Segment → Text
  | .plain c => [c]
  | .placeholder inside =>
    let expression := Text.strip inside
    let normal := normalizeExpression expression
    if normal = expression then (Segment.placeholder inside).source
    else "\x7b\x7b " ++ normal ++ " \x7d\x7d"

/-- Query text in normal form: typed calls in placeholders keep their parameter's name only, since
defaults and options belong to the declared parameter. -/
def normalize (sql : Text) : Text := (segments sql).flatMap Segment.normalized

end DatafileMigration.Template
