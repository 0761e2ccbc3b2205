import DatafileMigration.Datafile.Value
import DatafileMigration.Literal.Json
import DatafileMigration.Module.RenderError

namespace DatafileMigration

/-- The value of an expression that is a plain literal: `NULL`, a number, a single-quoted text, or a
list or dictionary in the notation of JSON. -/
def readLiteral (expression : Text) : Except (Fault RenderError) Literal :=
  let trimmed := Text.strip expression
  let refused : Except (Fault RenderError) Literal := .error (.refused (.noLiteral expression))
  if trimmed = "NULL" then .ok .null
  else match PlainNumber.ofText? trimmed with
    | some x => (x.value.mapError .broken).map .scalar
    | none =>
      match Datafile.insideQuotes? '\'' trimmed with
      | some inside => .ok (.text (Text.unescapeQuotes inside))
      | none =>
        if (Text.between? "\x7b" "\x7d" trimmed).isSome || (Text.between? "[" "]" trimmed).isSome then
          match Literal.ofJson? trimmed with
          | some value => .ok value
          | none => refused
        else refused

/-- The value of a default in a column of the given type: zero and one are the truth values of a
boolean column, which takes no other integer. -/
def defaultValue (type expression column : Text) : Except (Fault RenderError) Literal := do
  let value ← readLiteral expression
  match value with
  | .scalar (.int n) =>
    if !isBooleanType type then return value
    else if n = 0 then return .bool false
    else if n = 1 then return .bool true
    else throw (.refused (.booleanDefault column))
  | _ => return value

def columnDefault (type expression column : Text) : Except (Fault RenderError) Text := do
  let value ← defaultValue type expression column
  value.render.mapError fun e => .refused (.ofNotFinite e)

end DatafileMigration
