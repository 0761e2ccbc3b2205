import DatafileMigration.Number.Plain
import DatafileMigration.Template.ParameterType
import DatafileMigration.Template.Placeholder
import DatafileMigration.Text.TopLevel

namespace DatafileMigration

structure Parameter where
  name : Text
  type : Text
  required : Bool := true
  default : Option Scalar := none
  description : Option Text := none
  deriving DecidableEq, Repr

namespace Template

/-- Why a placeholder declares no parameter. -/
inductive ParameterError where
  | unknownFunction (name : Text)
  | noArguments (call : Text)
  | unnamedParameter (call : Text)
  | unreadableDefault (value : Text)
  | unreadableRequired (value : Text)
  | unreadableDescription (value : Text)
  deriving DecidableEq, Repr

def ParameterError.message : ParameterError → Text
  | .unknownFunction name => "Unsupported placeholder function in strict mode: \"" ++ name ++ "\""
  | .noArguments call => "Invalid template placeholder: \"" ++ call ++ "\""
  | .unnamedParameter call =>
    "Unsupported parameter name in placeholder: \"\x7b\x7b " ++ call ++ " \x7d\x7d\""
  | .unreadableDefault value => "Unsupported parameter default value: \"" ++ value ++ "\""
  | .unreadableRequired value => "Unsupported required value: \"" ++ value ++ "\""
  | .unreadableDescription value => "Unsupported description value: \"" ++ value ++ "\""

/-- The inside of a text that begins and ends with the same quote. -/
def quotedInside? (t : Text) : Option Text :=
  match t with
  | c :: rest => if c = '\'' || c = '"' then Text.dropSuffix? [c] rest else none
  | [] => none

/-- A default: a plain number, a truth value in any case, or a quoted text. -/
def readDefault (raw : Text) : Except (Fault ParameterError) Scalar :=
  let trimmed := Text.strip raw
  match PlainNumber.ofText? trimmed with
  | some x => x.value.mapError .broken
  | none =>
    let word := Text.lower trimmed
    if word = "true" then .ok (.bool true)
    else if word = "false" then .ok (.bool false)
    else match quotedInside? trimmed with
      | some inside => .ok (.text inside)
      | none => .error (.refused (.unreadableDefault raw))

def readRequired (raw : Text) : Except (Fault ParameterError) Bool :=
  let word := Text.lower (Text.strip raw)
  if word = "true" || word = "1" then .ok true
  else if word = "false" || word = "0" then .ok false
  else .error (.refused (.unreadableRequired raw))

/-- An argument of the form `key=value` with an identifier for key and something for value. -/
def keywordArgument? (argument : Text) : Option (Text × Text) := do
  let (key, value) ← Text.cutAt? '=' argument
  let key := Text.strip key
  let value := Text.strip value
  if Text.isIdentifier key && value ≠ [] then return (key, value) else none

/-- What the arguments after the name say; each part may be left unsaid. -/
structure Options where
  default : Option Scalar := none
  required : Option Bool := none
  description : Option Text := none
  deriving DecidableEq, Repr

/-- The options after one more argument; later ones win and unknown keys say nothing. -/
def Options.take (o : Options) (argument : Text) : Except (Fault ParameterError) Options := do
  let trimmed := Text.strip argument
  if trimmed = [] then return o
  match keywordArgument? trimmed with
  | none => return { o with default := some (← readDefault trimmed) }
  | some (key, value) =>
    let key := Text.lower key
    if key = "default" then return { o with default := some (← readDefault value) }
    else if key = "required" then return { o with required := some (← readRequired value) }
    else if key = "description" then
      match ← readDefault value with
      | .text t => return { o with description := some t }
      | _ => throw (.refused (.unreadableDescription value))
    else return o

def readOptions (arguments : List Text) : Except (Fault ParameterError) Options :=
  arguments.foldlM Options.take {}

structure Usage where
  name : Text
  type : Text
  options : Options
  deriving DecidableEq, Repr

/-- The use that a call makes, if it makes one. Array calls say nothing beyond name and type;
column calls may name an expression. -/
def Call.usage? (c : Call) : Except (Fault ParameterError) (Option Usage) :=
  if c.isRaising then .ok none
  else match typeOfFunction? c.name with
    | none => .error (.refused (.unknownFunction c.name))
    | some type =>
      match Text.splitTopLevel c.arguments with
      | [] => .error (.refused (.noArguments c.source))
      | name :: arguments =>
        if !Text.isIdentifier name then
          if type = "column" then .ok none else .error (.refused (.unnamedParameter c.source))
        else if type = "Array" then .ok (some ⟨name, type, {}⟩)
        else (readOptions arguments).map fun options => some ⟨name, type, options⟩

def queryCalls (sql : Text) : List Call := (expressions sql).flatMap calls

/-- The uses that a query makes, in order; the first bad call decides. -/
def usages (sql : Text) : Except (Fault ParameterError) (List Usage) :=
  (queryCalls sql).filterMapM Call.usage?

namespace Usage

def declare (u : Usage) : Parameter where
  name := u.name
  type := u.type
  required := u.options.required.getD u.options.default.isNone
  default := u.options.default
  description := u.options.description

/-- The parameter after a further use: the last type and the last default win, and optional
anywhere is optional overall. -/
def amend (u : Usage) (p : Parameter) : Parameter :=
  let default := u.options.default <|> p.default
  { p with
    type := u.type
    default
    description := match u.options.description with
      | some (c :: t) => some (c :: t)
      | _ => p.description
    required := p.required && u.options.required != some false && default.isNone }

/-- The parameters after a use, in the order of their first uses. -/
def record (known : List Parameter) (u : Usage) : List Parameter :=
  match known with
  | [] => [u.declare]
  | p :: rest => if p.name = u.name then u.amend p :: rest else p :: record rest u

end Usage

def sortParameters (ps : List Parameter) : List Parameter :=
  ps.mergeSort fun p q => Text.precedes p.name q.name

/-- The parameters that a query declares through typed calls in its placeholders. Each call is one
use of a parameter; the uses of one name are merged in order. -/
def parameters (sql : Text) : Except (Fault ParameterError) (List Parameter) :=
  (usages sql).map fun us => sortParameters (us.foldl Usage.record [])

end Template

end DatafileMigration
