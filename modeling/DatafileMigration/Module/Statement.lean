import DatafileMigration.Module.Layout
import DatafileMigration.Module.Registry
import DatafileMigration.Resource.Violation

namespace DatafileMigration

/-- A part of a statement: an expression, or the identifier of a resource. -/
inductive Operand where
  | expression (t : Text)
  | identifier (kind : Kind) (name : Text)
  deriving DecidableEq, Repr

inductive Argument where
  | single (o : Operand)
  | dict (entries : List (Text × Operand))
  deriving DecidableEq, Repr

/-- A call with a name and keyword arguments, assigned to the identifier of that name. A statement
names resources by kind and name, so that it does not depend on the identifiers: these come in when
it is written. -/
structure Statement where
  kind : Kind
  name : Text
  function : Text
  arguments : List (Text × Argument)
  deriving DecidableEq, Repr

abbrev Naming := Kind → Text → Text

def Operand.render (naming : Naming) : Operand → Text
  | expression t => t
  | identifier kind name => naming kind name

def Operand.identifiers : Operand → List (Kind × Text)
  | expression _ => []
  | identifier kind name => [(kind, name)]

namespace Argument

def expression (t : Text) : Argument := .single (.expression t)

def render (naming : Naming) : Argument → Text
  | single o => o.render naming
  | dict entries => Layout.dict 1 (entries.map fun (key, o) => (key, o.render naming))

def identifiers : Argument → List (Kind × Text)
  | single o => o.identifiers
  | dict entries => entries.flatMap fun (_, o) => o.identifiers

/-- An argument that is there if the condition holds. -/
def when (condition : Bool) (key : Text) (a : Argument) : List (Text × Argument) :=
  if condition then [(key, a)] else []

/-- A text, if it says something. -/
def filled (key : Text) (t : Option Text) : List (Text × Argument) :=
  when (isFilled t) key (expression (Text.quoted (t.getD [])))

end Argument

namespace Statement

def render (naming : Naming) (s : Statement) : Text :=
  naming s.kind s.name ++ " = "
    ++ Layout.call 0 s.function (Text.quoted s.name
      :: s.arguments.map fun (key, a) => Layout.keyword key (a.render naming))
    ++ "\n"

/-- The resources that a statement refers to. -/
def references (s : Statement) : List (Kind × Text) :=
  s.arguments.flatMap fun (_, a) => a.identifiers

end Statement

end DatafileMigration
