import DatafileMigration.Module.Connection
import DatafileMigration.Module.Datasource
import DatafileMigration.Module.Pipe

namespace DatafileMigration

namespace Resource

def statement (strict : Bool) : Resource → Except (Fault RenderError) Statement
  | .connection c => .ok c.statement
  | .datasource d => d.statement strict
  | .pipe p => p.statement strict

def imports : Resource → List Text
  | .connection c => [c.statement.function]
  | .datasource d => d.imports
  | .pipe p => p.imports

/-- Whether a resource does not come behind another: its kind decides, then its name. -/
def precedes (a b : Resource) : Bool :=
  a.kind.rank < b.kind.rank || (a.kind.rank = b.kind.rank && Text.precedes a.name b.name)

/-- The resources in the order of definition. -/
def sort (rs : List Resource) : List Resource := rs.mergeSort precedes

end Resource

/-- A resource and the statement that defines it. -/
structure Definition where
  resource : Resource
  statement : Statement
  deriving DecidableEq, Repr

def Resource.define (strict : Bool) (r : Resource) : Except (Fault RenderError) Definition :=
  (r.statement strict).map fun statement => { resource := r, statement }

namespace Definition

def sort (ds : List Definition) : List Definition :=
  ds.mergeSort fun a b => a.resource.precedes b.resource

/-- The identifiers of the defined resources, given in this order. -/
def registry (ds : List Definition) : Registry :=
  Registry.registerAll {} (ds.map (·.resource.key))

end Definition

namespace Module

def header : Text :=
  List.flatMap String.toList
    ["\"\"\"Generated by tinybird-migrate.\n",
     "\n",
     "Review endpoint output schemas and any defaults before production use.\n",
     "\"\"\"\n"]

/-- The import line, if there is something to import. -/
def importLines (ds : List Definition) : List Text :=
  match sdkNames.filter fun name => ds.any (·.resource.imports.contains name) with
  | [] => []
  | names => ["from tinybird_sdk import " ++ Text.join ", " names ++ "\n"]

/-- The section of a kind, if there is something in it. -/
def section? (ds : List Definition) (kind : Kind) : Option Text :=
  let naming := (Definition.registry ds).lookup
  match ds.filter (·.resource.kind = kind) with
  | [] => none
  | ofKind =>
    some ("# " ++ kind.title ++ "\n\n"
      ++ Text.join "\n\n" (ofKind.map (·.statement.render naming)))

/-- The parts of a module with an empty line between them. -/
def assemble (parts : List Text) : Text :=
  Text.join "\n\n" (parts.map Text.trimNewlines) ++ "\n"

/-- The generated module: a header, one import line, and a section for each kind with the statements
of its resources in the order of their names. -/
def ofDefinitions (ds : List Definition) : Text :=
  assemble (header :: (importLines ds ++ Kind.all.filterMap (section? ds)))

def render (strict : Bool) (rs : List Resource) : Except (Fault RenderError) Text :=
  ((Resource.sort rs).mapM (Resource.define strict)).map ofDefinitions

end Module

/-- A resource's statement for itself alone. -/
def Resource.render (strict : Bool) (r : Resource) : Except (Fault RenderError) Text :=
  (r.statement strict).map (·.render (Registry.lookup {}))

end DatafileMigration
