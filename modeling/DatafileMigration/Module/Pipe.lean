import DatafileMigration.Literal.Render
import DatafileMigration.Module.ParameterBuilder
import DatafileMigration.Module.Statement

namespace DatafileMigration

/-- The function that defines a pipe of a type. -/
def PipeType.function : PipeType → Text
  | .pipe | .endpoint => "define_pipe"
  | .materialized => "define_materialized_view"
  | .copy => "define_copy_pipe"

/-- Whether pipes of a type are called with parameters. -/
def PipeType.takesParameters : PipeType → Bool
  | .pipe | .endpoint => true
  | .materialized | .copy => false

def Node.render (n : Node) : Text :=
  Layout.call 2 "node"
    (Layout.keyword "name" (Text.quoted n.name)
      :: ((if isFilled n.description then
          [Layout.keyword "description" (Text.quoted (n.description.getD []))] else [])
        ++ [Layout.keyword "sql" (Text.quotedLines n.sql)]))

namespace Pipe

/-- The parameters, if there are any. -/
def parametersArgument (strict : Bool) (p : Pipe) :
    Except (Fault RenderError) (List (Text × Argument)) :=
  if p.parameters = [] then .ok []
  else do
    let entries ← p.parameters.mapM fun q => do
      let builder ← parameterBuilder strict q.type q.required q.default
      return (q.name, Operand.expression builder)
    return [("params", .dict entries)]

/-- The arguments that a type asks for in front of the nodes. -/
def typeArguments (strict : Bool) (p : Pipe) :
    Except (Fault RenderError) (List (Text × Argument)) :=
  match p.type with
  | .pipe | .endpoint => p.parametersArgument strict
  | .materialized =>
    .ok (("datasource", .single (.identifier .datasource (p.materializedDatasource.getD [])))
      :: Argument.when p.alter "deployment_method" (.expression (Text.quoted "alter")))
  | .copy =>
    .ok (("datasource", .single (.identifier .datasource (p.copyTarget.getD [])))
      :: (Argument.filled "copy_mode" (p.copyMode.map Choice.text)
        ++ Argument.filled "copy_schedule" p.copySchedule))

/-- An endpoint, with a cache if its results are kept. -/
def endpointExpression (p : Pipe) : Text :=
  match p.cacheTtl with
  | none => "True"
  | some ttl =>
    Layout.inlineDict [("enabled", "True"),
      ("cache", Layout.inlineDict [("enabled", "True"), ("ttl", Text.ofInt ttl)])]

/-- The arguments of an endpoint: what it answers is text. -/
def endpointArguments (p : Pipe) : List (Text × Argument) :=
  Argument.when (p.type = .endpoint) "endpoint" (.expression p.endpointExpression)
    ++ Argument.when (p.type = .endpoint && p.outputColumns ≠ []) "output"
      (.dict (p.outputColumns.map fun c => (c, .expression "t.string()")))

def tokensArgument (p : Pipe) : List (Text × Argument) :=
  Argument.when (p.tokens ≠ []) "tokens" (.expression (Layout.list 1
    (p.tokens.map fun name => Layout.inlineDict [("name", Text.quoted name)])))

/-- The statement that defines a pipe. What it says beside the nodes depends on the pipe's type. -/
def statement (strict : Bool) (p : Pipe) : Except (Fault RenderError) Statement := do
  let ofType ← p.typeArguments strict
  return {
    kind := .pipe
    name := p.name
    function := p.type.function
    arguments :=
      Argument.filled "description" p.description ++ ofType
        ++ Argument.when true "nodes" (.expression (Layout.list 1 (p.nodes.map Node.render)))
        ++ p.endpointArguments ++ p.tokensArgument }

def imports (p : Pipe) : List Text :=
  let ofParameters : List Text :=
    if p.parameters ≠ [] && p.type.takesParameters then ["p"] else []
  let ofOutput : List Text :=
    if p.type = .endpoint && p.outputColumns ≠ [] then ["t"] else []
  p.type.function :: "node" :: (ofParameters ++ ofOutput)

end Pipe

end DatafileMigration
