import DatafileMigration.Column.Read
import DatafileMigration.Literal.Render

namespace DatafileMigration

/-- Why a model has no statement in the generated module. -/
inductive RenderError where
  | unsupportedColumnType (name : Text)
  | unsupportedParameterType (name : Text)
  | notFinite (number : Binary64)
  | noLiteral (expression : Text)
  | booleanDefault (column : Text)
  | mixedJsonPaths (datasource : Text)
  | unsupportedEngine (type : Text)
  deriving DecidableEq, Repr

namespace RenderError

/-- How it is said that something cannot be rendered. -/
def message : RenderError → Text
  | .unsupportedColumnType name => "Unsupported column type in strict mode: \"" ++ name ++ "\""
  | .unsupportedParameterType name =>
    "Unsupported parameter type in strict mode: \"" ++ name ++ "\""
  | .notFinite number => "Unsupported numeric literal: " ++ number.text
  | .noLiteral expression => "Unsupported literal value: " ++ expression
  | .booleanDefault column =>
    "Boolean default value must be 0 or 1 for column \"" ++ column ++ "\"."
  | .mixedJsonPaths datasource =>
    "Datasource \"" ++ datasource ++ "\" has mixed json path usage. " ++
      "This is not representable in strict mode."
  | .unsupportedEngine type => "Unsupported engine type in strict mode: \"" ++ type ++ "\""

/-- The type without a builder, where that is the cause. -/
def typeName? : RenderError → Option Text
  | .unsupportedColumnType name | .unsupportedParameterType name => some name
  | _ => none

def ofNotFinite (e : NotFinite) : RenderError := .notFinite e.number

end RenderError

end DatafileMigration
