import DatafileMigration.Template.Call
import DatafileMigration.Text.Case

namespace DatafileMigration.Template

/-- Functions that raise an error in the query and declare nothing. -/
def raisingFunctions : List Text := ["error", "custom_error"]

/-- Function names in lower case and the parameter type that each declares. -/
def typeAliases : List (Text × Text) :=
  [("string", "String"), ("uuid", "UUID"), ("int", "Int32"), ("integer", "Int32"),
   ("int8", "Int8"), ("int16", "Int16"), ("int32", "Int32"), ("int64", "Int64"),
   ("uint8", "UInt8"), ("uint16", "UInt16"), ("uint32", "UInt32"), ("uint64", "UInt64"),
   ("float32", "Float32"), ("float64", "Float64"), ("boolean", "Boolean"), ("bool", "Boolean"),
   ("date", "Date"), ("datetime", "DateTime"), ("datetime64", "DateTime64"),
   ("array", "Array"), ("column", "column"), ("json", "JSON")]

/-- The type that a function declares, in any case of its name; suffixed date and time functions
count as the plain ones. -/
def typeOfFunction? (name : Text) : Option Text :=
  let small := Text.lower name
  match typeAliases.find? (·.1 = small) with
  | some (_, type) => some type
  | none =>
    if Text.startsWith "datetime64" small then some "DateTime64"
    else if Text.startsWith "datetime" small then some "DateTime"
    else none

namespace Call

def isRaising (c : Call) : Bool := raisingFunctions.contains (Text.lower c.name)

/-- A call whose options belong to the declared parameter and not to the query. -/
def isTyped (c : Call) : Bool :=
  !c.isRaising && match typeOfFunction? c.name with
    | none => false
    | some type => type ≠ "Array"

end Call

end DatafileMigration.Template
