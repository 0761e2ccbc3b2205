import DatafileMigration.Module.RenderError
import DatafileMigration.Template.Parameter

namespace DatafileMigration

/-- Parameter types with a builder. -/
def parameterBuilders : List (Text × Text) :=
  [("String", "p.string()"), ("UUID", "p.uuid()"), ("Int8", "p.int8()"), ("Int16", "p.int16()"),
   ("Int32", "p.int32()"), ("Int64", "p.int64()"), ("UInt8", "p.uint8()"),
   ("UInt16", "p.uint16()"), ("UInt32", "p.uint32()"), ("UInt64", "p.uint64()"),
   ("Float32", "p.float32()"), ("Float64", "p.float64()"), ("Boolean", "p.boolean()"),
   ("Bool", "p.boolean()"), ("Date", "p.date()"), ("DateTime", "p.date_time()"),
   ("DateTime64", "p.date_time64()"), ("Array", "p.array(p.string())")]

/-- A type without a builder is an error if `strict`, and a text otherwise. -/
def parameterTypeBuilder (strict : Bool) (type : Text) : Except (Fault RenderError) Text :=
  match parameterBuilders.find? (·.1 = type) with
  | some (_, builder) => .ok builder
  | none =>
    if strict then .error (.refused (.unsupportedParameterType type)) else .ok "p.string()"

/-- The builder of a parameter, which is optional if it has a default or is not required. -/
def parameterBuilder (strict : Bool) (type : Text) (required : Bool) (default : Option Scalar) :
    Except (Fault RenderError) Text := do
  let builder ← parameterTypeBuilder strict type
  match default with
  | some value =>
    let argument ← value.render.mapError fun e => Fault.refused (.ofNotFinite e)
    return builder ++ ".optional(" ++ argument ++ ")"
  | none => return if required then builder else builder ++ ".optional()"

end DatafileMigration
