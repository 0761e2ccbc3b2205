import DatafileMigration.Text.Quoted
import DatafileMigration.Text.TopLevel

namespace DatafileMigration

inductive SimpleType where
  | string | uuid
  | int8 | int16 | int32 | int64 | int128 | int256
  | uint8 | uint16 | uint32 | uint64 | uint128 | uint256
  | float32 | float64 | bool | boolean
  | date | date32 | dateTime | json | object | ipv4 | ipv6
  deriving DecidableEq, Repr

namespace SimpleType

def all : List SimpleType :=
  [string, uuid, int8, int16, int32, int64, int128, int256, uint8, uint16, uint32, uint64,
   uint128, uint256, float32, float64, bool, boolean, date, date32, dateTime, json, object,
   ipv4, ipv6]

def print : SimpleType → Text
  | string => "String"
  | uuid => "UUID"
  | int8 => "Int8"
  | int16 => "Int16"
  | int32 => "Int32"
  | int64 => "Int64"
  | int128 => "Int128"
  | int256 => "Int256"
  | uint8 => "UInt8"
  | uint16 => "UInt16"
  | uint32 => "UInt32"
  | uint64 => "UInt64"
  | uint128 => "UInt128"
  | uint256 => "UInt256"
  | float32 => "Float32"
  | float64 => "Float64"
  | bool => "Bool"
  | boolean => "Boolean"
  | date => "Date"
  | date32 => "Date32"
  | dateTime => "DateTime"
  | json => "JSON"
  | object => "Object"
  | ipv4 => "IPv4"
  | ipv6 => "IPv6"

def builder : SimpleType → Text
  | string => "t.string()"
  | uuid => "t.uuid()"
  | int8 => "t.int8()"
  | int16 => "t.int16()"
  | int32 => "t.int32()"
  | int64 => "t.int64()"
  | int128 => "t.int128()"
  | int256 => "t.int256()"
  | uint8 => "t.uint8()"
  | uint16 => "t.uint16()"
  | uint32 => "t.uint32()"
  | uint64 => "t.uint64()"
  | uint128 => "t.uint128()"
  | uint256 => "t.uint256()"
  | float32 => "t.float32()"
  | float64 => "t.float64()"
  | bool => "t.bool()"
  | boolean => "t.bool()"
  | date => "t.date()"
  | date32 => "t.date32()"
  | dateTime => "t.date_time()"
  | json => "t.json()"
  | object => "t.json()"
  | ipv4 => "t.ipv4()"
  | ipv6 => "t.ipv6()"

theorem mem_all (s : SimpleType) : s ∈ all := by cases s <;> decide

def ofText? (t : Text) : Option SimpleType := all.find? (·.print = t)

theorem ofText?_print (s : SimpleType) : ofText? s.print = some s := by cases s <;> decide

end SimpleType

/-- How wide the numbers behind an enumeration's members are. -/
inductive EnumWidth where
  | eight
  | sixteen
  deriving DecidableEq, Repr

def EnumWidth.print : EnumWidth → Text
  | .eight => "8"
  | .sixteen => "16"

/-- How many bits a decimal of fixed precision has. -/
inductive DecimalWidth where
  | w32
  | w64
  | w128
  | w256
  deriving DecidableEq, Repr

namespace DecimalWidth

def all : List DecimalWidth := [w32, w64, w128, w256]

def print : DecimalWidth → Text
  | w32 => "32"
  | w64 => "64"
  | w128 => "128"
  | w256 => "256"

/-- The digits that fit. -/
def precision : DecimalWidth → Text
  | w32 => "9"
  | w64 => "18"
  | w128 => "38"
  | w256 => "76"

end DecimalWidth

/-- A member of an enumeration and the number behind it. -/
structure EnumMember where
  name : Text
  number : Text
  deriving DecidableEq, Repr

/-- A column type as written. Numbers keep the digits they were written with. -/
inductive ColumnType where
  | simple (s : SimpleType)
  | dateTimeIn (zone : Text)
  | dateTime64
  | dateTime64Of (precision : Text) (zone : Option Text)
  | fixedString (length : Text)
  | decimal (precision : Text) (scale : Option Text)
  | fixedDecimal (width : DecimalWidth) (scale : Text)
  | nested (inside : Text)
  | enum (width : EnumWidth) (members : List EnumMember)
  | nullable (inner : ColumnType)
  | lowCardinality (inner : ColumnType)
  | array (inner : ColumnType)
  | tuple (elements : List ColumnType)
  | map (key value : ColumnType)
  | simpleAggregate (function : Text) (inner : ColumnType)
  | aggregate (function : Text) (inner : ColumnType)
  /-- The state of a count, which is written without the counted type. -/
  | countState
  deriving Repr

def EnumMember.print (m : EnumMember) : Text := "'" ++ m.name ++ "' = " ++ m.number

namespace ColumnType

mutual

def print : ColumnType → Text
  | .simple s => s.print
  | .dateTimeIn zone => "DateTime('" ++ zone ++ "')"
  | .dateTime64 => "DateTime64"
  | .dateTime64Of precision none => "DateTime64(" ++ precision ++ ")"
  | .dateTime64Of precision (some zone) => "DateTime64(" ++ precision ++ ", '" ++ zone ++ "')"
  | .fixedString length => "FixedString(" ++ length ++ ")"
  | .decimal precision none => "Decimal(" ++ precision ++ ")"
  | .decimal precision (some scale) => "Decimal(" ++ precision ++ ", " ++ scale ++ ")"
  | .fixedDecimal width scale => "Decimal" ++ width.print ++ "(" ++ scale ++ ")"
  | .nested inside => "Nested(" ++ inside
  | .enum width members =>
    "Enum" ++ width.print ++ "(" ++ Text.join ", " (members.map EnumMember.print) ++ ")"
  | .nullable inner => "Nullable(" ++ inner.print ++ ")"
  | .lowCardinality inner => "LowCardinality(" ++ inner.print ++ ")"
  | .array inner => "Array(" ++ inner.print ++ ")"
  | .tuple elements => "Tuple(" ++ Text.join ", " (prints elements) ++ ")"
  | .map key value => "Map(" ++ key.print ++ ", " ++ value.print ++ ")"
  | .simpleAggregate function inner =>
    "SimpleAggregateFunction(" ++ function ++ ", " ++ inner.print ++ ")"
  | .aggregate function inner => "AggregateFunction(" ++ function ++ ", " ++ inner.print ++ ")"
  | .countState => "AggregateFunction(count)"

def prints : List ColumnType → List Text
  | [] => []
  | element :: elements => element.print :: prints elements

end

mutual

/-- The expression that declares a column of the type. -/
def builder : ColumnType → Text
  | .simple s => s.builder
  | .dateTimeIn zone => "t.date_time(" ++ Text.quoted zone ++ ")"
  | .dateTime64 => "t.date_time64(3)"
  | .dateTime64Of precision none => "t.date_time64(" ++ precision ++ ")"
  | .dateTime64Of precision (some zone) =>
    "t.date_time64(" ++ precision ++ ", " ++ Text.quoted zone ++ ")"
  | .fixedString length => "t.fixed_string(" ++ length ++ ")"
  | .decimal precision scale => "t.decimal(" ++ precision ++ ", " ++ scale.getD "0" ++ ")"
  | .fixedDecimal width scale => "t.decimal(" ++ width.precision ++ ", " ++ scale ++ ")"
  | .nested _ => "t.json()"
  | .enum width members =>
    "t.enum" ++ width.print ++ "("
      ++ Text.join ", " (members.map fun m => Text.quoted m.name) ++ ")"
  | .nullable inner => inner.builder ++ ".nullable()"
  | .lowCardinality inner => inner.builder ++ ".low_cardinality()"
  | .array inner => "t.array(" ++ inner.builder ++ ")"
  | .tuple elements => "t.tuple(" ++ Text.join ", " (builders elements) ++ ")"
  | .map key value => "t.map(" ++ key.builder ++ ", " ++ value.builder ++ ")"
  | .simpleAggregate function inner =>
    "t.simple_aggregate_function(" ++ Text.quoted function ++ ", " ++ inner.builder ++ ")"
  | .aggregate function inner =>
    "t.aggregate_function(" ++ Text.quoted function ++ ", " ++ inner.builder ++ ")"
  | .countState => "t.aggregate_function(\"count\", t.uint64())"

def builders : List ColumnType → List Text
  | [] => []
  | element :: elements => element.builder :: builders elements

end

end ColumnType

end DatafileMigration
