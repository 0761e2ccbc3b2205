import DatafileMigration.Column.Shape

namespace DatafileMigration

/-- A text that is no known type, as it stands in the type around it. -/
structure UnsupportedType where
  name : Text
  deriving DecidableEq, Repr

namespace ColumnType

/-- The type that a text writes, read layer by layer. -/
def read (t : Text) : Except UnsupportedType ColumnType :=
  match _h : shape (Text.strip t) with
  | .leaf type => .ok type
  | .unknown => .error ⟨t⟩
  | .nullable inner => (read inner).map .nullable
  | .lowCardinality inner => (read inner).map .lowCardinality
  | .array inner => (read inner).map .array
  | .simpleAggregate function inner => (read inner).map (.simpleAggregate function)
  | .aggregate function inner => (read inner).map (.aggregate function)
  | .enum width inside =>
    match members inside with
    | [] => .error ⟨t⟩
    | ms => .ok (.enum width ms)
  | .tuple inside =>
    match Text.splitTopLevel inside with
    | [] => .error ⟨t⟩
    | _ => ((Text.splitTopLevel inside).attach.mapM fun part => read part.val).map .tuple
  | .map inside =>
    match _hs : Text.splitTopLevel inside with
    | [key, value] => do
      let key ← read key
      let value ← read value
      return .map key value
    | _ => .error ⟨t⟩
termination_by t.length
decreasing_by
  all_goals
    have hlen := Text.length_strip_le t
    have hin := length_lt_of_shape (t := Text.strip t) (by rw [_h]; rfl)
  · omega
  · omega
  · omega
  · omega
  · omega
  · have := Text.length_le_of_mem_splitTopLevel part.property
    omega
  · have : key.length ≤ inside.length := Text.length_le_of_mem_splitTopLevel (by simp [_hs])
    omega
  · have : value.length ≤ inside.length := Text.length_le_of_mem_splitTopLevel (by simp [_hs])
    omega

end ColumnType

/-- The expression that declares a column of the type that a text writes. -/
def columnBuilder (t : Text) : Except UnsupportedType Text :=
  (ColumnType.read t).map ColumnType.builder

/-- The stripped text of a type without the wrappers around it. -/
def baseTypeName (t : Text) : Text :=
  let current := Text.strip t
  match _h : ColumnType.enclosed? "Nullable" current with
  | some inner => baseTypeName inner
  | none =>
    match _h : ColumnType.enclosed? "LowCardinality" current with
    | some inner => baseTypeName inner
    | none => current
termination_by t.length
decreasing_by
  all_goals
    have hlen := Text.length_strip_le t
    have := ColumnType.length_lt_of_enclosed? _h
    simp only [current] at this
    omega

/-- Whether the column holds truth values, maybe wrapped. -/
def isBooleanType (t : Text) : Bool :=
  let base := baseTypeName t
  base = "Bool" || base = "Boolean"

end DatafileMigration
