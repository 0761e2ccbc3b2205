import DatafileMigration.Column.Type
import DatafileMigration.Text.Digit
import DatafileMigration.Text.Letter

namespace DatafileMigration.ColumnType

/-- One layer of a type. -/
inductive Shape where
  | leaf (type : ColumnType)
  | nullable (inner : Text)
  | lowCardinality (inner : Text)
  | array (inner : Text)
  | tuple (inside : Text)
  | map (inside : Text)
  | enum (width : EnumWidth) (inside : Text)
  | simpleAggregate (function inner : Text)
  | aggregate (function inner : Text)
  | unknown

/-- The text that is still to be read. -/
def Shape.inside? : Shape → Option Text
  | .leaf _ | .unknown => none
  | .nullable inner | .lowCardinality inner | .array inner => some inner
  | .tuple inside | .map inside | .enum _ inside => some inside
  | .simpleAggregate _ inner | .aggregate _ inner => some inner

/-- The inside of `name(…)`, if it is not empty and stands on one line. -/
def enclosed? (name t : Text) : Option Text := do
  let inside ← Text.between? (name ++ "(") ")" t
  if inside = [] || inside.contains '\n' then none else return inside

theorem eq_of_enclosed? {name t inside : Text} (h : enclosed? name t = some inside) :
    t = name ++ "(" ++ inside ++ ")" := by
  simp only [enclosed?, Option.bind_eq_bind, Option.bind_eq_some_iff,
    Text.between?_eq_some_iff] at h
  obtain ⟨_, rfl, h⟩ := h
  split at h
  · cases h
  · cases h; rfl

theorem length_lt_of_enclosed? {name t inside : Text} (h : enclosed? name t = some inside) :
    inside.length < t.length := by
  rw [eq_of_enclosed? h]
  simp
  omega

def digits? (t : Text) : Option Text :=
  if t ≠ [] && t.all Text.isDigit then some t else none

/-- The inside of single quotes, if it is not empty and holds none. -/
def singleQuoted? (t : Text) : Option Text := do
  let inside ← Text.between? "'" "'" t
  if inside = [] || inside.contains '\'' then none else return inside

/-- A type `name(…)` whose inside is a number. -/
def numberArgument? (name t : Text) : Option Text :=
  (Text.between? (name ++ "(") ")" t).bind digits?

def dateTimeIn? (t : Text) : Option ColumnType :=
  ((Text.between? "DateTime(" ")" t).bind singleQuoted?).map .dateTimeIn

/-- `DateTime64`, alone or with a precision and perhaps a zone. -/
def dateTime64? (t : Text) : Option ColumnType :=
  if t = "DateTime64" then some .dateTime64
  else do
    let inside ← Text.between? "DateTime64(" ")" t
    let precision ← digits? (inside.takeWhile Text.isDigit)
    match inside.dropWhile Text.isDigit with
    | [] => return .dateTime64Of precision none
    | ',' :: rest =>
      let zone ← singleQuoted? (Text.stripStart rest)
      return .dateTime64Of precision (some zone)
    | _ => none

def decimal? (t : Text) : Option ColumnType := do
  let inside ← Text.between? "Decimal(" ")" t
  let precision ← digits? (inside.takeWhile Text.isDigit)
  match inside.dropWhile Text.isDigit with
  | [] => return .decimal precision none
  | ',' :: rest =>
    let scale ← digits? (Text.stripStart rest)
    return .decimal precision (some scale)
  | _ => none

/-- A decimal of fixed precision with its scale. -/
def fixedDecimal? (t : Text) : Option ColumnType :=
  DecimalWidth.all.findSome? fun width =>
    (numberArgument? ("Decimal" ++ width.print) t).map (.fixedDecimal width)

/-- The function and the inner type of `name(function, type)`. Blanks before the type go, but
for the last of nothing but blanks. -/
def aggregation? (name t : Text) : Option (Text × Text) := do
  let inside ← Text.between? (name ++ "(") ")" t
  let function := inside.takeWhile Text.isWordChar
  if function = [] then none
  else match inside.dropWhile Text.isWordChar with
    | ',' :: rest =>
      let inner := match Text.stripStart rest with
        | [] => rest.drop (rest.length - 1)
        | inner => inner
      if inner = [] || inner.contains '\n' then none else return (function, inner)
    | _ => none

theorem length_lt_of_aggregation? {name t function inner : Text}
    (h : aggregation? name t = some (function, inner)) : inner.length < t.length := by
  simp only [aggregation?, Option.bind_eq_bind, Option.bind_eq_some_iff,
    Text.between?_eq_some_iff] at h
  obtain ⟨inside, rfl, h⟩ := h
  have hdrop := (List.dropWhile_sublist (l := inside) Text.isWordChar).length_le
  split at h
  · cases h
  · split at h
    · rename_i rest hrest
      rw [hrest] at hdrop
      have hstrip := (List.dropWhile_sublist (l := rest) Text.isBlank).length_le
      simp only [List.length_cons] at hdrop
      split at h
      · rename_i hblank
        split at h
        · cases h
        · cases h
          simp only [List.length_drop, List.length_append]
          omega
      · rename_i hblank
        split at h
        · cases h
        · cases h
          simp only [Text.stripStart, List.length_append] at hstrip ⊢
          omega
    · cases h

/-- A type whose text has no type inside. -/
def leaf? (t : Text) : Option ColumnType :=
  (SimpleType.ofText? t).map .simple
    <|> dateTimeIn? t
    <|> dateTime64? t
    <|> (numberArgument? "FixedString" t).map .fixedString
    <|> decimal? t
    <|> fixedDecimal? t
    <|> (if t = "AggregateFunction(count)" then some .countState else none)

/-- The outermost layer of a stripped text: the name of the type and what stands between its
parentheses, where the inner types are still text. -/
def shape (t : Text) : Shape :=
  match enclosed? "Nullable" t with
  | some inner => .nullable inner
  | none =>
  match enclosed? "LowCardinality" t with
  | some inner => .lowCardinality inner
  | none =>
  match leaf? t with
  | some type => .leaf type
  | none =>
  match enclosed? "Array" t with
  | some inner => .array inner
  | none =>
  match enclosed? "Tuple" t with
  | some inside => .tuple inside
  | none =>
  match enclosed? "Map" t with
  | some inside => .map inside
  | none =>
  match enclosed? "Enum8" t with
  | some inside => .enum .eight inside
  | none =>
  match enclosed? "Enum16" t with
  | some inside => .enum .sixteen inside
  | none =>
  match aggregation? "SimpleAggregateFunction" t with
  | some (function, inner) => .simpleAggregate function inner
  | none =>
  match aggregation? "AggregateFunction" t with
  | some (function, inner) => .aggregate function inner
  | none =>
  match Text.dropPrefix? "Nested(" t with
  | some inside => .leaf (.nested inside)
  | none => .unknown

theorem length_lt_of_shape {t inside : Text} (h : (shape t).inside? = some inside) :
    inside.length < t.length := by
  unfold shape at h
  repeat' split at h
  all_goals first
    | (cases h; rename_i he; exact length_lt_of_enclosed? he)
    | (cases h; rename_i he; exact length_lt_of_aggregation? he)
    | cases h

/-- A minus sign, if a text begins with one, and the rest. -/
def cutSign : Text → Text × Text
  | '-' :: t => ("-", t)
  | t => ([], t)

/-- An integer with which a text begins, and the rest. -/
def integerAt? (t : Text) : Option (Text × Text) :=
  (digits? ((cutSign t).2.takeWhile Text.isDigit)).map fun number =>
    ((cutSign t).1 ++ number, (cutSign t).2.dropWhile Text.isDigit)

/-- The member with which a text begins, and the rest: a quoted name, an equals sign and an
integer. -/
def memberAt? (t : Text) : Option (EnumMember × Text) := do
  let body ← Text.dropPrefix? "'" t
  let (name, rest) ← Text.cutAt? '\'' body
  let rest ← Text.dropPrefix? "=" (Text.stripStart rest)
  let (number, rest) ← integerAt? (Text.stripStart rest)
  if name = [] then none else return ({ name, number }, rest)

theorem length_cutSign_le (t : Text) : (cutSign t).2.length ≤ t.length := by
  unfold cutSign
  split
  · simp
  · exact Nat.le_refl _

theorem length_le_of_integerAt? {t number rest : Text} (h : integerAt? t = some (number, rest)) :
    rest.length ≤ t.length := by
  obtain ⟨_, _, h⟩ := Option.map_eq_some_iff.1 h
  cases h
  exact Nat.le_trans (List.dropWhile_sublist _).length_le (length_cutSign_le t)

theorem length_lt_of_memberAt? {t rest : Text} {m : EnumMember}
    (h : memberAt? t = some (m, rest)) : rest.length < t.length := by
  simp only [memberAt?, Option.bind_eq_bind, Option.bind_eq_some_iff,
    Text.dropPrefix?_eq_some_iff] at h
  obtain ⟨body, rfl, ⟨name, afterName⟩, hname, afterSign, hsign, ⟨number, after⟩, hnumber, h⟩ := h
  split at h
  · cases h
  · cases h
    have h1 := congrArg List.length (Text.cutAt?_eq_some hname).1
    have h2 := (List.dropWhile_sublist (l := afterName) Text.isBlank).length_le
    have h3 := congrArg List.length hsign
    have h4 := (List.dropWhile_sublist (l := afterSign) Text.isBlank).length_le
    have h5 := length_le_of_integerAt? hnumber
    simp only [Text.stripStart, List.length_append, List.length_cons] at *
    omega

/-- The members that a text holds, each at the first place where one begins. -/
def members (t : Text) : List EnumMember :=
  match _h : memberAt? t with
  | some (m, rest) => m :: members rest
  | none =>
    match t with
    | [] => []
    | _ :: rest => members rest
termination_by t.length
decreasing_by
  · exact length_lt_of_memberAt? _h
  · simp

end DatafileMigration.ColumnType
