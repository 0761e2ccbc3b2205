import DatafileMigration.Column.Shape
import DatafileMigration.Proofs.Text.Word

namespace DatafileMigration.ColumnType

/-- A name with arguments in parentheses. -/
def headed (name inside : Text) : Text := name ++ "(" ++ inside ++ ")"

/-- Two names that differ, neither with a parenthesis. -/
def Differ (name other : Text) : Prop := name ≠ other ∧ '(' ∉ name ∧ '(' ∉ other

instance (name other : Text) : Decidable (Differ name other) :=
  inferInstanceAs (Decidable (_ ∧ _ ∧ _))

variable {name other inside function inner : Text}

theorem takeWhile_headed (plain : '(' ∉ name) (inside : Text) :
    (headed name inside).takeWhile (· ≠ '(') = name := by
  have solid : ∀ c ∈ name, decide (c ≠ '(') = true := fun c member =>
    decide_eq_true fun equal => plain (equal ▸ member)
  have spelled : headed name inside = name ++ '(' :: (inside ++ ")") := by simp [headed]
  rw [spelled, Text.takeWhile_of_stop solid rfl]

/-- No name goes on with a parenthesis, so that a type passes the tests for its own name only. -/
theorem headed_ne (differ : Differ name other) (inside inner : Text) :
    headed name inside ≠ headed other inner := by
  intro equal
  have names := congrArg (List.takeWhile (· ≠ '(')) equal
  rw [takeWhile_headed differ.2.1, takeWhile_headed differ.2.2] at names
  exact differ.1 names

theorem headed_ne_of_no_parenthesis {t : Text} (plain : '(' ∉ t) (name inside : Text) :
    headed name inside ≠ t := by
  rintro rfl
  simp [headed] at plain

theorem between?_headed_self (name inside : Text) :
    Text.between? (name ++ "(") ")" (headed name inside) = some inside := by
  rw [Text.between?_eq_some_iff, headed]

theorem between?_headed (differ : Differ name other) (inside : Text) :
    Text.between? (name ++ "(") ")" (headed other inside) = none := by
  refine Option.eq_none_iff_forall_not_mem.mpr fun inner found => ?_
  exact headed_ne differ inner inside (Text.between?_eq_some_iff.mp found).symm

theorem enclosed?_headed_self (name : Text) (nonempty : inside ≠ []) (inline : '\n' ∉ inside) :
    enclosed? name (headed name inside) = some inside := by
  rw [enclosed?, between?_headed_self]
  simp [nonempty, inline]

theorem enclosed?_headed (differ : Differ name other) (inside : Text) :
    enclosed? name (headed other inside) = none := by
  rw [enclosed?, between?_headed differ]
  rfl

theorem enclosed?_of_no_parenthesis {t : Text} (plain : '(' ∉ t) (name : Text) :
    enclosed? name t = none := by
  refine Option.eq_none_iff_forall_not_mem.mpr fun inner found => ?_
  exact headed_ne_of_no_parenthesis plain name inner (eq_of_enclosed? found).symm

theorem aggregation?_headed_self (name : Text) (some : function ≠ [])
    (word : ∀ c ∈ function, Text.isWordChar c) (nonempty : inner ≠ [])
    (stripped : Text.strip inner = inner) (inline : '\n' ∉ inner) :
    aggregation? name (headed name (function ++ ", " ++ inner)) = .some (function, inner) := by
  have spelled : function ++ ", " ++ inner = function ++ ',' :: ' ' :: inner := by simp
  have front : Text.stripStart (' ' :: inner) = inner := by
    have blank := List.dropWhile_cons_of_pos (l := inner) (p := Text.isBlank) (a := ' ') (by decide)
    exact blank.trans (Text.strip_eq_self_iff.mp stripped).1
  rw [aggregation?, between?_headed_self]
  simp only [Option.bind_eq_bind, Option.bind_some, spelled]
  rw [Text.takeWhile_of_stop word (by decide), Text.dropWhile_of_stop word (by decide), if_neg some]
  obtain ⟨c, t, rfl⟩ := List.exists_cons_of_ne_nil nonempty
  simp only [front]
  rw [if_neg (by simpa using inline)]
  rfl

theorem aggregation?_headed (differ : Differ name other) (inside : Text) :
    aggregation? name (headed other inside) = none := by
  rw [aggregation?, between?_headed differ]
  rfl

variable {number zone precision scale : Text}

theorem digits?_of_isDigits (digits : number.IsDigits) : digits? number = some number :=
  if_pos (Bool.and_eq_true_iff.mpr ⟨decide_eq_true digits.1, List.all_eq_true.mpr digits.2⟩)

/-- Digits end at the end of the arguments, or at a comma. -/
theorem takeWhile_isDigit (digits : number.IsDigits) :
    number.takeWhile Text.isDigit = number ∧ number.dropWhile Text.isDigit = [] :=
  ⟨List.takeWhile_eq_self_iff.mpr digits.2, List.dropWhile_eq_nil_iff.mpr digits.2⟩

theorem takeWhile_isDigit_append (digits : number.IsDigits) (rest : Text) :
    (number ++ ", " ++ rest).takeWhile Text.isDigit = number ∧
      (number ++ ", " ++ rest).dropWhile Text.isDigit = ',' :: ' ' :: rest := by
  have spelled : number ++ ", " ++ rest = number ++ ',' :: ' ' :: rest := by simp
  rw [spelled]
  exact ⟨Text.takeWhile_of_stop digits.2 (by decide), Text.dropWhile_of_stop digits.2 (by decide)⟩

/-- A text that single quotes may hold in a type. -/
structure IsLabel (t : Text) : Prop where
  nonempty : t ≠ []
  solid : ∀ c ∈ t, c ≠ '\'' ∧ c ≠ '\\' ∧ c ≠ '\n'

theorem singleQuoted?_of_isLabel (label : IsLabel zone) :
    singleQuoted? ("'" ++ zone ++ "'") = some zone := by
  have plain : '\'' ∉ zone := fun member => (label.solid _ member).1 rfl
  rw [singleQuoted?, Text.between?_eq_some_iff.mpr rfl]
  simp [label.nonempty, plain]

theorem ofText?_headed (name inside : Text) : SimpleType.ofText? (headed name inside) = none := by
  rw [SimpleType.ofText?, List.find?_eq_none]
  intro s _
  have plain : '(' ∉ s.print := by cases s <;> decide
  simpa using (headed_ne_of_no_parenthesis plain name inside).symm

theorem numberArgument?_headed_self (name : Text) (digits : number.IsDigits) :
    numberArgument? name (headed name number) = some number := by
  rw [numberArgument?, between?_headed_self]
  exact digits?_of_isDigits digits

theorem numberArgument?_headed (differ : Differ name other) (inside : Text) :
    numberArgument? name (headed other inside) = none := by
  rw [numberArgument?, between?_headed differ]
  rfl

theorem dateTimeIn?_headed_self (label : IsLabel zone) :
    dateTimeIn? (headed "DateTime" ("'" ++ zone ++ "'")) = some (.dateTimeIn zone) := by
  have opening : "DateTime(".toList = "DateTime".toList ++ "(".toList := rfl
  rw [dateTimeIn?, opening, between?_headed_self, Option.bind_some,
    singleQuoted?_of_isLabel label, Option.map_some]

theorem dateTimeIn?_headed (differ : Differ "DateTime" other) (inside : Text) :
    dateTimeIn? (headed other inside) = none := by
  have opening : "DateTime(".toList = "DateTime".toList ++ "(".toList := rfl
  rw [dateTimeIn?, opening, between?_headed differ]
  rfl

theorem dateTime64?_headed_self (digits : precision.IsDigits) :
    dateTime64? (headed "DateTime64" precision) = some (.dateTime64Of precision none) := by
  have opening : "DateTime64(".toList = "DateTime64".toList ++ "(".toList := rfl
  obtain ⟨front, behind⟩ := takeWhile_isDigit digits
  rw [dateTime64?, if_neg (headed_ne_of_no_parenthesis (by decide) _ _), opening,
    between?_headed_self]
  simp only [Option.bind_eq_bind, Option.bind_some, front, behind, digits?_of_isDigits digits]
  rfl

theorem dateTime64?_headed_zone (digits : precision.IsDigits) (label : IsLabel zone) :
    dateTime64? (headed "DateTime64" (precision ++ ", " ++ ("'" ++ zone ++ "'"))) =
      some (.dateTime64Of precision (some zone)) := by
  have opening : "DateTime64(".toList = "DateTime64".toList ++ "(".toList := rfl
  have quoted : Text.stripStart (' ' :: ("'" ++ zone ++ "'")) = "'" ++ zone ++ "'" := rfl
  obtain ⟨front, behind⟩ := takeWhile_isDigit_append digits ("'" ++ zone ++ "'")
  rw [dateTime64?, if_neg (headed_ne_of_no_parenthesis (by decide) _ _), opening,
    between?_headed_self]
  simp only [Option.bind_eq_bind, Option.bind_some, front, behind, digits?_of_isDigits digits,
    quoted, singleQuoted?_of_isLabel label]
  rfl

theorem dateTime64?_headed (differ : Differ "DateTime64" other) (inside : Text) :
    dateTime64? (headed other inside) = none := by
  have opening : "DateTime64(".toList = "DateTime64".toList ++ "(".toList := rfl
  rw [dateTime64?, if_neg (headed_ne_of_no_parenthesis (by decide) _ _), opening,
    between?_headed differ]
  rfl

theorem decimal?_headed_self (digits : precision.IsDigits) :
    decimal? (headed "Decimal" precision) = some (.decimal precision none) := by
  have opening : "Decimal(".toList = "Decimal".toList ++ "(".toList := rfl
  obtain ⟨front, behind⟩ := takeWhile_isDigit digits
  rw [decimal?, opening, between?_headed_self]
  simp only [Option.bind_eq_bind, Option.bind_some, front, behind, digits?_of_isDigits digits]
  rfl

theorem decimal?_headed_scale (digits : precision.IsDigits) (scaled : scale.IsDigits) :
    decimal? (headed "Decimal" (precision ++ ", " ++ scale)) =
      some (.decimal precision (some scale)) := by
  have opening : "Decimal(".toList = "Decimal".toList ++ "(".toList := rfl
  have front : Text.stripStart (' ' :: scale) = scale := by
    obtain ⟨c, t, rfl⟩ := List.exists_cons_of_ne_nil scaled.1
    have solid := Text.isBlank_of_isDigit (scaled.2 c List.mem_cons_self)
    rw [Text.stripStart, List.dropWhile_cons_of_pos (by decide),
      List.dropWhile_cons_of_neg (by rw [solid]; decide)]
  obtain ⟨before, behind⟩ := takeWhile_isDigit_append digits scale
  rw [decimal?, opening, between?_headed_self]
  simp only [Option.bind_eq_bind, Option.bind_some, before, behind, digits?_of_isDigits digits,
    front, digits?_of_isDigits scaled]
  rfl

theorem decimal?_headed (differ : Differ "Decimal" other) (inside : Text) :
    decimal? (headed other inside) = none := by
  have opening : "Decimal(".toList = "Decimal".toList ++ "(".toList := rfl
  rw [decimal?, opening, between?_headed differ]
  rfl

theorem fixedDecimal?_headed_self (width : DecimalWidth) (scaled : scale.IsDigits) :
    fixedDecimal? (headed ("Decimal" ++ width.print) scale) = some (.fixedDecimal width scale) := by
  rw [fixedDecimal?, DecimalWidth.all]
  cases width <;>
    simp (disch := decide +kernel) only [List.findSome?_cons, numberArgument?_headed,
      numberArgument?_headed_self _ scaled, Option.map_none, Option.map_some]

theorem fixedDecimal?_headed
    (differ : ∀ width, Differ ("Decimal" ++ DecimalWidth.print width) other) (inside : Text) :
    fixedDecimal? (headed other inside) = none := by
  rw [fixedDecimal?, List.findSome?_eq_none_iff]
  intro width _
  rw [numberArgument?_headed (differ width)]
  rfl

/-- The names of the types with arguments but without a type inside. -/
def leafNames : List Text :=
  ["DateTime", "DateTime64", "FixedString", "Decimal", "Decimal32", "Decimal64", "Decimal128",
   "Decimal256"]

theorem leaf?_headed (differ : ∀ name ∈ leafNames, Differ name other)
    (noCount : headed other inside ≠ "AggregateFunction(count)") :
    leaf? (headed other inside) = none := by
  have fixed (width : DecimalWidth) : Differ ("Decimal" ++ width.print) other := by
    refine differ _ ?_
    cases width <;> decide
  rw [leaf?, ofText?_headed, dateTimeIn?_headed (differ _ (by decide)),
    dateTime64?_headed (differ _ (by decide)), numberArgument?_headed (differ _ (by decide)),
    decimal?_headed (differ _ (by decide)), fixedDecimal?_headed fixed, if_neg noCount]
  rfl

theorem leaf?_headed_of_differ (differ : ∀ name ∈ "AggregateFunction".toList :: leafNames,
    Differ name other) (inside : Text) : leaf? (headed other inside) = none :=
  leaf?_headed (fun name listed => differ name (List.mem_cons_of_mem _ listed))
    (headed_ne (differ _ List.mem_cons_self) "count" inside).symm

section Leaf

variable {type : ColumnType}

theorem shape_of_no_parenthesis {t : Text} (plain : '(' ∉ t) (leaf : leaf? t = some type) :
    shape t = .leaf type := by
  rw [shape, enclosed?_of_no_parenthesis plain, enclosed?_of_no_parenthesis plain, leaf]

theorem shape_of_leaf? (nullable : Differ "Nullable" name) (low : Differ "LowCardinality" name)
    (leaf : leaf? (headed name inside) = some type) : shape (headed name inside) = .leaf type := by
  rw [shape, enclosed?_headed nullable, enclosed?_headed low, leaf]

theorem shape_simple (s : SimpleType) : shape s.print = .leaf (.simple s) := by
  refine shape_of_no_parenthesis (by cases s <;> decide) ?_
  rw [leaf?, SimpleType.ofText?_print]
  rfl

theorem shape_dateTime64 : shape "DateTime64" = .leaf .dateTime64 :=
  shape_of_no_parenthesis (by decide) rfl

theorem shape_dateTimeIn (label : IsLabel zone) :
    shape (headed "DateTime" ("'" ++ zone ++ "'")) = .leaf (.dateTimeIn zone) := by
  refine shape_of_leaf? (by decide) (by decide) ?_
  rw [leaf?, ofText?_headed, dateTimeIn?_headed_self label]
  rfl

/-- A precision and perhaps a zone. -/
theorem shape_dateTime64Of
    (read : dateTime64? (headed "DateTime64" inside) = some type) :
    shape (headed "DateTime64" inside) = .leaf type := by
  refine shape_of_leaf? (by decide) (by decide) ?_
  rw [leaf?, ofText?_headed, dateTimeIn?_headed (by decide), read]
  rfl

theorem shape_fixedString (digits : number.IsDigits) :
    shape (headed "FixedString" number) = .leaf (.fixedString number) := by
  refine shape_of_leaf? (by decide) (by decide) ?_
  rw [leaf?, ofText?_headed, dateTimeIn?_headed (by decide), dateTime64?_headed (by decide),
    numberArgument?_headed_self _ digits]
  rfl

/-- A precision and perhaps a scale. -/
theorem shape_decimal (read : decimal? (headed "Decimal" inside) = some type) :
    shape (headed "Decimal" inside) = .leaf type := by
  refine shape_of_leaf? (by decide) (by decide) ?_
  rw [leaf?, ofText?_headed, dateTimeIn?_headed (by decide), dateTime64?_headed (by decide),
    numberArgument?_headed (by decide), read]
  rfl

theorem shape_fixedDecimal (width : DecimalWidth) (scaled : scale.IsDigits) :
    shape (headed ("Decimal" ++ width.print) scale) = .leaf (.fixedDecimal width scale) := by
  have differ : ∀ n ∈ (["Nullable", "LowCardinality", "DateTime", "DateTime64", "FixedString",
      "Decimal"] : List Text), Differ n ("Decimal" ++ width.print) := by
    cases width <;> decide
  refine shape_of_leaf? (differ _ (by decide)) (differ _ (by decide)) ?_
  rw [leaf?, ofText?_headed, dateTimeIn?_headed (differ _ (by decide)),
    dateTime64?_headed (differ _ (by decide)), numberArgument?_headed (differ _ (by decide)),
    decimal?_headed (differ _ (by decide)), fixedDecimal?_headed_self width scaled]
  rfl

theorem shape_countState : shape "AggregateFunction(count)" = .leaf .countState := rfl

theorem shape_nested (inside : Text) :
    shape (headed "Nested" inside) = .leaf (.nested (inside ++ ")")) := by
  have opened : headed "Nested" inside = "Nested(" ++ (inside ++ ")") := by simp [headed]
  simp (disch := decide +kernel) only [shape, enclosed?_headed, leaf?_headed_of_differ,
    aggregation?_headed]
  rw [Text.dropPrefix?_eq_some_iff.mpr opened]

end Leaf

section Inside

variable (nonempty : inside ≠ []) (inline : '\n' ∉ inside)
include nonempty inline

theorem shape_nullable : shape (headed "Nullable" inside) = .nullable inside := by
  rw [shape, enclosed?_headed_self _ nonempty inline]

theorem shape_lowCardinality : shape (headed "LowCardinality" inside) = .lowCardinality inside := by
  rw [shape, enclosed?_headed (by decide), enclosed?_headed_self _ nonempty inline]

theorem shape_array : shape (headed "Array" inside) = .array inside := by
  simp (disch := decide +kernel) only [shape, enclosed?_headed, leaf?_headed_of_differ,
    enclosed?_headed_self _ nonempty inline]

theorem shape_tuple : shape (headed "Tuple" inside) = .tuple inside := by
  simp (disch := decide +kernel) only [shape, enclosed?_headed, leaf?_headed_of_differ,
    enclosed?_headed_self _ nonempty inline]

theorem shape_map : shape (headed "Map" inside) = .map inside := by
  simp (disch := decide +kernel) only [shape, enclosed?_headed, leaf?_headed_of_differ,
    enclosed?_headed_self _ nonempty inline]

theorem shape_enum (width : EnumWidth) :
    shape (headed ("Enum" ++ width.print) inside) = .enum width inside := by
  cases width with
  | eight =>
    change shape (headed "Enum8" inside) = .enum .eight inside
    simp (disch := decide +kernel) only [shape, enclosed?_headed, leaf?_headed_of_differ,
      enclosed?_headed_self _ nonempty inline]
  | sixteen =>
    change shape (headed "Enum16" inside) = .enum .sixteen inside
    simp (disch := decide +kernel) only [shape, enclosed?_headed, leaf?_headed_of_differ,
      enclosed?_headed_self _ nonempty inline]

end Inside

section Aggregation

variable (some : function ≠ []) (word : ∀ c ∈ function, Text.isWordChar c)
  (nonempty : inner ≠ []) (stripped : Text.strip inner = inner) (inline : '\n' ∉ inner)
include some word nonempty stripped inline

theorem shape_simpleAggregate :
    shape (headed "SimpleAggregateFunction" (function ++ ", " ++ inner)) =
      .simpleAggregate function inner := by
  simp (disch := decide +kernel) only [shape, enclosed?_headed, leaf?_headed_of_differ,
    aggregation?_headed_self _ some word nonempty stripped inline]

theorem shape_aggregate :
    shape (headed "AggregateFunction" (function ++ ", " ++ inner)) = .aggregate function inner := by
  -- With a comma in its arguments, it is not the state of a count.
  have noCount : headed "AggregateFunction" (function ++ ", " ++ inner) ≠
      "AggregateFunction(count)" := by
    intro equal
    have comma : ',' ∈ "AggregateFunction(count)".toList := by
      rw [← equal]
      simp [headed]
    exact absurd comma (by decide)
  simp (disch := decide +kernel) only [shape, enclosed?_headed, leaf?_headed (by decide) noCount,
    aggregation?_headed, aggregation?_headed_self _ some word nonempty stripped inline]

end Aggregation

section Found

variable {t : Text} {type : ColumnType}

theorem forall_mem_orElse {α : Type} {P : α → Prop} {x y : Option α} (first : ∀ a ∈ x, P a)
    (second : ∀ a ∈ y, P a) : ∀ a ∈ (x <|> y), P a := by
  cases x with
  | none => exact second
  | some a => exact first

/-- A type whose inside is no type, as it can be read from a text. -/
inductive IsLeaf : Text → ColumnType → Prop
  | simple (s : SimpleType) : IsLeaf s.print (.simple s)
  | dateTimeIn {t : Text} (zone : Text) : IsLeaf t (.dateTimeIn zone)
  | dateTime64 {t : Text} : IsLeaf t .dateTime64
  | dateTime64Of {t precision : Text} (zone : Option Text) : precision.IsDigits →
      IsLeaf t (.dateTime64Of precision zone)
  | fixedString {t length : Text} : length.IsDigits → IsLeaf t (.fixedString length)
  | decimal {t precision : Text} {scale : Option Text} : precision.IsDigits →
      (∀ s ∈ scale, s.IsDigits) → IsLeaf t (.decimal precision scale)
  | fixedDecimal {t scale : Text} (width : DecimalWidth) : scale.IsDigits →
      IsLeaf t (.fixedDecimal width scale)
  | countState {t : Text} : IsLeaf t .countState
  | nested {t : Text} (inside : Text) : IsLeaf t (.nested inside)

theorem isDigits_of_digits? {d : Text} (read : digits? t = some d) : d.IsDigits := by
  rw [digits?] at read
  split at read
  · rename_i digits
    cases read
    rw [Bool.and_eq_true, decide_eq_true_eq, List.all_eq_true] at digits
    exact digits
  · cases read

theorem isDigits_of_numberArgument? {name d : Text} (read : numberArgument? name t = some d) :
    d.IsDigits := by
  obtain ⟨_, _, read⟩ := Option.bind_eq_some_iff.mp read
  exact isDigits_of_digits? read

theorem isLeaf_of_dateTime64? (read : dateTime64? t = some type) : IsLeaf t type := by
  rw [dateTime64?] at read
  split at read
  · cases read
    exact .dateTime64
  obtain ⟨inside, _, read⟩ := Option.bind_eq_some_iff.mp read
  obtain ⟨precision, number, read⟩ := Option.bind_eq_some_iff.mp read
  have digits := isDigits_of_digits? number
  split at read
  · cases read
    exact .dateTime64Of none digits
  · obtain ⟨zone, _, read⟩ := Option.bind_eq_some_iff.mp read
    cases read
    exact .dateTime64Of (some zone) digits
  · cases read

theorem isLeaf_of_decimal? (read : decimal? t = some type) : IsLeaf t type := by
  obtain ⟨inside, _, read⟩ := Option.bind_eq_some_iff.mp read
  obtain ⟨precision, number, read⟩ := Option.bind_eq_some_iff.mp read
  have digits := isDigits_of_digits? number
  split at read
  · cases read
    exact .decimal digits nofun
  · obtain ⟨scale, second, read⟩ := Option.bind_eq_some_iff.mp read
    cases read
    refine .decimal digits fun s same => ?_
    cases same
    exact isDigits_of_digits? second
  · cases read

theorem isLeaf_of_fixedDecimal? (read : fixedDecimal? t = some type) : IsLeaf t type := by
  obtain ⟨width, _, read⟩ := List.exists_of_findSome?_eq_some read
  obtain ⟨scale, number, rfl⟩ := Option.map_eq_some_iff.mp read
  exact .fixedDecimal width (isDigits_of_numberArgument? number)

theorem isLeaf_of_leaf? : ∀ type ∈ leaf? t, IsLeaf t type := by
  unfold leaf?
  refine forall_mem_orElse ?_ (forall_mem_orElse ?_
    (forall_mem_orElse (fun _ => isLeaf_of_dateTime64?) (forall_mem_orElse ?_
      (forall_mem_orElse (fun _ => isLeaf_of_decimal?)
        (forall_mem_orElse (fun _ => isLeaf_of_fixedDecimal?) ?_)))))
  · intro type read
    obtain ⟨s, found, rfl⟩ := Option.map_eq_some_iff.mp read
    have spelled : s.print = t := by simpa using List.find?_some found
    exact spelled ▸ .simple s
  · intro type read
    obtain ⟨zone, _, rfl⟩ := Option.map_eq_some_iff.mp read
    exact .dateTimeIn zone
  · intro type read
    obtain ⟨length, number, rfl⟩ := Option.map_eq_some_iff.mp read
    exact .fixedString (isDigits_of_numberArgument? number)
  · intro type read
    split at read
    · cases read
      exact .countState
    · cases read

/-- The layers without a type to be read inside. -/
theorem isLeaf_of_shape (layer : shape t = .leaf type) : IsLeaf t type := by
  unfold shape at layer
  repeat' split at layer
  all_goals first
    | cases layer
      exact isLeaf_of_leaf? _ ‹_›
    | cases layer
      exact .nested _
    | cases layer

end Found

end DatafileMigration.ColumnType
