import DatafileMigration.Column.Read
import DatafileMigration.Proofs.Column.Member
import DatafileMigration.Proofs.Fault.Yields

namespace DatafileMigration

namespace ColumnType

open Text

/-- What is read from the outermost layer. -/
def readLayer (t : Text) : Shape → Except UnsupportedType ColumnType
  | .leaf type => .ok type
  | .unknown => .error ⟨t⟩
  | .nullable inner => (read inner).map .nullable
  | .lowCardinality inner => (read inner).map .lowCardinality
  | .array inner => (read inner).map .array
  | .simpleAggregate function inner => (read inner).map (.simpleAggregate function)
  | .aggregate function inner => (read inner).map (.aggregate function)
  | .enum width inside =>
    match members inside with
    | [] => .error ⟨t⟩
    | ms => .ok (.enum width ms)
  | .tuple inside =>
    match Text.splitTopLevel inside with
    | [] => .error ⟨t⟩
    | parts => (parts.mapM read).map .tuple
  | .map inside =>
    match Text.splitTopLevel inside with
    | [key, value] => do
      let key ← read key
      let value ← read value
      return .map key value
    | _ => .error ⟨t⟩

theorem read_eq (t : Text) : read t = readLayer t (shape (Text.strip t)) := by
  rw [read]
  split <;> rename_i layer <;> rw [layer]
  case h_8 inside => cases found : members inside <;> simp only [readLayer, found]
  case h_9 inside =>
    have whole : ((Text.splitTopLevel inside).attach.mapM fun part => read part.val) =
        (Text.splitTopLevel inside).mapM read := by
      simp
    rw [whole]
    cases found : Text.splitTopLevel inside <;> simp only [readLayer, found]
  case h_10 inside =>
    split
    · rename_i found
      simp only [readLayer, found]
    · simp only [readLayer]
  all_goals rfl

/-- A name with arguments is read by its layer, for there are no blanks to take off. -/
theorem read_headed {name inside : Text} (identifier : isIdentifier name) :
    read (headed name inside) = readLayer (headed name inside) (shape (headed name inside)) := by
  rw [read_eq, strip_headed identifier]

/-- A type that can be written: its numbers are digits, its labels fit into quotes, its functions
are words, and neither an enumeration nor a tuple is empty. -/
inductive IsWritten : ColumnType → Prop
  | simple (s) : IsWritten (.simple s)
  | dateTimeIn {zone} : IsLabel zone → IsWritten (.dateTimeIn zone)
  | dateTime64 : IsWritten .dateTime64
  | dateTime64Of {precision : Text} {zone} : precision.IsDigits → (∀ z ∈ zone, IsLabel z) →
      IsWritten (.dateTime64Of precision zone)
  | fixedString {length : Text} : length.IsDigits → IsWritten (.fixedString length)
  | decimal {precision : Text} {scale : Option Text} : precision.IsDigits →
      (∀ s ∈ scale, s.IsDigits) → IsWritten (.decimal precision scale)
  | fixedDecimal {width} {scale : Text} : scale.IsDigits → IsWritten (.fixedDecimal width scale)
  | enum {width members} : members ≠ [] → (∀ m ∈ members, m.IsWritten) →
      IsWritten (.enum width members)
  | nullable {inner} : IsWritten inner → IsWritten (.nullable inner)
  | lowCardinality {inner} : IsWritten inner → IsWritten (.lowCardinality inner)
  | array {inner} : IsWritten inner → IsWritten (.array inner)
  | tuple {elements} : elements ≠ [] → (∀ e ∈ elements, IsWritten e) → IsWritten (.tuple elements)
  | map {key value} : IsWritten key → IsWritten value → IsWritten (.map key value)
  | simpleAggregate {function inner} : function ≠ [] → (∀ c ∈ function, isWordChar c) →
      IsWritten inner → IsWritten (.simpleAggregate function inner)
  | aggregate {function inner} : function ≠ [] → (∀ c ∈ function, isWordChar c) →
      IsWritten inner → IsWritten (.aggregate function inner)
  | countState : IsWritten .countState

/-- A type that is read from its text, which is one argument among others. -/
structure IsRead (t : ColumnType) : Prop where
  argument : IsArgument t.print
  stripped : strip t.print = t.print
  read : read t.print = .ok t

variable {t inner key value : ColumnType} {name inside function : Text}

/-- Such a type is declared by the expression that follows its structure. -/
theorem IsRead.columnBuilder (isRead : t.IsRead) : columnBuilder t.print = .ok t.builder := by
  rw [DatafileMigration.columnBuilder, isRead.read]
  rfl

theorem isRead_of_isIdentifier (identifier : isIdentifier t.print)
    (layer : shape t.print = .leaf t) : t.IsRead := by
  have stripped := strip_of_isIdentifier identifier
  refine ⟨isArgument_of_isIdentifier identifier, stripped, ?_⟩
  rw [read_eq, stripped, layer]
  rfl

/-- A name with arguments is read as its layer is. -/
theorem isRead_of_headed (written : t.print = headed name inside) (identifier : isIdentifier name)
    (arguments : IsArguments inside)
    (layer : ∀ whole, readLayer whole (shape (headed name inside)) = .ok t) : t.IsRead := by
  have stripped := strip_headed identifier inside
  refine ⟨?_, ?_, ?_⟩
  · rw [written]
    exact isArgument_headed identifier arguments
  · rw [written, stripped]
  · rw [written, read_headed identifier, layer]

theorem isRead_of_leaf (written : t.print = headed name inside) (identifier : isIdentifier name)
    (arguments : IsArguments inside) (layer : shape (headed name inside) = .leaf t) : t.IsRead :=
  isRead_of_headed written identifier arguments fun whole => by
    rw [layer]
    rfl

theorem headed_pair (name first second : Text) :
    name ++ "(" ++ first ++ ", " ++ second ++ ")" = headed name (first ++ ", " ++ second) := by
  simp [headed]

theorem isRead_simple (s : SimpleType) : (ColumnType.simple s).IsRead :=
  isRead_of_isIdentifier (by cases s <;> decide) (shape_simple s)

theorem isRead_dateTimeIn {zone : Text} (label : IsLabel zone) : (dateTimeIn zone).IsRead := by
  have written : (dateTimeIn zone).print = headed "DateTime" ("'" ++ zone ++ "'") := by
    change "DateTime('" ++ zone ++ "')" = _
    simp [headed]
  exact isRead_of_leaf written (by decide) (isArgument_quoted label).isArguments
    (shape_dateTimeIn label)

theorem isRead_dateTime64Of {precision : Text} {zone : Option Text} (digits : precision.IsDigits)
    (label : ∀ z ∈ zone, IsLabel z) : (dateTime64Of precision zone).IsRead := by
  have number := (isArgument_of_isDigits digits).isArguments
  cases zone with
  | none =>
    have written : (dateTime64Of precision none).print = headed "DateTime64" precision := rfl
    exact isRead_of_leaf written (by decide) number
      (shape_dateTime64Of (dateTime64?_headed_self digits))
  | some zone =>
    have quoted := isArgument_quoted (label zone rfl)
    have written : (dateTime64Of precision (some zone)).print =
        headed "DateTime64" (precision ++ ", " ++ ("'" ++ zone ++ "'")) := by
      change "DateTime64(" ++ precision ++ ", '" ++ zone ++ "')" = _
      simp [headed]
    exact isRead_of_leaf written (by decide) (number.pair quoted.isArguments)
      (shape_dateTime64Of (dateTime64?_headed_zone digits (label zone rfl)))

theorem isRead_fixedString {length : Text} (digits : length.IsDigits) :
    (fixedString length).IsRead := by
  have written : (fixedString length).print = headed "FixedString" length := rfl
  exact isRead_of_leaf written (by decide) (isArgument_of_isDigits digits).isArguments
    (shape_fixedString digits)

theorem isRead_decimal {precision : Text} {scale : Option Text} (digits : precision.IsDigits)
    (scaled : ∀ s ∈ scale, s.IsDigits) : (decimal precision scale).IsRead := by
  have number := (isArgument_of_isDigits digits).isArguments
  cases scale with
  | none =>
    have written : (decimal precision none).print = headed "Decimal" precision := rfl
    exact isRead_of_leaf written (by decide) number (shape_decimal (decimal?_headed_self digits))
  | some scale =>
    have second := (isArgument_of_isDigits (scaled scale rfl)).isArguments
    have written : (decimal precision (some scale)).print =
        headed "Decimal" (precision ++ ", " ++ scale) := headed_pair "Decimal" precision scale
    exact isRead_of_leaf written (by decide) (number.pair second)
      (shape_decimal (decimal?_headed_scale digits (scaled scale rfl)))

theorem isRead_fixedDecimal {width : DecimalWidth} {scale : Text} (scaled : scale.IsDigits) :
    (fixedDecimal width scale).IsRead := by
  have written : (fixedDecimal width scale).print = headed ("Decimal" ++ width.print) scale := rfl
  exact isRead_of_leaf written (by cases width <;> decide)
    (isArgument_of_isDigits scaled).isArguments (shape_fixedDecimal width scaled)

theorem isRead_countState : countState.IsRead := by
  have count : IsArgument "count" := isArgument_of_isIdentifier (by decide)
  have written : countState.print = headed "AggregateFunction" "count" := rfl
  exact isRead_of_leaf written (by decide) count.isArguments shape_countState

theorem isRead_enum {width : EnumWidth} {ms : List EnumMember} (some : ms ≠ [])
    (each : ∀ m ∈ ms, m.IsWritten) : (ColumnType.enum width ms).IsRead := by
  have arguments : IsArguments (join ", " (ms.map EnumMember.print)) := by
    refine isArguments_join (by simpa using some) ?_
    rw [List.forall_mem_map]
    exact fun m member => (each m member).isArgument
  have written : (ColumnType.enum width ms).print =
      headed ("Enum" ++ width.print) (join ", " (ms.map EnumMember.print)) := rfl
  refine isRead_of_headed written (by cases width <;> decide) arguments fun whole => ?_
  rw [shape_enum arguments.nonempty arguments.inline, readLayer, members_join each]
  cases ms with
  | nil => exact absurd rfl some
  | cons m ms => rfl

/-- A name around one type. -/
theorem isRead_around {around : ColumnType → ColumnType} {layer : Text → Shape}
    (written : ∀ inner, (around inner).print = headed name inner.print)
    (identifier : isIdentifier name)
    (layered : ∀ {inside}, inside ≠ [] → '\n' ∉ inside → shape (headed name inside) = layer inside)
    (reads : ∀ whole inside, readLayer whole (layer inside) = (ColumnType.read inside).map around)
    (isRead : inner.IsRead) : (around inner).IsRead := by
  refine isRead_of_headed (written inner) identifier isRead.argument.isArguments fun whole => ?_
  rw [layered isRead.argument.nonempty isRead.argument.inline, reads, isRead.read]
  rfl

theorem isRead_nullable (isRead : inner.IsRead) : (nullable inner).IsRead :=
  isRead_around (fun _ => rfl) (by decide) shape_nullable
    (fun _ _ => by rw [readLayer]) isRead

theorem isRead_lowCardinality (isRead : inner.IsRead) : (lowCardinality inner).IsRead :=
  isRead_around (fun _ => rfl) (by decide) shape_lowCardinality
    (fun _ _ => by rw [readLayer]) isRead

theorem isRead_array (isRead : inner.IsRead) : (array inner).IsRead :=
  isRead_around (fun _ => rfl) (by decide) shape_array
    (fun _ _ => by rw [readLayer]) isRead

theorem prints_eq_map (elements : List ColumnType) : prints elements = elements.map print := by
  induction elements with
  | nil => rfl
  | cons element elements ih => exact congrArg (element.print :: ·) ih

theorem builders_eq_map (elements : List ColumnType) :
    builders elements = elements.map builder := by
  induction elements with
  | nil => rfl
  | cons element elements ih => exact congrArg (element.builder :: ·) ih

/-- Written types with commas between them are the arguments that are found. -/
theorem splitTopLevel_prints {ts : List ColumnType} (each : ∀ t ∈ ts, t.IsRead) :
    splitTopLevel (join ", " (ts.map print)) = ts.map print := by
  refine splitTopLevel_join ?_ ?_ ?_ <;> rw [List.forall_mem_map]
  · exact fun t member => (each t member).argument.part.isWhole
  · exact fun t member => (each t member).stripped
  · exact fun t member => (each t member).argument.nonempty

theorem isArguments_prints {ts : List ColumnType} (some : ts ≠ []) (each : ∀ t ∈ ts, t.IsRead) :
    IsArguments (join ", " (ts.map print)) := by
  refine isArguments_join (by simpa using some) ?_
  rw [List.forall_mem_map]
  exact fun t member => (each t member).argument

theorem isRead_tuple {elements : List ColumnType} (some : elements ≠ [])
    (each : ∀ e ∈ elements, e.IsRead) : (tuple elements).IsRead := by
  have arguments := isArguments_prints some each
  have written : (tuple elements).print = headed "Tuple" (join ", " (elements.map print)) :=
    congrArg (headed "Tuple" <| join ", " ·) (prints_eq_map elements)
  refine isRead_of_headed written (by decide) arguments fun whole => ?_
  have read : (elements.map print).mapM ColumnType.read = .ok elements := by
    rw [mapM_eq_ok, List.forall₂_map_left_iff, List.forall₂_same]
    exact fun e member => (each e member).read
  rw [shape_tuple arguments.nonempty arguments.inline, readLayer, splitTopLevel_prints each]
  cases elements with
  | nil => exact absurd rfl some
  | cons e elements =>
    rw [List.map_cons] at read ⊢
    simp only [read]
    rfl

theorem isRead_map (first : key.IsRead) (second : value.IsRead) : (map key value).IsRead := by
  have each : ∀ t ∈ [key, value], t.IsRead := by simp [first, second]
  have arguments := isArguments_prints (List.cons_ne_nil _ _) each
  have split := splitTopLevel_prints each
  have written : (map key value).print = headed "Map" (join ", " ([key, value].map print)) :=
    headed_pair "Map" key.print value.print
  refine isRead_of_headed written (by decide) arguments fun whole => ?_
  rw [shape_map arguments.nonempty arguments.inline, readLayer, split]
  simp only [List.map_cons, List.map_nil, first.read, second.read]
  rfl

theorem isRead_simpleAggregate (some : function ≠ []) (word : ∀ c ∈ function, isWordChar c)
    (isRead : inner.IsRead) : (simpleAggregate function inner).IsRead := by
  have first := (isArgument_of_word some word).isArguments
  have written : (simpleAggregate function inner).print =
      headed "SimpleAggregateFunction" (function ++ ", " ++ inner.print) :=
    headed_pair "SimpleAggregateFunction" function inner.print
  refine isRead_of_headed written (by decide) (first.pair isRead.argument.isArguments)
    fun whole => ?_
  rw [shape_simpleAggregate some word isRead.argument.nonempty isRead.stripped
    isRead.argument.inline, readLayer, isRead.read]
  rfl

theorem isRead_aggregate (some : function ≠ []) (word : ∀ c ∈ function, isWordChar c)
    (isRead : inner.IsRead) : (aggregate function inner).IsRead := by
  have first := (isArgument_of_word some word).isArguments
  have written : (aggregate function inner).print =
      headed "AggregateFunction" (function ++ ", " ++ inner.print) :=
    headed_pair "AggregateFunction" function inner.print
  refine isRead_of_headed written (by decide) (first.pair isRead.argument.isArguments)
    fun whole => ?_
  rw [shape_aggregate some word isRead.argument.nonempty isRead.stripped
    isRead.argument.inline, readLayer, isRead.read]
  rfl

/-- Every type that can be written is read from its text. Each way to form a type is written so that
the reader finds it again, given that it finds the types inside again. -/
theorem IsWritten.isRead (written : t.IsWritten) : t.IsRead := by
  induction written with
  | simple s => exact isRead_simple s
  | dateTimeIn label => exact isRead_dateTimeIn label
  | dateTime64 => exact isRead_of_isIdentifier (by decide) shape_dateTime64
  | dateTime64Of digits label => exact isRead_dateTime64Of digits label
  | fixedString digits => exact isRead_fixedString digits
  | decimal digits scaled => exact isRead_decimal digits scaled
  | fixedDecimal scaled => exact isRead_fixedDecimal scaled
  | enum some each => exact isRead_enum some each
  | nullable _ ih => exact isRead_nullable ih
  | lowCardinality _ ih => exact isRead_lowCardinality ih
  | array _ ih => exact isRead_array ih
  | tuple some _ ih => exact isRead_tuple some ih
  | map _ _ first second => exact isRead_map first second
  | simpleAggregate some word _ ih => exact isRead_simpleAggregate some word ih
  | aggregate some word _ ih => exact isRead_aggregate some word ih
  | countState => exact isRead_countState

end ColumnType

open ColumnType

/-- Every type that can be written is read from its text as it is, and declared by the expression
that follows its structure. -/
theorem columnBuilder_print {t : ColumnType} (written : t.IsWritten) :
    ColumnType.read t.print = .ok t ∧ columnBuilder t.print = .ok t.builder := by
  have isRead := written.isRead
  exact ⟨isRead.read, isRead.columnBuilder⟩

example : columnBuilder "LowCardinality(Nullable(String))" =
    .ok "t.string().nullable().low_cardinality()" := by decide +kernel

/-- An enumeration and a zone with commas and parentheses in their quotes, within other types. -/
def quotedType : ColumnType :=
  .array (.tuple [.nullable (.enum .eight [⟨"a, (b", "-1"⟩, ⟨"c)", "2"⟩]),
    .dateTime64Of "3" (some "Europe, (Madrid")])

theorem columnBuilder_print_quotedType : quotedType.IsWritten ∧
    ColumnType.read quotedType.print = .ok quotedType ∧
    columnBuilder quotedType.print = .ok quotedType.builder := by
  have digit (c : Char) (valid : Text.isDigit c) : Text.IsDigits [c] :=
    ⟨List.cons_ne_nil _ _, List.forall_mem_singleton.mpr valid⟩
  have first : EnumMember.IsWritten ⟨"a, (b", "-1"⟩ :=
    ⟨⟨by decide, by simp⟩, .negative (digit '1' (by decide))⟩
  have second : EnumMember.IsWritten ⟨"c)", "2"⟩ :=
    ⟨⟨by decide, by simp⟩, .positive (digit '2' (by decide))⟩
  have members : (ColumnType.enum .eight [⟨"a, (b", "-1"⟩, ⟨"c)", "2"⟩]).IsWritten :=
    .enum (List.cons_ne_nil _ _)
      (List.forall_mem_cons.mpr ⟨first, List.forall_mem_singleton.mpr second⟩)
  have zone : (dateTime64Of "3" (some "Europe, (Madrid")).IsWritten := by
    refine .dateTime64Of (digit '3' (by decide)) ?_
    rintro z found
    cases found
    exact ⟨by decide, by simp⟩
  have written : quotedType.IsWritten :=
    .array (.tuple (List.cons_ne_nil _ _)
      (List.forall_mem_cons.mpr ⟨.nullable members, List.forall_mem_singleton.mpr zone⟩))
  exact ⟨written, columnBuilder_print written⟩

section Leaves

open Text (quoted)

variable {number zone scale : Text}

/-- The method of a simple type has the name of the type in small letters, except where two types
share a method and where the name has two words. -/
theorem columnBuilder_simple (s : SimpleType) :
    columnBuilder s.print = .ok (
      if s.print = "Boolean" then "t.bool()"
      else if s.print = "Object" then "t.json()"
      else if s.print = "DateTime" then "t.date_time()"
      else "t." ++ s.print.map Char.toLower ++ "()") := by
  refine (isRead_simple s).columnBuilder.trans ?_
  cases s <;> decide +kernel

theorem columnBuilder_dateTimeIn (label : IsLabel zone) :
    columnBuilder ("DateTime('" ++ zone ++ "')") = .ok ("t.date_time(" ++ quoted zone ++ ")") :=
  (isRead_dateTimeIn label).columnBuilder

/-- The precision that is meant where none is written. -/
theorem columnBuilder_dateTime64 : columnBuilder "DateTime64" = .ok "t.date_time64(3)" :=
  IsWritten.dateTime64.isRead.columnBuilder

theorem columnBuilder_dateTime64Of (digits : number.IsDigits) :
    columnBuilder ("DateTime64(" ++ number ++ ")") = .ok ("t.date_time64(" ++ number ++ ")") :=
  IsRead.columnBuilder (t := .dateTime64Of number none) (isRead_dateTime64Of digits nofun)

theorem columnBuilder_dateTime64In (digits : number.IsDigits) (label : IsLabel zone) :
    columnBuilder ("DateTime64(" ++ number ++ ", '" ++ zone ++ "')") =
      .ok ("t.date_time64(" ++ number ++ ", " ++ quoted zone ++ ")") :=
  IsRead.columnBuilder (t := .dateTime64Of number (some zone))
    (isRead_dateTime64Of digits (by simpa using label))

theorem columnBuilder_fixedString (digits : number.IsDigits) :
    columnBuilder ("FixedString(" ++ number ++ ")") = .ok ("t.fixed_string(" ++ number ++ ")") :=
  (isRead_fixedString digits).columnBuilder

/-- The scale that is meant where none is written. -/
theorem columnBuilder_decimal (digits : number.IsDigits) :
    columnBuilder ("Decimal(" ++ number ++ ")") =
      .ok ("t.decimal(" ++ number ++ ", " ++ "0" ++ ")") :=
  IsRead.columnBuilder (t := .decimal number none) (isRead_decimal digits nofun)

theorem columnBuilder_decimalOf (digits : number.IsDigits) (scaled : scale.IsDigits) :
    columnBuilder ("Decimal(" ++ number ++ ", " ++ scale ++ ")") =
      .ok ("t.decimal(" ++ number ++ ", " ++ scale ++ ")") :=
  IsRead.columnBuilder (t := .decimal number (some scale))
    (isRead_decimal digits (by simpa using scaled))

/-- The digits that fit into a decimal of fixed precision are its first argument. -/
theorem columnBuilder_fixedDecimal (scaled : scale.IsDigits) :
    columnBuilder ("Decimal32(" ++ scale ++ ")") = .ok ("t.decimal(9, " ++ scale ++ ")") ∧
      columnBuilder ("Decimal64(" ++ scale ++ ")") = .ok ("t.decimal(18, " ++ scale ++ ")") ∧
      columnBuilder ("Decimal128(" ++ scale ++ ")") = .ok ("t.decimal(38, " ++ scale ++ ")") ∧
      columnBuilder ("Decimal256(" ++ scale ++ ")") = .ok ("t.decimal(76, " ++ scale ++ ")") := by
  have each (width : DecimalWidth) : (ColumnType.fixedDecimal width scale).IsRead :=
    isRead_fixedDecimal scaled
  exact ⟨(each .w32).columnBuilder, (each .w64).columnBuilder, (each .w128).columnBuilder,
    (each .w256).columnBuilder⟩

theorem columnBuilder_countState :
    columnBuilder "AggregateFunction(count)" =
      .ok "t.aggregate_function(\"count\", t.uint64())" :=
  isRead_countState.columnBuilder

/-- Nested columns are declared as one of documents, whatever they are. -/
theorem columnBuilder_nested (inside : Text) :
    columnBuilder (headed "Nested" inside) = .ok "t.json()" := by
  rw [columnBuilder, read_headed (by decide), shape_nested]
  rfl

end Leaves

section Layers

theorem mapM_columnBuilder (ts : List Text) :
    ts.mapM columnBuilder = (ts.mapM read).map (·.map ColumnType.builder) := by
  induction ts with
  | nil => rfl
  | cons t ts ih =>
    rw [List.mapM_cons, List.mapM_cons, ih, columnBuilder]
    cases read t with
    | error unsupported => rfl
    | ok type => cases ts.mapM read <;> rfl

open Text (quoted isWordChar splitTopLevel strip join)

variable {inside function key value : Text}

/-- The expression of a type around one other type. -/
theorem columnBuilder_around {t : Text} {around : ColumnType → ColumnType}
    {expression : Text → Text}
    (layer : read t = (read inside).map around)
    (written : ∀ inner, (around inner).builder = expression inner.builder) :
    columnBuilder t = (columnBuilder inside).map expression := by
  rw [columnBuilder, columnBuilder, layer]
  cases read inside with
  | error unsupported => rfl
  | ok inner => exact congrArg Except.ok (written inner)

variable (nonempty : inside ≠ []) (inline : '\n' ∉ inside)
include nonempty inline

theorem columnBuilder_array :
    columnBuilder (headed "Array" inside) =
      (columnBuilder inside).map fun e : Text => "t.array(" ++ e ++ ")" :=
  have layer : read (headed "Array" inside) = (read inside).map .array := by
    rw [read_headed (by decide), shape_array nonempty inline, readLayer]
  columnBuilder_around layer fun _ => rfl

theorem columnBuilder_tuple (parts : splitTopLevel inside ≠ []) :
    columnBuilder (headed "Tuple" inside) =
      ((splitTopLevel inside).mapM columnBuilder).map fun es =>
        "t.tuple(" ++ join ", " es ++ ")" := by
  have layer : read (headed "Tuple" inside) =
      ((splitTopLevel inside).mapM read).map .tuple := by
    rw [read_headed (by decide), shape_tuple nonempty inline, readLayer]
    cases split : splitTopLevel inside with
    | nil => exact absurd split parts
    | cons first others => rfl
  have expression (types : List ColumnType) : (ColumnType.tuple types).builder =
      "t.tuple(" ++ join ", " (types.map ColumnType.builder) ++ ")" :=
    congrArg (headed "t.tuple" <| join ", " ·) (builders_eq_map types)
  rw [columnBuilder, layer, mapM_columnBuilder]
  cases (splitTopLevel inside).mapM read with
  | error unsupported => rfl
  | ok types => exact congrArg Except.ok (expression types)

theorem columnBuilder_map (parts : splitTopLevel inside = [key, value]) :
    columnBuilder (headed "Map" inside) = (do
      let key ← columnBuilder key
      let value ← columnBuilder value
      return "t.map(" ++ key ++ ", " ++ value ++ ")") := by
  rw [columnBuilder, read_headed (by decide), shape_map nonempty inline, readLayer, parts]
  simp only [columnBuilder]
  cases read key with
  | error unsupported => rfl
  | ok key => cases read value <;> rfl

variable (some : function ≠ []) (word : ∀ c ∈ function, isWordChar c)
  (stripped : strip inside = inside)
include some word stripped

theorem columnBuilder_simpleAggregate :
    columnBuilder (headed "SimpleAggregateFunction" (function ++ ", " ++ inside)) =
      (columnBuilder inside).map fun e =>
        "t.simple_aggregate_function(" ++ quoted function ++ ", " ++ e ++ ")" :=
  have layer : read (headed "SimpleAggregateFunction" (function ++ ", " ++ inside)) =
      (read inside).map (.simpleAggregate function) := by
    rw [read_headed (by decide), shape_simpleAggregate some word nonempty stripped inline,
      readLayer]
  columnBuilder_around layer fun _ => rfl

theorem columnBuilder_aggregate :
    columnBuilder (headed "AggregateFunction" (function ++ ", " ++ inside)) =
      (columnBuilder inside).map fun e =>
        "t.aggregate_function(" ++ quoted function ++ ", " ++ e ++ ")" :=
  have layer : read (headed "AggregateFunction" (function ++ ", " ++ inside)) =
      (read inside).map (.aggregate function) := by
    rw [read_headed (by decide), shape_aggregate some word nonempty stripped inline, readLayer]
  columnBuilder_around layer fun _ => rfl

end Layers

end DatafileMigration
