import DatafileMigration.Proofs.Column.Layer
import DatafileMigration.Proofs.Fault.Yields
import DatafileMigration.Proofs.Script.Display
import DatafileMigration.Proofs.Script.Numeral
import DatafileMigration.Proofs.Script.Texts

namespace DatafileMigration

open Script

/-- The function of `t` that declares a type without arguments. -/
def SimpleType.function (s : SimpleType) : Text := (s.builder.drop 2).dropLast.dropLast

namespace Script

/-- A call of a function of `t`. -/
def typeCall (function : Text) (arguments : List (List Token)) : List Token :=
  call (select [.word "t"] function) arguments

/-- A name that any module may have. -/
def isKnownName (w : Text) : Bool := isName w && (Token.word w).isFixed

/-- A text with its tokens, the numbers among them and the texts in them, which has a form of the
grammar if the numbers are numbers of the language. -/
structure Forms (form : List Token → Prop) (text : Text) (tokens : List Token)
    (digits texts : List Text) : Prop where
  spells : (∀ n ∈ digits, n.IsDigits) → ∀ inside, Spells inside text tokens
  numbers : (∀ n ∈ digits, n.IsDigits) → numbers tokens = digits
  holds : (∀ n ∈ digits, n.IsDigits) → ∀ free, Holds free tokens texts
  passes : ∀ inside, Passes inside tokens
  valid : (∀ n ∈ digits, isIntegerLiteral n) → form tokens

/-- Arguments, one by one. -/
inductive FormsAll : List Text → List (List Token) → List Text → List Text → Prop
  | nil : FormsAll [] [] [] []
  | cons {text tokens digits texts items arguments others more} :
      Forms IsOperand text tokens digits texts → FormsAll items arguments others more →
        FormsAll (text :: items) (tokens :: arguments) (digits ++ others) (texts ++ more)

variable {text t w : Text} {tokens : List Token} {digits texts others more : List Text}
  {items : List Text} {arguments : List (List Token)}

theorem Forms.operand (forms : Forms IsPrimary text tokens digits texts) :
    Forms IsOperand text tokens digits texts :=
  { forms with valid := fun literal => .primary (forms.valid literal) }

theorem Forms.mono {form : List Token → Prop} (forms : Forms form text tokens digits texts)
    (fewer : more.Sublist texts) : Forms form text tokens digits more :=
  { forms with holds := fun digits free => (forms.holds digits free).mono fewer }

theorem Forms.quoted (t : Text) : Forms IsOperand (Text.quoted t) [.string t] [] [t] where
  spells _ _ := .quoted t
  numbers _ := rfl
  holds _ _ := .string t
  passes _ := .string t
  valid _ := .primary (.string t)

theorem Forms.number (n : Text) : Forms IsOperand n [.word n] [n] [] where
  spells digits _ := by
    have digits := List.forall_mem_singleton.mp digits
    exact .word digits.1 fun d member => Text.isWordChar_of_isDigit (digits.2 d member)
  numbers digits := numbers_of_isDigits (List.forall_mem_singleton.mp digits)
  holds digits _ := .singleton (Or.inl (isFixed_of_isDigits (List.forall_mem_singleton.mp digits)))
  passes _ := .word n
  valid literal := .number (literal n List.mem_cons_self)

namespace FormsAll

theorem single (forms : Forms IsOperand text tokens digits texts) :
    FormsAll [text] [tokens] digits texts := by
  have all := cons forms nil
  rwa [List.append_nil, List.append_nil] at all

theorem pair {u : Text} {second : List Token} (forms : Forms IsOperand text tokens digits texts)
    (forms' : Forms IsOperand u second others more) :
    FormsAll [text, u] [tokens, second] (digits ++ others) (texts ++ more) :=
  cons forms (single forms')

theorem spells (all : FormsAll items arguments digits texts)
    (written : ∀ n ∈ digits, n.IsDigits) : SpellsAll true items arguments := by
  induction all with
  | nil => exact .nil
  | cons forms _ ih =>
    obtain ⟨first, rest⟩ := List.forall_mem_append.mp written
    exact .cons (forms.spells first true) (ih rest)

theorem numbers (all : FormsAll items arguments digits texts)
    (written : ∀ n ∈ digits, n.IsDigits) : arguments.flatMap Script.numbers = digits := by
  induction all with
  | nil => rfl
  | cons forms _ ih =>
    obtain ⟨first, rest⟩ := List.forall_mem_append.mp written
    rw [List.flatMap_cons, forms.numbers first, ih rest]

theorem holds (all : FormsAll items arguments digits texts) (written : ∀ n ∈ digits, n.IsDigits)
    (free : Token → Prop) : Holds free (commas arguments) texts := by
  induction all with
  | nil => exact .nil
  | @cons text tokens digits texts items arguments others more forms rest ih =>
    obtain ⟨first, behind⟩ := List.forall_mem_append.mp written
    have holds := forms.holds first free
    cases rest with
    | nil =>
      rw [List.append_nil]
      exact holds
    | cons next rest =>
      exact holds.append ((Holds.singleton (Or.inl rfl)).append (ih behind))

theorem passes (all : FormsAll items arguments digits texts) :
    ∀ a ∈ arguments, Passes true a := by
  induction all with
  | nil => exact nofun
  | cons forms _ ih => exact List.forall_mem_cons.mpr ⟨forms.passes true, ih⟩

theorem valid (all : FormsAll items arguments digits texts)
    (literal : ∀ n ∈ digits, isIntegerLiteral n) : ∀ a ∈ arguments, IsOperand a := by
  induction all with
  | nil => exact nofun
  | cons forms _ ih =>
    obtain ⟨first, rest⟩ := List.forall_mem_append.mp literal
    exact List.forall_mem_cons.mpr ⟨forms.valid first, ih rest⟩

end FormsAll

theorem isWordChar_of_isName (name : isName w) : w ≠ [] ∧ ∀ d ∈ w, Text.isWordChar d := by
  rw [isName, Bool.and_eq_true] at name
  exact ⟨Text.isIdentifier_ne_nil name.1, fun d member =>
    Text.isWordChar_of_isIdentifierChar (Text.isIdentifierChar_of_mem name.1 d member)⟩

theorem Forms.name (known : isKnownName w) : Forms IsPrimary w [.word w] [] [] := by
  rw [isKnownName, Bool.and_eq_true] at known
  obtain ⟨name, fixed⟩ := known
  obtain ⟨some, chars⟩ := isWordChar_of_isName name
  exact ⟨fun _ _ => .word some chars, fun _ => List.filterMap_cons_none (number?_of_isName name),
    fun _ _ => .singleton (Or.inl fixed), fun _ => .word w, fun _ => .name name⟩

/-- A function of an object, called with arguments. -/
theorem Forms.method (object : Forms IsPrimary text tokens digits texts) (known : isKnownName w)
    (all : FormsAll items arguments others more) :
    Forms IsPrimary (text ++ "." ++ w ++ "(" ++ Text.join ", " items ++ ")")
      (call (select tokens w) arguments) (digits ++ others) (texts ++ more) := by
  rw [isKnownName, Bool.and_eq_true] at known
  obtain ⟨name, fixed⟩ := known
  constructor
  case spells =>
    intro written inside
    obtain ⟨some, chars⟩ := isWordChar_of_isName name
    obtain ⟨first, rest⟩ := List.forall_mem_append.mp written
    exact ((object.spells first inside).select some chars).call (all.spells rest)
  case numbers =>
    intro written
    obtain ⟨first, rest⟩ := List.forall_mem_append.mp written
    rw [ignoresMarks_numbers.call, numbers_select _ name, object.numbers first, all.numbers rest]
  case holds =>
    intro written free
    obtain ⟨first, rest⟩ := List.forall_mem_append.mp written
    exact ((object.holds first free).select fixed).call (all.holds rest free)
  case passes => exact fun inside => ((object.passes inside).select w).call all.passes
  case valid =>
    intro literal
    obtain ⟨first, rest⟩ := List.forall_mem_append.mp literal
    exact .call (.select (object.valid first) name) (all.valid rest)

/-- The functions that declare types with arguments, and what stands in front of these. -/
def typeCalls : List (String × String) :=
  [("date_time", "t.date_time("), ("date_time64", "t.date_time64("),
   ("fixed_string", "t.fixed_string("), ("decimal", "t.decimal("), ("json", "t.json("),
   ("enum8", "t.enum8("), ("enum16", "t.enum16("), ("array", "t.array("), ("tuple", "t.tuple("),
   ("map", "t.map("), ("simple_aggregate_function", "t.simple_aggregate_function("),
   ("aggregate_function", "t.aggregate_function("), ("uint64", "t.uint64(")]

/-- The functions that modify types. -/
def typeModifiers : List (String × String) :=
  [("nullable", ".nullable()"), ("low_cardinality", ".low_cardinality()")]

theorem type_functions :
    isKnownName "t" ∧
      (∀ s ∈ SimpleType.all,
        isKnownName s.function ∧ s.builder = "t" ++ "." ++ s.function ++ "()") ∧
      (∀ row ∈ typeCalls, isKnownName row.1 ∧ (row.2 : Text) = "t" ++ "." ++ row.1 ++ "(") ∧
      ∀ row ∈ typeModifiers, isKnownName row.1 ∧ (row.2 : Text) = "." ++ row.1 ++ "(" ++ ")" := by
  decide +kernel

theorem Forms.ofType (known : isKnownName w) (all : FormsAll items arguments digits texts) :
    Forms IsPrimary ("t" ++ "." ++ w ++ "(" ++ Text.join ", " items ++ ")")
      (typeCall w arguments) digits texts :=
  (Forms.name type_functions.1).method known all

theorem Forms.simpleType (s : SimpleType) :
    Forms IsPrimary s.builder (Script.typeCall s.function []) [] [] := by
  obtain ⟨known, spelled⟩ := type_functions.2.1 s s.mem_all
  have called : Forms IsPrimary _ _ _ _ := .ofType known .nil
  rw [spelled]
  rw [Text.join, List.append_nil, List.append_assoc _ "(".toList] at called
  exact called

theorem Forms.typeCall (row : String × String) (listed : row ∈ typeCalls)
    (all : FormsAll items arguments digits texts) :
    Forms IsPrimary (row.2 ++ Text.join ", " items ++ ")") (typeCall row.1 arguments) digits
      texts := by
  obtain ⟨known, opening⟩ := type_functions.2.2.1 row listed
  rw [opening]
  exact .ofType known all

theorem Forms.typeCallPair {u : Text} {second : List Token} (row : String × String)
    (listed : row ∈ typeCalls) (forms : Forms IsOperand text tokens digits texts)
    (forms' : Forms IsOperand u second others more) :
    Forms IsPrimary (row.2 ++ text ++ ", " ++ u ++ ")") (Script.typeCall row.1 [tokens, second])
      (digits ++ others) (texts ++ more) := by
  have called := Forms.typeCall row listed (.pair forms forms')
  have spelled : row.2 ++ text ++ ", " ++ u = row.2 ++ Text.join ", " [text, u] := by
    simp [Text.join]
  rw [spelled]
  exact called

theorem Forms.modified (object : Forms IsPrimary text tokens digits texts)
    (row : String × String) (listed : row ∈ typeModifiers) :
    Forms IsPrimary (text ++ row.2) (call (select tokens row.1) []) digits texts := by
  obtain ⟨known, ending⟩ := type_functions.2.2.2 row listed
  have called := object.method known .nil
  have spelled : text ++ row.2 = text ++ "." ++ row.1 ++ "(" ++ Text.join ", " [] ++ ")" := by
    simp [ending, Text.join]
  rw [List.append_nil, List.append_nil] at called
  rw [spelled]
  exact called

end Script

namespace ColumnType

mutual

/-- The tokens of the expression that declares a column of the type. -/
def tokens : ColumnType → List Token
  | .simple s => typeCall s.function []
  | .dateTimeIn zone => typeCall "date_time" [[.string zone]]
  | .dateTime64 => typeCall "date_time64" [[.word "3"]]
  | .dateTime64Of precision none => typeCall "date_time64" [[.word precision]]
  | .dateTime64Of precision (some zone) =>
    typeCall "date_time64" [[.word precision], [.string zone]]
  | .fixedString length => typeCall "fixed_string" [[.word length]]
  | .decimal precision scale => typeCall "decimal" [[.word precision], [.word (scale.getD "0")]]
  | .fixedDecimal width scale => typeCall "decimal" [[.word width.precision], [.word scale]]
  | .nested _ => typeCall "json" []
  | .enum width members =>
    typeCall ("enum" ++ width.print) (members.map fun m => [.string m.name])
  | .nullable inner => call (Script.select inner.tokens "nullable") []
  | .lowCardinality inner => call (Script.select inner.tokens "low_cardinality") []
  | .array inner => typeCall "array" [inner.tokens]
  | .tuple elements => typeCall "tuple" (elementTokens elements)
  | .map key value => typeCall "map" [key.tokens, value.tokens]
  | .simpleAggregate function inner =>
    typeCall "simple_aggregate_function" [[.string function], inner.tokens]
  | .aggregate function inner => typeCall "aggregate_function" [[.string function], inner.tokens]
  | .countState => typeCall "aggregate_function" [[.string "count"], typeCall "uint64" []]

def elementTokens : List ColumnType → List (List Token)
  | [] => []
  | element :: elements => element.tokens :: elementTokens elements

end

mutual

/-- The digits that a type is declared with: those it is written with, and those it implies. -/
def digits : ColumnType → List Text
  | .dateTime64 => ["3"]
  | .dateTime64Of precision _ => [precision]
  | .fixedString length => [length]
  | .decimal precision scale => [precision, scale.getD "0"]
  | .fixedDecimal width scale => [width.precision, scale]
  | .nullable inner | .lowCardinality inner | .array inner => inner.digits
  | .tuple elements => elementDigits elements
  | .map key value => key.digits ++ value.digits
  | .simpleAggregate _ inner | .aggregate _ inner => inner.digits
  | _ => []

def elementDigits : List ColumnType → List Text
  | [] => []
  | element :: elements => element.digits ++ elementDigits elements

end

theorem formsAll_members (members : List EnumMember) :
    FormsAll (members.map fun m => Text.quoted m.name) (members.map fun m => [.string m.name])
      [] (members.map EnumMember.name) := by
  induction members with
  | nil => exact .nil
  | cons m members ih => exact .cons (.quoted m.name) ih

mutual

/-- The expression of a type has the tokens, the numbers and the texts of the type. -/
theorem forms_builder : (type : ColumnType) →
    Forms IsPrimary type.builder type.tokens type.digits type.texts
  | .simple s => .simpleType s
  | .dateTimeIn zone =>
    (Forms.typeCall ("date_time", "t.date_time(") (by simp [typeCalls])
      (.single (.quoted zone)) :)
  | .dateTime64 =>
    (Forms.typeCall ("date_time64", "t.date_time64(") (by simp [typeCalls])
      (.single (.number "3")) :)
  | .dateTime64Of precision none =>
    (Forms.typeCall ("date_time64", "t.date_time64(") (by simp [typeCalls])
      (.single (.number precision)) :)
  | .dateTime64Of precision (some zone) =>
    .typeCallPair ("date_time64", "t.date_time64(") (by simp [typeCalls])
      (.number precision) (.quoted zone)
  | .fixedString length =>
    (Forms.typeCall ("fixed_string", "t.fixed_string(") (by simp [typeCalls])
      (.single (.number length)) :)
  | .decimal precision scale =>
    .typeCallPair ("decimal", "t.decimal(") (by simp [typeCalls]) (.number precision)
      (.number (scale.getD "0"))
  | .fixedDecimal width scale =>
    .typeCallPair ("decimal", "t.decimal(") (by simp [typeCalls])
      (.number width.precision) (.number scale)
  | .nested _ => (Forms.typeCall ("json", "t.json(") (by simp [typeCalls]) .nil :)
  | .enum .eight members =>
    (Forms.typeCall ("enum8", "t.enum8(") (by simp [typeCalls])
      (formsAll_members members) :)
  | .enum .sixteen members =>
    (Forms.typeCall ("enum16", "t.enum16(") (by simp [typeCalls])
      (formsAll_members members) :)
  | .nullable inner =>
    (forms_builder inner).modified ("nullable", ".nullable()") (by simp [typeModifiers])
  | .lowCardinality inner =>
    (forms_builder inner).modified ("low_cardinality", ".low_cardinality()")
      (by simp [typeModifiers])
  | .array inner =>
    (Forms.typeCall ("array", "t.array(") (by simp [typeCalls])
      (.single (forms_builder inner).operand) :)
  | .tuple elements =>
    .typeCall ("tuple", "t.tuple(") (by simp [typeCalls]) (formsAll_builders elements)
  | .map key value =>
    .typeCallPair ("map", "t.map(") (by simp [typeCalls]) (forms_builder key).operand
      (forms_builder value).operand
  | .simpleAggregate function inner =>
    .typeCallPair ("simple_aggregate_function", "t.simple_aggregate_function(")
      (by simp [typeCalls]) (.quoted function) (forms_builder inner).operand
  | .aggregate function inner =>
    .typeCallPair ("aggregate_function", "t.aggregate_function(")
      (by simp [typeCalls]) (.quoted function) (forms_builder inner).operand
  | .countState => by
    have counted : Forms IsPrimary ("t.uint64(" ++ Text.join ", " [] ++ ")") _ [] [] :=
      .typeCall ("uint64", "t.uint64(") (by simp [typeCalls]) .nil
    have called := Forms.typeCallPair ("aggregate_function", "t.aggregate_function(")
      (by simp [typeCalls]) (.quoted "count") counted.operand
    have spelled : countState.builder = "t.aggregate_function(" ++ Text.quoted "count" ++ ", " ++
        ("t.uint64(" ++ Text.join ", " [] ++ ")") ++ ")" := by
      decide +kernel
    rw [spelled]
    exact called.mono (List.nil_sublist _)

theorem formsAll_builders : (elements : List ColumnType) →
    FormsAll (builders elements) (elementTokens elements) (elementDigits elements)
      (elementTexts elements)
  | [] => .nil
  | element :: elements => .cons (forms_builder element).operand (formsAll_builders elements)

end

theorem isDigits_precision (width : DecimalWidth) : width.precision.IsDigits := by
  cases width <;> exact ⟨by decide, List.all_eq_true.mp (by decide)⟩

theorem isDigits_pair {m n : Text} (first : m.IsDigits) (second : n.IsDigits) :
    ∀ d ∈ [m, n], d.IsDigits :=
  List.forall_mem_cons.mpr ⟨first, List.forall_mem_singleton.mpr second⟩

theorem isDigits_of_isLeaf {t : Text} {type : ColumnType} (leaf : IsLeaf t type) :
    ∀ n ∈ type.digits, n.IsDigits := by
  cases leaf with
  | dateTime64 => exact List.forall_mem_singleton.mpr ⟨by decide, List.all_eq_true.mp (by decide)⟩
  | dateTime64Of _ digits => exact List.forall_mem_singleton.mpr digits
  | fixedString digits => exact List.forall_mem_singleton.mpr digits
  | @decimal _ _ scale digits scaled =>
    cases scale with
    | none => exact isDigits_pair digits ⟨by decide, List.all_eq_true.mp (by decide)⟩
    | some scale => exact isDigits_pair digits (scaled scale rfl)
  | fixedDecimal width digits => exact isDigits_pair (isDigits_precision width) digits
  | _ => exact nofun

theorem elementDigits_eq_flatMap (elements : List ColumnType) :
    elementDigits elements = elements.flatMap digits := by
  induction elements with
  | nil => rfl
  | cons element elements ih => exact congrArg (element.digits ++ ·) ih

/-- A type is read with digits, but of whatever script. -/
theorem isDigits_of_read (t : Text) :
    Yields (fun type => ∀ n ∈ type.digits, n.IsDigits) (read t) := by
  fun_induction read t with
  | case1 t type layer => exact yields_ok.mpr (isDigits_of_isLeaf (isLeaf_of_shape layer))
  | case2 | case8 | case10 | case13 => exact yields_error
  | case3 t inner _ ih | case4 t inner _ ih | case5 t inner _ ih => exact yields_map.mpr ih
  | case6 t function inner _ ih | case7 t function inner _ ih => exact yields_map.mpr ih
  | case9 t width inner _ some => exact yields_ok.mpr nofun
  | case11 t inner _ some ih =>
    refine yields_map.mpr fun elements read => ?_
    have all := yields_mapM (fun part _ => ih part) elements read
    change ∀ n ∈ elementDigits elements, n.IsDigits
    rw [elementDigits_eq_flatMap, List.forall_mem_flatMap]
    exact all
  | case12 t inner _ key value _ ih ih' =>
    rw [yields_bind]
    intro keyType read
    rw [yields_bind]
    intro valueType read'
    exact yields_pure.mpr (List.forall_mem_append.mpr ⟨ih keyType read, ih' valueType read'⟩)

end ColumnType

open ColumnType

/-- A column type's expression has the digits of the type as its numbers, and nothing else outside of
strings that depends on them: it is one of the language exactly if they are numbers there. -/
theorem columnBuilder_isPrimary_iff {t builder : Text} (declared : columnBuilder t = .ok builder) :
    ∃ type tokens, ColumnType.read t = .ok type ∧ tokensOf? builder = some tokens ∧
      numbers tokens = type.digits ∧ (∀ n ∈ type.digits, n.IsDigits) ∧
      (IsPrimary tokens ↔ ∀ n ∈ numbers tokens, isIntegerLiteral n) := by
  obtain ⟨type, read, rfl⟩ := map_eq_ok.mp declared
  have digits := isDigits_of_read t type read
  have forms := forms_builder type
  have numbers := forms.numbers digits
  refine ⟨type, type.tokens, read, (forms.spells digits true).tokensOf?, numbers, digits, ?_⟩
  refine ⟨IsPrimary.isIntegerLiteral, fun literal => forms.valid ?_⟩
  rwa [numbers] at literal

theorem columnBuilder_isPrimary_iff_nested :
    columnBuilder "Array(Tuple(Decimal(9, 2), FixedString(16)))" =
        .ok "t.array(t.tuple(t.decimal(9, 2), t.fixed_string(16)))" ∧
      ∃ type tokens, ColumnType.read "Array(Tuple(Decimal(9, 2), FixedString(16)))" = .ok type ∧
        tokensOf? "t.array(t.tuple(t.decimal(9, 2), t.fixed_string(16)))" = some tokens ∧
        numbers tokens = type.digits ∧ (∀ n ∈ type.digits, n.IsDigits) ∧
        (IsPrimary tokens ↔ ∀ n ∈ numbers tokens, isIntegerLiteral n) := by
  have declared : columnBuilder "Array(Tuple(Decimal(9, 2), FixedString(16)))" =
      .ok "t.array(t.tuple(t.decimal(9, 2), t.fixed_string(16)))" := by decide +kernel
  exact ⟨declared, columnBuilder_isPrimary_iff declared⟩

/-- The tokens of `t.fixed_string(007)`. -/
def zerosInFront : List Token :=
  [.word "t", .mark '.', .word "fixed_string", .mark '(', .word "007", .mark ')']

/-- Zeros in front of a length stay and make no number of the language. -/
theorem columnBuilder_leadingZeros :
    columnBuilder "FixedString(007)" = .ok "t.fixed_string(007)" ∧
      tokensOf? "t.fixed_string(007)" = some zerosInFront ∧
      numbers zerosInFront = ["007".toList] ∧ ¬ isIntegerLiteral "007" ∧
      ¬ IsPrimary zerosInFront := by
  have number : numbers zerosInFront = ["007".toList] := by decide +kernel
  have none : ¬ isIntegerLiteral "007" := by decide
  refine ⟨by decide +kernel, by decide +kernel, number, none, fun primary => none ?_⟩
  refine primary.isIntegerLiteral _ ?_
  rw [number]
  exact List.mem_cons_self

end DatafileMigration
