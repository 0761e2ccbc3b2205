import DatafileMigration.Module.Datasource
import DatafileMigration.Proofs.Column.Reading
import DatafileMigration.Proofs.Script.ColumnType

namespace DatafileMigration

/-- What can stand around a type. -/
inductive Wrapper where
  | nullable
  | lowCardinality
  deriving DecidableEq, Repr

namespace Wrapper

def name : Wrapper → Text
  | .nullable => "Nullable"
  | .lowCardinality => "LowCardinality"

/-- What a wrapper adds to the expression of the type inside. -/
def modifier : Wrapper → Text
  | .nullable => ".nullable()"
  | .lowCardinality => ".low_cardinality()"

/-- The modifiers of wrappers, one behind the other. -/
def modifiers (ws : List Wrapper) : Text := ws.flatMap modifier

def around : Wrapper → ColumnType → ColumnType
  | .nullable => .nullable
  | .lowCardinality => .lowCardinality

def layer : Wrapper → Text → ColumnType.Shape
  | .nullable => .nullable
  | .lowCardinality => .lowCardinality

theorem builder_around (w : Wrapper) (type : ColumnType) :
    (w.around type).builder = type.builder ++ w.modifier := by
  cases w <;> rfl

end Wrapper

open Wrapper (modifiers)

/-- The call that declares truth values, with modifiers behind it in any number. -/
def DeclaresBoolean (e : Text) : Prop := ∃ ws, e = "t.bool()" ++ modifiers ws

namespace ColumnType

open Script Text

/-- A text that is, without the blanks around it, one wrapper around something on one line. -/
structure Wraps (w : Wrapper) (inner t : Text) : Prop where
  spelled : strip t = headed w.name inner
  nonempty : inner ≠ []
  inline : '\n' ∉ inner

/-- A text that is no wrapper around anything. -/
def IsBare (t : Text) : Prop := ∀ w inner, ¬ Wraps w inner t

/-- A text in wrappers around a bare one, the innermost wrapper first. -/
inductive IsWrapped : List Wrapper → Text → Text → Prop
  | bare {t} : IsBare t → IsWrapped [] (strip t) t
  | around {w ws base inner t} : Wraps w inner t → IsWrapped ws base inner →
      IsWrapped (ws ++ [w]) base t

variable {w : Wrapper} {ws : List Wrapper} {base inner t u e : Text}

theorem wraps_iff : Wraps w inner t ↔ enclosed? w.name (strip t) = some inner := by
  constructor
  · intro wraps
    rw [wraps.spelled, enclosed?_headed_self _ wraps.nonempty wraps.inline]
  · intro found
    have spelled : strip t = headed w.name inner := eq_of_enclosed? found
    rw [spelled, enclosed?, between?_headed_self, Option.bind_eq_bind, Option.bind_some] at found
    split at found
    · cases found
    · rename_i fits
      rw [Bool.or_eq_true, decide_eq_true_eq, List.contains_iff_mem, not_or] at fits
      exact ⟨spelled, fits.1, fits.2⟩

theorem shape_eq_layer_iff : shape (strip t) = w.layer inner ↔ Wraps w inner t := by
  constructor
  · intro layer
    rw [wraps_iff]
    unfold shape at layer
    cases w <;> repeat' split at layer
    all_goals first
      | cases layer
        assumption
      | cases layer
  · intro wraps
    rw [wraps.spelled]
    cases w with
    | nullable => exact shape_nullable wraps.nonempty wraps.inline
    | lowCardinality => exact shape_lowCardinality wraps.nonempty wraps.inline

theorem read_of_wraps (wraps : Wraps w inner t) : read t = (read inner).map w.around := by
  rw [read_eq, shape_eq_layer_iff.mpr wraps]
  cases w <;> rfl

theorem columnBuilder_of_wraps (wraps : Wraps w inner t) :
    columnBuilder t = (columnBuilder inner).map (· ++ w.modifier) :=
  columnBuilder_around (read_of_wraps wraps) w.builder_around

/-- The search for the base goes through the wrappers. -/
theorem exists_isWrapped (t : Text) : ∃ ws, IsWrapped ws (baseTypeName t) t := by
  fun_induction baseTypeName t with
  | case1 t current inner found ih =>
    obtain ⟨ws, wrapped⟩ := ih
    exact ⟨_, .around (wraps_iff (w := .nullable).mpr found) wrapped⟩
  | case2 t current none inner found ih =>
    obtain ⟨ws, wrapped⟩ := ih
    exact ⟨_, .around (wraps_iff (w := .lowCardinality).mpr found) wrapped⟩
  | case3 t current none none' =>
    refine ⟨[], .bare fun w inner wraps => ?_⟩
    have found := wraps_iff.mp wraps
    cases w with
    | nullable => exact Option.some_ne_none inner (found.symm.trans none)
    | lowCardinality => exact Option.some_ne_none inner (found.symm.trans none')

theorem isBare_strip : IsBare (strip t) ↔ IsBare t := by
  have same (w inner) : Wraps w inner (strip t) ↔ Wraps w inner t := by
    rw [wraps_iff, wraps_iff, strip_strip]
  simp only [IsBare, same]

theorem IsWrapped.isBare (wrapped : IsWrapped ws base t) : IsBare base ∧ strip base = base := by
  induction wrapped with
  | bare bare => exact ⟨isBare_strip.mpr bare, strip_strip _⟩
  | around _ _ ih => exact ih

/-- The text around a layer counts for what is refused only. -/
theorem readLayer_eq_ok_iff {layer : Shape} {type : ColumnType} :
    readLayer t layer = .ok type ↔ readLayer u layer = .ok type := by
  cases layer with
  | enum width inside => cases found : members inside <;> simp [readLayer, found]
  | tuple inside => cases found : splitTopLevel inside <;> simp [readLayer, found]
  | map inside =>
    rcases found : splitTopLevel inside with _ | ⟨key, _ | ⟨value, _ | _⟩⟩ <;>
      simp [readLayer, found]
  | unknown => simp [readLayer]
  | _ => exact Iff.rfl

theorem columnBuilder_strip : columnBuilder (strip t) = .ok e ↔ columnBuilder t = .ok e := by
  simp only [columnBuilder, map_eq_ok, read_eq, strip_strip, @readLayer_eq_ok_iff (strip t) t]

/-- The translation goes through the wrappers, and each adds its modifier. -/
theorem IsWrapped.columnBuilder_eq_ok (wrapped : IsWrapped ws base t) :
    columnBuilder t = .ok e ↔ ∃ e₀, columnBuilder base = .ok e₀ ∧ e = e₀ ++ modifiers ws := by
  induction wrapped generalizing e with
  | bare bare => simp [modifiers, columnBuilder_strip]
  | @around w ws base inner t wraps wrapped ih =>
    rw [columnBuilder_of_wraps wraps, map_eq_ok]
    simp only [ih]
    constructor
    · rintro ⟨_, ⟨e₀, built, rfl⟩, rfl⟩
      exact ⟨e₀, built, by simp [modifiers]⟩
    · rintro ⟨e₀, built, rfl⟩
      exact ⟨_, ⟨e₀, built, rfl⟩, by simp [modifiers]⟩

/-- How a type without wrappers is declared: a simple one as it is named, every other one by a call
with a function of its own. -/
inductive IsDeclared (t : Text) : ColumnType → Prop
  | named (s) : t = s.print → IsDeclared t (.simple s)
  | called {type} (row) : row ∈ typeCalls → row.2 <+: type.builder → IsDeclared t type

theorem opens_call (opening argument closing : Text) :
    opening <+: opening ++ argument ++ closing :=
  (List.prefix_append _ _).trans (List.prefix_append _ _)

theorem opens_call_pair (opening first comma second closing : Text) :
    opening <+: opening ++ first ++ comma ++ second ++ closing :=
  (opens_call _ _ _).trans (opens_call _ _ _)

theorem isDeclared_of_isLeaf {type : ColumnType} (leaf : IsLeaf t type) : IsDeclared t type := by
  cases leaf with
  | simple s => exact .named s rfl
  | dateTimeIn =>
    exact .called ("date_time", "t.date_time(") (by simp [typeCalls]) (opens_call _ _ _)
  | dateTime64 =>
    have opens : "t.date_time64(".toList <+: "t.date_time64(3)".toList := ⟨"3)", by decide +kernel⟩
    exact .called ("date_time64", "t.date_time64(") (by simp [typeCalls]) opens
  | dateTime64Of zone =>
    refine .called ("date_time64", "t.date_time64(") (by simp [typeCalls]) ?_
    cases zone with
    | none => exact opens_call _ _ _
    | some zone => exact opens_call_pair _ _ _ _ _
  | fixedString =>
    exact .called ("fixed_string", "t.fixed_string(") (by simp [typeCalls]) (opens_call _ _ _)
  | decimal | fixedDecimal =>
    exact .called ("decimal", "t.decimal(") (by simp [typeCalls]) (opens_call_pair _ _ _ _ _)
  | countState =>
    exact .called ("aggregate_function", "t.aggregate_function(") (by simp [typeCalls])
      ⟨"\"count\", t.uint64())", by decide +kernel⟩
  | nested =>
    have opens : "t.json(".toList <+: "t.json()".toList := ⟨")", by decide +kernel⟩
    exact .called ("json", "t.json(") (by simp [typeCalls]) opens

/-- The functions that declare enumerations. -/
theorem exists_enum_call (width : EnumWidth) :
    ∃ row ∈ typeCalls, (row.2 : Text) = "t.enum" ++ width.print ++ "(" := by
  cases width <;> decide +kernel

theorem isDeclared_of_isBare (bare : IsBare t) : Yields (IsDeclared (strip t)) (read t) := by
  fun_cases read t with
  | case1 type layer => exact yields_ok.mpr (isDeclared_of_isLeaf (isLeaf_of_shape layer))
  | case2 | case8 | case10 | case13 => exact yields_error
  | case3 inner layer =>
    exact absurd (shape_eq_layer_iff (w := .nullable).mp layer) (bare .nullable inner)
  | case4 inner layer =>
    exact absurd (shape_eq_layer_iff (w := .lowCardinality).mp layer) (bare .lowCardinality inner)
  | case5 inner layer =>
    exact yields_map.mpr fun _ _ =>
      .called ("array", "t.array(") (by simp [typeCalls]) (opens_call _ _ _)
  | case6 function inner layer =>
    exact yields_map.mpr fun _ _ =>
      .called ("simple_aggregate_function", "t.simple_aggregate_function(") (by simp [typeCalls])
        (opens_call_pair _ _ _ _ _)
  | case7 function inner layer =>
    exact yields_map.mpr fun _ _ =>
      .called ("aggregate_function", "t.aggregate_function(") (by simp [typeCalls])
        (opens_call_pair _ _ _ _ _)
  | case9 width inside layer some =>
    obtain ⟨row, listed, opening⟩ := exists_enum_call width
    refine yields_ok.mpr (.called row listed ?_)
    rw [opening]
    exact opens_call _ _ _
  | case11 inside layer some =>
    exact yields_map.mpr fun _ _ =>
      .called ("tuple", "t.tuple(") (by simp [typeCalls]) (opens_call _ _ _)
  | case12 inside layer key value =>
    simp only [yields_bind]
    exact fun _ _ _ _ => yields_pure.mpr
      (.called ("map", "t.map(") (by simp [typeCalls]) (opens_call_pair _ _ _ _ _))

/-- Neither text begins with the other. -/
def Diverge (s t : Text) : Prop := ¬ s <+: t ∧ ¬ t <+: s

instance (s t : Text) : Decidable (Diverge s t) := inferInstanceAs (Decidable (_ ∧ _))

theorem Diverge.not_prefix_append {s t : Text} (diverge : Diverge s t) (rest : Text) :
    ¬ s <+: t ++ rest := by
  intro begins
  rcases List.prefix_or_prefix_of_prefix begins (List.prefix_append t rest) with first | second
  · exact diverge.1 first
  · exact diverge.2 second

/-- The call for truth values begins as no other call does. -/
theorem diverge_bool :
    (∀ row ∈ typeCalls, Diverge "t.bool()" row.2) ∧
      ∀ s ∈ SimpleType.all, Diverge "t.bool()" s.builder ∨ s = .bool ∨ s = .boolean := by
  unfold SimpleType.builder typeCalls
  repeat rw [String.toList_ofList]
  decide +kernel

/-- Of bare texts, only the names for truth values have an expression that begins with this call. -/
theorem IsBare.eq_of_prefix (bare : IsBare t) (built : columnBuilder t = .ok e) {rest : Text}
    (begins : "t.bool()" <+: e ++ rest) : strip t = "Bool" ∨ strip t = "Boolean" := by
  obtain ⟨type, read, rfl⟩ := map_eq_ok.mp built
  cases isDeclared_of_isBare bare type read with
  | named s named =>
    rcases diverge_bool.2 s s.mem_all with diverge | rfl | rfl
    · exact absurd begins (diverge.not_prefix_append rest)
    · exact Or.inl named
    · exact Or.inr named
  | called row listed opens =>
    obtain ⟨inside, spelled⟩ := opens
    rw [← spelled, List.append_assoc] at begins
    exact absurd begins ((diverge_bool.1 row listed).not_prefix_append _)

/-- What is left without the wrappers decides, as no modifier changes how an expression begins. -/
theorem IsWrapped.declaresBoolean_iff (wrapped : IsWrapped ws base t) :
    (∃ e, columnBuilder t = .ok e ∧ DeclaresBoolean e) ↔ base = "Bool" ∨ base = "Boolean" := by
  constructor
  · rintro ⟨_, built, vs, rfl⟩
    obtain ⟨e₀, built₀, same⟩ := wrapped.columnBuilder_eq_ok.mp built
    obtain ⟨bare, stripped⟩ := wrapped.isBare
    rw [← stripped]
    exact bare.eq_of_prefix built₀ ⟨modifiers vs, same⟩
  · intro named
    have built₀ : columnBuilder base = .ok "t.bool()" := by
      rcases named with rfl | rfl <;> decide +kernel
    exact ⟨_, wrapped.columnBuilder_eq_ok.mpr ⟨_, built₀, rfl⟩, ws, rfl⟩

end ColumnType

open ColumnType

theorem isBooleanType_iff {t : Text} :
    isBooleanType t ↔ ∃ e, columnBuilder t = .ok e ∧ DeclaresBoolean e := by
  obtain ⟨ws, wrapped⟩ := exists_isWrapped t
  rw [wrapped.declaresBoolean_iff, isBooleanType, Bool.or_eq_true, decide_eq_true_iff,
    decide_eq_true_iff]

theorem isBooleanType_iff_of_built {t e : Text} (built : columnBuilder t = .ok e) :
    isBooleanType t ↔ DeclaresBoolean e := by
  rw [isBooleanType_iff]
  constructor
  · rintro ⟨e', built', declares⟩
    cases built.symm.trans built'
    exact declares
  · exact fun declares => ⟨e, built, declares⟩

namespace Literal

/-- A default as it is. -/
def argument (value : Literal) : Except (Fault RenderError) Text :=
  value.render.mapError fun e => .refused (.ofNotFinite e)

/-- A default among truth values: zero and one are such values, and no other integer can be one. -/
def truthArgument (column : Text) : Literal → Except (Fault RenderError) Text
  | .scalar (.int n) =>
    if n = 0 then .ok "False"
    else if n = 1 then .ok "True"
    else .error (.refused (.booleanDefault column))
  | value => value.argument

end Literal

/-- The type of a column counts for integers only. -/
theorem columnDefault_eq (type expression column : Text) :
    columnDefault type expression column = readLiteral expression >>=
      if isBooleanType type then Literal.truthArgument column else Literal.argument := by
  rw [columnDefault, defaultValue]
  cases readLiteral expression with
  | error fault => split <;> rfl
  | ok value =>
    cases isBooleanType type with
    | false => cases value with
      | scalar x => cases x <;> rfl
      | _ => rfl
    | true => cases value with
      | scalar x => cases x with
        | int n =>
          change (if n = 0 then pure (Literal.bool false)
            else if n = 1 then pure (Literal.bool true)
            else throw (.refused (.booleanDefault column))) >>= Literal.argument =
              Literal.truthArgument column (.int n)
          rw [Literal.truthArgument]
          split
          · rfl
          · split <;> rfl
        | _ => rfl
      | _ => rfl

/-- A type with an expression is read alike both times. The expression is that of its base with the
modifiers of its wrappers, it declares truth values exactly if the base is a name for these, and zero
and one become truth values as defaults of columns declared so and of no others. -/
theorem columnBuilder_boolean_iff {type e : Text} (built : columnBuilder type = .ok e) :
    (∃ ws e₀, IsWrapped ws (baseTypeName type) type ∧
        columnBuilder (baseTypeName type) = .ok e₀ ∧ e = e₀ ++ modifiers ws) ∧
      (isBooleanType type ↔ DeclaresBoolean e) ∧
      ∀ expression column : Text,
        (DeclaresBoolean e → columnDefault type expression column =
          readLiteral expression >>= Literal.truthArgument column) ∧
        (¬ DeclaresBoolean e → columnDefault type expression column =
          readLiteral expression >>= Literal.argument) := by
  have boolean := isBooleanType_iff_of_built built
  refine ⟨?_, boolean, fun expression column => ?_⟩
  · obtain ⟨ws, wrapped⟩ := exists_isWrapped type
    obtain ⟨e₀, built₀, same⟩ := wrapped.columnBuilder_eq_ok.mp built
    exact ⟨ws, e₀, wrapped, built₀, same⟩
  · rw [columnDefault_eq, ← boolean]
    exact ⟨fun holds => by rw [if_pos holds], fun fails => by rw [if_neg fails]⟩

/-- The longer name for truth values in two wrappers, with blanks in the inner parentheses. -/
def wrappedBoolean : Text := "LowCardinality( Nullable(Boolean) )"

def wrappedBooleanBuilder : Text := "t.bool().nullable().low_cardinality()"

theorem columnBuilder_boolean_iff_wrapped :
    columnBuilder wrappedBoolean = .ok wrappedBooleanBuilder ∧
      (∃ ws e₀, IsWrapped ws (baseTypeName wrappedBoolean) wrappedBoolean ∧
        columnBuilder (baseTypeName wrappedBoolean) = .ok e₀ ∧
        wrappedBooleanBuilder = e₀ ++ modifiers ws) ∧
      (isBooleanType wrappedBoolean ↔ DeclaresBoolean wrappedBooleanBuilder) ∧
      ∀ expression column : Text,
        (DeclaresBoolean wrappedBooleanBuilder → columnDefault wrappedBoolean expression column =
          readLiteral expression >>= Literal.truthArgument column) ∧
        (¬ DeclaresBoolean wrappedBooleanBuilder → columnDefault wrappedBoolean expression column =
          readLiteral expression >>= Literal.argument) := by
  have built : columnBuilder wrappedBoolean = .ok wrappedBooleanBuilder := by decide +kernel
  exact ⟨built, columnBuilder_boolean_iff built⟩

end DatafileMigration
