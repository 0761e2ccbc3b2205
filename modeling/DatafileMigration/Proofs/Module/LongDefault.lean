import DatafileMigration.Module.Assembly
import DatafileMigration.Proofs.Module.Schema
import DatafileMigration.Proofs.Template.LongOption

namespace DatafileMigration

/-- The type of a column is rendered, and its default is an integer of too many digits. -/
structure Column.HasLongDefault (strict : Bool) (c : Column) : Prop where
  typed : strict → ∃ type, ColumnType.read c.type = .ok type
  default : ∃ expression, c.default = some expression ∧ IsLongInteger (Text.strip expression)

/-- The columns of a datasource come to such a default: all of them have a JSON path or none, and
what stands before it is rendered. -/
structure Datasource.HasLongDefault (strict : Bool) (d : Datasource) : Prop where
  uniform : (∀ c ∈ d.columns, c.jsonPath = none) ∨ ∀ c ∈ d.columns, c.jsonPath ≠ none
  reach : Reaches (Column.schemaLine strict) (Column.HasLongDefault strict) d.columns

theorem breaks_readLiteral {expression : Text} :
    Breaks (readLiteral expression) ↔ IsLongInteger (Text.strip expression) := by
  unfold readLiteral
  by_cases null : Text.strip expression = "NULL"
  · refine iff_of_false (by simp [null]) ?_
    intro long
    rw [null] at long
    rcases long.mem (c := 'N') (by decide) with sign | digit
    · exact absurd sign (by decide)
    · exact absurd digit (by decide)
  rw [← PlainNumber.no_value_iff]
  simp only [if_neg null]
  cases read : PlainNumber.ofText? (Text.strip expression) with
  | some x => simp
  | none =>
    refine iff_of_false ?_ (by simp)
    cases Datafile.insideQuotes? '\'' (Text.strip expression) with
    | some inside => simp
    | none =>
      cases Literal.ofJson? (Text.strip expression) <;> simp [breaks_ite]

/-- Reading a literal is the only step of a default that breaks down. -/
theorem breaks_columnDefault {type expression column : Text} :
    Breaks (columnDefault type expression column) ↔ IsLongInteger (Text.strip expression) := by
  have value_iff : Breaks (defaultValue type expression column) ↔
      IsLongInteger (Text.strip expression) := by
    rw [defaultValue, breaks_bind, breaks_readLiteral, or_iff_left]
    rintro ⟨value, _, broken⟩
    revert broken
    split <;> simp [breaks_ite]
  rw [columnDefault, breaks_bind, value_iff, or_iff_left]
  rintro ⟨value, _, broken⟩
  exact not_breaks_mapError_refused_comp broken

namespace Column

theorem not_breaks_typeExpression {strict : Bool} {c : Column} :
    ¬ Breaks (c.typeExpression strict) := by
  unfold typeExpression
  cases columnBuilder c.type with
  | ok builder => exact not_breaks_ok _
  | error e => simp only [breaks_ite, not_breaks_refused, not_breaks_ok, and_false, or_self,
      not_false_eq_true]

theorem typeExpression_isOk {strict : Bool} {c : Column} :
    (∃ e, c.typeExpression strict = .ok e) ↔
      (strict → ∃ type, ColumnType.read c.type = .ok type) := by
  unfold typeExpression columnBuilder
  cases ColumnType.read c.type <;> cases strict <;> simp [Except.map]

theorem breaks_withDefault {strict : Bool} {c : Column} {e : ColumnExpression} :
    Breaks (c.withDefault strict e) ↔
      ∃ expression, c.default = some expression ∧ IsLongInteger (Text.strip expression) := by
  unfold withDefault
  cases default : c.default with
  | none => simp
  | some expression =>
    simp only [Option.some.injEq, exists_eq_left', ← @breaks_columnDefault c.type expression c.name]
    match columnDefault c.type expression c.name with
    | .ok value => simp only [not_breaks_ok]
    | .error (.refused cause) => simp only [breaks_ite, not_breaks_refused, not_breaks_ok,
        and_false, or_self]
    | .error (.broken why) => simp only [breaks_broken]

/-- The line of a column breaks down exactly with such a default. -/
theorem breaks_schemaLine {strict : Bool} {c : Column} :
    Breaks (c.schemaLine strict) ↔ c.HasLongDefault strict := by
  simp only [schemaLine, columnExpression, breaks_bind, not_breaks_typeExpression,
    breaks_withDefault, not_breaks_pure, and_false, exists_false, or_false, false_or,
    exists_and_right, typeExpression_isOk]
  constructor
  · rintro ⟨typed, default⟩
    exact ⟨typed, default⟩
  · rintro ⟨typed, default⟩
    exact ⟨typed, default⟩

end Column

theorem Engine.not_breaks_render {e : Engine} : ¬ Breaks e.render := by
  have settings : ¬ Breaks e.settingsArgument := by
    unfold settingsArgument
    by_cases none : e.settings = []
    · rw [if_pos none]
      exact not_breaks_ok _
    · rw [if_neg none]
      exact not_breaks_bind not_breaks_mapError_refused_comp fun _ _ => not_breaks_pure _
  unfold render
  cases engineFunctions.find? (·.1 = e.type) with
  | none => exact not_breaks_throw_refused _
  | some entry => exact not_breaks_bind settings fun _ _ => not_breaks_pure _

/-- The statement of a datasource breaks down exactly with a column that does. -/
theorem Datasource.breaks_statement {strict : Bool} {d : Datasource} :
    Breaks (d.statement strict) ↔ d.HasLongDefault strict := by
  have schema : Breaks (d.schema strict) ↔
      Reaches (Column.schemaLine strict) (Column.HasLongDefault strict) d.columns := by
    simp only [Datasource.schema, breaks_bind, not_breaks_pure, and_false, exists_false, or_false,
      breaks_mapM, Column.breaks_schemaLine]
  unfold statement
  by_cases fits : (d.hasJsonPaths && d.columns.any (·.jsonPath.isNone)) = true
  · rw [if_pos fits]
    refine iff_of_false (not_breaks_refused _) ?_
    intro long
    exact mixed_iff.mp fits long.uniform
  · rw [if_neg fits]
    dsimp only
    rw [breaks_bind, schema, or_iff_left]
    · constructor
      · intro reach
        exact ⟨not_not.mp (mixed_iff.not.mp fits), reach⟩
      · intro long
        exact long.reach
    · rintro ⟨_, _, broken⟩
      exact not_breaks_bind Engine.not_breaks_render (fun _ _ => not_breaks_pure _) broken

theorem not_breaks_parameterBuilder {strict : Bool} {type : Text} {required : Bool}
    {default : Option Scalar} : ¬ Breaks (parameterBuilder strict type required default) := by
  have builder : ¬ Breaks (parameterTypeBuilder strict type) := by
    unfold parameterTypeBuilder
    cases parameterBuilders.find? (·.1 = type) with
    | some entry => exact not_breaks_ok _
    | none => simp only [breaks_ite, not_breaks_refused, not_breaks_ok, and_false, or_self,
        not_false_eq_true]
  refine not_breaks_bind builder ?_
  intro text _
  cases default with
  | some value =>
    exact not_breaks_bind not_breaks_mapError_refused_comp fun _ _ => not_breaks_pure _
  | none => exact not_breaks_pure _

theorem Pipe.not_breaks_statement {strict : Bool} {p : Pipe} : ¬ Breaks (p.statement strict) := by
  have parameters : ¬ Breaks (p.parametersArgument strict) := by
    unfold parametersArgument
    by_cases none : p.parameters = []
    · rw [if_pos none]
      exact not_breaks_ok _
    · rw [if_neg none]
      refine not_breaks_bind (not_breaks_mapM fun q => ?_) fun _ _ => not_breaks_pure _
      exact not_breaks_bind not_breaks_parameterBuilder fun _ _ => not_breaks_pure _
  have ofType : ¬ Breaks (p.typeArguments strict) := by
    unfold typeArguments
    cases p.type with
    | pipe | endpoint => exact parameters
    | materialized | copy => exact not_breaks_ok _
  exact not_breaks_bind ofType fun _ _ => not_breaks_pure _

/-- A resource breaks down when its statement is made exactly if it is a datasource with a default
that is too long. -/
theorem Resource.breaks_define {strict : Bool} {r : Resource} :
    Breaks (r.define strict) ↔ ∃ d, r = .datasource d ∧ d.HasLongDefault strict := by
  cases r with
  | connection c => simp [define, statement]
  | datasource d => simp [define, statement, Datasource.breaks_statement]
  | pipe p => simp [define, statement, Pipe.not_breaks_statement]

end DatafileMigration
