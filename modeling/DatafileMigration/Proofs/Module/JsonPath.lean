import DatafileMigration.Proofs.Module.Schema

namespace DatafileMigration

namespace ColumnExpression

/-- The expression shows a JSON path. -/
def ShowsPath (e : ColumnExpression) (path : Text) : Prop :=
  ∃ inner : Text, e.expression =
    "column(" ++ inner ++ ", json_path=" ++ Text.quoted path ++ ")"

/-- The expression is no call of `column`. -/
def IsPlain (e : ColumnExpression) : Prop := ¬ "column(".toList <+: e.expression

instance (e : ColumnExpression) : Decidable e.IsPlain := inferInstanceAs (Decidable (¬ _))

end ColumnExpression

/-- A column shows its path exactly if this says something. -/
def Column.IsShown (c : Column) (e : ColumnExpression) : Prop :=
  if isFilled c.jsonPath then e.ShowsPath (c.jsonPath.getD []) else e.IsPlain

/-- All columns show a path and the statement says nothing about paths, or none does and the
statement says so. The statement asks whether its columns have paths, each column whether its path
says something. -/
def Statement.AgreesOnPaths (s : Statement) (es : List ColumnExpression) : Prop :=
  ((∀ e ∈ es, ∃ path, e.ShowsPath path) ∧ ∀ a, ("json_paths".toList, a) ∉ s.arguments) ∨
    ((∀ e ∈ es, e.IsPlain) ∧ ("json_paths".toList, Argument.expression "False") ∈ s.arguments)

variable {strict : Bool} {c : Column} {e : ColumnExpression} {d : Datasource} {s : Statement}

theorem ColumnExpression.ShowsPath.not_isPlain {path : Text} (showsPath : e.ShowsPath path) :
    ¬ e.IsPlain := by
  obtain ⟨inner, spelled⟩ := showsPath
  refine not_not.mpr ?_
  rw [spelled]
  simp only [List.append_assoc]
  exact List.prefix_append _ _

theorem exists_of_forall₂ {α β : Type} {R : α → β → Prop} {l : List α} {m : List β}
    (all : List.Forall₂ R l m) : (∀ a ∈ l, ∃ b ∈ m, R a b) ∧ ∀ b ∈ m, ∃ a ∈ l, R a b := by
  induction all with
  | nil => exact ⟨nofun, nofun⟩
  | cons here _ ih =>
    simp only [List.exists_mem_cons_iff, List.forall_mem_cons]
    exact ⟨⟨Or.inl here, fun a member => Or.inr (ih.1 a member)⟩,
      Or.inl here, fun b member => Or.inr (ih.2 b member)⟩

theorem head?_append {t : Text} (head : t.head? = some 't') (u : Text) :
    (t ++ u).head? = some 't' := by
  rw [List.head?_append, head]
  rfl

/-- Every type is declared by a function of `t`. -/
theorem ColumnType.head?_builder : (type : ColumnType) → type.builder.head? = some 't'
  | .nullable inner | .lowCardinality inner => head?_append (head?_builder inner) _
  | .simple s => by cases s <;> rfl
  | .dateTime64Of _ none | .dateTime64Of _ (some _) => rfl
  | .dateTimeIn _ | .dateTime64 | .fixedString _ | .decimal _ _ | .fixedDecimal _ _ | .nested _
  | .enum _ _ | .array _ | .tuple _ | .map _ _ | .simpleAggregate _ _ | .aggregate _ _
  | .countState => rfl

namespace Column

theorem head?_typeExpression :
    Yields (fun e => e.expression.head? = some 't') (c.typeExpression strict) := by
  rw [typeExpression, columnBuilder]
  cases ColumnType.read c.type with
  | ok type => exact yields_ok.mpr type.head?_builder
  | error unsupported =>
    cases strict with
    | true => exact yields_error
    | false => exact yields_ok.mpr rfl

theorem head?_withDefault (head : e.expression.head? = some 't') :
    Yields (fun e => e.expression.head? = some 't') (c.withDefault strict e) := by
  rw [withDefault]
  cases c.default with
  | none => exact yields_ok.mpr head
  | some default =>
    dsimp only
    split
    · simp only [List.append_assoc]
      exact yields_ok.mpr (head?_append head _)
    · exact yields_ite.mpr ⟨fun _ => yields_error, fun _ => yields_ok.mpr head⟩
    · exact yields_error

theorem head?_withCodec {t : Text} (head : t.head? = some 't') :
    (c.withCodec t).head? = some 't' := by
  rw [withCodec]
  split
  · simp only [List.append_assoc]
    exact head?_append head _
  · exact head

theorem isShown_columnExpression : Yields c.IsShown (c.columnExpression strict) := by
  rw [columnExpression, yields_bind]
  intro e typed
  rw [yields_bind]
  intro e' defaulted
  have head : e'.expression.head? = some 't' :=
    head?_withDefault (head?_typeExpression e typed) e' defaulted
  refine yields_pure.mpr ?_
  by_cases filled : isFilled c.jsonPath
  · simp only [IsShown, withJsonPath, if_pos filled]
    exact ⟨_, rfl⟩
  · simp only [IsShown, withJsonPath, if_neg filled]
    rintro ⟨rest, spelled⟩
    have other := congrArg List.head? spelled
    rw [head?_withCodec head] at other
    exact absurd (Option.some.inj other) (by decide)

end Column

namespace Datasource

theorem json_paths_mem_iff {schema engine : Text} {a : Argument} :
    ("json_paths".toList, a) ∈ d.argumentsWith schema engine ↔
      a = .expression "False" ∧ ∀ c ∈ d.columns, c.jsonPath = none := by
  simp only [argumentsWith, List.mem_append, Argument.filled, mem_when]
  cases d.kafka <;> cases d.s3 <;> simp [mem_when, hasJsonPaths, and_comm]

/-- The columns show exactly the paths that say something, the statement that none has a path. The
two agree if and only if no path is empty. -/
theorem statement_jsonPaths (written : d.statement strict = .ok s) :
    ∃ es, Expresses strict d.columns es ∧
      ("schema".toList, Argument.expression (schemaText d.columns es)) ∈ s.arguments ∧
      List.Forall₂ Column.IsShown d.columns es ∧
      (∀ a, ("json_paths".toList, a) ∈ s.arguments ↔
        a = .expression "False" ∧ ∀ c ∈ d.columns, c.jsonPath = none) ∧
      (s.AgreesOnPaths es ↔ ∀ c ∈ d.columns, c.jsonPath ≠ some []) := by
  obtain ⟨uniform, es, engine, expressed, arguments⟩ := statement_eq_ok written
  have shown : List.Forall₂ Column.IsShown d.columns es :=
    expressed.imp fun c e here => Column.isShown_columnExpression e here
  have flag (a : Argument) : ("json_paths".toList, a) ∈ s.arguments ↔
      a = .expression "False" ∧ ∀ c ∈ d.columns, c.jsonPath = none := by
    rw [arguments]
    exact json_paths_mem_iff
  refine ⟨es, expressed, ?_, shown, flag, ?_⟩
  · rw [arguments]
    exact schema_mem_iff.mpr rfl
  obtain ⟨left, right⟩ := exists_of_forall₂ shown
  constructor
  · intro agrees c member empty
    obtain ⟨e, here, isShown⟩ := left c member
    have plain : e.IsPlain := by rwa [Column.IsShown, empty, if_neg (by decide)] at isShown
    rcases agrees with ⟨all, _⟩ | ⟨_, said⟩
    · obtain ⟨path, showsPath⟩ := all e here
      exact showsPath.not_isPlain plain
    · have none := ((flag _).mp said).2 c member
      rw [empty] at none
      cases none
  · intro nonempty
    by_cases none : ∀ c ∈ d.columns, c.jsonPath = none
    · refine Or.inr ⟨fun e here => ?_, (flag _).mpr ⟨rfl, none⟩⟩
      obtain ⟨c, member, isShown⟩ := right e here
      rwa [Column.IsShown, none c member, if_neg (by decide)] at isShown
    · have some := uniform.resolve_left none
      refine Or.inl ⟨fun e here => ?_, fun a said => none ((flag a).mp said).2⟩
      obtain ⟨c, member, isShown⟩ := right e here
      obtain ⟨path, same⟩ := Option.ne_none_iff_exists'.mp (some c member)
      have filled : isFilled c.jsonPath := by
        rw [isFilled, same, Option.getD_some, decide_eq_true_eq]
        exact fun empty => nonempty c member (same.trans (congrArg Option.some empty))
      rw [Column.IsShown, if_pos filled] at isShown
      exact ⟨_, isShown⟩

/-- Two columns with paths. -/
def pathed : Datasource where
  name := "d"
  path := "d.datasource"
  columns := [{ name := "a", type := "String", jsonPath := some "$.a" },
    { name := "b", type := "Int32", jsonPath := some "$.b" }]
  engine := { type := "MergeTree", sortingKey := ["a"] }

theorem statement_jsonPaths_pathed : ∃ s, pathed.statement true = .ok s ∧
    ∃ es, Expresses true pathed.columns es ∧
      ("schema".toList, Argument.expression (schemaText pathed.columns es)) ∈ s.arguments ∧
      List.Forall₂ Column.IsShown pathed.columns es ∧
      (∀ a, ("json_paths".toList, a) ∈ s.arguments ↔
        a = .expression "False" ∧ ∀ c ∈ pathed.columns, c.jsonPath = none) ∧
      (s.AgreesOnPaths es ↔ ∀ c ∈ pathed.columns, c.jsonPath ≠ some []) := by
  obtain ⟨s, written, _⟩ := exists_eq_ok (x := pathed.statement true) (p := fun _ => true)
    (by decide +kernel)
  exact ⟨s, written, statement_jsonPaths written⟩

/-- A column with nothing but a blank behind `json:`. -/
def blankPath : Datafile where
  kind := .datasource
  path := "d.datasource"
  name := "d"
  content := "SCHEMA >\n    a String \x60json: \x60\n\nENGINE \"MergeTree\"\n" ++
    "ENGINE_SORTING_KEY \"a\"\n"

/-- The statement says nothing about paths, and its only column shows none. -/
theorem statement_blankPath : ∃ d s, blankPath.parse true = .ok (.datasource d) ∧
    d.columns = [{ name := "a", type := "String", jsonPath := some [] }] ∧
    d.statement true = .ok s ∧ Expresses true d.columns [{ expression := "t.string()" }] ∧
    ¬ s.AgreesOnPaths [{ expression := "t.string()" }] := by
  obtain ⟨d, s, parsed, written, passed⟩ := blankPath.exists_statement true
    (fun d s => d.columns = [{ name := "a", type := "String", jsonPath := some [] }] &&
      s.arguments.all fun a => a.1 ≠ "json_paths") (by
      unfold blankPath
      repeat rw [String.toList_ofList]
      decide +kernel)
  rw [Bool.and_eq_true, decide_eq_true_eq] at passed
  obtain ⟨columns, silent⟩ := passed
  have expressed : Expresses true d.columns [{ expression := "t.string()" }] := by
    rw [columns]
    exact .cons (by decide +kernel) .nil
  refine ⟨d, s, parsed, columns, written, expressed, ?_⟩
  rintro (⟨all, _⟩ | ⟨_, said⟩)
  · obtain ⟨path, showsPath⟩ := all _ List.mem_cons_self
    have plain : ColumnExpression.IsPlain { expression := "t.string()" } := by decide
    exact showsPath.not_isPlain plain
  · have other := List.all_eq_true.mp silent _ said
    exact of_decide_eq_true other rfl

end Datasource

end DatafileMigration
