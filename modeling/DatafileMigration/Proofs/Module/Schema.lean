import DatafileMigration.Grammar.Parse
import DatafileMigration.Module.Datasource
import DatafileMigration.Proofs.Fault.Yields

namespace DatafileMigration

variable {strict : Bool}

/-- A column on its line, with its expression and what did not migrate. -/
def Column.line (c : Column) (e : ColumnExpression) : Text :=
  let notes : Text := if e.notes = [] then [] else "  # " ++ Text.join "; " e.notes
  Layout.indent 2 ++ Layout.entry c.name e.expression ++ "," ++ notes ++ "\n"

theorem Column.schemaLine_eq_ok {c : Column} {line : Text} :
    c.schemaLine strict = .ok line ↔ ∃ e, c.columnExpression strict = .ok e ∧ c.line e = line := by
  rw [schemaLine, bind_eq_ok]
  refine exists_congr fun e => and_congr_right fun _ => ?_
  change Except.ok (c.line e) = Except.ok line ↔ c.line e = line
  rw [Except.ok.injEq]

/-- The expressions of columns, one by one. -/
def Expresses (strict : Bool) : List Column → List ColumnExpression → Prop :=
  List.Forall₂ fun c e => c.columnExpression strict = .ok e

/-- The columns with their expressions, each on its line. -/
def schemaText (columns : List Column) (es : List ColumnExpression) : Text :=
  "\x7b\n" ++ (List.zipWith Column.line columns es).flatten ++ Layout.indent 1 ++ "\x7d"

theorem forall₂_schemaLine {columns : List Column} {lines : List Text}
    (written : List.Forall₂ (fun c line => c.schemaLine strict = .ok line) columns lines) :
    ∃ es, Expresses strict columns es ∧ lines = List.zipWith Column.line columns es := by
  induction written with
  | nil => exact ⟨[], .nil, rfl⟩
  | cons here _ ih =>
    obtain ⟨e, expressed, rfl⟩ := Column.schemaLine_eq_ok.mp here
    obtain ⟨es, all, rfl⟩ := ih
    exact ⟨e :: es, .cons expressed all, rfl⟩

namespace Datasource

variable {d : Datasource} {s : Statement}

/-- The columns have a JSON path all together or not at all. -/
def IsUniform (d : Datasource) : Prop :=
  (∀ c ∈ d.columns, c.jsonPath = none) ∨ ∀ c ∈ d.columns, c.jsonPath ≠ none

theorem mixed_iff : (d.hasJsonPaths && d.columns.any (·.jsonPath.isNone)) = true ↔
    ¬ d.IsUniform := by
  simp [hasJsonPaths, IsUniform, Option.isSome_iff_ne_none]

/-- The arguments of a datasource's statement, with the texts of its schema and its engine. -/
def argumentsWith (d : Datasource) (schema engine : Text) : List (Text × Argument) :=
  Argument.filled "description" d.description
    ++ Argument.when (!d.hasJsonPaths) "json_paths" (.expression "False")
    ++ Argument.when true "schema" (.expression schema)
    ++ Argument.when true "engine" (.expression engine)
    ++ (d.kafka.elim [] fun k => Argument.when true "kafka" k.argument)
    ++ (d.s3.elim [] fun s => Argument.when true "s3" s.argument)
    ++ Argument.when (isFilled d.forwardQuery) "forward_query"
      (.expression (Text.quotedLines (d.forwardQuery.getD [])))
    ++ Argument.when (d.tokens ≠ []) "tokens"
      (.expression (Layout.list 1 (d.tokens.map DatasourceToken.render)))
    ++ Argument.when (d.sharedWith ≠ []) "shared_with" (.expression (renderTexts d.sharedWith))

theorem mem_when {condition : Bool} {key : Text} {a : Argument} {entry : Text × Argument} :
    entry ∈ Argument.when condition key a ↔ condition ∧ entry = (key, a) := by
  cases condition <;> simp [Argument.when]

theorem schema_mem_iff {schema engine : Text} {a : Argument} :
    ("schema".toList, a) ∈ d.argumentsWith schema engine ↔ a = .expression schema := by
  simp only [argumentsWith, List.mem_append, Argument.filled, mem_when]
  cases d.kafka <;> cases d.s3 <;> simp [mem_when]

/-- What a statement tells of the columns it was written from. -/
theorem statement_eq_ok (written : d.statement strict = .ok s) :
    d.IsUniform ∧ ∃ es engine, Expresses strict d.columns es ∧
      s.arguments = d.argumentsWith (schemaText d.columns es) engine := by
  rw [statement] at written
  split at written
  · cases written
  rename_i uniform
  obtain ⟨schema, lines, written⟩ := bind_eq_ok.mp written
  obtain ⟨engine, _, written⟩ := bind_eq_ok.mp written
  obtain ⟨lines, stepped, whole⟩ := bind_eq_ok.mp lines
  obtain ⟨es, expressed, rfl⟩ := forall₂_schemaLine (mapM_eq_ok.mp stepped)
  cases whole
  cases written
  exact ⟨not_not.mp (mixed_iff.not.mp uniform), es, engine, expressed, rfl⟩

end Datasource

/-- A datasource with a statement, which pass a test together. -/
def Resource.hasStatement (strict : Bool) (test : Datasource → Statement → Bool) : Resource → Bool
  | .datasource d => (d.statement strict).toOption.any (test d)
  | _ => false

/-- The datasource of a file and its statement, told from a test. -/
theorem Datafile.exists_statement (file : Datafile) (strict : Bool)
    (test : Datasource → Statement → Bool)
    (passed : (file.parse strict).toOption.any (Resource.hasStatement strict test)) :
    ∃ d s, file.parse strict = .ok (.datasource d) ∧ d.statement strict = .ok s ∧ test d s := by
  obtain ⟨r, parsed, passed⟩ := exists_eq_ok passed
  cases r with
  | datasource d =>
    obtain ⟨s, written, passed⟩ := exists_eq_ok passed
    exact ⟨d, s, parsed, written, passed⟩
  | connection c => cases passed
  | pipe p => cases passed

end DatafileMigration
