import DatafileMigration.Proofs.Grammar.Schemas
import DatafileMigration.Proofs.Script.Entry
import DatafileMigration.Proofs.Text.Lines

namespace DatafileMigration

open Datafile Grammar Script

theorem Script.any_isLineEnd_eq_false {t : Text} (clear : '\n' ∉ t ∧ '\r' ∉ t) :
    t.any isLineEnd = false := by
  rw [List.any_eq_false]
  intro c member ends
  rw [isLineEnd, Bool.or_eq_true, decide_eq_true_eq, decide_eq_true_eq] at ends
  rcases ends with rfl | rfl
  · exact clear.1 member
  · exact clear.2 member

variable {strict strict' : Bool} {file : Datafile} {d : Datasource} {s : Statement} {text : Text}

/-- The columns of a file that was opened as text stand on one line each. -/
theorem Datafile.isInline_columns (opened : file.content = Text.lineFeeds text)
    (parsed : file.parse strict = .ok (.datasource d)) : ∀ c ∈ d.columns, c.IsInline := by
  have absent : '\r' ∉ file.content := by
    rw [opened]
    exact Text.not_mem_lineFeeds text
  intro c member
  obtain ⟨type, default⟩ := file.not_mem_columns parsed (x := '\n') (Or.inl rfl) c member
  obtain ⟨type', default'⟩ := file.not_mem_columns parsed (Or.inr absent) c member
  exact ⟨any_isLineEnd_eq_false ⟨type, type'⟩, fun t valued =>
    any_isLineEnd_eq_false ⟨default t valued, default' t valued⟩⟩

theorem map_fst_of_isEntry {columns : List Column} {entries : List (Text × List Token)}
    (each : List.Forall₂ (Column.IsEntry strict) columns entries) :
    entries.map Prod.fst = columns.map (·.name) := by
  induction each with
  | nil => rfl
  | cons here _ ih => rw [List.map_cons, List.map_cons, here.1, ih]

/-- A statement's schema displays an entry for each column that the file writes, in their order; what
this comes to has under each name the value of its last entry, and has an entry for each column
exactly if all names differ. -/
theorem Datafile.statement_schema (opened : file.content = Text.lineFeeds text)
    (parsed : file.parse strict = .ok (.datasource d)) (written : d.statement strict' = .ok s) :
    readSchema file.schemaLines = .ok d.columns ∧
      ∃ schema entries, (∀ a, ("schema".toList, a) ∈ s.arguments ↔ a = .expression schema) ∧
        (tokensOf? schema).bind dict? = some entries ∧
        List.Forall₂ (Column.IsEntry strict') d.columns entries ∧
        (∀ name, (mapping entries).lookup name = entries.reverse.lookup name) ∧
        (List.Forall₂ (Column.IsEntry strict') d.columns (mapping entries) ↔
          (d.columns.map (·.name)).Nodup) := by
  refine ⟨file.readSchema_schemaLines parsed, ?_⟩
  obtain ⟨_, es, engine, expressed, arguments⟩ := Datasource.statement_eq_ok written
  obtain ⟨entries, displayed, each⟩ :=
    dict?_schemaText (Or.inr (file.isInline_columns opened parsed)) expressed
  have names := map_fst_of_isEntry each
  refine ⟨schemaText d.columns es, entries, fun a => ?_, displayed, each, lookup_mapping entries, ?_⟩
  · rw [arguments]
    exact Datasource.schema_mem_iff
  constructor
  · intro kept
    rw [← map_fst_of_isEntry kept]
    exact nodup_mapping entries
  · intro distinct
    rw [← names] at distinct
    rwa [mapping_of_nodup distinct]

/-- Columns on one line and on two, in two schemas. -/
def scattered : Datafile where
  kind := .datasource
  path := "d.datasource"
  name := "d"
  content := "SCHEMA >\n    a String, b UUID\n    c Int8\nSCHEMA >\n    e Bool\n" ++
    "ENGINE_SORTING_KEY \"a\"\n"

theorem statement_schema_scattered :
    scattered.content = Text.lineFeeds scattered.content ∧ ∃ d s,
      scattered.parse true = .ok (.datasource d) ∧ d.statement true = .ok s ∧
      readSchema scattered.schemaLines = .ok d.columns ∧
      ∃ schema entries, (∀ a, ("schema".toList, a) ∈ s.arguments ↔ a = .expression schema) ∧
        (tokensOf? schema).bind dict? = some entries ∧
        List.Forall₂ (Column.IsEntry true) d.columns entries ∧
        (∀ name, (mapping entries).lookup name = entries.reverse.lookup name) ∧
        (List.Forall₂ (Column.IsEntry true) d.columns (mapping entries) ↔
          (d.columns.map (·.name)).Nodup) := by
  have opened : scattered.content = Text.lineFeeds scattered.content := by decide +kernel
  obtain ⟨d, s, parsed, written, _⟩ := scattered.exists_statement true
    (fun _ _ => true) (by
      unfold scattered
      repeat rw [String.toList_ofList]
      decide +kernel)
  exact ⟨opened, d, s, parsed, written, statement_schema opened parsed written⟩

/-- Two columns of one name. -/
def twins : Datafile where
  kind := .datasource
  path := "d.datasource"
  name := "d"
  content := "SCHEMA >\n    a String, a Int32\n\nENGINE \"MergeTree\"\n" ++
    "ENGINE_SORTING_KEY \"a\"\n"

/-- The schema of these columns. -/
def twinSchema : Text :=
  "\x7b\n        \"a\": t.string(),\n        \"a\": t.int32(),\n    \x7d"

/-- The second column takes the place of the first. -/
theorem statement_schema_twins :
    twins.content = Text.lineFeeds twins.content ∧ ∃ d s entries,
      twins.parse true = .ok (.datasource d) ∧ d.columns.length = 2 ∧
      d.statement true = .ok s ∧ ("schema".toList, Argument.expression twinSchema) ∈ s.arguments ∧
      (tokensOf? twinSchema).bind dict? = some entries ∧
      mapping entries = [("a".toList, typeCall "int32" [])] ∧
      ¬ List.Forall₂ (Column.IsEntry true) d.columns (mapping entries) := by
  obtain ⟨d, s, parsed, written, passed⟩ := twins.exists_statement true
    (fun d s => d.columns.length = 2 &&
      decide (("schema".toList, Argument.expression twinSchema) ∈ s.arguments)) (by
      unfold twins twinSchema
      repeat rw [String.toList_ofList]
      decide +kernel)
  rw [Bool.and_eq_true, decide_eq_true_eq, decide_eq_true_eq] at passed
  obtain ⟨two, stands⟩ := passed
  have displayed : (tokensOf? twinSchema).bind dict? =
      some [("a".toList, typeCall "string" []), ("a".toList, typeCall "int32" [])] := by
    decide +kernel
  refine ⟨by decide +kernel, d, s, _, parsed, two, written, stands, displayed, rfl, fun kept => ?_⟩
  have one : d.columns.length = 1 := kept.length_eq
  omega

end DatafileMigration
