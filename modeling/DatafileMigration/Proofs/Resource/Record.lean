import DatafileMigration.Resource.Record

namespace DatafileMigration

namespace Checked

variable {α β γ : Type} {vs ws : List Violation}

/-- A value that stands if it has no violations. -/
def judged (vs : List Violation) (a : α) : Checked α :=
  match vs with
  | [] => ok a
  | vs => ⟨.error vs⟩

@[simp]
theorem seq_judged (f : α → β) (a : α) :
    (judged vs f <*> judged ws a : Checked β) = judged (vs ++ ws) (f a) := by
  cases vs with
  | nil => cases ws <;> rfl
  | cons v vs =>
    cases ws with
    | nil =>
      rw [List.append_nil]
      rfl
    | cons w ws => rfl

@[simp]
theorem map_judged (f : α → β) (a : α) : f <$> judged vs a = judged vs (f a) := by
  cases vs <;> rfl

theorem all_judged {judge : γ → Checked α} {write : α → γ} {items : List α}
    (each : ∀ a, judge (write a) = judged [] a) :
    Checked.all ((items.map write).map judge) = judged [] items := by
  induction items with
  | nil => rfl
  | cons a items ih =>
    rw [List.map_cons, List.map_cons, Checked.all, each, ih, map_judged, seq_judged]
    rfl

end Checked

namespace Record

open Checked

variable {α : Type} {key other : Text} {read : Reader α} {write : α → Literal} {default : α}
  {value : Literal} {r : Record}

theorem field_here : field key read ((key, value) :: r) = read value := by
  simp [field, Literal.find?]

theorem field_there (apart : other ≠ key) :
    field key read ((other, value) :: r) = field key read r := by
  simp [field, Literal.find?, apart]

theorem fieldOr_here : fieldOr key read default ((key, value) :: r) = read value := by
  simp [fieldOr, Literal.find?]

theorem fieldOr_there (apart : other ≠ key) :
    fieldOr key read default ((other, value) :: r) = fieldOr key read default r := by
  simp [fieldOr, Literal.find?, apart]

theorem only_known {known : List Text} (fits : (r.map (·.1)).all known.contains = true) :
    only known r = judged [] () := by
  have each : Checked.all (r.map fun entry =>
      if known.contains entry.1 then Checked.ok () else .fail .unexpectedField) =
        judged [] (r.map fun _ => ()) := by
    induction r with
    | nil => rfl
    | cons entry r ih =>
      simp only [List.map_cons, List.all_cons, Bool.and_eq_true] at fits
      simp only [List.map_cons, Checked.all, if_pos fits.1, ih fits.2]
      rfl
  rw [only, each]
  rfl

/-- A record is read by its fields, if it has no others. -/
theorem nested_dict {known : List Text} {read : Record → Checked α} {vs : List Violation} {a : α}
    (fits : (r.map (·.1)).all known.contains = true) (reads : read r = judged vs a) :
    nested known read (.dict r) = judged vs a := by
  rw [nested, reads, only_known fits, map_judged, seq_judged, List.append_nil]

theorem text_text (t : Text) : Record.text (.text t) = judged [] t := rfl

theorem filled_text (t : Text) : filled (.text t) = judged (emptyTextOf t) t := by
  cases t <;> rfl

theorem nullable_elim {vs : α → List Violation} (solid : ∀ a, write a ≠ .null)
    (reads : ∀ a, read (write a) = judged (vs a) a) (o : Option α) :
    nullable read (o.elim .null write) = judged (o.elim [] vs) o := by
  cases o with
  | none => rfl
  | some a =>
    rw [Option.elim_some, nullable.eq_def]
    split
    · rename_i null
      exact absurd null (solid a)
    · rw [reads, map_judged]
      rfl

theorem nullable_textOrNull (t : Option Text) : nullable text (textOrNull t) = judged [] t := by
  cases t <;> rfl

theorem nullable_choiceOrNull [Choice α] (reads : ∀ a : α, Choice.ofText? (Choice.text a) = some a)
    (o : Option α) : nullable choice (choiceOrNull o) = judged [] o := by
  cases o with
  | none => rfl
  | some a =>
    show some <$> choice (Literal.text (Choice.text a)) = _
    rw [choice, reads]
    rfl

theorem listOf_map (reads : ∀ a, read (write a) = judged [] a) (items : List α) :
    listOf read (.list (items.map write)) = judged [] items := all_judged reads

theorem scalarEntries_map (entries : List (Text × Scalar)) :
    scalarEntries (.dict (entries.map fun (key, x) => (key, .scalar x))) = judged [] entries :=
  all_judged fun _ => rfl

/-- The conditions of a value count only if it has no violations before. -/
theorem ensure_judged (conditions : α → List Violation) (vs : List Violation) (a : α) :
    ensure conditions (judged vs a) = judged (match vs with | [] => conditions a | vs => vs) a := by
  cases vs with
  | nil =>
    show (match conditions a with | [] => Checked.ok a | ws => ⟨.error ws⟩) = _
    cases found : conditions a <;> rfl
  | cons v vs => rfl

end Record

open Checked Record

theorem Column.reader_toRecord (c : Column) : reader c.toRecord = judged [] c := by
  refine nested_dict rfl ?_
  simp (disch := decide) only [field_here, field_there, fieldOr_here, fieldOr_there, text_text,
    nullable_textOrNull, map_judged, seq_judged, List.append_nil]

theorem texts_textList (ts : List Text) : listOf text (textList ts) = judged [] ts :=
  listOf_map text_text ts

theorem Engine.reader_toRecord (e : Engine) : reader e.toRecord = judged [] e := by
  refine nested_dict rfl ?_
  simp (disch := decide) only [field_here, fieldOr_here, fieldOr_there, text_text,
    nullable_textOrNull, texts_textList, scalarEntries_map, map_judged, seq_judged,
    List.append_nil]

theorem KafkaIngestion.reader_toRecord (k : KafkaIngestion) :
    reader k.toRecord = judged (emptyTextOf k.connection ++ emptyTextOf k.topic) k := by
  have reset (o : Option OffsetReset) : nullable choice (choiceOrNull o) = judged [] o :=
    nullable_choiceOrNull (fun a => by cases a <;> rfl) o
  have flag (o : Option Bool) : nullable bool (o.elim .null .bool) = judged [] o := by
    rcases o with _ | _ | _ <;> rfl
  refine nested_dict rfl ?_
  simp (disch := decide) only [field_here, field_there, fieldOr_here, fieldOr_there, filled_text,
    nullable_textOrNull, reset, flag, map_judged, seq_judged, List.append_nil]

theorem S3Ingestion.reader_toRecord (s : S3Ingestion) :
    reader s.toRecord = judged (emptyTextOf s.connection ++ emptyTextOf s.bucketUri) s := by
  refine nested_dict rfl ?_
  simp (disch := decide) only [field_here, field_there, fieldOr_here, fieldOr_there, filled_text,
    nullable_textOrNull, map_judged, seq_judged, List.append_nil]

theorem DatasourceToken.reader_toRecord (t : DatasourceToken) :
    reader t.toRecord = judged [] t := by
  have scope (a : DatasourceScope) : choice (.text (Choice.text a)) = judged [] a := by
    cases a <;> rfl
  refine nested_dict rfl ?_
  simp (disch := decide) only [field_here, field_there, text_text, scope, map_judged, seq_judged,
    List.append_nil]

theorem Node.reader_toRecord (n : Node) : reader n.toRecord = judged [] n := by
  refine nested_dict rfl ?_
  simp (disch := decide) only [field_here, field_there, fieldOr_here, fieldOr_there, text_text,
    nullable_textOrNull, map_judged, seq_judged, List.append_nil]

theorem Parameter.reader_toRecord (p : Parameter) : reader p.toRecord = judged [] p := by
  have required : Record.bool (.bool p.required) = judged [] p.required := by
    cases p.required <;> rfl
  have value (o : Option Scalar) : nullable scalar (o.elim .null .scalar) = judged [] o := by
    cases o <;> rfl
  refine nested_dict rfl ?_
  simp (disch := decide) only [field_here, field_there, fieldOr_here, fieldOr_there, text_text,
    nullable_textOrNull, required, value, map_judged, seq_judged, List.append_nil]

theorem Pipe.tokenReader_tokenRecord (name : Text) :
    tokenReader (tokenRecord name) = judged [] name := by
  have scope : fixed "READ" (.text "READ") = judged [] () := rfl
  refine nested_dict rfl ?_
  simp (disch := decide) only [field_here, fieldOr_here, fieldOr_there, text_text, scope,
    map_judged, seq_judged, List.append_nil]

theorem fixed_text (word : Text) : fixed word (.text word) = judged [] () := by
  rw [fixed, if_pos rfl]
  rfl

theorem Datasource.reader_toRecord (d : Datasource) :
    reader d.toRecord = judged (Resource.datasource d).violations d := by
  have columns : listOf Column.reader (.list (d.columns.map Column.toRecord)) = _ :=
    listOf_map Column.reader_toRecord d.columns
  have tokens : listOf DatasourceToken.reader (.list (d.tokens.map DatasourceToken.toRecord)) = _ :=
    listOf_map DatasourceToken.reader_toRecord d.tokens
  have kafka := nullable_elim (fun k => by simp [KafkaIngestion.toRecord])
    KafkaIngestion.reader_toRecord d.kafka
  have s3 := nullable_elim (fun s => by simp [S3Ingestion.toRecord])
    S3Ingestion.reader_toRecord d.s3
  refine Eq.trans (congrArg (ensure jointViolations) (nested_dict rfl ?_))
    (ensure_judged jointViolations d.fieldViolations d)
  simp (disch := decide) only [field_here, field_there, fieldOr_here, fieldOr_there, text_text,
    filled_text, fixed_text, nullable_textOrNull, texts_textList, columns, tokens, kafka, s3,
    Engine.reader_toRecord, map_judged, seq_judged, List.append_nil]
  rfl

theorem Pipe.reader_toRecord (p : Pipe) :
    reader p.toRecord = judged (Resource.pipe p).violations p := by
  have type : choice (.text (Choice.text p.type)) = judged [] p.type := by
    cases p.type <;> rfl
  have nodes : filledListOf Node.reader (.list (p.nodes.map Node.toRecord)) =
      judged (if p.nodes = [] then [.emptyList] else []) p.nodes := by
    cases p.nodes with
    | nil => rfl
    | cons node nodes => exact listOf_map Node.reader_toRecord (node :: nodes)
  have tokens : listOf tokenReader (.list (p.tokens.map tokenRecord)) = _ :=
    listOf_map tokenReader_tokenRecord p.tokens
  have parameters : listOf Parameter.reader (.list (p.parameters.map Parameter.toRecord)) = _ :=
    listOf_map Parameter.reader_toRecord p.parameters
  have ttl : nullable int (p.cacheTtl.elim .null .int) = judged [] p.cacheTtl := by
    cases p.cacheTtl <;> rfl
  have alter : Option.isSome <$> nullable (fixed "alter")
      (if p.alter then .text "alter" else .null) = judged [] p.alter := by
    cases p.alter <;> rfl
  have mode : nullable choice (choiceOrNull p.copyMode) = judged [] p.copyMode :=
    nullable_choiceOrNull (fun a => by cases a <;> rfl) p.copyMode
  refine Eq.trans (congrArg (ensure jointViolations) (nested_dict rfl ?_))
    (ensure_judged jointViolations p.fieldViolations p)
  simp (disch := decide) only [field_here, field_there, fieldOr_here, fieldOr_there, text_text,
    filled_text, fixed_text, nullable_textOrNull, texts_textList, type, nodes, tokens, parameters,
    ttl, alter, mode, map_judged, seq_judged, List.append_nil]
  rfl

theorem KafkaConnection.reader_toRecord (c : KafkaConnection) :
    reader c.toRecord = judged (Resource.connection (.kafka c)).violations c := by
  have protocol (o : Option SecurityProtocol) : nullable choice (choiceOrNull o) = judged [] o :=
    nullable_choiceOrNull (fun a => by cases a <;> rfl) o
  have mechanism (o : Option SaslMechanism) : nullable choice (choiceOrNull o) = judged [] o :=
    nullable_choiceOrNull (fun a => by cases a <;> rfl) o
  have whole : (Resource.connection (.kafka c)).violations =
      emptyTextOf c.name ++ emptyTextOf c.bootstrapServers := by
    show (match emptyTextOf c.name ++ emptyTextOf c.bootstrapServers with | [] => [] | vs => vs) = _
    split <;> simp [*]
  rw [whole]
  refine nested_dict rfl ?_
  simp (disch := decide) only [field_here, field_there, fieldOr_here, fieldOr_there, text_text,
    filled_text, fixed_text, nullable_textOrNull, protocol, mechanism, map_judged, seq_judged,
    List.append_nil]

theorem S3Connection.reader_toRecord (c : S3Connection) :
    reader c.toRecord = judged (Resource.connection (.s3 c)).violations c := by
  refine Eq.trans (congrArg (ensure _) (nested_dict rfl ?_))
    (ensure_judged _ (Connection.s3 c).fieldViolations c)
  simp (disch := decide) only [field_here, field_there, fieldOr_here, fieldOr_there, text_text,
    filled_text, fixed_text, nullable_textOrNull, map_judged, seq_judged, List.append_nil]
  rfl

/-- The record of a resource is read as this resource, unless it violates conditions; then reading
finds all of these. -/
theorem Resource.ofRecord_toRecord (r : Resource) : ∃ fields, r.toRecord = .dict fields ∧
    ofRecord r.kind fields = match r.violations with | [] => .ok r | vs => .error vs := by
  have mapped {α : Type} (f : α → Resource) (vs : List Violation) (a : α) :
      (judged vs a).result.map f = match vs with | [] => .ok (f a) | vs => .error vs := by
    cases vs <;> rfl
  rcases r with (c | c) | d | p
  · refine ⟨_, rfl, ?_⟩
    rw [← mapped (fun c => .connection (.kafka c)), ← c.reader_toRecord]
    rfl
  · refine ⟨_, rfl, ?_⟩
    rw [← mapped (fun c => .connection (.s3 c)), ← c.reader_toRecord]
    rfl
  · refine ⟨_, rfl, ?_⟩
    rw [← mapped .datasource, ← d.reader_toRecord]
    rfl
  · refine ⟨_, rfl, ?_⟩
    rw [← mapped .pipe, ← p.reader_toRecord]
    rfl

end DatafileMigration
