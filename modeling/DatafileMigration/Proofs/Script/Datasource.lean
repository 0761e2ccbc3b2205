import DatafileMigration.Proofs.Script.Column

namespace DatafileMigration

open Script

variable {strict inside : Bool} {free : Token → Prop} {naming : Naming}

namespace Engine

theorem reads_textArgument {k : String} {t : Option Text} (listed : k ∈ vocabulary) :
    ReadsAll inside free (textArgument k t) (filledTexts t) := by
  rw [textArgument, filledTexts]
  split
  · exact .singleton ((Reads.quoted _).keyword listed)
  · exact .nil

theorem reads_listArgument {k : String} {render : List Text → Text} {items : List Text}
    (listed : k ∈ vocabulary) (reads : Reads inside free (render items) items) :
    ReadsAll inside free (listArgument k render items) items := by
  rw [listArgument]
  split
  · rename_i none
    rw [none]
    exact .nil
  · exact .singleton (reads.keyword listed)

theorem entryTexts_scalars (settings : List (Text × Scalar)) :
    Literal.entryTexts (settings.map fun (key, x) => (key, .scalar x)) =
      settings.flatMap fun (key, x) => key :: x.texts := by
  induction settings with
  | nil => rfl
  | cons setting settings ih => exact congrArg (setting.1 :: setting.2.texts ++ ·) ih

theorem reads_settingsArgument (e : Engine) :
    Yields (fun parts => ReadsAll true free parts
      (e.settings.flatMap fun (key, x) => key :: x.texts)) e.settingsArgument := by
  rw [settingsArgument]
  split
  · rename_i none
    rw [none]
    exact yields_ok.mpr .nil
  · rw [← entryTexts_scalars, yields_bind, yields_mapError]
    intro value rendered
    have literal : Reads true free value _ := Literal.reads_render _ value rendered
    exact yields_pure.mpr (.singleton (literal.keyword (k := "settings") (by simp [vocabulary])))

theorem reads_render (e : Engine) :
    Yields (fun t => Reads true free t e.texts) e.render := by
  rw [render]
  cases found : engineFunctions.find? (·.1 = e.type) with
  | none => exact yields_error
  | some row =>
    dsimp only
    rw [yields_bind]
    intro settings rendered
    have listed := List.mem_of_find?_eq_some found
    have keys : Reads true free _ e.sortingKey :=
      (reads_renderKeys e.sortingKey).keyword (k := "sorting_key") (by simp [vocabulary])
    refine yields_pure.mpr ((ReadsAll.cons keys ?_).block (c := ')') (.engine listed) (by decide) 1)
    refine .append ?_ (reads_settingsArgument e settings rendered)
    refine .append ?_ (reads_listArgument (by simp [vocabulary])
      (reads_renderTexts e.summingColumns))
    refine .append ?_ (reads_textArgument (by simp [vocabulary]))
    refine .append ?_ (reads_textArgument (by simp [vocabulary]))
    refine .append ?_ (reads_textArgument (by simp [vocabulary]))
    refine .append ?_ (reads_textArgument (by simp [vocabulary]))
    refine .append ?_ (reads_textArgument (by simp [vocabulary]))
    refine .append ?_ (reads_listArgument (by simp [vocabulary]) (reads_renderKeys e.primaryKey))
    exact reads_textArgument (by simp [vocabulary])

end Engine

theorem KafkaIngestion.reads_argument (k : KafkaIngestion)
    (connection : Reads true free (naming .connection k.connection) []) :
    Reads true free (k.argument.render naming) k.texts := by
  have whole : Reads true free (k.argument.render naming) ([] ++ ([k.topic] ++
      (filledTexts k.groupId ++ filledTexts (k.offsetReset.map Choice.text) ++ []))) := by
    refine EntriesRead.dict (.cons connection (.cons (Reads.quoted k.topic) ?_))
    refine .append (.append .filled .filled) (.flag ?_)
    split <;> exact Reads.name (by simp [vocabulary])
  rw [List.append_nil] at whole
  exact whole

theorem S3Ingestion.reads_argument (s : S3Ingestion)
    (connection : Reads true free (naming .connection s.connection) []) :
    Reads true free (s.argument.render naming) s.texts := by
  have whole : Reads true free (s.argument.render naming) ([] ++ ([s.bucketUri] ++
      (filledTexts s.schedule ++ filledTexts s.fromTimestamp))) :=
    EntriesRead.dict (.cons connection (.cons (Reads.quoted s.bucketUri) (.append .filled .filled)))
  exact whole

theorem DatasourceToken.reads_render (t : DatasourceToken) :
    Reads inside free t.render t.texts := by
  have named : Reads true free (Layout.entry "name" (Text.quoted t.name)) [t.name] :=
    (Reads.quoted t.name).entry.mono (List.sublist_cons_self _ _)
  have allowed : Reads true free (Layout.entry "permissions" (renderTexts [Choice.text t.scope]))
      [Choice.text t.scope] :=
    (reads_renderTexts _).entry.mono (List.sublist_cons_self _ _)
  exact ReadsAll.inlineDict (.cons named (.singleton allowed))

namespace Datasource

variable {d : Datasource}

theorem reads_schemaLines {columns : List Column} {lines : List Text}
    (inline : ∀ c ∈ columns, strict ∨ c.IsInline)
    (comments : strict = false → ∀ t, free (.comment t))
    (written : List.Forall₂ (fun c line => c.schemaLine strict = .ok line) columns lines)
    {t : Text} (behind : Reads true free t []) :
    Reads true free (lines.flatten ++ t) (columns.flatMap Column.texts) := by
  induction written with
  | nil => exact behind
  | @cons c line columns lines here _ ih =>
    obtain ⟨first, rest⟩ := List.forall_mem_cons.mp inline
    rw [List.flatten_cons, List.append_assoc, List.flatMap_cons]
    exact Column.reads_schemaLine first comments (ih rest) line here

theorem reads_schema (inline : ∀ c ∈ d.columns, strict ∨ c.IsInline)
    (comments : strict = false → ∀ t, free (.comment t)) :
    Yields (fun t => Reads true free t (d.columns.flatMap Column.texts)) (d.schema strict) := by
  rw [schema, yields_bind]
  intro lines written
  have inner : Reads true free (lines.flatten ++ _) _ :=
    reads_schemaLines inline comments (mapM_eq_ok.mp written) (Reads.nil.blanks (4 * 1))
  rw [List.append_nil] at inner
  exact yields_pure.mpr (inner.lineFeed.enclose (o := "\x7b") (c := '\x7d')
    (.fragment (by decide)) (by decide))

theorem reads_kafka
    (connection : ∀ k ∈ d.kafka, Reads true free (naming .connection k.connection) []) :
    ArgumentsRead naming free (d.kafka.elim [] fun k => Argument.when true "kafka" k.argument)
      (d.kafka.elim [] KafkaIngestion.texts) := by
  cases here : d.kafka with
  | none => exact .nil
  | some k => exact .single (by simp [vocabulary]) (k.reads_argument (connection k here))

theorem reads_s3
    (connection : ∀ s ∈ d.s3, Reads true free (naming .connection s.connection) []) :
    ArgumentsRead naming free (d.s3.elim [] fun s => Argument.when true "s3" s.argument)
      (d.s3.elim [] S3Ingestion.texts) := by
  cases here : d.s3 with
  | none => exact .nil
  | some s => exact .single (by simp [vocabulary]) (s.reads_argument (connection s here))

theorem reads_forwardQuery (d : Datasource) :
    ArgumentsRead naming free (Argument.when (isFilled d.forwardQuery) "forward_query"
      (.expression (Text.quotedLines (d.forwardQuery.getD [])))) (filledTexts d.forwardQuery) := by
  refine .when (by simp [vocabulary]) (fun some => ?_) fun none => ?_
  · rw [filledTexts, if_pos some]
    exact Reads.quotedLines _
  · rw [filledTexts, if_neg (Bool.eq_false_iff.mp none)]

theorem reads_tokens (d : Datasource) :
    ArgumentsRead naming free (Argument.when (d.tokens ≠ []) "tokens"
      (.expression (Layout.list 1 (d.tokens.map DatasourceToken.render))))
      (d.tokens.flatMap DatasourceToken.texts) := by
  refine .when (by simp [vocabulary]) (fun _ => ?_) fun none => ?_
  · have all : ReadsAll true free (d.tokens.map DatasourceToken.render) _ :=
      .map fun t _ => t.reads_render
    exact all.block (c := ']') (.fragment (by decide)) (by decide) 1
  · rw [decide_eq_false_iff_not, not_not] at none
    rw [none]
    rfl

theorem reads_sharedWith (d : Datasource) :
    ArgumentsRead naming free (Argument.when (d.sharedWith ≠ []) "shared_with"
      (.expression (renderTexts d.sharedWith))) d.sharedWith := by
  refine .when (by simp [vocabulary]) (fun _ => reads_renderTexts _) fun none => ?_
  rwa [decide_eq_false_iff_not, not_not] at none

/-- The arguments of a datasource are read if the identifiers of the connections are, to which its
statement refers. -/
theorem reads_arguments (d : Datasource)
    (inline : ∀ c ∈ d.columns, strict ∨ c.IsInline)
    (comments : strict = false → ∀ t, free (.comment t)) :
    Yields (fun s => (∀ key ∈ s.references, Reads true free (naming key.1 key.2) []) →
      ArgumentsRead naming free s.arguments d.texts.tail) (d.statement strict) := by
  rw [statement]
  split
  · exact yields_error
  rw [yields_bind]
  intro schema written
  rw [yields_bind]
  intro engine rendered
  refine yields_pure.mpr fun referred => ?_
  have kafka : ∀ k ∈ d.kafka, Reads true free (naming .connection k.connection) [] := by
    intro k here
    refine referred (.connection, k.connection)
      (List.mem_flatMap.mpr ⟨("kafka", k.argument), ?_, List.mem_cons_self⟩)
    rw [Option.mem_def.mp here]
    exact List.mem_append_left _ (List.mem_append_left _ (List.mem_append_left _
      (List.mem_append_left _ (List.mem_append_right _ List.mem_cons_self))))
  have s3 : ∀ s ∈ d.s3, Reads true free (naming .connection s.connection) [] := by
    intro s here
    refine referred (.connection, s.connection)
      (List.mem_flatMap.mpr ⟨("s3", s.argument), ?_, List.mem_cons_self⟩)
    rw [Option.mem_def.mp here]
    exact List.mem_append_left _ (List.mem_append_left _ (List.mem_append_left _
      (List.mem_append_right _ List.mem_cons_self)))
  have head : ArgumentsRead naming free (Argument.filled "description" d.description
      ++ Argument.when (!d.hasJsonPaths) "json_paths" (.expression "False")
      ++ Argument.when true "schema" (.expression schema)
      ++ Argument.when true "engine" (.expression engine))
      (filledTexts d.description ++ [] ++ d.columns.flatMap Column.texts ++ d.engine.texts) := by
    have unstructured : Reads true free "False".toList [] := Reads.name (by simp [vocabulary])
    have columns : Reads true free schema _ := reads_schema inline comments schema written
    have stored : Reads true free engine d.engine.texts := d.engine.reads_render engine rendered
    refine .append (.append (.append (.filled (by simp [vocabulary]))
      (.flag (by simp [vocabulary]) unstructured)) ?_) ?_
    · exact .single (by simp [vocabulary]) columns
    · exact .single (by simp [vocabulary]) stored
  rw [List.append_nil] at head
  exact ((((head.append (reads_kafka kafka)).append (reads_s3 s3)).append
    d.reads_forwardQuery).append d.reads_tokens).append d.reads_sharedWith

end Datasource

end DatafileMigration
