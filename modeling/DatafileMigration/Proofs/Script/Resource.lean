import DatafileMigration.Module.Assembly
import DatafileMigration.Proofs.Script.Datasource

namespace DatafileMigration

open Script

variable {strict inside : Bool} {free : Token → Prop} {naming : Naming}

theorem reads_parameterBuilder (type : Text) (required : Bool) (default : Option Scalar) :
    Yields (fun t => Reads inside free t (default.elim [] Scalar.texts))
      (parameterBuilder strict type required default) := by
  have builder : Yields (fun t => Reads inside free t []) (parameterTypeBuilder strict type) := by
    rw [parameterTypeBuilder]
    cases found : parameterBuilders.find? (·.1 = type) with
    | some row =>
      exact yields_ok.mpr (Reads.parameterType (List.mem_of_find?_eq_some found))
    | none =>
      cases strict with
      | true => exact yields_error
      | false => exact yields_ok.mpr (Reads.fixed (w := "p.string()") (by simp [expressions]))
  rw [parameterBuilder, yields_bind]
  intro t typed
  have reads := builder t typed
  cases default with
  | some value =>
    dsimp only
    rw [yields_bind, yields_mapError]
    intro argument rendered
    have literal : Reads true free argument _ := value.reads_render argument rendered
    exact yields_pure.mpr
      (reads.modifiedBy (w := ".optional(") (by simp [modifierOpenings]) literal)
  | none =>
    refine yields_pure.mpr ?_
    split
    · exact reads
    · exact reads.modified (w := ".optional()") (by simp [modifiers])

theorem Node.reads_render (n : Node) : Reads inside free n.render n.texts := by
  have described : ReadsAll true free (if isFilled n.description then
      [Layout.keyword "description" (Text.quoted (n.description.getD []))] else [])
      (filledTexts n.description) := by
    rw [filledTexts]
    split
    · exact .singleton ((Reads.quoted _).keyword (by simp [vocabulary]))
    · exact .nil
  have arguments : ReadsAll true free _ n.texts :=
    .cons ((Reads.quoted n.name).keyword (k := "name") (by simp [vocabulary]))
      (described.append (.singleton ((Reads.quotedLines n.sql).keyword (k := "sql")
        (by simp [vocabulary]))))
  exact arguments.block (c := ')') (.call (f := "node") (by simp [vocabulary])) (by decide) 2

namespace Pipe

variable {p : Pipe}

theorem reads_parametersArgument (p : Pipe) :
    Yields (fun arguments => ArgumentsRead naming free arguments
      (p.parameters.flatMap Parameter.texts)) (p.parametersArgument strict) := by
  rw [parametersArgument]
  split
  · rename_i none
    rw [none]
    exact yields_ok.mpr .nil
  rw [yields_bind]
  intro entries written
  refine yields_pure.mpr (.single (by simp [vocabulary]) (EntriesRead.dict ?_))
  refine ReadsAll.forall₂ (mapM_eq_ok.mp written) fun q entry declared => ?_
  obtain ⟨builder, built, equal⟩ := bind_eq_ok.mp declared
  cases equal
  exact (reads_parameterBuilder q.type q.required q.default builder built).entry

theorem reads_typeArguments (p : Pipe) :
    Yields (fun arguments =>
      (∀ key ∈ arguments.flatMap fun (_, a) => a.identifiers,
        Reads true free (naming key.1 key.2) []) →
      ArgumentsRead naming free arguments p.typeTexts) (p.typeArguments strict) := by
  rw [typeArguments, typeTexts]
  cases p.type with
  | pipe => exact (reads_parametersArgument p).mono fun _ read _ => read
  | endpoint => exact (reads_parametersArgument p).mono fun _ read _ => read
  | materialized =>
    refine yields_ok.mpr fun referred => ?_
    have target : Reads true free (naming .datasource (p.materializedDatasource.getD [])) [] :=
      referred (.datasource, _) List.mem_cons_self
    have alter : Reads true free (Text.quoted "alter") [] :=
      (Reads.quoted _).mono (List.nil_sublist _)
    have whole : ArgumentsRead naming free
        (("datasource", .single (.identifier .datasource (p.materializedDatasource.getD [])))
          :: Argument.when p.alter "deployment_method" (.expression (Text.quoted "alter")))
        ([] ++ []) :=
      .cons (by simp [vocabulary]) target (.flag (by simp [vocabulary]) alter)
    exact whole
  | copy =>
    refine yields_ok.mpr fun referred => ?_
    have target : Reads true free (naming .datasource (p.copyTarget.getD [])) [] :=
      referred (.datasource, _) List.mem_cons_self
    have whole : ArgumentsRead naming free
        (("datasource", .single (.identifier .datasource (p.copyTarget.getD [])))
          :: (Argument.filled "copy_mode" (p.copyMode.map Choice.text)
            ++ Argument.filled "copy_schedule" p.copySchedule))
        ([] ++ (filledTexts (p.copyMode.map Choice.text) ++ filledTexts p.copySchedule)) :=
      .cons (by simp [vocabulary]) target
        (.append (.filled (by simp [vocabulary])) (.filled (by simp [vocabulary])))
    exact whole

theorem reads_endpointExpression (p : Pipe) :
    Reads inside free p.endpointExpression [] := by
  have enabled : Reads true free (Layout.entry "enabled" "True") [] :=
    (Reads.name (w := "True") (by simp [vocabulary])).entry.mono (List.nil_sublist _)
  rw [endpointExpression]
  cases p.cacheTtl with
  | none => exact Reads.name (w := "True") (by simp [vocabulary])
  | some ttl =>
    have kept : Reads true free (Layout.entry "ttl" (Text.ofInt ttl)) [] :=
      (IsNumber.ofInt ttl).reads.entry.mono (List.nil_sublist _)
    have cache : Reads true free (Layout.inlineDict [("enabled", "True"),
        ("ttl", Text.ofInt ttl)]) [] :=
      ReadsAll.inlineDict (.cons enabled (.singleton kept))
    have entry : Reads true free (Layout.entry "cache" _) [] :=
      cache.entry.mono (List.nil_sublist _)
    exact ReadsAll.inlineDict (.cons enabled (.singleton entry))

theorem reads_endpointArguments (p : Pipe) : ArgumentsRead naming free p.endpointArguments
    (if p.type = .endpoint then p.outputColumns else []) := by
  have output : ArgumentsRead naming free (Argument.when
      (p.type = .endpoint && p.outputColumns ≠ []) "output"
      (.dict (p.outputColumns.map fun c => (c, .expression "t.string()"))))
      (if p.type = .endpoint then p.outputColumns else []) := by
    refine .when (by simp [vocabulary]) (fun answers => ?present) fun silent => ?absent
    case present =>
      rw [Bool.and_eq_true, decide_eq_true_eq] at answers
      rw [if_pos answers.1]
      have all : ReadsAll true free (p.outputColumns.map (Layout.entry · "t.string()"))
          (p.outputColumns.flatMap ([·])) :=
        .map fun c _ => (Reads.fixed (by simp [expressions])).entry
      rw [List.flatMap_singleton'] at all
      refine EntriesRead.dict ?_
      rw [EntriesRead, List.map_map]
      exact all
    case absent =>
      split
      · rename_i endpoint
        rw [endpoint, decide_eq_true rfl, Bool.true_and, decide_eq_false_iff_not, not_not] at silent
        exact silent
      · rfl
  have endpoint : ArgumentsRead naming free (Argument.when (p.type = .endpoint) "endpoint"
      (.expression p.endpointExpression)) [] :=
    .flag (by simp [vocabulary]) p.reads_endpointExpression
  exact endpoint.append output

theorem reads_tokensArgument (p : Pipe) :
    ArgumentsRead naming free p.tokensArgument p.tokens := by
  refine .when (by simp [vocabulary]) (fun _ => ?present) fun none => ?absent
  case present =>
    have each : ∀ name ∈ p.tokens, Reads true free
        (Layout.inlineDict [("name", Text.quoted name)]) [name] := by
      intro name _
      have entry : Reads true free (Layout.entry "name" (Text.quoted name)) [name] :=
        (Reads.quoted name).entry.mono (List.sublist_cons_self _ _)
      exact ReadsAll.inlineDict (.singleton entry)
    have all := ReadsAll.map each
    rw [List.flatMap_singleton'] at all
    exact all.block (c := ']') (.fragment (by decide)) (by decide) 1
  case absent =>
    rwa [decide_eq_false_iff_not, not_not] at none

theorem statement_function (p : Pipe) :
    Yields (fun s => s.function = p.type.function) (p.statement strict) :=
  yields_bind.mpr fun _ _ => yields_pure.mpr rfl

/-- So are those of a pipe, if the identifier of its target is. -/
theorem reads_arguments (p : Pipe) :
    Yields (fun s => (∀ key ∈ s.references, Reads true free (naming key.1 key.2) []) →
      ArgumentsRead naming free s.arguments p.texts.tail) (p.statement strict) := by
  rw [statement, yields_bind]
  intro ofType written
  refine yields_pure.mpr fun referred => ?_
  have nodes : Reads true free (Layout.list 1 (p.nodes.map Node.render)) _ :=
    (ReadsAll.map fun n _ => n.reads_render).block (c := ']') (.fragment (by decide)) (by decide) 1
  have typed : ArgumentsRead naming free ofType p.typeTexts := by
    refine p.reads_typeArguments ofType written fun key member => referred key ?_
    obtain ⟨argument, listed, here⟩ := List.mem_flatMap.mp member
    refine List.mem_flatMap.mpr ⟨argument, ?_, here⟩
    exact List.mem_append_left _ (List.mem_append_left _ (List.mem_append_left _
      (List.mem_append_right _ listed)))
  exact .append (.append (.append (.append (.filled (by simp [vocabulary])) typed)
    (.single (k := "nodes") (by simp [vocabulary]) nodes)) p.reads_endpointArguments)
    p.reads_tokensArgument

end Pipe

theorem KafkaConnection.reads_arguments (c : KafkaConnection) :
    ArgumentsRead naming free c.statement.arguments (Connection.kafka c).texts.tail := by
  have servers : Reads true free
      ((Argument.expression (Text.quoted c.bootstrapServers)).render naming)
      [c.bootstrapServers] := Reads.quoted _
  refine .cons (k := "bootstrap_servers") (by simp [vocabulary]) servers ?_
  refine .append (.append (.append (.append (.append ?_ ?_) ?_) ?_) ?_) ?_
  all_goals exact .filled (by simp [vocabulary])

theorem S3Connection.reads_arguments (c : S3Connection) :
    ArgumentsRead naming free c.statement.arguments (Connection.s3 c).texts.tail := by
  have region : Reads true free ((Argument.expression (Text.quoted c.region)).render naming)
      [c.region] := Reads.quoted _
  refine .cons (k := "region") (by simp [vocabulary]) region ?_
  refine .append (.append ?_ ?_) ?_
  all_goals exact .filled (by simp [vocabulary])

theorem Datasource.statement_function (d : Datasource) :
    Yields (fun s => s.function = "define_datasource".toList) (d.statement strict) := by
  refine yields_ite.mpr ⟨fun _ => yields_throw, fun _ => ?_⟩
  exact yields_bind.mpr fun _ _ => yields_bind.mpr fun _ _ => yields_pure.mpr rfl

namespace Resource

/-- A resource whose columns stand on one line each, so that its statement is read even if the
module says in comments what is not migrated. -/
def IsInline : Resource → Prop
  | .datasource d => ∀ c ∈ d.columns, c.IsInline
  | _ => True

theorem texts_eq (r : Resource) : r.texts = r.name :: r.texts.tail := by
  cases r with
  | connection c => cases c <;> rfl
  | datasource d => rfl
  | pipe p => rfl

theorem reads_arguments (r : Resource) (inline : strict ∨ r.IsInline)
    (comments : strict = false → ∀ t, free (.comment t)) :
    Yields (fun s => (∀ key ∈ s.references, Reads true free (naming key.1 key.2) []) →
      ArgumentsRead naming free s.arguments r.texts.tail) (r.statement strict) := by
  cases r with
  | connection c =>
    refine yields_ok.mpr fun _ => ?_
    cases c with
    | kafka c => exact c.reads_arguments
    | s3 c => exact c.reads_arguments
  | datasource d =>
    exact d.reads_arguments (fun c member => inline.imp_right fun all => all c member) comments
  | pipe p => exact p.reads_arguments

theorem statement_function (r : Resource) :
    Yields (fun s => ∃ f ∈ vocabulary, s.function = f.toList) (r.statement strict) := by
  cases r with
  | connection c =>
    refine yields_ok.mpr ?_
    cases c with
    | kafka c => exact ⟨"create_kafka_connection", by simp [vocabulary], rfl⟩
    | s3 c => exact ⟨"create_s3_connection", by simp [vocabulary], rfl⟩
  | datasource d =>
    exact d.statement_function.mono fun s same => ⟨"define_datasource", by simp [vocabulary], same⟩
  | pipe p =>
    refine p.statement_function.mono fun s same => ?_
    rw [same]
    cases p.type with
    | pipe => exact ⟨"define_pipe", by simp [vocabulary], rfl⟩
    | endpoint => exact ⟨"define_pipe", by simp [vocabulary], rfl⟩
    | materialized => exact ⟨"define_materialized_view", by simp [vocabulary], rfl⟩
    | copy => exact ⟨"define_copy_pipe", by simp [vocabulary], rfl⟩

end Resource

end DatafileMigration
