import DatafileMigration.Proofs.Script.Call
import DatafileMigration.Proofs.Script.Resource

namespace DatafileMigration

open Script

variable {strict closed : Bool} {naming : Naming}

namespace Column

variable {c : Column}

/-- The names that a column uses. -/
def names (c : Column) : List Text := "t" :: if isFilled c.jsonPath then ["column"] else []

theorem mem_names {w : Text} :
    w ∈ c.names ↔ w = "t".toList ∨ isFilled c.jsonPath ∧ w = "column".toList := by
  rw [names, List.mem_cons, List.mem_ite_nil_right, List.mem_singleton]

/-- Columns use `t`, and `column` if one of them has a path. -/
theorem mem_flatMap_names {columns : List Column} (some : columns ≠ []) {w : Text} :
    w ∈ columns.flatMap names ↔
      w = "t".toList ∨ columns.any (isFilled ·.jsonPath) ∧ w = "column".toList := by
  obtain ⟨c, member⟩ := List.exists_mem_of_ne_nil columns some
  simp only [List.mem_flatMap, List.any_eq_true, mem_names]
  constructor
  · rintro ⟨c, member, rfl | ⟨path, rfl⟩⟩
    · exact Or.inl rfl
    · exact Or.inr ⟨⟨c, member, path⟩, rfl⟩
  · rintro (rfl | ⟨⟨c, member, path⟩, rfl⟩)
    · exact ⟨c, member, Or.inl rfl⟩
    · exact ⟨c, member, Or.inr ⟨path, rfl⟩⟩

theorem uses_typeExpression (c : Column) :
    Yields (fun e => Uses true e.expression ["t"]) (c.typeExpression strict) := by
  have typed (type : ColumnType) (digits : ∀ n ∈ type.digits, n.IsDigits) :
      Uses true type.builder ["t"] := by
    have forms := type.forms_builder
    refine ⟨type.tokens, forms.spells digits true, forms.passes false, ?_⟩
    rw [code_of_known (forms.holds digits _)]
    exact heads_tokens type
  rw [typeExpression, columnBuilder]
  cases read : ColumnType.read c.type with
  | ok type => exact yields_ok.mpr (typed type (ColumnType.isDigits_of_read c.type type read))
  | error unsupported =>
    cases strict with
    | true => exact yields_error
    | false => exact yields_ok.mpr (typed (.simple .string) (List.forall_mem_nil _))

end Column

namespace Script

/-- A function of an object, written with its parenthesis at once. -/
theorem Uses.modified {t opening f : Text} {items names others : List Text}
    (object : Uses true t names) (word : IsWord f) (spelled : opening = "." ++ f ++ "(")
    (all : UsesAll items others) :
    Uses true (t ++ opening ++ Text.join ", " items ++ ")") (names ++ others) := by
  have called : Uses true (t ++ "." ++ f ++ "(" ++ Text.join ", " items ++ ")") (names ++ others) :=
    (object.select word).call all
  have joined : t ++ opening = t ++ "." ++ f ++ "(" := by
    rw [spelled, ← List.append_assoc, ← List.append_assoc]
  rw [joined]
  exact called

end Script

namespace Column

variable {c : Column}

theorem uses_withDefault {e : ColumnExpression} (uses : Uses true e.expression ["t"]) :
    Yields (fun e => Uses true e.expression ["t"]) (c.withDefault strict e) := by
  have noted (notes : List Text) (cause : RenderError) :
      Yields (fun e => Uses true e.expression ["t"])
        (if strict then .error (.refused cause : Fault RenderError)
          else .ok { e with notes := notes }) := by
    cases strict with
    | true => exact yields_error
    | false => exact yields_ok.mpr uses
  rw [withDefault]
  cases here : c.default with
  | none => exact yields_ok.mpr uses
  | some default =>
    dsimp only
    rw [columnDefault]
    cases valued : defaultValue c.type default c.name with
    | error fault =>
      cases fault with
      | refused cause => exact noted _ cause
      | broken why => exact yields_error
    | ok value =>
      dsimp only [bind, Except.bind]
      cases rendered : value.render with
      | error e => exact noted _ (.ofNotFinite e)
      | ok t =>
        exact yields_ok.mpr (uses.modified (f := "default") (by decide) (by decide)
          (.single (value.uses_render t rendered)))

theorem uses_withCodec {t : Text} (uses : Uses true t ["t"]) :
    Uses true (c.withCodec t) ["t"] := by
  rw [withCodec]
  split
  · exact uses.modified (f := "codec") (by decide) (by decide) (.single (Uses.quoted _))
  · exact uses

theorem uses_withJsonPath {t : Text} (uses : Uses true t ["t"]) :
    Uses true (c.withJsonPath t) c.names := by
  rw [withJsonPath, names]
  split
  · have path : Uses false (Layout.keyword "json_path" (Text.quoted (c.jsonPath.getD []))) [] :=
      Uses.keyword (.listed (by simp [vocabulary])) (.quoted _)
    have column : UsesCalled "column" ["column"] := .word (by decide +kernel)
    have called : Uses true ("column" ++ "(" ++ Text.join ", "
        [t, Layout.keyword "json_path" (Text.quoted (c.jsonPath.getD []))] ++ ")")
        ["column", "t"] := column.call (.cons uses.mono (.single path))
    have spelled : "column(" ++ t ++ ", json_path=" ++ Text.quoted (c.jsonPath.getD []) ++ ")" =
        "column" ++ "(" ++ Text.join ", "
          [t, Layout.keyword "json_path" (Text.quoted (c.jsonPath.getD []))] ++ ")" := by
      simp only [Text.join, Layout.keyword, List.append_assoc]
      rfl
    rw [spelled]
    exact called.congr fun w => List.Perm.mem_iff (.swap _ _ [])
  · exact uses

theorem uses_columnExpression (c : Column) :
    Yields (fun e => Uses true e.expression c.names) (c.columnExpression strict) := by
  rw [columnExpression, yields_bind]
  intro e typed
  rw [yields_bind]
  intro e' defaulted
  have uses := uses_withDefault (uses_typeExpression c e typed) e' defaulted
  exact yields_pure.mpr (uses_withJsonPath (uses_withCodec uses))

/-- The entry of a column adds the names of the column. -/
theorem heads_entry {entry : Text × List Token} (inline : strict ∨ c.IsInline)
    (isEntry : c.IsEntry strict entry) :
    Heads false (.string entry.1 :: .mark ':' :: entry.2) c.names := by
  obtain ⟨_, e, expressed, read⟩ := isEntry
  obtain ⟨tokens, spells, _, adds⟩ := c.uses_columnExpression e expressed
  obtain ⟨others, spells', _, plain⟩ := c.exists_tokens_columnExpression inline expressed
  rw [spells.tokensOf?, Option.some.injEq] at read
  have same := spells.tokensOf?.symm.trans spells'.tokensOf?
  rw [Option.some.injEq] at same
  subst same
  rw [code, plain, read] at adds
  exact (Heads.string entry.1).append (c := ':') (by decide) adds.mono

end Column

namespace Datasource

variable {d : Datasource}

theorem heads_entries {columns : List Column} {entries : List (Text × List Token)}
    (inline : strict ∨ ∀ c ∈ columns, c.IsInline)
    (each : List.Forall₂ (Column.IsEntry strict) columns entries) :
    Heads false (entries.flatMap entryTokens) (columns.flatMap Column.names) := by
  induction each with
  | nil => exact Heads.nil.mono
  | @cons c entry columns entries here _ ih =>
    have first := Column.heads_entry (inline.imp_right fun all => all c List.mem_cons_self) here
    have rest := ih (inline.imp_right fun all => (List.forall_mem_cons.mp all).2)
    rw [List.flatMap_cons, List.flatMap_cons, entryTokens, List.append_assoc, List.singleton_append]
    exact first.separated (by decide) rest

theorem uses_schema (inline : strict ∨ ∀ c ∈ d.columns, c.IsInline) :
    Yields (fun t => Uses false t (d.columns.flatMap Column.names)) (d.schema strict) := by
  rw [schema, yields_bind]
  intro lines written
  obtain ⟨es, expressed, rfl⟩ := forall₂_schemaLine (mapM_eq_ok.mp written)
  obtain ⟨entries, inside, tokens, each, _, spelled, spells, plain⟩ :=
    spells_schemaText inline expressed
  have adds := heads_entries inline each
  rw [← plain] at adds
  have uses : Uses false (schemaText d.columns es) (d.columns.flatMap Column.names) := by
    rw [spelled]
    exact Uses.enclosed (o := '\x7b') rfl spells adds
  exact yields_pure.mpr uses

end Datasource

namespace Engine

theorem uses_textArgument {k : String} (listed : k ∈ vocabulary) (t : Option Text) :
    ∀ part ∈ textArgument k t, Uses false part [] := by
  rw [textArgument]
  split
  · exact List.forall_mem_singleton.mpr ((Uses.quoted _).keyword (.listed listed))
  · exact List.forall_mem_nil _

theorem uses_listArgument {k : String} (listed : k ∈ vocabulary) {render : List Text → Text}
    {items : List Text} (uses : Uses false (render items) []) :
    ∀ part ∈ listArgument k render items, Uses false part [] := by
  rw [listArgument]
  split
  · exact List.forall_mem_nil _
  · exact List.forall_mem_singleton.mpr (uses.keyword (.listed listed))

theorem uses_settingsArgument (e : Engine) :
    Yields (fun parts => ∀ part ∈ parts, Uses false part []) e.settingsArgument := by
  rw [settingsArgument]
  split
  · exact yields_ok.mpr (List.forall_mem_nil _)
  · rw [yields_bind, yields_mapError]
    intro value rendered
    have literal := Literal.uses_render _ value rendered
    exact yields_pure.mpr (List.forall_mem_singleton.mpr
      (literal.keyword (.listed (by simp [vocabulary]))))

theorem uses_render (e : Engine) : Yields (fun t => Uses false t ["engine"]) e.render := by
  have words : ∀ row ∈ engineFunctions, IsWord row.2 := by decide +kernel
  rw [render]
  cases found : engineFunctions.find? (·.1 = e.type) with
  | none => exact yields_error
  | some row =>
    dsimp only
    rw [yields_bind]
    intro settings rendered
    have function : UsesCalled ("engine" ++ "." ++ row.2) ["engine"] :=
      .select (by decide +kernel) (words row (List.mem_of_find?_eq_some found))
    refine yields_pure.mpr (function.silentBlock ?_ 1)
    refine List.forall_mem_cons.mpr
      ⟨(uses_renderKeys _).keyword (.listed (by simp [vocabulary])), ?_⟩
    simp only [List.forall_mem_append]
    refine ⟨⟨⟨⟨⟨⟨⟨⟨?_, ?_⟩, ?_⟩, ?_⟩, ?_⟩, ?_⟩, ?_⟩, ?_⟩,
      uses_settingsArgument e settings rendered⟩
    · exact uses_textArgument (by simp [vocabulary]) _
    · exact uses_listArgument (by simp [vocabulary]) (uses_renderKeys _)
    · exact uses_textArgument (by simp [vocabulary]) _
    · exact uses_textArgument (by simp [vocabulary]) _
    · exact uses_textArgument (by simp [vocabulary]) _
    · exact uses_textArgument (by simp [vocabulary]) _
    · exact uses_textArgument (by simp [vocabulary]) _
    · exact uses_listArgument (by simp [vocabulary]) (uses_renderTexts _)

end Engine

theorem mem_flatMap_const {α β : Type} {items : List α} {names : List β} (some : items ≠ [])
    {b : β} : b ∈ items.flatMap (fun _ => names) ↔ b ∈ names := by
  obtain ⟨a, member⟩ := List.exists_mem_of_ne_nil items some
  rw [List.mem_flatMap]
  exact ⟨fun ⟨_, _, found⟩ => found, fun found => ⟨a, member, found⟩⟩

/-- A dictionary uses the names that each of its entries uses. -/
theorem Argument.uses_dict {entries : List (Text × Operand)} {names : List Text}
    (each : ∀ entry ∈ entries, Uses false (entry.2.render naming) names)
    (some : names = [] ∨ entries ≠ []) :
    Uses closed ((Argument.dict entries).render naming) names := by
  have all : UsesAll (entries.map fun entry => Layout.entry entry.1 (entry.2.render naming))
      (entries.flatMap fun _ => names) := .map fun entry member => (each entry member).entry entry.1
  rw [Argument.render, Layout.dict, List.map_map]
  refine (Uses.block (o := '\x7b') all rfl 1).congr fun w => ?_
  rcases some with rfl | some
  · rw [List.flatMap_eq_nil_iff.mpr fun _ _ => rfl]
  · exact mem_flatMap_const some

theorem Operand.uses_filled (key : Text) (t : Option Text) :
    ∀ entry ∈ Operand.filled key t, Uses false (entry.2.render naming) [] := by
  rw [filled, when]
  split
  · exact List.forall_mem_singleton.mpr (Uses.quoted _)
  · exact List.forall_mem_nil _

theorem KafkaIngestion.uses_argument (words : IsWordly naming) (k : KafkaIngestion) :
    Uses closed (k.argument.render naming) [] := by
  refine Argument.uses_dict ?_ (Or.inl rfl)
  refine List.forall_mem_cons.mpr ⟨Uses.word (words _ _), List.forall_mem_cons.mpr
    ⟨Uses.quoted _, ?_⟩⟩
  simp only [List.forall_mem_append]
  refine ⟨⟨Operand.uses_filled _ _, Operand.uses_filled _ _⟩, ?_⟩
  rw [Operand.when]
  split
  · have values : Uses false "True".toList [] ∧ Uses false "False".toList [] :=
      ⟨Uses.word (by decide), Uses.word (by decide)⟩
    refine List.forall_mem_singleton.mpr ?_
    split
    · exact values.1
    · exact values.2
  · exact List.forall_mem_nil _

theorem S3Ingestion.uses_argument (words : IsWordly naming) (s : S3Ingestion) :
    Uses closed (s.argument.render naming) [] := by
  refine Argument.uses_dict ?_ (Or.inl rfl)
  refine List.forall_mem_cons.mpr ⟨Uses.word (words _ _), List.forall_mem_cons.mpr
    ⟨Uses.quoted _, ?_⟩⟩
  exact List.forall_mem_append.mpr ⟨Operand.uses_filled _ _, Operand.uses_filled _ _⟩

theorem DatasourceToken.uses_render (t : DatasourceToken) : Uses closed t.render [] :=
  Uses.inlineDict (.silent (List.forall_mem_cons.mpr ⟨(Uses.quoted _).entry _,
    List.forall_mem_singleton.mpr ((uses_renderTexts _).entry _)⟩))

theorem Datasource.uses_arguments (words : IsWordly naming) (d : Datasource)
    (inline : strict ∨ ∀ c ∈ d.columns, c.IsInline) :
    Yields (fun s => ArgumentsUse naming s.arguments
      (d.columns.flatMap Column.names ++ ["engine".toList])) (d.statement strict) := by
  rw [statement]
  split
  · exact yields_error
  rw [yields_bind]
  intro schema written
  rw [yields_bind]
  intro engine rendered
  have columns : Uses false ((Argument.expression schema).render naming) _ :=
    uses_schema inline schema written
  have stored : Uses false ((Argument.expression engine).render naming) _ :=
    d.engine.uses_render engine rendered
  have kafka : ArgumentsUse naming (d.kafka.elim [] fun k => Argument.when true "kafka" k.argument)
      [] := by
    cases d.kafka with
    | none => exact .nil
    | some k => exact .single (by simp [vocabulary]) (k.uses_argument words)
  have s3 : ArgumentsUse naming (d.s3.elim [] fun s => Argument.when true "s3" s.argument) [] := by
    cases d.s3 with
    | none => exact .nil
    | some s => exact .single (by simp [vocabulary]) (s.uses_argument words)
  have unmapped : Uses false ((Argument.expression "False").render naming) [] :=
    Uses.word (w := "False") (by decide)
  have forwarded : Uses false
      ((Argument.expression (Text.quotedLines (d.forwardQuery.getD []))).render naming) [] :=
    .quotedLines _
  have tokens : Uses false
      ((Argument.expression (Layout.list 1 (d.tokens.map DatasourceToken.render))).render naming)
      [] := .list (.silent (List.forall_mem_map.mpr fun t _ => t.uses_render)) 1
  have shared : Uses false ((Argument.expression (renderTexts d.sharedWith)).render naming) [] :=
    uses_renderTexts _
  have used : d.columns.flatMap Column.names ++ ["engine".toList] =
      [] ++ [] ++ d.columns.flatMap Column.names ++ ["engine".toList] ++ [] ++ [] ++ [] ++ []
        ++ [] := by
    simp only [List.nil_append, List.append_nil]
  refine yields_pure.mpr ?_
  rw [used]
  exact .append (.append (.append (.append (.append (.append (.append (.append
    (.filled (by simp [vocabulary]) _) (.flag (by simp [vocabulary]) unmapped))
    (.single (k := "schema") (by simp [vocabulary]) columns))
    (.single (k := "engine") (by simp [vocabulary]) stored))
    kafka) s3) (.flag (by simp [vocabulary]) forwarded)) (.flag (by simp [vocabulary]) tokens))
    (.flag (by simp [vocabulary]) shared)

theorem uses_parameterTypeBuilder (type : Text) :
    Yields (fun t => Uses true t ["p"]) (parameterTypeBuilder strict type) := by
  have simple {f : Text} (word : IsWord f) : Uses true ("p" ++ "." ++ f ++ "(" ++ ")") ["p"] :=
    (UsesCalled.select (w := "p") (by decide +kernel) word).nullary
  have array : Uses true "p.array(p.string())".toList ["p"] := by
    have item : Uses false "p.string()".toList ["p"] := (simple (f := "string") (by decide)).mono
    have function : UsesCalled ("p" ++ "." ++ "array") ["p"] :=
      .select (by decide +kernel) (by decide)
    have called : Uses true ("p" ++ "." ++ "array" ++ "(" ++ Text.join ", " ["p.string()"] ++ ")")
        (["p"] ++ ["p"]) := function.call (.single item)
    have spelled : "p.array(p.string())".toList =
        "p" ++ "." ++ "array" ++ "(" ++ Text.join ", " ["p.string()".toList] ++ ")" := by decide
    rw [spelled]
    exact called.congr (by simp)
  have rows : ∀ row ∈ parameterBuilders, row.2 = "p.array(p.string())" ∨
      IsWord ((row.2.drop 2).takeWhile Text.isWordChar) ∧
        row.2 = "p" ++ "." ++ (row.2.drop 2).takeWhile Text.isWordChar ++ "(" ++ ")" := by
    decide +kernel
  rw [parameterTypeBuilder]
  cases found : parameterBuilders.find? (·.1 = type) with
  | some row =>
    refine yields_ok.mpr ?_
    rcases rows row (List.mem_of_find?_eq_some found) with here | ⟨word, spelled⟩
    · rw [here]
      exact array
    · rw [spelled]
      exact simple word
  | none =>
    cases strict with
    | true => exact yields_error
    | false => exact yields_ok.mpr (simple (f := "string") (by decide))

theorem uses_parameterBuilder (type : Text) (required : Bool) (default : Option Scalar) :
    Yields (fun t => Uses true t ["p"]) (parameterBuilder strict type required default) := by
  rw [parameterBuilder, yields_bind]
  intro t typed
  have uses : Uses true t ["p"] := uses_parameterTypeBuilder type t typed
  cases default with
  | some value =>
    dsimp only
    rw [yields_bind, yields_mapError]
    intro argument rendered
    exact yields_pure.mpr (uses.modified (f := "optional") (by decide) (by decide)
      (.single (value.uses_render argument rendered)))
  | none =>
    refine yields_pure.mpr ?_
    split
    · exact uses
    · have spelled : (".optional(" : Text) = "." ++ "optional" ++ "(" := rfl
      have called := uses.modified (by decide) spelled .nil
      rw [List.append_assoc, List.append_assoc] at called
      exact called

/-- The arguments of a node, which depend on no identifiers. -/
def Node.arguments (n : Node) : List (Text × Argument) :=
  ("name".toList, .expression (Text.quoted n.name)) ::
    (Argument.filled "description" n.description
      ++ [("sql".toList, .expression (Text.quotedLines n.sql))])

theorem Node.render_eq (n : Node) (naming : Naming) : n.render = Layout.call 2 "node"
    (n.arguments.map fun (k, a) => Layout.keyword k (a.render naming)) := by
  rw [render, arguments, List.map_cons, List.map_append, Argument.filled, Argument.when]
  split <;> rfl

theorem Node.uses_arguments (n : Node) : ArgumentsUse naming n.arguments [] := by
  have name : Uses false ((Argument.expression (Text.quoted n.name)).render naming) [] :=
    .quoted _
  have sql : Uses false ((Argument.expression (Text.quotedLines n.sql)).render naming) [] :=
    .quotedLines _
  suffices whole : ArgumentsUse naming n.arguments ([] ++ ([] ++ [])) from whole
  exact .cons (.listed (by simp [vocabulary])) name
    ((ArgumentsUse.filled (by simp [vocabulary]) _).append (.single (by simp [vocabulary]) sql))

theorem Node.uses_render (n : Node) : Uses closed n.render ["node"] := by
  rw [n.render_eq fun _ _ => []]
  exact (UsesCalled.word (f := "node") (by decide +kernel)).block n.uses_arguments.usesAll 2

namespace Pipe

variable {p : Pipe}

theorem uses_parametersArgument (p : Pipe) :
    Yields (fun arguments => ArgumentsUse naming arguments
      (if p.parameters ≠ [] then ["p"] else [])) (p.parametersArgument strict) := by
  rw [parametersArgument]
  by_cases silent : p.parameters = []
  · rw [if_pos silent, if_neg (not_not_intro silent)]
    exact yields_ok.mpr .nil
  rw [if_neg silent, if_pos silent, yields_bind]
  intro entries written
  have built : ∀ entry ∈ entries, Uses false (entry.2.render naming) ["p"] := by
    refine yields_mapM (fun q _ => ?_) entries written
    rw [yields_bind]
    exact fun builder built => yields_pure.mpr
      (uses_parameterBuilder q.type q.required q.default builder built).mono
  have some : entries ≠ [] := by
    rw [← List.length_pos_iff, ← (mapM_eq_ok.mp written).length_eq]
    exact List.length_pos_iff.mpr silent
  exact yields_pure.mpr (.single (by simp [vocabulary]) (Argument.uses_dict built (Or.inr some)))

theorem uses_typeArguments (words : IsWordly naming) (p : Pipe) :
    Yields (fun arguments => ArgumentsUse naming arguments
      (if p.parameters ≠ [] && p.type.takesParameters then ["p"] else []))
      (p.typeArguments strict) := by
  have target (name : Text) : Uses false
      ((Argument.single (.identifier .datasource name)).render naming) [] := .word (words _ _)
  have alter : Uses false ((Argument.expression (Text.quoted "alter")).render naming) [] :=
    .quoted _
  rw [typeArguments]
  cases p.type with
  | pipe | endpoint =>
    rw [PipeType.takesParameters, Bool.and_true]
    simp only [decide_eq_true_eq]
    exact p.uses_parametersArgument
  | materialized =>
    rw [PipeType.takesParameters, Bool.and_false]
    exact yields_ok.mpr (.cons (.listed (by simp [vocabulary])) (target _)
      (.flag (by simp [vocabulary]) alter))
  | copy =>
    rw [PipeType.takesParameters, Bool.and_false]
    exact yields_ok.mpr (.cons (.listed (by simp [vocabulary])) (target _)
      ((ArgumentsUse.filled (by simp [vocabulary]) _).append (.filled (by simp [vocabulary]) _)))

theorem uses_endpointExpression (p : Pipe) : Uses false p.endpointExpression [] := by
  have enabled : Uses false "True".toList [] := .word (by decide)
  rw [endpointExpression]
  cases p.cacheTtl with
  | none => exact enabled
  | some ttl =>
    have cache : Uses false (Layout.inlineDict [("enabled", "True"), ("ttl", Text.ofInt ttl)]) [] :=
      Uses.inlineDict (.silent (List.forall_mem_cons.mpr ⟨enabled.entry _,
        List.forall_mem_singleton.mpr ((IsNumber.ofInt ttl).uses.entry _)⟩))
    exact Uses.inlineDict (.silent (List.forall_mem_cons.mpr ⟨enabled.entry _,
      List.forall_mem_singleton.mpr (cache.entry _)⟩))

theorem uses_endpointArguments (p : Pipe) : ArgumentsUse naming p.endpointArguments
    (if p.type = .endpoint && p.outputColumns ≠ [] then ["t"] else []) := by
  have text : Uses false "t.string()".toList ["t"] :=
    (UsesCalled.select (w := "t") (f := "string") (by decide +kernel) (by decide)).nullary
  have endpoint : Uses false ((Argument.expression p.endpointExpression).render naming) [] :=
    p.uses_endpointExpression
  refine (ArgumentsUse.flag (by simp [vocabulary]) endpoint).append
    (.when (by simp [vocabulary]) fun answers => ?_)
  rw [Bool.and_eq_true, decide_eq_true_eq, decide_eq_true_eq] at answers
  have columns : ∀ entry ∈ p.outputColumns.map fun c => (c, Operand.expression "t.string()"),
      Uses false (entry.2.render naming) ["t"] := List.forall_mem_map.mpr fun _ _ => text
  exact Argument.uses_dict columns (Or.inr (List.map_eq_nil_iff.not.mpr answers.2))

theorem uses_tokensArgument (p : Pipe) : ArgumentsUse naming p.tokensArgument [] := by
  have token (name : Text) : Uses false (Layout.inlineDict [("name", Text.quoted name)]) [] :=
    Uses.inlineDict (.single ((Uses.quoted name).entry "name"))
  have tokens : Uses false ((Argument.expression (Layout.list 1 (p.tokens.map fun name =>
      Layout.inlineDict [("name", Text.quoted name)]))).render naming) [] :=
    .list (.silent (List.forall_mem_map.mpr fun name _ => token name)) 1
  exact .flag (by simp [vocabulary]) tokens

/-- The names that the arguments of a pipe use. -/
def names (p : Pipe) : List Text :=
  let ofParameters : List Text :=
    if p.parameters ≠ [] && p.type.takesParameters then ["p"] else []
  let ofNodes : List Text := p.nodes.flatMap fun _ => ["node"]
  let ofOutput : List Text := if p.type = .endpoint && p.outputColumns ≠ [] then ["t"] else []
  ofParameters ++ ofNodes ++ ofOutput

theorem uses_arguments (words : IsWordly naming) (p : Pipe) :
    Yields (fun s => ArgumentsUse naming s.arguments p.names) (p.statement strict) := by
  rw [statement, yields_bind]
  intro ofType written
  have typed : ArgumentsUse naming ofType _ := p.uses_typeArguments words ofType written
  have nodes : Uses false ((Argument.expression (Layout.list 1 (p.nodes.map Node.render))).render
      naming) (p.nodes.flatMap fun _ => ["node"]) := .list (.map fun n _ => n.uses_render) 1
  have described : ArgumentsUse naming (Argument.filled "description" p.description) [] :=
    .filled (by simp [vocabulary]) _
  have whole := (((described.append typed).append
    (.single (k := "nodes") (by simp [vocabulary]) nodes)).append p.uses_endpointArguments).append
    p.uses_tokensArgument
  rw [List.append_nil, List.nil_append] at whole
  exact yields_pure.mpr whole

end Pipe

theorem KafkaConnection.uses_arguments (c : KafkaConnection) :
    ArgumentsUse naming c.statement.arguments [] := by
  have servers : Uses false
      ((Argument.expression (Text.quoted c.bootstrapServers)).render naming) [] := .quoted _
  suffices whole : ArgumentsUse naming c.statement.arguments
      ([] ++ ([] ++ [] ++ [] ++ [] ++ [] ++ [])) from whole
  refine .cons (.listed (by simp [vocabulary])) servers ?_
  refine .append (.append (.append (.append (.append ?_ ?_) ?_) ?_) ?_) ?_
  all_goals exact .filled (by simp [vocabulary]) _

theorem S3Connection.uses_arguments (c : S3Connection) :
    ArgumentsUse naming c.statement.arguments [] := by
  have region : Uses false
      ((Argument.expression (Text.quoted c.region)).render naming) [] := .quoted _
  suffices whole : ArgumentsUse naming c.statement.arguments ([] ++ ([] ++ [] ++ [])) from whole
  refine .cons (.listed (by simp [vocabulary])) region ?_
  refine .append (.append ?_ ?_) ?_
  all_goals exact .filled (by simp [vocabulary]) _

theorem Connection.uses_arguments (c : Connection) :
    ArgumentsUse naming c.statement.arguments [] := by
  cases c with
  | kafka c => exact c.uses_arguments
  | s3 c => exact c.uses_arguments

namespace Resource

/-- A datasource with columns, a pipe with nodes, or a connection. -/
def IsWhole : Resource → Prop
  | .connection _ => True
  | .datasource d => d.columns ≠ []
  | .pipe p => p.nodes ≠ []

/-- A statement uses its function, and the names of its arguments; these are the names that are
imported for its resource. -/
theorem uses_statement (words : IsWordly naming) (r : Resource) (inline : strict ∨ r.IsInline)
    (whole : r.IsWhole) :
    Yields (fun s => isName s.function ∧ ∃ names, ArgumentsUse naming s.arguments names ∧
      ∀ w, w ∈ s.function :: names ↔ w ∈ r.imports) (r.statement strict) := by
  have functions : isName "create_kafka_connection" ∧ isName "create_s3_connection" ∧
      isName "define_datasource" ∧ isName "define_pipe" ∧ isName "define_materialized_view" ∧
      isName "define_copy_pipe" := by
    decide +kernel
  obtain ⟨kafka, s3, datasource, pipe, view, copy⟩ := functions
  intro s stated
  cases r with
  | connection c =>
    cases stated
    refine ⟨?_, [], c.uses_arguments, fun w => Iff.rfl⟩
    cases c with
    | kafka c => exact kafka
    | s3 c => exact s3
  | datasource d =>
    have function := d.statement_function s stated
    refine ⟨?_, _, d.uses_arguments words inline s stated, fun w => ?_⟩
    · rw [function]
      exact datasource
    · rw [function, Resource.imports, Datasource.imports, List.mem_cons, List.mem_append,
        Column.mem_flatMap_names whole, List.mem_singleton, List.mem_cons, List.mem_cons,
        List.mem_cons, List.mem_ite_nil_right, List.mem_singleton, or_assoc,
        or_comm (b := w = "engine".toList)]
  | pipe p =>
    have function := p.statement_function s stated
    refine ⟨?_, _, p.uses_arguments words s stated, fun w => ?_⟩
    · rw [function]
      cases p.type with
      | pipe | endpoint => exact pipe
      | materialized => exact view
      | copy => exact copy
    · rw [function, Resource.imports, Pipe.imports, Pipe.names, List.mem_cons, List.mem_cons,
        List.mem_cons, List.mem_append, List.mem_append, List.mem_append, mem_flatMap_const whole,
        List.mem_singleton, or_assoc, or_left_comm (b := w = "node".toList)]

end Resource

end DatafileMigration
