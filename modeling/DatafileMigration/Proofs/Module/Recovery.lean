import DatafileMigration.Proofs.Module.Reference
import DatafileMigration.Proofs.Module.Usage

namespace DatafileMigration

open Script

/-- A text that is there, and empty if it was absent. -/
def present (t : Option Text) : Option Text := some (t.getD [])

/-- A connection without its path, empty texts for absent ones. -/
def Connection.settings : Connection → Connection
  | .kafka c => .kafka { c with
      path := [], key := present c.key, secret := present c.secret
      schemaRegistryUrl := present c.schemaRegistryUrl, sslCaPem := present c.sslCaPem }
  | .s3 c => .s3 { c with
      path := [], arn := present c.arn, accessKey := present c.accessKey
      secret := present c.secret }

/-- A node, an empty description for an absent one. -/
def Node.settings (n : Node) : Node := { n with description := present n.description }

variable {strict strict' : Bool} {naming naming' : Naming}

namespace Script

variable {arguments more : List (Text × Argument)} {k : Text}

theorem keywords_append (arguments more : List (Text × Argument)) :
    keywords naming (arguments ++ more) = keywords naming arguments ++ keywords naming more :=
  List.map_append

theorem keywords_quoted (k t : Text) :
    keywords naming [(k, .expression (Text.quoted t))] = [(k, [.string t])] :=
  keywords_cons (Spells.quoted t)

theorem keywords_filled (k : Text) (t : Option Text) :
    keywords naming (Argument.filled k t) =
      if isFilled t then [(k, [.string (t.getD [])])] else [] := by
  rw [Argument.filled, Argument.when]
  split
  · exact keywords_quoted k _
  · rfl

/-- Texts that are written if they say something. -/
def filledArguments (fields : List (Text × Option Text)) : List (Text × Argument) :=
  fields.flatMap fun (k, t) => Argument.filled k t

theorem getD_eq_nil {t : Option Text} (empty : isFilled t = false) : t.getD [] = [] :=
  not_not.mp (decide_eq_false_iff_not.mp empty)

theorem keywords_filledArguments_cons (k : Text) (t : Option Text)
    (fields : List (Text × Option Text)) :
    keywords naming (filledArguments ((k, t) :: fields)) =
      (if isFilled t then [(k, [.string (t.getD [])])] else []) ++
        keywords naming (filledArguments fields) := by
  rw [filledArguments, List.flatMap_cons, keywords_append, keywords_filled, filledArguments]

theorem mem_keywords_filledArguments {fields : List (Text × Option Text)} {k : Text}
    {tokens : List Token} (member : (k, tokens) ∈ keywords naming (filledArguments fields)) :
    k ∈ fields.map Prod.fst := by
  induction fields with
  | nil => cases member
  | cons field fields ih =>
    rw [keywords_filledArguments_cons, List.mem_append, List.mem_ite_nil_right,
      List.mem_singleton] at member
    rw [List.map_cons, List.mem_cons]
    rcases member with ⟨_, here⟩ | later
    · exact Or.inl (congrArg Prod.fst here)
    · exact Or.inr (ih later)

/-- Under different keywords, such texts can be told from the tokens. -/
theorem filledArguments_injective {fields fields' : List (Text × Option Text)}
    (keys : fields.map Prod.fst = fields'.map Prod.fst) (distinct : (fields.map Prod.fst).Nodup)
    (same : keywords naming (filledArguments fields) =
      keywords naming' (filledArguments fields')) :
    fields.map (·.2.getD []) = fields'.map (·.2.getD []) := by
  induction fields generalizing fields' with
  | nil => rw [List.map_eq_nil_iff.mp keys.symm]
  | cons field fields ih =>
    obtain ⟨k, t⟩ := field
    cases fields' with
    | nil => cases keys
    | cons field' fields' =>
      obtain ⟨k', t'⟩ := field'
      injection keys with key keys
      cases key
      obtain ⟨fresh, distinct⟩ := List.nodup_cons.mp distinct
      rw [keywords_filledArguments_cons, keywords_filledArguments_cons] at same
      rw [List.map_cons, List.map_cons]
      cases filled : isFilled t with
      | false =>
        rw [filled, if_neg Bool.false_ne_true, List.nil_append] at same
        cases filled' : isFilled t' with
        | false =>
          rw [filled', if_neg Bool.false_ne_true, List.nil_append] at same
          rw [getD_eq_nil filled, getD_eq_nil filled', ih keys distinct same]
        | true =>
          rw [filled', if_pos rfl] at same
          have member : (k, _) ∈ keywords naming (filledArguments fields) :=
            same.symm ▸ List.mem_append_left _ (List.mem_singleton_self _)
          exact absurd (mem_keywords_filledArguments member) fresh
      | true =>
        rw [filled, if_pos rfl] at same
        cases filled' : isFilled t' with
        | false =>
          rw [filled', if_neg Bool.false_ne_true, List.nil_append] at same
          have member : (k, _) ∈ keywords naming' (filledArguments fields') :=
            same ▸ List.mem_append_left _ (List.mem_singleton_self _)
          exact absurd (mem_keywords_filledArguments member) (keys ▸ fresh)
        | true =>
          rw [filled', if_pos rfl] at same
          injection same with here rest
          injection here with _ tokens
          injection tokens with text
          injection text with text
          rw [text, ih keys distinct rest]

/-- So can a text that is written in front of them in any case. -/
theorem required_injective {k t t' : Text} (fields fields' : List (Text × Option Text))
    (keys : fields.map Prod.fst = fields'.map Prod.fst) (distinct : (fields.map Prod.fst).Nodup)
    (same : keywords naming ((k, .expression (Text.quoted t)) :: filledArguments fields) =
      keywords naming' ((k, .expression (Text.quoted t')) :: filledArguments fields')) :
    t = t' ∧ fields.map (·.2.getD []) = fields'.map (·.2.getD []) := by
  rw [keywords_cons (.quoted t), keywords_cons (.quoted t')] at same
  injection same with here others
  injection here with _ tokens
  injection tokens with text
  injection text with text
  exact ⟨text, filledArguments_injective keys distinct others⟩

theorem filter_keywords (arguments : List (Text × Argument)) (k : Text) :
    (keywords naming arguments).filter (·.1 = k) =
      keywords naming (arguments.filter (·.1 = k)) :=
  List.filter_map ..

end Script

/-- Statements of resources that read alike under identifiers of registries. -/
theorem Resource.eq_of_render_eq {r r' : Resource} {s s' : Statement} {names names' : List Text}
    {keys keys' : List (Kind × Text)} (stated : r.statement strict = .ok s)
    (stated' : r'.statement strict' = .ok s')
    (use : ArgumentsUse (Registry.registerAll {} keys).lookup s.arguments names)
    (use' : ArgumentsUse (Registry.registerAll {} keys').lookup s'.arguments names')
    (same : s.render (Registry.registerAll {} keys).lookup =
      s'.render (Registry.registerAll {} keys').lookup) :
    s.function = s'.function ∧ s.name = s'.name ∧
      keywords (Registry.registerAll {} keys).lookup s.arguments =
        keywords (Registry.registerAll {} keys').lookup s'.arguments := by
  have snake (keys : List (Kind × Text)) (kind : Kind) (name : Text) :
      Identifier.isSnake ((Registry.registerAll {} keys).lookup kind name) :=
    ((Registry.isNaming_empty.registerAll keys).isCandidate_lookup kind name).isSnake
  obtain ⟨f, listed, function⟩ := r.statement_function s stated
  obtain ⟨f', listed', function'⟩ := r'.statement_function s' stated'
  exact Statement.eq_of_render_eq same (snake keys _ _) (snake keys' _ _)
    (function ▸ .listed listed) (function' ▸ .listed listed') use use'

/-- A choice can be told from its text, and from an empty one if there is none. -/
theorem Choice.eq_of_getD_eq {α : Type} [Choice α]
    (reads : ∀ a : α, Choice.ofText? (Choice.text a) = some a)
    (empty : Choice.ofText? [] = (none : Option α)) {a b : Option α}
    (same : (a.map Choice.text).getD [] = (b.map Choice.text).getD []) : a = b := by
  have read : ∀ a : Option α, Choice.ofText? ((a.map Choice.text).getD []) = a := by
    intro a
    cases a with
    | none => exact empty
    | some a => exact reads a
  rw [← read a, same, read b]

namespace KafkaConnection

variable {c c' : KafkaConnection}

/-- What a connection says beside its servers. -/
def optionals (c : KafkaConnection) : List (Text × Option Text) :=
  [("security_protocol", c.securityProtocol.map Choice.text),
   ("sasl_mechanism", c.saslMechanism.map Choice.text), ("key", c.key), ("secret", c.secret),
   ("schema_registry_url", c.schemaRegistryUrl), ("ssl_ca_pem", c.sslCaPem)]

theorem arguments_eq (c : KafkaConnection) : c.statement.arguments =
    ("bootstrap_servers".toList, .expression (Text.quoted c.bootstrapServers)) ::
      filledArguments c.optionals := by
  simp only [statement, filledArguments, optionals, List.flatMap_cons, List.flatMap_nil,
    List.append_nil, List.append_assoc]

theorem settings_eq (name : c.name = c'.name)
    (same : keywords naming c.statement.arguments = keywords naming' c'.statement.arguments) :
    (Connection.kafka c).settings = (Connection.kafka c').settings := by
  have distinct : (["security_protocol", "sasl_mechanism", "key", "secret", "schema_registry_url",
      "ssl_ca_pem"] : List Text).Nodup := by
    decide +kernel
  rw [arguments_eq, arguments_eq] at same
  obtain ⟨servers, values⟩ := required_injective c.optionals c'.optionals rfl distinct same
  simp only [KafkaConnection.optionals, List.map_cons, List.cons.injEq] at values
  obtain ⟨protocol, mechanism, key, secret, registry, certificate, _⟩ := values
  have protocol := Choice.eq_of_getD_eq (fun a => by cases a <;> rfl) rfl protocol
  have mechanism := Choice.eq_of_getD_eq (fun a => by cases a <;> rfl) rfl mechanism
  simp only [Connection.settings, present, name, servers, protocol, mechanism, key, secret,
    registry, certificate]

end KafkaConnection

namespace S3Connection

variable {c c' : S3Connection}

/-- What a connection says beside its region. -/
def optionals (c : S3Connection) : List (Text × Option Text) :=
  [("arn", c.arn), ("access_key", c.accessKey), ("secret", c.secret)]

theorem arguments_eq (c : S3Connection) : c.statement.arguments =
    ("region".toList, .expression (Text.quoted c.region)) :: filledArguments c.optionals := by
  simp only [statement, filledArguments, optionals, List.flatMap_cons, List.flatMap_nil,
    List.append_nil, List.append_assoc]

theorem settings_eq (name : c.name = c'.name)
    (same : keywords naming c.statement.arguments = keywords naming' c'.statement.arguments) :
    (Connection.s3 c).settings = (Connection.s3 c').settings := by
  have distinct : (["arn", "access_key", "secret"] : List Text).Nodup := by decide +kernel
  rw [arguments_eq, arguments_eq] at same
  obtain ⟨region, values⟩ := required_injective c.optionals c'.optionals rfl distinct same
  simp only [S3Connection.optionals, List.map_cons, List.cons.injEq] at values
  obtain ⟨arn, key, secret, _⟩ := values
  simp only [Connection.settings, present, name, region, arn, key, secret]

end S3Connection

theorem Connection.settings_eq {c c' : Connection}
    (function : c.statement.function = c'.statement.function)
    (name : c.statement.name = c'.statement.name)
    (same : keywords naming c.statement.arguments = keywords naming' c'.statement.arguments) :
    c.settings = c'.settings := by
  have apart : "create_kafka_connection".toList ≠ "create_s3_connection".toList := by decide
  cases c with
  | kafka c =>
    cases c' with
    | kafka c' => exact c.settings_eq name same
    | s3 c' => exact absurd function apart
  | s3 c =>
    cases c' with
    | kafka c' => exact absurd function.symm apart
    | s3 c' => exact c.settings_eq name same

namespace Node

/-- The arguments of a node as they are read. -/
def parts (naming : Naming) (n : Node) : List (List Token) :=
  (keywords naming n.arguments).map keywordTokens

theorem spells_render (n : Node) : Spells true n.render (blockCall "node" (n.parts naming)) := by
  rw [n.render_eq naming]
  exact .blockCall (.listed (by simp [vocabulary])) n.uses_arguments.read.1 2

theorem keywords_arguments (n : Node) : keywords naming n.arguments =
    ("name".toList, [.string n.name]) ::
      ((if isFilled n.description then [("description".toList, [.string (n.description.getD [])])]
        else []) ++ [("sql".toList, [.string n.sql])]) := by
  rw [arguments, keywords_cons (.quoted _), keywords_append, keywords_filled,
    keywords_cons (.quotedLines _)]
  rfl

theorem settings_eq {n n' : Node}
    (same : blockCall "node" (n.parts naming) = blockCall "node" (n'.parts naming')) :
    n.settings = n'.settings := by
  obtain ⟨_, parts⟩ :=
    blockCall_injective n.uses_arguments.read.2.1 n'.uses_arguments.read.2.1 same
  have keyed := List.map_injective_iff.mpr keywordTokens_injective parts
  rw [keywords_arguments, keywords_arguments] at keyed
  injection keyed with name others
  injection name with _ name
  injection name with name
  injection name with name
  have described : n.description.getD [] = n'.description.getD [] ∧ n.sql = n'.sql := by
    have lengths := congrArg List.length others
    cases filled : isFilled n.description <;> cases filled' : isFilled n'.description <;>
      simp only [filled, filled', if_true, if_false, Bool.false_eq_true, List.nil_append,
        List.cons_append, List.length_cons, List.length_nil, List.cons.injEq, Prod.mk.injEq,
        Token.string.injEq, true_and, and_true] at lengths others
    case false.false => exact ⟨by rw [getD_eq_nil filled, getD_eq_nil filled'], others⟩
    case true.true => exact others
    all_goals omega
  simp only [settings, present, name, described]

end Node

namespace Pipe

variable {p p' : Pipe}

/-- The nodes of a pipe as they are read. -/
def nodeTokens (naming : Naming) (p : Pipe) : List Token :=
  .mark '[' :: enumerated (p.nodes.map fun n => blockCall "node" (n.parts naming)) ++ [.mark ']']

theorem spells_nodes (p : Pipe) :
    Spells true (Layout.list 1 (p.nodes.map Node.render)) (p.nodeTokens naming) := by
  have all : SpellsAll true (p.nodes.map Node.render)
      (p.nodes.map fun n => blockCall "node" (n.parts naming)) := by
    refine List.forall₂_map_left_iff.mpr (List.forall₂_map_right_iff.mpr ?_)
    exact List.forall₂_same.mpr fun n _ => n.spells_render
  exact all.block (o := '[') rfl 1

theorem keywords_nodes (p : Pipe) : keywords naming
    [("nodes".toList, .expression (Layout.list 1 (p.nodes.map Node.render)))] =
      [("nodes".toList, p.nodeTokens naming)] :=
  keywords_cons p.spells_nodes

theorem filter_typeArguments_nodes (p : Pipe) :
    Yields (fun arguments => arguments.filter (·.1 = "nodes".toList) = [])
      (p.typeArguments strict) := by
  have parameters : Yields (fun arguments => arguments.filter (·.1 = "nodes".toList) = [])
      (p.parametersArgument strict) := by
    refine yields_ite.mpr ⟨fun _ => yields_ok.mpr rfl, fun _ => ?_⟩
    exact yields_bind.mpr fun _ _ => yields_pure.mpr rfl
  rw [typeArguments]
  cases p.type with
  | pipe | endpoint => exact parameters
  | materialized =>
    exact yields_ok.mpr (Argument.filter_when_of_ne (by decide))
  | copy =>
    have others : (Argument.filled "copy_mode" (p.copyMode.map Choice.text)
        ++ Argument.filled "copy_schedule" p.copySchedule).filter (·.1 = "nodes".toList) = [] := by
      simp (disch := decide) only [List.filter_append, Argument.filter_filled_of_ne,
        List.nil_append]
    exact yields_ok.mpr others

theorem filter_nodes (p : Pipe) :
    Yields (fun s => s.arguments.filter (·.1 = "nodes".toList) =
      [("nodes".toList, .expression (Layout.list 1 (p.nodes.map Node.render)))])
      (p.statement strict) := by
  rw [statement, yields_bind]
  intro ofType typed
  have none : ofType.filter (·.1 = "nodes".toList) = [] :=
    p.filter_typeArguments_nodes ofType typed
  refine yields_pure.mpr ?_
  rw [endpointArguments, tokensArgument]
  simp (disch := decide) only [List.filter_append, Argument.filter_filled_of_ne,
    Argument.filter_when_of_ne, List.nil_append, List.append_nil, none]
  rfl

theorem nodes_eq (same : p.nodeTokens naming = p'.nodeTokens naming') :
    p.nodes.map Node.settings = p'.nodes.map Node.settings := by
  have passes (naming : Naming) (p : Pipe) :
      ∀ a ∈ p.nodes.map fun n => blockCall "node" (n.parts naming), Passes false a :=
    List.forall_mem_map.mpr fun n _ => .blockCall "node" n.uses_arguments.read.2.1
  injection same with _ inside
  have calls := enumerated_injective (passes naming p) (passes naming' p')
    (List.append_cancel_right inside)
  rw [← List.forall₂_eq_eq_eq, List.forall₂_map_left_iff, List.forall₂_map_right_iff] at calls ⊢
  exact calls.imp fun n n' => Node.settings_eq

end Pipe

/-- A statement tells all settings of a connection and all nodes of a pipe: connections whose
statements read alike have the same settings, and pipes whose statements read alike have the same
name, function and nodes. Only an empty text cannot be told from an absent one, and the path is not
told. A text that is empty is left out, so it cannot be told from one that is absent. -/
theorem settings_eq_of_render_eq :
    (∀ (c c' : Connection) (keys keys' : List (Kind × Text)),
      c.statement.render (Registry.registerAll {} keys).lookup =
        c'.statement.render (Registry.registerAll {} keys').lookup →
      c.settings = c'.settings) ∧
    ∀ (p p' : Pipe) (strict strict' : Bool) (s s' : Statement) (keys keys' : List (Kind × Text)),
      p.statement strict = .ok s → p'.statement strict' = .ok s' →
      s.render (Registry.registerAll {} keys).lookup =
        s'.render (Registry.registerAll {} keys').lookup →
      p.name = p'.name ∧ p.type.function = p'.type.function ∧
        p.nodes.map Node.settings = p'.nodes.map Node.settings := by
  constructor
  · intro c c' keys keys' same
    have stated (c : Connection) : (Resource.connection c).statement true = .ok c.statement := rfl
    obtain ⟨function, name, arguments⟩ :=
      Resource.eq_of_render_eq (stated c) (stated c') c.uses_arguments c'.uses_arguments same
    exact Connection.settings_eq function name arguments
  · intro p p' strict strict' s s' keys keys' stated stated' same
    have use := p.uses_arguments (isWordly_registerAll keys) s stated
    have use' := p'.uses_arguments (isWordly_registerAll keys') s' stated'
    have pipe : (Resource.pipe p).statement strict = .ok s := stated
    have pipe' : (Resource.pipe p').statement strict' = .ok s' := stated'
    obtain ⟨function, name, arguments⟩ := Resource.eq_of_render_eq pipe pipe' use use' same
    obtain ⟨_, named⟩ := Prod.mk.inj ((Resource.pipe p).statement_key s pipe)
    obtain ⟨_, named'⟩ := Prod.mk.inj ((Resource.pipe p').statement_key s' pipe')
    have functions : p.type.function = p'.type.function :=
      (p.statement_function s stated).symm.trans (function.trans (p'.statement_function s' stated'))
    have nodes := congrArg (List.filter (·.1 = "nodes".toList)) arguments
    rw [filter_keywords, filter_keywords, p.filter_nodes s stated, p'.filter_nodes s' stated',
      Pipe.keywords_nodes, Pipe.keywords_nodes] at nodes
    injection nodes with nodes
    injection nodes with _ nodes
    exact ⟨named.symm.trans (name.trans named'), functions, Pipe.nodes_eq nodes⟩

/-- A connection with an empty key, and one without a key. -/
def emptyKey : Connection :=
  .s3 { name := "c", path := "a.connection", region := "eu", arn := some "a", accessKey := some "" }

def noKey : Connection :=
  .s3 { name := "c", path := "c.connection", region := "eu", arn := some "a" }

/-- A pipe with an empty description of its node, and one without a description. -/
def emptyDescription : Pipe :=
  { name := "p", path := "a.pipe",
    nodes := [{ name := "n", description := some "", sql := "SELECT '\"'" }] }

def noDescription : Pipe :=
  { name := "p", path := "p.pipe", nodes := [{ name := "n", sql := "SELECT '\"'" }] }

theorem settings_eq_of_render_eq_empty :
    emptyKey.statement.render (Registry.registerAll {} []).lookup =
      noKey.statement.render (Registry.registerAll {} []).lookup ∧
    emptyKey.settings = noKey.settings ∧
    ∃ s, emptyDescription.statement true = .ok s ∧ noDescription.statement true = .ok s ∧
      emptyDescription.name = noDescription.name ∧
      emptyDescription.type.function = noDescription.type.function ∧
      emptyDescription.nodes.map Node.settings = noDescription.nodes.map Node.settings := by
  have written : emptyKey.statement.render (Registry.registerAll {} []).lookup =
      noKey.statement.render (Registry.registerAll {} []).lookup := by decide +kernel
  obtain ⟨s, stated, stated'⟩ := exists_eq_ok (x := emptyDescription.statement true)
    (p := fun s => noDescription.statement true = .ok s) (by decide +kernel)
  rw [decide_eq_true_eq] at stated'
  exact ⟨written, settings_eq_of_render_eq.1 emptyKey noKey [] [] written, s, stated, stated',
    settings_eq_of_render_eq.2 emptyDescription noDescription true true s s [] [] stated stated'
      rfl⟩

end DatafileMigration
