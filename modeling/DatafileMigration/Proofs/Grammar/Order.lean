import DatafileMigration.Grammar.Parse
import DatafileMigration.Proofs.Fault.Parts
import DatafileMigration.Proofs.Grammar.LongNumber

namespace DatafileMigration.Grammar

open Datafile

/-- What directives with a keyword fill. -/
def DatasourceKeyword.Part : DatasourceKeyword → Type
  | .description => Option Text
  | .schema => List Column
  | .forwardQuery => Option Text
  | .sharedWith => List Text
  | .engine => Option Text × Text
  | .engineText _ => Option Text
  | .engineKeys _ => List Text
  | .engineSettings => List (Text × Scalar)
  | .topic _ => Option Text
  | .offsetReset => Option OffsetReset
  | .storeRawValue => Option Bool
  | .bucket _ => Option Text
  | .token => List DatasourceToken

namespace DatasourceDraft

def part (draft : DatasourceDraft) : (keyword : DatasourceKeyword) → keyword.Part
  | .description => draft.description
  | .schema => draft.columns
  | .forwardQuery => draft.forwardQuery
  | .sharedWith => draft.sharedWith
  | .engine => (draft.engineType, draft.engine.type)
  | .engineText .partitionKey => draft.engine.partitionKey
  | .engineText .ttl => draft.engine.ttl
  | .engineText .ver => draft.engine.ver
  | .engineText .isDeleted => draft.engine.isDeleted
  | .engineText .sign => draft.engine.sign
  | .engineText .version => draft.engine.version
  | .engineKeys .sortingKey => draft.engine.sortingKey
  | .engineKeys .primaryKey => draft.engine.primaryKey
  | .engineKeys .summingColumns => draft.engine.summingColumns
  | .engineSettings => draft.engine.settings
  | .topic .connectionName => draft.kafkaConnection
  | .topic .topic => draft.topic
  | .topic .groupId => draft.groupId
  | .offsetReset => draft.offsetReset
  | .storeRawValue => draft.storeRawValue
  | .bucket .connectionName => draft.bucketConnection
  | .bucket .bucketUri => draft.bucketUri
  | .bucket .schedule => draft.schedule
  | .bucket .fromTimestamp => draft.fromTimestamp
  | .token => draft.tokens

/-- The draft of given parts. -/
def ofParts (part : (keyword : DatasourceKeyword) → keyword.Part) : DatasourceDraft where
  description := part .description
  columns := part .schema
  forwardQuery := part .forwardQuery
  sharedWith := part .sharedWith
  engineType := (part .engine).1
  engine := {
    type := (part .engine).2
    sortingKey := part (.engineKeys .sortingKey)
    partitionKey := part (.engineText .partitionKey)
    primaryKey := part (.engineKeys .primaryKey)
    ttl := part (.engineText .ttl)
    ver := part (.engineText .ver)
    isDeleted := part (.engineText .isDeleted)
    sign := part (.engineText .sign)
    version := part (.engineText .version)
    summingColumns := part (.engineKeys .summingColumns)
    settings := part .engineSettings }
  kafkaConnection := part (.topic .connectionName)
  topic := part (.topic .topic)
  groupId := part (.topic .groupId)
  offsetReset := part .offsetReset
  storeRawValue := part .storeRawValue
  bucketConnection := part (.bucket .connectionName)
  bucketUri := part (.bucket .bucketUri)
  schedule := part (.bucket .schedule)
  fromTimestamp := part (.bucket .fromTimestamp)
  tokens := part .token

/-- A draft is its parts. -/
def parts : DatasourceDraft ≃ ((keyword : DatasourceKeyword) → keyword.Part) where
  toFun := part
  invFun := ofParts
  left_inv _ := rfl
  right_inv given := by
    funext keyword
    cases keyword with
    | engineText option => cases option <;> rfl
    | engineKeys option => cases option <;> rfl
    | topic part => cases part <;> rfl
    | bucket part => cases part <;> rfl
    | _ => rfl

/-- A directive fills the part of its keyword. -/
theorem fillsPart_take (d : Directive) :
    FillsPart parts (keyword? datasourceKeywords d.keyword) (take · d) := by
  unfold take
  cases keyword? datasourceKeywords d.keyword with
  | none => exact .keeps fun _ => rfl
  | some keyword =>
    cases keyword with
    | description => exact .fills _ (fun _ => some (descriptionText d)) fun _ => rfl
    | schema =>
      refine .bind fun lines => .ite (.fails _ fun _ => rfl) (.bind fun columns => ?_)
      exact .fills DatasourceKeyword.schema (fun known : List Column => known ++ columns)
        fun _ => rfl
    | forwardQuery =>
      refine .bind fun lines => .ite (.fails _ fun _ => rfl) ?_
      exact .fills _ (fun _ => some (Text.join "\n" lines)) fun _ => rfl
    | sharedWith =>
      refine .bind fun lines => ?_
      exact .fills DatasourceKeyword.sharedWith (fun known : List Text => known ++ workspaces lines)
        fun _ => rfl
    | engine =>
      refine .bind fun value => ?_
      exact .fills DatasourceKeyword.engine
        (fun known : Option Text × Text => (some value, known.2)) fun _ => rfl
    | engineText option =>
      refine .bind fun value => .fills _ (fun _ => some value) fun _ => ?_
      cases option <;> rfl
    | engineKeys option =>
      refine .bind fun value => .fills _ (fun _ => splitCommas value) fun _ => ?_
      cases option <;> rfl
    | engineSettings =>
      refine .bind fun value => .bind fun settings => ?_
      exact .fills _ (fun _ => settings) fun _ => rfl
    | topic part =>
      refine .bind fun value => .fills _ (fun _ => some value) fun _ => ?_
      cases part <;> rfl
    | offsetReset =>
      refine .bind fun value => ?_
      dsimp only
      cases (Choice.ofText? (Text.strip value) : Option OffsetReset) with
      | none => exact .fails _ fun _ => rfl
      | some reset => exact .fills _ (fun _ => some reset) fun _ => rfl
    | storeRawValue =>
      refine .bind fun value => ?_
      dsimp only
      cases flag? (Text.strip value) with
      | none => exact .fails _ fun _ => rfl
      | some flag => exact .fills _ (fun _ => some flag) fun _ => rfl
    | bucket part =>
      refine .bind fun value => .fills _ (fun _ => some value) fun _ => ?_
      cases part <;> rfl
    | token =>
      refine .bind fun value => .bind fun token => ?_
      exact .fills DatasourceKeyword.token
        (fun known : List DatasourceToken => known ++ [token]) fun _ => rfl

end DatasourceDraft

namespace ConnectionDraft

def part (draft : ConnectionDraft) : ConnectionKeyword → Option Text
  | .type => draft.type
  | .broker .bootstrapServers => draft.bootstrapServers
  | .broker .securityProtocol => draft.securityProtocol
  | .broker .saslMechanism => draft.saslMechanism
  | .broker .key => draft.key
  | .broker .secret => draft.brokerSecret
  | .broker .schemaRegistryUrl => draft.schemaRegistryUrl
  | .broker .sslCaPem => draft.sslCaPem
  | .store .region => draft.region
  | .store .arn => draft.arn
  | .store .accessKey => draft.accessKey
  | .store .secret => draft.storeSecret

/-- A draft is its parts. -/
def parts : ConnectionDraft ≃ (ConnectionKeyword → Option Text) where
  toFun := part
  invFun given := {
    type := given .type
    bootstrapServers := given (.broker .bootstrapServers)
    securityProtocol := given (.broker .securityProtocol)
    saslMechanism := given (.broker .saslMechanism)
    key := given (.broker .key)
    brokerSecret := given (.broker .secret)
    schemaRegistryUrl := given (.broker .schemaRegistryUrl)
    sslCaPem := given (.broker .sslCaPem)
    region := given (.store .region)
    arn := given (.store .arn)
    accessKey := given (.store .accessKey)
    storeSecret := given (.store .secret) }
  left_inv _ := rfl
  right_inv given := by
    funext keyword
    cases keyword with
    | type => rfl
    | broker part => cases part <;> rfl
    | store part => cases part <;> rfl

/-- A directive fills the part of its keyword. -/
theorem fillsPart_take (d : Directive) :
    FillsPart parts (keyword? connectionKeywords d.keyword) (take · d) := by
  unfold take
  cases keyword? connectionKeywords d.keyword with
  | none => exact .keeps fun _ => rfl
  | some keyword =>
    cases keyword with
    | type =>
      refine .bind fun value => ?_
      exact .fills _ (fun _ => some (Text.lower value)) fun _ => rfl
    | broker part =>
      refine .ite (.fills _ (fun _ => some d.text) fun _ => ?_)
        (.bind fun value => .fills _ (fun _ => some value) fun _ => ?_)
      · cases part <;> rfl
      · cases part <;> rfl
    | store part =>
      refine .bind fun value => .fills _ (fun _ => some value) fun _ => ?_
      cases part <;> rfl

end ConnectionDraft

/-- Directives in another order, which is the same order for those with the same keyword. -/
structure Reorders (ds es : List Directive) : Prop where
  perm : ds.Perm es
  each : ∀ keyword, es.filter (·.keyword = keyword) = ds.filter (·.keyword = keyword)

variable {ds es : List Directive}

/-- Neighbours with different keywords may change places. -/
theorem Reorders.swap {a b : Directive} (before after : List Directive)
    (apart : a.keyword ≠ b.keyword) :
    Reorders (before ++ a :: b :: after) (before ++ b :: a :: after) where
  perm := (List.Perm.swap b a after).append_left before
  each keyword := by
    simp only [List.filter_append, List.filter_cons, decide_eq_true_eq]
    by_cases first : a.keyword = keyword
    · have second : ¬ b.keyword = keyword := fun same => apart (first.trans same.symm)
      rw [if_neg second, if_neg second]
    · rw [if_neg first, if_neg first]

/-- The directives of a keyword of a table keep their order. -/
theorem Reorders.filter_keyword? {α : Type} [DecidableEq α] {table : List (Text × α)}
    (reorders : Reorders ds es) (distinct : (table.map (·.2)).Nodup) (a : α) :
    es.filter (keyword? table ·.keyword = some a) =
      ds.filter (keyword? table ·.keyword = some a) := by
  by_cases spelled : ∃ t, keyword? table t = some a
  · obtain ⟨t, spells⟩ := spelled
    simp only [keyword?_eq_some_iff distinct spells]
    exact reorders.each t
  · have never (d : Directive) : ¬ keyword? table d.keyword = some a :=
      fun found => spelled ⟨_, found⟩
    simp only [never, decide_false, List.filter_false]

variable {name path : Text} {kind : Kind} {r : Resource}

/-- In a datasource and in a connection the order of directives does not count, but for that of
directives with the same keyword: in another order they are accepted too, and define the same. -/
theorem build_of_reorders (other : kind ≠ .pipe) (reorders : Reorders ds es)
    (built : build kind name path ds = .ok r) : build kind name path es = .ok r := by
  cases kind with
  | pipe => exact absurd rfl other
  | datasource =>
    obtain ⟨d, made, rfl⟩ := map_eq_ok.mp built
    obtain ⟨draft, taken, finished⟩ := bind_eq_ok.mp made
    have taken' := foldlM_eq_of_perm DatasourceDraft.fillsPart_take reorders.perm
      (reorders.filter_keyword? (by decide)) taken
    exact map_eq_ok.mpr ⟨d, bind_eq_ok.mpr ⟨draft, taken', finished⟩, rfl⟩
  | connection =>
    obtain ⟨c, made, rfl⟩ := map_eq_ok.mp built
    obtain ⟨draft, taken, finished⟩ := bind_eq_ok.mp made
    have taken' := foldlM_eq_of_perm ConnectionDraft.fillsPart_take reorders.perm
      (reorders.filter_keyword? (by decide)) taken
    exact map_eq_ok.mpr ⟨c, bind_eq_ok.mpr ⟨draft, taken', finished⟩, rfl⟩

theorem build_of_reorders_schema_key :
    let schema : Directive := ⟨"SCHEMA", .block ["c String"], 1⟩
    let key : Directive := ⟨"ENGINE_SORTING_KEY", .inline "c", 3⟩
    Kind.datasource ≠ .pipe ∧ Reorders [schema, key] [key, schema] ∧
      ∃ r, build .datasource "a" "a.datasource" [schema, key] = .ok r ∧
        build .datasource "a" "a.datasource" [key, schema] = .ok r := by
  intro schema key
  have reorders : Reorders [schema, key] [key, schema] := .swap [] [] (by decide)
  obtain ⟨r, built, _⟩ := exists_eq_ok (p := fun _ => true)
    (x := build .datasource "a" "a.datasource" [schema, key]) (by decide +kernel)
  exact ⟨by decide, reorders, r, built, build_of_reorders (by decide) reorders built⟩

end DatafileMigration.Grammar
