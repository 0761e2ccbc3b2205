import DatafileMigration.Proofs.Datafile.Lines
import DatafileMigration.Proofs.Grammar.Order

namespace DatafileMigration

/-- A datasource changed, any other resource as it is. -/
def Resource.mapDatasource (f : Datasource → Datasource) : Resource → Resource
  | .datasource d => .datasource (f d)
  | r => r

/-- The engine with other keys for an option. -/
def Engine.withKeys (e : Engine) (keys : List Text) : Grammar.EngineKeys → Engine
  | .sortingKey => { e with sortingKey := keys }
  | .primaryKey => { e with primaryKey := keys }
  | .summingColumns => { e with summingColumns := keys }

namespace Grammar

open Datafile DatasourceDraft

variable {before after ds es : List Directive} {here : Directive} {strict : Bool}
  {name path : Text} {key : DatasourceKeyword} {value value' : key.Part}
  {f : Datasource → Datasource}

/-- What a draft defines if one of its parts has another value. -/
def defineFilled (name path : Text) (key : DatasourceKeyword) (value : key.Part)
    (draft : DatasourceDraft) : Parse Resource := do
  let datasource ← (putPart parts key value draft).finish name path
  requireValid .datasource (.datasource datasource)

/-- What directives define if a part of their draft has another value in the end. -/
def readFilled (strict : Bool) (name path : Text) (key : DatasourceKeyword) (value : key.Part)
    (ds : List Directive) : Parse Resource := do
  let known ← selectKnown strict .datasource ds
  let draft ← known.foldlM DatasourceDraft.take {}
  defineFilled name path key value draft

/-- The directive without its number. -/
def unnumbered (d : Directive) : Directive := { d with line := 0 }

theorem readFilled_unnumbered (ds : List Directive) :
    readFilled strict name path key value (ds.map unnumbered) =
      readFilled strict name path key value ds := by
  have unknown : unknownDirectives .datasource (ds.map unnumbered) =
      (unknownDirectives .datasource ds).map unnumbered := List.filter_map
  have known : knownDirectives .datasource (ds.map unnumbered) =
      (knownDirectives .datasource ds).map unnumbered := List.filter_map
  have sources : ((unknownDirectives .datasource ds).map unnumbered).map Directive.source =
      (unknownDirectives .datasource ds).map Directive.source := List.map_map
  have folded : ((knownDirectives .datasource ds).map unnumbered).foldlM DatasourceDraft.take {} =
      (knownDirectives .datasource ds).foldlM DatasourceDraft.take {} := List.foldlM_map
  simp only [readFilled, selectKnown, unknown, known, sources, ne_eq, List.map_eq_nil_iff]
  split
  · rfl
  · exact congrArg (· >>= defineFilled name path key value) folded

/-- The numbers of lines do not count. -/
theorem readFilled_congr (same : ds.map Directive.content = es.map Directive.content) :
    readFilled strict name path key value ds = readFilled strict name path key value es := by
  have renumbered (ds : List Directive) :
      (ds.map Directive.content).map (fun content => ⟨content.1, content.2, 0⟩) =
        ds.map unnumbered := List.map_map
  rw [← readFilled_unnumbered ds, ← readFilled_unnumbered es, ← renumbered, ← renumbered, same]

theorem free_of_not_mem {t : Text} (spelled : keyword? datasourceKeywords t = some key)
    (absent : t ∉ ds.map Directive.keyword) :
    ∀ d ∈ ds, keyword? datasourceKeywords d.keyword ≠ some key := by
  intro d member found
  exact absent (List.mem_map.mpr ⟨d, member, keyword?_injective (by decide) found spelled⟩)

/-- The directive gives the part of its keyword the value, where it stands behind the others. -/
structure Fills (key : DatasourceKeyword) (value : key.Part) (before : List Directive)
    (here : Directive) : Prop where
  spelled : keyword? datasourceKeywords here.keyword = some key
  take : ∀ draft, (knownDirectives .datasource before).foldlM DatasourceDraft.take {} = .ok draft →
    draft.take here = .ok (putPart parts key value draft)

section

variable (fills : Fills key value before here)
  (free : ∀ d ∈ after, keyword? datasourceKeywords d.keyword ≠ some key)

include fills free

theorem build_eq_defineFilled :
    build .datasource name path
        (knownDirectives .datasource before ++ here :: knownDirectives .datasource after) >>=
      requireValid .datasource =
    (knownDirectives .datasource before ++ knownDirectives .datasource after).foldlM
      DatasourceDraft.take {} >>= defineFilled name path key value := by
  have free' : ∀ d ∈ knownDirectives .datasource after,
      keyword? datasourceKeywords d.keyword ≠ some key :=
    fun d member => free d (List.mem_filter.mp member).1
  have folded := foldlM_put_at fillsPart_take fills.take free'
  rw [build, buildDatasource, folded]
  cases (knownDirectives .datasource before ++ knownDirectives .datasource after).foldlM
    DatasourceDraft.take {} with
  | error e => rfl
  | ok draft =>
    change ((putPart parts key value draft).finish name path).map _ >>= _ =
      (putPart parts key value draft).finish name path >>= _
    cases (putPart parts key value draft).finish name path <;> rfl

/-- A directive that gives a part its value may be left out, and the value put in at the end. -/
theorem read_eq_readFilled :
    selectKnown strict .datasource (before ++ here :: after) >>=
        (fun known => build .datasource name path known >>= requireValid .datasource) =
      readFilled strict name path key value (before ++ after) := by
  have isKnown : (knownKeywords .datasource).contains here.keyword = true :=
    List.contains_iff_mem.mpr (List.mem_map_of_mem (mem_of_keyword? fills.spelled))
  have unknown : unknownDirectives .datasource (before ++ here :: after) =
      unknownDirectives .datasource (before ++ after) := by
    simp only [unknownDirectives, List.filter_append, List.filter_cons, isKnown, Bool.not_true,
      Bool.false_eq_true, if_false]
  have known : knownDirectives .datasource (before ++ here :: after) =
      knownDirectives .datasource before ++ here :: knownDirectives .datasource after := by
    simp only [knownDirectives, List.filter_append, List.filter_cons, isKnown, if_true]
  have known' : knownDirectives .datasource (before ++ after) =
      knownDirectives .datasource before ++ knownDirectives .datasource after :=
    List.filter_append ..
  simp only [readFilled, selectKnown, unknown, known, known']
  split
  · rfl
  · exact build_eq_defineFilled fills free

end

/-- With the one value for a part, a draft is refused as with the other, and defines the same but
for a change that keeps the datasource valid. -/
structure Exchanges (key : DatasourceKeyword) (value value' : key.Part)
    (f : Datasource → Datasource) : Prop where
  finish : ∀ (draft : DatasourceDraft) (name path : Text),
    (putPart parts key value draft).finish name path =
      ((putPart parts key value' draft).finish name path).map f
  valid : ∀ d, (Resource.datasource (f d)).violations = (Resource.datasource d).violations

variable (exchanges : Exchanges key value value' f)

include exchanges

theorem Exchanges.requireValid (d : Datasource) :
    requireValid .datasource (.datasource (f d)) =
      (requireValid .datasource (.datasource d)).map (Resource.mapDatasource f) := by
  unfold Grammar.requireValid
  rw [exchanges.valid]
  cases (Resource.datasource d).violations <;> rfl

theorem Exchanges.readFilled :
    readFilled strict name path key value ds =
      (readFilled strict name path key value' ds).map (Resource.mapDatasource f) := by
  have define (draft : DatasourceDraft) : defineFilled name path key value draft =
      (defineFilled name path key value' draft).map (Resource.mapDatasource f) := by
    rw [defineFilled, defineFilled, exchanges.finish]
    cases (putPart parts key value' draft).finish name path with
    | error e => rfl
    | ok d => exact exchanges.requireValid d
  unfold Grammar.readFilled
  cases selectKnown strict .datasource ds with
  | error e => rfl
  | ok known =>
    change known.foldlM DatasourceDraft.take {} >>= _ =
      (known.foldlM DatasourceDraft.take {} >>= _).map _
    cases known.foldlM DatasourceDraft.take {} with
    | error e => rfl
    | ok draft => exact define draft

omit exchanges

/-- What a draft defines, if all its parts are there and fit together. -/
def datasource (draft : DatasourceDraft) (name path : Text) (kafka : Option KafkaIngestion)
    (s3 : Option S3Ingestion) : Datasource where
  name := name
  path := path
  description := draft.description
  columns := draft.columns
  engine := { draft.engine with type := draft.engineType.getD defaultEngine }
  kafka := kafka
  s3 := s3
  forwardQuery := draft.forwardQuery
  tokens := draft.tokens
  sharedWith := draft.sharedWith

theorem finish_map (draft draft' : DatasourceDraft)
    (schema : draft.columns = [] ↔ draft'.columns = [])
    (engine : (draft.engineType.isNone && !draft.saysEngine) =
      (draft'.engineType.isNone && !draft'.saysEngine))
    (sorted : draft.engine.sortingKey = [] ↔ draft'.engine.sortingKey = [])
    (kafka : draft.kafka? = draft'.kafka?) (s3 : draft.s3? = draft'.s3?)
    (same : ∀ kafka s3, datasource draft name path kafka s3 =
      f (datasource draft' name path kafka s3)) :
    draft.finish name path = (draft'.finish name path).map f := by
  simp only [finish, schema, engine, sorted, kafka, s3]
  split
  · rfl
  split
  · rfl
  split
  · rfl
  cases draft'.kafka? with
  | error e => rfl
  | ok kafka =>
    cases draft'.s3? with
    | error e => rfl
    | ok s3 =>
      simp only [bind, Except.bind]
      split
      · rfl
      · exact congrArg Except.ok (same kafka s3)

/-- Columns, if there are some. -/
theorem exchanges_columns {columns columns' : List Column} (some : columns ≠ [])
    (some' : columns' ≠ []) :
    Exchanges .schema columns columns' fun d => { d with columns } := by
  refine ⟨fun draft name path => ?_, fun d => rfl⟩
  have schema : columns = [] ↔ columns' = [] := iff_of_false some some'
  exact finish_map { draft with columns } { draft with columns := columns' } schema rfl Iff.rfl rfl
    rfl fun _ _ => rfl

/-- Keys of an option, if there are some. -/
theorem exchanges_keys {keys keys' : List Text} (option : EngineKeys) (some : keys ≠ [])
    (some' : keys' ≠ []) :
    Exchanges (.engineKeys option) keys keys'
      fun d => { d with engine := d.engine.withKeys keys option } := by
  refine ⟨fun draft name path => ?_, fun d => rfl⟩
  have filled : keys = [] ↔ keys' = [] := iff_of_false some some'
  cases option with
  | sortingKey =>
    exact finish_map (draft.setEngineKeys keys .sortingKey)
      (draft.setEngineKeys keys' .sortingKey) Iff.rfl
      (by simp [saysEngine, setEngineKeys, some, some']) filled rfl rfl fun _ _ => rfl
  | primaryKey =>
    exact finish_map (draft.setEngineKeys keys .primaryKey)
      (draft.setEngineKeys keys' .primaryKey) Iff.rfl
      (by simp [saysEngine, setEngineKeys, some, some']) Iff.rfl rfl rfl fun _ _ => rfl
  | summingColumns =>
    exact finish_map (draft.setEngineKeys keys .summingColumns)
      (draft.setEngineKeys keys' .summingColumns) Iff.rfl
      (by simp [saysEngine, setEngineKeys, some, some']) Iff.rfl rfl rfl fun _ _ => rfl

end Grammar

open Datafile Grammar

variable {file : Datafile} {content content' : Text} {before after after' : List Directive}
  {here here' : Directive} {strict : Bool} {key : DatasourceKeyword} {value value' : key.Part}
  {f : Datasource → Datasource}

theorem Datafile.parse_eq_readFilled (file : Datafile) (isDatasource : file.kind = .datasource)
    (scanned : scan file.content = before ++ here :: after) (fills : Fills key value before here)
    (free : ∀ d ∈ after, keyword? datasourceKeywords d.keyword ≠ some key) :
    file.parse strict =
      (readFilled strict file.name file.path key value (before ++ after)).mapError
        (Fault.map fun cause =>
          { path := file.path, kind := .datasource, name := file.name, cause }) := by
  unfold Datafile.parse
  rw [isDatasource, scanned, ← read_eq_readFilled fills free]

/-- Datasources with another directive in one place are accepted alike, and define the same but for
what the directive fills. -/
theorem Datafile.parse_exchange (isDatasource : file.kind = .datasource)
    (scanned : scan content = before ++ here :: after)
    (scanned' : scan content' = before ++ here' :: after')
    (same : after.map Directive.content = after'.map Directive.content)
    (fills : Fills key value before here) (fills' : Fills key value' before here')
    (free : ∀ d ∈ after, keyword? datasourceKeywords d.keyword ≠ some key)
    (exchanges : Exchanges key value value' f) :
    { file with content := content }.parse strict =
      ({ file with content := content' }.parse strict).map (Resource.mapDatasource f) := by
  have free' : ∀ d ∈ after', keyword? datasourceKeywords d.keyword ≠ some key := by
    intro d member
    have found : d.content ∈ after.map Directive.content := by
      rw [same]
      exact List.mem_map_of_mem member
    obtain ⟨e, member', equal⟩ := List.mem_map.mp found
    have spelled : e.keyword = d.keyword := congrArg Prod.fst equal
    rw [← spelled]
    exact free e member'
  have contents : (before ++ after).map Directive.content =
      (before ++ after').map Directive.content := by
    rw [List.map_append, List.map_append, same]
  rw [Datafile.parse_eq_readFilled { file with content := content } isDatasource scanned fills free,
    Datafile.parse_eq_readFilled { file with content := content' } isDatasource scanned' fills'
      free',
    exchanges.readFilled, readFilled_congr contents]
  cases readFilled strict file.name file.path key value' (before ++ after') <;> rfl

end DatafileMigration
