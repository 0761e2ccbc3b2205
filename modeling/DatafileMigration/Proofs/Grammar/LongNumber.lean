import Mathlib.Data.List.Nodup
import DatafileMigration.Grammar.Parse
import DatafileMigration.Proofs.Template.LongOption

namespace DatafileMigration.Grammar

open Datafile

variable {α : Type}

@[simp]
theorem not_breaks_refuse (cause : Cause) : ¬ Breaks (refuse cause : Parse α) :=
  not_breaks_refused cause

@[simp]
theorem not_breaks_requireBlock (d : Directive) : ¬ Breaks (requireBlock d) := by
  cases found : d.body <;> simp [requireBlock, found]

@[simp]
theorem not_breaks_requireInline (d : Directive) : ¬ Breaks (requireInline d) := by
  cases found : d.body <;> simp [requireInline, found]

@[simp]
theorem not_breaks_requireUnquoted (d : Directive) : ¬ Breaks (requireUnquoted d) := by
  simp [requireUnquoted]

theorem mem_of_keyword? {table : List (Text × α)} {t : Text} {a : α}
    (found : keyword? table t = some a) : (t, a) ∈ table := by
  obtain ⟨⟨spelling, b⟩, first, rfl⟩ := Option.map_eq_some_iff.mp found
  have same : spelling = t := by simpa using List.find?_some first
  rw [← same]
  exact List.mem_of_find?_eq_some first

/-- There is one way to spell a keyword, if a table has each keyword once. -/
theorem keyword?_injective {table : List (Text × α)} {t u : Text} {a : α}
    (distinct : (table.map (·.2)).Nodup) (found : keyword? table t = some a)
    (found' : keyword? table u = some a) : t = u :=
  congrArg (·.1) <|
    List.inj_on_of_nodup_map distinct (mem_of_keyword? found) (mem_of_keyword? found') rfl

theorem keyword?_eq_some_iff {table : List (Text × α)} {t u : Text} {a : α}
    (distinct : (table.map (·.2)).Nodup) (spells : keyword? table t = some a) :
    keyword? table u = some a ↔ u = t :=
  ⟨fun found => keyword?_injective distinct found spells, fun same => same ▸ spells⟩

/-- A setting whose value is an integer of too many digits. -/
def LongSetting (part : Text) : Prop :=
  ∃ key raw, Text.cutAt? '=' part = some (key, raw) ∧ Text.strip key ≠ [] ∧
    IsLongInteger (Text.strip raw)

theorem insideQuotes?_of_long {raw : Text} (long : IsLongInteger raw) :
    insideQuotes? '\'' raw = none := by
  obtain ⟨c, rest, rfl, first⟩ := long.head
  have other : c ≠ '\'' := by
    rintro rfl
    rcases first with sign | digit
    · exact absurd sign (by decide)
    · exact absurd digit (by decide)
  rw [insideQuotes?, if_neg other]

theorem breaks_readSettingValue {raw : Text} :
    Breaks (readSettingValue raw) ↔ IsLongInteger raw := by
  unfold readSettingValue
  cases quoted : insideQuotes? '\'' raw with
  | some inside =>
    refine ⟨fun broken => absurd broken (not_breaks_ok _), fun long => ?_⟩
    rw [insideQuotes?_of_long long] at quoted
    cases quoted
  | none =>
    rw [← PlainNumber.no_value_iff]
    cases read : PlainNumber.ofText? raw with
    | some x => simp
    | none =>
      simp only [breaks_ite, not_breaks_ok, not_breaks_refuse, and_false, or_self, reduceCtorEq,
        false_and, exists_false]

theorem breaks_readSetting {part : Text} : Breaks (readSetting part) ↔ LongSetting part := by
  unfold readSetting LongSetting
  cases cut : Text.cutAt? '=' part with
  | none => simp
  | some entry =>
    obtain ⟨key, raw⟩ := entry
    simp only [breaks_ite, not_breaks_refuse, and_false, false_or, breaks_map,
      breaks_readSettingValue, Option.some.injEq, Prod.mk.injEq]
    constructor
    · rintro ⟨named, long⟩
      exact ⟨key, raw, ⟨rfl, rfl⟩, named, long⟩
    · rintro ⟨_, _, ⟨rfl, rfl⟩, named, long⟩
      exact ⟨named, long⟩

/-- The settings of a list break down exactly if they come to a long integer. -/
theorem breaks_readSettings {value : Text} :
    Breaks (readSettings value) ↔
      Reaches readSetting LongSetting (Text.splitTopLevel (unquote value)) := by
  rw [readSettings, breaks_foldlM]
  refine (foldReaches_congr ?_).trans (foldReaches_iff_reaches ?_)
  · intro known part
    simp only [breaks_bind, breaks_readSetting, not_breaks_pure, and_false, exists_false, or_false]
  · intro known part
    cases readSetting part <;> simp [bind, Except.bind, pure, Except.pure]

/-- A directive whose settings come to an integer of too many digits. -/
def HasLongSetting (d : Directive) : Prop :=
  d.keyword = "ENGINE_SETTINGS" ∧ ∃ value, d.body = .inline value ∧
    Reaches readSetting LongSetting (Text.splitTopLevel (unquote value))

theorem hasLongSetting_iff {d : Directive} :
    HasLongSetting d ↔ keyword? datasourceKeywords d.keyword = some .engineSettings ∧
      ∃ value, requireInline d = .ok value ∧ Breaks (readSettings value) := by
  have inline (value : Text) : requireInline d = .ok value ↔ d.body = .inline value := by
    cases found : d.body <;> simp [requireInline, found, refuse]
  simp only [HasLongSetting, breaks_readSettings, inline]
  refine and_congr ⟨?_, ?_⟩ Iff.rfl
  · intro spelled
    rw [spelled]
    rfl
  · intro found
    simpa [datasourceKeywords] using mem_of_keyword? found

theorem DatasourceDraft.breaks_take {draft : DatasourceDraft} {d : Directive} :
    Breaks (draft.take d) ↔ HasLongSetting d := by
  rw [hasLongSetting_iff]
  unfold DatasourceDraft.take
  cases found : keyword? datasourceKeywords d.keyword with
  | none => simp
  | some keyword =>
    cases keyword with
    | engineSettings => simp [breaks_bind]
    | schema => simp [breaks_bind, breaks_ite]
    | forwardQuery => simp [breaks_bind, breaks_ite]
    | offsetReset =>
      refine iff_of_false (not_breaks_bind (not_breaks_requireInline d) ?_) (by simp)
      intro value _
      cases read : (Choice.ofText? (Text.strip value) : Option OffsetReset) <;> simp [read]
    | storeRawValue =>
      refine iff_of_false (not_breaks_bind (not_breaks_requireInline d) ?_) (by simp)
      intro value _
      cases read : flag? (Text.strip value) <;> simp [read]
    | token => simp [breaks_bind]
    | description | sharedWith | engine | engineText | engineKeys | topic | bucket => simp

theorem DatasourceDraft.not_breaks_finish {draft : DatasourceDraft} {name path : Text} :
    ¬ Breaks (draft.finish name path) := by
  have kafka : ¬ Breaks draft.kafka? := by simp [kafka?, breaks_ite]
  have s3 : ¬ Breaks draft.s3? := by simp [s3?, breaks_ite]
  simp [finish, breaks_bind, breaks_ite, kafka, s3]

theorem breaks_buildDatasource {name path : Text} {ds : List Directive} :
    Breaks (buildDatasource name path ds) ↔
      FoldReaches DatasourceDraft.take (fun _ => HasLongSetting) {} ds := by
  simp only [buildDatasource, breaks_bind, DatasourceDraft.not_breaks_finish, and_false,
    exists_false, or_false, breaks_foldlM, DatasourceDraft.breaks_take]

theorem PipeDraft.not_breaks_set {draft : PipeDraft} {d : Directive} {keyword : PipeKeyword} :
    ¬ Breaks (draft.set d keyword) := by
  cases keyword with
  | description | node | sql | datasource | targetDatasource | copySchedule => simp [set]
  | type | cache | token => simp [set, breaks_bind]
  | deploymentMethod => simp [set, breaks_bind, breaks_ite, -String.reduceToList]
  | copyMode =>
    refine not_breaks_bind (not_breaks_requireUnquoted d) ?_
    intro value _
    cases (Choice.ofText? value : Option CopyMode) <;> simp

/-- No directive of a pipe breaks down; parameters are read when all directives are taken. -/
theorem PipeDraft.not_breaks_take {draft : PipeDraft} {d : Directive} :
    ¬ Breaks (draft.take d) := by
  unfold PipeDraft.take
  cases keyword? pipeKeywords d.keyword with
  | none => simp
  | some keyword =>
    cases keyword with
    | description | sql => simp
    | node | type | cache | datasource | deploymentMethod | targetDatasource | copySchedule |
      copyMode | token =>
      cases draft.opened with
      | some node => simp
      | none => simp [breaks_bind, not_breaks_set]

/-- The parts of a draft are all there and fit together, its type takes parameters, and its queries
come to a call with an integer of too many digits. -/
structure PipeDraft.HasLongOption (draft : PipeDraft) : Prop where
  closed : draft.opened = none
  nodes : draft.nodes ≠ []
  type : draft.type = .endpoint ∨ draft.type = .pipe ∧ draft.cacheTtl = none
  reach : Reaches Template.Call.usage? Template.Call.HasLongOption
    (Template.queryCalls (Text.join "\n" draft.queries))

theorem PipeDraft.breaks_parameters {draft : PipeDraft} :
    Breaks draft.parameters ↔ ¬ (draft.type = .materialized ∨ draft.type = .copy) ∧
      Reaches Template.Call.usage? Template.Call.HasLongOption
        (Template.queryCalls (Text.join "\n" draft.queries)) := by
  rw [← Template.breaks_parameters]
  cases type : draft.type <;> simp [PipeDraft.parameters, type]

theorem PipeDraft.breaks_finish {draft : PipeDraft} {name path : Text} :
    Breaks (draft.finish name path) ↔ draft.HasLongOption := by
  unfold PipeDraft.finish
  cases closed : draft.opened with
  | some node =>
    refine iff_of_false (by simp [refuse, bind, Except.bind]) ?_
    intro long
    have opened := long.closed
    rw [closed] at opened
    cases opened
  | none =>
    by_cases nodes : draft.nodes = []
    · refine iff_of_false (by simp [nodes, refuse, bind, Except.bind]) ?_
      intro long
      exact long.nodes nodes
    have long_iff : draft.HasLongOption ↔
        (draft.type = .endpoint ∨ draft.type = .pipe ∧ draft.cacheTtl = none) ∧
          Reaches Template.Call.usage? Template.Call.HasLongOption
            (Template.queryCalls (Text.join "\n" draft.queries)) :=
      ⟨fun long => ⟨long.type, long.reach⟩, fun ⟨type, reach⟩ => ⟨closed, nodes, type, reach⟩⟩
    -- What is left is refused by the type alone, or left to the parameters.
    rw [long_iff]
    have parameters := @breaks_parameters draft
    cases type : draft.type with
    | endpoint => simp [nodes, parameters, type]
    | pipe =>
      cases ttl : draft.cacheTtl with
      | none => simp [nodes, parameters, type]
      | some seconds => simp [nodes, refuse, bind, Except.bind]
    | materialized => simp [nodes, breaks_bind, breaks_ite, parameters, type]
    | copy => simp [nodes, breaks_bind, breaks_ite, parameters, type]

theorem breaks_buildPipe {name path : Text} {ds : List Directive} :
    Breaks (buildPipe name path ds) ↔
      ∃ draft, ds.foldlM PipeDraft.take {} = .ok draft ∧ draft.HasLongOption := by
  have whole : ¬ Breaks (ds.foldlM PipeDraft.take {}) :=
    not_breaks_foldlM fun _ _ => PipeDraft.not_breaks_take
  simp only [buildPipe, breaks_bind, whole, false_or, PipeDraft.breaks_finish]

theorem ConnectionDraft.not_breaks_take {draft : ConnectionDraft} {d : Directive} :
    ¬ Breaks (draft.take d) := by
  unfold ConnectionDraft.take
  cases keyword? connectionKeywords d.keyword with
  | none => simp
  | some keyword => cases keyword <;> simp [breaks_ite]

theorem ConnectionDraft.not_breaks_choose [Choice α] {refusal : Text → Cause} {t : Option Text} :
    ¬ Breaks (choose refusal t : Parse (Option α)) := by
  cases t with
  | none => simp [choose]
  | some t => cases read : (Choice.ofText? t : Option α) <;> simp [choose, read]

theorem not_breaks_buildConnection {name path : Text} {ds : List Directive} :
    ¬ Breaks (buildConnection name path ds) := by
  refine not_breaks_bind (not_breaks_foldlM fun _ _ => ConnectionDraft.not_breaks_take) ?_
  intro draft _
  simp [ConnectionDraft.finish, ConnectionDraft.toKafka, ConnectionDraft.toS3, breaks_ite,
    breaks_bind, ConnectionDraft.not_breaks_choose, -String.reduceToList]

theorem selectKnown_eq_ok {strict : Bool} {kind : Kind} {ds known : List Directive} :
    selectKnown strict kind ds = .ok known ↔
      (strict → unknownDirectives kind ds = []) ∧ knownDirectives kind ds = known := by
  cases strict <;> by_cases unknown : unknownDirectives kind ds = [] <;>
    simp [selectKnown, unknown, refuse]

end DatafileMigration.Grammar

namespace DatafileMigration

open Grammar

/-- A file comes to an integer of too many digits, before anything refuses it: in the settings of
an engine, or in a parameter of a pipe all of whose directives are taken. -/
inductive Datafile.HasLongNumber (strict : Bool) (file : Datafile) : Prop
  | setting : file.kind = .datasource → (strict → file.skipped = []) →
      FoldReaches DatasourceDraft.take (fun _ => HasLongSetting) {}
        (knownDirectives .datasource (Datafile.scan file.content)) →
      HasLongNumber strict file
  | option {draft} : file.kind = .pipe → (strict → file.skipped = []) →
      (knownDirectives .pipe (Datafile.scan file.content)).foldlM PipeDraft.take {} = .ok draft →
      draft.HasLongOption → HasLongNumber strict file

theorem not_breaks_selectKnown {strict : Bool} {kind : Kind} {ds : List Datafile.Directive} :
    ¬ Breaks (selectKnown strict kind ds) := by
  simp [selectKnown, breaks_ite]

theorem not_breaks_requireValid {kind : Kind} {r : Resource} : ¬ Breaks (requireValid kind r) := by
  cases found : r.violations <;> simp [requireValid, found]

/-- Parsing a file breaks down exactly with an integer of too many digits. -/
theorem Datafile.breaks_parse {strict : Bool} {file : Datafile} :
    Breaks (file.parse strict) ↔ file.HasLongNumber strict := by
  have build_iff : Breaks (file.parse strict) ↔ (strict → file.skipped = []) ∧
      Breaks (build file.kind file.name file.path
        (knownDirectives file.kind (Datafile.scan file.content))) := by
    simp only [Datafile.parse, breaks_mapError_map, breaks_bind, not_breaks_selectKnown,
      not_breaks_requireValid, selectKnown_eq_ok, Datafile.skipped, and_false, exists_false,
      or_false, false_or]
    constructor
    · rintro ⟨known, ⟨none, rfl⟩, broken⟩
      exact ⟨none, broken⟩
    · rintro ⟨none, broken⟩
      exact ⟨_, ⟨none, rfl⟩, broken⟩
  rw [build_iff]
  cases kind : file.kind with
  | connection =>
    refine iff_of_false (by simp [build, not_breaks_buildConnection]) ?_
    rintro (⟨other, _, _⟩ | ⟨other, _, _, _⟩) <;> rw [kind] at other <;> cases other
  | datasource =>
    simp only [build, breaks_map, breaks_buildDatasource]
    constructor
    · rintro ⟨none, reach⟩
      exact .setting kind none reach
    · rintro (⟨_, none, reach⟩ | ⟨other, _, _, _⟩)
      · exact ⟨none, reach⟩
      · rw [kind] at other
        cases other
  | pipe =>
    simp only [build, breaks_map, breaks_buildPipe]
    constructor
    · rintro ⟨none, draft, taken, long⟩
      exact .option kind none taken long
    · rintro (⟨other, _, _⟩ | ⟨_, none, taken, long⟩)
      · rw [kind] at other
        cases other
      · exact ⟨none, _, taken, long⟩

end DatafileMigration
