import DatafileMigration.Proofs.Fault.Yields
import DatafileMigration.Proofs.Grammar.Identity

namespace DatafileMigration

namespace Grammar

open Datafile

/-- A cause that the grammar gives, and not the conditions of the resource. -/
def Grammatical (cause : Cause) : Prop := ∀ kind vs, cause ≠ .invalid kind vs

/-- A fault from before the conditions: a breakdown, or a refusal by the grammar. -/
def Early (fault : Fault Cause) : Prop := ∀ cause, fault = .refused cause → Grammatical cause

@[simp]
theorem grammatical_of_ne {cause : Cause} (other : ∀ kind vs, cause ≠ .invalid kind vs) :
    Grammatical cause := other

@[simp]
theorem early_refused {cause : Cause} : Early (.refused cause) ↔ Grammatical cause := by
  simp [Early]

@[simp]
theorem early_broken {why : Breakdown} : Early (.broken why) := by
  intro cause equal
  cases equal

variable {α : Type}

@[simp]
theorem throws_refuse {P : Fault Cause → Prop} {cause : Cause} :
    Throws P (refuse cause : Parse α) ↔ P (.refused cause) := throws_error

@[simp]
theorem early_requireBlock (d : Directive) : Throws Early (requireBlock d) := by
  cases found : d.body <;> simp [requireBlock, found]

@[simp]
theorem early_requireInline (d : Directive) : Throws Early (requireInline d) := by
  cases found : d.body <;> simp [requireInline, found]

@[simp]
theorem early_requireUnquoted (d : Directive) : Throws Early (requireUnquoted d) := by
  simp [requireUnquoted]

theorem grammatical_readColumn (definition : Text) :
    Throws Grammatical (readColumn definition) := by
  simp [readColumn, throws_ite]

theorem early_readSettingValue (raw : Text) :
    Throws Early (readSettingValue raw) := by
  unfold readSettingValue
  cases insideQuotes? '\'' raw with
  | some inside => exact throws_ok
  | none =>
    cases PlainNumber.ofText? raw with
    | some x => simp
    | none =>
      have refused : Throws Early (refuse (.settingValue raw) : Parse Scalar) := by simp
      simp only [throws_ite, throws_ok, refused, implies_true, and_self]

theorem early_readSetting (part : Text) : Throws Early (readSetting part) := by
  unfold readSetting
  cases Text.cutAt? '=' part <;> simp [throws_ite, early_readSettingValue]

theorem early_readSettings (value : Text) : Throws Early (readSettings value) :=
  throws_foldlM fun known part => by simp [early_readSetting]

theorem grammatical_readDatasourceToken (value : Text) :
    Throws Grammatical (readDatasourceToken value) := by
  unfold readDatasourceToken
  dsimp only
  split
  · simp only [pure_bind]
    split <;> simp
  · split
    · simp only [pure_bind]
      split <;> simp
    · simp
    · simp

theorem DatasourceDraft.early_take (draft : DatasourceDraft) (d : Directive) :
    Throws Early (draft.take d) := by
  unfold take
  cases keyword? datasourceKeywords d.keyword with
  | none => exact throws_ok
  | some keyword =>
    cases keyword with
    | description | sharedWith | engine | engineText | engineKeys | topic | bucket => simp
    | schema =>
      have columns (lines : List Text) :
          Throws Grammatical (readSchema lines) :=
        throws_mapM grammatical_readColumn
      simp [throws_ite, columns]
    | forwardQuery => simp [throws_ite]
    | engineSettings => simp [early_readSettings]
    | offsetReset =>
      refine throws_bind.mpr ⟨early_requireInline d, fun value _ => ?_⟩
      cases read : (Choice.ofText? (Text.strip value) : Option OffsetReset) <;>
        simp [read]
    | storeRawValue =>
      refine throws_bind.mpr ⟨early_requireInline d, fun value _ => ?_⟩
      cases read : flag? (Text.strip value) <;> simp [read]
    | token => simp [grammatical_readDatasourceToken]

theorem DatasourceDraft.early_finish (draft : DatasourceDraft) (name path : Text) :
    Throws Early (draft.finish name path) := by
  have kafka : Throws Early draft.kafka? := by simp [kafka?, throws_ite]
  have s3 : Throws Early draft.s3? := by simp [s3?, throws_ite]
  simp [finish, throws_ite, kafka, s3]

theorem grammatical_readCache (value : Text) :
    Throws Grammatical (readCache value) := by
  unfold readCache
  cases integer? value <;> simp [throws_ite]

theorem grammatical_readPipeType (value : Text) :
    Throws Grammatical (readPipeType value) := by
  unfold readPipeType
  split <;> simp

theorem grammatical_readPipeToken (value : Text) :
    Throws Grammatical (readPipeToken value) := by
  unfold readPipeToken
  dsimp only
  split
  · simp [throws_ite, -String.reduceToList]
  · split <;> simp [throws_ite, -String.reduceToList]

theorem grammatical_readSql (node : Text) (d : Directive) :
    Throws Grammatical (readSql node d) := by
  unfold readSql
  split <;> simp [throws_ite]

namespace PipeDraft

theorem grammatical_describe (draft : PipeDraft) (text : Text) :
    Throws Grammatical (draft.describe text) := by
  unfold describe
  cases draft.opened with
  | some node => exact throws_ok
  | none => cases draft.nodes.getLast? <;> simp [throws_ite]

theorem grammatical_openNode (draft : PipeDraft) (name : Text) :
    Throws Grammatical (draft.openNode name) := by
  simp [openNode, throws_ite]

theorem grammatical_closeNode (draft : PipeDraft) (d : Directive) :
    Throws Grammatical (draft.closeNode d) := by
  unfold closeNode
  cases draft.opened with
  | none => simp
  | some node => simp [grammatical_readSql]

theorem early_set (draft : PipeDraft) (d : Directive) (keyword : PipeKeyword) :
    Throws Early (draft.set d keyword) := by
  cases keyword with
  | description | node | sql | datasource | targetDatasource | copySchedule => simp [set]
  | type => simp [set, grammatical_readPipeType]
  | cache => simp [set, grammatical_readCache]
  | token => simp [set, grammatical_readPipeToken]
  | deploymentMethod =>
    have refused (value : Text) :
        Throws Early (refuse (.deploymentMethod value) : Parse PipeDraft) := by simp
    simp only [set, throws_bind, throws_ite, throws_pure, early_requireUnquoted, refused,
      yields_true, implies_true, and_self]
  | copyMode =>
    refine throws_bind.mpr ⟨early_requireUnquoted d, fun value _ => ?_⟩
    cases read : (Choice.ofText? value : Option CopyMode) <;> simp [read]

theorem early_take (draft : PipeDraft) (d : Directive) :
    Throws Early (draft.take d) := by
  unfold take
  cases keyword? pipeKeywords d.keyword with
  | none => exact throws_ok
  | some keyword =>
    cases keyword with
    | description => simp [grammatical_describe]
    | sql => simp [grammatical_closeNode]
    | node | type | cache | datasource | deploymentMethod | targetDatasource | copySchedule |
      copyMode | token =>
      cases draft.opened with
      | some node => simp
      | none => simp [grammatical_openNode, early_set]

theorem early_parameters (draft : PipeDraft) : Throws Early draft.parameters := by
  have whole (read : Except (Fault Template.ParameterError) (List Parameter)) :
      Throws Early (read.mapError (Fault.map .parameter)) := by
    rw [throws_mapError]
    rintro (cause | why) _ <;> simp [Fault.map]
  cases type : draft.type <;> simp [parameters, type, whole]

theorem early_finish (draft : PipeDraft) (name path : Text) :
    Throws Early (draft.finish name path) := by
  cases closed : draft.opened <;>
    simp [finish, closed, throws_ite, early_parameters]

end PipeDraft

namespace ConnectionDraft

theorem early_take (draft : ConnectionDraft) (d : Directive) :
    Throws Early (draft.take d) := by
  unfold take
  cases keyword? connectionKeywords d.keyword with
  | none => exact throws_ok
  | some keyword => cases keyword <;> simp [throws_ite]

theorem early_choose [Choice α] {refusal : Text → Cause}
    (grammatical : ∀ t, Grammatical (refusal t)) (t : Option Text) :
    Throws Early (choose refusal t : Parse (Option α)) := by
  cases t with
  | none => exact throws_ok
  | some t =>
    cases read : (Choice.ofText? t : Option α) <;> simp [choose, read, grammatical]

theorem early_finish (draft : ConnectionDraft) (name path : Text) :
    Throws Early (draft.finish name path) := by
  have protocol : Throws Early
      (choose .securityProtocol draft.securityProtocol : Parse (Option SecurityProtocol)) :=
    early_choose (fun _ => by simp) _
  have mechanism : Throws Early
      (choose .saslMechanism draft.saslMechanism : Parse (Option SaslMechanism)) :=
    early_choose (fun _ => by simp) _
  have kafka : Throws Early (draft.toKafka name path) := by
    simp [toKafka, throws_ite, protocol, mechanism]
  have s3 : Throws Early (draft.toS3 name path) := by simp [toS3, throws_ite]
  have missing : Throws Early (refuse .typeRequired : Parse Connection) := by simp
  have unknown (type : Text) : Throws Early (refuse (.connectionType type) : Parse Connection) := by
    simp
  simp only [finish, throws_ite, kafka, s3, missing, unknown, implies_true, and_self]

end ConnectionDraft

theorem early_build (kind : Kind) (name path : Text) (ds : List Directive) :
    Throws Early (build kind name path ds) := by
  cases kind with
  | connection =>
    rw [build, throws_map, buildConnection, throws_bind]
    exact ⟨throws_foldlM ConnectionDraft.early_take,
      fun draft _ => draft.early_finish name path⟩
  | datasource =>
    rw [build, throws_map, buildDatasource, throws_bind]
    exact ⟨throws_foldlM DatasourceDraft.early_take,
      fun draft _ => draft.early_finish name path⟩
  | pipe =>
    rw [build, throws_map, buildPipe, throws_bind]
    exact ⟨throws_foldlM PipeDraft.early_take,
      fun draft _ => draft.early_finish name path⟩

theorem early_selectKnown (strict : Bool) (kind : Kind) (ds : List Directive) :
    Throws Early (selectKnown strict kind ds) := by
  simp [selectKnown, throws_ite]

end Grammar

end DatafileMigration
