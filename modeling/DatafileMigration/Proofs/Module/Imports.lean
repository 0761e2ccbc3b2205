import DatafileMigration.Proofs.Batch.Complete
import DatafileMigration.Proofs.Grammar.Identity
import DatafileMigration.Proofs.Module.SchemaMapping
import DatafileMigration.Proofs.Module.Usage
import DatafileMigration.Proofs.Script.Module

namespace DatafileMigration

open Script

variable {strict : Bool}

namespace Grammar

open Datafile

theorem yields_buildDatasource_ne_nil {name path : Text} {ds : List Directive} :
    Yields (fun d => d.columns ≠ []) (buildDatasource name path ds) := by
  rw [buildDatasource, yields_bind]
  intro draft _
  simp only [DatasourceDraft.finish, yields_bind, yields_ite, yields_refuse, yields_pure,
    implies_true, true_and]
  exact fun columns _ _ _ _ _ _ _ => columns

theorem yields_buildPipe_ne_nil {name path : Text} {ds : List Directive} :
    Yields (fun p => p.nodes ≠ []) (buildPipe name path ds) := by
  rw [buildPipe, yields_bind]
  intro draft _
  cases closed : draft.opened with
  | some node => simp [PipeDraft.finish, closed]
  | none =>
    simp only [PipeDraft.finish, closed, yields_bind, yields_ite, yields_refuse, yields_pure,
      implies_true, true_and]
    exact fun nodes _ _ _ _ _ => nodes

/-- What directives define has columns or nodes. So every statement uses all that is imported for
it. -/
theorem yields_build_whole {kind : Kind} {name path : Text} {ds : List Directive} :
    Yields Resource.IsWhole (build kind name path ds) := by
  cases kind with
  | connection =>
    rw [build, yields_map]
    exact fun c _ => trivial
  | datasource =>
    rw [build, yields_map]
    exact yields_buildDatasource_ne_nil
  | pipe =>
    rw [build, yields_map]
    exact yields_buildPipe_ne_nil

end Grammar

namespace Resource

/-- A resource that a file defines, completed. -/
def IsParsed (r : Resource) : Prop :=
  ∃ (file : Datafile) (strict : Bool) (q : Resource),
    file.parse strict = .ok q ∧ q.complete = .ok r

theorem IsParsed.isWhole {r : Resource} (parsed : r.IsParsed) : r.IsWhole := by
  obtain ⟨file, strict, q, parsed, completed⟩ := parsed
  have whole : Yields IsWhole (file.parse strict) := by
    rw [Datafile.parse, yields_mapError, yields_bind]
    intro ds _
    rw [yields_bind]
    refine Grammar.yields_build_whole.mono fun s whole => ?_
    cases valid : s.violations <;> simp [Grammar.requireValid, valid, whole]
  have whole := whole q parsed
  cases q with
  | connection c | datasource d =>
    cases completed
    exact whole
  | pipe p =>
    rw [complete, map_eq_ok] at completed
    obtain ⟨p', completed, rfl⟩ := completed
    obtain ⟨columns, rfl⟩ := p.yields_complete p' completed
    exact whole

/-- The columns of a file that was opened as text stand on one line each. -/
theorem isInline_of_opened {file : Datafile} {text : Text} {q r : Resource}
    (opened : file.content = Text.lineFeeds text) (parsed : file.parse strict = .ok q)
    (completed : q.complete = .ok r) : r.IsInline := by
  cases q with
  | connection c =>
    cases completed
    trivial
  | datasource d =>
    cases completed
    exact file.isInline_columns opened parsed
  | pipe p =>
    rw [complete, map_eq_ok] at completed
    obtain ⟨_, _, rfl⟩ := completed
    trivial

end Resource

namespace Script

/-- What a line assigns: all behind its first equals sign. -/
def rightHandSide (line : List Token) : List Token := (line.dropWhile (· ≠ .mark '=')).tail

/-- The names that a line uses in what it assigns, outside of strings and comments. -/
def usedNames (line : List Token) : List Text := heads false (code (rightHandSide line))

theorem rightHandSide_eq {title call : List Token} {comment w : Text}
    (titled : title = [] ∨ title = [.comment comment]) :
    rightHandSide (title ++ .word w :: .mark '=' :: call) = call := by
  rcases titled with rfl | rfl <;> rfl

end Script

namespace Definition

variable {naming : Naming} {d : Definition}

/-- A line uses what is imported for the resource of a definition, and nothing else. -/
def UsedIn (d : Definition) (line : List Token) : Prop :=
  ∀ w, w ∈ usedNames line ↔ w ∈ d.resource.imports

/-- The statement of a definition is read as the call that it is, which uses all that is imported
for its resource, and nothing else. -/
theorem scan_statement (words : IsWordly naming) (named : Module.IsNamed strict naming d)
    (whole : d.resource.IsWhole) :
    ∃ call, (Holds (d.Brings strict naming) call d.resource.texts ∧
      ∀ w, w ∈ heads false (code call) ↔ w ∈ d.resource.imports) ∧ ∀ title lines,
      Reader.scan { line := title, lines } (d.statement.render naming) = some
        { lines := (title.reverse ++
          .word (naming d.resource.kind d.resource.name) :: .mark '=' :: call) :: lines } := by
  have stated := Resource.statement_of_define named.defined
  obtain ⟨kind, name⟩ := Prod.mk.inj (d.resource.statement_key _ stated)
  obtain ⟨function, names, use, imported⟩ :=
    d.resource.uses_statement words named.inline whole _ stated
  obtain ⟨call, holds, scanned⟩ := Module.scan_statement named
  have snake : Identifier.isSnake (naming d.statement.kind d.statement.name) := by
    rw [kind, name]
    exact named.snake _ List.mem_cons_self
  obtain ⟨solid, chars⟩ := isWordChar_of_isName function
  have spelled := Statement.scan_of_spells snake
    (Statement.spells_call ⟨solid, chars⟩ use) [] []
  have same := scanned [] []
  rw [spelled, kind, name] at same
  injection Option.some.inj same with _ _ _ lines
  injection lines with line
  simp only [List.reverse_nil, List.nil_append, List.cons.injEq, true_and] at line
  refine ⟨call, ⟨holds, fun w => ?_⟩, scanned⟩
  rw [← imported w, ← Statement.heads_call function use w, line]

end Definition

namespace Module

/-- Some name of the development kit is imported for every resource. -/
theorem exists_import (r : Resource) : ∃ w ∈ sdkNames, w ∈ r.imports := by
  cases r with
  | connection c =>
    refine ⟨c.statement.function, ?_, List.mem_cons_self⟩
    cases c with
    | kafka c => exact (by decide +kernel : "create_kafka_connection".toList ∈ sdkNames)
    | s3 c => exact (by decide +kernel : "create_s3_connection".toList ∈ sdkNames)
  | datasource d =>
    exact ⟨"engine", by decide +kernel, List.mem_cons_of_mem _ (List.mem_cons_of_mem _ (.head _))⟩
  | pipe p => exact ⟨"node", by decide +kernel, List.mem_cons_of_mem _ (.head _)⟩

theorem any_imports {ds : List Definition} {lines : List (List Token)}
    (uses : List.Forall₂ Definition.UsedIn ds lines) (w : Text) :
    (ds.any fun d => d.resource.imports.contains w) =
      lines.any fun line => (usedNames line).contains w := by
  induction uses with
  | nil => rfl
  | @cons d line _ _ here _ ih =>
    have same : d.resource.imports.contains w = (usedNames line).contains w := by
      rw [Bool.eq_iff_iff, List.contains_iff_mem, List.contains_iff_mem]
      exact (here w).symm
    rw [List.any_cons, List.any_cons, same, ih]

/-- A module with resources imports something. -/
theorem imports_ne_nil {ds : List Definition} (some : ds ≠ []) :
    (sdkNames.filter fun w => ds.any (·.resource.imports.contains w)) ≠ [] := by
  obtain ⟨d, member⟩ := List.exists_mem_of_ne_nil ds some
  obtain ⟨w, listed, imported⟩ := exists_import d.resource
  refine List.ne_nil_of_mem (List.mem_filter.mpr ⟨listed, List.any_eq_true.mpr ⟨d, member, ?_⟩⟩)
  rw [List.contains_iff_mem]
  exact imported

/-- The import line of a module is exact. A module of parsed resources is read as its notice, a
line that imports names, and one line for each resource; the names are those names of the
development kit, in their order and each of them once, that are used in what the lines of the
resources assign, outside of strings and comments. If the module is not strict, columns that do not
stand on one line may get out of the comments that tell of them. -/
theorem render_imports {rs : List Resource} (some : rs ≠ []) (parsed : ∀ r ∈ rs, r.IsParsed)
    (checked : ∀ r ∈ rs, ∃ t, r.render strict = .ok t) (inline : ∀ r ∈ rs, strict ∨ r.IsInline) :
    ∃ text names lines ds, render strict rs = .ok text ∧
      Script.read text = Option.some ([.string notice] :: importTokens names :: lines) ∧
      ds.map (·.resource) = Resource.sort rs ∧
      List.Forall₂ (Definition.ReadAs strict (Definition.registry ds).lookup) ds lines ∧
      names ≠ [] ∧ names.Nodup ∧
      names = sdkNames.filter fun w => lines.any fun line => (usedNames line).contains w := by
  obtain ⟨ds, rendered, resources, defined⟩ := exists_definitions checked
  have given : ∀ d ∈ ds, d.resource ∈ rs := by
    intro d member
    rw [← Resource.mem_sort, ← resources]
    exact List.mem_map_of_mem member
  have named := isNamed_registry defined fun d member => inline _ (given d member)
  have words : IsWordly (Definition.registry ds).lookup := isWordly_registerAll _
  obtain ⟨lines, all, read⟩ := read_module_of fun d member =>
    Definition.scan_statement words (named d member) (parsed _ (given d member)).isWhole
  have readAs : List.Forall₂ (Definition.ReadAs strict (Definition.registry ds).lookup) ds lines :=
    all.imp fun d line ⟨title, call, spelled, titled, holds, _⟩ =>
      ⟨title, call, spelled, titled, holds⟩
  have uses : List.Forall₂ Definition.UsedIn ds lines := by
    refine all.imp fun d line ⟨title, call, spelled, titled, _, uses⟩ w => ?_
    rw [spelled, usedNames, rightHandSide_eq titled]
    exact uses w
  have equal : (sdkNames.filter fun w => ds.any (·.resource.imports.contains w)) =
      sdkNames.filter fun w => lines.any fun line => (usedNames line).contains w :=
    congrArg (sdkNames.filter ·) (funext fun w => any_imports uses w)
  have imported : (sdkNames.filter fun w => ds.any (·.resource.imports.contains w)) ≠ [] := by
    obtain ⟨r, member⟩ := List.exists_mem_of_ne_nil rs some
    rw [← Resource.mem_sort, ← resources] at member
    obtain ⟨d, member, _⟩ := List.mem_map.mp member
    exact imports_ne_nil (List.ne_nil_of_mem member)
  have opened : openingLines ds = [[.string notice], importTokens
      (sdkNames.filter fun w => ds.any (·.resource.imports.contains w))] := by
    rw [openingLines]
    split
    · exact absurd ‹_› imported
    · rfl
  have distinct : sdkNames.Nodup := by decide +kernel
  refine ⟨_, _, lines, ds, rendered, ?_, resources, readAs, imported, distinct.filter _, equal⟩
  rw [ofDefinitions_eq (pairwise_rank resources), read, opened]
  rfl

end Module

/-- A column of a type that is not migrated, and a key that looks like a call. -/
def callLikeFile : Datafile where
  kind := .datasource
  path := "d.datasource"
  name := "d"
  content := "SCHEMA >\n    a node(1) `json:$.a`\n\nENGINE \"MergeTree\"\n" ++
    "ENGINE_SORTING_KEY \"p.string()\"\n"

def callLike : Resource :=
  .datasource { name := "d", path := "d.datasource",
                columns := [{ name := "a", type := "node(1)", jsonPath := some "$.a" }],
                engine := { type := "MergeTree", sortingKey := ["p.string()"] } }

theorem render_imports_callLike : [callLike] ≠ [] ∧ (∀ r ∈ [callLike], r.IsParsed) ∧
    (∀ r ∈ [callLike], ∃ t, r.render false = .ok t) ∧
    (∀ r ∈ [callLike], false ∨ r.IsInline) ∧
    ∃ text names lines ds, Module.render false [callLike] = .ok text ∧
      Script.read text =
        some ([.string Module.notice] :: Module.importTokens names :: lines) ∧
      ds.map (·.resource) = Resource.sort [callLike] ∧
      List.Forall₂ (Definition.ReadAs false (Definition.registry ds).lookup) ds lines ∧
      names ≠ [] ∧ names.Nodup ∧
      names = sdkNames.filter fun w => lines.any fun line => (usedNames line).contains w := by
  have parsed : callLikeFile.parse false = .ok callLike := by
    unfold callLikeFile callLike
    repeat rw [String.toList_ofList]
    decide +kernel
  have opened : callLikeFile.content = Text.lineFeeds callLikeFile.content := by decide +kernel
  obtain ⟨t, rendered, _⟩ := exists_eq_ok (x := callLike.render false) (p := fun _ => true)
    (by decide +kernel)
  have some : [callLike] ≠ [] := List.cons_ne_nil _ _
  have each : ∀ r ∈ [callLike], r.IsParsed :=
    List.forall_mem_singleton.mpr ⟨callLikeFile, false, callLike, parsed, rfl⟩
  have checked : ∀ r ∈ [callLike], ∃ t, r.render false = .ok t :=
    List.forall_mem_singleton.mpr ⟨t, rendered⟩
  have inline : ∀ r ∈ [callLike], false ∨ r.IsInline :=
    List.forall_mem_singleton.mpr (Or.inr (Resource.isInline_of_opened opened parsed rfl))
  exact ⟨some, each, checked, inline, Module.render_imports some each checked inline⟩

/-- A column whose type goes on behind a carriage return. -/
def tornFile : Datafile where
  kind := .datasource
  path := "d.datasource"
  name := "d"
  content := "SCHEMA >\n    a Foo\r\"b\": node(1)\n\nENGINE \"MergeTree\"\n" ++
    "ENGINE_SORTING_KEY \"a\"\n"

def torn : Resource :=
  .datasource { name := "d", path := "d.datasource",
                columns := [{ name := "a", type := "Foo\r\"b\": node(1)" }],
                engine := { type := "MergeTree", sortingKey := ["a"] } }

/-- The comment ends at the carriage return, and what is behind it uses a name that is not
imported. -/
theorem render_imports_torn : tornFile.parse false = .ok torn ∧ torn.complete = .ok torn ∧
    ∃ t text lines, torn.render false = .ok t ∧ Module.render false [torn] = .ok text ∧
      Script.read text = some ([.string Module.notice] ::
        Module.importTokens ["define_datasource", "t", "engine"] :: lines) ∧
      (sdkNames.filter fun w => lines.any fun line => (usedNames line).contains w) =
        ["define_datasource", "node", "t", "engine"] := by
  obtain ⟨t, rendered, _⟩ := exists_eq_ok (x := torn.render false) (p := fun _ => true)
    (by decide +kernel)
  obtain ⟨text, module, passed⟩ := exists_eq_ok (x := Module.render false [torn])
    (p := fun text => (Script.read text).any fun all =>
      all.take 2 = [[.string Module.notice],
        Module.importTokens ["define_datasource", "t", "engine"]] &&
      (sdkNames.filter fun w => (all.drop 2).any fun line => (usedNames line).contains w) =
        ["define_datasource", "node", "t", "engine"]) (by
      unfold Module.render Module.ofDefinitions Module.header Module.notice sdkNames torn
      repeat rw [List.flatMap_cons]
      repeat rw [String.toList_ofList]
      decide +kernel)
  cases read : Script.read text with
  | none =>
    rw [read] at passed
    cases passed
  | some all =>
    rw [read, Option.any_some, Bool.and_eq_true, decide_eq_true_eq, decide_eq_true_eq] at passed
    have parsed : tornFile.parse false = .ok torn := by
      unfold tornFile torn
      repeat rw [String.toList_ofList]
      decide +kernel
    refine ⟨parsed, rfl, t, text, all.drop 2, rendered, module, ?_, passed.2⟩
    rw [read, ← List.take_append_drop 2 all, passed.1]
    rfl

end DatafileMigration
