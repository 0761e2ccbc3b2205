import DatafileMigration.Proofs.Datafile.Quotation
import DatafileMigration.Proofs.Grammar.Clause
import DatafileMigration.Proofs.Grammar.Order

namespace DatafileMigration

open Datafile Grammar

/-- The lines of a block; a value has none. -/
def Datafile.Body.lines : Body → List Text
  | .inline _ => []
  | .block lines => lines

/-- The lines of columns that a directive of a datasource has. -/
def Datafile.Directive.schemaLines (d : Directive) : List Text :=
  if keyword? datasourceKeywords d.keyword = some .schema then d.body.lines else []

/-- The lines of all schemas of a datasource. -/
def Datafile.schemaLines (file : Datafile) : List Text :=
  (scan file.content).flatMap Directive.schemaLines

variable {x : Char} {lines : List Text}

namespace Datafile

theorem not_mem_scanLines (absent : ∀ line ∈ lines, x ∉ line) (number : Nat) :
    ∀ d ∈ scanLines number lines, ∀ line ∈ d.body.lines, x ∉ line := by
  fun_induction scanLines number lines with
  | case1 => exact List.forall_mem_nil _
  | case2 number line rest stripped skipped ih =>
    exact ih (List.forall_mem_cons.mp absent).2
  | case3 number line rest stripped spoken keyword cut ih =>
    have below := (List.forall_mem_cons.mp absent).2
    refine List.forall_mem_cons.mpr ⟨not_mem_blockContent below, ih fun line member => ?_⟩
    exact below line ((List.dropWhile_sublist _).subset member)
  | case4 number line rest stripped spoken keyword value cut other ih =>
    have above := (List.forall_mem_cons.mp absent).2
    exact List.forall_mem_cons.mpr ⟨List.forall_mem_nil _, ih above⟩

theorem not_mem_schemaLines {file : Datafile} (absent : x = '\n' ∨ x ∉ file.content) :
    ∀ line ∈ file.schemaLines, x ∉ line := by
  have clear : ∀ line ∈ Text.splitOn '\n' file.content, x ∉ line := by
    intro line member
    rcases absent with rfl | absent
    · exact Text.not_mem_of_mem_splitOn member
    · exact fun inside => absent (Text.mem_of_mem_splitOn member inside)
  rw [schemaLines, scan_eq_scanLines, List.forall_mem_flatMap]
  intro d scanned line member
  rw [Directive.schemaLines] at member
  split at member
  · exact not_mem_scanLines clear 1 d scanned line member
  · cases member

end Datafile

/-- A column whose type and default are made of the characters of a text. -/
def Column.IsOf (c : Column) (t : Text) : Prop := c.type ⊆ t ∧ ∀ default ∈ c.default, default ⊆ t

namespace Grammar

open Text (strip)

variable {rest before definition : Text} {taken : Option Text} {c : Column}

theorem strip_subset (t : Text) : strip t ⊆ t := fun _ => Text.mem_of_mem_strip

theorem takeCodec_subset (cut : takeCodec rest = (before, taken)) : before ⊆ rest := by
  unfold takeCodec at cut
  split at cut
  · rename_i front inside found
    obtain ⟨rfl, rfl⟩ := Prod.mk.inj cut
    rw [cutCodec?_eq_search] at found
    obtain ⟨t, rfl, _⟩ := search_eq_some found
    exact List.Subset.trans (strip_subset front) (List.subset_append_left front t)
  · obtain ⟨rfl, rfl⟩ := Prod.mk.inj cut
    exact List.Subset.refl rest

theorem takeDefault_subset (cut : takeDefault rest = (before, taken)) :
    before ⊆ rest ∧ ∀ default ∈ taken, default ⊆ rest := by
  unfold takeDefault at cut
  split at cut
  · obtain ⟨rfl, rfl⟩ := Prod.mk.inj cut
    refine ⟨List.Subset.trans (strip_subset _) (List.take_subset _ rest), ?_⟩
    rintro _ ⟨⟩
    exact List.Subset.trans (strip_subset _) (List.drop_subset _ rest)
  · obtain ⟨rfl, rfl⟩ := Prod.mk.inj cut
    exact ⟨List.Subset.refl rest, nofun⟩

theorem takePath_subset (cut : takePath rest = (before, taken)) : before ⊆ rest := by
  unfold takePath at cut
  split at cut
  · rename_i front path after found
    obtain ⟨rfl, rfl⟩ := Prod.mk.inj cut
    rw [cutJsonPath?_eq_search] at found
    obtain ⟨t, rfl, isHere⟩ := search_eq_some found
    obtain ⟨rfl, _⟩ := pathHere?_eq_some.mp isHere
    refine List.Subset.trans (strip_subset _) ?_
    rw [List.append_subset]
    exact ⟨List.subset_append_left _ _, List.subset_append_of_subset_right _
      (List.subset_append_right _ after)⟩
  · obtain ⟨rfl, rfl⟩ := Prod.mk.inj cut
    exact List.Subset.refl rest

theorem isOf_of_readColumn (read : readColumn definition = .ok c) : c.IsOf definition := by
  obtain ⟨word, rest, before, head, cut, _, _, _, codec, default, path, _⟩ :=
    readColumn_eq_ok.mp read
  rw [Text.cutWord_strip] at cut
  obtain ⟨_, rfl⟩ := Prod.mk.inj cut
  have inside : before ⊆ definition := by
    refine List.Subset.trans (takeCodec_subset codec) (List.Subset.trans (strip_subset _) ?_)
    exact List.Subset.trans (List.dropWhile_subset _) (List.dropWhile_subset _)
  obtain ⟨front, valued⟩ := takeDefault_subset default
  refine ⟨List.Subset.trans (takePath_subset path) (List.Subset.trans front inside), ?_⟩
  exact fun default member => List.Subset.trans (valued default member) inside

theorem isOf_of_readSchema :
    Yields (fun columns => ∀ c ∈ columns, ∃ line ∈ lines, c.IsOf line) (readSchema lines) := by
  rw [readSchema]
  refine yields_mapM fun definition member c read => ?_
  obtain ⟨line, kept, isPart⟩ := List.mem_flatMap.mp member
  have of := isOf_of_readColumn read
  have inside : definition ⊆ line := fun _ => Text.mem_of_mem_splitTopLevel isPart
  refine ⟨line, (List.mem_filter.mp kept).1, List.Subset.trans of.1 inside, ?_⟩
  exact fun default member => List.Subset.trans (of.2 default member) inside

variable {d : Directive} {ds : List Directive}

theorem readSchema_append (lines lines' : List Text) :
    readSchema (lines ++ lines') =
      (do return (← readSchema lines) ++ (← readSchema lines')) := by
  rw [readSchema, List.filter_append, List.flatMap_append, List.mapM_append]
  rfl

namespace DatasourceDraft

variable {draft : DatasourceDraft}

/-- One draft comes from another by the columns of more lines. -/
def Gathers (draft next : DatasourceDraft) (lines : List Text) : Prop :=
  ∃ columns, readSchema lines = .ok columns ∧ next.columns = draft.columns ++ columns

theorem gathers_of_same {next : DatasourceDraft} (same : next.columns = draft.columns) :
    draft.Gathers next [] := ⟨[], rfl, same.trans (List.append_nil _).symm⟩

theorem gathers_take : Yields (draft.Gathers · d.schemaLines) (draft.take d) := by
  intro next taken
  by_cases schema : keyword? datasourceKeywords d.keyword = some .schema
  · rw [Directive.schemaLines, if_pos schema]
    rw [take, schema] at taken
    obtain ⟨lines, required, taken⟩ := bind_eq_ok.mp taken
    split at taken
    · cases taken
    obtain ⟨columns, read, taken⟩ := bind_eq_ok.mp taken
    cases taken
    refine ⟨columns, ?_, rfl⟩
    rw [requireBlock] at required
    split at required
    · rename_i block body
      cases required
      rw [body]
      exact yields_mapError.mpr yields_self columns read
    · cases required
  · rw [Directive.schemaLines, if_neg schema]
    have kept : parts next .schema = parts draft .schema := (fillsPart_take d).frame taken schema
    exact gathers_of_same kept

theorem gathers_foldlM_take :
    Yields (draft.Gathers · (ds.flatMap Directive.schemaLines)) (ds.foldlM take draft) := by
  induction ds generalizing draft with
  | nil => exact yields_pure.mpr (gathers_of_same rfl)
  | cons d ds ih =>
    rw [List.foldlM_cons, yields_bind]
    intro next taken last folded
    obtain ⟨columns, read, first⟩ := gathers_take next taken
    obtain ⟨more, read', behind⟩ := ih last folded
    refine ⟨columns ++ more, ?_, by rw [behind, first, List.append_assoc]⟩
    rw [List.flatMap_cons, readSchema_append, read, read']
    rfl

end DatasourceDraft

theorem flatMap_knownDirectives (ds : List Directive) :
    (knownDirectives .datasource ds).flatMap Directive.schemaLines =
      ds.flatMap Directive.schemaLines := by
  induction ds with
  | nil => rfl
  | cons d ds ih =>
    rw [knownDirectives, List.filter_cons, List.flatMap_cons]
    split
    · rw [List.flatMap_cons, ← knownDirectives, ih]
    · rename_i unknown
      have none : d.schemaLines = [] := by
        refine if_neg fun schema => unknown (List.contains_iff_mem.mpr ?_)
        exact List.mem_map_of_mem (mem_of_keyword? schema)
      rw [none, List.nil_append, ← knownDirectives, ih]

theorem yields_buildDatasource_columns {name path : Text} :
    Yields (fun d => readSchema (ds.flatMap Directive.schemaLines) = .ok d.columns)
      (buildDatasource name path ds) := by
  rw [buildDatasource, yields_bind]
  refine DatasourceDraft.gathers_foldlM_take.mono fun draft gathers => ?_
  obtain ⟨columns, read, gathered⟩ := gathers
  have same : draft.columns = columns := gathered
  simp [DatasourceDraft.finish, yields_ite, same, read]

end Grammar

variable {strict : Bool} {file : Datafile} {d : Datasource}

/-- The columns of a file are those of all its schemas, one behind the other. -/
theorem Datafile.readSchema_schemaLines (parsed : file.parse strict = .ok (.datasource d)) :
    readSchema file.schemaLines = .ok d.columns := by
  obtain ⟨known, selected, made⟩ := bind_eq_ok.mp (yields_mapError.mpr yields_self _ parsed)
  obtain ⟨_, rfl⟩ := selectKnown_eq_ok.mp selected
  obtain ⟨resource, built, valid⟩ := bind_eq_ok.mp made
  obtain rfl : resource = .datasource d := by
    rw [requireValid] at valid
    split at valid
    · exact Except.ok.inj valid
    · cases valid
  cases kind : file.kind with
  | datasource =>
    rw [kind] at built
    obtain ⟨_, built, same⟩ := map_eq_ok.mp built
    cases same
    have read := yields_buildDatasource_columns _ built
    rwa [flatMap_knownDirectives] at read
  | connection | pipe =>
    rw [kind] at built
    obtain ⟨_, _, other⟩ := map_eq_ok.mp built
    cases other

/-- Where the lines of a file end with line feeds, its columns stand on one line each. -/
theorem Datafile.not_mem_columns (parsed : file.parse strict = .ok (.datasource d))
    (absent : x = '\n' ∨ x ∉ file.content) :
    ∀ c ∈ d.columns, x ∉ c.type ∧ ∀ default ∈ c.default, x ∉ default := by
  intro c member
  obtain ⟨line, written, type, default⟩ :=
    isOf_of_readSchema d.columns (file.readSchema_schemaLines parsed) c member
  have clear := file.not_mem_schemaLines absent line written
  exact ⟨fun inside => clear (type inside), fun _ valued inside => clear (default _ valued inside)⟩

end DatafileMigration
