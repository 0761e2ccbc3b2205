import DatafileMigration.Proofs.Grammar.Exchange
import DatafileMigration.Proofs.Text.TopLevel

namespace DatafileMigration

namespace Grammar

open Datafile
open Text (strip stripStart stripEnd isBlankText splitTopLevel IsWhole)

variable {lines definitions : List Text} {line definition : Text}

/-- What a schema's lines say: stripped, without blank lines and comments. -/
def schemaTexts (lines : List Text) : List Text :=
  (lines.map strip).filter fun t => t ≠ [] && !Text.startsWith "#" t

theorem readSchema_eq (lines : List Text) :
    readSchema lines = ((schemaTexts lines).flatMap splitTopLevel).mapM readColumn := by
  rw [schemaTexts, List.filter_map, List.flatMap_map]
  simp only [Text.splitTopLevel_strip]
  rfl

theorem schemaTexts_congr {lines' : List Text} (same : lines.map strip = lines'.map strip) :
    schemaTexts lines = schemaTexts lines' := by
  rw [schemaTexts, schemaTexts, same]

theorem schemaTexts_cons_of_skipped (skipped : strip line = [] ∨ Text.startsWith "#" (strip line))
    (lines : List Text) : schemaTexts (line :: lines) = schemaTexts lines := by
  have dropped : ¬ (strip line ≠ [] && !Text.startsWith "#" (strip line)) = true := by
    rcases skipped with blank | comment
    · simp [blank]
    · simp only [comment, Bool.not_true, Bool.and_false, Bool.false_eq_true, not_false_eq_true]
  rw [schemaTexts, List.map_cons, List.filter_cons]
  exact if_neg dropped

/-- A line that starts with another character than a comment does is kept. -/
theorem schemaTexts_cons_of_first {c : Char} (first : (strip line).head? = some c)
    (speaks : c ≠ '#') (lines : List Text) :
    schemaTexts (line :: lines) = strip line :: schemaTexts lines := by
  obtain ⟨rest, opens⟩ := List.head?_eq_some_iff.mp first
  rw [schemaTexts, List.map_cons, List.filter_cons]
  refine if_pos ?_
  rw [opens, startsWith_comment, decide_eq_false speaks]
  rfl

theorem schemaTexts_append (lines lines' : List Text) :
    schemaTexts (lines ++ lines') = schemaTexts lines ++ schemaTexts lines' := by
  rw [schemaTexts, List.map_append, List.filter_append, ← schemaTexts, ← schemaTexts]

theorem schemaTexts_of_blank (blank : ∀ line ∈ lines, isBlankText line) :
    schemaTexts lines = [] := by
  induction lines with
  | nil => rfl
  | cons line lines ih =>
    rw [List.forall_mem_cons] at blank
    rw [schemaTexts_cons_of_skipped (Or.inl (Text.strip_eq_nil_iff.mpr blank.1)), ih blank.2]

theorem schemaTexts_trimBlankLines (lines : List Text) :
    schemaTexts (trimBlankLines lines) = schemaTexts lines := by
  obtain ⟨front, back, blank, blank', whole⟩ := Text.exists_dropEnds isBlankText lines
  conv_rhs => rw [whole, schemaTexts_append, schemaTexts_append, schemaTexts_of_blank blank,
    schemaTexts_of_blank blank', List.nil_append, List.append_nil]
  rfl

theorem map_strip_dedent (clear : NoSpacing lines) :
    (dedent lines).map strip = lines.map strip := by
  have margins : ∀ line, strip (indentBy (margin lines) line) = strip line := by
    intro line
    unfold indentBy
    split
    · rfl
    · have blank : isBlankText (margin lines) := by
        rw [isBlankText, List.all_eq_true]
        exact fun c member => isBlank_of_isIndent (List.all_eq_true.mp (margin_all lines) c member)
      have stripped := Text.strip_between_blanks blank (rfl : isBlankText []) line
      rwa [List.append_nil] at stripped
  conv_rhs => rw [← indentBy_dedent clear, List.map_map]
  exact List.map_congr_left fun line _ => (margins line).symm

/-- A block says what its lines say. -/
theorem schemaTexts_blockContent (lines : List Text) :
    schemaTexts (blockContent lines) = schemaTexts (blockExtent lines) := by
  have whole :
      ∀ line ∈ (trimBlankLines (blockExtent lines)).map stripEnd, stripEnd line = line := by
    rw [List.forall_mem_map]
    exact fun line _ => Text.stripEnd_stripEnd line
  have stripped := map_strip_dedent (noSpacing_of_whole whole)
  rw [List.map_map] at stripped
  rw [blockContent, ← schemaTexts_trimBlankLines (blockExtent lines)]
  refine schemaTexts_congr (stripped.trans ?_)
  exact List.map_congr_left fun line _ => Text.strip_stripEnd line

/-- A text that may stand in a schema as the definition of a column. -/
structure IsDefinition (definition : Text) : Prop where
  filled : strip definition ≠ []
  noComment : (strip definition).head? ≠ some '#'
  whole : IsWhole definition

/-- The definition with blanks around it. -/
def Pads (definition text : Text) : Prop :=
  ∃ front back, isBlankText front ∧ isBlankText back ∧ text = front ++ definition ++ back

/-- Definitions on one line, with commas between them and blanks around each, and perhaps a comma
at the end. -/
def IsRow (definitions : List Text) (line : Text) : Prop :=
  ∃ padded closing, line = Text.join "," padded ++ closing ∧
    List.Forall₂ Pads definitions padded ∧
    (closing = [] ∨ ∃ blanks, isBlankText blanks ∧ closing = ',' :: blanks)

/-- What a line of a schema defines. -/
inductive Defines : List Text → Text → Prop
  | blank {line : Text} : isBlankText line → Defines [] line
  | comment {line : Text} : Text.startsWith "#" (strip line) → Defines [] line
  | row {definitions : List Text} {line : Text} : definitions ≠ [] → IsRow definitions line →
      Defines definitions line

/-- The definitions written on lines below each other, none of which starts at column zero. -/
inductive IsLayout : List Text → List Text → Prop
  | nil : IsLayout [] []
  | line {now later lines : List Text} {line : Text} : Defines now line →
      startsAtColumnZero line = false → IsLayout later lines →
      IsLayout (now ++ later) (line :: lines)

variable {padded : List Text}

theorem Pads.strip_eq {text : Text} (pads : Pads definition text) :
    strip text = strip definition := by
  obtain ⟨front, back, blank, blank', rfl⟩ := pads
  exact Text.strip_between_blanks blank blank' definition

theorem map_strip_padded (pads : List.Forall₂ Pads definitions padded) :
    padded.map strip = definitions.map strip := by
  induction pads with
  | nil => rfl
  | cons first _ ih => rw [List.map_cons, List.map_cons, first.strip_eq, ih]

theorem isWhole_padded (each : ∀ d ∈ definitions, IsDefinition d)
    (pads : List.Forall₂ Pads definitions padded) : ∀ text ∈ padded, IsWhole text := by
  induction pads with
  | nil => simp
  | cons first _ ih =>
    rw [List.forall_mem_cons] at each ⊢
    obtain ⟨front, back, blank, blank', rfl⟩ := first
    exact ⟨(each.1.whole.blanks_append blank).append_blanks blank', ih each.2⟩

/-- The splitter finds the definitions of a row. -/
theorem splitTopLevel_row (each : ∀ d ∈ definitions, IsDefinition d) (some : definitions ≠ [])
    (row : IsRow definitions line) : splitTopLevel line = definitions.map strip := by
  obtain ⟨padded, closing, rfl, pads, ends⟩ := row
  have whole := isWhole_padded each pads
  have more : padded ≠ [] := by
    rintro rfl
    exact some (List.forall₂_nil_right_iff.mp pads)
  have filled : (definitions.map strip).filter (· ≠ []) = definitions.map strip := by
    rw [List.filter_eq_self, List.forall_mem_map]
    exact fun d member => decide_eq_true (each d member).filled
  rcases ends with rfl | ⟨blanks, blank, rfl⟩
  · rw [List.append_nil, splitTopLevel, Text.SplitState.pieces_join whole more,
      map_strip_padded pads, filled]
  · have last : Text.join "," padded ++ ',' :: blanks = Text.join "," (padded ++ [blanks]) := by
      rw [Text.join_concat more, List.append_assoc]
      rfl
    have whole' : ∀ text ∈ padded ++ [blanks], IsWhole text := by
      have closed : IsWhole blanks := (Text.isPart_of_plain (Text.plain_of_blank blank)).isWhole
      simpa [or_imp, forall_and] using ⟨whole, closed⟩
    rw [last, splitTopLevel, Text.SplitState.pieces_join whole' (by simp), List.map_append,
      List.filter_append, map_strip_padded pads, filled, List.map_singleton,
      Text.strip_eq_nil_iff.mpr blank]
    exact List.append_nil _

/-- A row is no comment and not blank. -/
theorem schemaTexts_row (each : ∀ d ∈ definitions, IsDefinition d) (some : definitions ≠ [])
    (row : IsRow definitions line) (lines : List Text) :
    schemaTexts (line :: lines) = strip line :: schemaTexts lines := by
  obtain ⟨first, others, rfl⟩ := List.exists_cons_of_ne_nil some
  obtain ⟨padded, closing, rfl, pads, _⟩ := row
  obtain ⟨text, texts, pad, _, rfl⟩ := List.forall₂_cons_left_iff.mp pads
  obtain ⟨rest, whole⟩ : ∃ rest, Text.join "," (text :: texts) ++ closing = text ++ rest := by
    cases texts with
    | nil => exact ⟨closing, rfl⟩
    | cons next texts =>
      exact ⟨"," ++ Text.join "," (next :: texts) ++ closing, by simp [Text.join]⟩
  have definition := each first List.mem_cons_self
  have head : (strip (text ++ rest)).head? = (strip first).head? := by
    rw [Text.head?_strip_append (by rw [pad.strip_eq]; exact definition.filled), pad.strip_eq]
  obtain ⟨c, stripped, opens⟩ := List.exists_cons_of_ne_nil definition.filled
  rw [opens, List.head?_cons] at head
  rw [whole]
  refine schemaTexts_cons_of_first head ?_ lines
  rintro rfl
  exact definition.noComment (by rw [opens]; rfl)

theorem flatMap_schemaTexts_layout (each : ∀ d ∈ definitions, IsDefinition d)
    (layout : IsLayout definitions lines) :
    (schemaTexts lines).flatMap splitTopLevel = definitions.map strip := by
  induction layout with
  | nil => rfl
  | @line now later lines line defines _ _ ih =>
    rw [List.forall_mem_append] at each
    rw [List.map_append, ← ih each.2]
    cases defines with
    | blank blank =>
      rw [schemaTexts_cons_of_skipped (Or.inl (Text.strip_eq_nil_iff.mpr blank))]
      rfl
    | comment comment =>
      rw [schemaTexts_cons_of_skipped (Or.inr comment)]
      rfl
    | row some row =>
      rw [schemaTexts_row each.1 some row, List.flatMap_cons, Text.splitTopLevel_strip,
        splitTopLevel_row each.1 some row]

theorem readColumn_strip (definition : Text) :
    readColumn (strip definition) = readColumn definition := by
  unfold readColumn
  rw [Text.strip_strip]

theorem IsLayout.indented (layout : IsLayout definitions lines) :
    ∀ line ∈ lines, startsAtColumnZero line = false := by
  induction layout with
  | nil => simp
  | line _ indented _ ih => exact List.forall_mem_cons.mpr ⟨indented, ih⟩

/-- Lines that lay out definitions of columns. -/
structure IsSchema (definitions : List Text) (columns : List Column) (block : List Text) :
    Prop where
  some : definitions ≠ []
  each : ∀ definition ∈ definitions, IsDefinition definition
  layout : IsLayout definitions block
  read : definitions.mapM readColumn = .ok columns

section

variable {columns : List Column} {block after : List Text}
  (schema : IsSchema definitions columns block)

include schema

theorem IsSchema.columns_ne_nil : columns ≠ [] := by
  rintro rfl
  exact schema.some (List.forall₂_nil_right_iff.mp (mapM_eq_ok.mp schema.read))

/-- In each layout a schema is read as the list of its definitions. -/
theorem IsSchema.readSchema (behind : AtColumnZero after) :
    readSchema (blockContent (block ++ after)) = .ok columns := by
  rw [readSchema_eq, schemaTexts_blockContent,
    (blockExtent_append schema.layout.indented behind).1,
    flatMap_schemaTexts_layout schema.each schema.layout, List.mapM_map]
  simp only [Function.comp_def, readColumn_strip]
  exact schema.read

end

theorem keyword?_schema : keyword? datasourceKeywords "SCHEMA" = some .schema := rfl

/-- The one schema of a datasource gives it its columns. -/
theorem fills_schema {before : List Directive} {columns : List Column} {number : Nat}
    (alone : ("SCHEMA" : Text) ∉ before.map Directive.keyword)
    (read : readSchema lines = .ok columns) (some : columns ≠ []) :
    Fills .schema columns before ⟨"SCHEMA", .block lines, number⟩ := by
  refine ⟨keyword?_schema, fun draft made => ?_⟩
  have free : ∀ d ∈ knownDirectives .datasource before,
      keyword? datasourceKeywords d.keyword ≠ .some .schema :=
    fun d member => free_of_not_mem keyword?_schema alone d (List.mem_filter.mp member).1
  have empty : draft.columns = [] := parts_foldlM DatasourceDraft.fillsPart_take free made
  have filled : lines ≠ [] := by
    rintro rfl
    obtain rfl := Except.ok.inj read
    exact some rfl
  have taken : draft.take ⟨"SCHEMA", .block lines, number⟩ =
      .ok { draft with columns := draft.columns ++ columns } := by
    simp only [DatasourceDraft.take, keyword?_schema, requireBlock, bind, Except.bind,
      if_neg filled, read]
    rfl
  rw [taken, empty]
  rfl

end Grammar

open Datafile Grammar

variable {file : Datafile} {before block after definitions : List Text} {columns : List Column}
  {strict : Bool}

/-- A schema of one line. -/
def plainSchema : List Text := ["    c String"]

theorem isSchema_plainSchema :
    IsSchema ["c String"] [{ name := "c", type := "String" }] plainSchema := by
  have definition : IsDefinition "c String" := ⟨by decide, by decide, {}, rfl, rfl⟩
  have row : IsRow ["c String"] "    c String" := by
    refine ⟨["    c String"], [], rfl, .cons ?_ .nil, Or.inl rfl⟩
    exact ⟨"    ", [], by decide, rfl, rfl⟩
  refine ⟨by decide, by simpa using definition, ?_, by decide +kernel⟩
  exact .line (.row (by decide) row) (by decide) .nil

theorem Datafile.scan_schema (schema : IsSchema definitions columns block)
    (single : ∀ line ∈ before ++ block ++ after, '\n' ∉ line) (behind : AtColumnZero after) :
    scan (Text.join "\n" (before ++ ("SCHEMA >" : Text) :: (block ++ after))) =
      scanLines 1 before ++
        ⟨"SCHEMA", .block (blockContent (block ++ after)), 1 + before.length⟩ ::
          scanLines (1 + before.length + 1 + block.length) after := by
  have word : IsKeyword "SCHEMA" := ⟨by decide, Text.solid_of_all (by decide), by decide⟩
  have single' : ∀ line ∈ before ++ ("SCHEMA >" : Text) :: (block ++ after), '\n' ∉ line := by
    simp only [List.forall_mem_append, List.forall_mem_cons] at single ⊢
    exact ⟨single.1.1, by decide, single.1.2, single.2⟩
  rw [scan_join (by simp) single']
  exact scanLines_block word schema.layout.indented behind 1 before

/-- The layout of a schema does not count: in each, a datasource is accepted as with a schema of one
line, and has the columns that the definitions write. -/
theorem Datafile.parse_schemaLayout (isDatasource : file.kind = .datasource)
    (schema : IsSchema definitions columns block)
    (single : ∀ line ∈ before ++ block ++ after, '\n' ∉ line) (behind : AtColumnZero after)
    (alone : ("SCHEMA" : Text) ∉ keywords (before ++ after)) :
    (file.ofLines (before ++ ("SCHEMA >" : Text) :: (block ++ after))).parse strict =
      ((file.ofLines (before ++ ("SCHEMA >" : Text) :: (plainSchema ++ after))).parse strict).map
        (Resource.mapDatasource fun d => { d with columns }) := by
  have plain : ∀ line ∈ before ++ plainSchema ++ after, '\n' ∉ line := by
    simp only [List.forall_mem_append] at single ⊢
    exact ⟨⟨single.1.1, by decide⟩, single.2⟩
  rw [keywords_append behind, List.mem_append, not_or] at alone
  have later : ("SCHEMA" : Text) ∉
      (scanLines (1 + before.length + 1 + block.length) after).map Directive.keyword := by
    rw [map_keyword_scanLines]
    exact alone.2
  exact parse_exchange isDatasource (scan_schema schema single behind)
    (scan_schema isSchema_plainSchema plain behind) (scanLines_content ..)
    (fills_schema alone.1 (schema.readSchema behind) schema.columns_ne_nil)
    (fills_schema alone.1 (isSchema_plainSchema.readSchema behind)
      isSchema_plainSchema.columns_ne_nil)
    (free_of_not_mem keyword?_schema later)
    (exchanges_columns schema.columns_ne_nil isSchema_plainSchema.columns_ne_nil)

/-- A comment, two columns on a line with a comma at its end, a blank line, and one more column
behind a tab. -/
def mixedSchema : List Text :=
  ["  # keys", "    a Map(String, Int32) , b String DEFAULT 'x, y',", "", "\tc Decimal(9, 2)", " "]

theorem isSchema_mixedSchema :
    IsSchema ["a Map(String, Int32)", "b String DEFAULT 'x, y'", "c Decimal(9, 2)"]
      [{ name := "a", type := "Map(String, Int32)" },
        { name := "b", type := "String", default := some "'x, y'" },
        { name := "c", type := "Decimal(9, 2)" }] mixedSchema := by
  have row : IsRow ["a Map(String, Int32)", "b String DEFAULT 'x, y'"]
      "    a Map(String, Int32) , b String DEFAULT 'x, y'," := by
    refine ⟨["    a Map(String, Int32) ", " b String DEFAULT 'x, y'"], ",", by decide +kernel,
      .cons ⟨"    ", " ", by decide, by decide, rfl⟩ (.cons ⟨" ", [], by decide, rfl, rfl⟩ .nil),
      Or.inr ⟨[], rfl, rfl⟩⟩
  have row' : IsRow ["c Decimal(9, 2)"] "\tc Decimal(9, 2)" :=
    ⟨["\tc Decimal(9, 2)"], [], rfl, .cons ⟨"\t", [], by decide, rfl, rfl⟩ .nil, Or.inl rfl⟩
  refine ⟨by decide, ?_, ?_, by decide +kernel⟩
  · simp only [List.forall_mem_cons, List.not_mem_nil, false_imp_iff, implies_true, and_true]
    exact ⟨⟨by decide, by decide, _, rfl, rfl⟩, ⟨by decide, by decide, _, rfl, rfl⟩,
      ⟨by decide, by decide, _, rfl, rfl⟩⟩
  · exact .line (.comment (by decide)) rfl <| .line (.row (by decide) row) rfl <|
      .line (.blank rfl) rfl <| .line (.row (by decide) row') rfl <|
      .line (.blank (by decide)) rfl .nil

theorem parse_schemaLayout_mixed :
    let file : Datafile :=
      { kind := .datasource, path := "d.datasource", name := "d", content := [] }
    let before : List Text := ["DESCRIPTION d"]
    let after : List Text := ["ENGINE \"MergeTree\"", "ENGINE_SORTING_KEY \"a\""]
    ∃ definitions columns, IsSchema definitions columns mixedSchema ∧ columns.length = 3 ∧
      (∀ line ∈ before ++ mixedSchema ++ after, '\n' ∉ line) ∧ AtColumnZero after ∧
      ("SCHEMA" : Text) ∉ keywords (before ++ after) ∧
      (file.ofLines (before ++ ("SCHEMA >" : Text) :: (mixedSchema ++ after))).parse true =
        ((file.ofLines (before ++ ("SCHEMA >" : Text) :: (plainSchema ++ after))).parse true).map
          (Resource.mapDatasource fun d => { d with columns }) ∧
      ∃ r, (file.ofLines (before ++ ("SCHEMA >" : Text) :: (plainSchema ++ after))).parse true =
        .ok r := by
  intro file before after
  have single : ∀ line ∈ before ++ mixedSchema ++ after, '\n' ∉ line := by decide +kernel
  have behind : AtColumnZero after := by
    intro line first
    obtain rfl := Option.some.inj first
    rfl
  have alone : ("SCHEMA" : Text) ∉ keywords (before ++ after) := by decide +kernel
  obtain ⟨r, accepted, _⟩ := exists_eq_ok (p := fun _ => true)
    (x := (file.ofLines (before ++ ("SCHEMA >" : Text) :: (plainSchema ++ after))).parse true) (by
      unfold before after plainSchema
      repeat rw [String.toList_ofList]
      decide +kernel)
  exact ⟨_, _, isSchema_mixedSchema, rfl, single, behind, alone,
    Datafile.parse_schemaLayout rfl isSchema_mixedSchema single behind alone, r, accepted⟩

end DatafileMigration
