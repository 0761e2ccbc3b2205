import Mathlib.Data.List.Induction
import DatafileMigration.Proofs.Script.Column

namespace DatafileMigration

namespace Script

/-- What the entries of a dictionary come to: a key has the place of its first entry and the value
of its last. -/
def mapping {α : Type} (entries : List (Text × α)) : List (Text × α) :=
  entries.foldl (fun known (key, value) => putEntry key value known) []

/-- The tokens of an entry with the comma behind it. -/
def entryTokens (entry : Text × List Token) : List Token :=
  .string entry.1 :: .mark ':' :: entry.2 ++ [.mark ',']

section Mapping

variable {α : Type} {key other : Text} {value : α} {entries : List (Text × α)}

theorem lookup_cons_eq_ite (key other : Text) (value : α) (entries : List (Text × α)) :
    List.lookup other ((key, value) :: entries) =
      if other = key then some value else entries.lookup other := by
  rw [List.lookup_cons]
  by_cases same : other = key
  · rw [if_pos same, beq_iff_eq.mpr same]
  · rw [if_neg same, beq_eq_false_iff_ne.mpr same]

theorem lookup_putEntry (key other : Text) (value : α) (entries : List (Text × α)) :
    (putEntry key value entries).lookup other =
      if other = key then some value else entries.lookup other := by
  induction entries with
  | nil => exact lookup_cons_eq_ite key other value []
  | cons entry entries ih =>
    obtain ⟨k, v⟩ := entry
    rw [putEntry]
    split
    · rename_i here
      subst here
      rw [lookup_cons_eq_ite, lookup_cons_eq_ite]
      split <;> rfl
    · rename_i apart
      rw [lookup_cons_eq_ite, lookup_cons_eq_ite, ih]
      by_cases first : other = k
      · subst first
        rw [if_pos rfl, if_neg apart, if_pos rfl]
      · rw [if_neg first, if_neg first]

theorem map_putEntry (key : Text) (value : α) (entries : List (Text × α)) :
    (putEntry key value entries).map Prod.fst =
      if key ∈ entries.map Prod.fst then entries.map Prod.fst
      else entries.map Prod.fst ++ [key] := by
  induction entries with
  | nil => rfl
  | cons entry entries ih =>
    obtain ⟨k, v⟩ := entry
    rw [putEntry]
    by_cases here : k = key
    · simp [here]
    · simp only [if_neg here, List.map_cons, ih, List.mem_cons, Ne.symm here, false_or]
      split <;> rfl

theorem putEntry_of_not_mem (fresh : key ∉ entries.map Prod.fst) :
    putEntry key value entries = entries ++ [(key, value)] := by
  induction entries with
  | nil => rfl
  | cons entry entries ih =>
    obtain ⟨k, v⟩ := entry
    rw [List.map_cons, List.mem_cons, not_or] at fresh
    rw [putEntry, if_neg (Ne.symm fresh.1), ih fresh.2, List.cons_append]

theorem mapping_concat (entries : List (Text × α)) (key : Text) (value : α) :
    mapping (entries ++ [(key, value)]) = putEntry key value (mapping entries) := List.foldl_append

/-- Under a key stands the value of its last entry. -/
theorem lookup_mapping (entries : List (Text × α)) (key : Text) :
    (mapping entries).lookup key = entries.reverse.lookup key := by
  induction entries using List.reverseRecOn with
  | nil => rfl
  | append_singleton entries entry ih =>
    obtain ⟨k, v⟩ := entry
    rw [mapping_concat, lookup_putEntry, ih, List.reverse_concat, lookup_cons_eq_ite]

theorem nodup_mapping (entries : List (Text × α)) : ((mapping entries).map Prod.fst).Nodup := by
  induction entries using List.reverseRecOn with
  | nil => exact List.nodup_nil
  | append_singleton entries entry ih =>
    rw [mapping_concat, map_putEntry]
    split
    · exact ih
    · rename_i fresh
      exact List.nodup_append'.mpr ⟨ih, List.nodup_singleton _, List.disjoint_singleton.mpr fresh⟩

/-- Entries come to themselves if all keys differ. -/
theorem mapping_of_nodup (distinct : (entries.map Prod.fst).Nodup) : mapping entries = entries := by
  induction entries using List.reverseRecOn with
  | nil => rfl
  | append_singleton entries entry ih =>
    rw [List.map_append] at distinct
    obtain ⟨front, _, apart⟩ := List.nodup_append'.mp distinct
    rw [mapping_concat, ih front]
    exact putEntry_of_not_mem (List.disjoint_singleton.mp apart)

end Mapping

section Displays

variable {entries : List (Text × List Token)} {tokens : List Token}

theorem pieces_entries (each : ∀ entry ∈ entries, Passes false entry.2) :
    pieces [] (entries.flatMap entryTokens) =
      some (entries.map (fun entry => .string entry.1 :: .mark ':' :: entry.2) ++ [[]]) := by
  have colon : Passes false [.mark ':'] := .single (fun _ => rfl) (by decide)
  have listed : entries.flatMap entryTokens =
      enumerated (entries.map fun entry => .string entry.1 :: .mark ':' :: entry.2) := by
    rw [enumerated, List.flatMap_map]
    rfl
  rw [listed]
  refine pieces_enumerated (List.forall_mem_map.mpr fun entry member => ?_)
  exact (Passes.string entry.1).append (colon.append (each entry member))

theorem mapM_entry? (entries : List (Text × List Token)) :
    (entries.map fun entry => Token.string entry.1 :: .mark ':' :: entry.2).mapM entry? =
      some entries := by
  induction entries with
  | nil => rfl
  | cons entry entries ih =>
    rw [List.map_cons, List.mapM_cons, ih]
    rfl

theorem dict?_of_opened {inside : List Token}
    (opened : tokens.filter (!·.isComment) = .mark '\x7b' :: inside)
    (closed : inside.getLast? = some (.mark '\x7d')) :
    dict? tokens = (pieces [] inside.dropLast).bind fun items =>
      (if items.getLast? = some [] then items.dropLast else items).mapM entry? := by
  rw [dict?, opened]
  exact if_pos closed

/-- What stands between braces with a comma behind each entry has these entries. -/
theorem dict?_display (each : ∀ entry ∈ entries, Passes false entry.2)
    (display : tokens.filter (!·.isComment) =
      .mark '\x7b' :: (entries.flatMap entryTokens ++ [.mark '\x7d'])) :
    dict? tokens = some entries := by
  rw [dict?_of_opened display List.getLast?_concat, List.dropLast_concat, pieces_entries each,
    Option.bind_some, if_pos List.getLast?_concat, List.dropLast_concat]
  exact mapM_entry? entries

end Displays

theorem Spells.entry {key t : Text} (spells : Spells true t tokens) :
    Spells true (Layout.entry key t) (.string key :: .mark ':' :: tokens) := by
  rw [Layout.entry, List.append_assoc]
  exact (Spells.quoted key).append (c := ':') (by decide) (spells.blank.separated (by decide))

end Script

open Script

namespace Column

variable {strict : Bool} {c : Column} {e : ColumnExpression}

/-- The tokens of an expression pass for one value, and none is a comment. -/
theorem exists_tokens_columnExpression (inline : strict ∨ c.IsInline)
    (expressed : c.columnExpression strict = .ok e) :
    ∃ tokens, Spells true e.expression tokens ∧ Passes false tokens ∧
      tokens.filter (!·.isComment) = tokens := by
  have read : ExpressionRead strict (fun _ => False) e _ :=
    reads_columnExpression inline e expressed
  obtain ⟨tokens, holds, spells, passes⟩ := read.stands
  refine ⟨tokens, spells, passes, List.filter_eq_self.mpr fun token member => ?_⟩
  have fixed := (holds.known token member).resolve_right id
  cases token with
  | comment t => cases fixed
  | word w | string value | mark c => rfl

/-- The entry that a column is in a dictionary. -/
def IsEntry (strict : Bool) (c : Column) (entry : Text × List Token) : Prop :=
  entry.1 = c.name ∧
    ∃ e, c.columnExpression strict = .ok e ∧ tokensOf? e.expression = some entry.2

end Column

open Column

variable {strict : Bool} {columns : List Column} {es : List ColumnExpression}

theorem ColumnExpression.filter_comments (e : ColumnExpression) :
    e.comments.filter (!·.isComment) = [] := by
  rw [comments]
  split <;> rfl

/-- The lines of a schema are the entries of its columns, one behind the other, and comments. -/
theorem Column.spells_lines (inline : strict ∨ ∀ c ∈ columns, c.IsInline)
    (expressed : Expresses strict columns es) :
    ∃ entries, List.Forall₂ (Column.IsEntry strict) columns entries ∧
      (∀ entry ∈ entries, Passes false entry.2) ∧
      ∀ {t tokens}, Spells true t tokens → ∃ more,
        Spells true ((List.zipWith Column.line columns es).flatten ++ t) more ∧
          more.filter (!·.isComment) =
            entries.flatMap entryTokens ++ tokens.filter (!·.isComment) := by
  induction expressed with
  | nil => exact ⟨[], .nil, nofun, fun spells => ⟨_, spells, rfl⟩⟩
  | @cons c e columns es here _ ih =>
    have first : strict ∨ c.IsInline := inline.imp_right fun all => all c List.mem_cons_self
    obtain ⟨entries, each, passes, rest⟩ :=
      ih (inline.imp_right fun all => (List.forall_mem_cons.mp all).2)
    obtain ⟨tokens, spelled, passing, plain⟩ := c.exists_tokens_columnExpression first here
    have read : ExpressionRead strict (fun _ => False) e _ := reads_columnExpression first e here
    have noted : ∀ note ∈ e.notes, note.any isLineEnd = false := fun note member =>
      (read.noted note member).2
    refine ⟨(c.name, tokens) :: entries, .cons ⟨rfl, e, here, spelled.tokensOf?⟩ each,
      List.forall_mem_cons.mpr ⟨passing, passes⟩, fun spells => ?_⟩
    obtain ⟨others, behind, filtered⟩ := rest spells
    have line := c.spells_line spelled.entry noted behind
    rw [← List.append_assoc, ← List.flatten_cons, ← List.zipWith_cons_cons] at line
    refine ⟨_, line, ?_⟩
    rw [List.filter_append, List.filter_cons_of_pos rfl, List.filter_cons_of_pos rfl, plain,
      List.filter_cons_of_pos rfl, List.filter_append, e.filter_comments, filtered]
    simp [entryTokens]

/-- Between the braces of a schema stand the entries of its columns, and comments. -/
theorem spells_schemaText (inline : strict ∨ ∀ c ∈ columns, c.IsInline)
    (expressed : Expresses strict columns es) :
    ∃ entries inside tokens, List.Forall₂ (Column.IsEntry strict) columns entries ∧
      (∀ entry ∈ entries, Passes false entry.2) ∧
      schemaText columns es = ['\x7b'] ++ inside ++ ['\x7d'] ∧
      Spells true inside tokens ∧ tokens.filter (!·.isComment) = entries.flatMap entryTokens := by
  obtain ⟨entries, each, passes, lines⟩ := Column.spells_lines inline expressed
  obtain ⟨tokens, spells, filtered⟩ := lines (Spells.nil.blanks (4 * 1))
  rw [List.filter_nil, List.append_nil] at filtered
  refine ⟨entries, _, tokens, each, passes, ?_, spells.lineFeed, filtered⟩
  rw [schemaText, List.append_nil, ← List.singleton_append (x := '\n'), List.append_assoc,
    List.append_assoc, List.append_assoc, List.append_assoc, List.append_assoc]
  rfl

/-- A schema is a dictionary with an entry for each column. -/
theorem dict?_schemaText (inline : strict ∨ ∀ c ∈ columns, c.IsInline)
    (expressed : Expresses strict columns es) :
    ∃ entries, (tokensOf? (schemaText columns es)).bind dict? = some entries ∧
      List.Forall₂ (Column.IsEntry strict) columns entries := by
  obtain ⟨entries, inside, tokens, each, passes, spelled, spells, filtered⟩ :=
    spells_schemaText inline expressed
  have opens : Begins ['\x7b'] [.mark '\x7b'] ['\x7d'] := .of_scan [] (by decide) rfl
  have whole : Spells true _ _ := spells.enclose opens (by decide)
  refine ⟨entries, ?_, each⟩
  rw [spelled, whole.tokensOf?, Option.bind_some]
  refine dict?_display passes ?_
  rw [List.append_assoc, List.singleton_append, List.filter_cons_of_pos rfl, List.filter_append,
    filtered]
  rfl

end DatafileMigration
