import DatafileMigration.Proofs.Grammar.Exchange
import DatafileMigration.Proofs.Grammar.Quotation
import DatafileMigration.Proofs.Text.TopLevel

namespace DatafileMigration

namespace Grammar

open Datafile
open Text (strip splitOn splitTopLevel isBlank IsWhole)

variable {key : Text} {keys : List Text}

/-- A text that may stand as a key of an engine. -/
structure IsKey (key : Text) : Prop where
  filled : key ≠ []
  stripped : strip key = key
  whole : IsWhole key

theorem splitCommas_cons_blank {c : Char} (blank : isBlank c) (t : Text) :
    splitCommas (c :: t) = splitCommas t := by
  have noComma : c ≠ ',' := by
    rintro rfl
    exact absurd blank (by decide)
  obtain ⟨first, others, split⟩ := List.exists_cons_of_ne_nil (Text.splitOn_ne_nil ',' t)
  rw [splitCommas, splitCommas, Text.splitOn, if_neg noComma, split]
  simp only [List.map_cons, Text.strip_cons_blank blank]

theorem splitCommas_append (s t : Text) :
    splitCommas (s ++ ", " ++ t) = splitCommas s ++ splitCommas t := by
  have separated : s ++ ", " ++ t = s ++ ',' :: ' ' :: t := by simp
  rw [separated, splitCommas, Text.splitOn_append_cons, List.map_append, List.filter_append,
    ← splitCommas, ← splitCommas, splitCommas_cons_blank (by decide)]

/-- A list is cut into what its parts are cut into. -/
theorem splitCommas_join (keys : List Text) :
    splitCommas (Text.join ", " keys) = keys.flatMap splitCommas := by
  induction keys with
  | nil => decide
  | cons key keys ih =>
    by_cases last : keys = []
    · subst last
      rw [List.flatMap_singleton]
      rfl
    · rw [Text.join_cons_of_ne_nil last, splitCommas_append, ih, List.flatMap_cons]

/-- No piece has a comma. -/
theorem not_mem_of_mem_splitCommas {piece t : Text} (member : piece ∈ splitCommas t) :
    ',' ∉ piece := by
  obtain ⟨part, cut, rfl⟩ := List.mem_map.mp (List.mem_filter.mp member).1
  exact mt Text.mem_of_mem_strip (Text.not_mem_of_mem_splitOn cut)

namespace IsKey

/-- A key starts with neither a blank nor a comma. -/
theorem exists_first (isKey : IsKey key) : ∃ c t, key = c :: t ∧ isBlank c = false ∧ c ≠ ',' := by
  obtain ⟨c, t, rfl⟩ := List.exists_cons_of_ne_nil isKey.filled
  obtain ⟨s, through, _⟩ := isKey.whole
  refine ⟨c, t, rfl, (Text.strip_eq_self_iff_ends.mp isKey.stripped).1 c rfl, ?_⟩
  rintro rfl
  cases through

theorem splitCommas_ne_nil (isKey : IsKey key) : splitCommas key ≠ [] := by
  obtain ⟨c, t, rfl, solid, noComma⟩ := isKey.exists_first
  obtain ⟨first, others, split⟩ := List.exists_cons_of_ne_nil (Text.splitOn_ne_nil ',' t)
  rw [splitCommas, Text.splitOn, if_neg noComma, split]
  simp [Text.strip_cons_ne_nil solid first]

/-- A key without commas is one piece. -/
theorem splitCommas_eq (isKey : IsKey key) (free : ',' ∉ key) : splitCommas key = [key] := by
  rw [splitCommas, Text.splitOn_of_not_mem free, List.map_singleton, isKey.stripped]
  simp [isKey.filled]

end IsKey

/-- Keys are read as they are exactly if none has a comma. -/
theorem flatMap_splitCommas_eq_iff (each : ∀ key ∈ keys, IsKey key) :
    keys.flatMap splitCommas = keys ↔ ∀ key ∈ keys, ',' ∉ key := by
  constructor
  · intro same key member
    rw [← same, List.mem_flatMap] at member
    obtain ⟨_, _, piece⟩ := member
    exact not_mem_of_mem_splitCommas piece
  · intro free
    have single : ∀ key ∈ keys, splitCommas key = [key] :=
      fun key member => (each key member).splitCommas_eq (free key member)
    rw [List.flatMap_congr single]
    exact List.flatMap_singleton' keys

/-- The keyword of an option that is a list of keys. -/
def EngineKeys.keyword : EngineKeys → Text
  | .sortingKey => "ENGINE_SORTING_KEY"
  | .primaryKey => "ENGINE_PRIMARY_KEY"
  | .summingColumns => "ENGINE_SUMMING_COLUMNS"

namespace EngineKeys

variable (option : EngineKeys)

theorem keyword?_keyword :
    keyword? datasourceKeywords option.keyword = some (.engineKeys option) := by
  cases option <;> rfl

theorem isKeyword_keyword : IsKeyword option.keyword := by
  cases option <;> exact ⟨by decide, Text.solid_of_all (by decide), by decide⟩

/-- The keys that a directive gives an engine. -/
theorem fills {before : List Directive} {value : Text} {number : Nat}
    (read : splitCommas (unquote value) = keys) :
    Fills (.engineKeys option) keys before ⟨option.keyword, .inline value, number⟩ := by
  subst read
  refine ⟨option.keyword?_keyword, fun draft _ => ?_⟩
  simp only [DatasourceDraft.take, option.keyword?_keyword]
  cases option <;> rfl

end EngineKeys

end Grammar

open Datafile Grammar
open Cause (inQuotes)

variable {file : Datafile} {before after keys : List Text} {strict : Bool}

theorem Datafile.scan_engineKeys (option : EngineKeys) {value : Text}
    (single : ∀ line ∈ before ++ after, '\n' ∉ line) (inline : '\n' ∉ value)
    (stripped : Text.strip value = value) (noBlock : value ≠ ">") :
    scan (Text.join "\n" (before ++ (option.keyword ++ " " ++ value) :: after)) =
      scanLines 1 before ++ ⟨option.keyword, .inline value, 1 + before.length⟩ ::
        scanLines (1 + before.length + 1) after := by
  have single' : ∀ line ∈ before ++ (option.keyword ++ " " ++ value) :: after, '\n' ∉ line := by
    simp only [List.forall_mem_append, List.forall_mem_cons] at single ⊢
    refine ⟨single.1, ?_, single.2⟩
    simp only [List.mem_append, not_or]
    exact ⟨⟨by cases option <;> decide, by decide⟩, inline⟩
  rw [scan_join (by simp) single']
  exact scanLines_inline option.isKeyword_keyword stripped noBlock 1 before after

/-- A list of keys in double quotes is read as all pieces between commas, also where a key has a
comma between parentheses or quotes. Read at top level, it would be the keys. -/
theorem Datafile.parse_engineKeys (option : EngineKeys) (isDatasource : file.kind = .datasource)
    (some : keys ≠ []) (each : ∀ key ∈ keys, IsKey key)
    (single : ∀ line ∈ before ++ keys ++ after, '\n' ∉ line)
    (last : option.keyword ∉ keywords after) :
    (file.ofLines (before ++
        (option.keyword ++ " " ++ inQuotes (Text.join ", " keys)) :: after)).parse strict =
      ((file.ofLines (before ++ (option.keyword ++ " " ++ "c") :: after)).parse strict).map
        (Resource.mapDatasource fun d =>
          { d with engine := d.engine.withKeys (keys.flatMap splitCommas) option }) ∧
    (keys.flatMap splitCommas = keys ↔ ∀ key ∈ keys, ',' ∉ key) ∧
    Text.splitTopLevel (Text.join ", " keys) = keys := by
  simp only [List.forall_mem_append] at single
  obtain ⟨⟨front, inKeys⟩, back⟩ := single
  have lines : ∀ line ∈ before ++ after, '\n' ∉ line := List.forall_mem_append.mpr ⟨front, back⟩
  have inline : '\n' ∉ inQuotes (Text.join ", " keys) := by
    have clear : '\n' ∉ Text.join ", " keys := Text.not_mem_join (by decide) inKeys
    simpa [inQuotes] using clear
  have later : option.keyword ∉
      (scanLines (1 + before.length + 1) after).map Directive.keyword := by
    rwa [map_keyword_scanLines]
  have filled : keys.flatMap splitCommas ≠ [] := by
    obtain ⟨key, rest, rfl⟩ := List.exists_cons_of_ne_nil some
    rw [List.flatMap_cons]
    exact List.append_ne_nil_of_left_ne_nil (each key List.mem_cons_self).splitCommas_ne_nil _
  have read :
      splitCommas (unquote (inQuotes (Text.join ", " keys))) = keys.flatMap splitCommas := by
    rw [unquote_inQuotes, splitCommas_join]
  have plain : splitCommas (unquote "c") = ["c"] := by decide
  refine ⟨?_, flatMap_splitCommas_eq_iff each, ?_⟩
  · exact parse_exchange isDatasource
      (scan_engineKeys option lines inline (strip_inQuotes _) (by simp [inQuotes]))
      (scan_engineKeys option lines (by decide) (by decide) (by decide)) rfl
      (option.fills read) (option.fills plain)
      (free_of_not_mem option.keyword?_keyword later)
      (exchanges_keys option filled (by simp))
  · exact Text.splitTopLevel_join (fun key member => (each key member).whole)
      (fun key member => (each key member).stripped) fun key member => (each key member).filled

/-- A key that calls a function of two columns, and a column. -/
def hashedKeys : List Text := ["cityHash64(a, b)", "c"]

theorem isKey_hashedKeys : ∀ key ∈ hashedKeys, IsKey key := by
  simp only [hashedKeys, List.forall_mem_cons, List.not_mem_nil, false_imp_iff, implies_true,
    and_true]
  exact ⟨⟨by decide, by decide, _, rfl, rfl⟩, ⟨by decide, by decide, _, rfl, rfl⟩⟩

theorem parse_engineKeys_hashedKeys :
    let file : Datafile :=
      { kind := .datasource, path := "d.datasource", name := "d", content := [] }
    let before : List Text :=
      ["SCHEMA >", "    a String, b String, c String", "", "ENGINE \"MergeTree\""]
    let value : Text := inQuotes (Text.join ", " hashedKeys)
    hashedKeys ≠ [] ∧ (∀ key ∈ hashedKeys, IsKey key) ∧
      (∀ line ∈ before ++ hashedKeys ++ [[]], '\n' ∉ line) ∧
      EngineKeys.keyword .sortingKey ∉ keywords [[]] ∧
      (file.ofLines (before ++ [("ENGINE_SORTING_KEY " : Text) ++ value, []])).parse true =
        ((file.ofLines (before ++ [("ENGINE_SORTING_KEY c" : Text), []])).parse true).map
          (Resource.mapDatasource fun d =>
            { d with engine := d.engine.withKeys ["cityHash64(a", "b)", "c"] .sortingKey }) := by
  intro file before value
  have single : ∀ line ∈ before ++ hashedKeys ++ [[]], '\n' ∉ line := by decide
  have last : EngineKeys.keyword .sortingKey ∉ keywords [[]] := by decide +kernel
  have pieces : hashedKeys.flatMap splitCommas = ["cityHash64(a", "b)", "c"] := by decide +kernel
  have parsed := (@Datafile.parse_engineKeys file before [[]] hashedKeys true .sortingKey rfl
    (by decide) isKey_hashedKeys single last).1
  rw [pieces] at parsed
  exact ⟨by decide, isKey_hashedKeys, single, last, parsed⟩

/-- A datasource sorted by these keys. -/
def hashedDatasource : Datafile where
  kind := .datasource
  path := "d.datasource"
  name := "d"
  content := "SCHEMA >\n    a String, b String, c String\n\nENGINE \"MergeTree\"\n" ++
    "ENGINE_SORTING_KEY \"cityHash64(a, b), c\"\n"

/-- What a datasource is sorted by. -/
def Resource.sortingKey : Resource → List Text
  | .datasource d => d.engine.sortingKey
  | _ => []

/-- The call is cut at the comma between its arguments. -/
theorem parse_hashedDatasource :
    (∀ key ∈ hashedKeys, IsKey key) ∧ Text.join ", " hashedKeys = "cityHash64(a, b), c" ∧
      ∃ d, hashedDatasource.parse true = .ok (.datasource d) ∧
        d.engine.sortingKey = ["cityHash64(a", "b)", "c"] ∧ d.engine.sortingKey ≠ hashedKeys := by
  refine ⟨isKey_hashedKeys, by decide, ?_⟩
  obtain ⟨r, parsed, cut⟩ := exists_eq_ok (x := hashedDatasource.parse true)
    (p := fun r => r.sortingKey = ["cityHash64(a", "b)", "c"]) (by
      unfold hashedDatasource
      repeat rw [String.toList_ofList]
      decide +kernel)
  have keys : r.sortingKey = ["cityHash64(a", "b)", "c"] := of_decide_eq_true cut
  cases r with
  | datasource d =>
    have sorted : d.engine.sortingKey = ["cityHash64(a", "b)", "c"] := keys
    exact ⟨d, parsed, sorted, by rw [sorted]; decide⟩
  | connection c => cases keys
  | pipe p => cases keys

end DatafileMigration
