import DatafileMigration.Grammar.Column
import DatafileMigration.Proofs.Fault.Yields
import DatafileMigration.Proofs.Text.Find
import DatafileMigration.Proofs.Text.Word

namespace DatafileMigration.Grammar

open Text (strip stripStart stripEnd isBlank backtick)

section Search

variable {α : Type} {here : Text → Option α} {t u before : Text} {a : α}

/-- The first place of a text where something is found, and what is found there. -/
def search (here : Text → Option α) : Text → Option (Text × α)
  | [] => none
  | c :: t =>
    match here (c :: t) with
    | some a => some ([], a)
    | none => (search here t).map fun (before, a) => (c :: before, a)

theorem search_of_first (found : here t = some a) (some : t ≠ [])
    (first : ∀ u w, before = u ++ w → w ≠ [] → here (w ++ t) = none) :
    search here (before ++ t) = .some (before, a) := by
  induction before with
  | nil =>
    obtain ⟨c, t, rfl⟩ := List.exists_cons_of_ne_nil some
    rw [List.nil_append, search, found]
  | cons c before ih =>
    have notHere := first [] (c :: before) rfl (List.cons_ne_nil _ _)
    rw [List.cons_append] at notHere
    rw [List.cons_append, search, notHere, ih fun u w split => first (c :: u) w (by rw [split]; rfl)]
    rfl

theorem search_eq_none (never : ∀ u w, t = u ++ w → w ≠ [] → here w = none) :
    search here t = none := by
  induction t with
  | nil => rfl
  | cons c t ih =>
    rw [search, never [] (c :: t) rfl (List.cons_ne_nil _ _),
      ih fun u w split => never (c :: u) w (by rw [split]; rfl)]
    rfl

theorem search_eq_some (found : search here t = some (before, a)) :
    ∃ w, t = before ++ w ∧ here w = some a := by
  induction t generalizing before with
  | nil => cases found
  | cons c t ih =>
    rw [search] at found
    split at found
    · rename_i isHere
      obtain ⟨rfl, rfl⟩ := Prod.mk.inj (Option.some.inj found)
      exact ⟨c :: t, rfl, isHere⟩
    · obtain ⟨⟨front, b⟩, later, same⟩ := Option.map_eq_some_iff.mp found
      obtain ⟨rfl, rfl⟩ := Prod.mk.inj same
      obtain ⟨w, rfl, isHere⟩ := ih later
      exact ⟨w, rfl, isHere⟩

/-- What is found stands no later than anything that could be. -/
theorem exists_search (found : here t = some a) (some : t ≠ []) (u : Text) :
    ∃ before b, search here (u ++ t) = .some (before, b) ∧ before <+: u := by
  induction u with
  | nil =>
    obtain ⟨c, t, rfl⟩ := List.exists_cons_of_ne_nil some
    exact ⟨[], a, by rw [List.nil_append, search, found], List.prefix_rfl⟩
  | cons c u ih =>
    obtain ⟨before, b, later, front⟩ := ih
    rw [List.cons_append, search]
    cases here (c :: (u ++ t)) with
    | some b => exact ⟨[], b, rfl, List.nil_prefix⟩
    | none => exact ⟨c :: before, b, by rw [later]; rfl, List.cons_prefix_cons.mpr ⟨rfl, front⟩⟩

end Search

/-- The codec of a text that begins with a blank and is a codec up to its end. -/
def codecClause? (t : Text) : Option Text :=
  match t with
  | [] => none
  | c :: _ => if isBlank c then codecHere? t else none

/-- The JSON path that a text begins with, and what stands behind. -/
def pathHere? (t : Text) : Option (Text × Text) := do
  let rest ← Text.dropPrefix? "\x60json:" t
  let (path, after) ← Text.cutAt? backtick rest
  if path = [] then none else some (path, after)

theorem cutCodec?_eq_search (t : Text) : cutCodec? t = search codecClause? t := by
  induction t with
  | nil => rfl
  | cons c t ih =>
    have clause : (if isBlank c then codecHere? (c :: t) else none) = codecClause? (c :: t) := rfl
    rw [cutCodec?, clause, search, ih]
    cases codecClause? (c :: t) <;> rfl

theorem cutJsonPath?_eq_search (t : Text) : cutJsonPath? t = search pathHere? t := by
  induction t with
  | nil => rfl
  | cons c t ih =>
    rw [cutJsonPath?, search, ih, ← pathHere?]
    cases pathHere? (c :: t) <;> rfl

variable {t inside path after : Text}

theorem codecHere?_eq_some (whole : stripEnd t = t) : codecHere? t = some inside ↔
    stripStart t = "CODEC(" ++ inside ++ ")" ∧ inside ≠ [] ∧ '\n' ∉ inside := by
  have whole' : stripEnd (stripStart t) = stripStart t := by
    obtain ⟨blanks, -, split⟩ := Text.exists_append_stripStart t
    rw [split] at whole
    exact Text.stripEnd_of_append whole
  unfold codecHere?
  simp only [Option.bind_eq_bind, Option.bind_eq_some_iff, Text.dropPrefix?_eq_some_iff,
    Text.dropSuffix?_eq_some_iff]
  constructor
  · rintro ⟨rest, opening, codec, closing, kept⟩
    have whole'' : stripEnd rest = rest := by
      rw [opening] at whole'
      exact Text.stripEnd_of_append whole'
    rw [whole''] at closing
    split at kept
    · cases kept
    · rename_i filled
      obtain rfl := Option.some.inj kept
      rw [Bool.or_eq_true, not_or, decide_eq_true_eq, List.contains_iff_mem] at filled
      exact ⟨by rw [opening, closing, List.append_assoc], filled⟩
  · rintro ⟨begins, some, single⟩
    have filled : ¬ (decide (inside = []) || inside.contains '\n') = true := by
      rw [Bool.or_eq_true, not_or, decide_eq_true_eq, List.contains_iff_mem]
      exact ⟨some, single⟩
    refine ⟨inside ++ ")", by rw [begins, List.append_assoc], inside, ?_, if_neg filled⟩
    exact Text.stripEnd_append_self (by decide) (by decide) inside

theorem codecClause?_eq_some (whole : stripEnd t = t) : codecClause? t = some inside ↔
    (∃ c ∈ t.head?, isBlank c) ∧ stripStart t = "CODEC(" ++ inside ++ ")" ∧ inside ≠ [] ∧
      '\n' ∉ inside := by
  cases t with
  | nil => simp [codecClause?]
  | cons c t =>
    rw [codecClause?]
    by_cases blank : isBlank c = true
    · rw [if_pos blank, codecHere?_eq_some whole]
      exact (and_iff_right ⟨c, rfl, blank⟩).symm
    · rw [if_neg blank]
      refine iff_of_false (by simp) ?_
      rintro ⟨⟨d, first, blank'⟩, -⟩
      cases first
      exact blank blank'

theorem pathHere?_eq_some : pathHere? t = some (path, after) ↔
    t = "\x60json:" ++ path ++ "\x60" ++ after ∧ path ≠ [] ∧ backtick ∉ path := by
  unfold pathHere?
  simp only [Option.bind_eq_bind, Option.bind_eq_some_iff, Text.dropPrefix?_eq_some_iff]
  constructor
  · rintro ⟨rest, rfl, ⟨front, back⟩, cut, kept⟩
    dsimp only at kept
    split at kept
    · cases kept
    · rename_i filled
      obtain ⟨rfl, rfl⟩ := Prod.mk.inj (Option.some.inj kept)
      obtain ⟨rfl, absent⟩ := Text.cutAt?_eq_some cut
      exact ⟨by simp [backtick], filled, absent⟩
  · rintro ⟨rfl, filled, absent⟩
    have cut : Text.cutAt? backtick (path ++ backtick :: after) = some (path, after) :=
      Text.cutAt?_append absent after
    refine ⟨path ++ backtick :: after, by simp [backtick], (path, after), cut, ?_⟩
    exact if_neg filled

/-- What stands before a codec, and the codec. Codecs and JSON paths are searched for from the left,
and neither search minds quotes or parentheses; only that for a default does. -/
def takeCodec (rest : Text) : Text × Option Text :=
  match cutCodec? rest with
  | some (before, codec) => (strip before, some (strip codec))
  | none => (rest, none)

/-- What stands before a default, and the default. -/
def takeDefault (rest : Text) : Text × Option Text :=
  match Text.findTopLevel? defaultMark rest with
  | some index => (strip (rest.take index), some (strip (rest.drop (index + defaultMark.length))))
  | none => (rest, none)

/-- What stands around a JSON path, and the path. -/
def takePath (rest : Text) : Text × Option Text :=
  match cutJsonPath? rest with
  | some (before, path, after) => (strip (before ++ after), some (strip path))
  | none => (rest, none)

theorem readColumn_of_cutWord {definition word rest : Text}
    (cut : Text.cutWord (strip definition) = (word, rest)) : readColumn definition =
      if rest = [] then throw (.columnWithoutRest (strip definition))
      else if unquoteName word = [] then throw (.columnWithoutName (strip definition))
      else
        let (before, codec) := takeCodec rest
        let (head, default) := takeDefault before
        let (type, jsonPath) := takePath head
        if type = [] then throw (.columnWithoutType (strip definition))
        else return { name := unquoteName word, type, jsonPath, default, codec } := by
  unfold readColumn
  dsimp only
  rw [cut]
  dsimp only
  by_cases noRest : rest = []
  · rw [if_pos noRest, if_pos noRest]
    rfl
  rw [if_neg noRest, if_neg noRest]
  by_cases noName : unquoteName word = []
  · rw [if_pos noName, if_pos noName]
    rfl
  rw [if_neg noName, if_neg noName]
  have typed (type : Text) (column : Column) (line : Text) :
      (if type = [] then throw (.columnWithoutType line) >>= fun (_ : Unit) => return column
        else return column : Except Cause Column) =
      if type = [] then throw (.columnWithoutType line) else return column := by
    split <;> rfl
  exact typed _ _ _

/-- What a column is read from. -/
theorem readColumn_eq_ok {definition : Text} {c : Column} : readColumn definition = .ok c ↔
    ∃ word rest before head, Text.cutWord (strip definition) = (word, rest) ∧ rest ≠ [] ∧
      unquoteName word = c.name ∧ c.name ≠ [] ∧ takeCodec rest = (before, c.codec) ∧
      takeDefault before = (head, c.default) ∧ takePath head = (c.type, c.jsonPath) ∧
      c.type ≠ [] := by
  obtain ⟨word, rest, cut⟩ : ∃ word rest, Text.cutWord (strip definition) = (word, rest) :=
    ⟨_, _, rfl⟩
  rw [readColumn_of_cutWord cut]
  obtain ⟨before, codec, first⟩ : ∃ before codec, takeCodec rest = (before, codec) := ⟨_, _, rfl⟩
  obtain ⟨head, default, second⟩ : ∃ head default, takeDefault before = (head, default) :=
    ⟨_, _, rfl⟩
  obtain ⟨type, jsonPath, third⟩ : ∃ type jsonPath, takePath head = (type, jsonPath) := ⟨_, _, rfl⟩
  rw [first]
  dsimp only
  rw [second]
  dsimp only
  rw [third]
  dsimp only
  constructor
  · intro read
    split at read
    · cases read
    split at read
    · cases read
    split at read
    · cases read
    obtain rfl := Except.ok.inj read
    exact ⟨word, rest, before, head, cut, ‹_›, rfl, ‹_›, first, second, third, ‹_›⟩
  · rintro ⟨word', rest', before', head', cut', some, named, some', first', second', third', typed⟩
    obtain ⟨rfl, rfl⟩ := Prod.mk.inj (cut.symm.trans cut')
    obtain ⟨rfl, codec_eq⟩ := Prod.mk.inj (first.symm.trans first')
    obtain ⟨rfl, default_eq⟩ := Prod.mk.inj (second.symm.trans second')
    obtain ⟨type_eq, path_eq⟩ := Prod.mk.inj (third.symm.trans third')
    rw [if_neg some, named, if_neg some', type_eq, if_neg typed, path_eq, default_eq, codec_eq]
    rfl

variable {rest before head : Text} {taken : Option Text}

theorem takeCodec_stripped (whole : strip rest = rest) (cut : takeCodec rest = (before, taken)) :
    strip before = before ∧ ∀ codec ∈ taken, strip codec = codec ∧ '\n' ∉ codec := by
  unfold takeCodec at cut
  split at cut
  · rename_i front inside found
    obtain ⟨rfl, rfl⟩ := Prod.mk.inj cut
    rw [cutCodec?_eq_search] at found
    obtain ⟨t, rfl, isClause⟩ := search_eq_some found
    have whole' := Text.stripEnd_of_append (Text.strip_eq_self_iff.mp whole).2
    have single := ((codecClause?_eq_some whole').mp isClause).2.2.2
    refine ⟨Text.strip_strip _, ?_⟩
    rintro _ ⟨⟩
    exact ⟨Text.strip_strip _, fun feed => single (Text.mem_of_mem_strip feed)⟩
  · obtain ⟨rfl, rfl⟩ := Prod.mk.inj cut
    exact ⟨whole, fun _ member => by cases member⟩

theorem defaultMark_eq : defaultMark = ' ' :: "DEFAULT " := rfl

theorem takeDefault_stripped (whole : strip rest = rest) (cut : takeDefault rest = (before, taken)) :
    strip before = before ∧ ∀ default ∈ taken, strip default = default ∧ default ≠ [] := by
  unfold takeDefault at cut
  split at cut
  · rename_i index found
    obtain ⟨rfl, rfl⟩ := Prod.mk.inj cut
    rw [defaultMark_eq] at found
    obtain ⟨u, v, rfl, rfl⟩ := Text.FindState.stands_of_find? found
    refine ⟨Text.strip_strip _, ?_⟩
    rintro _ ⟨⟩
    refine ⟨Text.strip_strip _, fun empty => ?_⟩
    rw [Nat.zero_add, List.append_assoc, ← List.drop_drop, List.drop_left, defaultMark_eq,
      List.drop_left] at empty
    have split : u ++ (' ' :: ("DEFAULT " : Text)) ++ v = u ++ " DEFAULT" ++ ' ' :: v := by simp
    rw [split] at whole
    exact Text.strip_ne_nil_behind_blank whole (by decide) empty
  · obtain ⟨rfl, rfl⟩ := Prod.mk.inj cut
    exact ⟨whole, fun _ member => by cases member⟩

theorem takePath_stripped (whole : strip rest = rest) (cut : takePath rest = (before, taken)) :
    strip before = before ∧ ∀ path ∈ taken, strip path = path := by
  unfold takePath at cut
  split at cut
  · obtain ⟨rfl, rfl⟩ := Prod.mk.inj cut
    refine ⟨Text.strip_strip _, ?_⟩
    rintro _ ⟨⟩
    exact Text.strip_strip _
  · obtain ⟨rfl, rfl⟩ := Prod.mk.inj cut
    exact ⟨whole, fun _ member => by cases member⟩

end DatafileMigration.Grammar
