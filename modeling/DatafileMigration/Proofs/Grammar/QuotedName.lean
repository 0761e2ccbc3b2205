import DatafileMigration.Proofs.Grammar.Clause
import DatafileMigration.Proofs.Grammar.Layout
import DatafileMigration.Proofs.Literal.Quoted

namespace DatafileMigration.Grammar

open Text (strip isBlank backtick splitTopLevel enclosed)
open Text.SplitState (through?)

variable {name type word definition : Text} {c : Column} {columns : List Column}

/-- What stands behind the name of a column writes the rest of it. -/
def WritesRest (rest : Text) (c : Column) : Prop :=
  ∃ before head, rest ≠ [] ∧ takeCodec rest = (before, c.codec) ∧
    takeDefault before = (head, c.default) ∧ takePath head = (c.type, c.jsonPath) ∧ c.type ≠ []

theorem readColumn_eq_ok_iff : readColumn definition = .ok c ↔
    unquoteName (Text.cutWord definition).1 = c.name ∧ c.name ≠ [] ∧
      WritesRest (Text.cutWord definition).2 c := by
  rw [readColumn_eq_ok, Text.cutWord_strip]
  constructor
  · rintro ⟨word, rest, before, head, cut, some, named, filled, first, second, third, typed⟩
    rw [cut]
    exact ⟨named, filled, before, head, some, first, second, third, typed⟩
  · rintro ⟨named, filled, before, head, some, first, second, third, typed⟩
    exact ⟨_, _, before, head, rfl, some, named, filled, first, second, third, typed⟩

theorem cutWord_word (solid : ∀ b ∈ word, isBlank b = false) (filled : word ≠ []) (rest : Text) :
    Text.cutWord (word ++ ' ' :: rest) = (word, strip rest) := by
  have start : Text.stripStart (word ++ ' ' :: rest) = word ++ ' ' :: rest := by
    obtain ⟨b, word, rfl⟩ := List.exists_cons_of_ne_nil filled
    exact List.dropWhile_cons_of_neg (by simp [solid b List.mem_cons_self])
  have solid' : ∀ b ∈ word, (!isBlank b) = true := fun b member => by simp [solid b member]
  rw [Text.cutWord, start, Text.takeWhile_of_stop solid' (by decide),
    Text.dropWhile_of_stop solid' (by decide), Text.strip_cons_blank (by decide)]

/-- A word in front of the rest of a definition is read as its name. -/
theorem readColumn_word (solid : ∀ b ∈ word, isBlank b = false) (filled : word ≠ [])
    (named : unquoteName word = c.name) (some : c.name ≠ []) (rest : Text) :
    readColumn (word ++ ' ' :: rest) = .ok c ↔
      readColumn ("c" ++ ' ' :: rest) = .ok { c with name := "c" } := by
  have plain : unquoteName "c" = "c" := rfl
  have cut : Text.cutWord ("c" ++ ' ' :: rest) = (("c" : Text), strip rest) :=
    cutWord_word (Text.solid_of_all (by decide)) (by decide) rest
  rw [readColumn_eq_ok_iff, readColumn_eq_ok_iff, cutWord_word solid filled, cut]
  simp only [named, plain, true_and]
  exact ⟨fun read => ⟨by decide, read.2⟩, fun read => ⟨some, read.2⟩⟩

/-- A text that leaves nothing open behind it, and does not make its line a comment. -/
structure IsFront (word : Text) : Prop where
  through : through? {} word = some {}
  first : ∃ b rest, word = b :: rest ∧ isBlank b = false ∧ b ≠ '#'

namespace IsFront

variable (front : IsFront word) (t : Text)

include front

theorem head?_strip_append : ∃ b, (strip (word ++ t)).head? = some b ∧ b ≠ '#' := by
  obtain ⟨b, word, rfl, solid, speaks⟩ := front.first
  exact ⟨b, Text.head?_strip_cons solid (word ++ t), speaks⟩

/-- The line is no comment. -/
theorem schemaTexts_append : schemaTexts [word ++ t] = [strip (word ++ t)] := by
  obtain ⟨b, first, speaks⟩ := front.head?_strip_append t
  exact schemaTexts_cons_of_first first speaks []

/-- The first definition is lengthened at its front. -/
theorem splitTopLevel_append {rest : Text} {pieces : List Text}
    (split : Text.SplitState.pieces {} t = rest :: pieces) :
    splitTopLevel (word ++ t) = strip (word ++ rest) :: (pieces.map strip).filter (· ≠ []) := by
  have filled : strip (word ++ rest) ≠ [] := by
    intro empty
    obtain ⟨b, opens, _⟩ := front.head?_strip_append rest
    rw [empty] at opens
    cases opens
  rw [splitTopLevel, Text.SplitState.pieces_append front.through split, List.map_cons,
    List.filter_cons, if_pos (decide_eq_true filled)]

end IsFront

/-- Of a schema of one line, its first column is written by the word in front and a text that does
not depend on it, all others by texts that do not either. -/
theorem readSchema_of_front (type : Text) : ∃ (rest : Text) (more : List Text), ∀ word,
    IsFront word → ∀ columns, readSchema [word ++ ' ' :: type] = .ok columns ↔
      ∃ c others, readColumn (word ++ ' ' :: rest) = .ok c ∧ more.mapM readColumn = .ok others ∧
        columns = c :: others := by
  obtain ⟨rest, pieces, split⟩ := List.exists_cons_of_ne_nil
    (Text.SplitState.pieces_ne_nil (s := {}) (t := type))
  refine ⟨rest, (pieces.map strip).filter (· ≠ []), fun word front columns => ?_⟩
  have behind : Text.SplitState.pieces {} (' ' :: type) = (' ' :: rest) :: pieces := by
    have same : Text.SplitState.next {} ' ' = {} := rfl
    rw [Text.SplitState.pieces, if_neg (by decide), same, split]
  rw [readSchema_eq, front.schemaTexts_append, List.flatMap_singleton, Text.splitTopLevel_strip,
    front.splitTopLevel_append _ behind, List.mapM_cons, readColumn_strip]
  simp only [bind_eq_ok]
  constructor
  · rintro ⟨c, read, others, found, same⟩
    exact ⟨c, others, read, found, (Except.ok.inj same).symm⟩
  · rintro ⟨c, others, read, found, rfl⟩
    exact ⟨c, read, others, found, rfl⟩

/-- Between backticks, none but a backtick leads out. -/
theorem through?_of_opened (free : backtick ∉ name) (escaped : Bool) : ∃ escaped',
    through? { opened := some backtick, escaped } name =
      some { opened := some backtick, escaped := escaped' } := by
  induction name generalizing escaped with
  | nil => exact ⟨escaped, rfl⟩
  | cons b name ih =>
    rw [List.mem_cons, not_or] at free
    have stays : Text.SplitState.next { opened := some backtick, escaped } b =
        { opened := some backtick, escaped := b == '\\' } := by
      simp [Text.SplitState.next, Ne.symm free.1]
    rw [through?, if_neg (by simp [Text.SplitState.isNeutral]), stays]
    exact ih free.2 _

theorem isFront_enclosed (free : backtick ∉ name) : IsFront (enclosed backtick name) := by
  obtain ⟨escaped, through⟩ := through?_of_opened free false
  refine ⟨?_, backtick, name ++ [backtick], rfl, by decide, by decide⟩
  have opening : through? {} (enclosed backtick name) =
      through? { opened := some backtick } (name ++ [backtick]) := rfl
  rw [opening, Text.SplitState.through?_append, through, Option.bind_some]
  cases escaped <;> rfl

theorem isFront_plain : IsFront "c" := ⟨rfl, 'c', [], rfl, by decide, by decide⟩

theorem unquoteName_enclosed (name : Text) : unquoteName (enclosed backtick name) = name := by
  have inside : Text.dropSuffix? [backtick] (name ++ [backtick]) = some name :=
    Text.dropSuffix?_eq_some_iff.mpr rfl
  rw [enclosed, unquoteName, if_pos (by simp), inside]
  rfl

/-- A definition is cut at a blank between backticks, and the first of these stays in the name. The
splitter sees the backticks before and keeps what stands between them together. -/
theorem name_of_blank (free : backtick ∉ name) (blank : ∃ b ∈ name, isBlank b) {rest : Text}
    (read : readColumn (enclosed backtick name ++ ' ' :: rest) = .ok c) :
    c.name = backtick :: name.takeWhile (!isBlank ·) := by
  have stops : ¬ (name.takeWhile (!isBlank ·)).length = name.length := by
    intro all
    obtain ⟨b, member, blank⟩ := blank
    rw [← (List.takeWhile_prefix _).eq_of_length all] at member
    have solid := List.mem_takeWhile_imp member
    simp [blank] at solid
  have opens : enclosed backtick name ++ ' ' :: rest =
      backtick :: (name ++ backtick :: ' ' :: rest) := by
    simp [enclosed]
  have word : (Text.cutWord (enclosed backtick name ++ ' ' :: rest)).1 =
      backtick :: name.takeWhile (!isBlank ·) := by
    have start : Text.stripStart (backtick :: (name ++ backtick :: ' ' :: rest)) =
        backtick :: (name ++ backtick :: ' ' :: rest) := List.dropWhile_cons_of_neg (by decide)
    rw [opens, Text.cutWord, start, List.takeWhile_cons_of_pos (by decide), List.takeWhile_append,
      if_neg stops]
  have unclosed : Text.dropSuffix? [backtick] (name.takeWhile (!isBlank ·)) = none := by
    rw [Option.eq_none_iff_forall_ne_some]
    intro front closed
    have ends := Text.dropSuffix?_eq_some_iff.mp closed
    refine free ((List.takeWhile_prefix _).subset (?_ : backtick ∈ name.takeWhile (!isBlank ·)))
    rw [ends]
    exact List.mem_append_right _ List.mem_cons_self
  rw [← (readColumn_eq_ok_iff.mp read).1, word, unquoteName, if_pos (by simp), unclosed]
  rfl

/-- A name in backticks is read whole exactly if it has no blank, whatever else stands in it. With a
blank, the column is named by the backtick and what stands before the blank. -/
theorem readSchema_enclosed_name (filled : name ≠ []) (free : backtick ∉ name) (type : Text) :
    (readSchema [enclosed backtick name ++ ' ' :: type] = .ok [{ name, type }] ↔
      (∀ b ∈ name, isBlank b = false) ∧
        readSchema [("c" : Text) ++ ' ' :: type] = .ok [{ name := "c", type }]) ∧
    ((∃ b ∈ name, isBlank b) → ∀ c columns,
      readSchema [enclosed backtick name ++ ' ' :: type] = .ok (c :: columns) →
        c.name = backtick :: name.takeWhile (!isBlank ·)) := by
  obtain ⟨rest, more, reads⟩ := readSchema_of_front type
  have column (solid : ∀ b ∈ name, isBlank b = false) :
      readColumn (enclosed backtick name ++ ' ' :: rest) = .ok { name, type } ↔
        readColumn ("c" ++ ' ' :: rest) = .ok { name := "c", type } := by
    have solid' : ∀ b ∈ enclosed backtick name, isBlank b = false := by
      simp only [enclosed, List.forall_mem_cons, List.forall_mem_append]
      exact ⟨by decide, solid, by decide, by simp⟩
    exact readColumn_word solid' (List.cons_ne_nil _ _) (unquoteName_enclosed name) filled rest
  rw [reads _ (isFront_enclosed free), reads _ isFront_plain]
  refine ⟨?_, fun blank c columns read => ?_⟩
  · constructor
    · rintro ⟨c, others, read, found, same⟩
      obtain ⟨rfl, rfl⟩ := List.cons.inj same
      have solid : ∀ b ∈ name, isBlank b = false := by
        by_contra some
        have named : name = backtick :: name.takeWhile (!isBlank ·) :=
          name_of_blank free (by simpa using some) read
        rw [named] at free
        exact free List.mem_cons_self
      exact ⟨solid, _, [], (column solid).mp read, found, rfl⟩
    · rintro ⟨solid, c, others, read, found, same⟩
      obtain ⟨rfl, rfl⟩ := List.cons.inj same
      exact ⟨_, [], (column solid).mpr read, found, rfl⟩
  · obtain ⟨c', others, read, -, same⟩ := (reads _ (isFront_enclosed free) _).mp read
    obtain ⟨rfl, -⟩ := List.cons.inj same
    exact name_of_blank free blank read

theorem readSchema_enclosed_name_comma :
    ("a,(b)" : Text) ≠ [] ∧ backtick ∉ ("a,(b)" : Text) ∧
      readSchema [enclosed backtick "a,(b)" ++ ' ' :: "Map(String, Int32)"] =
        .ok [{ name := "a,(b)", type := "Map(String, Int32)" }] :=
  ⟨by decide, by decide, (readSchema_enclosed_name (by decide) (by decide) _).1.mpr
    ⟨Text.solid_of_all (by decide), by decide +kernel⟩⟩

/-- The name is cut at its blank, and half of it is read as part of the type. -/
theorem readSchema_enclosed_name_blank :
    readSchema ["\x60my col\x60 String"] = .ok [{ name := "\x60my", type := "col\x60 String" }] ∧
      readSchema ["c String"] = .ok [{ name := "c", type := "String" }] := by
  exact ⟨by decide +kernel, by decide +kernel⟩

end DatafileMigration.Grammar
