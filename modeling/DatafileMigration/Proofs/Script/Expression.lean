import Mathlib.Data.List.Forall2
import DatafileMigration.Module.Layout
import DatafileMigration.Proofs.Script.Content
import DatafileMigration.Proofs.Script.Scan

namespace DatafileMigration.Script

/-- A reader between two tokens; `inside` asks for an open bracket, where line ends do not count. -/
def Reader.Ready (inside : Bool) (r : Reader) : Prop := r.mode = .code ∧ (inside → r.brackets ≠ [])

/-- A text is read as a whole in front of a delimiter, and its tokens hold the texts. -/
def Reads (inside : Bool) (free : Token → Prop) (t : Text) (texts : List Text) : Prop :=
  ∃ tokens, Holds free tokens texts ∧ ∀ r : Reader, r.Ready inside →
    ∀ c u, Delimits c → r.scan (t ++ c :: u) = (r.push tokens).scan (c :: u)

/-- A text is read as these tokens, as a whole in front of a delimiter. -/
def Spells (inside : Bool) (t : Text) (tokens : List Token) : Prop :=
  ∀ r : Reader, r.Ready inside → ∀ c u, Delimits c →
    r.scan (t ++ c :: u) = (r.push tokens).scan (c :: u)

/-- The reader with more brackets open. -/
def Reader.nest (r : Reader) (brackets : List Char) : Reader :=
  { r with brackets := brackets ++ r.brackets }

/-- A text is read as these tokens wherever it stands, and leaves these brackets open. -/
def Begins (t : Text) (tokens : List Token) (brackets : List Char) : Prop :=
  ∀ r : Reader, r.mode = .code → r.scan t = some ((r.push tokens).nest brackets)

/-- A text is read wherever it stands, and leaves these brackets open. -/
def Opens (free : Token → Prop) (t : Text) (brackets : List Char) : Prop :=
  ∃ tokens, Holds free tokens [] ∧ ∀ r : Reader, r.mode = .code →
    r.scan t = some ((r.push tokens).nest brackets)

/-- Whether a text without line ends is read from the start to its end, with nothing but fixed
tokens, and leaves these brackets open. -/
def isFragment (t : Text) (brackets : List Char) : Bool :=
  !t.any isLineEnd && match Reader.scan {} t with
    | some r => r.mode = .code && r.brackets = brackets && r.line.all Token.isFixed
    | none => false

variable {inside : Bool} {free : Token → Prop} {t u w o : Text} {texts others : List Text}
  {c : Char} {tokens more front : List Token}

theorem isWordChar_of_mem_vocabulary :
    ∀ w ∈ vocabulary, w.toList ≠ [] ∧ w.toList.all Text.isWordChar := by
  have listed : ∀ t ∈ vocabulary.map String.toList, t ≠ [] ∧ t.all Text.isWordChar := by
    unfold vocabulary
    -- the kernel is slow to list the characters of a literal, so they are listed first
    repeat rw [List.map_cons, String.toList_ofList]
    decide +kernel
  exact fun w member => listed _ (List.mem_map_of_mem member)

theorem isFixed_of_mem_vocabulary {w : String} (listed : w ∈ vocabulary) :
    (Token.word w.toList).isFixed := by
  rw [Token.isFixed, List.any_eq_true.mpr ⟨w, listed, decide_eq_true rfl⟩, Bool.true_or]

/-- A text without line ends is read to the same tokens wherever it stands. -/
theorem Begins.of_scan {brackets : List Char} (lines : List (List Token))
    (inline : t.any isLineEnd = false)
    (read : Reader.scan {} t = some ⟨.code, brackets, tokens.reverse, lines⟩) :
    Begins t tokens brackets := by
  intro r ready
  obtain ⟨mode, around, line, before⟩ := r
  cases ready
  exact @Reader.scan_within _ _ _ around line before inline read

/-- A fragment is read to the same tokens wherever it stands. -/
theorem Opens.fragment {brackets : List Char} (fragment : isFragment t brackets) :
    Opens free t brackets := by
  rw [isFragment, Bool.and_eq_true, Bool.not_eq_true'] at fragment
  obtain ⟨inline, scanned⟩ := fragment
  split at scanned
  · rename_i s read
    simp only [Bool.and_eq_true, decide_eq_true_eq] at scanned
    obtain ⟨⟨code, open?⟩, fixed⟩ := scanned
    have begins : Begins t s.line.reverse brackets := by
      obtain ⟨mode, inner, before, done⟩ := s
      cases code
      cases open?
      exact .of_scan done inline (by rw [List.reverse_reverse, read])
    exact ⟨s.line.reverse, Holds.ofFixed (by rwa [List.all_reverse]), begins⟩
  · cases scanned

theorem eq_of_isCloser (closes : isCloser c) : c = ')' ∨ c = ']' ∨ c = '\x7d' := by
  rwa [isCloser, Bool.or_eq_true, Bool.or_eq_true, decide_eq_true_eq, decide_eq_true_eq,
    decide_eq_true_eq, or_assoc] at closes

/-- A bracket that closes what was opened. -/
theorem Reader.next_isCloser {r : Reader} (code : r.mode = .code) (closes : isCloser c)
    (tokens more : List Token) : (((r.push tokens).nest [c]).push more).next c =
      some (r.push (tokens ++ more ++ [.mark c])) := by
  obtain ⟨mode, around, line, lines⟩ := r
  cases code
  rw [← push_push, ← push_push]
  rcases eq_of_isCloser closes with rfl | rfl | rfl <;> rfl

namespace Spells

theorem nil : Spells inside [] [] := fun _ _ _ _ _ => rfl

theorem append (first : Spells inside t tokens) (delimits : Delimits c)
    (second : Spells inside (c :: u) more) : Spells inside (t ++ c :: u) (tokens ++ more) := by
  intro r ready d v delimits'
  have behind : (r.push tokens).Ready inside := ready
  rw [List.append_assoc, List.cons_append, first r ready _ _ delimits, ← List.cons_append,
    second _ behind _ _ delimits', Reader.push_push]

theorem blank (spells : Spells inside t tokens) : Spells inside (' ' :: t) tokens := by
  intro r ready d v delimits
  have step : r.next ' ' = some r := (Reader.next_of_code ready.1).trans rfl
  rw [List.cons_append, Reader.scan_cons_of_next step, spells r ready _ _ delimits]

/-- Inside of brackets a line end is nothing but a blank. -/
theorem lineFeed (spells : Spells true t tokens) : Spells true ('\n' :: t) tokens := by
  intro r ready d v delimits
  have step : r.next '\n' = some r := by
    rw [Reader.next_of_code ready.1]
    exact congrArg some (if_neg (ready.2 rfl))
  rw [List.cons_append, Reader.scan_cons_of_next step, spells r ready _ _ delimits]

/-- What begins in front and leaves nothing open. -/
theorem behind (begins : Begins o front []) (spells : Spells inside t tokens) :
    Spells inside (o ++ t) (front ++ tokens) := by
  intro r ready d v delimits
  have behind : (r.push front).Ready inside := ready
  rw [List.append_assoc, Reader.scan_append_of_scan (begins r ready.1), ← Reader.push_push]
  exact spells _ behind d v delimits

theorem word (some : w ≠ []) (chars : ∀ d ∈ w, Text.isWordChar d) :
    Spells inside w [.word w] :=
  fun _ ready _ _ delimits => Reader.scan_word ready.1 some chars delimits

theorem quoted (t : Text) : Spells inside (Text.quoted t) [.string t] :=
  fun _ ready _ _ delimits => Reader.scan_quoted ready.1 t delimits

theorem quotedLines (t : Text) : Spells inside (Text.quotedLines t) [.string t] :=
  fun _ ready _ _ delimits => Reader.scan_quotedLines ready.1 t delimits

/-- What stands between a bracket and the one that closes it. -/
theorem enclose (begins : Begins o front [c]) (closes : isCloser c)
    (spells : Spells true t tokens) :
    Spells inside (o ++ t ++ [c]) (front ++ tokens ++ [.mark c]) := by
  have delimits : Delimits c := by
    rcases eq_of_isCloser closes with rfl | rfl | rfl <;> decide
  intro r ready d v delimits'
  have nested : ((r.push front).nest [c]).Ready true := ⟨ready.1, fun _ => List.cons_ne_nil _ _⟩
  rw [List.append_assoc, List.append_assoc, Reader.scan_append_of_scan (begins _ ready.1),
    List.singleton_append, spells _ nested _ _ delimits,
    Reader.scan_cons_of_next (Reader.next_isCloser ready.1 closes front tokens)]

/-- A comment, up to the end of its line. -/
theorem comment (inline : t.any isLineEnd = false) (spells : Spells true u tokens) :
    Spells true ('#' :: t ++ '\n' :: u) (.comment t :: tokens) := by
  intro r ready d v delimits
  have behind : (r.push [.comment t]).Ready true := ready
  rw [List.cons_append, List.cons_append, List.append_assoc, List.cons_append,
    Reader.scan_comment ready.1 inline (c := '\n') rfl, ← List.cons_append,
    spells.lineFeed _ behind d v delimits, Reader.push_push]
  rfl

theorem blanks (n : Nat) (spells : Spells inside t tokens) :
    Spells inside (List.replicate n ' ' ++ t) tokens := by
  induction n with
  | zero => exact spells
  | succ n ih =>
    rw [List.replicate_succ]
    exact ih.blank

theorem reads (spells : Spells inside t tokens) (holds : Holds free tokens texts) :
    Reads inside free t texts :=
  ⟨tokens, holds, spells⟩

end Spells

theorem Reads.spells (reads : Reads inside free t texts) :
    ∃ tokens, Holds free tokens texts ∧ Spells inside t tokens := reads

namespace Reads

theorem nil : Reads inside free [] [] := Spells.nil.reads Holds.nil

theorem mono (reads : Reads inside free t texts) (fewer : others.Sublist texts) :
    Reads inside free t others := by
  obtain ⟨tokens, holds, spells⟩ := reads.spells
  exact spells.reads (holds.mono fewer)

theorem append (first : Reads inside free t texts) (delimits : Delimits c)
    (second : Reads inside free (c :: u) others) :
    Reads inside free (t ++ c :: u) (texts ++ others) := by
  obtain ⟨tokens, holds, spells⟩ := first.spells
  obtain ⟨more, holds', spells'⟩ := second.spells
  exact (spells.append delimits spells').reads (holds.append holds')

theorem blank (reads : Reads inside free t texts) : Reads inside free (' ' :: t) texts := by
  obtain ⟨tokens, holds, spells⟩ := reads.spells
  exact spells.blank.reads holds

theorem lineFeed (reads : Reads true free t texts) : Reads true free ('\n' :: t) texts := by
  obtain ⟨tokens, holds, spells⟩ := reads.spells
  exact spells.lineFeed.reads holds

/-- A mark that is no bracket. -/
theorem mark (plain : isFragment [c] []) (reads : Reads inside free t texts) :
    Reads inside free (c :: t) texts := by
  obtain ⟨tokens, holds, begins⟩ : ∃ tokens, Holds free tokens [] ∧ Begins [c] tokens [] :=
    Opens.fragment plain
  obtain ⟨more, holds', spells⟩ := reads.spells
  exact (spells.behind begins).reads (holds.append holds')

theorem fragment (fragment : isFragment t []) : Reads inside free t [] := by
  obtain ⟨tokens, holds, begins⟩ : ∃ tokens, Holds free tokens [] ∧ Begins t tokens [] :=
    Opens.fragment fragment
  have spells : Spells inside (t ++ []) (tokens ++ []) := Spells.nil.behind begins
  rw [List.append_nil, List.append_nil] at spells
  exact spells.reads holds

theorem word (known : (Token.word w).Known free) (some : w ≠ [])
    (chars : ∀ d ∈ w, Text.isWordChar d) : Reads inside free w [] :=
  (Spells.word some chars).reads (Holds.singleton known)

theorem name {w : String} (listed : w ∈ vocabulary) : Reads inside free w.toList [] := by
  obtain ⟨some, chars⟩ := isWordChar_of_mem_vocabulary w listed
  exact word (Or.inl (isFixed_of_mem_vocabulary listed)) some (List.all_eq_true.mp chars)

theorem quoted (t : Text) : Reads inside free (Text.quoted t) [t] :=
  (Spells.quoted t).reads (Holds.string t)

theorem quotedLines (t : Text) : Reads inside free (Text.quotedLines t) [t] :=
  (Spells.quotedLines t).reads (Holds.string t)

/-- What stands between a bracket and the one that closes it. -/
theorem enclose (opens : Opens free o [c]) (closes : isCloser c)
    (reads : Reads true free t texts) : Reads inside free (o ++ t ++ [c]) texts := by
  obtain ⟨front, holds, begins⟩ : ∃ front, Holds free front [] ∧ Begins o front [c] := opens
  obtain ⟨tokens, holds', spells⟩ := reads.spells
  have fixed : (Token.mark c).isFixed := by
    rcases eq_of_isCloser closes with rfl | rfl | rfl <;> decide
  have whole := (holds.append holds').append (Holds.singleton (Or.inl fixed))
  rw [List.nil_append, List.append_nil] at whole
  exact (spells.enclose begins closes).reads whole

theorem blanks (n : Nat) (reads : Reads inside free t texts) :
    Reads inside free (List.replicate n ' ' ++ t) texts := by
  obtain ⟨tokens, holds, spells⟩ := reads.spells
  exact (spells.blanks n).reads holds

theorem pair (first : Reads inside free t texts) (second : Reads inside free u others) :
    Reads inside free (t ++ ", " ++ u) (texts ++ others) := by
  rw [List.append_assoc]
  exact first.append (c := ',') (by decide) (second.blank.mark (by decide))

theorem entry {key value : Text} (reads : Reads inside free value texts) :
    Reads inside free (Layout.entry key value) (key :: texts) := by
  rw [Layout.entry, List.append_assoc]
  exact (quoted key).append (c := ':') (by decide) (reads.blank.mark (by decide))

theorem keyword {k : String} {value : Text} (listed : k ∈ vocabulary)
    (reads : Reads inside free value texts) :
    Reads inside free (Layout.keyword k value) texts := by
  rw [Layout.keyword, List.append_assoc]
  exact (name listed).append (c := '=') (by decide) (reads.mark (by decide))

end Reads

/-- Expressions whose tokens hold the texts one after the other. -/
inductive ReadsAll (inside : Bool) (free : Token → Prop) : List Text → List Text → Prop
  | nil : ReadsAll inside free [] []
  | cons {t : Text} {texts : List Text} {items : List Text} {others : List Text} :
      Reads inside free t texts → ReadsAll inside free items others →
        ReadsAll inside free (t :: items) (texts ++ others)

variable {items more : List Text}

namespace ReadsAll

theorem singleton (reads : Reads inside free t texts) : ReadsAll inside free [t] texts := by
  have all : ReadsAll inside free [t] (texts ++ []) := cons reads nil
  rwa [List.append_nil] at all

theorem append (first : ReadsAll inside free items texts)
    (second : ReadsAll inside free more others) :
    ReadsAll inside free (items ++ more) (texts ++ others) := by
  induction first with
  | nil => exact second
  | cons reads _ ih =>
    rw [List.append_assoc]
    exact cons reads ih

theorem map {α : Type} {write : α → Text} {content : α → List Text} {l : List α}
    (each : ∀ a ∈ l, Reads inside free (write a) (content a)) :
    ReadsAll inside free (l.map write) (l.flatMap content) := by
  induction l with
  | nil => exact nil
  | cons a l ih =>
    obtain ⟨first, rest⟩ := List.forall_mem_cons.mp each
    exact cons first (ih rest)

theorem forall₂ {α β : Type} {P : α → β → Prop} {write : β → Text} {content : α → List Text}
    {l : List α} {m : List β} (all : List.Forall₂ P l m)
    (each : ∀ a b, P a b → Reads inside free (write b) (content a)) :
    ReadsAll inside free (m.map write) (l.flatMap content) := by
  induction all with
  | nil => exact nil
  | cons here _ ih => exact cons (each _ _ here) ih

/-- Expressions with a comma between neighbours. -/
theorem join (all : ReadsAll inside free items texts) :
    Reads inside free (Text.join ", " items) texts := by
  induction all with
  | nil => exact Reads.nil
  | @cons t texts items others reads rest ih =>
    cases rest with
    | nil =>
      rw [List.append_nil]
      exact reads
    | cons next rest =>
      exact reads.pair ih

/-- Expressions on their lines, up to blanks in front of a bracket. -/
theorem lines (all : ReadsAll true free items texts) (level blanks : Nat) :
    Reads true free (items.flatMap (Layout.line level) ++ Layout.indent blanks) texts := by
  induction all with
  | nil => exact List.append_nil (Layout.indent blanks) ▸ Reads.nil.blanks _
  | @cons t texts items others reads _ ih =>
    rw [List.flatMap_cons, Layout.line, List.append_assoc, List.append_assoc, List.append_assoc]
    exact (reads.append (c := ',') (by decide) (ih.lineFeed.mark (by decide))).blanks _

theorem block (all : ReadsAll true free items texts) (opens : Opens free o [c])
    (closes : isCloser c) (level : Nat) :
    Reads inside free (Layout.block o [c] level items) texts := by
  have inner : Reads true free ("\n".toList ++ (items.flatMap (Layout.line (level + 1)) ++
    Layout.indent level)) texts := (all.lines (level + 1) level).lineFeed
  cases all with
  | nil => exact List.append_nil o ▸ Reads.nil.enclose opens closes
  | cons reads rest =>
    have block : Reads inside free _ _ := inner.enclose opens closes
    rw [← List.append_assoc o, ← List.append_assoc (o ++ _)] at block
    exact block

theorem inlineDict {entries : List (Text × Text)}
    (all : ReadsAll true free (entries.map fun (key, value) => Layout.entry key value) texts) :
    Reads inside free (Layout.inlineDict entries) texts :=
  all.join.enclose (o := "\x7b") (c := '\x7d') (.fragment (by decide)) (by decide)

end ReadsAll

end DatafileMigration.Script
