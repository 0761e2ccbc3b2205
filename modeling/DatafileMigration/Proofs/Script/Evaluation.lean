import DatafileMigration.Literal.Render
import DatafileMigration.Number.Plain
import DatafileMigration.Proofs.Script.Entry
import DatafileMigration.Proofs.Script.Numeral

namespace DatafileMigration

namespace Script

/-- What is open around the place of a value, with the values in front of it. -/
inductive Frame where
  | minus
  | list (items : List Literal)
  /-- A dictionary at the place of a key. -/
  | dict (entries : List (Text × Literal))
  /-- A dictionary at the place of the value of a key. -/
  | entry (entries : List (Text × Literal)) (key : Text)

/-- Where an evaluation stands; the innermost frame comes first. -/
inductive Evaluation where
  /-- In front of a value; `closes` says that the innermost bracket may be closed instead. -/
  | before (closes : Bool) (frames : List Frame)
  | behind (value : Literal) (frames : List Frame)

/-- The value of a word: a constant, or an integer of no more digits than are read. -/
def wordValue? (w : Text) : Option Literal :=
  if w = "None".toList then some .null
  else if w = "True".toList then some (.bool true)
  else if w = "False".toList then some (.bool false)
  else if isIntegerLiteral w && w.length ≤ integerDigitLimit then
    some (.int (Nat.ofDigitChars 10 w 0 : Nat))
  else none

/-- The value behind a minus sign. -/
def negate? : Literal → Option Literal
  | .scalar (.int n) => some (.int (-n))
  | _ => none

namespace Evaluation

/-- Behind a value, with the minus signs in front of it taken into account. -/
def complete? (value : Literal) : List Frame → Option Evaluation
  | .minus :: frames => (negate? value).bind fun negated => complete? negated frames
  | frames => some (.behind value frames)

/-- A value begins, or a bracket that was opened or stands behind a comma is closed. -/
def begin? (closes : Bool) (frames : List Frame) (c : Char) : Option Evaluation :=
  if c = '-' then some (.before false (.minus :: frames))
  else if c = '[' then some (.before true (.list [] :: frames))
  else if c = '\x7b' then some (.before true (.dict [] :: frames))
  else match closes, frames with
    | true, .list items :: frames => if c = ']' then complete? (.list items) frames else none
    | true, .dict entries :: frames =>
      if c = '\x7d' then complete? (.dict (mapping entries)) frames else none
    | _, _ => none

/-- A value ends at a mark. -/
def end? (value : Literal) (frames : List Frame) (c : Char) : Option Evaluation :=
  match frames with
  | .list items :: frames =>
    if c = ',' then some (.before true (.list (items ++ [value]) :: frames))
    else if c = ']' then complete? (.list (items ++ [value])) frames
    else none
  | .dict entries :: frames =>
    match value with
    | .scalar (.text key) =>
      if c = ':' then some (.before false (.entry entries key :: frames)) else none
    | _ => none
  | .entry entries key :: frames =>
    if c = ',' then some (.before true (.dict (entries ++ [(key, value)]) :: frames))
    else if c = '\x7d' then complete? (.dict (mapping (entries ++ [(key, value)]))) frames
    else none
  | _ => none

def next : Evaluation → Token → Option Evaluation
  | .before _ frames, .word w => (wordValue? w).bind fun value => complete? value frames
  | .before _ frames, .string value => complete? (.text value) frames
  | .before closes frames, .mark c => begin? closes frames c
  | .behind value frames, .mark c => end? value frames c
  | _, _ => none

/-- The evaluation behind tokens. It goes over them once and keeps what is open around it on a
stack. -/
def run (e : Evaluation) (tokens : List Token) : Option Evaluation := tokens.foldlM next e

/-- The value, if nothing is left open. -/
def value? : Evaluation → Option Literal
  | .behind value [] => some value
  | _ => none

end Evaluation

/-- The value of an expression without variables: a constant, an integer, a string, or a list or a
dictionary of such values, to any depth. Other expressions are refused. -/
def evaluate? (t : Text) : Option Literal :=
  (tokensOf? t).bind fun tokens =>
    (Evaluation.run (.before false []) tokens).bind Evaluation.value?

/-- Tokens that are a value wherever one may stand. -/
def Denotes (tokens : List Token) (x : Literal) : Prop :=
  ∀ closes frames, Evaluation.run (.before closes frames) tokens = Evaluation.complete? x frames

open Evaluation

variable {e e' : Evaluation} {tokens more : List Token} {x : Literal} {frames : List Frame}
  {closes : Bool}

namespace Evaluation

theorem run_append (e : Evaluation) (tokens more : List Token) :
    e.run (tokens ++ more) = (e.run tokens).bind (·.run more) := List.foldlM_append

theorem run_cons (e : Evaluation) (token : Token) (tokens : List Token) :
    e.run (token :: tokens) = (e.next token).bind (·.run tokens) := rfl

theorem run_singleton (e : Evaluation) (token : Token) : e.run [token] = e.next token := by
  rw [run_cons]
  exact bind_pure (e.next token)

/-- A value in a list. -/
theorem complete?_list (x : Literal) (items : List Literal) (frames : List Frame) :
    complete? x (.list items :: frames) = some (.behind x (.list items :: frames)) := rfl

theorem complete?_entry (x : Literal) (entries : List (Text × Literal)) (key : Text)
    (frames : List Frame) :
    complete? x (.entry entries key :: frames) = some (.behind x (.entry entries key :: frames)) :=
  rfl

end Evaluation

theorem denotes_word {w : Text} (value : wordValue? w = some x) : Denotes [.word w] x := by
  intro closes frames
  rw [run_singleton, next, value, Option.bind_some]

theorem denotes_string (value : Text) : Denotes [.string value] (.text value) :=
  fun _ _ => run_singleton _ _

theorem Denotes.minus {n : Int} (denotes : Denotes tokens (.int n)) :
    Denotes (.mark '-' :: tokens) (.int (-n)) := by
  intro closes frames
  have step : (Evaluation.before closes frames).next (.mark '-') =
      some (.before false (.minus :: frames)) := rfl
  rw [run_cons, step, Option.bind_some, denotes]
  rfl

theorem head?_ofNat_ne_zero {n : Nat} (positive : n ≠ 0) : (Text.ofNat n).head? ≠ some '0' := by
  induction n using Nat.strongRecOn with
  | _ n ih =>
    by_cases small : n < 10
    · rw [Text.ofNat, Nat.toDigits_of_lt_base small, List.head?_singleton, Ne, Option.some.injEq,
        Nat.digitChar_eq_zero]
      exact positive
    · have front : (Text.ofNat (n / 10) ++ [(n % 10).digitChar]).head? =
          (Text.ofNat (n / 10)).head? := List.head?_append_of_ne_nil _ (Text.ofNat_ne_nil (n / 10))
      rw [Text.ofNat, Nat.toDigits_of_base_le (by decide) (by omega), ← Text.ofNat, front]
      exact ih (n / 10) (by omega) (by omega)

/-- A number is written with digits, the first of which is no zero unless it is zero. -/
theorem isIntegerLiteral_ofNat (n : Nat) : isIntegerLiteral (Text.ofNat n) := by
  have digits : (Text.ofNat n).all Char.isDigit :=
    List.all_eq_true.mpr fun c member => Text.isDigit_of_mem_ofNat member
  have some := Text.ofNat_ne_nil n
  by_cases zero : n = 0
  · subst zero
    rfl
  · simp [isIntegerLiteral, digits, some, head?_ofNat_ne_zero zero]

theorem wordValue?_ofNat {n : Nat} (short : (Text.ofNat n).length ≤ integerDigitLimit) :
    wordValue? (Text.ofNat n) = some (.int n) := by
  have apart {w : String} (letter : ∃ c ∈ w.toList, c.isDigit = false) :
      Text.ofNat n ≠ w.toList := by
    intro same
    obtain ⟨c, member, noDigit⟩ := letter
    rw [← same] at member
    rw [Text.isDigit_of_mem_ofNat member] at noDigit
    cases noDigit
  rw [wordValue?, if_neg (apart ⟨'N', by decide, rfl⟩), if_neg (apart ⟨'T', by decide, rfl⟩),
    if_neg (apart ⟨'F', by decide, rfl⟩),
    if_pos (by simp [isIntegerLiteral_ofNat n, short]), Text.ofNat, Nat.ofDigitChars_ten_toDigits]

/-- Items with commas between them and the bracket that closes the list. -/
theorem run_items {arguments : List (List Token)} {items : List Literal}
    (each : List.Forall₂ Denotes arguments items) (before : List Literal) (frames : List Frame) :
    Evaluation.run (.before true (.list before :: frames)) (commas arguments ++ [.mark ']']) =
      complete? (.list (before ++ items)) frames := by
  induction each generalizing before with
  | nil =>
    rw [List.append_nil]
    exact run_singleton _ _
  | @cons tokens item arguments items denotes rest ih =>
    cases rest with
    | nil =>
      rw [commas, run_append, denotes, complete?_list, Option.bind_some]
      exact run_singleton _ _
    | @cons more next arguments items second rest =>
      have step : (Evaluation.behind item (.list before :: frames)).next (.mark ',') =
          some (.before true (.list (before ++ [item]) :: frames)) := rfl
      rw [commas, List.append_assoc, run_append, denotes, complete?_list, Option.bind_some,
        List.cons_append, run_cons, step, Option.bind_some, ih, List.append_assoc]
      rfl

theorem denotes_list {arguments : List (List Token)} {items : List Literal}
    (each : List.Forall₂ Denotes arguments items) :
    Denotes (.mark '[' :: commas arguments ++ [.mark ']']) (.list items) := by
  intro closes frames
  have step : (Evaluation.before closes frames).next (.mark '[') =
      some (.before true (.list [] :: frames)) := rfl
  rw [List.cons_append, run_cons, step, Option.bind_some, run_items each, List.nil_append]

/-- Tokens that are an entry of a dictionary. -/
def DenotesEntry (tokens : List Token) (entry : Text × Literal) : Prop :=
  ∃ value, tokens = .string entry.1 :: .mark ':' :: value ∧ Denotes value entry.2

theorem DenotesEntry.run {entry : Text × Literal} (denotes : DenotesEntry tokens entry)
    (before : List (Text × Literal)) (frames : List Frame) :
    Evaluation.run (.before true (.dict before :: frames)) tokens =
      some (.behind entry.2 (.entry before entry.1 :: frames)) := by
  obtain ⟨value, rfl, denotes⟩ := denotes
  have key : (Evaluation.before true (.dict before :: frames)).next (.string entry.1) =
      some (.behind (.text entry.1) (.dict before :: frames)) := rfl
  have colon : (Evaluation.behind (.text entry.1) (.dict before :: frames)).next (.mark ':') =
      some (.before false (.entry before entry.1 :: frames)) := rfl
  rw [run_cons, key, Option.bind_some, run_cons, colon, Option.bind_some, denotes, complete?_entry]

theorem run_entries {arguments : List (List Token)} {entries : List (Text × Literal)}
    (each : List.Forall₂ DenotesEntry arguments entries) (before : List (Text × Literal))
    (frames : List Frame) :
    Evaluation.run (.before true (.dict before :: frames)) (commas arguments ++ [.mark '\x7d']) =
      complete? (.dict (mapping (before ++ entries))) frames := by
  induction each generalizing before with
  | nil =>
    rw [List.append_nil]
    exact run_singleton _ _
  | @cons tokens entry arguments entries denotes rest ih =>
    cases rest with
    | nil =>
      rw [commas, run_append, denotes.run, Option.bind_some]
      exact run_singleton _ _
    | @cons more next arguments entries second rest =>
      have step : (Evaluation.behind entry.2 (.entry before entry.1 :: frames)).next (.mark ',') =
          some (.before true (.dict (before ++ [entry]) :: frames)) := rfl
      rw [commas, List.append_assoc, run_append, denotes.run, Option.bind_some,
        List.cons_append, run_cons, step, Option.bind_some, ih, List.append_assoc]
      rfl

theorem denotes_dict {arguments : List (List Token)} {entries : List (Text × Literal)}
    (each : List.Forall₂ DenotesEntry arguments entries)
    (distinct : (entries.map Prod.fst).Nodup) :
    Denotes (.mark '\x7b' :: commas arguments ++ [.mark '\x7d']) (.dict entries) := by
  intro closes frames
  have step : (Evaluation.before closes frames).next (.mark '\x7b') =
      some (.before true (.dict [] :: frames)) := rfl
  rw [List.cons_append, run_cons, step, Option.bind_some, run_entries each, List.nil_append,
    mapping_of_nodup distinct]

end Script

open Script

/-- A value without numbers of finite precision, whose integers have no more digits than are read,
and whose dictionaries have each key once. -/
inductive Literal.IsPlain : Literal → Prop
  | null : IsPlain .null
  | bool (b : Bool) : IsPlain (.bool b)
  | int {n : Int} : (Text.ofNat n.natAbs).length ≤ integerDigitLimit → IsPlain (.int n)
  | text (t : Text) : IsPlain (.text t)
  | list {items : List Literal} : (∀ x ∈ items, IsPlain x) → IsPlain (.list items)
  | dict {entries : List (Text × Literal)} : (entries.map Prod.fst).Nodup →
      (∀ entry ∈ entries, IsPlain entry.2) → IsPlain (.dict entries)

/-- The literal has an expression, and its tokens are the literal. -/
def Literal.Written (x : Literal) : Prop :=
  ∃ t tokens, x.render = .ok t ∧ Spells true t tokens ∧ Denotes tokens x

namespace Literal

theorem written_int {n : Int} (short : (Text.ofNat n.natAbs).length ≤ integerDigitLimit) :
    Written (.int n) := by
  have spells (m : Nat) : Spells true (Text.ofNat m) [.word (Text.ofNat m)] :=
    Spells.word (Text.ofNat_ne_nil m) fun c member =>
      Text.isWordChar_of_isDigit ((Text.isDigits_ofNat m).2 c member)
  cases n with
  | ofNat m => exact ⟨_, _, rfl, spells m, denotes_word (wordValue?_ofNat short)⟩
  | negSucc m =>
    have begins : Begins ['-'] [.mark '-'] [] := .of_scan [] (by decide) rfl
    exact ⟨_, _, rfl, (spells (m + 1)).behind begins,
      (denotes_word (wordValue?_ofNat short)).minus⟩

theorem exists_renderItems {items : List Literal} (each : ∀ x ∈ items, x.Written) :
    ∃ parts arguments, renderItems items = .ok parts ∧ SpellsAll true parts arguments ∧
      List.Forall₂ Denotes arguments items := by
  induction items with
  | nil => exact ⟨[], [], rfl, .nil, .nil⟩
  | cons x items ih =>
    obtain ⟨here, rest⟩ := List.forall_mem_cons.mp each
    obtain ⟨t, tokens, rendered, spells, denotes⟩ := here
    obtain ⟨parts, arguments, others, spellsAll, denotesAll⟩ := ih rest
    refine ⟨t :: parts, tokens :: arguments, ?_, .cons spells spellsAll, .cons denotes denotesAll⟩
    rw [renderItems, rendered, others]
    rfl

theorem exists_renderEntries {entries : List (Text × Literal)}
    (each : ∀ entry ∈ entries, entry.2.Written) :
    ∃ parts arguments, renderEntries entries = .ok parts ∧ SpellsAll true parts arguments ∧
      List.Forall₂ DenotesEntry arguments entries := by
  induction entries with
  | nil => exact ⟨[], [], rfl, .nil, .nil⟩
  | cons entry entries ih =>
    obtain ⟨key, x⟩ := entry
    obtain ⟨here, rest⟩ := List.forall_mem_cons.mp each
    obtain ⟨t, tokens, rendered, spells, denotes⟩ := here
    obtain ⟨parts, arguments, others, spellsAll, denotesAll⟩ := ih rest
    have entry := (Spells.quoted key).append (c := ':') (by decide)
      (spells.blank.separated (by decide))
    refine ⟨_, _, ?_, .cons entry spellsAll, .cons ⟨tokens, rfl, denotes⟩ denotesAll⟩
    rw [renderEntries, rendered, others]
    exact congrArg (fun part => Except.ok (part :: parts)) (List.append_assoc ..)

theorem IsPlain.written {x : Literal} (plain : x.IsPlain) : x.Written := by
  have name {w : String} {y : Literal} (some : w.toList ≠ [])
      (chars : w.toList.all Text.isWordChar) (value : wordValue? w.toList = .some y)
      (rendered : y.render = .ok w.toList) : y.Written :=
    ⟨_, _, rendered, Spells.word some (List.all_eq_true.mp chars), denotes_word value⟩
  induction plain with
  | null => exact name (w := "None") (by decide) (by decide) rfl rfl
  | bool b =>
    cases b with
    | false => exact name (w := "False") (by decide) (by decide) rfl rfl
    | true => exact name (w := "True") (by decide) (by decide) rfl rfl
  | int short => exact written_int short
  | text t => exact ⟨_, _, rfl, Spells.quoted t, denotes_string t⟩
  | list _ each =>
    obtain ⟨parts, arguments, rendered, spells, denotes⟩ := exists_renderItems each
    have begins : Begins ['['] [.mark '['] [']'] := .of_scan [] (by decide) rfl
    refine ⟨_, _, ?_, spells.join.enclose begins (by decide), denotes_list denotes⟩
    rw [render, rendered]
    rfl
  | dict distinct _ each =>
    obtain ⟨parts, arguments, rendered, spells, denotes⟩ := exists_renderEntries each
    have begins : Begins ['\x7b'] [.mark '\x7b'] ['\x7d'] := .of_scan [] (by decide) rfl
    refine ⟨_, _, ?_, spells.join.enclose begins (by decide), denotes_dict denotes distinct⟩
    rw [render, rendered]
    rfl

/-- The expression of a plain literal evaluates to the literal. -/
theorem evaluate?_render {x : Literal} (plain : x.IsPlain) :
    ∃ t, x.render = .ok t ∧ evaluate? t = some x := by
  obtain ⟨t, tokens, rendered, spells, denotes⟩ := plain.written
  refine ⟨t, rendered, ?_⟩
  rw [evaluate?, spells.tokensOf?, Option.bind_some, denotes]
  rfl

/-- A dictionary of a list and a dictionary, with a quote in a key. -/
def nested : Literal :=
  .dict [("a\"", .list [.int 1, .bool true, .null, .int (-12)]), ("", .dict [("b", .list [])])]

def nestedText : Text := "\x7b\"a\\\"\": [1, True, None, -12], \"\": \x7b\"b\": []\x7d\x7d"

theorem evaluate?_render_nested :
    nested.IsPlain ∧ nested.render = .ok nestedText ∧ evaluate? nestedText = some nested := by
  have items : IsPlain (.list [.int 1, .bool true, .null, .int (-12)]) := by
    refine .list fun x member => ?_
    simp only [List.mem_cons, List.not_mem_nil, or_false] at member
    rcases member with rfl | rfl | rfl | rfl
    · exact .int (by decide)
    · exact .bool true
    · exact .null
    · exact .int (by decide)
  have empty : IsPlain (.list []) := .list (by simp)
  have inner : IsPlain (.dict [("b", .list [])]) :=
    .dict (by decide) (by simpa using empty)
  have plain : nested.IsPlain := .dict (by decide) (by simpa using ⟨items, inner⟩)
  obtain ⟨t, rendered, value⟩ := evaluate?_render plain
  have written : nested.render = .ok nestedText := rfl
  obtain rfl := Except.ok.inj (rendered.symm.trans written)
  exact ⟨plain, written, value⟩

end Literal

end DatafileMigration
