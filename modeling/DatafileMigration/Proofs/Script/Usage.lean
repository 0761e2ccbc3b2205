import DatafileMigration.Proofs.Script.Entry
import DatafileMigration.Proofs.Script.Heads

namespace DatafileMigration

namespace Script

/-- A text that is read as one argument, and the names it uses. -/
def Uses (closed : Bool) (t : Text) (names : List Text) : Prop :=
  ∃ tokens, Spells true t tokens ∧ Passes false tokens ∧ Heads closed (code tokens) names

/-- A text that is read as a function, and the names it uses when it is called. -/
def UsesCalled (t : Text) (names : List Text) : Prop :=
  ∃ tokens, Spells true t tokens ∧ Passes false tokens ∧ Leads (code tokens) names

/-- Arguments that use the names one after the other. -/
inductive UsesAll : List Text → List Text → Prop
  | nil : UsesAll [] []
  | cons {t names items others} :
      Uses false t names → UsesAll items others → UsesAll (t :: items) (names ++ others)

/-- A word, be it a name or not. -/
def IsWord (w : Text) : Prop := w ≠ [] ∧ ∀ c ∈ w, Text.isWordChar c

instance (w : Text) : Decidable (IsWord w) :=
  decidable_of_iff (w ≠ [] ∧ w.all Text.isWordChar) (and_congr_right fun _ => List.all_eq_true)

variable {closed : Bool} {t u w f k : Text} {o c : Char} {names others : List Text}
  {items more : List Text} {tokens : List Token} {arguments : List (List Token)}

theorem IsWord.listed {w : String} (listed : w ∈ vocabulary) : IsWord w.toList := by
  obtain ⟨some, chars⟩ := isWordChar_of_mem_vocabulary w listed
  exact ⟨some, List.all_eq_true.mp chars⟩

theorem SpellsAll.lines (all : SpellsAll true items arguments) (level blanks : Nat) :
    Spells true (items.flatMap (Layout.line level) ++ Layout.indent blanks)
      (enumerated arguments) := by
  induction all with
  | nil => exact List.append_nil (Layout.indent blanks) ▸ Spells.nil.blanks _
  | @cons t tokens items arguments spells _ ih =>
    have line := (spells.append (c := ',') (by decide)
      (ih.lineFeed.separated (by decide))).blanks (4 * level)
    rw [List.flatMap_cons, Layout.line, List.append_assoc, List.append_assoc, List.append_assoc,
      enumerated, List.flatMap_cons, List.append_assoc]
    exact line

/-- What stands between the brackets of a block does not depend on them. -/
theorem SpellsAll.exists_inside (all : SpellsAll true items arguments) (level : Nat) :
    ∃ inside, Spells true inside (enumerated arguments) ∧
      ∀ opener closer, Layout.block opener closer level items = opener ++ inside ++ closer := by
  cases items with
  | nil =>
    cases all
    exact ⟨[], .nil, fun opener closer => by rw [Layout.block, List.append_nil]⟩
  | cons t items =>
    refine ⟨"\n".toList ++
      ((t :: items).flatMap (Layout.line (level + 1)) ++ Layout.indent level),
      (all.lines (level + 1) level).lineFeed, fun opener closer => ?_⟩
    rw [Layout.block]
    simp only [List.append_assoc]
    exact fun none => absurd none (List.cons_ne_nil t items)

theorem Begins.opener (opens : closer? o = some c) : Begins [o] [.mark o] [c] := by
  rw [closer?] at opens
  repeat' split at opens
  all_goals cases opens
  all_goals
    rename_i same
    subst same
    exact .of_scan [] (by decide) rfl

/-- A block between brackets. -/
theorem SpellsAll.block {inside : Bool} (all : SpellsAll true items arguments)
    (opens : closer? o = some c) (level : Nat) :
    Spells inside (Layout.block [o] [c] level items)
      (.mark o :: enumerated arguments ++ [.mark c]) := by
  obtain ⟨between, spells, written⟩ := all.exists_inside level
  have enclosed : Spells inside ([o] ++ between ++ [c])
      ([.mark o] ++ enumerated arguments ++ [.mark c]) :=
    spells.enclose (.opener opens) (isCloser_of_closer? opens)
  rw [List.singleton_append (x := Token.mark o)] at enclosed
  rw [written]
  exact enclosed

theorem Passes.plain (listed : c ∈ ['.', ':', '=', '-', '+']) : Passes false [.mark c] := by
  simp only [List.mem_cons, List.not_mem_nil, or_false] at listed
  rcases listed with rfl | rfl | rfl | rfl | rfl <;> exact .single (fun _ => rfl) (by decide)

theorem Spells.keyword (spells : Spells true t tokens) (word : IsWord k) :
    Spells true (Layout.keyword k t) (.word k :: .mark '=' :: tokens) := by
  rw [Layout.keyword, List.append_assoc]
  exact (Spells.word word.1 word.2).append (c := '=') (by decide) (spells.separated (by decide))

theorem Passes.keyword (passes : Passes false tokens) (k : Text) :
    Passes false (.word k :: .mark '=' :: tokens) :=
  (Passes.word k).append ((Passes.plain (by decide)).append passes)

theorem Heads.keyword (adds : Heads closed tokens names) (k : Text) :
    Heads closed (.word k :: .mark '=' :: tokens) names :=
  (Heads.word k).separated (by decide) adds

namespace UsesAll

theorem single (uses : Uses false t names) : UsesAll [t] names := by
  have all := cons uses nil
  rwa [List.append_nil] at all

theorem silent (each : ∀ t ∈ items, Uses false t []) : UsesAll items [] := by
  induction items with
  | nil => exact nil
  | cons t items ih =>
    obtain ⟨first, rest⟩ := List.forall_mem_cons.mp each
    exact cons first (ih rest)

theorem map {α : Type} {write : α → Text} {content : α → List Text} {l : List α}
    (each : ∀ a ∈ l, Uses false (write a) (content a)) :
    UsesAll (l.map write) (l.flatMap content) := by
  induction l with
  | nil => exact nil
  | cons a l ih =>
    obtain ⟨first, rest⟩ := List.forall_mem_cons.mp each
    exact cons first (ih rest)

/-- The arguments with their tokens, whichever way these are separated. -/
theorem exists_tokens (all : UsesAll items names) :
    ∃ arguments, SpellsAll true items arguments ∧ (∀ a ∈ arguments, Passes false a) ∧
      Heads false (code (commas arguments)) names ∧
      Heads false (code (enumerated arguments)) names := by
  induction all with
  | nil => exact ⟨[], .nil, List.forall_mem_nil _, Heads.nil.mono, Heads.nil.mono⟩
  | @cons t names items others uses rest ih =>
    obtain ⟨tokens, spells, passes, adds⟩ := uses
    obtain ⟨arguments, spells', passes', adds', adds''⟩ := ih
    refine ⟨tokens :: arguments, .cons spells spells',
      List.forall_mem_cons.mpr ⟨passes, passes'⟩, ?_, ?_⟩
    · cases rest with
      | nil =>
        cases spells'
        rwa [List.append_nil]
      | cons next rest =>
        cases spells'
        rw [commas, code_append, code_mark]
        exact adds.separated (by decide) adds'
    · rw [enumerated, List.flatMap_cons, code_append, code_append, code_mark, code_nil,
        List.append_assoc, List.singleton_append]
      exact adds.separated (by decide) adds''

end UsesAll

namespace Uses

theorem mono (uses : Uses true t names) : Uses closed t names := by
  obtain ⟨tokens, spells, passes, adds⟩ := uses
  exact ⟨tokens, spells, passes, adds.mono⟩

theorem congr (uses : Uses closed t names) (same : ∀ w, w ∈ names ↔ w ∈ others) :
    Uses closed t others := by
  obtain ⟨tokens, spells, passes, adds⟩ := uses
  exact ⟨tokens, spells, passes, adds.congr same⟩

theorem word (word : IsWord w) : Uses false w [] :=
  ⟨[.word w], .word word.1 word.2, .word w, .word w⟩

theorem quoted (t : Text) : Uses closed (Text.quoted t) [] :=
  ⟨[.string t], .quoted t, .string t, (Heads.string t).mono⟩

theorem quotedLines (t : Text) : Uses closed (Text.quotedLines t) [] :=
  ⟨[.string t], .quotedLines t, .string t, (Heads.string t).mono⟩

theorem keyword (word : IsWord k) (uses : Uses closed t names) :
    Uses closed (Layout.keyword k t) names := by
  obtain ⟨tokens, spells, passes, adds⟩ := uses
  exact ⟨.word k :: .mark '=' :: tokens, spells.keyword word, passes.keyword k, adds.keyword k⟩

theorem entry (key : Text) (uses : Uses closed t names) :
    Uses closed (Layout.entry key t) names := by
  obtain ⟨tokens, spells, passes, adds⟩ := uses
  refine ⟨.string key :: .mark ':' :: tokens, spells.entry, ?_, ?_⟩
  · exact (Passes.string key).append ((Passes.plain (by decide)).append passes)
  · rw [code_string, code_mark]
    exact (Heads.string key).append (c := ':') (by decide) adds

/-- What stands between brackets uses what is in it. -/
theorem enclosed (opens : closer? o = some c) (spells : Spells true t tokens)
    (adds : Heads false (code tokens) names) : Uses closed ([o] ++ t ++ [c]) names := by
  have closes := isCloser_of_closer? opens
  have marks : o ≠ '.' ∧ c ≠ '(' ∧ c ≠ '.' := by
    refine ⟨?_, by rcases eq_of_isCloser closes with rfl | rfl | rfl <;> decide⟩
    rintro rfl
    cases opens
  have enclosed : Spells true ([o] ++ t ++ [c]) ([.mark o] ++ tokens ++ [.mark c]) :=
    spells.enclose (.opener opens) closes
  rw [List.singleton_append (x := Token.mark o)] at enclosed
  refine ⟨_, enclosed, .enclosed opens spells.passes, ?_⟩
  rw [code_append, code_mark, code_mark, code_nil]
  exact (adds.enclosed marks.1 marks.2).mono

theorem block (all : UsesAll items names) (opens : closer? o = some c) (level : Nat) :
    Uses closed (Layout.block [o] [c] level items) names := by
  obtain ⟨arguments, spells, _, _, adds⟩ := all.exists_tokens
  obtain ⟨inside, spelled, written⟩ := SpellsAll.exists_inside spells level
  rw [written]
  exact enclosed opens spelled adds

theorem joined (all : UsesAll items names) (opens : closer? o = some c) :
    Uses closed ([o] ++ Text.join ", " items ++ [c]) names := by
  obtain ⟨arguments, spells, _, adds, _⟩ := all.exists_tokens
  exact enclosed opens (SpellsAll.join spells) adds

theorem list (all : UsesAll items names) (level : Nat) :
    Uses closed (Layout.list level items) names := block (o := '[') all rfl level

theorem inlineDict {entries : List (Text × Text)}
    (all : UsesAll (entries.map fun (key, value) => Layout.entry key value) names) :
    Uses closed (Layout.inlineDict entries) names := joined (o := '\x7b') all rfl

/-- A function of an object. -/
theorem select (object : Uses true t names) (word : IsWord f) :
    UsesCalled (t ++ "." ++ f) names := by
  obtain ⟨tokens, spells, passes, adds⟩ := object
  refine ⟨Script.select tokens f, spells.select word.1 word.2, passes.select f, ?_⟩
  rw [Script.select, code_append]
  exact adds.leads f

end Uses

namespace UsesCalled

theorem word (name : isName f) : UsesCalled f [f] := by
  obtain ⟨some, chars⟩ := isWordChar_of_isName name
  exact ⟨[.word f], .word some chars, .word f, .word name⟩

/-- A function of a name. -/
theorem select (name : isName w) (word : IsWord f) : UsesCalled (w ++ "." ++ f) [w] := by
  obtain ⟨some, chars⟩ := isWordChar_of_isName name
  exact ⟨Script.select [.word w] f, (Spells.word some chars).select word.1 word.2,
    (Passes.word w).select f, .select name f⟩

theorem enclosed (function : UsesCalled f names) (spells : Spells true t tokens)
    (adds : Heads false (code tokens) others) :
    Uses closed (f ++ (['('] ++ t ++ [')'])) (names ++ others) := by
  obtain ⟨before, spells', passes, leads⟩ := function
  have inner : Spells true (['('] ++ t ++ [')']) ([.mark '('] ++ tokens ++ [.mark ')']) :=
    spells.enclose (.opener rfl) (by decide)
  rw [List.singleton_append (x := Token.mark '(')] at inner
  refine ⟨_, spells'.append (c := '(') (by decide) inner,
    passes.append (.enclosed (o := '(') rfl spells.passes), ?_⟩
  rw [code_append, code_append, code_mark, code_mark, code_nil, List.cons_append,
    ← List.cons_append, ← List.append_assoc]
  exact (Heads.call leads adds).mono

theorem call (function : UsesCalled f names) (all : UsesAll items others) :
    Uses closed (f ++ "(" ++ Text.join ", " items ++ ")") (names ++ others) := by
  obtain ⟨arguments, spells, _, adds, _⟩ := all.exists_tokens
  rw [List.append_assoc, List.append_assoc, ← List.append_assoc "(".toList]
  exact function.enclosed (SpellsAll.join spells) adds

theorem nullary (function : UsesCalled f names) : Uses closed (f ++ "(" ++ ")") names := by
  have called : Uses closed (f ++ "(" ++ Text.join ", " [] ++ ")") (names ++ []) :=
    function.call .nil
  rwa [Text.join, List.append_nil, List.append_nil] at called

theorem block (function : UsesCalled f names) (all : UsesAll items others) (level : Nat) :
    Uses closed (Layout.call level f items) (names ++ others) := by
  obtain ⟨arguments, spells, _, _, adds⟩ := all.exists_tokens
  obtain ⟨inside, spelled, written⟩ := SpellsAll.exists_inside spells level
  rw [Layout.call, written, List.append_assoc, List.append_assoc, ← List.append_assoc "(".toList]
  exact function.enclosed spelled adds

theorem silentBlock (function : UsesCalled f names) (each : ∀ t ∈ items, Uses false t [])
    (level : Nat) : Uses closed (Layout.call level f items) names := by
  have block : Uses closed (Layout.call level f items) (names ++ []) :=
    function.block (.silent each) level
  rwa [List.append_nil] at block

end UsesCalled

theorem IsNumber.uses (number : IsNumber true t) : Uses false t [] := by
  obtain ⟨tokens, spells, numeric⟩ := number
  have solid : code tokens = tokens := List.filter_eq_self.mpr fun token member => by
    cases token with
    | comment t => cases numeric _ member
    | word w | string value | mark c => rfl
  refine ⟨tokens, spells, ?_, solid.symm ▸ Heads.number numeric⟩
  clear spells solid
  induction tokens with
  | nil => exact .nil
  | cons token tokens ih =>
    obtain ⟨first, rest⟩ := List.forall_mem_cons.mp numeric
    have first' : Passes false [token] := by
      cases token with
      | word w => exact .word w
      | mark c =>
        rw [Token.isNumeric, Bool.or_eq_true, Bool.or_eq_true, decide_eq_true_eq,
          decide_eq_true_eq, decide_eq_true_eq] at first
        exact .plain (by rcases first with (rfl | rfl) | rfl <;> decide)
      | string value | comment t => cases first
    exact first'.append (ih rest)

end Script

open Script

variable {closed : Bool}

theorem Scalar.uses_render (x : Scalar) : Yields (fun t => Uses false t []) x.render := by
  cases x with
  | bool b =>
    refine yields_ok.mpr ?_
    cases b <;> exact Uses.word (by decide)
  | int n => exact yields_ok.mpr (IsNumber.ofInt n).uses
  | float x =>
    cases x with
    | finite negative mantissa exponent =>
      exact yields_ok.mpr (IsNumber.finite negative mantissa exponent).uses
    | infinite negative => exact yields_error
    | nan => exact yields_error
  | text t => exact yields_ok.mpr (Uses.quoted t)

namespace Literal

mutual

/-- Literals use no names. -/
theorem uses_render : (x : Literal) → Yields (fun t => Uses false t []) x.render
  | .null => yields_ok.mpr (Uses.word (by decide))
  | .scalar x => x.uses_render
  | .list items => by
    rw [render, yields_bind]
    intro parts rendered
    exact yields_pure.mpr
      (Uses.joined (o := '[') (UsesAll.silent (uses_renderItems items parts rendered)) rfl)
  | .dict entries => by
    rw [render, yields_bind]
    intro parts rendered
    exact yields_pure.mpr
      (Uses.joined (o := '\x7b') (UsesAll.silent (uses_renderEntries entries parts rendered)) rfl)

theorem uses_renderItems : (items : List Literal) →
    Yields (fun parts => ∀ part ∈ parts, Uses false part []) (renderItems items)
  | [] => yields_ok.mpr (List.forall_mem_nil _)
  | item :: items => by
    rw [renderItems, yields_bind]
    intro part rendered
    rw [yields_bind]
    intro parts others
    exact yields_pure.mpr (List.forall_mem_cons.mpr
      ⟨uses_render item part rendered, uses_renderItems items parts others⟩)

theorem uses_renderEntries : (entries : List (Text × Literal)) →
    Yields (fun parts => ∀ part ∈ parts, Uses false part []) (renderEntries entries)
  | [] => yields_ok.mpr (List.forall_mem_nil _)
  | (key, value) :: entries => by
    rw [renderEntries, yields_bind]
    intro part rendered
    rw [yields_bind]
    intro parts others
    exact yields_pure.mpr (List.forall_mem_cons.mpr
      ⟨(uses_render value part rendered).entry key, uses_renderEntries entries parts others⟩)

end

end Literal

theorem uses_renderTexts (texts : List Text) : Uses closed (renderTexts texts) [] :=
  Uses.joined (o := '[')
    (.silent (List.forall_mem_map.mpr fun t _ => Uses.quoted t)) rfl

theorem uses_renderKeys (keys : List Text) : Uses closed (renderKeys keys) [] := by
  unfold renderKeys
  split
  · exact Uses.quoted _
  · exact uses_renderTexts keys

end DatafileMigration
