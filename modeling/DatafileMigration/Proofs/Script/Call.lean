import DatafileMigration.Proofs.Script.Argument
import DatafileMigration.Proofs.Script.Usage

namespace DatafileMigration

open Script

/-- A naming whose identifiers are all words. -/
def IsWordly (naming : Naming) : Prop := ∀ kind name, IsWord (naming kind name)

theorem isWordly_registerAll (keys : List (Kind × Text)) :
    IsWordly (Registry.registerAll {} keys).lookup := by
  intro kind name
  have naming : (Registry.registerAll {} keys).IsNaming := Registry.isNaming_empty.registerAll _
  have snake := (naming.isCandidate_lookup kind name).isSnake
  exact ⟨Identifier.isSnake_ne_nil snake, fun c found =>
    Identifier.isWordChar_of_isSnakeChar (Identifier.isSnakeChar_of_mem snake c found)⟩

namespace Script

/-- Keyword arguments that use the names one after the other. -/
inductive ArgumentsUse (naming : Naming) : List (Text × Argument) → List Text → Prop
  | nil : ArgumentsUse naming [] []
  | cons {k a arguments names others} :
      IsWord k → Uses false (a.render naming) names → ArgumentsUse naming arguments others →
        ArgumentsUse naming ((k, a) :: arguments) (names ++ others)

/-- The tokens of a keyword argument. -/
def keywordTokens (argument : Text × List Token) : List Token :=
  .word argument.1 :: .mark '=' :: argument.2

/-- Keyword arguments with the tokens of their values. -/
def keywords (naming : Naming) (arguments : List (Text × Argument)) : List (Text × List Token) :=
  arguments.map fun (k, a) => (k, (tokensOf? (a.render naming)).getD [])

variable {naming : Naming} {arguments more : List (Text × Argument)} {names others : List Text}
  {tokens : List Token} {a : Argument} {condition : Bool}

theorem keywords_cons {k : Text} (spells : Spells true (a.render naming) tokens) :
    keywords naming ((k, a) :: arguments) = (k, tokens) :: keywords naming arguments := by
  rw [keywords, List.map_cons]
  dsimp only
  rw [spells.tokensOf?]
  rfl

theorem keywordTokens_injective : Function.Injective keywordTokens := by
  rintro ⟨k, tokens⟩ ⟨k', tokens'⟩ same
  cases same
  rfl

namespace ArgumentsUse

theorem append (first : ArgumentsUse naming arguments names)
    (second : ArgumentsUse naming more others) :
    ArgumentsUse naming (arguments ++ more) (names ++ others) := by
  induction first with
  | nil => exact second
  | cons word uses _ ih =>
    rw [List.append_assoc]
    exact cons word uses ih

theorem single {k : String} (listed : k ∈ vocabulary)
    (uses : Uses false (a.render naming) names) :
    ArgumentsUse naming [(k.toList, a)] names := by
  have all := cons (.listed listed) uses nil
  rwa [List.append_nil] at all

theorem when {k : String} (listed : k ∈ vocabulary)
    (uses : condition → Uses false (a.render naming) names) :
    ArgumentsUse naming (Argument.when condition k a) (if condition then names else []) := by
  cases condition with
  | true => exact single listed (uses rfl)
  | false => exact nil

/-- An argument that uses no names, if it is there at all. -/
theorem flag {k : String} (listed : k ∈ vocabulary) (uses : Uses false (a.render naming) []) :
    ArgumentsUse naming (Argument.when condition k a) [] := by
  cases condition with
  | true => exact single listed uses
  | false => exact nil

theorem filled {k : String} (listed : k ∈ vocabulary) (t : Option Text) :
    ArgumentsUse naming (Argument.filled k t) [] := flag listed (Uses.quoted _)

/-- The tokens of the arguments. -/
theorem read (use : ArgumentsUse naming arguments names) :
    SpellsAll true (arguments.map fun (k, a) => Layout.keyword k (a.render naming))
      ((keywords naming arguments).map keywordTokens) ∧
    (∀ tokens ∈ (keywords naming arguments).map keywordTokens, Passes false tokens) ∧
    Heads false (code (enumerated ((keywords naming arguments).map keywordTokens))) names := by
  induction use with
  | nil => exact ⟨.nil, nofun, Heads.nil.mono⟩
  | @cons k a arguments names others word uses _ ih =>
    obtain ⟨tokens, spells, passes, adds⟩ := uses
    obtain ⟨spells', passes', adds'⟩ := ih
    rw [keywords_cons spells, List.map_cons]
    refine ⟨.cons (spells.keyword word) spells',
      List.forall_mem_cons.mpr ⟨passes.keyword k, passes'⟩, ?_⟩
    rw [List.map_cons, enumerated, List.flatMap_cons, code_append, code_append, List.append_assoc]
    exact (adds.keyword k).separated (by decide) adds'

theorem usesAll (use : ArgumentsUse naming arguments names) :
    UsesAll (arguments.map fun (k, a) => Layout.keyword k (a.render naming)) names := by
  induction use with
  | nil => exact .nil
  | cons word uses _ ih => exact .cons (uses.keyword word) ih

end ArgumentsUse

/-- A call with a comma behind each argument. -/
def blockCall (f : Text) (arguments : List (List Token)) : List Token :=
  .word f :: .mark '(' :: enumerated arguments ++ [.mark ')']

section BlockCall

variable {inside : Bool} {f f' : Text} {items : List Text} {parts parts' : List (List Token)}

theorem Spells.blockCall (word : IsWord f) (all : SpellsAll true items parts) (level : Nat) :
    Spells inside (Layout.call level f items) (blockCall f parts) := by
  obtain ⟨between, spells, written⟩ := all.exists_inside level
  have enclosed : Spells inside (['('] ++ between ++ [')']) _ :=
    spells.enclose (.opener (o := '(') rfl) (by decide)
  rw [Layout.call, written, List.append_assoc, List.append_assoc, ← List.append_assoc "(".toList]
  exact (Spells.word word.1 word.2).append (c := '(') (by decide) enclosed

theorem Passes.blockCall (f : Text) (all : ∀ a ∈ parts, Passes false a) :
    Passes inside (blockCall f parts) :=
  (Passes.word f).append
    (.enclosed (o := '(') rfl (.enumerated fun a member => (all a member).mono))

theorem blockCall_injective (all : ∀ a ∈ parts, Passes false a)
    (all' : ∀ a ∈ parts', Passes false a) (same : blockCall f parts = blockCall f' parts') :
    f = f' ∧ parts = parts' := by
  injection same with function call
  injection function with function
  injection call with _ call
  exact ⟨function, enumerated_injective all all' (List.append_cancel_right call)⟩

end BlockCall

end Script

namespace Statement

variable {s s' : Statement} {naming naming' : Naming} {names names' : List Text}

/-- The arguments of a statement's call. -/
def callArguments (naming : Naming) (s : Statement) : List (List Token) :=
  [.string s.name] :: (keywords naming s.arguments).map keywordTokens

/-- The call that a statement assigns. -/
def callTokens (naming : Naming) (s : Statement) : List Token :=
  blockCall s.function (s.callArguments naming)

theorem spells_call (word : IsWord s.function) (use : ArgumentsUse naming s.arguments names) :
    Spells false (s.callText naming) (s.callTokens naming) :=
  Spells.blockCall word (.cons (Spells.quoted s.name) use.read.1) 0

theorem passes_callArguments (use : ArgumentsUse naming s.arguments names) :
    ∀ a ∈ s.callArguments naming, Passes false a :=
  List.forall_mem_cons.mpr ⟨.string s.name, use.read.2.1⟩

theorem heads_call (name : isName s.function) (use : ArgumentsUse naming s.arguments names)
    (w : Text) : w ∈ heads false (code (s.callTokens naming)) ↔ w ∈ s.function :: names := by
  have inside := (Heads.string s.name).append (c := ',') (by decide) use.read.2.2
  have adds := Heads.call (Leads.word name) inside [] (Or.inl rfl) w
  rw [List.append_nil, heads, List.mem_nil_iff, or_false] at adds
  rw [callTokens, blockCall, code_append, code_word, code_mark, code_mark, code_nil]
  exact adds

/-- Statements that read alike have the same function and name, and the same arguments as far as
their tokens go. -/
theorem eq_of_render_eq (same : s.render naming = s'.render naming')
    (snake : Identifier.isSnake (naming s.kind s.name))
    (snake' : Identifier.isSnake (naming' s'.kind s'.name))
    (word : IsWord s.function) (word' : IsWord s'.function)
    (use : ArgumentsUse naming s.arguments names)
    (use' : ArgumentsUse naming' s'.arguments names') :
    s.function = s'.function ∧ s.name = s'.name ∧
      keywords naming s.arguments = keywords naming' s'.arguments := by
  have read := scan_of_spells snake (spells_call word use) [] []
  have read' := scan_of_spells snake' (spells_call word' use') [] []
  rw [← same, read] at read'
  injection Option.some.inj read' with _ _ _ lines
  injection lines with line
  injection line with _ assigned
  injection assigned with _ call
  obtain ⟨function, parts⟩ := blockCall_injective (passes_callArguments use)
    (passes_callArguments use') call
  injection parts with name keyed
  injection name with name
  injection name with name
  exact ⟨function, name, List.map_injective_iff.mpr keywordTokens_injective keyed⟩

end Statement

end DatafileMigration
