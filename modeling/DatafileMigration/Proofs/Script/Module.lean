import DatafileMigration.Proofs.Module.Layout
import DatafileMigration.Proofs.Module.Snake
import DatafileMigration.Proofs.Script.Resource

namespace DatafileMigration

open Script

/-- Outside of strings, comments and brackets. -/
def Script.Reader.IsOutside (r : Reader) : Prop := r.mode = .code ∧ r.brackets = []

namespace Definition

/-- The tokens that a definition brings along: its identifier and those of the resources that it
refers to, and comments if it does not have to say all. -/
def Brings (strict : Bool) (naming : Naming) (d : Definition) (token : Token) : Prop :=
  (∃ key ∈ d.resource.key :: d.statement.references, token = .word (naming key.1 key.2)) ∨
    strict = false ∧ ∃ t, token = .comment t

/-- The line of a definition: its identifier and a call, whose strings have all texts of the
resource. A title may stand in front. -/
def ReadAs (strict : Bool) (naming : Naming) (d : Definition) (line : List Token) : Prop :=
  ∃ title call,
    line = title ++ .word (naming d.resource.kind d.resource.name) :: .mark '=' :: call ∧
    (title = [] ∨ title = [.comment (' ' :: d.resource.kind.title)]) ∧
    Holds (d.Brings strict naming) call d.resource.texts

end Definition

namespace Script

/-- The name that a line assigns to; comments may stand in front of it. -/
def assigned? : List Token → Option Text
  | .comment _ :: line => assigned? line
  | .word w :: .mark '=' :: _ => some w
  | _ => none

/-- The names that a text assigns to, one for each assignment that is read in it. -/
def assignments? (t : Text) : Option (List Text) := (read t).map (·.filterMap assigned?)

end Script

theorem Definition.ReadAs.assigned? {strict : Bool} {naming : Naming} {d : Definition}
    {line : List Token} (read : d.ReadAs strict naming line) :
    Script.assigned? line = some (naming d.resource.kind d.resource.name) := by
  obtain ⟨title, call, rfl, titled, _⟩ := read
  rcases titled with rfl | rfl <;> rfl

namespace Module

variable {strict : Bool} {naming : Naming} {before : Option Kind} {d : Definition}
  {ds : List Definition}

theorem scan_gap (before : Option Kind) (kind : Kind) (lines : List (List Token)) :
    ∃ title, (title = [] ∨ title = [.comment (' ' :: kind.title)]) ∧
      Reader.scan { lines } (gap before kind) = some { line := title, lines } := by
  rw [gap]
  split
  · exact ⟨[], Or.inl rfl, rfl⟩
  · refine ⟨_, Or.inr rfl, ?_⟩
    cases kind <;> rfl

/-- A definition that is checked, and named by identifiers. -/
structure IsNamed (strict : Bool) (naming : Naming) (d : Definition) : Prop where
  defined : d.resource.define strict = .ok d
  inline : strict ∨ d.resource.IsInline
  snake : ∀ key ∈ d.resource.key :: d.statement.references,
    Identifier.isSnake (naming key.1 key.2)

theorem scan_statement (named : IsNamed strict naming d) :
    ∃ call, Holds (d.Brings strict naming) call d.resource.texts ∧ ∀ title lines,
      Reader.scan { line := title, lines } (d.statement.render naming) = some
        { lines := (title.reverse ++
          .word (naming d.resource.kind d.resource.name) :: .mark '=' :: call) :: lines } := by
  have stated := Resource.statement_of_define named.defined
  obtain ⟨kind, name⟩ := Prod.mk.inj (d.resource.statement_key _ stated)
  obtain ⟨f, listed, function⟩ := d.resource.statement_function _ stated
  obtain ⟨own, referred⟩ := List.forall_mem_cons.mp named.snake
  have comments : strict = false → ∀ t, d.Brings strict naming (.comment t) :=
    fun lax t => Or.inr ⟨lax, t, rfl⟩
  have arguments : ArgumentsRead naming (d.Brings strict naming) d.statement.arguments
      d.resource.texts.tail := by
    refine d.resource.reads_arguments named.inline comments _ stated fun key member => ?_
    exact Reads.identifier (referred key member)
      (Or.inl ⟨key, List.mem_cons_of_mem _ member, rfl⟩)
  have snake : Identifier.isSnake (naming d.statement.kind d.statement.name) := by
    rw [kind, name]
    exact own
  have read := Statement.scan_render function listed snake arguments
  rw [kind, name, ← Resource.texts_eq] at read
  exact read

/-- A line for each definition, the reader standing between lines in front and behind; what each
statement says of its call is said of the lines. -/
theorem scan_layOut_of {P : Definition → List Token → Prop}
    (all : ∀ d ∈ ds, ∃ call, P d call ∧ ∀ title lines,
      Reader.scan { line := title, lines } (d.statement.render naming) = some
        { lines := (title.reverse ++
          .word (naming d.resource.kind d.resource.name) :: .mark '=' :: call) :: lines })
    (before : Option Kind) (done : List (List Token)) :
    ∃ lines, List.Forall₂ (fun d line => ∃ title call,
        line = title ++ .word (naming d.resource.kind d.resource.name) :: .mark '=' :: call ∧
        (title = [] ∨ title = [.comment (' ' :: d.resource.kind.title)]) ∧ P d call) ds lines ∧
      Reader.scan { lines := done } (layOut naming before ds) =
        some { lines := lines.reverse ++ done } := by
  induction ds generalizing before done with
  | nil => exact ⟨[], .nil, rfl⟩
  | cons d ds ih =>
    obtain ⟨⟨call, property, stated⟩, others⟩ := List.forall_mem_cons.mp all
    obtain ⟨title, titled, gapped⟩ := scan_gap before d.resource.kind done
    obtain ⟨lines, read, rest⟩ := ih others (some d.resource.kind) (_ :: done)
    have forward : title.reverse = title := by
      rcases titled with rfl | rfl <;> rfl
    refine ⟨_ :: lines, .cons ⟨title, call, rfl, titled, property⟩ read, ?_⟩
    rw [layOut, List.append_assoc, Reader.scan_append_of_scan gapped,
      Reader.scan_append_of_scan (stated title done), forward, rest, List.reverse_cons,
      List.append_assoc, List.singleton_append]

theorem scan_layOut (all : ∀ d ∈ ds, IsNamed strict naming d) (before : Option Kind)
    (done : List (List Token)) :
    ∃ lines, List.Forall₂ (Definition.ReadAs strict naming) ds lines ∧
      Reader.scan { lines := done } (layOut naming before ds) =
        some { lines := lines.reverse ++ done } :=
  scan_layOut_of (fun d member => scan_statement (all d member)) before done

/-- What the string says with which a module begins. -/
def notice : Text :=
  List.flatMap String.toList ["Generated by tinybird-migrate.\n\n",
    "Review endpoint output schemas and any defaults before production use.\n"]

/-- The line that imports names. -/
def importTokens (names : List Text) : List Token :=
  .word "from" :: .word "tinybird_sdk" :: .word "import"
    :: (names.map Token.word).intersperse (.mark ',')

/-- The lines in front of all statements. -/
def openingLines (ds : List Definition) : List (List Token) :=
  [.string notice] ::
    match sdkNames.filter fun name => ds.any (·.resource.imports.contains name) with
    | [] => []
    | names => [importTokens names]

/-- Names with commas between them, up to the end of the line. -/
theorem scan_names {names : List Text} (some : names ≠ [])
    (words : ∀ name ∈ names, name ≠ [] ∧ ∀ c ∈ name, Text.isWordChar c)
    (line : List Token) (lines : List (List Token)) :
    Reader.scan { line, lines } (Text.join ", " names ++ ['\n']) = Option.some
      { lines := (line.reverse ++ (names.map Token.word).intersperse (.mark ',')) :: lines } := by
  induction names generalizing line with
  | nil => exact absurd rfl some
  | cons name names ih =>
    obtain ⟨⟨solid, chars⟩, others⟩ := List.forall_mem_cons.mp words
    cases names with
    | nil =>
      have word := Reader.scan_word (r := { line, lines }) (c := '\n') (u := []) rfl solid chars
        (by decide)
      have ended := @Reader.scan_endLine (.word name :: line) rfl lines
      rw [List.reverse_cons] at ended
      exact word.trans ended
    | cons next names =>
      have word := Reader.scan_word (r := { line, lines }) (c := ',')
        (u := ' ' :: (Text.join ", " (next :: names) ++ ['\n'])) rfl solid chars (by decide)
      have rest := ih (List.cons_ne_nil _ _) others (.mark ',' :: .word name :: line)
      rw [List.reverse_cons, List.reverse_cons, List.append_assoc, List.append_assoc] at rest
      have joined : Text.join ", " (name :: next :: names) ++ ['\n'] =
          name ++ ',' :: ' ' :: (Text.join ", " (next :: names) ++ ['\n']) := by
        simp [Text.join]
      rw [joined]
      exact word.trans rest

theorem scan_opening (ds : List Definition) :
    Reader.scan {} (opening ds) = some { lines := (openingLines ds).reverse } := by
  have header : Reader.scan {} header = some { lines := [[.string notice]] } := by
    unfold header notice
    repeat rw [List.flatMap_cons]
    repeat rw [String.toList_ofList]
    decide +kernel
  have words : ∀ name ∈ sdkNames, name ≠ [] ∧ name.all Text.isWordChar := by
    unfold sdkNames
    repeat rw [String.toList_ofList]
    decide +kernel
  rw [opening, Reader.scan_append_of_scan header, openingLines, importLines]
  generalize selected : sdkNames.filter _ = names
  cases names with
  | nil => rfl
  | cons name names =>
    have imported : ∀ w ∈ name :: names, w ≠ [] ∧ ∀ c ∈ w, Text.isWordChar c := by
      intro w member
      rw [← selected] at member
      obtain ⟨solid, chars⟩ := words w (List.mem_filter.mp member).1
      exact ⟨solid, List.all_eq_true.mp chars⟩
    have front : Reader.scan { lines := [[.string notice]] } ('\n' :: "from tinybird_sdk import ") =
        some { line := [.word "import", .word "tinybird_sdk", .word "from"],
               lines := [[.string notice]] } := by
      decide +kernel
    have listed := scan_names (List.cons_ne_nil name names) imported
      [.word "import", .word "tinybird_sdk", .word "from"] [[.string notice]]
    have written : List.flatMap ('\n' :: ·)
        ["from tinybird_sdk import " ++ Text.join ", " (name :: names) ++ "\n"] =
          '\n' :: "from tinybird_sdk import " ++ (Text.join ", " (name :: names) ++ ['\n']) := by
      simp
    rw [written, Reader.scan_append_of_scan front]
    exact listed

/-- A module is read as its opening and one line for each definition; what each statement says of
its call is said of the lines. -/
theorem read_module_of {P : Definition → List Token → Prop}
    (all : ∀ d ∈ ds, ∃ call, P d call ∧ ∀ title lines,
      Reader.scan { line := title, lines } (d.statement.render naming) = some
        { lines := (title.reverse ++
          .word (naming d.resource.kind d.resource.name) :: .mark '=' :: call) :: lines }) :
    ∃ lines, List.Forall₂ (fun d line => ∃ title call,
        line = title ++ .word (naming d.resource.kind d.resource.name) :: .mark '=' :: call ∧
        (title = [] ∨ title = [.comment (' ' :: d.resource.kind.title)]) ∧ P d call) ds lines ∧
      read (opening ds ++ layOut naming none ds) = some (openingLines ds ++ lines) := by
  obtain ⟨lines, each, scanned⟩ := scan_layOut_of all none (openingLines ds).reverse
  refine ⟨lines, each, ?_⟩
  rw [Script.read, Reader.scan_append_of_scan (scan_opening ds), scanned, ← List.reverse_append]
  exact congrArg some (List.reverse_reverse _)

theorem read_module (named : ∀ d ∈ ds, IsNamed strict naming d) :
    ∃ lines, List.Forall₂ (Definition.ReadAs strict naming) ds lines ∧
      read (opening ds ++ layOut naming none ds) = some (openingLines ds ++ lines) :=
  read_module_of fun d member => scan_statement (named d member)

theorem layOut_append (before : Option Kind) (ds es : List Definition) :
    ∃ next, layOut naming before (ds ++ es) =
      layOut naming before ds ++ layOut naming next es := by
  induction ds generalizing before with
  | nil => exact ⟨before, rfl⟩
  | cons d ds ih =>
    obtain ⟨next, equal⟩ := ih (some d.resource.kind)
    refine ⟨next, ?_⟩
    rw [List.cons_append, layOut, equal, layOut, List.append_assoc _ (layOut _ _ ds)]

/-- In front of each statement the reader is outside, with the lines before it behind; and it is
outside again behind the statement. -/
theorem scan_around (named : ∀ d ∈ ds, IsNamed strict naming d) {front back : List Definition}
    (split : ds = front ++ d :: back) :
    ∃ head tail r s,
      opening ds ++ layOut naming none ds = head ++ d.statement.render naming ++ tail ∧
      Reader.scan {} head = some r ∧ r.IsOutside ∧
      r.lines.length = (openingLines ds).length + front.length ∧
      r.scan (d.statement.render naming) = some s ∧ s.IsOutside := by
  subst split
  obtain ⟨earlier, others⟩ := List.forall_mem_append.mp named
  have this : IsNamed strict naming d := others d List.mem_cons_self
  obtain ⟨before, cut⟩ := @layOut_append naming none front (d :: back)
  generalize front ++ d :: back = ds at cut ⊢
  obtain ⟨lines, each, scanned⟩ := scan_layOut earlier none (openingLines ds).reverse
  obtain ⟨title, _, gapped⟩ := scan_gap before d.resource.kind
    (lines.reverse ++ (openingLines ds).reverse)
  obtain ⟨call, _, stated⟩ := scan_statement this
  refine ⟨opening ds ++ layOut naming none front ++ gap before d.resource.kind,
    layOut naming (some d.resource.kind) back,
    { line := title, lines := lines.reverse ++ (openingLines ds).reverse }, _, ?_, ?_, ⟨rfl, rfl⟩,
    ?_, stated title _, rfl, rfl⟩
  · rw [cut, layOut]
    simp only [List.append_assoc]
  · rw [List.append_assoc, Reader.scan_append_of_scan (scan_opening ds),
      Reader.scan_append_of_scan scanned, gapped]
  · rw [List.length_append, List.length_reverse, List.length_reverse, ← each.length_eq,
      Nat.add_comm]

theorem isNamed_registry (defined : ∀ d ∈ ds, d.resource.define strict = .ok d)
    (inline : ∀ d ∈ ds, strict ∨ d.resource.IsInline) :
    ∀ d ∈ ds, IsNamed strict (Definition.registry ds).lookup d := by
  intro d member
  refine ⟨defined d member, inline d member, fun key _ => ?_⟩
  have naming : (Definition.registry ds).IsNaming := Registry.isNaming_empty.registerAll _
  exact (naming.isCandidate_lookup key.1 key.2).isSnake

/-- A module of definitions as the rules of its language read it: the opening and a line for each
definition. The reader is outside of strings, comments and brackets in front of each statement,
and again behind it; identifiers are words of small letters, digits and underscores. -/
structure IsRead (strict : Bool) (ds : List Definition) (text : Text) : Prop where
  lines : ∃ lines, Script.read text = some (openingLines ds ++ lines) ∧
    List.Forall₂ (Definition.ReadAs strict (Definition.registry ds).lookup) ds lines
  around : ∀ front d back, ds = front ++ d :: back → ∃ head tail r s,
    text = head ++ d.statement.render (Definition.registry ds).lookup ++ tail ∧
    Reader.scan {} head = some r ∧ r.IsOutside ∧
    r.lines.length = (openingLines ds).length + front.length ∧
    r.scan (d.statement.render (Definition.registry ds).lookup) = some s ∧ s.IsOutside
  snake : ∀ kind name, Identifier.isSnake ((Definition.registry ds).lookup kind name)

theorem isRead_ofDefinitions (defined : ∀ d ∈ ds, d.resource.define strict = .ok d)
    (inline : ∀ d ∈ ds, strict ∨ d.resource.IsInline)
    (sorted : ds.Pairwise fun a b => a.resource.kind.rank ≤ b.resource.kind.rank) :
    IsRead strict ds (ofDefinitions ds) := by
  have named := isNamed_registry defined inline
  obtain ⟨lines, each, read⟩ := read_module named
  rw [ofDefinitions_eq sorted]
  refine ⟨⟨lines, read, each⟩, ?around, ?snake⟩
  case around =>
    intro front d back split
    exact scan_around named split
  case snake =>
    intro kind name
    exact ((Registry.isNaming_empty.registerAll _).isCandidate_lookup kind name).isSnake

theorem filterMap_assigned? {lines : List (List Token)}
    (each : List.Forall₂ (Definition.ReadAs strict naming) ds lines) :
    lines.filterMap assigned? = ds.map fun d => naming d.resource.kind d.resource.name := by
  induction each with
  | nil => rfl
  | cons here _ ih => rw [List.filterMap_cons_some here.assigned?, ih, List.map_cons]

/-- A module that is read assigns once to the identifier of each definition, and to nothing else. -/
theorem IsRead.assignments? {text : Text} (read : IsRead strict ds text) :
    Script.assignments? text = some (ds.map fun d =>
      (Definition.registry ds).lookup d.resource.kind d.resource.name) := by
  obtain ⟨lines, whole, each⟩ := read.lines
  have opening : (openingLines ds).filterMap assigned? = [] := by
    rw [openingLines]
    split <;> rfl
  rw [Script.assignments?, whole, Option.map_some, List.filterMap_append, opening,
    filterMap_assigned? each, List.nil_append]

/-- Definitions of sorted resources are in the order of their kinds. -/
theorem pairwise_rank {rs : List Resource} (resources : ds.map (·.resource) = Resource.sort rs) :
    ds.Pairwise fun a b => a.resource.kind.rank ≤ b.resource.kind.rank := by
  have sorted := Resource.pairwise_sort rs
  rw [← resources, List.pairwise_map] at sorted
  exact sorted.imp Resource.rank_le_of_precedes

/-- A strict module is read as one line for each of its resources, in which all words are of a
fixed vocabulary or identifiers, and all texts of the resource stand in strings. -/
theorem render_isRead (rs : List Resource) (checked : ∀ r ∈ rs, ∃ t, r.render true = .ok t) :
    ∃ text ds, render true rs = .ok text ∧ ds.map (·.resource) = Resource.sort rs ∧
      (∀ d ∈ ds, d.resource.define true = .ok d) ∧ IsRead true ds text := by
  obtain ⟨ds, rendered, resources, defined⟩ := exists_definitions checked
  exact ⟨_, ds, rendered, resources, defined,
    isRead_ofDefinitions defined (fun _ _ => Or.inl rfl) (pairwise_rank resources)⟩

end Module

/-- A pipe with texts that look like the end of a string, a comment or a statement. -/
def hostilePipe : Resource :=
  .pipe { name := "a\"(#", path := "a.pipe", description := some "\"\"\"\nimport os #",
          nodes := [{ name := "n)", sql := "SELECT '\"\"\"'\n-- \\" }], tokens := ["[\""] }

theorem render_isRead_hostile : (∀ r ∈ [hostilePipe], ∃ t, r.render true = .ok t) ∧
    ∃ text ds, Module.render true [hostilePipe] = .ok text ∧
      ds.map (·.resource) = Resource.sort [hostilePipe] ∧
      (∀ d ∈ ds, d.resource.define true = .ok d) ∧ Module.IsRead true ds text := by
  have checked : ∀ r ∈ [hostilePipe], ∃ t, r.render true = .ok t := by
    intro r member
    rw [List.mem_singleton.mp member]
    obtain ⟨t, rendered, _⟩ := exists_eq_ok (x := hostilePipe.render true) (p := fun _ => true)
      (by decide +kernel)
    exact ⟨t, rendered⟩
  exact ⟨checked, Module.render_isRead [hostilePipe] checked⟩

end DatafileMigration
