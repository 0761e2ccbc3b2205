import DatafileMigration.Proofs.Script.ColumnType

namespace DatafileMigration.Script

/-- Tokens without the comments among them. -/
def code (tokens : List Token) : List Token := tokens.filter (!·.isComment)

/-- Whether a call or an attribute follows. -/
def goesOn (rest : List Token) : Bool :=
  rest.head? = some (.mark '(') || rest.head? = some (.mark '.')

/-- The names at the head of a call or of a chain of attributes; `pointed` says that a point
stands in front. -/
def heads (pointed : Bool) : List Token → List Text
  | [] => []
  | .word w :: rest =>
    if !pointed && isName w && goesOn rest then w :: heads false rest else heads false rest
  | .mark c :: rest => heads (c = '.') rest
  | .string _ :: rest | .comment _ :: rest => heads false rest

example : heads false [.word "column", .mark '(', .word "t", .mark '.', .word "map", .mark '(',
    .word "p", .mark ')', .mark ',', .string "node", .mark '(', .word "1", .mark '.', .word "5"] =
      ["column", "t"] := by decide

/-- Nothing follows, or a mark; one that goes on with an expression follows only a closed one. -/
def Follows (closed : Bool) (rest : List Token) : Prop :=
  rest = [] ∨ ∃ c more, rest = .mark c :: more ∧ (closed ∨ c ≠ '(' ∧ c ≠ '.')

/-- The names that tokens add to those of what follows. Whether a word is one depends on its
neighbours, so that this is told in front of whatever may follow; behind a closing bracket that is
every mark. -/
def Heads (closed : Bool) (tokens : List Token) (names : List Text) : Prop :=
  ∀ rest, Follows closed rest → ∀ w,
    w ∈ heads false (tokens ++ rest) ↔ w ∈ names ∨ w ∈ heads false rest

/-- The names that tokens add if they are called. -/
def Leads (function : List Token) (names : List Text) : Prop :=
  ∀ rest w, w ∈ heads false (function ++ .mark '(' :: rest) ↔ w ∈ names ∨ w ∈ heads false rest

variable {closed : Bool} {tokens more rest function : List Token} {names others : List Text}
  {f w value : Text} {c o : Char} {arguments : List (List Token)}

@[simp] theorem code_nil : code [] = [] := rfl

@[simp] theorem code_append (tokens more : List Token) :
    code (tokens ++ more) = code tokens ++ code more := List.filter_append ..

@[simp] theorem code_word (w : Text) (tokens : List Token) :
    code (.word w :: tokens) = .word w :: code tokens := rfl

@[simp] theorem code_mark (c : Char) (tokens : List Token) :
    code (.mark c :: tokens) = .mark c :: code tokens := rfl

@[simp] theorem code_string (value : Text) (tokens : List Token) :
    code (.string value :: tokens) = .string value :: code tokens := rfl

theorem code_of_known {texts : List Text} (holds : Holds (fun _ => False) tokens texts) :
    code tokens = tokens := by
  refine List.filter_eq_self.mpr fun token member => ?_
  have fixed := (holds.known token member).resolve_right id
  cases token with
  | comment t => cases fixed
  | word w | string value | mark c => rfl

theorem Follows.mark (plain : c ≠ '(' ∧ c ≠ '.') (rest : List Token) :
    Follows closed (.mark c :: rest) := Or.inr ⟨c, rest, rfl, Or.inr plain⟩

theorem Follows.behind (c : Char) (rest : List Token) : Follows true (.mark c :: rest) :=
  Or.inr ⟨c, rest, rfl, Or.inl rfl⟩

theorem Follows.mono (follows : Follows false rest) : Follows true rest :=
  follows.imp_right fun ⟨c, more, spelled, _⟩ => ⟨c, more, spelled, Or.inl rfl⟩

/-- A point in front does not count for what follows an expression. -/
theorem Follows.heads_eq (follows : Follows closed rest) (pointed : Bool) :
    heads pointed rest = heads false rest := by
  rcases follows with rfl | ⟨c, more, rfl, _⟩ <;> rfl

theorem Follows.goesOn_eq_false (follows : Follows false rest) : goesOn rest = false := by
  rcases follows with rfl | ⟨c, more, rfl, plain⟩
  · rfl
  · obtain ⟨parenthesis, point⟩ := plain.resolve_left Bool.false_ne_true
    simp [goesOn, parenthesis, point]

theorem heads_mark (plain : c ≠ '.') (rest : List Token) :
    heads false (.mark c :: rest) = heads false rest :=
  congrArg (heads · rest) (decide_eq_false plain)

theorem not_isName_of_isNumeral (numeral : isNumeral w) : ¬ isName w := by
  intro name
  cases w with
  | nil => cases numeral
  | cons d w =>
    rw [isNumeral, Bool.and_eq_true] at numeral
    have number := number?_of_isName name
    rw [Token.number?, List.head?_cons, Option.any_some, if_pos numeral.1] at number
    cases number

namespace Heads

theorem congr (adds : Heads closed tokens names) (same : ∀ w, w ∈ names ↔ w ∈ others) :
    Heads closed tokens others := fun rest follows w => by
  rw [adds rest follows w, same]

theorem mono (adds : Heads true tokens names) : Heads closed tokens names := by
  cases closed with
  | true => exact adds
  | false => exact fun rest follows => adds rest follows.mono

theorem nil : Heads true [] [] := fun _ _ w => by simp

theorem string (value : Text) : Heads true [.string value] [] := fun _ _ w => by
  simp [Script.heads]

/-- A word that nothing goes on with is no head. -/
theorem word (w : Text) : Heads false [.word w] [] := fun rest follows v => by
  simp [Script.heads, follows.goesOn_eq_false]

theorem number (numeric : ∀ token ∈ tokens, token.isNumeric) : Heads false tokens [] := by
  have skipped : ∀ pointed rest, Follows false rest →
      Script.heads pointed (tokens ++ rest) = heads false rest := by
    induction tokens with
    | nil => exact fun pointed rest follows => follows.heads_eq pointed
    | cons token tokens ih =>
      obtain ⟨first, others⟩ := List.forall_mem_cons.mp numeric
      intro pointed rest follows
      cases token with
      | word w =>
        have other : isName w = false := Bool.eq_false_iff.mpr (not_isName_of_isNumeral first)
        rw [List.cons_append, Script.heads, other, Bool.and_false, Bool.false_and, if_neg nofun]
        exact ih others false rest follows
      | mark c => exact ih others _ rest follows
      | string value | comment t => cases first
  intro rest follows w
  rw [skipped false rest follows]
  simp

theorem append (first : Heads true tokens names) (plain : c ≠ '.')
    (second : Heads closed more others) :
    Heads closed (tokens ++ .mark c :: more) (names ++ others) := by
  intro rest follows w
  rw [List.append_assoc, List.cons_append, first _ (.behind c _) w, heads_mark plain,
    second rest follows w, List.mem_append, or_assoc]

/-- Behind a mark that does not go on with it, an expression may be a mere word. -/
theorem separated (first : Heads false tokens names) (plain : c ≠ '(' ∧ c ≠ '.')
    (second : Heads closed more others) :
    Heads closed (tokens ++ .mark c :: more) (names ++ others) := by
  intro rest follows w
  rw [List.append_assoc, List.cons_append, first _ (.mark plain _) w, heads_mark plain.2,
    second rest follows w, List.mem_append, or_assoc]

theorem marked (plain : c ≠ '.') (adds : Heads closed tokens names) :
    Heads closed (.mark c :: tokens) names :=
  nil.append plain adds

theorem enclosed (opener : o ≠ '.') (closer : c ≠ '(' ∧ c ≠ '.')
    (inner : Heads false tokens names) : Heads true (.mark o :: tokens ++ [.mark c]) names := by
  have whole := (inner.separated closer nil).marked opener
  rwa [List.append_nil] at whole

theorem call (leads : Leads function names) (inner : Heads false tokens others) :
    Heads true (function ++ .mark '(' :: tokens ++ [.mark ')']) (names ++ others) := by
  intro rest follows w
  rw [List.append_assoc, List.append_assoc, List.cons_append, List.singleton_append, leads _ w,
    inner _ (.mark (by decide) _) w, heads_mark (by decide), List.mem_append, or_assoc]

/-- A function of an object adds what the object does. -/
theorem leads (object : Heads true tokens names) (f : Text) : Leads (select tokens f) names := by
  intro rest w
  rw [select, List.append_assoc]
  exact object _ (.behind '.' _) w

end Heads

theorem Leads.word (name : isName f) : Leads [.word f] [f] := by
  intro rest w
  have called : heads false (.word f :: .mark '(' :: rest) = f :: heads false rest := by
    rw [heads, name]
    rfl
  rw [List.singleton_append, called, List.mem_cons, List.mem_singleton]

theorem Leads.select (name : isName w) (f : Text) : Leads (select [.word w] f) [w] := by
  intro rest v
  have selected : heads false (.word w :: .mark '.' :: .word f :: .mark '(' :: rest) =
      w :: heads false rest := by
    rw [heads, name]
    rfl
  rw [Script.select, List.singleton_append, List.cons_append, List.cons_append, List.cons_append,
    List.nil_append, selected, List.mem_cons, List.mem_singleton]

/-- An argument that adds nothing but a name, if anything. -/
def AddsOnly (w : Text) (tokens : List Token) : Prop :=
  ∃ names, (∀ v ∈ names, v = w) ∧ Heads false tokens names

theorem Heads.addsOnly (adds : Heads true tokens [w]) : AddsOnly w tokens :=
  ⟨[w], fun _ => List.mem_singleton.mp, adds.mono⟩

theorem AddsOnly.string (w value : Text) : AddsOnly w [.string value] :=
  ⟨[], nofun, (Heads.string value).mono⟩

theorem AddsOnly.word (w v : Text) : AddsOnly w [.word v] := ⟨[], nofun, .word v⟩

theorem AddsOnly.commas (all : ∀ a ∈ arguments, AddsOnly w a) : AddsOnly w (commas arguments) := by
  induction arguments with
  | nil => exact ⟨[], nofun, Heads.nil.mono⟩
  | cons argument arguments ih =>
    obtain ⟨first, rest⟩ := List.forall_mem_cons.mp all
    cases arguments with
    | nil => exact first
    | cons next arguments =>
      obtain ⟨names, only, adds⟩ := first
      obtain ⟨others, only', adds'⟩ := ih rest
      exact ⟨names ++ others, List.forall_mem_append.mpr ⟨only, only'⟩,
        adds.separated (by decide) adds'⟩

theorem Heads.typeCall (function : Text) (all : ∀ a ∈ arguments, AddsOnly "t" a) :
    Heads true (typeCall function arguments) ["t"] := by
  obtain ⟨names, only, adds⟩ := AddsOnly.commas all
  refine (Heads.call (Leads.select (by decide) function) adds).congr fun w => ?_
  rw [List.singleton_append, List.mem_cons, List.mem_singleton]
  exact ⟨fun member => member.elim id (only w), Or.inl⟩

theorem Heads.modified (object : Heads true tokens names) (f : Text) :
    Heads true (Script.call (Script.select tokens f) []) names :=
  List.append_nil names ▸ Heads.call (object.leads f) Heads.nil.mono

mutual

theorem heads_tokens : (type : ColumnType) → Heads true type.tokens ["t"]
  | .simple s => .typeCall s.function nofun
  | .dateTimeIn zone => .typeCall _ (List.forall_mem_singleton.mpr (.string _ zone))
  | .dateTime64 => .typeCall _ (List.forall_mem_singleton.mpr (.word _ _))
  | .dateTime64Of precision none => .typeCall _ (List.forall_mem_singleton.mpr (.word _ precision))
  | .dateTime64Of precision (some zone) => .typeCall _ (List.forall_mem_cons.mpr
      ⟨.word _ precision, List.forall_mem_singleton.mpr (.string _ zone)⟩)
  | .fixedString length => .typeCall _ (List.forall_mem_singleton.mpr (.word _ length))
  | .decimal precision scale => .typeCall _ (List.forall_mem_cons.mpr
      ⟨.word _ precision, List.forall_mem_singleton.mpr (.word _ (scale.getD "0"))⟩)
  | .fixedDecimal width scale => .typeCall _ (List.forall_mem_cons.mpr
      ⟨.word _ width.precision, List.forall_mem_singleton.mpr (.word _ scale)⟩)
  | .nested _ => .typeCall _ nofun
  | .enum _ _ => .typeCall _ (List.forall_mem_map.mpr fun m _ => .string _ m.name)
  | .nullable inner => (heads_tokens inner).modified _
  | .lowCardinality inner => (heads_tokens inner).modified _
  | .array inner => .typeCall _ (List.forall_mem_singleton.mpr (heads_tokens inner).addsOnly)
  | .tuple elements => .typeCall _ (heads_elementTokens elements)
  | .map key value => .typeCall _ (List.forall_mem_cons.mpr ⟨(heads_tokens key).addsOnly,
      List.forall_mem_singleton.mpr (heads_tokens value).addsOnly⟩)
  | .simpleAggregate function inner => .typeCall _ (List.forall_mem_cons.mpr
      ⟨.string _ function, List.forall_mem_singleton.mpr (heads_tokens inner).addsOnly⟩)
  | .aggregate function inner => .typeCall _ (List.forall_mem_cons.mpr
      ⟨.string _ function, List.forall_mem_singleton.mpr (heads_tokens inner).addsOnly⟩)
  | .countState => .typeCall _ (List.forall_mem_cons.mpr ⟨.string _ "count",
      List.forall_mem_singleton.mpr (Heads.typeCall "uint64" (List.forall_mem_nil _)).addsOnly⟩)

theorem heads_elementTokens : (elements : List ColumnType) →
    ∀ a ∈ ColumnType.elementTokens elements, AddsOnly "t" a
  | [] => nofun
  | element :: elements => List.forall_mem_cons.mpr
      ⟨(heads_tokens element).addsOnly, heads_elementTokens elements⟩

end

end DatafileMigration.Script
