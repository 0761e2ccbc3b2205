import DatafileMigration.Proofs.Template.Merging
import DatafileMigration.Proofs.Template.Occurrence
import DatafileMigration.Proofs.Template.Reduced

namespace DatafileMigration.Template

open Text (strip)

variable {argument name sql : Text} {arguments : List Text} {o said : Options} {c : Call}
  {u : Usage} {us : List Usage} {cs : List Call}

/-- What is found last behind a beginning, or else in it. -/
theorem getLast?_flatMap_cons {α β : Type} (f : α → List β) (a : α) (l : List α) :
    ((a :: l).flatMap f).getLast? = ((l.flatMap f).getLast?).or (f a).getLast? := by
  rw [List.flatMap_cons, List.getLast?_append]

/-- What an argument says by its place, or under the key of a default. -/
def defaultText? (argument : Text) : Option Text :=
  if strip argument = [] then none
  else match keywordArgument? (strip argument) with
    | none => some (strip argument)
    | some (key, value) => if Text.lower key = "default" then some value else none

/-- What an argument says under the key of a requirement. -/
def requiredText? (argument : Text) : Option Text :=
  match keywordArgument? (strip argument) with
  | none => none
  | some (key, value) => if Text.lower key = "required" then some value else none

/-- The default that an argument gives. -/
def givenDefault? (argument : Text) : Option Scalar :=
  (defaultText? argument).bind fun t => (readDefault t).toOption

/-- Whether an argument requires the parameter, if it says so. -/
def givenRequired? (argument : Text) : Option Bool :=
  (requiredText? argument).bind fun t => (readRequired t).toOption

/-- An argument that is taken leaves what was said before where it says nothing itself. -/
theorem Options.yields_given :
    Yields (fun said => said.default = (givenDefault? argument).or o.default ∧
      said.required = (givenRequired? argument).or o.required) (o.take argument) := by
  unfold Options.take givenDefault? givenRequired? defaultText? requiredText?
  by_cases blank : strip argument = []
  · simp [blank, keywordArgument?, Text.cutAt?]
  simp only [if_neg blank]
  cases keywordArgument? (strip argument) with
  | none =>
    refine yields_bind.mpr fun value read => ?_
    simp [read, Except.toOption]
  | some entry =>
    obtain ⟨key, value⟩ := entry
    simp only [yields_ite]
    refine ⟨fun isDefault => ?_, fun other => ⟨fun isRequired => ?_, fun silent => ?_⟩⟩
    · have silent : Text.lower key ≠ "required" := by
        rw [isDefault]
        decide
      refine yields_bind.mpr fun x read => yields_pure.mpr ?_
      simp only [if_pos isDefault, if_neg silent, Option.bind_some, Option.bind_none, read]
      exact ⟨rfl, rfl⟩
    · refine yields_bind.mpr fun x read => yields_pure.mpr ?_
      simp only [if_neg other, if_pos isRequired, Option.bind_some, Option.bind_none, read]
      exact ⟨rfl, rfl⟩
    · simp only [if_neg other, if_neg silent, Option.bind_none, Option.none_or]
      refine ⟨fun _ => yields_bind.mpr fun x _ => ?_, fun _ => yields_pure.mpr ⟨rfl, rfl⟩⟩
      cases x with
      | text t => exact yields_pure.mpr ⟨rfl, rfl⟩
      | bool | int | float => exact yields_throw

/-- The last argument that gives a default or a requirement decides. -/
theorem options_of_foldlM (read : arguments.foldlM Options.take o = .ok said) :
    said.default = ((arguments.filterMap givenDefault?).getLast?).or o.default ∧
      said.required = ((arguments.filterMap givenRequired?).getLast?).or o.required := by
  induction arguments generalizing o with
  | nil =>
    cases read
    exact ⟨rfl, rfl⟩
  | cons argument arguments ih =>
    rw [List.foldlM_cons] at read
    obtain ⟨behind, taken, read⟩ := bind_eq_ok.mp read
    obtain ⟨default, required⟩ := Options.yields_given behind taken
    obtain ⟨lastDefault, lastRequired⟩ := ih read
    rw [default, ← Option.or_assoc, ← getLast?_filterMap_cons] at lastDefault
    rw [required, ← Option.or_assoc, ← getLast?_filterMap_cons] at lastRequired
    exact ⟨lastDefault, lastRequired⟩

theorem options_of_readOptions (read : readOptions arguments = .ok said) :
    said.default = (arguments.filterMap givenDefault?).getLast? ∧
      said.required = (arguments.filterMap givenRequired?).getLast? := by
  obtain ⟨default, required⟩ := options_of_foldlM read
  rw [Option.or_none] at default required
  exact ⟨default, required⟩

namespace Call

/-- The identifier that stands as the first argument of a call whose function has a type. -/
def declared? (c : Call) : Option Text :=
  (typeOfFunction? c.name).bind fun _ =>
    (Text.splitTopLevel c.arguments).head?.filter Text.isIdentifier

/-- What the arguments behind the name say. Those of array calls say nothing. -/
def saying (c : Call) : List Text :=
  if typeOfFunction? c.name = some "Array".toList then []
  else (Text.splitTopLevel c.arguments).tail

theorem subset_of_mem_saying (isSaid : argument ∈ c.saying) : argument ⊆ c.arguments := by
  rw [saying] at isSaid
  split at isSaid
  · cases isSaid
  · exact fun _ => Text.mem_of_mem_splitTopLevel (List.mem_of_mem_tail isSaid)

/-- The defaults that a call gives, in order. -/
def defaults (c : Call) : List Scalar := c.saying.filterMap givenDefault?

/-- Whether a call requires its parameter, as often as it says so. -/
def requirements (c : Call) : List Bool := c.saying.filterMap givenRequired?

/-- A call makes a use: the name and the type are its own, and it says last what the use says. -/
structure Makes (c : Call) (u : Usage) : Prop where
  declared : c.declared? = some u.name
  typed : typeOfFunction? c.name = some u.type
  default : c.defaults.getLast? = u.options.default
  required : c.requirements.getLast? = u.options.required

theorem typeOfFunction?_of_isRaising (raising : c.isRaising) : typeOfFunction? c.name = none := by
  have small : Text.lower c.name = "error" ∨ Text.lower c.name = "custom_error" := by
    simpa [isRaising, raisingFunctions] using raising
  rcases small with small | small
  · rw [typeOfFunction?, small]
    decide
  · rw [typeOfFunction?, small]
    decide

theorem isRaising_of_typeOfFunction? {type : Text} (known : typeOfFunction? c.name = some type) :
    c.isRaising = false := by
  refine Bool.eq_false_iff.mpr fun raising => ?_
  rw [typeOfFunction?_of_isRaising raising] at known
  cases known

theorem declared?_eq_some {type : Text} {options : List Text}
    (known : typeOfFunction? c.name = some type)
    (split : Text.splitTopLevel c.arguments = name :: options) :
    c.declared? = if Text.isIdentifier name then some name else none := by
  rw [declared?, known, Option.bind_some, split, List.head?_cons, Option.filter_some]

/-- A call without an error makes the use that is read off it, or declares nothing. -/
theorem makes_of_usage? {use : Option Usage} (used : c.usage? = .ok use) :
    use.elim (c.declared? = none) c.Makes := by
  cases uses_of_usage? used with
  | raising raising =>
    rw [Option.elim_none, declared?, typeOfFunction?_of_isRaising raising, Option.bind_none]
  | expression _ known split other =>
    rw [Option.elim_none, declared?_eq_some known split, other, if_neg Bool.false_ne_true]
  | array _ known split identifier =>
    have silent : c.saying = [] := if_pos known
    refine ⟨?_, known, ?_, ?_⟩
    · rw [declared?_eq_some known split, if_pos identifier]
    · rw [defaults, silent]
      rfl
    · rw [requirements, silent]
      rfl
  | @typed name options type said _ known array split identifier read =>
    have saying : c.saying = options := by
      rw [saying, if_neg (by rw [known]; simpa using array), split]
      rfl
    obtain ⟨default, required⟩ := options_of_readOptions read
    refine ⟨?_, known, ?_, ?_⟩
    · rw [declared?_eq_some known split, if_pos identifier]
    · rw [defaults, saying, default]
    · rw [requirements, saying, required]

end Call

/-- The calls of a query that name a parameter, in order. -/
def callsOf (sql name : Text) : List Call := (queryCalls sql).filter (·.declared? = some name)

/-- The calls of a name make, one by one, the uses of the name. -/
theorem forall₂_makes (used : usages sql = .ok us) (name : Text) :
    List.Forall₂ Call.Makes (callsOf sql name) (us.filter (·.name = name)) := by
  obtain ⟨found, each, rfl⟩ := filterMapM_eq_ok.mp used
  rw [callsOf]
  clear used
  generalize queryCalls sql = cs at each
  induction each with
  | nil => exact .nil
  | @cons c use cs found used _ ih =>
    cases use with
    | none =>
      have silent : c.declared? = none := c.makes_of_usage? used
      rw [List.filter_cons_of_neg (by simp [silent])]
      exact ih
    | some u =>
      have makes : c.Makes u := c.makes_of_usage? used
      have uses : (some u :: found).filterMap id = u :: found.filterMap id := rfl
      rw [uses]
      by_cases same : u.name = name
      · rw [List.filter_cons_of_pos (by simp [makes.declared, same]),
          List.filter_cons_of_pos (by simp [same])]
        exact .cons makes ih
      · rw [List.filter_cons_of_neg (by simp [makes.declared, same]),
          List.filter_cons_of_neg (by simp [same])]
        exact ih

section Makes

variable (each : List.Forall₂ Call.Makes cs us)

include each

theorem getLast?_type_of_makes :
    cs.getLast?.bind (typeOfFunction? ·.name) = (us.map (·.type)).getLast? := by
  have backwards := List.forall₂_reverse_iff.mpr each
  rw [List.getLast?_eq_head?_reverse, List.getLast?_eq_head?_reverse, ← List.map_reverse]
  generalize cs.reverse = cs, us.reverse = us at backwards
  cases backwards with
  | nil => rfl
  | cons makes _ => exact makes.typed

theorem getLast?_defaults_of_makes :
    (cs.flatMap Call.defaults).getLast? = (us.filterMap (·.options.default)).getLast? := by
  induction each with
  | nil => rfl
  | cons makes _ ih => rw [getLast?_flatMap_cons, ih, makes.default, getLast?_filterMap_cons]

end Makes

variable {ps : List Parameter} {p : Parameter}

/-- A parameter of a query is merged from the uses that the calls of its name make. -/
theorem merged_of_mem (declared : parameters sql = .ok ps) (member : p ∈ ps) :
    ∃ us, List.Forall₂ Call.Makes (callsOf sql p.name) us ∧ Usage.merged us = some p := by
  obtain ⟨us, used, rfl⟩ := parameters_eq_ok.mp declared
  exact ⟨us.filter (·.name = p.name), forall₂_makes used p.name, mem_sortParameters.mp member⟩

/-- A name has a parameter if a call names it. -/
theorem mem_names_iff (declared : parameters sql = .ok ps) :
    name ∈ ps.map (·.name) ↔ callsOf sql name ≠ [] := by
  obtain ⟨us, used, rfl⟩ := parameters_eq_ok.mp declared
  have makes := forall₂_makes used name
  have empty : callsOf sql name = [] ↔ us.filter (·.name = name) = [] := by
    rw [← List.length_eq_zero_iff, makes.length_eq, List.length_eq_zero_iff]
  rw [ne_eq, empty]
  constructor
  · intro member none
    obtain ⟨p, isParameter, rfl⟩ := List.mem_map.mp member
    have merged := mem_sortParameters.mp isParameter
    rw [none] at merged
    cases merged
  · intro some
    obtain ⟨u, chosen⟩ := List.exists_mem_of_ne_nil _ some
    obtain ⟨member, named⟩ := List.mem_filter.mp chosen
    obtain ⟨p, isParameter, same⟩ := exists_mem_sortParameters member
    exact List.mem_map.mpr ⟨p, isParameter, same.trans (of_decide_eq_true named)⟩

/-- Each parameter is listed once, in the order of names; the names are those of typed calls that
stand in the query, and each parameter has the type of its last call and the last default that one
of its calls gives. -/
theorem parameters_merge (declared : parameters sql = .ok ps) :
    (ps.map (·.name)).Pairwise (· < ·) ∧
      (∀ name, name ∈ ps.map (·.name) ↔ ∃ c : Call, c.StandsIn sql ∧ c.declared? = some name) ∧
      ∀ p ∈ ps, (callsOf sql p.name).getLast?.bind (typeOfFunction? ·.name) = some p.type ∧
        ((callsOf sql p.name).flatMap Call.defaults).getLast? = p.default := by
  refine ⟨?_, fun name => ?_, fun p member => ?_⟩
  · obtain ⟨us, used, rfl⟩ := parameters_eq_ok.mp declared
    exact pairwise_sortParameters (Usage.nodup_names_foldl_record us)
  · rw [mem_names_iff declared, callsOf, ne_eq, List.filter_eq_nil_iff]
    simp [mem_queryCalls_iff]
  · obtain ⟨us, makes, merged⟩ := merged_of_mem declared member
    constructor
    · rw [getLast?_type_of_makes makes, Usage.merged_type merged]
    · rw [getLast?_defaults_of_makes makes, Usage.merged_default merged]

/-- Calls of two parameters by turns, one inside of another call and one with a parenthesis in its
default, with an array call behind and with calls that name nothing. -/
def mixedQuery : Text :=
  "\x7b\x7b String(b, 'x)') \x7d\x7d \x7b\x7b f(Int32(a, 7)) + Int64(a) \x7d\x7d " ++
    "\x7b\x7b Array(b, 'Int32') + column(x + y) + error('no') \x7d\x7d"

def mixedParameters : List Parameter :=
  [{ name := "a", type := "Int64", required := false, default := some (.int 7) },
   { name := "b", type := "Array", required := false, default := some (.text "x)") }]

theorem parameters_merge_mixedQuery :
    parameters mixedQuery = .ok mixedParameters ∧
    (mixedParameters.map (·.name)).Pairwise (· < ·) ∧
    (∀ name, name ∈ mixedParameters.map (·.name) ↔
      ∃ c : Call, c.StandsIn mixedQuery ∧ c.declared? = some name) ∧
    ∀ p ∈ mixedParameters,
      (callsOf mixedQuery p.name).getLast?.bind (typeOfFunction? ·.name) = some p.type ∧
        ((callsOf mixedQuery p.name).flatMap Call.defaults).getLast? = p.default := by
  have recorded : (usages mixedQuery).map (·.foldl Usage.record []) =
      .ok mixedParameters.reverse := by
    unfold mixedQuery mixedParameters
    repeat rw [String.toList_ofList]
    decide +kernel
  have declared : parameters mixedQuery = .ok mixedParameters :=
    parameters_of_perm recorded (List.reverse_perm _) (by decide)
  exact ⟨declared, parameters_merge declared⟩

end DatafileMigration.Template
