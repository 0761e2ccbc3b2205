import DatafileMigration.Batch.Migrate
import DatafileMigration.Proofs.Batch.Complete
import DatafileMigration.Proofs.Grammar.Identity

namespace DatafileMigration

/-- Files of one kind and name exclude each other. -/
def Datafile.key (file : Datafile) : Kind × Text := (file.kind, file.name)

/-- The resource of the first file of a kind and name that parses. -/
def foremost? (strict : Bool) (files : List Datafile) (key : Kind × Text) : Option Resource :=
  files.findSome? fun g => if g.key = key then (g.parse strict).toOption else none

/-- A file is the first of its kind and name that parses, and defines `r`. -/
structure Datafile.Leads (strict : Bool) (before : List Datafile) (file : Datafile) (r : Resource) :
    Prop where
  parsed : file.parse strict = .ok r
  first : ∀ g ∈ before, g.key = file.key → ∀ s, g.parse strict ≠ .ok s

/-- What a batch does with one of its files. -/
inductive Outcome where
  | migrated (d : Definition)
  | failed (f : Failure)
  deriving DecidableEq, Repr

/-- What becomes of a file behind the files `before`. A batch is migrated in stages, each for all
files at once; nevertheless the file and the files before it tell what becomes of it. -/
inductive Datafile.Becomes (strict : Bool) (before : List Datafile) (file : Datafile) :
    Outcome → Prop
  | unparsed {e} : file.parse strict = .error (.refused e) →
      file.Becomes strict before (.failed (.unparsed e))
  | duplicate {r s} : file.parse strict = .ok r → foremost? strict before file.key = some s →
      file.Becomes strict before (.failed (.duplicate { resource := r, first := s.path }))
  | unrendered {r c cause} : file.Leads strict before r → r.complete = .ok c →
      c.define strict = .error (.refused cause) →
      file.Becomes strict before (.failed (.unrendered c cause))
  | migrated {r c d} : file.Leads strict before r → r.complete = .ok c → c.define strict = .ok d →
      file.Becomes strict before (.migrated d)

/-- What becomes of files, one after the other, behind the files `before`. -/
inductive Outcomes (strict : Bool) : List Datafile → List Datafile → List Outcome → Prop
  | nil {before} : Outcomes strict before [] []
  | cons {before file rest o os} : file.Becomes strict before o →
      Outcomes strict (before ++ [file]) rest os → Outcomes strict before (file :: rest) (o :: os)

namespace Outcome

def unparsed? : Outcome → Option ParseError
  | failed (.unparsed e) => some e
  | _ => none

def duplicate? : Outcome → Option Duplicate
  | failed (.duplicate d) => some d
  | _ => none

def unrendered? : Outcome → Option (Resource × RenderError)
  | failed (.unrendered r e) => some (r, e)
  | _ => none

def definition? : Outcome → Option Definition
  | migrated d => some d
  | failed _ => none

/-- The resource that duplicates are told from, and that references may lead to. -/
def kept? : Outcome → Option Resource
  | migrated d => some d.resource
  | failed (.unrendered r _) => some r
  | failed _ => none

def failure? : Outcome → Option Failure
  | migrated _ => none
  | failed f => some f

end Outcome

/-- The migration that outcomes make up: failures stage by stage, definitions in order. -/
def Migration.ofOutcomes (os : List Outcome) : Migration :=
  let definitions := Definition.sort (os.filterMap Outcome.definition?)
  { failures := (os.filterMap Outcome.unparsed?).map .unparsed
      ++ ((os.filterMap Outcome.duplicate?).map .duplicate
        ++ (os.filterMap Outcome.unrendered?).map fun (r, e) => .unrendered r e)
    warnings := referenceWarnings (os.filterMap Outcome.kept?)
    migrated := definitions.map (·.resource)
    content := if definitions = [] then none else some (Module.ofDefinitions definitions) }

variable {strict : Bool} {before mid files after : List Datafile} {file g : Datafile}

theorem Datafile.parse_key {r : Resource} (parsed : file.parse strict = .ok r) :
    r.key = file.key := by
  obtain ⟨kind, name, _⟩ := Datafile.parse_identity parsed
  rw [Resource.key, Datafile.key, kind, name]

theorem foremost?_append {key : Kind × Text} :
    foremost? strict (before ++ after) key =
      (foremost? strict before key).or (foremost? strict after key) :=
  List.findSome?_append

theorem foremost?_of_refused {e : ParseError}
    (refused : file.parse strict = .error (.refused e)) (key : Kind × Text) :
    foremost? strict (before ++ [file]) key = foremost? strict before key := by
  rw [foremost?_append]
  simp [foremost?, refused, Except.toOption]

theorem foremost?_of_parsed {r : Resource} (parsed : file.parse strict = .ok r)
    (key : Kind × Text) :
    foremost? strict (before ++ [file]) key =
      (foremost? strict before key).or (if file.key = key then some r else none) := by
  rw [foremost?_append]
  simp [foremost?, parsed, Except.toOption]

theorem foremost?_eq_none {key : Kind × Text} :
    foremost? strict files key = none ↔
      ∀ g ∈ files, g.key = key → ∀ s, g.parse strict ≠ .ok s := by
  simp only [foremost?, List.findSome?_eq_none_iff, ite_eq_right_iff]
  refine forall_congr' fun g => forall_congr' fun _ => forall_congr' fun _ => ?_
  cases g.parse strict <;> simp [Except.toOption]

theorem Datafile.leads_iff {r : Resource} : file.Leads strict before r ↔
      file.parse strict = .ok r ∧ foremost? strict before file.key = none := by
  rw [foremost?_eq_none]
  exact ⟨fun leads => ⟨leads.parsed, leads.first⟩, fun ⟨parsed, first⟩ => ⟨parsed, first⟩⟩

theorem Datafile.Becomes.leads {d : Definition}
    (becomes : file.Becomes strict before (.migrated d)) :
    ∃ r c, file.Leads strict before r ∧ r.complete = .ok c ∧ c.define strict = .ok d := by
  cases becomes with
  | migrated leads completed defined => exact ⟨_, _, leads, completed, defined⟩

theorem Datafile.Leads.unique {r s : Resource} (leads : file.Leads strict before r)
    (parsed : file.parse strict = .ok s) : r = s :=
  Except.ok.inj (leads.parsed.symm.trans parsed)

theorem Datafile.Leads.not_duplicate {r s : Resource} (leads : file.Leads strict before r) :
    foremost? strict before file.key ≠ some s := by
  rw [(Datafile.leads_iff.mp leads).2]
  nofun

/-- A file has one outcome at most. -/
theorem Datafile.Becomes.unique {o p : Outcome} (first : file.Becomes strict before o)
    (second : file.Becomes strict before p) : o = p := by
  cases first with
  | unparsed refused =>
    cases second with
    | unparsed other =>
      cases refused.symm.trans other
      rfl
    | duplicate parsed => cases refused.symm.trans parsed
    | unrendered leads => cases refused.symm.trans leads.parsed
    | migrated leads => cases refused.symm.trans leads.parsed
  | duplicate parsed found =>
    cases second with
    | unparsed refused => cases refused.symm.trans parsed
    | duplicate other again =>
      cases parsed.symm.trans other
      cases found.symm.trans again
      rfl
    | unrendered leads => exact absurd found leads.not_duplicate
    | migrated leads => exact absurd found leads.not_duplicate
  | unrendered leads completed refused =>
    cases second with
    | unparsed other => cases other.symm.trans leads.parsed
    | duplicate _ found => exact absurd found leads.not_duplicate
    | unrendered other again otherwise =>
      cases leads.unique other.parsed
      cases completed.symm.trans again
      cases refused.symm.trans otherwise
      rfl
    | migrated other again defined =>
      cases leads.unique other.parsed
      cases completed.symm.trans again
      cases refused.symm.trans defined
  | migrated leads completed defined =>
    cases second with
    | unparsed other => cases other.symm.trans leads.parsed
    | duplicate _ found => exact absurd found leads.not_duplicate
    | unrendered other again refused =>
      cases leads.unique other.parsed
      cases completed.symm.trans again
      cases refused.symm.trans defined
    | migrated other again otherwise =>
      cases leads.unique other.parsed
      cases completed.symm.trans again
      cases defined.symm.trans otherwise
      rfl

theorem Outcomes.unique {os ps : List Outcome} (first : Outcomes strict before files os)
    (second : Outcomes strict before files ps) : os = ps := by
  induction first generalizing ps with
  | nil =>
    cases second
    rfl
  | cons becomes _ ih =>
    cases second with
    | cons other rest => rw [becomes.unique other, ih rest]

theorem Outcomes.split {os : List Outcome} (outcomes : Outcomes strict before (files ++ after) os) :
    ∃ ps qs, os = ps ++ qs ∧ Outcomes strict before files ps ∧
      Outcomes strict (before ++ files) after qs := by
  induction files generalizing before os with
  | nil =>
    refine ⟨[], os, rfl, .nil, ?_⟩
    rw [List.append_nil]
    exact outcomes
  | cons file rest ih =>
    cases outcomes with
    | cons becomes outcomes =>
      obtain ⟨ps, qs, rfl, first, second⟩ := ih outcomes
      refine ⟨_ :: ps, qs, rfl, .cons becomes first, ?_⟩
      rw [List.append_assoc] at second
      exact second

/-- An outcome is that of a file at its place. -/
theorem Outcomes.of_mem {os : List Outcome} {o : Outcome}
    (outcomes : Outcomes strict before files os) (member : o ∈ os) :
    ∃ mid g rest, files = mid ++ g :: rest ∧ g.Becomes strict (before ++ mid) o := by
  induction outcomes with
  | nil => cases member
  | @cons before file rest p os becomes _ ih =>
    rcases List.mem_cons.mp member with rfl | member
    · refine ⟨[], file, rest, rfl, ?_⟩
      rw [List.append_nil]
      exact becomes
    · obtain ⟨mid, g, behind, rfl, found⟩ := ih member
      refine ⟨file :: mid, g, behind, rfl, ?_⟩
      rw [List.append_assoc] at found
      exact found

theorem Outcomes.mem {os : List Outcome} {o : Outcome}
    (outcomes : Outcomes strict before (mid ++ g :: after) os)
    (becomes : g.Becomes strict (before ++ mid) o) : o ∈ os := by
  obtain ⟨ps, qs, rfl, _, second⟩ := outcomes.split
  cases second with
  | cons other _ =>
    rw [becomes.unique other]
    exact List.mem_append_right ps (List.mem_cons_self ..)

end DatafileMigration
