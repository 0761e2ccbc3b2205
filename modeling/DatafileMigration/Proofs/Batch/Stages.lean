import Mathlib.Data.List.Infix
import DatafileMigration.Proofs.Batch.Outcome
import DatafileMigration.Proofs.Module.Check

namespace DatafileMigration

section Sift

variable {α ε β : Type} {step : α → Except (Fault ε) β} {a : α} {rest : List α}

theorem sift_refused {cause : ε} (refused : step a = .error (.refused cause)) :
    sift step (a :: rest) =
      (sift step rest).map fun s => { s with refused := (a, cause) :: s.refused } := by
  simp [sift, refused]

theorem sift_passed {b : β} (passed : step a = .ok b) :
    sift step (a :: rest) = (sift step rest).map fun s => { s with passed := b :: s.passed } := by
  simp [sift, passed]

theorem sift_broken {why : Breakdown} (broken : step a = .error (.broken why)) :
    sift step (a :: rest) = .error why := by
  simp [sift, broken]

theorem sift_cons {s : Sifted α ε β} (sifted : sift step (a :: rest) = .ok s) :
    (∃ cause t, step a = .error (.refused cause) ∧ sift step rest = .ok t ∧
      s = { t with refused := (a, cause) :: t.refused }) ∨
    ∃ b t, step a = .ok b ∧ sift step rest = .ok t ∧ s = { t with passed := b :: t.passed } := by
  match result : step a with
  | .error (.broken why) =>
    rw [sift_broken result] at sifted
    cases sifted
  | .error (.refused cause) =>
    rw [sift_refused result, map_eq_ok] at sifted
    obtain ⟨t, tail, rfl⟩ := sifted
    exact Or.inl ⟨cause, t, rfl, tail, rfl⟩
  | .ok b =>
    rw [sift_passed result, map_eq_ok] at sifted
    obtain ⟨t, tail, rfl⟩ := sifted
    exact Or.inr ⟨b, t, rfl, tail, rfl⟩

end Sift

variable {strict : Bool} {before files : List Datafile} {file : Datafile} {seen : List Resource}

/-- The resources that are kept so far are those that the files before led with. -/
def Known (strict : Bool) (before : List Datafile) (seen : List Resource) : Prop :=
  ∀ key, seen.find? (fun r => r.key = key) = foremost? strict before key

theorem known_nil : Known strict [] [] := fun _ => rfl

theorem Known.refused {e : ParseError} (known : Known strict before seen)
    (refused : file.parse strict = .error (.refused e)) : Known strict (before ++ [file]) seen := by
  intro key
  rw [known key, foremost?_of_refused refused]

theorem Known.duplicate {r s : Resource} (known : Known strict before seen)
    (parsed : file.parse strict = .ok r) (found : foremost? strict before file.key = some s) :
    Known strict (before ++ [file]) seen := by
  intro key
  rw [known key, foremost?_of_parsed parsed]
  by_cases same : file.key = key
  · rw [← same, found]
    rfl
  · rw [if_neg same, Option.or_none]

theorem Known.leads {r : Resource} (known : Known strict before seen)
    (leads : file.Leads strict before r) : Known strict (before ++ [file]) (r :: seen) := by
  obtain ⟨parsed, absent⟩ := Datafile.leads_iff.mp leads
  intro key
  rw [foremost?_of_parsed parsed, List.find?_cons, Datafile.parse_key parsed, known key]
  by_cases same : file.key = key
  · rw [← same, absent]
    simp
  · simp [same]

theorem keepFirsts_duplicate {r s : Resource} {rest : List Resource}
    (known : Known strict before seen) (parsed : file.parse strict = .ok r)
    (found : foremost? strict before file.key = some s) :
    keepFirsts seen (r :: rest) =
      ((keepFirsts seen rest).1,
        { resource := r, first := s.path } :: (keepFirsts seen rest).2) := by
  rw [← Datafile.parse_key parsed, ← known] at found
  rw [keepFirsts, found]

theorem keepFirsts_leads {r : Resource} {rest : List Resource} (known : Known strict before seen)
    (leads : file.Leads strict before r) :
    keepFirsts seen (r :: rest) =
      (r :: (keepFirsts (r :: seen) rest).1, (keepFirsts (r :: seen) rest).2) := by
  obtain ⟨parsed, absent⟩ := Datafile.leads_iff.mp leads
  rw [← Datafile.parse_key parsed, ← known] at absent
  rw [keepFirsts, absent]

/-- The stages of a batch, all of them with a result; `seen` is kept already. -/
structure Stages (strict : Bool) (seen : List Resource) (files : List Datafile) where
  parsed : Sifted Datafile ParseError Resource
  kept : List Resource
  checked : Sifted Resource RenderError Definition
  parsing : sift (Datafile.parse strict) files = .ok parsed
  completing : (keepFirsts seen parsed.passed).1.mapM Resource.complete = .ok kept
  checking : sift (Resource.define strict) kept = .ok checked

namespace Stages

def migration (s : Stages strict seen files) : Migration :=
  let definitions := Definition.sort s.checked.passed
  { failures := s.parsed.refused.map (fun (_, e) => .unparsed e)
      ++ ((keepFirsts seen s.parsed.passed).2.map .duplicate
        ++ s.checked.refused.map fun (r, e) => .unrendered r e)
    warnings := referenceWarnings s.kept
    migrated := definitions.map (·.resource)
    content := if definitions = [] then none else some (Module.ofDefinitions definitions) }

/-- Outcomes sort what the stages did file by file. -/
structure Tallies (s : Stages strict seen files) (os : List Outcome) : Prop where
  refused : s.parsed.refused.map (·.2) = os.filterMap Outcome.unparsed?
  duplicates : (keepFirsts seen s.parsed.passed).2 = os.filterMap Outcome.duplicate?
  kept : s.kept = os.filterMap Outcome.kept?
  unrendered : s.checked.refused = os.filterMap Outcome.unrendered?
  definitions : s.checked.passed = os.filterMap Outcome.definition?

theorem Tallies.migration {s : Stages strict seen files} {os : List Outcome}
    (tallies : s.Tallies os) : s.migration = Migration.ofOutcomes os := by
  have unparsed : s.parsed.refused.map (fun (_, e) => Failure.unparsed e) =
      (os.filterMap Outcome.unparsed?).map .unparsed := by
    rw [← tallies.refused, List.map_map]
    rfl
  rw [Stages.migration, Migration.ofOutcomes, unparsed, tallies.duplicates, tallies.kept,
    tallies.unrendered, tallies.definitions]

section Cons

variable {r c : Resource}

/-- The stages of one more file in front, which is refused. -/
def refuse {e : ParseError} (s : Stages strict seen files)
    (refused : file.parse strict = .error (.refused e)) : Stages strict seen (file :: files) where
  parsed := { s.parsed with refused := (file, e) :: s.parsed.refused }
  kept := s.kept
  checked := s.checked
  parsing := by rw [sift_refused refused, s.parsing]; rfl
  completing := s.completing
  checking := s.checking

def duplicate {first : Resource} (s : Stages strict seen files) (known : Known strict before seen)
    (parsed : file.parse strict = .ok r) (found : foremost? strict before file.key = some first) :
    Stages strict seen (file :: files) where
  parsed := { s.parsed with passed := r :: s.parsed.passed }
  kept := s.kept
  checked := s.checked
  parsing := by rw [sift_passed parsed, s.parsing]; rfl
  completing := by rw [keepFirsts_duplicate known parsed found]; exact s.completing
  checking := s.checking

theorem duplicates_leads (s : Stages strict (r :: seen) files) (known : Known strict before seen)
    (leads : file.Leads strict before r) :
    (keepFirsts seen (r :: s.parsed.passed)).2 = (keepFirsts (r :: seen) s.parsed.passed).2 := by
  rw [keepFirsts_leads known leads]

theorem completing_leads (s : Stages strict (r :: seen) files) (known : Known strict before seen)
    (leads : file.Leads strict before r) (completed : r.complete = .ok c) :
    (keepFirsts seen (r :: s.parsed.passed)).1.mapM Resource.complete = .ok (c :: s.kept) := by
  rw [keepFirsts_leads known leads, List.mapM_cons, completed, s.completing]
  rfl

def unrender {cause : RenderError} (s : Stages strict (r :: seen) files)
    (known : Known strict before seen) (leads : file.Leads strict before r)
    (completed : r.complete = .ok c) (refused : c.define strict = .error (.refused cause)) :
    Stages strict seen (file :: files) where
  parsed := { s.parsed with passed := r :: s.parsed.passed }
  kept := c :: s.kept
  checked := { s.checked with refused := (c, cause) :: s.checked.refused }
  parsing := by rw [sift_passed leads.parsed, s.parsing]; rfl
  completing := s.completing_leads known leads completed
  checking := by rw [sift_refused refused, s.checking]; rfl

def define {d : Definition} (s : Stages strict (r :: seen) files)
    (known : Known strict before seen) (leads : file.Leads strict before r)
    (completed : r.complete = .ok c) (defined : c.define strict = .ok d) :
    Stages strict seen (file :: files) where
  parsed := { s.parsed with passed := r :: s.parsed.passed }
  kept := c :: s.kept
  checked := { s.checked with passed := d :: s.checked.passed }
  parsing := by rw [sift_passed leads.parsed, s.parsing]; rfl
  completing := s.completing_leads known leads completed
  checking := by rw [sift_passed defined, s.checking]; rfl

end Cons

end Stages

/-- A batch has a migration exactly if its stages all have a result. -/
theorem migrate_eq_ok {m : Migration} :
    migrate strict files = .ok m ↔ ∃ s : Stages strict [] files, s.migration = m := by
  constructor
  · intro run
    obtain ⟨parsed, parsing, run⟩ := bind_eq_ok.mp run
    obtain ⟨selection, selecting, run⟩ := bind_eq_ok.mp run
    obtain ⟨normalized, normalizing, selecting⟩ := bind_eq_ok.mp selecting
    obtain ⟨checked, checking, selecting⟩ := bind_eq_ok.mp selecting
    obtain ⟨kept, completing, normalizing⟩ := bind_eq_ok.mp normalizing
    cases normalizing
    cases selecting
    cases run
    exact ⟨⟨parsed, kept, checked, parsing, completing, checking⟩, rfl⟩
  · rintro ⟨s, rfl⟩
    have normalizing : normalize s.parsed.passed =
        .ok { kept := s.kept, duplicates := (keepFirsts [] s.parsed.passed).2 } :=
      bind_eq_ok.mpr ⟨s.kept, s.completing, rfl⟩
    have selecting : select strict s.parsed.passed = .ok
        { normalized := { kept := s.kept, duplicates := (keepFirsts [] s.parsed.passed).2 },
          checked := s.checked } :=
      bind_eq_ok.mpr ⟨_, normalizing, bind_eq_ok.mpr ⟨s.checked, s.checking, rfl⟩⟩
    exact bind_eq_ok.mpr ⟨s.parsed, s.parsing, bind_eq_ok.mpr ⟨_, selecting, rfl⟩⟩

/-- Files with outcomes pass all stages, and the outcomes tell what the stages did. -/
theorem Outcomes.stages {os : List Outcome} (outcomes : Outcomes strict before files os)
    (known : Known strict before seen) : ∃ s : Stages strict seen files, s.Tallies os := by
  -- What is known grows with each file that leads, so that it varies along the induction.
  induction outcomes generalizing seen with
  | nil => exact ⟨⟨{}, [], {}, rfl, rfl, rfl⟩, rfl, rfl, rfl, rfl, rfl⟩
  | @cons before file rest o os becomes _ ih =>
    cases becomes with
    | @unparsed e refused =>
      obtain ⟨s, tallies⟩ := ih (known.refused refused)
      exact ⟨s.refuse refused, congrArg (e :: ·) tallies.refused, tallies.duplicates, tallies.kept,
        tallies.unrendered, tallies.definitions⟩
    | @duplicate r first parsed found =>
      obtain ⟨s, tallies⟩ := ih (known.duplicate parsed found)
      have duplicates : (keepFirsts seen (r :: s.parsed.passed)).2 =
          { resource := r, first := first.path } :: os.filterMap Outcome.duplicate? := by
        rw [keepFirsts_duplicate known parsed found, tallies.duplicates]
      exact ⟨s.duplicate known parsed found, tallies.refused, duplicates, tallies.kept,
        tallies.unrendered, tallies.definitions⟩
    | @unrendered r c cause leads completed refused =>
      obtain ⟨s, tallies⟩ := ih (known.leads leads)
      have duplicates := (s.duplicates_leads known leads).trans tallies.duplicates
      exact ⟨s.unrender known leads completed refused, tallies.refused, duplicates,
        congrArg (c :: ·) tallies.kept, congrArg ((c, cause) :: ·) tallies.unrendered,
        tallies.definitions⟩
    | @migrated r c d leads completed defined =>
      obtain ⟨s, tallies⟩ := ih (known.leads leads)
      have duplicates := (s.duplicates_leads known leads).trans tallies.duplicates
      have kept : c :: s.kept = d.resource :: os.filterMap Outcome.kept? := by
        rw [Resource.define_resource defined, tallies.kept]
      exact ⟨s.define known leads completed defined, tallies.refused, duplicates, kept,
        tallies.unrendered, congrArg (d :: ·) tallies.definitions⟩

theorem Stages.outcomes (s : Stages strict seen files) (known : Known strict before seen) :
    ∃ os, Outcomes strict before files os := by
  induction files generalizing before seen with
  | nil => exact ⟨[], .nil⟩
  | cons file rest ih =>
    rcases sift_cons s.parsing with ⟨e, t, refused, tail, equal⟩ | ⟨r, t, parsed, tail, equal⟩
    · have completing := s.completing
      rw [equal] at completing
      obtain ⟨os, outcomes⟩ := ih ⟨t, s.kept, s.checked, tail, completing, s.checking⟩
        (known.refused refused)
      exact ⟨_, .cons (.unparsed refused) outcomes⟩
    have completing := s.completing
    rw [equal] at completing
    cases found : foremost? strict before file.key with
    | some first =>
      rw [keepFirsts_duplicate known parsed found] at completing
      obtain ⟨os, outcomes⟩ := ih ⟨t, s.kept, s.checked, tail, completing, s.checking⟩
        (known.duplicate parsed found)
      exact ⟨_, .cons (.duplicate parsed found) outcomes⟩
    | none =>
      have leads := Datafile.leads_iff.mpr ⟨parsed, found⟩
      rw [keepFirsts_leads known leads, List.mapM_cons] at completing
      obtain ⟨c, completed, completing⟩ := bind_eq_ok.mp completing
      obtain ⟨kept, completing, equal⟩ := bind_eq_ok.mp completing
      have checking := s.checking
      rw [← Except.ok.inj equal] at checking
      rcases sift_cons checking with ⟨cause, u, refused, below, _⟩ | ⟨d, u, defined, below, _⟩
      · obtain ⟨os, outcomes⟩ := ih ⟨t, kept, u, tail, completing, below⟩ (known.leads leads)
        exact ⟨_, .cons (.unrendered leads completed refused) outcomes⟩
      · obtain ⟨os, outcomes⟩ := ih ⟨t, kept, u, tail, completing, below⟩ (known.leads leads)
        exact ⟨_, .cons (.migrated leads completed defined) outcomes⟩

theorem Stages.unique (s t : Stages strict seen files) : s = t := by
  obtain ⟨parsed, kept, checked, parsing, completing, checking⟩ := s
  obtain ⟨parsed', kept', checked', parsing', completing', checking'⟩ := t
  cases Except.ok.inj (parsing.symm.trans parsing')
  cases Except.ok.inj (completing.symm.trans completing')
  cases Except.ok.inj (checking.symm.trans checking')
  rfl

/-- What becomes of a batch is what becomes of its files. -/
theorem migrate_iff_outcomes {m : Migration} : migrate strict files = .ok m ↔
    ∃ os, Outcomes strict [] files os ∧ Migration.ofOutcomes os = m := by
  rw [migrate_eq_ok]
  constructor
  · rintro ⟨s, rfl⟩
    obtain ⟨os, outcomes⟩ := s.outcomes known_nil
    obtain ⟨t, tallies⟩ := outcomes.stages known_nil
    refine ⟨os, outcomes, ?_⟩
    rw [s.unique t, tallies.migration]
  · rintro ⟨os, outcomes, rfl⟩
    obtain ⟨s, tallies⟩ := outcomes.stages known_nil
    exact ⟨s, tallies.migration⟩

/-- What is migrated passed the check. -/
theorem Outcomes.defined {os : List Outcome} {d : Definition}
    (outcomes : Outcomes strict before files os)
    (member : d ∈ os.filterMap Outcome.definition?) : d.resource.define strict = .ok d := by
  obtain ⟨o, place, found⟩ := List.mem_filterMap.mp member
  obtain ⟨mid, g, rest, _, becomes⟩ := outcomes.of_mem place
  cases o with
  | failed f => cases found
  | migrated e =>
    cases found
    obtain ⟨r, c, _, _, defined⟩ := becomes.leads
    rw [Resource.define_resource defined]
    exact defined

/-- The module of a batch is the one of its migrated resources. -/
theorem migrate_content {m : Migration} (run : migrate strict files = .ok m)
    (some : m.migrated ≠ []) :
    ∃ text, m.content = .some text ∧ Module.render strict m.migrated = .ok text := by
  obtain ⟨os, outcomes, rfl⟩ := migrate_iff_outcomes.mp run
  have defined (d : Definition) (member : d ∈ os.filterMap Outcome.definition?) :=
    outcomes.defined member
  refine ⟨_, if_neg ?_, Module.render_definitions defined⟩
  intro none
  apply some
  rw [Migration.ofOutcomes, none]
  rfl

/-- Resources make up a module exactly if each of them passes the check alone. Their statements in
it are the checked ones, and what a batch migrates is rendered without a fault. -/
theorem render_iff_checks (strict : Bool) (rs : List Resource) :
    ((∃ text, Module.render strict rs = .ok text) ↔ ∀ r ∈ rs, ∃ t, r.render strict = .ok t) ∧
      (∀ text, Module.render strict rs = .ok text → ∃ ds, Module.Assembles strict rs text ds) ∧
      ∀ files m, migrate strict files = .ok m → m.migrated ≠ [] →
        ∃ text, m.content = some text ∧ Module.render strict m.migrated = .ok text :=
  ⟨Module.exists_render, fun _ => Module.assembles, fun _ _ => migrate_content⟩

/-- The one that refers to the other two does not stand in the module as it was checked. -/
theorem render_iff_checks_namesakes : ∃ text, Module.render true namesakes = .ok text ∧
    (∀ r ∈ namesakes, ∃ t, r.render true = .ok t) ∧
    (∃ ds, Module.Assembles true namesakes text ds) ∧
    ∃ r ∈ namesakes, ∃ t, r.render true = .ok t ∧ ¬ t <:+: text := by
  have sorted : Resource.sort namesakes = namesakes.reverse :=
    (Resource.sort_eq_of_perm (List.reverse_perm _).symm (by decide)).trans
      (List.mergeSort_of_pairwise (by decide))
  obtain ⟨text, rendered, differs⟩ := exists_eq_ok (x := Module.render true namesakes)
    (p := fun text => namesakes.any fun r => (r.render true).toOption.any fun t =>
      !text.tails.any t.isPrefixOf) (by
        rw [Module.render, sorted]
        decide +kernel)
  obtain ⟨checked, assembled, _⟩ := render_iff_checks true namesakes
  obtain ⟨r, member, changed⟩ := List.any_eq_true.mp differs
  obtain ⟨t, alone, absent⟩ := exists_eq_ok changed
  refine ⟨text, rendered, checked.mp ⟨text, rendered⟩, assembled text rendered, r, member, t,
    alone, fun inside => ?_⟩
  obtain ⟨rest, start, behind⟩ := List.infix_iff_prefix_suffix.mp inside
  have found : text.tails.any t.isPrefixOf := by
    rw [List.any_eq_true]
    exact ⟨rest, (List.mem_tails _ _).mpr behind, List.isPrefixOf_iff_prefix.mpr start⟩
  rw [found] at absent
  cases absent

/-- The module does not depend on the order in which the resources come. -/
theorem render_perm {rs ss : List Resource} (perm : rs.Perm ss)
    (distinct : (rs.map Resource.key).Nodup) :
    Module.render strict rs = Module.render strict ss ∧
      ((∀ r ∈ rs, ∃ t, r.render strict = .ok t) →
        ∃ text, Module.render strict rs = .ok text ∧ Module.render strict ss = .ok text) := by
  have same : Module.render strict rs = Module.render strict ss := by
    rw [Module.render, Module.render, Resource.sort_eq_of_perm perm distinct]
  refine ⟨same, fun passed => ?_⟩
  obtain ⟨text, rendered⟩ := Module.exists_render.mpr passed
  exact ⟨text, rendered, same.symm.trans rendered⟩

/-- A pipe of one query. -/
def plainPipe : Resource :=
  .pipe { name := "p", path := "p", nodes := [{ name := "n", sql := "SELECT 1" }] }

/-- A connection of the same name. -/
def plainConnection : Resource :=
  .connection (.kafka { name := "p", path := "p", bootstrapServers := "b" })

theorem render_perm_namesakes : ([plainPipe, plainConnection].map Resource.key).Nodup ∧
    (∀ r ∈ [plainPipe, plainConnection], ∃ t, r.render true = .ok t) ∧
    ∃ text, Module.render true [plainPipe, plainConnection] = .ok text ∧
      Module.render true [plainConnection, plainPipe] = .ok text := by
  have distinct : ([plainPipe, plainConnection].map Resource.key).Nodup := by decide
  have passed : [plainPipe, plainConnection].all
      fun r => (r.render true).toOption.any fun _ => true := by decide +kernel
  have checked : ∀ r ∈ [plainPipe, plainConnection], ∃ t, r.render true = .ok t := by
    intro r member
    obtain ⟨t, rendered, _⟩ := exists_eq_ok (List.all_eq_true.mp passed r member)
    exact ⟨t, rendered⟩
  exact ⟨distinct, checked, (render_perm (.swap _ _ _) distinct).2 checked⟩

end DatafileMigration
