import DatafileMigration.Proofs.Batch.Account

namespace DatafileMigration

variable {strict : Bool} {before mid after files : List Datafile} {file g : Datafile}

/-- What is migrated among the same files does not depend on the files before, as far as these let
the same files be migrated. -/
theorem Outcomes.definitions_congr {before' : List Datafile} {os ps : List Outcome}
    (first : Outcomes strict before files os) (second : Outcomes strict before' files ps)
    (same : ∀ mid g rest d, files = mid ++ g :: rest →
      (g.Becomes strict (before ++ mid) (.migrated d) ↔
        g.Becomes strict (before' ++ mid) (.migrated d))) :
    os.filterMap Outcome.definition? = ps.filterMap Outcome.definition? := by
  induction first generalizing before' ps with
  | nil =>
    cases second
    rfl
  | @cons before file rest o os becomes _ ih =>
    cases second with
    | @cons _ _ _ p ps becomes' second =>
      have heads : o.definition? = p.definition? := by
        have here (d : Definition) := same [] file rest d rfl
        simp only [List.append_nil] at here
        ext d
        rw [Outcome.definition?_eq_some, Outcome.definition?_eq_some]
        constructor
        · rintro rfl
          exact becomes'.unique ((here d).mp becomes)
        · rintro rfl
          exact becomes.unique ((here d).mpr becomes')
      have tails := ih second fun mid g behind d equal => by
        have there := same (file :: mid) g behind d (by rw [equal, List.cons_append])
        rw [List.append_assoc, List.append_assoc]
        exact there
      rw [List.filterMap_cons, List.filterMap_cons, heads, tails]

theorem Datafile.leads_insert {r : Resource} :
    g.Leads strict (before ++ file :: mid) r ↔
      g.Leads strict (before ++ mid) r ∧ (file.key = g.key → ∀ s, file.parse strict ≠ .ok s) := by
  constructor
  · rintro ⟨parsed, first⟩
    refine ⟨⟨parsed, fun h member => first h ?_⟩, first file (by simp)⟩
    rcases List.mem_append.mp member with early | late
    · exact List.mem_append_left _ early
    · exact List.mem_append_right _ (List.mem_cons_of_mem _ late)
  · rintro ⟨⟨parsed, first⟩, apart⟩
    refine ⟨parsed, fun h member => ?_⟩
    rcases List.mem_append.mp member with early | late
    · exact first h (List.mem_append_left _ early)
    · rcases List.mem_cons.mp late with rfl | late
      · exact apart
      · exact first h (List.mem_append_right _ late)

/-- A file without a statement keeps another one of its kind and name out: where the file is
missing, the other one is migrated. -/
def Datafile.KeepsOut (strict : Bool) (before : List Datafile) (file : Datafile)
    (after : List Datafile) : Prop :=
  (∃ r cause, file.Becomes strict before (.failed (.unrendered r cause))) ∧
    ∃ mid g rest d, after = mid ++ g :: rest ∧ g.key = file.key ∧
      g.Becomes strict (before ++ mid) (.migrated d)

theorem Datafile.Leads.unrendered {r : Resource} {o : Outcome} (leads : file.Leads strict before r)
    (becomes : file.Becomes strict before o)
    (failing : ∀ d, ¬ file.Becomes strict before (.migrated d)) :
    ∃ c cause, file.Becomes strict before (.failed (.unrendered c cause)) := by
  cases becomes with
  | unparsed refused => cases refused.symm.trans leads.parsed
  | duplicate _ found => exact absurd found leads.not_duplicate
  | unrendered ahead completed refused => exact ⟨_, _, .unrendered ahead completed refused⟩
  | migrated ahead completed defined => exact absurd (.migrated ahead completed defined) (failing _)

theorem Datafile.becomes_insert {rest : List Datafile} {o : Outcome} {d : Definition}
    (becomes : file.Becomes strict before o)
    (failing : ∀ d, ¬ file.Becomes strict before (.migrated d))
    (free : ¬ file.KeepsOut strict before (mid ++ g :: rest)) :
    g.Becomes strict (before ++ file :: mid) (.migrated d) ↔
      g.Becomes strict (before ++ mid) (.migrated d) := by
  constructor
  · intro migrated
    obtain ⟨r, c, leads, completed, defined⟩ := migrated.leads
    exact .migrated (Datafile.leads_insert.mp leads).1 completed defined
  · intro migrated
    obtain ⟨r, c, leads, completed, defined⟩ := migrated.leads
    refine .migrated (Datafile.leads_insert.mpr ⟨leads, ?_⟩) completed defined
    intro sameKey s parsed
    -- None of its kind and name stands before the file, for it would keep the other one out too.
    have ahead : file.Leads strict before s := by
      refine ⟨parsed, fun h member other => ?_⟩
      exact leads.first h (List.mem_append_left _ member) (other.trans sameKey)
    exact free ⟨ahead.unrendered becomes failing, mid, g, rest, d, rfl, sameKey.symm, migrated⟩

theorem Datafile.Becomes.key {d : Definition} (becomes : g.Becomes strict before (.migrated d)) :
    d.resource.key = g.key := by
  obtain ⟨key, _⟩ := becomes.key_of_kept rfl
  exact key

/-- A resource of the kind and name of a file without a statement is not migrated. -/
theorem Outcomes.key_ne {os : List Outcome} {r : Resource} {cause : RenderError} {d : Definition}
    (outcomes : Outcomes strict [] (before ++ file :: after) os)
    (unrendered : file.Becomes strict before (.failed (.unrendered r cause)))
    (member : .migrated d ∈ os) : d.resource.key ≠ file.key := by
  intro sameKey
  obtain ⟨s, ahead⟩ : ∃ s, file.Leads strict before s := by
    cases unrendered with
    | unrendered ahead => exact ⟨_, ahead⟩
  obtain ⟨early, late, rfl, first, second⟩ := outcomes.split
  cases second with
  | cons becomes second =>
    rw [List.nil_append] at becomes second
    rcases List.mem_append.mp member with early | late
    · obtain ⟨mid, g, rest, rfl, migrated⟩ := first.of_mem early
      obtain ⟨t, _, leads, _⟩ := migrated.leads
      exact ahead.first g (by simp) (migrated.key.symm.trans sameKey) t leads.parsed
    · rcases List.mem_cons.mp late with rfl | late
      · cases becomes.unique unrendered
      · obtain ⟨mid, g, rest, rfl, migrated⟩ := second.of_mem late
        obtain ⟨t, _, leads, _⟩ := migrated.leads
        exact leads.first file (by simp) (sameKey.symm.trans migrated.key) s ahead.parsed

theorem Migration.ofOutcomes_congr {os ps : List Outcome}
    (same : os.filterMap Outcome.definition? = ps.filterMap Outcome.definition?) :
    (ofOutcomes os).migrated = (ofOutcomes ps).migrated ∧
      (ofOutcomes os).content = (ofOutcomes ps).content := by
  simp only [ofOutcomes, same, and_self]

/-- A batch with a file that is not migrated has the same module and the same migrated resources as
the batch without it, unless the file keeps another one out. -/
theorem migrate_without {m n : Migration}
    (whole : migrate strict (before ++ file :: after) = .ok m)
    (without : migrate strict (before ++ after) = .ok n)
    (failing : ∀ d, ¬ file.Becomes strict before (.migrated d)) :
    (m.migrated = n.migrated ∧ m.content = n.content) ↔ ¬ file.KeepsOut strict before after := by
  obtain ⟨os, outcomes, rfl⟩ := migrate_iff_outcomes.mp whole
  obtain ⟨ps, outcomes', rfl⟩ := migrate_iff_outcomes.mp without
  constructor
  · rintro ⟨sameMigrated, _⟩ ⟨⟨r, cause, unrendered⟩, mid, g, rest, d, rfl, sameKey, migrated⟩
    have here : .migrated d ∈ ps := by
      rw [← List.append_assoc] at outcomes'
      exact outcomes'.mem migrated
    have member : d.resource ∈ (Migration.ofOutcomes os).migrated := by
      rw [sameMigrated]
      exact Migration.mem_migrated.mpr ⟨d, here, rfl⟩
    obtain ⟨e, there, same⟩ := Migration.mem_migrated.mp member
    have apart := outcomes.key_ne unrendered there
    rw [same, migrated.key] at apart
    exact apart sameKey
  · intro free
    apply Migration.ofOutcomes_congr
    obtain ⟨early, late, rfl, first, second⟩ := outcomes.split
    obtain ⟨early', late', rfl, first', second'⟩ := outcomes'.split
    cases first.unique first'
    cases second with
    | @cons _ _ _ o late becomes second =>
      rw [List.nil_append] at becomes second second'
      have none : o.definition? = none := by
        cases o with
        | migrated d => exact absurd becomes (failing d)
        | failed f => rfl
      have behind := second.definitions_congr second' fun mid g rest d place => by
        rw [List.append_assoc]
        rw [place] at free
        exact Datafile.becomes_insert becomes failing free
      rw [List.filterMap_append, List.filterMap_append, List.filterMap_cons, none, behind]

/-- A file that says nothing. -/
def silentDatasource : Datafile := ⟨.datasource, "d", "d", ""⟩

/-- A file with one query. -/
def queryPipe : Datafile := ⟨.pipe, "p", "p", "NODE n\nSQL >\n  SELECT 1"⟩

theorem migrate_without_silent : ∃ m n,
    migrate true ([] ++ silentDatasource :: [queryPipe]) = .ok m ∧
    migrate true ([] ++ [queryPipe]) = .ok n ∧
    ((m.migrated = n.migrated ∧ m.content = n.content) ↔
      ¬ silentDatasource.KeepsOut true [] [queryPipe]) := by
  obtain ⟨m, whole, others⟩ := exists_eq_ok
    (x := migrate true ([] ++ silentDatasource :: [queryPipe]))
    (p := fun m => ∀ r ∈ m.migrated, r.path ≠ silentDatasource.path) (by decide +kernel)
  obtain ⟨n, without, _⟩ := exists_eq_ok (x := migrate true ([] ++ [queryPipe]))
    (p := fun _ => true) (by decide +kernel)
  have absent := Datafile.not_migrated whole (of_decide_eq_true others)
  exact ⟨m, n, whole, without, migrate_without whole without absent⟩

/-- A datasource whose column is of an unknown type. -/
def strangeDatasource : Datafile where
  kind := .datasource
  path := "x/a.datasource"
  name := "a"
  content := "SCHEMA >\n    c Foo\n\nENGINE \"MergeTree\"\nENGINE_SORTING_KEY \"c\""

/-- Another one of its name, with a known type. -/
def plainDatasource : Datafile where
  kind := .datasource
  path := "y/a.datasource"
  name := "a"
  content := "SCHEMA >\n    c String\n\nENGINE \"MergeTree\"\nENGINE_SORTING_KEY \"c\""

/-- Neither of the two is migrated, but without the first one, which has no statement, the second
one is. -/
theorem migrate_strange_plain : ∃ m n,
    migrate true [strangeDatasource, plainDatasource] = .ok m ∧
    migrate true [plainDatasource] = .ok n ∧ m.migrated = [] ∧ m.content = none ∧
    n.migrated.map Resource.path = ["y/a.datasource"] ∧ n.content ≠ none := by
  obtain ⟨m, whole, nothing⟩ := exists_eq_ok
    (x := migrate true [strangeDatasource, plainDatasource])
    (p := fun m => m.migrated = [] && m.content = none) (by
      unfold strangeDatasource plainDatasource
      repeat rw [String.toList_ofList]
      decide +kernel)
  obtain ⟨n, without, other⟩ := exists_eq_ok (x := migrate true [plainDatasource])
    (p := fun n => n.migrated.map Resource.path = ["y/a.datasource"] && n.content ≠ none) (by
      unfold plainDatasource
      repeat rw [String.toList_ofList]
      decide +kernel)
  simp only [Bool.and_eq_true, decide_eq_true_eq] at nothing other
  exact ⟨m, n, whole, without, nothing.1, nothing.2, other.1, other.2⟩

end DatafileMigration
