import DatafileMigration.Proofs.Batch.Account
import DatafileMigration.Proofs.Grammar.LongNumber
import DatafileMigration.Proofs.Module.LongDefault

namespace DatafileMigration

variable {strict : Bool} {before files : List Datafile} {file : Datafile}

/-- A file ends the whole batch: it comes to an integer of too many digits when it is parsed, or it
leads with an endpoint whose columns are not found, or with a datasource whose default is too
long. -/
inductive Datafile.EndsBatch (strict : Bool) (before : List Datafile) (file : Datafile) : Prop
  | number : file.HasLongNumber strict → file.EndsBatch strict before
  | letter {p} : file.Leads strict before (.pipe p) → p.HasStrayLetter →
      file.EndsBatch strict before
  | default {d} : file.Leads strict before (.datasource d) → d.HasLongDefault strict →
      file.EndsBatch strict before

/-- Only a datasource is completed to one, and it is the same. -/
theorem Resource.of_complete_datasource {r : Resource} {d : Datasource}
    (completed : r.complete = .ok (.datasource d)) : r = .datasource d := by
  cases r with
  | connection c => cases completed
  | datasource e =>
    cases completed
    rfl
  | pipe p =>
    obtain ⟨q, _, other⟩ := map_eq_ok.mp completed
    cases other

/-- A file with an outcome does not end the batch. -/
theorem Datafile.Becomes.not_endsBatch {o : Outcome} (becomes : file.Becomes strict before o) :
    ¬ file.EndsBatch strict before := by
  intro ends
  cases ends with
  | number long =>
    obtain ⟨why, broken⟩ := Datafile.breaks_parse.mpr long
    cases becomes with
    | unparsed refused => cases broken.symm.trans refused
    | duplicate parsed => cases broken.symm.trans parsed
    | unrendered leads => cases broken.symm.trans leads.parsed
    | migrated leads => cases broken.symm.trans leads.parsed
  | @letter p leads stray =>
    obtain ⟨why, broken⟩ := Resource.complete_breaks.mpr ⟨p, rfl, stray⟩
    cases becomes with
    | unparsed refused => cases refused.symm.trans leads.parsed
    | duplicate _ found => exact leads.not_duplicate found
    | unrendered other completed =>
      cases leads.unique other.parsed
      cases broken.symm.trans completed
    | migrated other completed =>
      cases leads.unique other.parsed
      cases broken.symm.trans completed
  | @default d leads long =>
    obtain ⟨why, broken⟩ := Resource.breaks_define.mpr ⟨d, rfl, long⟩
    cases becomes with
    | unparsed refused => cases refused.symm.trans leads.parsed
    | duplicate _ found => exact leads.not_duplicate found
    | unrendered other completed refused =>
      cases leads.unique other.parsed
      cases completed
      cases broken.symm.trans refused
    | migrated other completed defined =>
      cases leads.unique other.parsed
      cases completed
      cases broken.symm.trans defined

/-- A file that does not end the batch has an outcome. -/
theorem Datafile.exists_becomes (isolated : ¬ file.EndsBatch strict before) :
    ∃ o, file.Becomes strict before o := by
  have whole : ¬ Breaks (file.parse strict) := by
    rw [Datafile.breaks_parse]
    exact fun long => isolated (.number long)
  rcases result_of_not_breaks whole with ⟨r, parsed⟩ | ⟨e, refused⟩
  · cases found : foremost? strict before file.key with
    | some first => exact ⟨_, .duplicate parsed found⟩
    | none =>
      have leads := Datafile.leads_iff.mpr ⟨parsed, found⟩
      cases completed : r.complete with
      | error why =>
        obtain ⟨p, rfl, stray⟩ := Resource.complete_breaks.mp ⟨why, completed⟩
        exact absurd (.letter leads stray) isolated
      | ok c =>
        have defined : ¬ Breaks (c.define strict) := by
          rw [Resource.breaks_define]
          rintro ⟨d, rfl, long⟩
          cases Resource.of_complete_datasource completed
          exact isolated (.default leads long)
        rcases result_of_not_breaks defined with ⟨d, defined⟩ | ⟨cause, refused⟩
        · exact ⟨_, .migrated leads completed defined⟩
        · exact ⟨_, .unrendered leads completed refused⟩
  · exact ⟨_, .unparsed refused⟩

theorem exists_outcomes_iff : (∃ os, Outcomes strict before files os) ↔
    ∀ mid file rest, files = mid ++ file :: rest → ¬ file.EndsBatch strict (before ++ mid) := by
  induction files generalizing before with
  | nil =>
    refine iff_of_true ⟨[], .nil⟩ ?_
    intro mid file rest place
    cases mid <;> cases place
  | cons file rest ih =>
    constructor
    · rintro ⟨_, outcomes⟩ mid g behind place
      cases outcomes with
      | cons becomes outcomes =>
        cases mid with
        | nil =>
          cases place
          rw [List.append_nil]
          exact becomes.not_endsBatch
        | cons h mid =>
          cases place
          have isolated := ih.mp ⟨_, outcomes⟩ mid g behind rfl
          rw [List.append_assoc] at isolated
          exact isolated
    · intro isolated
      have here := isolated [] file rest rfl
      rw [List.append_nil] at here
      obtain ⟨o, becomes⟩ := Datafile.exists_becomes here
      have there (mid : List Datafile) (g : Datafile) (behind : List Datafile)
          (place : rest = mid ++ g :: behind) :
          ¬ g.EndsBatch strict (before ++ [file] ++ mid) := by
        rw [List.append_assoc]
        exact isolated (file :: mid) g behind (by rw [place, List.cons_append])
      obtain ⟨os, outcomes⟩ := ih.mpr there
      exact ⟨o :: os, .cons becomes outcomes⟩

/-- A migration records each file of its batch: what becomes of the file is in the migration and
names the file. -/
def Migration.RecordsAll (m : Migration) (strict : Bool) (files : List Datafile) : Prop :=
  ∀ before file after, files = before ++ file :: after →
    ∃ o, file.Becomes strict before o ∧ o.RecordedIn m ∧ o.Concerns file

/-- A batch runs to its end and records each of its files exactly if none of them ends it. -/
theorem migrate_isolates {strict : Bool} {files : List Datafile} :
    (∃ m, migrate strict files = .ok m ∧ m.RecordsAll strict files) ↔
      ∀ before file after, files = before ++ file :: after → ¬ file.EndsBatch strict before := by
  constructor
  · rintro ⟨m, run, records⟩ before file after place
    obtain ⟨o, becomes, _⟩ := records before file after place
    exact becomes.not_endsBatch
  · intro isolated
    obtain ⟨os, outcomes⟩ : ∃ os, Outcomes strict [] files os := exists_outcomes_iff.mpr isolated
    refine ⟨_, migrate_iff_outcomes.mpr ⟨os, outcomes, rfl⟩, ?_⟩
    rintro before file after rfl
    have here := isolated before file after rfl
    obtain ⟨o, becomes⟩ := Datafile.exists_becomes here
    exact ⟨o, becomes, Outcome.recorded (outcomes.mem becomes), becomes.concerns⟩

/-- An endpoint whose query selects a column with a letter beyond ASCII. -/
def accentedEndpoint : Datafile where
  kind := .pipe
  path := "a.pipe"
  name := "a"
  content := "NODE n\nSQL >\n    SELECT é FROM t\nTYPE endpoint"

/-- Nothing comes of a batch with this endpoint, not even of a datasource that is migrated without
it. -/
theorem migrate_accented_endpoint :
    migrate true [accentedEndpoint,
      ⟨.datasource, "b.datasource", "b",
        "SCHEMA >\n    a String\n\nENGINE \"MergeTree\"\nENGINE_SORTING_KEY \"a\""⟩] =
      .error .strayLetter := by
  unfold accentedEndpoint
  repeat rw [String.toList_ofList]
  decide +kernel

end DatafileMigration
