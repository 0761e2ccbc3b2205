import Mathlib.Data.List.Flatten
import Mathlib.Data.List.Infix
import Mathlib.Data.List.Forall2
import DatafileMigration.Project.Glob

namespace DatafileMigration.Glob

/-- What a segment of a pattern takes of a path. -/
inductive Takes : Text → List Text → Prop
  | run (taken : List Text) : Takes "**" taken
  | same {p : Text} : ¬ Path.hasGlob p → Takes p [p]
  | special {p s : Text} : p ≠ "**" → Path.hasGlob p → Wildcard.accepts (pieces p) s → Takes p [s]

/-- A path can be cut into what the segments of a pattern take, one after the other. -/
def Matches (pattern path : List Text) : Prop :=
  ∃ cut : List (List Text), List.Forall₂ Takes pattern cut ∧ cut.flatten = path

variable {p s : Text} {pattern path front back first rest taken : List Text} {known : Answers}
  {ends : Nat × Nat} {answer : Bool} {find : StateM Answers Bool}

theorem takes_iff (other : p ≠ "**") : Takes p taken ↔ ∃ s, taken = [s] ∧ matchesSegment p s := by
  constructor
  · intro takes
    cases takes with
    | run => exact absurd rfl other
    | same plain => exact ⟨p, rfl, by rw [matchesSegment, if_neg plain, decide_eq_true rfl]⟩
    | @special _ s _ glob accepts => exact ⟨s, rfl, by rwa [matchesSegment, if_pos glob]⟩
  · rintro ⟨s, rfl, fits⟩
    rw [matchesSegment] at fits
    split at fits
    case isTrue glob => exact .special other glob fits
    case isFalse plain =>
      obtain rfl := of_decide_eq_true fits
      exact .same plain

theorem matches_nil : Matches [] path ↔ path = [] := by
  constructor
  · rintro ⟨cut, none, rfl⟩
    cases none
    rfl
  · rintro rfl
    exact ⟨[], .nil, rfl⟩

theorem matches_cons : Matches (p :: pattern) path ↔
    ∃ taken rest, path = taken ++ rest ∧ Takes p taken ∧ Matches pattern rest := by
  constructor
  · rintro ⟨cut, each, rfl⟩
    cases each with
    | cons takes others => exact ⟨_, _, List.flatten_cons, takes, _, others, rfl⟩
  · rintro ⟨taken, rest, rfl, takes, cut, others, rfl⟩
    exact ⟨taken :: cut, .cons takes others, List.flatten_cons⟩

/-- Patterns one behind the other match paths one behind the other. -/
theorem matches_append : Matches (first ++ rest) path ↔
    ∃ front back, path = front ++ back ∧ Matches first front ∧ Matches rest back := by
  induction first generalizing path with
  | nil =>
    simp only [List.nil_append, matches_nil]
    constructor
    · exact fun behind => ⟨[], path, rfl, rfl, behind⟩
    · rintro ⟨_, back, rfl, rfl, behind⟩
      exact behind
  | cons p first ih =>
    rw [List.cons_append, matches_cons]
    constructor
    · rintro ⟨taken, _, rfl, takes, matched⟩
      obtain ⟨front, back, rfl, early, late⟩ := ih.mp matched
      exact ⟨taken ++ front, back, (List.append_assoc ..).symm,
        matches_cons.mpr ⟨taken, front, rfl, takes, early⟩, late⟩
    · rintro ⟨_, back, rfl, early, late⟩
      obtain ⟨taken, front, rfl, takes, early⟩ := matches_cons.mp early
      exact ⟨taken, front ++ back, List.append_assoc .., takes, ih.mpr ⟨front, back, rfl, early, late⟩⟩

/-- A run that takes no segment leaves all of them; one that takes some takes the first. -/
theorem matches_run : Matches ("**" :: pattern) path ↔
    Matches pattern path ∨ ∃ s rest, path = s :: rest ∧ Matches ("**" :: pattern) rest := by
  rw [matches_cons]
  constructor
  · rintro ⟨taken, rest, rfl, -, matched⟩
    cases taken with
    | nil => exact .inl matched
    | cons s taken =>
      exact .inr ⟨s, taken ++ rest, rfl, matches_cons.mpr ⟨taken, rest, rfl, .run taken, matched⟩⟩
  · rintro (matched | ⟨s, _, rfl, matched⟩)
    · exact ⟨[], path, rfl, .run [], matched⟩
    · obtain ⟨taken, rest, rfl, -, matched⟩ := matches_cons.mp matched
      exact ⟨s :: taken, rest, rfl, .run _, matched⟩

theorem matches_one (other : p ≠ "**") : Matches (p :: pattern) path ↔
    ∃ s rest, path = s :: rest ∧ matchesSegment p s ∧ Matches pattern rest := by
  simp only [matches_cons, takes_iff other]
  constructor
  · rintro ⟨_, rest, rfl, ⟨s, rfl, fits⟩, matched⟩
    exact ⟨s, rest, rfl, fits, matched⟩
  · rintro ⟨s, rest, rfl, fits, matched⟩
    exact ⟨[s], rest, rfl, ⟨s, rfl, fits⟩, matched⟩

/-- What is known of ends of a pattern and of a path is right. -/
def Right (pattern path : List Text) (known : Answers) : Prop :=
  ∀ p t, p <:+ pattern → t <:+ path → ∀ answer, known.lookup (p.length, t.length) = some answer →
    (answer = true ↔ Matches p t)

/-- From what is rightly known, it is found out whether an end of the pattern matches an end of the
path, and what is known then is right again. -/
def Decides (pattern path p t : List Text) (find : StateM Answers Bool) : Prop :=
  ∀ known, Right pattern path known →
    ((find known).1 = true ↔ Matches p t) ∧ Right pattern path (find known).2

theorem right_nil (pattern path : List Text) : Right pattern path [] := by
  intro p t _ _ answer known
  cases known

theorem remember_eq (ends : Nat × Nat) (find : StateM Answers Bool) (known : Answers) :
    remember ends find known = match known.lookup ends with
      | some answer => (answer, known)
      | none => ((find known).1, (ends, (find known).1) :: (find known).2) := by
  change (match known.lookup ends with
    | some answer => (return answer)
    | none => (do
      let answer ← find
      modify ((ends, answer) :: ·)
      return answer) : StateM Answers Bool) known = _
  cases known.lookup ends <;> rfl

theorem orM_eq (first second : StateM Answers Bool) (known : Answers) :
    (first <||> second) known =
      if (first known).1 then (true, (first known).2) else second (first known).2 := by
  simp only [orM, bind, StateT.bind]
  rcases first known with ⟨_ | _, next⟩ <;> rfl

/-- An end is told by the number of its segments. -/
theorem eq_of_suffix {whole t u : List Text} (isEnd : t <:+ whole) (isEnd' : u <:+ whole)
    (same : t.length = u.length) : t = u :=
  (List.suffix_of_suffix_length_le isEnd isEnd' same.le).eq_of_length same

variable {p t : List Text}

/-- What is found out rightly is rightly noted down. -/
theorem Decides.remember (isEnd : p <:+ pattern) (isRest : t <:+ path)
    (decides : Decides pattern path p t find) :
    Decides pattern path p t (remember (p.length, t.length) find) := by
  intro known right
  cases present : known.lookup (p.length, t.length) with
  | some answer =>
    rw [remember_eq, present]
    exact ⟨right p t isEnd isRest answer present, right⟩
  | none =>
    obtain ⟨decided, right'⟩ := decides known right
    rw [remember_eq, present]
    refine ⟨decided, fun q u isEnd' isRest' answer noted => ?_⟩
    rw [List.lookup_cons] at noted
    split at noted
    case h_1 same =>
      obtain ⟨count, count'⟩ := Prod.mk.inj (eq_of_beq same)
      obtain rfl := eq_of_suffix isEnd' isEnd count
      obtain rfl := eq_of_suffix isRest' isRest count'
      rwa [← Option.some.inj noted]
    case h_2 => exact right' q u isEnd' isRest' answer noted

theorem Decides.congr {q u : List Text} (same : Matches p t ↔ Matches q u)
    (decides : Decides pattern path p t find) : Decides pattern path q u find :=
  fun known right => ⟨(decides known right).1.trans same, (decides known right).2⟩

theorem decides_pure (same : answer = true ↔ Matches p t) :
    Decides pattern path p t (pure answer) :=
  fun _ right => ⟨same, right⟩

/-- A second search decides what the first one leaves open. -/
theorem Decides.orM {first second : StateM Answers Bool} {q u r v : List Text}
    (decides : Decides pattern path q u first) (decides' : Decides pattern path r v second)
    (either : Matches p t ↔ Matches q u ∨ Matches r v) :
    Decides pattern path p t (first <||> second) := by
  intro known right
  obtain ⟨decided, right⟩ := decides known right
  rw [orM_eq, either]
  split
  case isTrue found => exact ⟨iff_of_true rfl (.inl (decided.mp found)), right⟩
  case isFalse missed =>
    obtain ⟨decided', right⟩ := decides' _ right
    exact ⟨decided'.trans (or_iff_right (mt decided.mpr missed)).symm, right⟩

variable {behind : List Text → StateM Answers Bool}

/-- A run takes its segments one by one, so that the induction is on the path. -/
theorem decides_searchRun (isEnd : ("**" : Text) :: p <:+ pattern)
    (decides : ∀ t, t <:+ path → Decides pattern path p t (behind t)) (isRest : t <:+ path) :
    Decides pattern path ("**" :: p) t (searchRun (p.length + 1) behind t) := by
  induction t with
  | nil =>
    refine Decides.remember isEnd isRest ((decides [] isRest).congr ?_)
    rw [matches_run]
    simp
  | cons s t ih =>
    have shorter : t <:+ path := (List.suffix_cons s t).trans isRest
    refine Decides.remember isEnd isRest ((decides _ isRest).orM (ih shorter) ?_)
    rw [matches_run]
    simp

theorem decides_searchOne (other : s ≠ "**") (isEnd : s :: p <:+ pattern)
    (decides : ∀ t, t <:+ path → Decides pattern path p t (behind t)) (isRest : t <:+ path) :
    Decides pattern path (s :: p) t (searchOne (p.length + 1) s behind t) := by
  cases t with
  | nil => exact Decides.remember isEnd isRest (decides_pure (by simp [matches_one other]))
  | cons name t =>
    refine Decides.remember isEnd isRest ?_
    split
    case isTrue fits =>
      have shorter : t <:+ path := (List.suffix_cons name t).trans isRest
      exact (decides t shorter).congr (by simp [matches_one other, fits])
    case isFalse differs => exact decides_pure (by simp [matches_one other, differs])

/-- The search decides for all ends of the pattern, from the last segment on. -/
theorem decides_search (isEnd : p <:+ pattern) (isRest : t <:+ path) :
    Decides pattern path p t (search p t) := by
  induction p generalizing t with
  | nil =>
    refine Decides.remember isEnd isRest (decides_pure ?_)
    rw [matches_nil, List.isEmpty_iff]
  | cons s p ih =>
    have behind : ∀ t, t <:+ path → Decides pattern path p t (search p t) :=
      fun t isRest => ih ((List.suffix_cons s p).trans isEnd) isRest
    rw [search]
    split
    case isTrue run =>
      subst run
      exact decides_searchRun isEnd behind isRest
    case isFalse other => exact decides_searchOne other isEnd behind isRest

/-- The search decides by a cut. -/
theorem matchesSegments_iff : matchesSegments pattern path ↔ Matches pattern path :=
  (decides_search (List.suffix_refl _) (List.suffix_refl _) [] (right_nil pattern path)).1

/-- A pattern matches the paths that can be cut into one piece for each of its segments: any
segments for a `**`, and for another one a single segment, which is the same or, where there are
special characters, is accepted by it. All answers that the search notes down are right. -/
theorem search_iff_cut (pattern path : List Text) :
    (matchesSegments pattern path ↔
      ∃ cut : List (List Text), List.Forall₂ Takes pattern cut ∧ cut.flatten = path) ∧
    ∀ p t, p <:+ pattern → t <:+ path → ∀ answer,
      (search pattern path []).2.lookup (p.length, t.length) = some answer →
        (answer = true ↔ ∃ cut : List (List Text), List.Forall₂ Takes p cut ∧ cut.flatten = t) :=
  decides_search (List.suffix_refl _) (List.suffix_refl _) [] (right_nil pattern path)

/-- A file below one of two runs, and an end of the path that is noted not to match. -/
theorem search_iff_cut_runs :
    (∃ cut : List (List Text), List.Forall₂ Takes ["**", "a", "**", "*.pipe"] cut ∧
      cut.flatten = ["a", "b", "a", "c.pipe"]) ∧
    ¬ ∃ cut : List (List Text), List.Forall₂ Takes ["*.pipe"] cut ∧
      cut.flatten = ["a", "c.pipe"] := by
  obtain ⟨decides, noted⟩ :=
    search_iff_cut ["**", "a", "**", "*.pipe"] ["a", "b", "a", "c.pipe"]
  have missed := noted ["*.pipe"] ["a", "c.pipe"] ⟨["**", "a", "**"], rfl⟩ ⟨["a", "b"], rfl⟩ false
    (by decide +kernel)
  exact ⟨decides.mp (by decide +kernel), fun cut => absurd (missed.mpr cut) Bool.false_ne_true⟩

end DatafileMigration.Glob
