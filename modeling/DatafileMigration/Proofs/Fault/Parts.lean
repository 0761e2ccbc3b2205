import Mathlib.Logic.Equiv.Basic
import DatafileMigration.Proofs.Fault.Yields

namespace DatafileMigration

variable {ε Item State Key : Type} {Part : Key → Type}

section
variable [DecidableEq Key] (parts : State ≃ ((key : Key) → Part key))

/-- A step fails in every state, or keeps every state, or changes in every state the part of its
key, by what this part was. So what a sequence of such steps comes to depends, part by part, on the
steps that fill the part, and on their order alone. -/
inductive FillsPart : Option Key → (State → Except ε State) → Prop
  | fails {key step} (e : ε) : (∀ s, step s = .error e) → FillsPart key step
  | keeps {step} : (∀ s, step s = .ok s) → FillsPart none step
  | fills {step} (key : Key) (fill : Part key → Part key) :
      (∀ s, step s =
        .ok (parts.symm (Function.update (parts s) key (fill (parts s key))))) →
      FillsPart (some key) step

variable {parts} {key : Option Key}

/-- What a step reads first, it reads in every state. -/
theorem FillsPart.bind {α : Type} {x : Except ε α} {step : α → State → Except ε State}
    (each : ∀ a, FillsPart parts key (step a)) : FillsPart parts key fun s => x >>= (step · s) := by
  cases x with
  | error e => exact .fails e fun _ => rfl
  | ok a => exact each a

theorem FillsPart.ite {c : Prop} [Decidable c] {step step' : State → Except ε State}
    (yes : FillsPart parts key step) (no : FillsPart parts key step') :
    FillsPart parts key fun s => if c then step s else step' s := by
  by_cases holds : c
  · simpa only [if_pos holds] using yes
  · simpa only [if_neg holds] using no

/-- A step that has a result in one state has one in each. -/
theorem FillsPart.total {step : State → Except ε State} {s s' t : State}
    (fills : FillsPart parts key step) (made : step s = .ok s') : ∃ t', step t = .ok t' := by
  cases fills with
  | fails e every => cases (every s).symm.trans made
  | keeps every => exact ⟨t, every t⟩
  | fills key fill every => exact ⟨_, every t⟩

/-- What a part becomes depends on nothing but the part. -/
theorem FillsPart.congr {step : State → Except ε State} {s s' t t' : State} {k : Key}
    (fills : FillsPart parts key step) (made : step s = .ok s') (made' : step t = .ok t')
    (same : parts s k = parts t k) : parts s' k = parts t' k := by
  cases fills with
  | fails e every => cases (every s).symm.trans made
  | keeps every =>
    obtain rfl := Except.ok.inj ((every s).symm.trans made)
    obtain rfl := Except.ok.inj ((every t).symm.trans made')
    exact same
  | fills key fill every =>
    obtain rfl := Except.ok.inj ((every s).symm.trans made)
    obtain rfl := Except.ok.inj ((every t).symm.trans made')
    rw [Equiv.apply_symm_apply, Equiv.apply_symm_apply]
    by_cases own : k = key
    · subst own
      rw [Function.update_self, Function.update_self, same]
    · rw [Function.update_of_ne own, Function.update_of_ne own, same]

/-- The other parts stay. -/
theorem FillsPart.frame {step : State → Except ε State} {s s' : State} {k : Key}
    (fills : FillsPart parts key step) (made : step s = .ok s') (other : key ≠ some k) :
    parts s' k = parts s k := by
  cases fills with
  | fails e every => cases (every s).symm.trans made
  | keeps every =>
    obtain rfl := Except.ok.inj ((every s).symm.trans made)
    rfl
  | fills key fill every =>
    obtain rfl := Except.ok.inj ((every s).symm.trans made)
    rw [Equiv.apply_symm_apply, Function.update_of_ne fun same => other (congrArg some same.symm)]

/-- The state with another value for a part. -/
def putPart (parts : State ≃ ((key : Key) → Part key)) (k : Key) (v : Part k) (s : State) : State :=
  parts.symm (Function.update (parts s) k v)

/-- A step that fills another part does the same, whatever a part holds. -/
theorem FillsPart.put {step : State → Except ε State} {k : Key}
    (fills : FillsPart parts key step) (other : key ≠ some k) (v : Part k) (s : State) :
    step (putPart parts k v s) = (step s).map (putPart parts k v) := by
  cases fills with
  | fails e every =>
    rw [every, every]
    rfl
  | keeps every =>
    rw [every, every]
    rfl
  | fills key fill every =>
    have apart : key ≠ k := fun same => other (congrArg some same)
    have later : (Except.ok (parts.symm (Function.update (parts s) key (fill (parts s key))))).map
        (putPart parts k v) = Except.ok (ε := ε) (putPart parts k v _) := rfl
    rw [every, every, later]
    simp only [putPart, Equiv.apply_symm_apply, Function.update_of_ne apart,
      Function.update_comm apart]

variable {take : State → Item → Except ε State} {keyOf : Item → Option Key} {ds es : List Item}
  (each : ∀ d, FillsPart parts (keyOf d) (take · d))

include each

/-- A sequence has a result exactly if each step has one in some state. -/
theorem exists_foldlM_fillsPart {s : State} :
    (∃ t, ds.foldlM take s = .ok t) ↔ ∀ d ∈ ds, ∃ s' t', take s' d = .ok t' := by
  induction ds generalizing s with
  | nil => exact iff_of_true ⟨s, rfl⟩ (by simp)
  | cons d ds ih =>
    simp only [List.foldlM_cons, bind_eq_ok, List.forall_mem_cons]
    constructor
    · rintro ⟨t, s', first, rest⟩
      exact ⟨⟨s, s', first⟩, ih.mp ⟨t, rest⟩⟩
    · rintro ⟨⟨s', t', first⟩, others⟩
      obtain ⟨s₁, first⟩ := (each d).total (t := s) first
      obtain ⟨t, rest⟩ := ih.mpr others
      exact ⟨t, s₁, first, rest⟩

/-- The steps that fill a part make of it what the whole sequence makes. -/
theorem foldlM_filter_fillsPart {s s' t : State} {k : Key} (made : ds.foldlM take s = .ok t)
    (same : parts s k = parts s' k) :
    ∃ t', (ds.filter (keyOf · = some k)).foldlM take s' = .ok t' ∧ parts t k = parts t' k := by
  induction ds generalizing s s' with
  | nil =>
    obtain rfl := Except.ok.inj made
    exact ⟨s', rfl, same⟩
  | cons d ds ih =>
    obtain ⟨s₁, first, rest⟩ := bind_eq_ok.mp made
    by_cases own : keyOf d = some k
    · obtain ⟨s₁', first'⟩ := (each d).total (t := s') first
      obtain ⟨t', rest', same'⟩ := ih rest ((each d).congr first first' same)
      rw [List.filter_cons_of_pos (by simpa using own)]
      exact ⟨t', bind_eq_ok.mpr ⟨s₁', first', rest'⟩, same'⟩
    · rw [List.filter_cons_of_neg (by simpa using own)]
      exact ih rest (((each d).frame first own).trans same)

/-- Steps in another order come to the same, if those that fill one part keep their order. -/
theorem foldlM_eq_of_perm {s t : State} (perm : ds.Perm es)
    (order : ∀ k, es.filter (keyOf · = some k) = ds.filter (keyOf · = some k))
    (made : ds.foldlM take s = .ok t) : es.foldlM take s = .ok t := by
  have steps := (exists_foldlM_fillsPart each).mp ⟨t, made⟩
  obtain ⟨t', made'⟩ := (exists_foldlM_fillsPart each (s := s)).mpr fun d member =>
    steps d (perm.mem_iff.mpr member)
  have same : parts t' = parts t := by
    funext k
    obtain ⟨u, filled, eq⟩ := foldlM_filter_fillsPart each (k := k) made rfl
    obtain ⟨u', filled', eq'⟩ := foldlM_filter_fillsPart each (k := k) made' rfl
    rw [order] at filled'
    obtain rfl := Except.ok.inj (filled.symm.trans filled')
    exact eq'.trans eq.symm
  rw [made', parts.injective same]

/-- Steps that fill other parts leave a part as it was. -/
theorem parts_foldlM {s t : State} {k : Key} (free : ∀ d ∈ ds, keyOf d ≠ some k)
    (made : ds.foldlM take s = .ok t) : parts t k = parts s k := by
  obtain ⟨t', filled, same⟩ := foldlM_filter_fillsPart each made (rfl : parts s k = parts s k)
  have none : ds.filter (keyOf · = some k) = [] :=
    List.filter_eq_nil_iff.mpr fun d member => by simpa using free d member
  rw [none] at filled
  obtain rfl := Except.ok.inj filled
  exact same

/-- They do the same, whatever the part holds. -/
theorem foldlM_put {k : Key} (free : ∀ d ∈ ds, keyOf d ≠ some k) (v : Part k) (s : State) :
    ds.foldlM take (putPart parts k v s) = (ds.foldlM take s).map (putPart parts k v) := by
  induction ds generalizing s with
  | nil => rfl
  | cons d ds ih =>
    rw [List.forall_mem_cons] at free
    rw [List.foldlM_cons, List.foldlM_cons, (each d).put free.1]
    cases take s d with
    | error e => rfl
    | ok s' => exact ih free.2 s'

/-- A step that gives a part its value may as well be left out and the value put in at the end, if
nothing fills the part later. -/
theorem foldlM_put_at {before after : List Item} {here : Item} {s : State} {k : Key} {v : Part k}
    (filled : ∀ t, before.foldlM take s = .ok t → take t here = .ok (putPart parts k v t))
    (free : ∀ d ∈ after, keyOf d ≠ some k) :
    (before ++ here :: after).foldlM take s =
      ((before ++ after).foldlM take s).map (putPart parts k v) := by
  rw [List.foldlM_append, List.foldlM_append]
  cases front : before.foldlM take s with
  | error e => rfl
  | ok t =>
    change take t here >>= (after.foldlM take ·) = (after.foldlM take t).map _
    rw [filled t front]
    exact foldlM_put each free v t

end

end DatafileMigration
