import Mathlib.Data.List.Forall2
import DatafileMigration.Literal.Basic

namespace DatafileMigration

variable {α β γ ε δ : Type}

/-- A stage that breaks down, whatever becomes of the item at hand. A refused stage leaves the
others of a batch as they are; this one ends them all. -/
def Breaks (x : Except (Fault ε) α) : Prop := ∃ why, x = .error (.broken why)

@[simp]
theorem not_breaks_ok (a : α) : ¬ Breaks (.ok a : Except (Fault ε) α) := by
  rintro ⟨why, equal⟩
  cases equal

@[simp]
theorem not_breaks_pure (a : α) : ¬ Breaks (pure a : Except (Fault ε) α) := not_breaks_ok a

@[simp]
theorem not_breaks_refused (cause : ε) :
    ¬ Breaks (.error (.refused cause) : Except (Fault ε) α) := by
  rintro ⟨why, equal⟩
  cases equal

@[simp]
theorem not_breaks_throw_refused (cause : ε) :
    ¬ Breaks (throw (.refused cause) : Except (Fault ε) α) := not_breaks_refused cause

@[simp]
theorem breaks_broken (why : Breakdown) : Breaks (.error (.broken why) : Except (Fault ε) α) :=
  ⟨why, rfl⟩

/-- Of two stages, one after the other, either the first breaks down, or it has a result with
which the second does. -/
theorem breaks_bind {x : Except (Fault ε) α} {f : α → Except (Fault ε) β} :
    Breaks (x >>= f) ↔ Breaks x ∨ ∃ a, x = .ok a ∧ Breaks (f a) := by
  cases x with
  | ok a => simp [bind, Except.bind]
  | error e =>
    cases e with
    | refused cause => simp [bind, Except.bind]
    | broken why => simp [bind, Except.bind]

theorem not_breaks_bind {x : Except (Fault ε) α} {f : α → Except (Fault ε) β} (first : ¬ Breaks x)
    (next : ∀ a, x = .ok a → ¬ Breaks (f a)) : ¬ Breaks (x >>= f) := by
  rw [breaks_bind]
  rintro (broken | ⟨a, result, broken⟩)
  · exact first broken
  · exact next a result broken

theorem breaks_ite {c : Prop} [Decidable c] {x y : Except (Fault ε) α} :
    Breaks (if c then x else y) ↔ c ∧ Breaks x ∨ ¬ c ∧ Breaks y := by
  by_cases holds : c <;> simp [holds]

@[simp]
theorem breaks_map {x : Except (Fault ε) α} {f : α → β} : Breaks (x.map f) ↔ Breaks x := by
  cases x with
  | ok a => simp [Except.map]
  | error e => cases e <;> simp [Except.map]

@[simp]
theorem breaks_fmap {x : Except (Fault ε) α} {f : α → β} : Breaks (f <$> x) ↔ Breaks x := breaks_map

/-- A cause of its own is refused, so that nothing breaks down. -/
@[simp]
theorem not_breaks_mapError_refused_comp {x : Except δ α} {f : δ → ε} :
    ¬ Breaks (x.mapError fun cause => Fault.refused (f cause)) := by
  cases x <;> simp [Except.mapError]

@[simp]
theorem not_breaks_mapError_refused {x : Except ε α} : ¬ Breaks (x.mapError Fault.refused) :=
  not_breaks_mapError_refused_comp

/-- Seeing a cause as another one changes no breakdown. -/
@[simp]
theorem breaks_mapError_map {x : Except (Fault ε) α} {f : ε → δ} :
    Breaks (x.mapError (Fault.map f)) ↔ Breaks x := by
  cases x with
  | ok a => simp [Except.mapError]
  | error e => cases e <;> simp [Except.mapError, Fault.map]

/-- A cause that is seen as another one stems from a refusal. -/
theorem mapError_map_eq_refused {x : Except (Fault ε) α} {f : ε → δ} {e : δ} :
    x.mapError (Fault.map f) = .error (.refused e) ↔
      ∃ cause, x = .error (.refused cause) ∧ f cause = e := by
  cases x with
  | ok a => simp [Except.mapError]
  | error fault => cases fault <;> simp [Except.mapError, Fault.map]

@[simp]
theorem breaks_mapError_broken {x : Except Breakdown α} :
    Breaks (x.mapError Fault.broken : Except (Fault ε) α) ↔ ∃ why, x = .error why := by
  cases x <;> simp [Except.mapError]

/-- A stage without a breakdown has a result or a cause that is recorded. -/
theorem result_of_not_breaks {x : Except (Fault ε) α} (whole : ¬ Breaks x) :
    (∃ a, x = .ok a) ∨ ∃ cause, x = .error (.refused cause) := by
  match x, whole with
  | .ok a, _ => exact Or.inl ⟨a, rfl⟩
  | .error (.refused cause), _ => exact Or.inr ⟨cause, rfl⟩
  | .error (.broken why), whole => exact absurd (breaks_broken why) whole

/-- Steps taken for item after item come to one with the property `P`; all items before it have
results. -/
inductive Reaches (step : α → Except ε β) (P : α → Prop) : List α → Prop
  | here {a rest} : P a → Reaches step P (a :: rest)
  | there {a b rest} : step a = .ok b → Reaches step P rest → Reaches step P (a :: rest)

/-- The item that is reached stands behind items that all have results. -/
theorem Reaches.split {step : α → Except ε β} {P : α → Prop} {items : List α}
    (reach : Reaches step P items) :
    ∃ before a after, items = before ++ a :: after ∧ (∀ x ∈ before, ∃ b, step x = .ok b) ∧ P a := by
  induction reach with
  | @here a rest holds => exact ⟨[], a, rest, rfl, by simp, holds⟩
  | @there a b rest result _ ih =>
    obtain ⟨before, c, after, rfl, results, holds⟩ := ih
    refine ⟨a :: before, c, after, rfl, ?_, holds⟩
    intro x member
    rcases List.mem_cons.mp member with rfl | member
    · exact ⟨b, result⟩
    · exact results x member

theorem reaches_cons {step : α → Except ε β} {P : α → Prop} {a : α} {rest : List α} :
    Reaches step P (a :: rest) ↔ P a ∨ (∃ b, step a = .ok b) ∧ Reaches step P rest := by
  constructor
  · intro reach
    cases reach with
    | here holds => exact Or.inl holds
    | there result reach => exact Or.inr ⟨⟨_, result⟩, reach⟩
  · rintro (holds | ⟨⟨b, result⟩, reach⟩)
    · exact .here holds
    · exact .there result reach

theorem not_reaches_nil {step : α → Except ε β} {P : α → Prop} : ¬ Reaches step P [] := nofun

theorem breaks_mapM {step : α → Except (Fault ε) β} {items : List α} :
    Breaks (items.mapM step) ↔ Reaches step (fun a => Breaks (step a)) items := by
  induction items with
  | nil => simp [not_reaches_nil]
  | cons a rest ih =>
    simp only [List.mapM_cons, breaks_bind, not_breaks_pure, and_false, exists_false, or_false, ih,
      reaches_cons, exists_and_right]

theorem not_breaks_mapM {step : α → Except (Fault ε) β} {items : List α}
    (whole : ∀ a, ¬ Breaks (step a)) : ¬ Breaks (items.mapM step) := by
  rw [breaks_mapM]
  intro reach
  obtain ⟨_, a, _, _, _, broken⟩ := reach.split
  exact whole a broken

theorem breaks_filterMapM {step : α → Except (Fault ε) (Option β)} {items : List α} :
    Breaks (items.filterMapM step) ↔ Reaches step (fun a => Breaks (step a)) items := by
  induction items with
  | nil => simp [not_reaches_nil]
  | cons a rest ih =>
    simp only [List.filterMapM_cons, breaks_bind, reaches_cons]
    refine or_congr Iff.rfl ⟨?_, ?_⟩
    · rintro ⟨found, result, broken⟩
      refine ⟨⟨found, result⟩, ih.mp ?_⟩
      cases found with
      | none => exact broken
      | some b => simpa [breaks_bind] using broken
    · rintro ⟨⟨found, result⟩, reach⟩
      refine ⟨found, result, ?_⟩
      cases found with
      | none => exact ih.mpr reach
      | some b => simpa [breaks_bind] using ih.mpr reach

/-- A draft filled in step after step comes to an item with the property `P`, which may depend on
the draft so far. -/
inductive FoldReaches (take : γ → α → Except ε γ) (P : γ → α → Prop) : γ → List α → Prop
  | here {draft a rest} : P draft a → FoldReaches take P draft (a :: rest)
  | there {draft next a rest} : take draft a = .ok next → FoldReaches take P next rest →
      FoldReaches take P draft (a :: rest)

theorem foldReaches_cons {take : γ → α → Except ε γ} {P : γ → α → Prop} {draft : γ} {a : α}
    {rest : List α} :
    FoldReaches take P draft (a :: rest) ↔
      P draft a ∨ ∃ next, take draft a = .ok next ∧ FoldReaches take P next rest := by
  constructor
  · intro reach
    cases reach with
    | here holds => exact Or.inl holds
    | there result reach => exact Or.inr ⟨_, result, reach⟩
  · rintro (holds | ⟨next, result, reach⟩)
    · exact .here holds
    · exact .there result reach

theorem foldReaches_congr {take : γ → α → Except ε γ} {P Q : γ → α → Prop}
    (same : ∀ draft a, P draft a ↔ Q draft a) {draft : γ} {items : List α} :
    FoldReaches take P draft items ↔ FoldReaches take Q draft items := by
  induction items generalizing draft with
  | nil => exact ⟨nofun, nofun⟩
  | cons a rest ih => simp only [foldReaches_cons, same, ih]

/-- Where the steps do not depend on the draft, the draft does not matter. -/
theorem foldReaches_iff_reaches {take : γ → α → Except ε γ} {step : α → Except ε β} {P : α → Prop}
    (same : ∀ draft a, (∃ next, take draft a = .ok next) ↔ ∃ b, step a = .ok b) {draft : γ}
    {items : List α} : FoldReaches take (fun _ => P) draft items ↔ Reaches step P items := by
  constructor
  · intro reach
    induction reach with
    | here holds => exact .here holds
    | there result _ ih =>
      obtain ⟨b, result⟩ := (same _ _).mp ⟨_, result⟩
      exact .there result ih
  · intro reach
    induction reach generalizing draft with
    | here holds => exact .here holds
    | @there a b rest result _ ih =>
      obtain ⟨next, result⟩ := (same draft a).mpr ⟨b, result⟩
      exact .there result ih

theorem breaks_foldlM {take : γ → α → Except (Fault ε) γ} {draft : γ} {items : List α} :
    Breaks (items.foldlM take draft) ↔
      FoldReaches take (fun draft a => Breaks (take draft a)) draft items := by
  induction items generalizing draft with
  | nil => simpa using nofun
  | cons a rest ih => simp only [List.foldlM_cons, breaks_bind, foldReaches_cons, ih]

theorem not_breaks_foldlM {take : γ → α → Except (Fault ε) γ} {draft : γ} {items : List α}
    (whole : ∀ draft a, ¬ Breaks (take draft a)) : ¬ Breaks (items.foldlM take draft) := by
  rw [breaks_foldlM]
  intro reach
  induction reach with
  | here broken => exact whole _ _ broken
  | there _ _ ih => exact ih

end DatafileMigration
