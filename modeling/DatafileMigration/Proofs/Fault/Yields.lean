import DatafileMigration.Literal.Basic
import Mathlib.Data.List.Forall2

namespace DatafileMigration

variable {α β γ ε δ : Type}

/-- The result of two stages, one after the other, comes from a result of the first. -/
theorem bind_eq_ok {x : Except ε α} {f : α → Except ε β} {b : β} :
    x >>= f = .ok b ↔ ∃ a, x = .ok a ∧ f a = .ok b := by
  cases x <;> simp [bind, Except.bind]

theorem map_eq_ok {x : Except ε α} {f : α → β} {b : β} :
    x.map f = .ok b ↔ ∃ a, x = .ok a ∧ f a = b := by
  cases x <;> simp [Except.map]

theorem toOption_eq_some {x : Except ε α} {a : α} : x.toOption = some a ↔ x = .ok a := by
  cases x <;> simp [Except.toOption]

/-- Steps for all items have results exactly if they are the results of the steps, one by one. -/
theorem mapM_eq_ok {step : α → Except ε β} {items : List α} {results : List β} :
    items.mapM step = .ok results ↔ List.Forall₂ (fun a b => step a = .ok b) items results := by
  induction items generalizing results with
  | nil =>
    rw [List.mapM_nil, List.forall₂_nil_left_iff]
    exact ⟨fun equal => (Except.ok.inj equal).symm, fun equal => congrArg Except.ok equal.symm⟩
  | cons a items ih =>
    rw [List.mapM_cons, bind_eq_ok, List.forall₂_cons_left_iff]
    constructor
    · rintro ⟨b, first, others⟩
      obtain ⟨rest, others, equal⟩ := bind_eq_ok.mp others
      exact ⟨b, rest, first, ih.mp others, (Except.ok.inj equal).symm⟩
    · rintro ⟨b, rest, first, others, rfl⟩
      exact ⟨b, first, bind_eq_ok.mpr ⟨rest, ih.mpr others, rfl⟩⟩

/-- A choosing step keeps what the steps for all items found, one by one. -/
theorem filterMapM_eq_ok {step : α → Except ε (Option β)} {items : List α} {results : List β} :
    items.filterMapM step = .ok results ↔ ∃ found,
      List.Forall₂ (fun a b => step a = .ok b) items found ∧ found.filterMap id = results := by
  induction items generalizing results with
  | nil =>
    simp only [List.filterMapM_nil, List.forall₂_nil_left_iff, exists_eq_left, List.filterMap_nil]
    exact ⟨Except.ok.inj, congrArg Except.ok⟩
  | cons a items ih =>
    simp only [List.filterMapM_cons, bind_eq_ok, List.forall₂_cons_left_iff]
    constructor
    · rintro ⟨b, first, others⟩
      cases b with
      | none =>
        obtain ⟨found, each, chosen⟩ := ih.mp others
        exact ⟨none :: found, ⟨none, found, first, each, rfl⟩, chosen⟩
      | some b =>
        obtain ⟨rest, others, equal⟩ := bind_eq_ok.mp others
        obtain ⟨found, each, rfl⟩ := ih.mp others
        exact ⟨some b :: found, ⟨some b, found, first, each, rfl⟩, Except.ok.inj equal⟩
    · rintro ⟨_, ⟨b, found, first, each, rfl⟩, rfl⟩
      refine ⟨b, first, ?_⟩
      cases b with
      | none => exact ih.mpr ⟨found, each, rfl⟩
      | some b => exact bind_eq_ok.mpr ⟨_, ih.mpr ⟨found, each, rfl⟩, rfl⟩

theorem exists_mapM_eq_ok {step : α → Except ε β} {items : List α} :
    (∃ results, items.mapM step = .ok results) ↔ ∀ a ∈ items, ∃ b, step a = .ok b := by
  induction items with
  | nil => exact iff_of_true ⟨[], rfl⟩ (by simp)
  | cons a items ih =>
    simp only [mapM_eq_ok, List.forall_mem_cons, List.forall₂_cons_left_iff] at ih ⊢
    rw [← ih]
    constructor
    · rintro ⟨_, b, rest, first, others, rfl⟩
      exact ⟨⟨b, first⟩, rest, others⟩
    · rintro ⟨⟨b, first⟩, rest, others⟩
      exact ⟨b :: rest, b, rest, first, others, rfl⟩

/-- A result that passes a test, told from the test. -/
theorem exists_eq_ok {x : Except ε α} {p : α → Bool} (passed : x.toOption.any p) :
    ∃ a, x = .ok a ∧ p a := by
  cases x with
  | ok a => exact ⟨a, rfl, passed⟩
  | error e => cases passed

/-- Every result of a stage has the property. A stage without a result has every property, so that
only the paths to a result count. -/
def Yields (P : α → Prop) (x : Except ε α) : Prop := ∀ a, x = .ok a → P a

@[simp]
theorem yields_ok {P : α → Prop} {a : α} : Yields P (.ok a : Except ε α) ↔ P a := by
  constructor
  · intro holds
    exact holds a rfl
  · intro holds b equal
    cases equal
    exact holds

@[simp]
theorem yields_pure {P : α → Prop} {a : α} : Yields P (pure a : Except ε α) ↔ P a := yields_ok

@[simp]
theorem yields_error {P : α → Prop} {e : ε} : Yields P (.error e : Except ε α) := by
  intro a equal
  cases equal

@[simp]
theorem yields_throw {P : α → Prop} {e : ε} : Yields P (throw e : Except ε α) := yields_error

@[simp]
theorem yields_true {x : Except ε α} : Yields (fun _ => True) x := fun _ _ => trivial

@[simp]
theorem yields_self {x : Except ε α} : Yields (x = .ok ·) x := fun _ result => result

@[simp]
theorem yields_bind {P : β → Prop} {x : Except ε α} {f : α → Except ε β} :
    Yields P (x >>= f) ↔ Yields (fun a => Yields P (f a)) x := by
  cases x with
  | ok a => simp [bind, Except.bind]
  | error e => simp [bind, Except.bind]

@[simp]
theorem yields_map {P : β → Prop} {x : Except ε α} {f : α → β} :
    Yields P (x.map f) ↔ Yields (fun a => P (f a)) x := by
  cases x <;> simp [Except.map]

@[simp]
theorem yields_fmap {P : β → Prop} {x : Except ε α} {f : α → β} :
    Yields P (f <$> x) ↔ Yields (fun a => P (f a)) x := yields_map

@[simp]
theorem yields_mapError {P : α → Prop} {x : Except ε α} {f : ε → δ} :
    Yields P (x.mapError f) ↔ Yields P x := by
  cases x <;> simp [Except.mapError]

theorem yields_ite {P : α → Prop} {c : Prop} [Decidable c] {x y : Except ε α} :
    Yields P (if c then x else y) ↔ (c → Yields P x) ∧ (¬ c → Yields P y) := by
  by_cases holds : c <;> simp [holds]

theorem Yields.mono {P Q : α → Prop} {x : Except ε α} (holds : Yields P x)
    (weaker : ∀ a, P a → Q a) : Yields Q x := fun a result => weaker a (holds a result)

theorem yields_mapM {P : β → Prop} {step : α → Except ε β} {items : List α}
    (each : ∀ a ∈ items, Yields P (step a)) :
    Yields (fun results => ∀ b ∈ results, P b) (items.mapM step) := by
  intro results stepped
  have all := mapM_eq_ok.mp stepped
  clear stepped
  induction all with
  | nil => exact fun b member => absurd member List.not_mem_nil
  | cons here _ ih =>
    obtain ⟨first, rest⟩ := List.forall_mem_cons.mp each
    exact List.forall_mem_cons.mpr ⟨first _ here, ih rest⟩

/-- The second stage has every result of the first. -/
def Extends (x y : Except ε α) : Prop := ∀ a, x = .ok a → y = .ok a

namespace Extends

theorem refl (x : Except ε α) : Extends x x := fun _ result => result

theorem of_error {e : ε} {y : Except ε α} : Extends (.error e) y := by
  intro a found
  cases found

theorem bind {x y : Except ε α} {f g : α → Except ε β} (first : Extends x y)
    (rest : ∀ a, Extends (f a) (g a)) : Extends (x >>= f) (y >>= g) := by
  intro b result
  obtain ⟨a, found, result⟩ := bind_eq_ok.mp result
  exact bind_eq_ok.mpr ⟨a, first a found, rest a b result⟩

theorem map {x y : Except ε α} (first : Extends x y) (f : α → β) :
    Extends (x.map f) (y.map f) := by
  intro b result
  obtain ⟨a, found, rfl⟩ := map_eq_ok.mp result
  exact map_eq_ok.mpr ⟨a, first a found, rfl⟩

theorem mapError {x y : Except ε α} (first : Extends x y) (f : ε → δ) :
    Extends (x.mapError f) (y.mapError f) := by
  intro a result
  cases found : x with
  | ok b =>
    rw [found] at result
    cases result
    rw [first a found]
    rfl
  | error e =>
    rw [found] at result
    cases result

theorem mapM {step next : α → Except ε β} (each : ∀ a, Extends (step a) (next a))
    (items : List α) : Extends (items.mapM step) (items.mapM next) := by
  intro results stepped
  exact mapM_eq_ok.mpr ((mapM_eq_ok.mp stepped).imp fun a b => each a b)

end Extends

/-- Every error of a stage has the property. -/
def Throws (P : ε → Prop) (x : Except ε α) : Prop := ∀ e, x = .error e → P e

@[simp]
theorem throws_ok {P : ε → Prop} {a : α} : Throws P (.ok a : Except ε α) := by
  intro e equal
  cases equal

@[simp]
theorem throws_pure {P : ε → Prop} {a : α} : Throws P (pure a : Except ε α) := throws_ok

@[simp]
theorem throws_error {P : ε → Prop} {e : ε} : Throws P (.error e : Except ε α) ↔ P e := by
  constructor
  · intro holds
    exact holds e rfl
  · intro holds other equal
    cases equal
    exact holds

@[simp]
theorem throws_throw {P : ε → Prop} {e : ε} : Throws P (throw e : Except ε α) ↔ P e := throws_error

@[simp]
theorem throws_true {x : Except ε α} : Throws (fun _ => True) x := fun _ _ => trivial

@[simp]
theorem throws_bind {P : ε → Prop} {x : Except ε α} {f : α → Except ε β} :
    Throws P (x >>= f) ↔ Throws P x ∧ Yields (fun a => Throws P (f a)) x := by
  cases x with
  | ok a => simp [bind, Except.bind]
  | error e => simp [bind, Except.bind]

@[simp]
theorem throws_map {P : ε → Prop} {x : Except ε α} {f : α → β} :
    Throws P (x.map f) ↔ Throws P x := by
  cases x <;> simp [Except.map]

@[simp]
theorem throws_fmap {P : ε → Prop} {x : Except ε α} {f : α → β} :
    Throws P (f <$> x) ↔ Throws P x := throws_map

@[simp]
theorem throws_mapError {P : δ → Prop} {x : Except ε α} {f : ε → δ} :
    Throws P (x.mapError f) ↔ Throws (fun e => P (f e)) x := by
  cases x <;> simp [Except.mapError]

theorem throws_ite {P : ε → Prop} {c : Prop} [Decidable c] {x y : Except ε α} :
    Throws P (if c then x else y) ↔ (c → Throws P x) ∧ (¬ c → Throws P y) := by
  by_cases holds : c <;> simp [holds]

theorem throws_mapM {P : ε → Prop} {step : α → Except ε β} {items : List α}
    (each : ∀ a, Throws P (step a)) : Throws P (items.mapM step) := by
  induction items with
  | nil => exact throws_pure
  | cons a items ih =>
    simp [each a, ih]

theorem throws_foldlM {P : ε → Prop} {take : γ → α → Except ε γ} {draft : γ} {items : List α}
    (each : ∀ draft a, Throws P (take draft a)) : Throws P (items.foldlM take draft) := by
  induction items generalizing draft with
  | nil => exact throws_pure
  | cons a items ih =>
    rw [List.foldlM_cons, throws_bind]
    exact ⟨each draft a, fun _ _ => ih⟩

end DatafileMigration
