import Mathlib.Data.List.Perm.Basic
import DatafileMigration.Text.Basic

namespace DatafileMigration.Text

theorem precedes_cons {c d : Char} {s t : Text} : precedes (c :: s) (d :: t) ↔
    c.toNat < d.toNat ∨ c = d ∧ precedes s t := by
  simp [precedes]

/-- The order of texts is total, so that there is one way only to sort texts. -/
theorem precedes_total (s t : Text) : precedes s t || precedes t s := by
  rw [Bool.or_eq_true]
  induction s generalizing t with
  | nil => exact Or.inl rfl
  | cons c s ih =>
    cases t with
    | nil => exact Or.inr rfl
    | cons d t =>
      rw [precedes_cons, precedes_cons]
      rcases Nat.lt_trichotomy c.toNat d.toNat with less | same | greater
      · exact Or.inl (Or.inl less)
      · have equal : c = d := Char.toNat_inj.mp same
        rcases ih t with first | second
        · exact Or.inl (Or.inr ⟨equal, first⟩)
        · exact Or.inr (Or.inr ⟨equal.symm, second⟩)
      · exact Or.inr (Or.inl greater)

theorem precedes_trans {s t u : Text} (first : precedes s t) (second : precedes t u) :
    precedes s u := by
  induction s generalizing t u with
  | nil => rfl
  | cons c s ih =>
    cases t with
    | nil => cases first
    | cons d t =>
      cases u with
      | nil => cases second
      | cons e u =>
        rw [precedes_cons] at first second ⊢
        rcases first with less | ⟨rfl, first⟩ <;> rcases second with less' | ⟨rfl, second⟩
        · exact Or.inl (by omega)
        · exact Or.inl less
        · exact Or.inl less'
        · exact Or.inr ⟨rfl, ih first second⟩

theorem precedes_antisymm {s t : Text} (first : precedes s t) (second : precedes t s) : s = t := by
  induction s generalizing t with
  | nil =>
    cases t with
    | nil => rfl
    | cons d t => cases second
  | cons c s ih =>
    cases t with
    | nil => cases first
    | cons d t =>
      rw [precedes_cons] at first second
      rcases first with less | ⟨rfl, first⟩
      · rcases second with less' | ⟨rfl, _⟩ <;> omega
      rcases second with less | ⟨_, second⟩
      · omega
      rw [ih first second]

/-- What precedes another text comes before it by the first character that differs. -/
theorem lt_of_precedes {s t : Text} (first : precedes s t) (other : s ≠ t) : s < t := by
  induction s generalizing t with
  | nil =>
    cases t with
    | nil => exact absurd rfl other
    | cons d t => exact List.nil_lt_cons d t
  | cons c s ih =>
    cases t with
    | nil => cases first
    | cons d t =>
      rw [List.cons_lt_cons_iff]
      rcases precedes_cons.mp first with less | ⟨rfl, rest⟩
      · exact .inl less
      · exact .inr ⟨rfl, ih rest fun same => other (congrArg _ same)⟩

section Sorted

variable {α : Type} (key : α → Text)

/-- What is sorted by texts stands in the order of these texts. -/
theorem pairwise_mergeSort (l : List α) :
    (l.mergeSort fun a b => precedes (key a) (key b)).Pairwise
      fun a b => precedes (key a) (key b) := by
  refine List.pairwise_mergeSort ?_ (fun a b => precedes_total (key a) (key b)) l
  intro a b c first second
  exact precedes_trans first second

/-- Texts that differ stand in strictly increasing order when they are sorted. -/
theorem pairwise_lt_mergeSort {l : List α} (distinct : (l.map key).Nodup) :
    (l.mergeSort fun a b => precedes (key a) (key b)).Pairwise fun a b => key a < key b := by
  have perm := (List.mergeSort_perm l fun a b => precedes (key a) (key b)).map key
  have apart := List.pairwise_map.mp (perm.nodup_iff.mpr distinct)
  exact (pairwise_mergeSort key l).imp₂ (fun _ _ => lt_of_precedes) apart

/-- What is told by the texts is sorted in one way. -/
theorem mergeSort_eq_of_perm {l l' : List α} (perm : l.Perm l')
    (tell : ∀ a ∈ l, ∀ b ∈ l, key a = key b → a = b) :
    (l.mergeSort fun a b => precedes (key a) (key b)) =
      l'.mergeSort fun a b => precedes (key a) (key b) := by
  refine List.Perm.eq_of_pairwise ?_ (pairwise_mergeSort key l) (pairwise_mergeSort key l')
    ((List.mergeSort_perm _ _).trans (perm.trans (List.mergeSort_perm _ _).symm))
  intro a b member member' first second
  refine tell a (List.mem_mergeSort.mp member) b ?_ (precedes_antisymm first second)
  exact perm.mem_iff.mpr (List.mem_mergeSort.mp member')

end Sorted

/-- Texts may be chosen before they are sorted. -/
theorem filter_mergeSort (p : Text → Bool) (ts : List Text) :
    (ts.mergeSort precedes).filter p = (ts.filter p).mergeSort precedes := by
  have chosen : ((ts.mergeSort precedes).filter p).Perm ((ts.filter p).mergeSort precedes) :=
    ((List.mergeSort_perm ts precedes).filter p).trans (List.mergeSort_perm _ precedes).symm
  exact chosen.eq_of_pairwise (fun _ _ _ _ => precedes_antisymm)
    ((pairwise_mergeSort id ts).filter p) (pairwise_mergeSort id _)

end DatafileMigration.Text
