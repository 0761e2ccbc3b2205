import Mathlib.Data.List.Nodup
import DatafileMigration.Module.Assembly
import DatafileMigration.Proofs.Text.Order

namespace DatafileMigration

theorem Kind.rank_injective : Function.Injective Kind.rank := by
  intro a b same
  cases a <;> cases b <;> simp [Kind.rank] at same ⊢

namespace Resource

theorem precedes_iff {a b : Resource} : a.precedes b ↔
    a.kind.rank < b.kind.rank ∨ a.kind.rank = b.kind.rank ∧ Text.precedes a.name b.name := by
  simp [precedes]

theorem precedes_total (a b : Resource) : a.precedes b || b.precedes a := by
  rw [Bool.or_eq_true, precedes_iff, precedes_iff]
  have names := Text.precedes_total a.name b.name
  rw [Bool.or_eq_true] at names
  rcases Nat.lt_trichotomy a.kind.rank b.kind.rank with less | same | greater
  · exact Or.inl (Or.inl less)
  · rcases names with first | second
    · exact Or.inl (Or.inr ⟨same, first⟩)
    · exact Or.inr (Or.inr ⟨same.symm, second⟩)
  · exact Or.inr (Or.inl greater)

theorem precedes_trans (a b c : Resource) (first : a.precedes b) (second : b.precedes c) :
    a.precedes c := by
  rw [precedes_iff] at first second ⊢
  rcases first with less | ⟨same, names⟩ <;> rcases second with less' | ⟨same', names'⟩
  · exact Or.inl (by omega)
  · exact Or.inl (by omega)
  · exact Or.inl (by omega)
  · exact Or.inr ⟨same.trans same', Text.precedes_trans names names'⟩

theorem pairwise_sort (rs : List Resource) : (sort rs).Pairwise fun a b => a.precedes b :=
  List.pairwise_mergeSort precedes_trans precedes_total rs

theorem rank_le_of_precedes {a b : Resource} (ordered : a.precedes b) :
    a.kind.rank ≤ b.kind.rank := by
  rcases precedes_iff.mp ordered with less | ⟨same, _⟩
  · exact Nat.le_of_lt less
  · exact Nat.le_of_eq same

theorem sort_sort (rs : List Resource) : sort (sort rs) = sort rs :=
  List.mergeSort_of_pairwise (pairwise_sort rs)

theorem mem_sort {rs : List Resource} {r : Resource} : r ∈ sort rs ↔ r ∈ rs := List.mem_mergeSort

theorem key_of_precedes {a b : Resource} (first : a.precedes b) (second : b.precedes a) :
    a.key = b.key := by
  rw [precedes_iff] at first second
  rcases first with less | ⟨sameRank, names⟩
  · rcases second with less' | ⟨sameRank, _⟩ <;> omega
  rcases second with less | ⟨_, names'⟩
  · omega
  have sameKind : a.kind = b.kind := Kind.rank_injective sameRank
  have sameName : a.name = b.name := Text.precedes_antisymm names names'
  rw [key, key, sameKind, sameName]

/-- Resources of different kinds or names are sorted alike, in whichever order they come. -/
theorem sort_eq_of_perm {rs ss : List Resource} (perm : rs.Perm ss)
    (distinct : (rs.map key).Nodup) : sort rs = sort ss := by
  have sorted : (sort rs).Perm (sort ss) :=
    (List.mergeSort_perm rs _).trans (perm.trans (List.mergeSort_perm ss _).symm)
  refine List.Perm.eq_of_pairwise ?_ (pairwise_sort rs) (pairwise_sort ss) sorted
  intro a b here there first second
  have member : a ∈ rs := mem_sort.mp here
  have member' : b ∈ rs := perm.mem_iff.mpr (mem_sort.mp there)
  exact List.inj_on_of_nodup_map distinct member member' (key_of_precedes first second)

end Resource

/-- Definitions are sorted as their resources are. -/
theorem Definition.sort_resources (ds : List Definition) :
    (sort ds).map (·.resource) = Resource.sort (ds.map (·.resource)) :=
  List.map_mergeSort fun _ _ _ _ => rfl

end DatafileMigration
