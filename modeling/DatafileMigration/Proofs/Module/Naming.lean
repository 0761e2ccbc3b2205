import Mathlib.Data.List.Nodup
import Mathlib.Data.List.Perm.Subperm
import Mathlib.Data.List.Range
import DatafileMigration.Module.Registry
import DatafileMigration.Proofs.Text.Word

namespace DatafileMigration

/-- The identifiers that a resource may get: the plain one, the one with its kind, and this with a
number. -/
inductive IsCandidate (kind : Kind) (name : Text) : Text → Prop
  | plain : IsCandidate kind name (Identifier.ofName name)
  | ofKind : IsCandidate kind name (Identifier.ofName name ++ "_" ++ kind.text)
  | numbered (n : Nat) :
      IsCandidate kind name (Identifier.ofName name ++ "_" ++ kind.text ++ "_" ++ Text.ofNat n)

namespace Registry

variable {r : Registry} {taken : List Text} {base identifier name : Text} {kind : Kind}
  {key : Kind × Text} {keys : List (Kind × Text)}

theorem numbered_injective (base : Text) :
    Function.Injective fun n => base ++ "_" ++ Text.ofNat n := by
  intro m n equal
  exact Text.ofNat_injective (List.append_cancel_left equal)

/-- If the last candidate is taken, so are all before it. -/
theorem taken_of_firstFree_mem {fuel n : Nat} (member : firstFree taken base fuel n ∈ taken) :
    ∀ i ≤ fuel, base ++ "_" ++ Text.ofNat (n + i) ∈ taken := by
  induction fuel generalizing n with
  | zero =>
    intro i bound
    rw [Nat.le_zero.mp bound]
    exact member
  | succ fuel ih =>
    rw [firstFree] at member
    split at member
    · rename_i here
      intro i bound
      cases i with
      | zero => exact List.contains_iff_mem.mp here
      | succ i =>
        have next := ih member i (by omega)
        rwa [Nat.add_right_comm] at next
    · rename_i here
      exact absurd (List.contains_iff_mem.mpr member) here

theorem firstFree_not_mem {fuel : Nat} (enough : taken.length ≤ fuel) (n : Nat) :
    firstFree taken base fuel n ∉ taken := by
  intro member
  have all := taken_of_firstFree_mem member
  have different : ((List.range (fuel + 1)).map
      fun i => base ++ "_" ++ Text.ofNat (n + i)).Nodup := by
    refine List.Nodup.map ?_ List.nodup_range
    intro i j equal
    have same : n + i = n + j := numbered_injective base equal
    omega
  have inside : (List.range (fuel + 1)).map (fun i => base ++ "_" ++ Text.ofNat (n + i)) ⊆
      taken := by
    intro t found
    obtain ⟨i, bound, rfl⟩ := List.mem_map.mp found
    exact all i (Nat.lt_succ_iff.mp (List.mem_range.mp bound))
  have count := (List.subperm_of_subset different inside).length_le
  rw [List.length_map, List.length_range] at count
  omega

theorem firstFree_eq (taken : List Text) (base : Text) (fuel n : Nat) :
    ∃ k, firstFree taken base fuel n = base ++ "_" ++ Text.ofNat k := by
  induction fuel generalizing n with
  | zero => exact ⟨n, rfl⟩
  | succ fuel ih =>
    rw [firstFree]
    split
    · exact ih (n + 1)
    · exact ⟨n, rfl⟩

theorem not_contains (free : base ∉ taken) : !taken.contains base := by
  rwa [Bool.not_eq_true', Bool.eq_false_iff, Ne, List.contains_iff_mem]

theorem fresh_of_taken (plain : Identifier.ofName name ∈ taken)
    (ofKind : Identifier.ofName name ++ "_" ++ kind.text ∈ taken) :
    fresh taken kind name =
      firstFree taken (Identifier.ofName name ++ "_" ++ kind.text) taken.length 2 := by
  rw [fresh, List.contains_iff_mem.mpr plain, List.contains_iff_mem.mpr ofKind, Bool.not_true,
    if_neg (by decide), if_neg (by decide)]

/-- The plain identifier if it is free, else the one with the kind if that is free, else one with
a number. -/
theorem fresh_cases (taken : List Text) (kind : Kind) (name : Text) :
    (Identifier.ofName name ∉ taken ∧ fresh taken kind name = Identifier.ofName name) ∨
      (Identifier.ofName name ∈ taken ∧
        Identifier.ofName name ++ "_" ++ kind.text ∉ taken ∧
        fresh taken kind name = Identifier.ofName name ++ "_" ++ kind.text) ∨
      (Identifier.ofName name ∈ taken ∧
        Identifier.ofName name ++ "_" ++ kind.text ∈ taken ∧
        ∃ n, fresh taken kind name =
          Identifier.ofName name ++ "_" ++ kind.text ++ "_" ++ Text.ofNat n) := by
  by_cases plain : Identifier.ofName name ∈ taken
  · by_cases ofKind : Identifier.ofName name ++ "_" ++ kind.text ∈ taken
    · obtain ⟨n, number⟩ :=
        firstFree_eq taken (Identifier.ofName name ++ "_" ++ kind.text) taken.length 2
      exact Or.inr (Or.inr ⟨plain, ofKind, n, (fresh_of_taken plain ofKind).trans number⟩)
    · refine Or.inr (Or.inl ⟨plain, ofKind, ?_⟩)
      rw [fresh, List.contains_iff_mem.mpr plain, Bool.not_true, if_neg (by decide),
        if_pos (not_contains ofKind)]
  · refine Or.inl ⟨plain, ?_⟩
    rw [fresh, if_pos (not_contains plain)]

theorem ofName_mem_of_fresh (ofKind : fresh taken kind name =
    Identifier.ofName name ++ "_" ++ kind.text) : Identifier.ofName name ∈ taken := by
  rcases fresh_cases taken kind name with ⟨_, same⟩ | ⟨plain, _⟩ | ⟨plain, _⟩
  · have lengths := congrArg List.length (same.symm.trans ofKind)
    simp at lengths
  · exact plain
  · exact plain

theorem fresh_eq_ofKind (plain : Identifier.ofName name ∈ taken)
    (free : Identifier.ofName name ++ "_" ++ kind.text ∉ taken) :
    fresh taken kind name = Identifier.ofName name ++ "_" ++ kind.text := by
  rcases fresh_cases taken kind name with ⟨absent, _⟩ | ⟨_, _, same⟩ | ⟨_, occupied, _⟩
  · exact absurd plain absent
  · exact same
  · exact absurd occupied free

theorem fresh_not_mem (taken : List Text) (kind : Kind) (name : Text) :
    fresh taken kind name ∉ taken := by
  rcases fresh_cases taken kind name with ⟨free, same⟩ | ⟨_, free, same⟩ | ⟨plain, ofKind, _⟩
  · rwa [same]
  · rwa [same]
  · have number := @firstFree_not_mem taken (Identifier.ofName name ++ "_" ++ kind.text) _ le_rfl 2
    rwa [fresh_of_taken plain ofKind]

theorem isCandidate_fresh (taken : List Text) (kind : Kind) (name : Text) :
    IsCandidate kind name (fresh taken kind name) := by
  rcases fresh_cases taken kind name with ⟨_, same⟩ | ⟨_, _, same⟩ | ⟨_, _, n, same⟩
  · rw [same]
    exact .plain
  · rw [same]
    exact .ofKind
  · rw [same]
    exact .numbered n

theorem register_of_some (found : r.find? kind name = some identifier) :
    r.register kind name = (identifier, r) := by
  rw [register, found]

theorem register_of_none (unknown : r.find? kind name = none) :
    r.register kind name = (fresh r.taken kind name,
      { entries := ((kind, name), fresh r.taken kind name) :: r.entries }) := by
  rw [register, unknown]

/-- Registering a resource is for this resource alone. -/
theorem find?_register (r : Registry) (kind : Kind) (name : Text) (other : Kind × Text) :
    (r.register kind name).2.find? other.1 other.2 =
      if other = (kind, name) then some (r.register kind name).1 else r.find? other.1 other.2 := by
  cases known : r.find? kind name with
  | some identifier =>
    rw [register_of_some known]
    split
    · rename_i same
      rw [same, known]
    · rfl
  | none =>
    rw [register_of_none known]
    by_cases same : other = (kind, name)
    · simp [find?, same]
    · have apart : ¬ (kind, name) = other := Ne.symm same
      simp [find?, same, apart]

theorem find?_register_self (r : Registry) (kind : Kind) (name : Text) :
    (r.register kind name).2.find? kind name = some (r.register kind name).1 := by
  have self := find?_register r kind name (kind, name)
  rwa [if_pos rfl] at self

theorem find?_register_of_some (found : r.find? key.1 key.2 = some identifier) (kind : Kind)
    (name : Text) : (r.register kind name).2.find? key.1 key.2 = some identifier := by
  rw [find?_register]
  split
  · rename_i same
    rw [same] at found
    rw [register_of_some found]
  · exact found

theorem taken_register (r : Registry) (kind : Kind) (name : Text) :
    (r.register kind name).2.taken =
      if r.find? kind name = none then fresh r.taken kind name :: r.taken else r.taken := by
  cases known : r.find? kind name with
  | some identifier =>
    rw [register_of_some known, if_neg nofun]
  | none =>
    rw [register_of_none known, if_pos rfl]
    rfl

theorem mem_taken_of_find? (found : r.find? kind name = some identifier) :
    identifier ∈ r.taken := by
  obtain ⟨entry, listed, rfl⟩ := Option.map_eq_some_iff.mp found
  exact List.mem_map_of_mem (List.mem_of_find?_eq_some listed)

/-- A registry in which each resource has one of its candidates, no two have the same, and nothing
is taken for no resource. -/
structure IsNaming (r : Registry) : Prop where
  candidate : ∀ {key : Kind × Text} {identifier},
    r.find? key.1 key.2 = some identifier → IsCandidate key.1 key.2 identifier
  injective : ∀ {key other : Kind × Text} {identifier},
    r.find? key.1 key.2 = some identifier → r.find? other.1 other.2 = some identifier → key = other
  owned : ∀ identifier ∈ r.taken, ∃ key : Kind × Text, r.find? key.1 key.2 = some identifier

theorem isNaming_empty : IsNaming {} where
  candidate found := by cases found
  injective found := by cases found
  owned _ member := by cases member

/-- A new resource gets a free identifier, so that the registry stays one that tells apart. -/
theorem IsNaming.register (naming : r.IsNaming) (kind : Kind) (name : Text) :
    (r.register kind name).2.IsNaming := by
  cases known : r.find? kind name with
  | some identifier =>
    rw [register_of_some known]
    exact naming
  | none =>
    have given : (r.register kind name).1 = fresh r.taken kind name := by
      rw [register_of_none known]
    have free {key : Kind × Text} : r.find? key.1 key.2 ≠ some (fresh r.taken kind name) :=
      fun found => fresh_not_mem r.taken kind name (mem_taken_of_find? found)
    refine ⟨?_, ?_, ?_⟩
    · intro key identifier found
      rw [find?_register, given] at found
      split at found
      · rename_i same
        cases found
        rw [same]
        exact isCandidate_fresh r.taken kind name
      · exact naming.candidate found
    · intro key other identifier first second
      rw [find?_register, given] at first second
      split at first <;> split at second
      · rename_i here there
        rw [here, there]
      · cases first
        exact absurd second free
      · cases second
        exact absurd first free
      · exact naming.injective first second
    · intro identifier member
      rw [taken_register, if_pos known] at member
      rcases List.mem_cons.mp member with rfl | member
      · exact ⟨(kind, name), given ▸ find?_register_self r kind name⟩
      · obtain ⟨key, found⟩ := naming.owned identifier member
        exact ⟨key, find?_register_of_some found kind name⟩

theorem registerAll_cons (r : Registry) (key : Kind × Text) (keys : List (Kind × Text)) :
    r.registerAll (key :: keys) = (r.register key.1 key.2).2.registerAll keys := rfl

theorem registerAll_append (r : Registry) (before after : List (Kind × Text)) :
    r.registerAll (before ++ after) = (r.registerAll before).registerAll after :=
  List.foldl_append

theorem IsNaming.registerAll (naming : r.IsNaming) (keys : List (Kind × Text)) :
    (r.registerAll keys).IsNaming := by
  induction keys generalizing r with
  | nil => exact naming
  | cons key keys ih => exact ih (naming.register key.1 key.2)

/-- Later resources change nothing for one that is registered. -/
theorem find?_registerAll_of_some (found : r.find? key.1 key.2 = some identifier)
    (keys : List (Kind × Text)) : (r.registerAll keys).find? key.1 key.2 = some identifier := by
  induction keys generalizing r with
  | nil => exact found
  | cons next keys ih => exact ih (find?_register_of_some found next.1 next.2)

theorem find?_registerAll_of_mem (member : key ∈ keys) :
    ∃ identifier, (r.registerAll keys).find? key.1 key.2 = some identifier := by
  induction keys generalizing r with
  | nil => cases member
  | cons next keys ih =>
    rcases List.mem_cons.mp member with rfl | member
    · exact ⟨_, find?_registerAll_of_some (find?_register_self r key.1 key.2) keys⟩
    · exact ih member

theorem find?_registerAll_of_not_mem (absent : key ∉ keys) :
    (r.registerAll keys).find? key.1 key.2 = r.find? key.1 key.2 := by
  induction keys generalizing r with
  | nil => rfl
  | cons next keys ih =>
    rw [List.mem_cons, not_or] at absent
    rw [registerAll_cons, ih absent.2, find?_register, if_neg absent.1]

/-- Whoever has an identifier was registered. -/
theorem mem_of_find?_registerAll
    (found : (registerAll {} keys).find? key.1 key.2 = some identifier) : key ∈ keys := by
  by_contra absent
  rw [find?_registerAll_of_not_mem absent] at found
  cases found

theorem exists_owner (taken : identifier ∈ (registerAll {} keys).taken) :
    ∃ owner ∈ keys, (registerAll {} keys).find? owner.1 owner.2 = some identifier := by
  obtain ⟨owner, found⟩ := (isNaming_empty.registerAll keys).owned identifier taken
  exact ⟨owner, mem_of_find?_registerAll found, found⟩

/-- What a resource gets when it is registered is what is looked up for it ever after. -/
theorem lookup_registerAll_cons (r : Registry) (key : Kind × Text) (after : List (Kind × Text)) :
    (r.registerAll (key :: after)).lookup key.1 key.2 = (r.register key.1 key.2).1 := by
  have found := find?_registerAll_of_some (find?_register_self r key.1 key.2) after
  rw [lookup, registerAll_cons, found]
  rfl

/-- A resource that was not registered before gets a fresh identifier. -/
theorem lookup_of_first {before : List (Kind × Text)} (first : key ∉ before)
    (after : List (Kind × Text)) :
    (registerAll {} (before ++ key :: after)).lookup key.1 key.2 =
      fresh (registerAll {} before).taken key.1 key.2 := by
  have unknown : (registerAll {} before).find? key.1 key.2 = none := by
    rw [find?_registerAll_of_not_mem first]
    rfl
  rw [registerAll_append, lookup_registerAll_cons, register_of_none unknown]

theorem lookup_of_find? (found : r.find? kind name = some identifier) :
    r.lookup kind name = identifier := by
  rw [lookup, found]
  rfl

theorem IsNaming.isCandidate_lookup (naming : r.IsNaming) (kind : Kind) (name : Text) :
    IsCandidate kind name (r.lookup kind name) := by
  cases known : r.find? kind name with
  | some identifier =>
    have found : r.find? (kind, name).1 (kind, name).2 = some identifier := known
    rw [lookup_of_find? known]
    exact naming.candidate found
  | none =>
    rw [lookup, known]
    exact .plain

/-- The identifiers of different resources differ. -/
theorem lookup_registerAll_inj {other : Kind × Text} (first : key ∈ keys) (second : other ∈ keys)
    (same : (registerAll {} keys).lookup key.1 key.2 =
      (registerAll {} keys).lookup other.1 other.2) : key = other := by
  obtain ⟨identifier, found⟩ := @find?_registerAll_of_mem {} _ _ first
  obtain ⟨another, found'⟩ := @find?_registerAll_of_mem {} _ _ second
  rw [lookup_of_find? found, lookup_of_find? found'] at same
  rw [← same] at found'
  exact (isNaming_empty.registerAll keys).injective found found'

/-- The identifiers given for different resources, in their order, are different. -/
theorem nodup_lookups (different : keys.Nodup) :
    (keys.map fun key => (registerAll {} keys).lookup key.1 key.2).Nodup :=
  List.Nodup.map_on (fun _ first _ second => lookup_registerAll_inj first second) different

end Registry

end DatafileMigration
