import DatafileMigration.Proofs.Module.Shadow
import DatafileMigration.Proofs.Module.Snake

namespace DatafileMigration.Registry

/-- The loop that a taken identifier sets off: while the candidate is taken, the next number makes
the next candidate. There is no bound on its steps; that it ends, and where, is what the bounded
search of the registry says. -/
inductive Search (taken : List Text) (base : Text) : Text → Nat → Text → Prop
  | stop {candidate n} (free : candidate ∉ taken) : Search taken base candidate n candidate
  | next {candidate n identifier} (occupied : candidate ∈ taken)
      (rest : Search taken base (base ++ "_" ++ Text.ofNat n) (n + 1) identifier) :
      Search taken base candidate n identifier

/-- One call: what it answers and the registry that it leaves. -/
inductive Call (r : Registry) (key : Kind × Text) : Text → Registry → Prop
  | known {identifier} (found : r.find? key.1 key.2 = some identifier) : Call r key identifier r
  | plain (unknown : r.find? key.1 key.2 = none) (free : Identifier.ofName key.2 ∉ r.taken) :
      Call r key (Identifier.ofName key.2)
        { entries := (key, Identifier.ofName key.2) :: r.entries }
  | suffixed {identifier} (unknown : r.find? key.1 key.2 = none)
      (occupied : Identifier.ofName key.2 ∈ r.taken)
      (search : Search r.taken (Identifier.ofName key.2 ++ "_" ++ key.1.text)
        (Identifier.ofName key.2 ++ "_" ++ key.1.text) 2 identifier) :
      Call r key identifier { entries := (key, identifier) :: r.entries }

/-- Calls one after the other. -/
inductive Calls : Registry → List (Kind × Text) → List Text → Registry → Prop
  | done {r} : Calls r [] [] r
  | call {r s q : Registry} {key keys identifier identifiers} (here : Call r key identifier s)
      (later : Calls s keys identifiers q) : Calls r (key :: keys) (identifier :: identifiers) q

variable {r s q : Registry} {taken : List Text} {base candidate identifier another : Text}
  {key : Kind × Text} {keys : List (Kind × Text)} {identifiers : List Text} {n fuel : Nat}

theorem Search.unique (search : Search taken base candidate n identifier)
    (search' : Search taken base candidate n another) : identifier = another := by
  induction search with
  | stop free =>
    cases search' with
    | stop => rfl
    | next occupied => exact absurd occupied free
  | next occupied _ ih =>
    cases search' with
    | stop free => exact absurd occupied free
    | next _ rest => exact ih rest

/-- A bounded search that comes to a free identifier went the way of the loop. -/
theorem search_firstFree (free : firstFree taken base fuel n ∉ taken) :
    Search taken base (base ++ "_" ++ Text.ofNat n) (n + 1) (firstFree taken base fuel n) := by
  induction fuel generalizing n with
  | zero => exact .stop free
  | succ fuel ih =>
    rw [firstFree] at free ⊢
    split
    · rename_i occupied
      rw [if_pos occupied] at free
      exact .next (List.contains_iff_mem.mp occupied) (ih free)
    · rename_i here
      rw [if_neg here] at free
      exact .stop free

theorem Call.unique (call : Call r key identifier s) (call' : Call r key another q) :
    identifier = another ∧ s = q := by
  cases call with
  | known found =>
    cases call' with
    | known found' =>
      rw [found, Option.some.injEq] at found'
      exact ⟨found', rfl⟩
    | plain unknown | suffixed unknown =>
      rw [found] at unknown
      cases unknown
  | plain unknown free =>
    cases call' with
    | known found =>
      rw [found] at unknown
      cases unknown
    | plain => exact ⟨rfl, rfl⟩
    | suffixed _ occupied => exact absurd occupied free
  | suffixed unknown occupied search =>
    cases call' with
    | known found =>
      rw [found] at unknown
      cases unknown
    | plain _ free => exact absurd occupied free
    | suffixed _ _ search' =>
      cases search.unique search'
      exact ⟨rfl, rfl⟩

/-- Every call ends. -/
theorem call_register (r : Registry) (key : Kind × Text) :
    Call r key (r.register key.1 key.2).1 (r.register key.1 key.2).2 := by
  cases known : r.find? key.1 key.2 with
  | some identifier =>
    rw [register_of_some known]
    exact .known known
  | none =>
    rw [register_of_none known]
    have ends := fresh_not_mem r.taken key.1 key.2
    rcases fresh_cases r.taken key.1 key.2 with
      ⟨free, same⟩ | ⟨occupied, free, same⟩ | ⟨occupied, kinded, _⟩
    · rw [same]
      exact .plain known free
    · rw [same]
      exact .suffixed known occupied (.stop free)
    · rw [fresh_of_taken occupied kinded] at ends ⊢
      exact .suffixed known occupied (.next kinded (search_firstFree ends))

theorem calls_iff :
    Calls r keys identifiers s ↔ identifiers = r.answers keys ∧ s = r.registerAll keys := by
  constructor
  · intro calls
    induction calls with
    | done => exact ⟨rfl, rfl⟩
    | @call r s q key keys identifier identifiers here _ ih =>
      obtain ⟨answer, next⟩ := here.unique (call_register r key)
      rw [answers, registerAll_cons, ← answer, ← next, ← ih.1]
      exact ⟨rfl, ih.2⟩
  · rintro ⟨rfl, rfl⟩
    induction keys generalizing r with
    | nil => exact .done
    | cons key keys ih => exact .call (call_register r key) ih

/-- What a registered resource has got is looked up for it ever after. -/
theorem lookup_registerAll_append {before : List (Kind × Text)} (member : key ∈ before)
    (after : List (Kind × Text)) :
    (registerAll {} (before ++ after)).lookup key.1 key.2 =
      (registerAll {} before).lookup key.1 key.2 := by
  obtain ⟨identifier, found⟩ := @find?_registerAll_of_mem {} _ _ member
  rw [registerAll_append, lookup_of_find? found]
  exact lookup_of_find? (find?_registerAll_of_some found after)

theorem getElem?_answers_eq_iff (keys : List (Kind × Text)) (i j : Nat) :
    (answers {} keys)[i]? = (answers {} keys)[j]? ↔ keys[i]? = keys[j]? := by
  rw [answers_eq_lookups, List.getElem?_map, List.getElem?_map]
  constructor
  · intro same
    cases first : keys[i]? with
    | none =>
      rw [first, Option.map_none, eq_comm, Option.map_eq_none_iff] at same
      rw [same]
    | some key =>
      rw [first, Option.map_some, eq_comm, Option.map_eq_some_iff] at same
      obtain ⟨other, second, lookups⟩ := same
      rw [second, lookup_registerAll_inj (List.mem_of_getElem? first)
        (List.mem_of_getElem? second) lookups.symm]
  · intro same
    rw [same]

/-- Whatever is registered, each call ends. Two calls answer the same exactly if they ask for the
same resource, later calls leave what is looked up for a registered resource, and every identifier
is a small letter or an underscore with small letters, digits and underscores behind it. -/
theorem registry_is_naming (keys : List (Kind × Text)) :
    (∀ identifiers r, Calls {} keys identifiers r ↔
        identifiers = answers {} keys ∧ r = registerAll {} keys) ∧
      (∀ i j : Nat, (answers {} keys)[i]? = (answers {} keys)[j]? ↔ keys[i]? = keys[j]?) ∧
      (∀ before after, keys = before ++ after → ∀ key ∈ before,
        (registerAll {} keys).lookup key.1 key.2 = (registerAll {} before).lookup key.1 key.2) ∧
      ∀ identifier ∈ answers {} keys, Identifier.isSnake identifier := by
  refine ⟨fun _ _ => calls_iff, getElem?_answers_eq_iff keys, ?_, ?_⟩
  · rintro before after rfl key member
    exact lookup_registerAll_append member after
  · intro identifier member
    rw [answers_eq_lookups] at member
    obtain ⟨key, _, rfl⟩ := List.mem_map.mp member
    exact ((isNaming_empty.registerAll keys).isCandidate_lookup key.1 key.2).isSnake

end DatafileMigration.Registry
