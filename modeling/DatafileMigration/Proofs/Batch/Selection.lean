import DatafileMigration.Batch.Reference
import DatafileMigration.Proofs.Batch.Complete

namespace DatafileMigration

/-- Resources behind `before`, each with all that stand before it. -/
def places (before : List Resource) : List Resource → List (List Resource × Resource)
  | [] => []
  | r :: rest => (before, r) :: places (before ++ [r]) rest

/-- No resource before it has its kind and name. -/
def isFirst (place : List Resource × Resource) : Bool := place.1.all (·.key ≠ place.2.key)

/-- The first resource of each kind and name, in order. -/
def firsts (rs : List Resource) : List Resource := ((places [] rs).filter isFirst).map (·.2)

/-- The other resources, in order. -/
def repeats (rs : List Resource) : List Resource := ((places [] rs).filter (!isFirst ·)).map (·.2)

variable {before seen rs rest : List Resource} {r c : Resource} {place : List Resource × Resource}

theorem mem_places : place ∈ places before rs ↔
    ∃ mid after, rs = mid ++ place.2 :: after ∧ place.1 = before ++ mid := by
  induction rs generalizing before with
  | nil => simp [places]
  | cons r rest ih =>
    rw [places, List.mem_cons, ih]
    constructor
    · rintro (rfl | ⟨mid, after, rfl, ahead⟩)
      · exact ⟨[], rest, rfl, (List.append_nil _).symm⟩
      · exact ⟨r :: mid, after, rfl, by rw [ahead, List.append_assoc, List.singleton_append]⟩
    · rintro ⟨mid, after, whole, ahead⟩
      cases mid with
      | nil =>
        obtain ⟨rfl, rfl⟩ := List.cons.inj whole
        exact Or.inl (Prod.ext (ahead.trans (List.append_nil _)) rfl)
      | cons s mid =>
        obtain ⟨rfl, rfl⟩ := List.cons.inj whole
        refine Or.inr ⟨mid, after, rfl, ?_⟩
        rw [ahead, List.append_assoc, List.singleton_append]

theorem isFirst_iff : isFirst (before, r) = true ↔ before.find? (·.key = r.key) = none := by
  simp [isFirst]

/-- Kinds and names of first resources are all different, and different from those before. -/
theorem nodup_firsts : (((places before rs).filter isFirst).map (·.2.key)).Nodup ∧
    ∀ place ∈ (places before rs).filter isFirst, ∀ s ∈ before, s.key ≠ place.2.key := by
  induction rs generalizing before with
  | nil => simp [places]
  | cons r rest ih =>
    obtain ⟨distinct, fresh⟩ := @ih (before ++ [r])
    have fresh' : ∀ place ∈ (places (before ++ [r]) rest).filter isFirst, ∀ s ∈ before,
        s.key ≠ place.2.key :=
      fun place member s ahead => fresh place member s (List.mem_append_left _ ahead)
    rw [places]
    cases first : isFirst (before, r) with
    | false =>
      rw [List.filter_cons_of_neg (by simp [first])]
      exact ⟨distinct, fresh'⟩
    | true =>
      rw [List.filter_cons_of_pos first]
      constructor
      · refine List.nodup_cons.mpr ⟨fun twice => ?_, distinct⟩
        obtain ⟨place, member, same⟩ := List.mem_map.mp twice
        exact fresh place member r (List.mem_append_right _ List.mem_cons_self) same.symm
      · refine List.forall_mem_cons.mpr ⟨?_, fresh'⟩
        simpa [isFirst] using first

/-- Places and their duplicates: one for each resource that is not the first, with the path of the
one that is. -/
theorem keepFirsts_eq (known : ∀ key, seen.find? (·.key = key) = before.find? (·.key = key)) :
    (keepFirsts seen rs).1 = ((places before rs).filter isFirst).map (·.2) ∧
    List.Forall₂ (fun place d => ∃ first, place.1.find? (·.key = place.2.key) = some first ∧
        d = { resource := place.2, first := first.path })
      ((places before rs).filter (!isFirst ·)) (keepFirsts seen rs).2 := by
  induction rs generalizing before seen with
  | nil => exact ⟨rfl, .nil⟩
  | cons r rest ih =>
    rw [places, keepFirsts, known r.key]
    cases found : before.find? (·.key = r.key) with
    | some first =>
      have repeated : isFirst (before, r) = false := by
        rw [Bool.eq_false_iff, Ne, isFirst_iff, found]
        exact Option.some_ne_none _
      have known' : ∀ key, seen.find? (·.key = key) = (before ++ [r]).find? (·.key = key) := by
        intro key
        rw [known, List.find?_append]
        by_cases same : r.key = key
        · rw [← same, found]
          rfl
        · simp [same]
      obtain ⟨kept, duplicates⟩ := ih known'
      rw [List.filter_cons_of_neg (by simp [repeated]),
        List.filter_cons_of_pos (by simp [repeated])]
      exact ⟨kept, .cons ⟨first, found, rfl⟩ duplicates⟩
    | none =>
      have leads : isFirst (before, r) = true := isFirst_iff.mpr found
      have known' : ∀ key,
          (r :: seen).find? (·.key = key) = (before ++ [r]).find? (·.key = key) := by
        intro key
        rw [List.find?_cons, known, List.find?_append]
        by_cases same : r.key = key
        · rw [← same, found]
          simp
        · simp [same]
      obtain ⟨kept, duplicates⟩ := ih known'
      rw [List.filter_cons_of_pos leads, List.filter_cons_of_neg (by simp [leads])]
      exact ⟨congrArg (r :: ·) kept, duplicates⟩

/-- Where kinds and names are all different, every resource is kept. -/
theorem keepFirsts_of_nodup (distinct : (rs.map Resource.key).Nodup)
    (fresh : ∀ r ∈ rs, seen.find? (·.key = r.key) = none) : keepFirsts seen rs = (rs, []) := by
  induction rs generalizing seen with
  | nil => rfl
  | cons r rest ih =>
    rw [List.forall_mem_cons] at fresh
    rw [List.map_cons, List.nodup_cons] at distinct
    have fresh' : ∀ s ∈ rest, (r :: seen).find? (·.key = s.key) = none := by
      intro s member
      have apart : r.key ≠ s.key := fun same => distinct.1 (same ▸ List.mem_map_of_mem member)
      rw [List.find?_cons_of_neg (by simp [apart]), fresh.2 s member]
    rw [keepFirsts, fresh.1, ih distinct.2 fresh']

/-- An endpoint that has no output columns asks its last node for them. -/
structure Pipe.Asks (p : Pipe) (node : Node) : Prop where
  endpoint : p.type = .endpoint
  unknown : p.outputColumns = []
  last : p.outputNode? = some node

/-- What becomes of a resource by completion: nothing, or an endpoint gets the output columns of
the node that it asks. -/
inductive Resource.Completed : Resource → Resource → Prop
  | same (r : Resource) : (∀ p node, r = .pipe p → ¬ p.Asks node) → Completed r r
  | inferred {p node columns} : p.Asks node → Query.outputColumns node.sql = .ok columns →
      Completed (.pipe p) (.pipe { p with outputColumns := columns })

theorem Pipe.complete_of_asks {p : Pipe} {node : Node} (asks : p.Asks node) :
    p.complete = (Query.outputColumns node.sql).map ({ p with outputColumns := · }) := by
  rw [complete, if_pos (by simp [asks.endpoint, asks.unknown])]
  simp only [asks.last]
  cases read : Query.outputColumns node.sql <;> rfl

theorem Pipe.complete_of_not_asks {p : Pipe} (content : ∀ node, ¬ p.Asks node) :
    p.complete = .ok p := by
  unfold complete
  split
  · rename_i asks
    simp only [Bool.and_eq_true, decide_eq_true_eq] at asks
    cases last : p.outputNode? with
    | none => rfl
    | some node => exact absurd ⟨asks.1, asks.2, last⟩ (content node)
  · rfl

theorem Resource.completed_iff : r.complete = .ok c ↔ r.Completed c := by
  by_cases asking : ∃ p node, r = .pipe p ∧ p.Asks node
  · obtain ⟨p, node, rfl, asks⟩ := asking
    rw [complete, Pipe.complete_of_asks asks, map_eq_ok]
    constructor
    · rintro ⟨q, made, rfl⟩
      obtain ⟨columns, read, rfl⟩ := map_eq_ok.mp made
      exact .inferred asks read
    · rintro (⟨_, content⟩ | ⟨other, read⟩)
      · exact absurd asks (content p node rfl)
      · obtain rfl := Option.some.inj (asks.last.symm.trans other.last)
        exact ⟨_, map_eq_ok.mpr ⟨_, read, rfl⟩, rfl⟩
  · have content : ∀ p node, r = .pipe p → ¬ p.Asks node :=
      fun p node same asks => asking ⟨p, node, same, asks⟩
    have whole : r.complete = .ok r := by
      cases r with
      | connection c => rfl
      | datasource d => rfl
      | pipe p => rw [complete, Pipe.complete_of_not_asks fun node => content p node rfl]; rfl
    rw [whole]
    constructor
    · intro same
      cases same
      exact .same _ content
    · rintro (_ | ⟨asks, _⟩)
      · rfl
      · exact absurd asks (content _ _ rfl)

/-- What is completed is complete. -/
theorem Resource.Completed.again (completed : r.Completed c) : c.complete = .ok c := by
  cases completed with
  | same _ content => exact completed_iff.mpr (.same _ content)
  | @inferred p node columns asks read =>
    by_cases unknown : columns = []
    · -- The node is asked once more, and has no columns once more.
      subst unknown
      have asks' : Pipe.Asks { p with outputColumns := [] } node := ⟨asks.endpoint, rfl, asks.last⟩
      exact completed_iff.mpr (.inferred asks' read)
    · refine completed_iff.mpr (.same _ ?_)
      rintro q other ⟨rfl⟩ asks'
      exact unknown asks'.unknown

theorem Resource.Completed.key (completed : r.Completed c) : c.key = r.key := by
  cases completed <;> rfl

/-- A batch in normal form has the first resource of each kind and name, completed, and one
duplicate for each other resource, with the path of the first one. -/
structure Normalized.Selects (n : Normalized) (rs : List Resource) : Prop where
  kept : List.Forall₂ Resource.Completed (firsts rs) n.kept
  duplicates : List.Forall₂ (fun r d => ∃ first, rs.find? (·.key = r.key) = some first ∧
    d = { resource := r, first := first.path }) (repeats rs) n.duplicates

theorem keepFirsts_firsts (rs : List Resource) : (keepFirsts [] rs).1 = firsts rs :=
  (keepFirsts_eq fun _ => rfl).1

theorem keepFirsts_repeats (rs : List Resource) :
    List.Forall₂ (fun r d => ∃ first, rs.find? (·.key = r.key) = some first ∧
      d = { resource := r, first := first.path }) (repeats rs) (keepFirsts [] rs).2 := by
  rw [repeats, List.forall₂_map_left_iff]
  have placed : ∀ place ∈ (places [] rs).filter (!isFirst ·), place ∈ places [] rs :=
    fun place member => (List.mem_filter.mp member).1
  refine ((List.forall₂_and_left _ _).mpr ⟨placed, (keepFirsts_eq fun _ => rfl).2⟩).imp ?_
  rintro ⟨ahead, r⟩ d ⟨member, first, found, rfl⟩
  obtain ⟨mid, after, whole, stands⟩ := mem_places.mp member
  obtain rfl : ahead = mid := stands
  refine ⟨first, ?_, rfl⟩
  rw [whole, List.find?_append, found]
  rfl

theorem normalize_eq_ok {n : Normalized} : normalize rs = .ok n ↔
    List.Forall₂ Resource.Completed (firsts rs) n.kept ∧ n.duplicates = (keepFirsts [] rs).2 := by
  have kept_iff (kept : List Resource) : (keepFirsts [] rs).1.mapM Resource.complete = .ok kept ↔
      List.Forall₂ Resource.Completed (firsts rs) kept := by
    rw [keepFirsts_firsts, mapM_eq_ok]
    exact ⟨fun each => each.imp fun _ _ => Resource.completed_iff.mp,
      fun each => each.imp fun _ _ => Resource.completed_iff.mpr⟩
  constructor
  · intro normal
    obtain ⟨kept, completed, made⟩ := bind_eq_ok.mp normal
    obtain rfl := Except.ok.inj made
    exact ⟨(kept_iff kept).mp completed, rfl⟩
  · rintro ⟨kept, duplicates⟩
    refine bind_eq_ok.mpr ⟨n.kept, (kept_iff n.kept).mpr kept, ?_⟩
    rw [← duplicates]
    rfl

theorem Normalized.selects {n : Normalized} (normal : normalize rs = .ok n) : n.Selects rs := by
  obtain ⟨kept, duplicates⟩ := normalize_eq_ok.mp normal
  exact ⟨kept, duplicates ▸ keepFirsts_repeats rs⟩

theorem Normalized.Selects.nodup {n : Normalized} (selects : n.Selects rs) :
    (n.kept.map Resource.key).Nodup := by
  have keys : n.kept.map Resource.key = (firsts rs).map Resource.key := by
    rw [← List.forall₂_eq_eq_eq, List.forall₂_map_left_iff, List.forall₂_map_right_iff]
    exact selects.kept.flip.imp fun _ _ completed => completed.key
  rw [keys, firsts, List.map_map]
  exact nodup_firsts.1

/-- What is kept is kept again, with no duplicates. -/
theorem Normalized.Selects.again {n : Normalized} (selects : n.Selects rs) :
    normalize n.kept = .ok { kept := n.kept, duplicates := [] } := by
  have single : keepFirsts [] n.kept = (n.kept, []) :=
    keepFirsts_of_nodup selects.nodup fun _ _ => rfl
  have same : n.kept.mapM Resource.complete = .ok n.kept := by
    refine mapM_eq_ok.mpr (List.forall₂_same.mpr fun c member => ?_)
    obtain ⟨i, bound, rfl⟩ := List.mem_iff_getElem.mp member
    have bound' : i < (firsts rs).length := selects.kept.length_eq ▸ bound
    exact (selects.kept.get bound' bound).again
  rw [normalize, single]
  exact bind_eq_ok.mpr ⟨n.kept, same, rfl⟩

/-- Where every endpoint that asks for its output columns gets them, a batch has a normal form. It
selects the first resource of each kind and name, and what it keeps is in normal form already, with
the same warnings. -/
theorem normalize_selects (inferred : ∀ p node, .pipe p ∈ firsts rs → p.Asks node →
      ∃ columns, Query.outputColumns node.sql = .ok columns) :
    ∃ n, normalize rs = .ok n ∧ n.Selects rs ∧
      ∃ again, normalize n.kept = .ok again ∧ again.kept = n.kept ∧ again.duplicates = [] ∧
        referenceWarnings again.kept = referenceWarnings n.kept := by
  have completed : ∀ r ∈ firsts rs, ∃ c, r.complete = .ok c := by
    intro r member
    by_cases asking : ∃ p node, r = .pipe p ∧ p.Asks node
    · obtain ⟨p, node, rfl, asks⟩ := asking
      obtain ⟨columns, read⟩ := inferred p node member asks
      exact ⟨_, Resource.completed_iff.mpr (.inferred asks read)⟩
    · exact ⟨r, Resource.completed_iff.mpr (.same r fun p node same asks =>
        asking ⟨p, node, same, asks⟩)⟩
  obtain ⟨kept, made⟩ := exists_mapM_eq_ok.mpr completed
  have normal : normalize rs = .ok { kept, duplicates := (keepFirsts [] rs).2 } := by
    refine bind_eq_ok.mpr ⟨kept, ?_, rfl⟩
    rw [keepFirsts_firsts]
    exact made
  have selects := Normalized.selects normal
  exact ⟨_, normal, selects, _, selects.again, rfl, rfl, rfl⟩

/-- Two endpoints of one name, without output columns. -/
def sameName : List Resource := [
  .pipe { name := "p", path := "a.pipe", type := .endpoint, nodes := [⟨"n", none, "SELECT 1"⟩] },
  .pipe { name := "p", path := "b.pipe", type := .endpoint, nodes := [⟨"n", none, "SELECT 2"⟩] }]

theorem normalize_selects_sameName :
    (∀ p node, .pipe p ∈ firsts sameName → p.Asks node →
      ∃ columns, Query.outputColumns node.sql = .ok columns) ∧
    ∃ n, normalize sameName = .ok n ∧ n.Selects sameName ∧
      ∃ again, normalize n.kept = .ok again ∧ again.kept = n.kept ∧ again.duplicates = [] ∧
        referenceWarnings again.kept = referenceWarnings n.kept := by
  have calm : ¬ Query.StrayLetter 0 "SELECT 1" := by
    have word : Query.StrayLetter 0 "SELECT 1" ↔ Query.StrayLetter 0 " 1" :=
      Query.strayLetter_word (by decide) (by decide) (by decide)
    have blank : Query.StrayLetter 0 " 1" ↔ Query.StrayLetter 0 "1" :=
      Query.strayLetter_other (by decide) (by decide) (by decide) (by decide)
    have digit : Query.StrayLetter 0 "1" ↔ Query.StrayLetter 0 [] :=
      Query.strayLetter_other (by decide) (by decide) (by decide) (by decide)
    rw [word, blank, digit]
    exact Query.not_strayLetter_nil
  have inferred : ∀ p node, .pipe p ∈ firsts sameName → p.Asks node →
      ∃ columns, Query.outputColumns node.sql = .ok columns := by
    intro p node member asks
    obtain ⟨⟩ := List.mem_singleton.mp (show Resource.pipe p ∈ [_] from member)
    obtain rfl := Option.some.inj asks.last
    cases read : Query.outputColumns "SELECT 1" with
    | ok columns => exact ⟨columns, read⟩
    | error why => exact absurd (Query.outputColumns_breaks.mp ⟨why, read⟩) calm
  exact ⟨inferred, normalize_selects inferred⟩

end DatafileMigration
