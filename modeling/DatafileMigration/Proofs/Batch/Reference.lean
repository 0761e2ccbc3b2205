import DatafileMigration.Batch.Reference
import DatafileMigration.Proofs.Module.Order

namespace DatafileMigration

variable {rs ss us : List Resource} {r : Resource} {name : Text} {fault : ReferenceFault}
  {binding : Binding} {w v : Warning}

theorem mem_referenceWarnings : w ∈ referenceWarnings rs ↔
    w.resource ∈ rs ∧ w.resource.referenceFault? rs = some w.fault := by
  rw [referenceWarnings, List.mem_filterMap]
  constructor
  · rintro ⟨r, member, made⟩
    obtain ⟨fault, found, rfl⟩ := Option.map_eq_some_iff.mp made
    exact ⟨member, found⟩
  · rintro ⟨member, found⟩
    exact ⟨w.resource, member, Option.map_eq_some_iff.mpr ⟨w.fault, found, rfl⟩⟩

/-- A notice tells the kind and the name of the resource that it is about. -/
theorem Warning.key_of_notice (same : v.notice = w.notice) : v.resource.key = w.resource.key := by
  have sameKind : some v.resource.kind = some w.resource.kind := congrArg Notice.kind same
  have sameName : v.resource.name = w.resource.name := congrArg Notice.name same
  rw [Resource.key, Resource.key, Option.some.inj sameKind, sameName]

theorem hasDatasource_iff :
    hasDatasource rs name ↔ ∃ r ∈ rs, r.key = (.datasource, name) := by
  simp [hasDatasource, Resource.key]

theorem hasDatasource_append :
    hasDatasource (rs ++ us) name = (hasDatasource rs name || hasDatasource us name) :=
  List.any_append

theorem connectionBinding?_eq_some (distinct : (rs.map Resource.key).Nodup) :
    connectionBinding? rs name = some binding ↔
      ∃ c : Connection, .connection c ∈ rs ∧ (Resource.connection c).name = name ∧
        c.binding = binding := by
  have sound : ∀ b, connectionBinding? rs name = some b → ∃ c : Connection, .connection c ∈ rs ∧
      (Resource.connection c).name = name ∧ c.binding = b := by
    intro b found
    obtain ⟨r, member, bound⟩ := List.exists_of_findSome?_eq_some found
    cases r with
    | connection c =>
      rw [Option.ite_none_right_eq_some] at bound
      exact ⟨c, member, bound.1, Option.some.inj bound.2⟩
    | datasource d => cases bound
    | pipe p => cases bound
  refine ⟨sound binding, ?_⟩
  rintro ⟨c, member, named, rfl⟩
  cases found : connectionBinding? rs name with
  | none =>
    have free := List.findSome?_eq_none_iff.mp found _ member
    dsimp only at free
    rw [if_pos named] at free
    cases free
  | some b =>
    obtain ⟨other, member', named', rfl⟩ := sound b found
    have sameKey : (Resource.connection other).key = (Resource.connection c).key :=
      congrArg (Prod.mk Kind.connection) (named'.trans named.symm)
    cases List.inj_on_of_nodup_map distinct member' member sameKey
    rfl

/-- References do not depend on the order of a batch. -/
theorem Resource.referenceFault?_perm (perm : rs.Perm ss) (distinct : (rs.map Resource.key).Nodup)
    (r : Resource) : r.referenceFault? rs = r.referenceFault? ss := by
  have distinct' : (ss.map Resource.key).Nodup := (perm.map Resource.key).nodup_iff.mp distinct
  have datasources : ∀ name, hasDatasource rs name = hasDatasource ss name := by
    intro name
    rw [Bool.eq_iff_iff, hasDatasource_iff, hasDatasource_iff]
    simp only [perm.mem_iff]
  have connections : ∀ name, connectionBinding? rs name = connectionBinding? ss name := by
    intro name
    refine Option.ext fun b => ?_
    rw [connectionBinding?_eq_some distinct, connectionBinding?_eq_some distinct']
    simp only [perm.mem_iff]
  cases r with
  | connection c => rfl
  | datasource d => simp only [referenceFault?, connections]
  | pipe p => simp only [referenceFault?, datasources]

theorem referenceWarnings_perm (perm : rs.Perm ss) (distinct : (rs.map Resource.key).Nodup) :
    (referenceWarnings rs).Perm (referenceWarnings ss) := by
  rw [referenceWarnings, referenceWarnings]
  simp only [Resource.referenceFault?_perm perm distinct]
  exact perm.filterMap _

/-- A pipe fills a datasource that is among resources. -/
def Resource.Fills (rs : List Resource) (r : Resource) : Prop :=
  ∃ p name, r = .pipe p ∧ p.target? = some name ∧ name ≠ [] ∧ hasDatasource rs name

/-- More resources, none of them a connection, take away the warnings about pipes that fill them. -/
theorem Resource.referenceFault?_append (free : ∀ c, .connection c ∉ us) :
    r.referenceFault? (rs ++ us) = some fault ↔
      r.referenceFault? rs = some fault ∧ ¬ r.Fills us := by
  have connections : ∀ name, connectionBinding? (rs ++ us) name = connectionBinding? rs name := by
    intro name
    have nothing : connectionBinding? us name = none := by
      rw [connectionBinding?, List.findSome?_eq_none_iff]
      intro r member
      cases r with
      | connection c => exact absurd member (free c)
      | datasource d => rfl
      | pipe p => rfl
    rw [connectionBinding?, List.findSome?_append, ← connectionBinding?, ← connectionBinding?,
      nothing, Option.or_none]
  cases r with
  | connection c => simp [referenceFault?]
  | datasource d =>
    have apart : ¬ (Resource.datasource d).Fills us := by
      rintro ⟨p, _, other, _⟩
      cases other
    simp [referenceFault?, connections, apart]
  | pipe p =>
    rw [referenceFault?, referenceFault?]
    cases target : p.target? with
    | none => simp
    | some name =>
      cases name with
      | nil => simp
      | cons c name =>
        have fills : (Resource.pipe p).Fills us ↔ hasDatasource us (c :: name) := by
          simp [Fills, target]
        dsimp only
        rw [fills, hasDatasource_append]
        cases hasDatasource us (c :: name) <;> simp

/-- A pipe that fills a datasource of one list fills none of a list that shares no key with it. -/
theorem Resource.Fills.exists_fault (fills : r.Fills us)
    (apart : (rs.map Resource.key).Disjoint (us.map Resource.key)) :
    ∃ fault, r.referenceFault? rs = some fault := by
  obtain ⟨p, name, rfl, target, solid, present⟩ := fills
  obtain ⟨d, member, key⟩ := hasDatasource_iff.mp present
  have absent : ¬ hasDatasource rs name := by
    intro also
    obtain ⟨e, member', key'⟩ := hasDatasource_iff.mp also
    exact apart (List.mem_map.mpr ⟨e, member', key'⟩) (List.mem_map.mpr ⟨d, member, key⟩)
  refine ⟨.missingTarget name, ?_⟩
  rw [Resource.referenceFault?, target]
  cases name with
  | nil => exact absurd rfl solid
  | cons c name => exact if_neg absent

/-- More resources change no warning if they have none and nothing fills them. -/
theorem referenceWarnings_append (free : ∀ c, .connection c ∉ us)
    (silent : ∀ r ∈ us, r.referenceFault? (rs ++ us) = none)
    (unfilled : ∀ r ∈ rs, ¬ r.Fills us) :
    referenceWarnings (rs ++ us) = referenceWarnings rs := by
  have others : us.filterMap (fun r => (r.referenceFault? (rs ++ us)).map
      fun fault => ({ resource := r, fault } : Warning)) = [] := by
    refine List.filterMap_eq_nil_iff.mpr fun r member => ?_
    rw [silent r member]
    rfl
  rw [referenceWarnings, List.filterMap_append, others, List.append_nil, referenceWarnings]
  refine List.filterMap_congr fun r member => ?_
  have same : r.referenceFault? (rs ++ us) = r.referenceFault? rs := by
    refine Option.ext fun fault => ?_
    rw [Resource.referenceFault?_append free]
    exact and_iff_left (unfilled r member)
  rw [same]

end DatafileMigration
