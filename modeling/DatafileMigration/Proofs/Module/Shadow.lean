import DatafileMigration.Module.Assembly
import DatafileMigration.Proofs.Fault.Yields
import DatafileMigration.Proofs.Module.Naming

namespace DatafileMigration

/-- Kinds and plain identifiers that make up an imported name together. -/
def shadowingStems : List (Kind × Text) :=
  [(.connection, "create_kafka"), (.connection, "create_s3"), (.datasource, "define"),
   (.pipe, "define"), (.pipe, "define_copy")]

namespace Identifier

variable {base name : Text} {kind : Kind}

/-- In front of the last digits of a candidate stands the underscore that was put there. -/
theorem marked_tail (base : Text) {digits : Text} (solid : ∀ c ∈ digits, c.isDigit) :
    ((base ++ "_" ++ digits).reverse.dropWhile Char.isDigit).head? = some '_' := by
  have reversed : ∀ c ∈ digits.reverse, c.isDigit := fun c member =>
    solid c (List.mem_reverse.mp member)
  have lettered : ¬ '_'.isDigit = true := by decide
  rw [List.reverse_append, List.dropWhile_append_of_pos reversed, List.reverse_append]
  exact congrArg List.head? (List.dropWhile_cons_of_neg lettered)

/-- No word of the tables has an underscore there. -/
theorem marked_free (base : Text) {digits : Text} (solid : ∀ c ∈ digits, c.isDigit) :
    base ++ "_" ++ digits ∉ reservedWords ∧ base ++ "_" ++ digits ∉ sdkNames := by
  have lettered : ∀ w ∈ reservedWords ++ sdkNames,
      (w.reverse.dropWhile Char.isDigit).head? ≠ some '_' := by
    unfold reservedWords sdkNames
    repeat rw [String.toList_ofList]
    decide +kernel
  exact ⟨fun member => lettered _ (List.mem_append_left _ member) (marked_tail base solid),
    fun member => lettered _ (List.mem_append_right _ member) (marked_tail base solid)⟩

theorem guardReserved_free (t : Text) :
    guardReserved t ∉ reservedWords ∧ guardReserved t ∉ sdkNames := by
  unfold guardReserved
  split
  · have free := marked_free t (List.forall_mem_nil _)
    rwa [List.append_nil] at free
  · rename_i free
    rwa [Bool.or_eq_true, List.contains_iff_mem, List.contains_iff_mem, not_or] at free

theorem ofKind_mem_sdkNames :
    base ++ "_" ++ kind.text ∈ sdkNames ↔ (kind, base) ∈ shadowingStems := by
  have cut : ∀ kind ∈ Kind.all, ∀ w ∈ sdkNames, ∀ base ∈ Text.dropSuffix? ("_" ++ kind.text) w,
      (kind, base) ∈ shadowingStems := by decide +kernel
  have put : ∀ stem ∈ shadowingStems, stem.2 ++ "_" ++ stem.1.text ∈ sdkNames := by
    decide +kernel
  constructor
  · intro member
    refine cut kind (by cases kind <;> decide) _ member base ?_
    exact Text.dropSuffix?_eq_some_iff.mpr (List.append_assoc ..)
  · intro member
    exact put (kind, base) member

theorem ofKind_not_mem_reservedWords : base ++ "_" ++ kind.text ∉ reservedWords := by
  have plain : ∀ w ∈ reservedWords, '_' ∉ w := by decide
  intro member
  refine plain _ member ?_
  rw [List.append_assoc]
  exact List.mem_append_right _ List.mem_cons_self

end Identifier

open Identifier

namespace IsCandidate

variable {identifier name : Text} {kind : Kind}

theorem not_mem_reservedWords (candidate : IsCandidate kind name identifier) :
    identifier ∉ reservedWords := by
  cases candidate with
  | plain => exact (guardReserved_free _).1
  | ofKind => exact ofKind_not_mem_reservedWords
  | numbered => exact (marked_free _ fun _ => Text.isDigit_of_mem_ofNat).1

/-- Only the identifier with the kind can be an imported name. -/
theorem of_mem_sdkNames (candidate : IsCandidate kind name identifier)
    (member : identifier ∈ sdkNames) :
    identifier = ofName name ++ "_" ++ kind.text ∧ (kind, ofName name) ∈ shadowingStems := by
  cases candidate with
  | plain => exact absurd member (guardReserved_free _).2
  | ofKind => exact ⟨rfl, ofKind_mem_sdkNames.mp member⟩
  | numbered => exact absurd member (marked_free _ fun _ => Text.isDigit_of_mem_ofNat).2

/-- A stem is the plain identifier of whoever has it. -/
theorem of_shadowingStem {stem : Kind × Text} (listed : stem ∈ shadowingStems)
    (candidate : IsCandidate kind name stem.2) : ofName name = stem.2 := by
  have unkinded : ∀ stem ∈ shadowingStems, ∀ kind ∈ Kind.all,
      Text.dropSuffix? ("_" ++ kind.text) stem.2 = none := by decide
  have lettered : ∀ stem ∈ shadowingStems,
      (stem.2.reverse.dropWhile Char.isDigit).head? ≠ some '_' := by decide
  generalize same : stem.2 = t at candidate
  cases candidate with
  | plain => rfl
  | ofKind =>
    have none := unkinded stem listed kind (by cases kind <;> decide)
    rw [same, List.append_assoc, Text.dropSuffix?_eq_some_iff.mpr rfl] at none
    cases none
  | numbered =>
    refine absurd ?_ (lettered stem listed)
    rw [same]
    exact marked_tail _ fun _ => Text.isDigit_of_mem_ofNat

end IsCandidate

namespace Registry

variable {r : Registry} {keys : List (Kind × Text)} {key : Kind × Text}

/-- The identifiers that resources get when they are registered one after the other. -/
def answers (r : Registry) : List (Kind × Text) → List Text
  | [] => []
  | key :: keys => (r.register key.1 key.2).1 :: answers (r.register key.1 key.2).2 keys

theorem answers_eq_lookups (r : Registry) (keys : List (Kind × Text)) :
    r.answers keys = keys.map fun key => (r.registerAll keys).lookup key.1 key.2 := by
  induction keys generalizing r with
  | nil => rfl
  | cons key keys ih =>
    rw [answers, ih, List.map_cons, lookup_registerAll_cons, registerAll_cons]

/-- The plain identifier of a registered resource is taken, be it by another one. -/
theorem ofName_mem_taken (member : key ∈ keys) :
    ofName key.2 ∈ (registerAll {} keys).taken := by
  obtain ⟨before, after, rfl, first⟩ := List.eq_append_cons_of_mem member
  have given := lookup_of_first first after
  obtain ⟨identifier, found⟩ := @find?_registerAll_of_mem {} _ _ member
  rw [lookup_of_find? found] at given
  have own := mem_taken_of_find? found
  rcases fresh_cases (registerAll {} before).taken key.1 key.2 with
    ⟨_, same⟩ | ⟨taken, _⟩ | ⟨taken, _⟩
  · rwa [given, same] at own
  all_goals
    obtain ⟨owner, _, earlier⟩ := exists_owner taken
    have kept := find?_registerAll_of_some earlier (key :: after)
    rw [← registerAll_append] at kept
    exact mem_taken_of_find? kept

theorem answer_of_taken {t : Text} (taken : t ∈ (registerAll {} keys).taken)
    (after : List (Kind × Text)) : t ∈ answers {} (keys ++ after) := by
  obtain ⟨owner, registered, found⟩ := exists_owner taken
  have final := find?_registerAll_of_some found after
  rw [← registerAll_append] at final
  rw [answers_eq_lookups, ← lookup_of_find? final]
  exact List.mem_map_of_mem (List.mem_append_left _ registered)

/-- No identifier is a word of the language. One is an imported name exactly if a resource is
registered behind another one of the same plain identifier, and this makes up an imported name
together with its kind. -/
theorem register_shadows_iff (keys : List (Kind × Text)) :
    (∀ identifier ∈ answers {} keys, identifier ∉ reservedWords) ∧
      ((∃ identifier ∈ answers {} keys, identifier ∈ sdkNames) ↔
        ∃ before key after, keys = before ++ key :: after ∧ key ∉ before ∧
          (key.1, ofName key.2) ∈ shadowingStems ∧
            ∃ other ∈ before, ofName other.2 = ofName key.2) := by
  have naming := isNaming_empty.registerAll keys
  refine ⟨?_, ?_, ?_⟩
  · intro identifier member
    rw [answers_eq_lookups] at member
    obtain ⟨key, _, rfl⟩ := List.mem_map.mp member
    exact (naming.isCandidate_lookup key.1 key.2).not_mem_reservedWords
  · rintro ⟨identifier, member, imported⟩
    rw [answers_eq_lookups] at member
    obtain ⟨key, registered, rfl⟩ := List.mem_map.mp member
    obtain ⟨kinded, stem⟩ := (naming.isCandidate_lookup key.1 key.2).of_mem_sdkNames imported
    obtain ⟨before, after, rfl, first⟩ := List.eq_append_cons_of_mem registered
    rw [lookup_of_first first] at kinded
    obtain ⟨owner, earlier, found⟩ := exists_owner (ofName_mem_of_fresh kinded)
    have candidate := (isNaming_empty.registerAll before).candidate found
    exact ⟨before, key, after, rfl, first, stem, owner, earlier, candidate.of_shadowingStem stem⟩
  · rintro ⟨before, key, after, rfl, first, stem, other, earlier, same⟩
    have taken : ofName key.2 ∈ (registerAll {} before).taken := same ▸ ofName_mem_taken earlier
    refine ⟨ofName key.2 ++ "_" ++ key.1.text, ?_, ofKind_mem_sdkNames.mpr stem⟩
    by_cases occupied : ofName key.2 ++ "_" ++ key.1.text ∈ (registerAll {} before).taken
    · exact answer_of_taken occupied (key :: after)
    · rw [answers_eq_lookups, ← fresh_eq_ofKind taken occupied, ← lookup_of_first first after]
      exact List.mem_map_of_mem (List.mem_append_right _ List.mem_cons_self)

end Registry

/-- Two connections whose names differ by a hyphen and an underscore. -/
def collidingConnections : List Resource :=
  [.connection (.kafka { name := "create-kafka", path := "a", bootstrapServers := "h" }),
   .connection (.kafka { name := "create_kafka", path := "b", bootstrapServers := "h" })]

/-- The second of them is assigned to the function that both are made with. -/
theorem register_shadows_kafka :
    Registry.answers {} (collidingConnections.map Resource.key) =
        ["create_kafka", "create_kafka_connection"] ∧
      "create_kafka_connection".toList ∈ sdkNames ∧
      ∃ text, Module.render true collidingConnections = .ok text ∧
        ("from tinybird_sdk import create_kafka_connection\n".toList <:+: text ∧
          "\ncreate_kafka_connection = create_kafka_connection(\n".toList <:+: text) := by
  refine ⟨by decide +kernel, by decide, ?_⟩
  have sorted : Resource.sort collidingConnections = collidingConnections :=
    List.mergeSort_of_pairwise (by decide)
  rw [Module.render, sorted]
  obtain ⟨text, rendered, found⟩ := exists_eq_ok
    (x := (collidingConnections.mapM (Resource.define true)).map Module.ofDefinitions)
    (p := fun text =>
      decide ("from tinybird_sdk import create_kafka_connection\n".toList <:+: text) &&
        decide ("\ncreate_kafka_connection = create_kafka_connection(\n".toList <:+: text)) (by
      unfold Module.ofDefinitions Module.header
      repeat rw [List.flatMap_cons]
      repeat rw [String.toList_ofList]
      decide +kernel)
  rw [Bool.and_eq_true, decide_eq_true_eq, decide_eq_true_eq] at found
  exact ⟨text, rendered, found⟩

end DatafileMigration
