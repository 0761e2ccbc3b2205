import DatafileMigration.Proofs.Project.Place

namespace DatafileMigration.Tree

open Text (Octets)

/-- `tree` is `root` with a file at a place, and the same as `root` at every other place. -/
structure Written (root tree : Tree) (place : Place) (content : Octets) : Prop where
  here : tree.node? place = some (.file content)
  free : root.node? place ≠ some .directory
  elsewhere : ∀ q, q ≠ place → tree.node? q = root.node? q

/-- A path leads to a node. -/
def Finds (root : Tree) (path : Text) (n : Node) : Prop :=
  ∃ place, root.locate path = .ok place ∧ root.node? place = some n

variable {root tree t : Tree} {place parent q r : Place} {name segment path : Text}
  {segments : List Text} {content other : Octets} {n : Node}

theorem Slot.written (slot : Slot root parent name) (content : Octets) :
    Written root (put (.file content) (parent ++ [name]) root) (parent ++ [name]) content := by
  refine ⟨?_, slot.free, fun q different => ?_⟩
  · rw [node?_put slot, if_pos rfl]
  · rw [node?_put slot, if_neg different]

theorem locate_eq_ok : root.locate path = .ok place ↔
    path ≠ [] ∧ ¬ isLongPath path ∧ (Text.splitOn '/' path).foldlM (step root) [] = .ok place := by
  rw [locate]
  by_cases none : path = []
  · simp [none]
  by_cases long : isLongPath path = true
  · simp [none, long]
  · simp [none, long]

theorem find_eq_ok :
    root.find path = .ok t ↔ ∃ place, root.locate path = .ok place ∧ root.at? place = some t := by
  rw [find, bind_eq_ok]
  refine exists_congr fun place => and_congr_right fun _ => ?_
  cases root.at? place with
  | none => simp [throw, throwThe, MonadExceptOf.throw]
  | some found => simp [pure, Except.pure]

theorem finds_iff : root.Finds path n ↔ ∃ t, root.find path = .ok t ∧ t.node = n := by
  constructor
  · rintro ⟨place, located, found⟩
    obtain ⟨t, standing, rfl⟩ := Option.map_eq_some_iff.mp found
    exact ⟨t, find_eq_ok.mpr ⟨place, located, standing⟩, rfl⟩
  · rintro ⟨t, found, rfl⟩
    obtain ⟨place, located, found⟩ := find_eq_ok.mp found
    exact ⟨place, located, Option.map_eq_some_iff.mpr ⟨t, found, rfl⟩⟩

theorem leadsTo_iff {test : Tree → Bool} : leadsTo test root path ↔
    isImpossible path = false ∧ ∃ t, root.find path = .ok t ∧ test t := by
  rw [leadsTo, Bool.and_eq_true, Bool.not_eq_true']
  refine and_congr_right fun _ => ?_
  cases root.find path <;> simp

theorem hasDirectory_iff :
    root.hasDirectory path ↔ isImpossible path = false ∧ root.Finds path .directory := by
  rw [hasDirectory, leadsTo_iff, finds_iff]
  refine and_congr_right fun _ => exists_congr fun t => and_congr_right fun _ => ?_
  cases t <;> simp [isDirectory, node]

theorem hasFile_iff :
    root.hasFile path ↔ isImpossible path = false ∧ ∃ content, root.Finds path (.file content) := by
  rw [hasFile, leadsTo_iff]
  simp only [finds_iff, and_congr_right_iff]
  intro _
  constructor
  · rintro ⟨t, found, isFile⟩
    cases t with
    | file content => exact ⟨content, _, found, rfl⟩
    | directory entries => cases isFile
  · rintro ⟨content, t, found, isFile⟩
    cases t with
    | file content => exact ⟨_, found, rfl⟩
    | directory entries => cases isFile

theorem has_iff : root.has path ↔ isImpossible path = false ∧ ∃ n, root.Finds path n := by
  rw [has, leadsTo_iff]
  simp only [finds_iff, and_congr_right_iff]
  intro _
  constructor
  · rintro ⟨t, found, _⟩
    exact ⟨_, t, found, rfl⟩
  · rintro ⟨n, t, found, _⟩
    exact ⟨t, found, trivial⟩

theorem read_eq_ok : root.read path = .ok content ↔ root.Finds path (.file content) := by
  rw [finds_iff, read, bind_eq_ok]
  refine exists_congr fun t => and_congr_right fun _ => ?_
  cases t with
  | file old => simp [node, pure, Except.pure]
  | directory entries => simp [node, throw, throwThe, MonadExceptOf.throw]

namespace Written

theorem directory_iff (written : Written root tree place content) :
    tree.node? q = some .directory ↔ root.node? q = some .directory := by
  by_cases same : q = place
  · rw [same, written.here]
    exact iff_of_false nofun written.free
  · rw [written.elsewhere q same]

theorem isSome_node? (written : Written root tree place content)
    (present : (root.node? q).isSome) : (tree.node? q).isSome := by
  by_cases same : q = place
  · rw [same, written.here]
    rfl
  · rw [written.elsewhere q same]
    exact present

theorem step_of_root (written : Written root tree place content)
    (stepped : root.step q segment = .ok r) : tree.step q segment = .ok r := by
  obtain ⟨inside, leads⟩ := step_eq_ok.mp stepped
  refine step_eq_ok.mpr ⟨written.directory_iff.mpr inside, ?_⟩
  cases leads with
  | stay stays => exact .stay stays
  | up => exact .up
  | into solid other back short present =>
    exact .into solid other back short (written.isSome_node? present)

/-- A step that is new leads to the file. -/
theorem step_cases (written : Written root tree place content)
    (stepped : tree.step q segment = .ok r) : r = place ∨ root.step q segment = .ok r := by
  obtain ⟨inside, leads⟩ := step_eq_ok.mp stepped
  rw [step_eq_ok, ← written.directory_iff]
  cases leads with
  | stay stays => exact Or.inr ⟨inside, .stay stays⟩
  | up => exact Or.inr ⟨inside, .up⟩
  | into solid other back short present =>
    by_cases same : q ++ [segment] = place
    · exact Or.inl same
    · rw [written.elsewhere _ same] at present
      exact Or.inr ⟨inside, .into solid other back short present⟩

theorem follow_of_root (written : Written root tree place content)
    (followed : segments.foldlM (step root) q = .ok r) :
    segments.foldlM (step tree) q = .ok r := by
  induction segments generalizing q with
  | nil => exact followed
  | cons segment segments ih =>
    rw [List.foldlM_cons, bind_eq_ok] at followed ⊢
    obtain ⟨next, stepped, followed⟩ := followed
    exact ⟨next, written.step_of_root stepped, ih followed⟩

/-- Nothing goes on from the file, so that what is new ends there. -/
theorem follow_cases (written : Written root tree place content)
    (followed : segments.foldlM (step tree) q = .ok r) :
    r = place ∨ segments.foldlM (step root) q = .ok r := by
  induction segments generalizing q with
  | nil => exact Or.inr followed
  | cons segment segments ih =>
    rw [List.foldlM_cons, bind_eq_ok] at followed ⊢
    obtain ⟨next, stepped, followed⟩ := followed
    rcases written.step_cases stepped with rfl | old
    · cases segments with
      | nil => exact Or.inl (Except.ok.inj followed).symm
      | cons segment segments =>
        rw [List.foldlM_cons, bind_eq_ok] at followed
        obtain ⟨_, below, _⟩ := followed
        have inside := (step_eq_ok.mp below).1
        rw [written.here] at inside
        cases inside
    · rcases ih followed with here | old'
      · exact Or.inl here
      · exact Or.inr ⟨next, old, old'⟩

theorem locate_of_root (written : Written root tree place content)
    (located : root.locate path = .ok q) : tree.locate path = .ok q := by
  obtain ⟨some, short, followed⟩ := locate_eq_ok.mp located
  exact locate_eq_ok.mpr ⟨some, short, written.follow_of_root followed⟩

theorem locate_cases (written : Written root tree place content)
    (located : tree.locate path = .ok q) : q = place ∨ root.locate path = .ok q := by
  obtain ⟨some, short, followed⟩ := locate_eq_ok.mp located
  rcases written.follow_cases followed with here | old
  · exact Or.inl here
  · exact Or.inr (locate_eq_ok.mpr ⟨some, short, old⟩)

/-- A path that does not lead to the file leads where it led. -/
theorem finds_iff_of_apart (written : Written root tree place content)
    (apart : tree.locate path ≠ .ok place) : tree.Finds path n ↔ root.Finds path n := by
  constructor
  · rintro ⟨q, located, found⟩
    rcases written.locate_cases located with rfl | old
    · exact absurd located apart
    · have different : q ≠ place := fun same => apart (same ▸ located)
      exact ⟨q, old, (written.elsewhere q different).symm.trans found⟩
  · rintro ⟨q, located, found⟩
    have located' := written.locate_of_root located
    have different : q ≠ place := fun same => apart (same ▸ located')
    exact ⟨q, located', (written.elsewhere q different).trans found⟩

theorem finds_directory_iff (written : Written root tree place content) :
    tree.Finds path .directory ↔ root.Finds path .directory := by
  by_cases here : tree.locate path = .ok place
  · refine iff_of_false ?_ ?_
    · rintro ⟨q, located, found⟩
      cases here.symm.trans located
      rw [written.here] at found
      cases found
    · rintro ⟨q, located, found⟩
      cases here.symm.trans (written.locate_of_root located)
      exact written.free found
  · exact written.finds_iff_of_apart here

theorem hasDirectory_eq (written : Written root tree place content) (path : Text) :
    tree.hasDirectory path = root.hasDirectory path := by
  rw [Bool.eq_iff_iff, hasDirectory_iff, hasDirectory_iff, written.finds_directory_iff]

theorem hasFile_of_root (written : Written root tree place content)
    (found : root.hasFile path) : tree.hasFile path := by
  rw [hasFile_iff] at found ⊢
  obtain ⟨possible, old, found⟩ := found
  refine ⟨possible, ?_⟩
  by_cases here : tree.locate path = .ok place
  · exact ⟨content, place, here, written.here⟩
  · exact ⟨old, (written.finds_iff_of_apart here).mpr found⟩

end Written

end DatafileMigration.Tree
