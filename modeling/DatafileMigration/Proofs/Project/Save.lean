import DatafileMigration.Project.Save
import DatafileMigration.Proofs.Project.Name
import DatafileMigration.Proofs.Project.Written

namespace DatafileMigration.Tree

open Text (Octets)
open DatafileMigration.Path (IsName baseName)

variable {root tree : Tree} {place parent q : Place} {path : Text} {front : List Text}
  {content : Octets}

/-- A path that leads somewhere by a name leads to something of that name. -/
theorem locate_last (located : root.locate path = .ok place) (isName : IsName (baseName path)) :
    ∃ parent, place = parent ++ [baseName path] := by
  obtain ⟨_, _, followed⟩ := locate_eq_ok.mp located
  obtain ⟨front, split⟩ := Path.splitOn_baseName path
  rw [split, List.foldlM_append, bind_eq_ok] at followed
  obtain ⟨parent, _, followed⟩ := followed
  rw [List.foldlM_cons, bind_eq_ok] at followed
  obtain ⟨_, stepped, done⟩ := followed
  obtain rfl := Except.ok.inj done
  have leads := (step_eq_ok.mp stepped).2
  generalize named : baseName path = name at leads isName
  cases leads with
  | stay stays =>
    rcases stays with empty | dot
    · exact absurd empty isName.solid
    · exact absurd dot isName.other
  | up => exact absurd rfl isName.down
  | into => exact ⟨parent, rfl⟩

/-- The place of a file that a path lets write: under the name of the path, in the directory that
the rest of the path leads to. -/
structure Target (root : Tree) (path : Text) (parent : Place) : Prop where
  given : path ≠ []
  short : ¬ isLongPath path
  isName : IsName (baseName path)
  shortName : ¬ isLongName (baseName path)
  followed : ∃ front, Text.splitOn '/' path = front ++ [baseName path] ∧
    front.foldlM (step root) [] = .ok parent
  slot : Slot root parent (baseName path)

/-- A check in front of a stage. -/
theorem guarded_eq_ok {α β ε : Type} {c : Prop} [Decidable c] {e : ε} {f : α → Except ε β}
    {x : Except ε β} {b : β} : (if c then throw e >>= f else x) = .ok b ↔ ¬ c ∧ x = .ok b := by
  by_cases holds : c
  · simp [holds, throw, throwThe, MonadExceptOf.throw, bind, Except.bind]
  · simp [holds]

theorem endsWith_slash (given : path ≠ []) : Text.endsWith "/" path ↔ baseName path = [] := by
  obtain ⟨front, whole, isFront⟩ := Path.append_baseName path
  constructor
  · intro ends
    obtain ⟨before, found⟩ := Option.isSome_iff_exists.mp ends
    rw [Text.dropSuffix?_eq_some_iff.mp found]
    have last : baseName (before ++ ['/'] ++ []) = [] :=
      Path.baseName_append (Path.isFront_slash before) List.not_mem_nil
    rwa [List.append_nil] at last
  · intro empty
    rw [empty, List.append_nil] at whole
    rcases isFront with rfl | ⟨before, rfl⟩
    · exact absurd whole given
    · exact Option.isSome_iff_exists.mpr ⟨before, Text.dropSuffix?_eq_some_iff.mpr whole⟩

/-- The segments in front of the name, and the name, behind which no slash stands. -/
theorem dropWhile_segments (split : Text.splitOn '/' path = front ++ [baseName path])
    (solid : baseName path ≠ []) :
    (Text.splitOn '/' path).reverse.dropWhile (· = []) = baseName path :: front.reverse := by
  rw [split, List.reverse_append, List.reverse_singleton, List.singleton_append,
    List.dropWhile_cons_of_neg (by simpa using solid)]

theorem writable_eq_ok : root.writable path = .ok place ↔
    ∃ parent, Target root path parent ∧ place = parent ++ [baseName path] := by
  obtain ⟨front, split⟩ := Path.splitOn_baseName path
  rw [writable, guarded_eq_ok, guarded_eq_ok]
  simp only [bind_eq_ok]
  constructor
  · rintro ⟨given, short, parent, followed, written⟩
    cases found : root.at? parent with
    | none =>
      rw [found] at written
      cases written
    | some t =>
      cases t with
      | file content =>
        rw [found] at written
        cases written
      | directory entries =>
        rw [found] at written
        dsimp only at written
        rw [guarded_eq_ok, guarded_eq_ok] at written
        simp only [Bool.or_eq_true, decide_eq_true_eq, not_or, endsWith_slash given] at written
        obtain ⟨⟨⟨solid, other⟩, down⟩, shortName, written⟩ := written
        have segments := dropWhile_segments split solid
        rw [segments, List.tail_cons, List.reverse_reverse] at followed
        rw [segments, List.head?_cons, Option.getD_some] at other down shortName written
        have isName : IsName (baseName path) := ⟨solid, other, down, Path.not_mem_baseName path⟩
        have slot : Slot root parent (baseName path) := by
          refine (slot_iff found).mpr fun below present => ?_
          rw [child?] at present
          rw [present] at written
          cases written
        refine ⟨parent, ⟨given, short, isName, shortName, ⟨front, split, followed⟩, slot⟩, ?_⟩
        split at written
        · cases written
        · exact (Except.ok.inj written).symm
  · rintro ⟨parent, target, rfl⟩
    obtain ⟨front', split', followed⟩ := target.followed
    obtain ⟨entries, found⟩ := node?_eq_directory.mp target.slot.inside
    have segments := dropWhile_segments split' target.isName.solid
    refine ⟨target.given, target.short, parent, ?_, ?_⟩
    · rw [segments, List.tail_cons, List.reverse_reverse]
      exact followed
    · rw [found, segments, List.head?_cons, Option.getD_some]
      dsimp only
      rw [guarded_eq_ok, guarded_eq_ok]
      refine ⟨?_, target.shortName, ?_⟩
      · simp only [Bool.or_eq_true, decide_eq_true_eq, not_or, endsWith_slash target.given]
        exact ⟨⟨target.isName.solid, target.isName.other⟩, target.isName.down⟩
      · split
        · rename_i below present
          exact absurd present ((slot_iff found).mp target.slot below)
        · rfl

theorem write_eq_ok : root.write path content = .ok tree ↔ ∃ parent, Target root path parent ∧
    tree = put (.file content) (parent ++ [baseName path]) root := by
  rw [write, map_eq_ok]
  constructor
  · rintro ⟨place, writable, rfl⟩
    obtain ⟨parent, target, rfl⟩ := writable_eq_ok.mp writable
    exact ⟨parent, target, rfl⟩
  · rintro ⟨parent, target, rfl⟩
    exact ⟨_, writable_eq_ok.mpr ⟨parent, target, rfl⟩, rfl⟩

/-- When the file is there, its path leads to it. -/
theorem Target.locate (target : Target root path parent)
    (written : Written root tree (parent ++ [baseName path]) content) :
    tree.locate path = .ok (parent ++ [baseName path]) := by
  obtain ⟨front, split, followed⟩ := target.followed
  have inside : tree.node? parent = some .directory := written.directory_iff.mpr target.slot.inside
  have present : (tree.node? (parent ++ [baseName path])).isSome := by
    rw [written.here]
    rfl
  have stepped : tree.step parent (baseName path) = .ok (parent ++ [baseName path]) :=
    step_eq_ok.mpr ⟨inside, .into target.isName.solid target.isName.other target.isName.down
      target.shortName present⟩
  refine locate_eq_ok.mpr ⟨target.given, target.short, ?_⟩
  rw [split, List.foldlM_append, bind_eq_ok]
  refine ⟨parent, written.follow_of_root followed, ?_⟩
  rw [List.foldlM_cons, bind_eq_ok]
  exact ⟨_, stepped, rfl⟩

/-- And it can be written again. -/
theorem Target.again (target : Target root path parent)
    (written : Written root tree (parent ++ [baseName path]) content) :
    Target tree path parent := by
  obtain ⟨front, split, followed⟩ := target.followed
  have inside : tree.node? parent = some .directory := written.directory_iff.mpr target.slot.inside
  have free : tree.node? (parent ++ [baseName path]) ≠ some .directory := by
    rw [written.here]
    nofun
  exact ⟨target.given, target.short, target.isName, target.shortName,
    ⟨front, split, written.follow_of_root followed⟩, ⟨inside, free⟩⟩

/-- A text was saved at a path: the file there holds the text, and nothing else is changed. -/
structure Saved (root tree : Tree) (path text : Text) : Prop where
  read : tree.read path = .ok (Text.encode text)
  only : ∃ place, tree.locate path = .ok place ∧ Written root tree place (Text.encode text)

section Saving

variable {text : Text} {force : Bool} {u : Unit} {e : Fault WriteError}

theorem saving_eq_ok : saving path text force root = .ok u tree ↔
    (root.has path → force) ∧ isImpossible path = false ∧
      root.write path (Text.encode text) = .ok tree := by
  rw [saving]
  by_cases guarded : (root.has path && !force) = true
  · rw [if_pos guarded]
    rw [Bool.and_eq_true, Bool.not_eq_true'] at guarded
    simp [guarded]
  rw [if_neg guarded]
  have free : root.has path → force := by simpa using guarded
  by_cases impossible : isImpossible path = true
  · simp [impossible]
  rw [if_neg impossible]
  cases written : root.write path (Text.encode text) with
  | error cause => simp
  | ok t => simpa [impossible] using fun _ : t = tree => free

/-- What is not saved changes nothing. -/
theorem saving_error (failed : saving path text force root = .error e tree) : tree = root := by
  rw [saving] at failed
  split at failed
  · cases failed
    rfl
  split at failed
  · cases failed
    rfl
  split at failed
  · cases failed
  · cases failed
    rfl

/-- A file that is there is not replaced unless this is asked for. -/
theorem saving_existing (present : root.has path) (kept : force = false) :
    saving path text force root = .error (.refused { path, cause := .exists }) root := by
  rw [saving, present, kept]
  rfl

theorem saving_saved (saved : saving path text force root = .ok u tree) :
    Saved root tree path text := by
  obtain ⟨_, _, written⟩ := saving_eq_ok.mp saved
  obtain ⟨parent, target, rfl⟩ := write_eq_ok.mp written
  have written := target.slot.written (Text.encode text)
  have located := target.locate written
  exact ⟨read_eq_ok.mpr ⟨_, located, written.here⟩, _, located, written⟩

/-- What was saved can be saved once more, and that changes nothing. -/
theorem saving_again (saved : saving path text force root = .ok u tree) :
    saving path text true tree = .ok () tree := by
  obtain ⟨_, possible, first⟩ := saving_eq_ok.mp saved
  obtain ⟨parent, target, rfl⟩ := write_eq_ok.mp first
  have written := target.slot.written (Text.encode text)
  have again : Tree.write _ path (Text.encode text) = .ok _ :=
    write_eq_ok.mpr ⟨parent, target.again written, rfl⟩
  rw [put_put] at again
  exact saving_eq_ok.mpr ⟨fun _ => rfl, possible, again⟩

end Saving

end DatafileMigration.Tree
