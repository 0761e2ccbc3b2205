import DatafileMigration.Proofs.Project.Save
import DatafileMigration.Proofs.Text.Order

namespace DatafileMigration.Tree

open Text (Octets)

variable {root sub t : Tree} {parent : Place} {name first path : Text} {entries : List (Text × Tree)}
  {content : Octets} {p : Text → Bool}

/-- The names of the files among entries. -/
def fileNames (entries : List (Text × Tree)) : List Text := (entries.filter (·.2.isFile)).map (·.1)

/-- What a walk finds below the directories among entries, as far as it is chosen. -/
def chosenBelow (p : Text → Bool) (found : List (Text × List Text)) : List (Text × List Text) :=
  found.map fun (name, files) => (name, files.filter p)

theorem chosenBelow_append (p : Text → Bool) (found others : List (Text × List Text)) :
    chosenBelow p (found ++ others) = chosenBelow p found ++ chosenBelow p others := List.map_append

theorem filter_sections (p : Text → Bool) (found : List (Text × List Text)) :
    ((sortEntries found).flatMap (·.2)).filter p =
      (sortEntries (chosenBelow p found)).flatMap (·.2) := by
  have sorted : (sortEntries found).map (fun (name, files) => (name, files.filter p)) =
      sortEntries (chosenBelow p found) := List.map_mergeSort fun _ _ _ _ => rfl
  rw [← sorted, List.filter_flatMap, List.flatMap_map]

/-- What is chosen from a walk: of the files of the directory, and of those below. -/
theorem filter_walk (p : Text → Bool) (path : Text) (entries : List (Text × Tree)) :
    (walk path (directory entries)).filter p =
      (((fileNames entries).filter (p ∘ Path.join path)).mergeSort Text.precedes).map (Path.join path)
        ++ (sortEntries (chosenBelow p (walkEntries path entries))).flatMap (·.2) := by
  rw [walk, List.filter_append, List.filter_map, Text.filter_mergeSort, filter_sections]
  rfl

theorem walk_congr {others : List (Text × Tree)}
    (files : (fileNames entries).filter (p ∘ Path.join path) =
      (fileNames others).filter (p ∘ Path.join path))
    (below : chosenBelow p (walkEntries path entries) = chosenBelow p (walkEntries path others)) :
    (walk path (directory entries)).filter p = (walk path (directory others)).filter p := by
  rw [filter_walk, filter_walk, files, below]

theorem putEntry_of_some {old : Tree} (found : (directory entries).child? name = some old) :
    ∃ before after, entries = before ++ (name, old) :: after ∧
      ∀ t, putEntry name t entries = before ++ (name, t) :: after := by
  induction entries with
  | nil => cases found
  | cons entry entries ih =>
    obtain ⟨first, other⟩ := entry
    by_cases same : first = name
    · rw [child?, List.find?_cons_of_pos (by simpa using same)] at found
      obtain rfl : other = old := Option.some.inj found
      subst same
      exact ⟨[], entries, rfl, fun t => if_pos rfl⟩
    · rw [child?, List.find?_cons_of_neg (by simpa using same)] at found
      obtain ⟨before, after, rfl, put⟩ := ih found
      refine ⟨(first, other) :: before, after, rfl, fun t => ?_⟩
      rw [putEntry, if_neg same, put, List.cons_append]

theorem putEntry_of_none (absent : (directory entries).child? name = none) (t : Tree) :
    putEntry name t entries = entries ++ [(name, t)] := by
  induction entries with
  | nil => rfl
  | cons entry entries ih =>
    obtain ⟨first, other⟩ := entry
    by_cases same : first = name
    · rw [child?, List.find?_cons_of_pos (by simpa using same)] at absent
      cases absent
    · rw [child?, List.find?_cons_of_neg (by simpa using same)] at absent
      rw [putEntry, if_neg same, ih absent, List.cons_append]

theorem fileNames_append (entries others : List (Text × Tree)) :
    fileNames (entries ++ others) = fileNames entries ++ fileNames others := by
  rw [fileNames, List.filter_append, List.map_append, fileNames, fileNames]

theorem walkEntries_append (path : Text) (entries others : List (Text × Tree)) :
    walkEntries path (entries ++ others) = walkEntries path entries ++ walkEntries path others := by
  induction entries with
  | nil => rw [walkEntries, List.nil_append, List.nil_append]
  | cons entry entries ih =>
    obtain ⟨first, t⟩ := entry
    rw [List.cons_append, walkEntries, walkEntries, ih]
    split
    · rw [List.cons_append]
    · rfl

theorem walkEntries_file (path name : Text) (content : Octets) (entries : List (Text × Tree)) :
    walkEntries path ((name, file content) :: entries) = walkEntries path entries := by
  rw [walkEntries, if_neg (by simp [isDirectory])]

theorem fileNames_directory (isDirectory : t.node = .directory) (name : Text)
    (entries : List (Text × Tree)) : fileNames ((name, t) :: entries) = fileNames entries := by
  obtain ⟨below, rfl⟩ := node_eq_directory.mp isDirectory
  rfl

/-- Directories of one name count the same if the same is chosen from them. -/
theorem chosenBelow_directory (isDirectory : t.node = .directory) (other : sub.node = .directory)
    (same : (walk (Path.join path name) t).filter p = (walk (Path.join path name) sub).filter p)
    (entries : List (Text × Tree)) :
    chosenBelow p (walkEntries path ((name, t) :: entries)) =
      chosenBelow p (walkEntries path ((name, sub) :: entries)) := by
  obtain ⟨below, rfl⟩ := node_eq_directory.mp isDirectory
  obtain ⟨below', rfl⟩ := node_eq_directory.mp other
  rw [walkEntries, walkEntries]
  by_cases ignored : ignoredDirectories.contains name
  · simp only [ignored, Bool.not_true, Bool.and_false, if_neg Bool.false_ne_true]
  · rw [Bool.not_eq_true] at ignored
    simp only [Tree.isDirectory, ignored, Bool.not_false, Bool.and_true, if_true]
    rw [chosenBelow, chosenBelow, List.map_cons, List.map_cons]
    dsimp only
    rw [same]

/-- A file that is not chosen does not change what is chosen from a walk. -/
theorem walk_put (slot : Slot root parent name) (dropped : ∀ path, p (Path.join path name) = false)
    (path : Text) :
    (walk path (put (.file content) (parent ++ [name]) root)).filter p = (walk path root).filter p := by
  induction parent generalizing root path with
  | nil =>
    obtain ⟨entries, rfl, free⟩ := slot.of_nil
    rw [List.nil_append, put_single]
    cases found : (directory entries).child? name with
    | none =>
      rw [putEntry_of_none found]
      refine walk_congr ?_ ?_
      · have gone : (fileNames [(name, file content)]).filter (p ∘ Path.join path) = [] :=
          List.filter_cons_of_neg (by rw [Function.comp, dropped]; decide)
        rw [fileNames_append, List.filter_append, gone, List.append_nil]
      · rw [walkEntries_append, walkEntries_file, walkEntries, List.append_nil]
    | some old =>
      obtain ⟨before, after, rfl, put⟩ := putEntry_of_some found
      rw [put]
      cases old with
      | directory below => exact absurd rfl (free _ found)
      | file old =>
        refine walk_congr ?_ ?_
        · rw [fileNames_append, fileNames_append]
          rfl
        · rw [walkEntries_append, walkEntries_append, walkEntries_file, walkEntries_file]
  | cons first parent ih =>
    obtain ⟨entries, sub, rfl, found, inner⟩ := slot.of_cons
    obtain ⟨before, after, rfl, put⟩ := putEntry_of_some found
    rw [List.cons_append, put_below found, put]
    have isDirectory := put_directory inner (.file content)
    refine walk_congr ?_ ?_
    · rw [fileNames_append, fileNames_append, fileNames_directory isDirectory,
        fileNames_directory inner.root_directory]
    · have same := chosenBelow_directory isDirectory inner.root_directory
        (ih inner (Path.join path first)) after
      rw [walkEntries_append, walkEntries_append, chosenBelow_append, chosenBelow_append, same]

/-- A directory is the same as before, or the file was written below it. -/
theorem at?_put {q : Place} (slot : Slot root parent name) (content : Octets)
    (found : root.at? q = some (.directory entries)) :
    ∃ t, (put (.file content) (parent ++ [name]) root).at? q = some t ∧
      (t = .directory entries ∨ ∃ below, Slot (.directory entries) below name ∧
        t = put (.file content) (below ++ [name]) (.directory entries)) := by
  induction q generalizing root parent with
  | nil =>
    obtain rfl : root = .directory entries := Option.some.inj found
    exact ⟨_, rfl, Or.inr ⟨parent, slot, rfl⟩⟩
  | cons other q ih =>
    rw [at?, Option.bind_eq_some_iff] at found
    obtain ⟨sub, child, found⟩ := found
    cases parent with
    | nil =>
      obtain ⟨all, rfl, free⟩ := slot.of_nil
      rw [List.nil_append, put_single, at?, child?_putEntry]
      by_cases same : other = name
      · subst same
        cases sub with
        | directory below => exact absurd rfl (free _ child)
        | file old => cases q <;> cases found
      · rw [if_neg same, child]
        exact ⟨_, found, Or.inl rfl⟩
    | cons first parent =>
      obtain ⟨all, next, rfl, present, inner⟩ := slot.of_cons
      rw [List.cons_append, put_below present, at?, child?_putEntry]
      by_cases same : other = first
      · subst same
        obtain rfl : sub = next := Option.some.inj (child.symm.trans present)
        rw [if_pos rfl]
        exact ih inner found
      · rw [if_neg same, child]
        exact ⟨_, found, Or.inl rfl⟩

theorem filesBelow_of_find (possible : isImpossible path = false) (found : root.find path = .ok t) :
    root.filesBelow path = walk path t := by
  rw [filesBelow, possible, found]
  rfl

theorem filesBelow_of_no_directory (absent : ¬ root.Finds path .directory) :
    root.filesBelow path = [] := by
  rw [filesBelow]
  split
  · rfl
  cases found : root.find path with
  | error e => rfl
  | ok t =>
    cases t with
    | file content => rfl
    | directory entries => exact absurd (finds_iff.mpr ⟨_, found, rfl⟩) absent

/-- The files below any path are the same, but for the one that was written. -/
theorem filter_filesBelow (slot : Slot root parent name)
    (dropped : ∀ path, p (Path.join path name) = false) (path : Text) :
    ((put (.file content) (parent ++ [name]) root).filesBelow path).filter p =
      (root.filesBelow path).filter p := by
  have written := slot.written content
  by_cases present : root.Finds path .directory
  · by_cases impossible : isImpossible path = true
    · rw [filesBelow, filesBelow, if_pos impossible, if_pos impossible]
    rw [Bool.not_eq_true] at impossible
    obtain ⟨q, located, inside⟩ := present
    obtain ⟨entries, found⟩ := node?_eq_directory.mp inside
    obtain ⟨t, found', same⟩ := at?_put slot content found
    rw [filesBelow_of_find impossible (find_eq_ok.mpr ⟨q, located, found⟩),
      filesBelow_of_find impossible
        (find_eq_ok.mpr ⟨q, written.locate_of_root located, found'⟩)]
    rcases same with rfl | ⟨below, inner, rfl⟩
    · rfl
    · exact walk_put inner dropped path
  · have absent : ¬ (put (.file content) (parent ++ [name]) root).Finds path .directory :=
      fun found => present (written.finds_directory_iff.mp found)
    rw [filesBelow_of_no_directory present, filesBelow_of_no_directory absent]

end DatafileMigration.Tree
