import DatafileMigration.Proofs.Project.Listing
import DatafileMigration.Proofs.Project.Rediscovery

namespace DatafileMigration.Tree

open DatafileMigration.Path (IsName IsNormal IsRoot ofNames)
open Text (Octets)

variable {root : Tree} {place : Place} {name path p cwd pattern : Text} {patterns : List Text}
  {c : Candidate} {content : Octets}

theorem isAbsolute_patternPath (rooted : Path.isAbsolute cwd) :
    Path.isAbsolute (patternPath cwd pattern) := by
  rw [patternPath]
  split
  · assumption
  · exact (Path.isNormal_normalize (Path.isAbsolute_join rooted _)).rooted

theorem normalize_patternPath (rooted : Path.isAbsolute cwd) :
    Path.normalize (patternPath cwd pattern) = Path.absolute cwd pattern := by
  rw [patternPath]
  split
  case isTrue absolute => rw [Path.absolute, Path.join, if_pos absolute]
  case isFalse => exact (Path.isNormal_normalize (Path.isAbsolute_join rooted _)).normal

theorem isNormal_absolute (rooted : Path.isAbsolute cwd) (pattern : Text) :
    IsNormal (Path.absolute cwd pattern) :=
  Path.isNormal_normalize (Path.isAbsolute_join rooted pattern)

theorem hasDirectory_or_hasFile (present : root.has path) :
    root.hasDirectory path ∨ root.hasFile path := by
  obtain ⟨possible, n, found⟩ := has_iff.mp present
  cases n with
  | directory => exact .inl (hasDirectory_iff.mpr ⟨possible, found⟩)
  | file content => exact .inr (hasFile_iff.mpr ⟨possible, content, found⟩)

/-- What a pattern without special characters names is there without the resolver, or not at all. -/
theorem found_of_plain (rooted : Path.isAbsolute cwd) (plain : ¬ Path.hasGlob pattern)
    (noDirectory : root.hasDirectory (Path.absolute cwd pattern) = false)
    (noFile : root.hasFile (Path.absolute cwd pattern) = false) :
    root.found root.resolveIncludes cwd pattern = [] := by
  have absent : ¬ root.has (Path.tidy (patternPath cwd pattern)) := by
    intro present
    have there := has_normalize (isAbsolute_patternPath rooted) present
    rw [normalize_patternPath rooted] at there
    rcases hasDirectory_or_hasFile there with isDirectory | isFile
    · cases isDirectory.symm.trans noDirectory
    · cases isFile.symm.trans noFile
  rw [found_of_includes noDirectory noFile, includes_plain plain, if_neg absent]
  rfl

theorem isNormal_rootDirectory (rooted : Path.isAbsolute pattern) :
    IsNormal (Glob.rootDirectory pattern) :=
  Path.isNormal_ofNames (Path.isRoot_root rooted) fun s member =>
    Path.isName_of_mem_normalSegments rooted s (List.takeWhile_subset _ member)

theorem keepFirstPaths_subset {f : IncludedFile} {seen : List Text} {files : List IncludedFile}
    (member : f ∈ keepFirstPaths seen files) : f ∈ files := by
  induction files generalizing seen with
  | nil => cases member
  | cons first files ih =>
    rw [keepFirstPaths] at member
    split at member
    · exact List.mem_cons_of_mem _ (ih member)
    · rcases List.mem_cons.mp member with rfl | member
      · exact List.mem_cons_self
      · exact List.mem_cons_of_mem _ (ih member)

/-- A pattern for absolute paths that names nothing itself. -/
def IsRootedGlob (root : Tree) (cwd pattern : Text) : Prop :=
  Path.isAbsolute pattern ∧ Path.hasGlob pattern ∧
    root.hasDirectory (Path.absolute cwd pattern) = false ∧
    root.hasFile (Path.absolute cwd pattern) = false

instance (root : Tree) (cwd pattern : Text) : Decidable (IsRootedGlob root cwd pattern) :=
  inferInstanceAs (Decidable (_ ∧ _ ∧ _ ∧ _))

/-- The path that reports show for a file that a pattern leads to. -/
def shownPath (root : Tree) (cwd pattern absolute : Text) : Text :=
  Path.unifySlashes (if root.IsRootedGlob cwd pattern then absolute else Path.relative cwd absolute)

/-- What a candidate is that a pattern offers: a file, its kind, and the path shown for it. -/
structure Offers (root : Tree) (cwd pattern : Text) (c : Candidate) : Prop where
  file : root.IsFilePath c.absolute
  kind : Path.kind? c.absolute = some c.kind
  path : c.path = root.shownPath cwd pattern c.absolute

theorem offers_of_candidate? {absolute : Text} (file : root.IsFilePath absolute)
    (made : candidate? absolute path = some c)
    (shown : path = root.shownPath cwd pattern absolute) : root.Offers cwd pattern c := by
  obtain ⟨kind, known, rfl⟩ := Option.map_eq_some_iff.mp made
  exact ⟨file, known, shown⟩

theorem unifySlashes_unifySlashes (p : Text) :
    Path.unifySlashes (Path.unifySlashes p) = Path.unifySlashes p := by
  rw [Path.unifySlashes, Path.unifySlashes, Text.replaceChar, Text.replaceChar, List.map_map]
  refine List.map_congr_left fun c _ => ?_
  by_cases back : c = '\\'
  · simp [back]
  · simp [back]

theorem isFilePath_of_hasFile (normal : IsNormal path)
    (isFile : root.hasFile path) : root.IsFilePath path := by
  obtain ⟨possible, content, place, located, standing⟩ := hasFile_iff.mp isFile
  obtain ⟨rfl, -⟩ := place_of_locate normal.rooted located
  exact ⟨normal, possible, content, node?_eq_file.mp standing⟩

/-- Each candidate stands for a file. -/
theorem offers_of_mem_found (proper : root.IsProper) (rooted : Path.isAbsolute cwd)
    (member : c ∈ root.found root.resolveIncludes cwd pattern) : root.Offers cwd pattern c := by
  have normal := isNormal_absolute rooted pattern
  by_cases isDirectory : root.hasDirectory (Path.absolute cwd pattern) = true
  · have here : ¬ root.IsRootedGlob cwd pattern := fun rooted => by
      cases isDirectory.symm.trans rooted.2.2.1
    rw [found_of_hasDirectory isDirectory] at member
    obtain ⟨f, inside, made⟩ := List.mem_filterMap.mp member
    refine offers_of_candidate? ?_ made (by rw [shownPath, if_neg here])
    exact isFilePath_of_mem_filesBelow proper normal (List.mem_of_mem_filter inside)
  rw [Bool.not_eq_true] at isDirectory
  by_cases isFile : root.hasFile (Path.absolute cwd pattern) = true
  · have here : ¬ root.IsRootedGlob cwd pattern := fun rooted => by
      cases isFile.symm.trans rooted.2.2.2
    rw [found_of_hasFile isDirectory isFile, Option.mem_toList] at member
    refine offers_of_candidate? ?_ member (by rw [shownPath, if_neg here])
    exact isFilePath_of_hasFile normal isFile
  rw [Bool.not_eq_true] at isFile
  by_cases glob : Path.hasGlob pattern = true
  · rw [found_of_includes isDirectory isFile, includes_glob glob] at member
    obtain ⟨f, kept, made⟩ := List.mem_filterMap.mp member
    obtain ⟨path, matched, rfl⟩ :=
      List.mem_map.mp (List.mem_of_mem_filter (keepFirstPaths_subset kept))
    refine offers_of_candidate? ?_ made ?_
    · have inside := List.mem_of_mem_filter (List.mem_mergeSort.mp matched)
      exact isFilePath_of_mem_filesBelow proper
        (isNormal_rootDirectory (isAbsolute_patternPath rooted)) inside
    · have here : root.IsRootedGlob cwd pattern ↔ Path.isAbsolute pattern :=
        ⟨And.left, fun absolute => ⟨absolute, glob, isDirectory, isFile⟩⟩
      rw [unifySlashes_unifySlashes, shownPath]
      simp only [here]
  · rw [found_of_plain rooted glob isDirectory isFile] at member
    cases member

/-- A datafile stands below the directory that a path leads to, and there is no directory between
them that walks do not enter. -/
def HasBelow (root : Tree) (path : Text) (place : Place) : Prop :=
  ∃ directory below name content, root.hasDirectory path ∧ root.locate path = .ok directory ∧
    place = directory ++ (below ++ [name]) ∧ root.at? place = some (.file content) ∧
    (∀ d ∈ below, d ∉ ignoredDirectories) ∧ (Path.kind? name).isSome

/-- A pattern that names a directory leads to all datafiles below it. -/
theorem exists_mem_found (proper : root.IsProper) (rooted : Path.isAbsolute cwd)
    (below : root.HasBelow (Path.absolute cwd pattern) place) :
    ∃ c ∈ root.found root.resolveIncludes cwd pattern, Path.normalSegments c.absolute = place := by
  obtain ⟨directory, below, name, content, isDirectory, located, rfl, standing, kept, known⟩ := below
  have normal := isNormal_absolute rooted pattern
  have isRoot := Path.isRoot_root normal.rooted
  obtain ⟨possible, found⟩ := hasDirectory_iff.mp isDirectory
  obtain ⟨t, found, -⟩ := finds_iff.mp found
  obtain ⟨rfl, -⟩ := place_of_locate normal.rooted located
  have named : ∀ s ∈ Path.normalSegments (Path.absolute cwd pattern) ++ (below ++ [name]), IsName s :=
    fun s member => ((proper.at standing).1 s member).1
  have isName := named name (by simp)
  have known' := Path.kind?_ofNames isRoot isName
    (Path.normalSegments (Path.absolute cwd pattern) ++ below)
  rw [List.append_assoc] at known'
  obtain ⟨p, whole⟩ : ∃ p, p = ofNames (Path.root (Path.absolute cwd pattern))
    (Path.normalSegments (Path.absolute cwd pattern) ++ (below ++ [name])) := ⟨_, rfl⟩
  rw [← whole] at known'
  have inside : p ∈ root.filesBelow (Path.absolute cwd pattern) :=
    (mem_filesBelow proper normal possible found).mpr ⟨below, name, content, standing, kept, whole⟩
  have isDatafile : Path.isDatafile p := by rwa [Path.isDatafile, known']
  obtain ⟨kind, known⟩ := Option.isSome_iff_exists.mp isDatafile
  rw [found_of_hasDirectory isDirectory]
  refine ⟨⟨kind, p, Path.unifySlashes (Path.relative cwd p)⟩, ?_, ?_⟩
  · refine List.mem_filterMap.mpr ⟨p, List.mem_filter.mpr ⟨inside, isDatafile⟩, ?_⟩
    rw [candidate?, known, Option.map_some]
  · rw [whole]
    exact Path.normalSegments_ofNames isRoot named

end DatafileMigration.Tree
