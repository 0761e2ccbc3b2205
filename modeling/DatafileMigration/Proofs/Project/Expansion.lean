import Mathlib.Data.List.Nodup
import DatafileMigration.Proofs.Project.Discovered
import DatafileMigration.Proofs.Project.Match

namespace DatafileMigration

namespace Glob

variable {p : Text} {pattern path : List Text}

/-- The segments in front of the first one with a special character. -/
def literal (pattern : List Text) : List Text := pattern.takeWhile fun s => !Path.hasGlob s

theorem rootDirectory_eq (pattern : Text) :
    rootDirectory pattern = Path.ofNames (Path.root pattern) (literal (Path.normalSegments pattern)) :=
  rfl

theorem ne_run_of_plain (plain : ¬ Path.hasGlob p) : p ≠ "**" := by
  rintro rfl
  exact plain (by decide)

theorem matchesSegment_of_plain {s : Text} (plain : ¬ Path.hasGlob p) :
    matchesSegment p s ↔ p = s := by
  rw [matchesSegment, if_neg plain, decide_eq_true_iff]

/-- A path that is matched begins with the segments without special characters. -/
theorem Matches.literal (matched : Matches pattern path) : Glob.literal pattern <+: path := by
  induction pattern generalizing path with
  | nil => exact List.nil_prefix
  | cons p pattern ih =>
    by_cases glob : Path.hasGlob p
    · rw [Glob.literal, List.takeWhile_cons_of_neg (by simp [glob])]
      exact List.nil_prefix
    · obtain ⟨s, rest, rfl, fits, behind⟩ := (matches_one (ne_run_of_plain glob)).mp matched
      obtain rfl := (matchesSegment_of_plain glob).mp fits
      rw [Glob.literal, List.takeWhile_cons_of_pos (by simp [glob])]
      exact List.cons_prefix_cons.mpr ⟨rfl, ih behind⟩

end Glob

/-- The path `p` leads to where the directory `d` is, or to something below it. -/
def Path.IsWithin (d p : Text) : Prop :=
  Path.root d = Path.root p ∧ Path.normalSegments d <+: Path.normalSegments p

namespace Tree

open DatafileMigration.Path (IsName IsNormal ofNames)

variable {root t : Tree} {place : Place} {entry : Text × Tree} {entries : List (Text × Tree)}
  {p path pattern : Text}

/-- The path of a file below the directory that a path leads to, with no directory between them that
walks do not enter. -/
def IsBelow (root : Tree) (directory p : Text) : Prop :=
  root.hasDirectory directory ∧ ∃ below name content,
    root.at? (Path.normalSegments directory ++ (below ++ [name])) = some (.file content) ∧
    (∀ d ∈ below, d ∉ ignoredDirectories) ∧
    p = ofNames (Path.root directory) (Path.normalSegments directory ++ (below ++ [name]))

theorem IsBelow.root_eq {directory : Text} (proper : root.IsProper)
    (rooted : Path.isAbsolute directory) (below : root.IsBelow directory p) :
    Path.root p = Path.root directory := by
  obtain ⟨-, place, name, content, standing, -, rfl⟩ := below
  exact Path.root_ofNames (Path.isRoot_root rooted)
    fun s member => ((proper.at standing).1 s member).1

theorem mem_filesBelow_iff (proper : root.IsProper) (normal : IsNormal path) :
    p ∈ root.filesBelow path ↔ root.IsBelow path p := by
  by_cases isDirectory : root.hasDirectory path = true
  · obtain ⟨possible, finds⟩ := hasDirectory_iff.mp isDirectory
    obtain ⟨t, found, -⟩ := finds_iff.mp finds
    rw [mem_filesBelow proper normal possible found]
    exact (and_iff_right isDirectory).symm
  · refine iff_of_false (fun member => ?_) fun below => isDirectory below.1
    by_cases impossible : isImpossible path = true
    · rw [filesBelow, if_pos impossible] at member
      cases member
    · rw [Bool.not_eq_true] at impossible
      have absent : ¬ root.Finds path .directory :=
        fun found => isDirectory (hasDirectory_iff.mpr ⟨impossible, found⟩)
      rw [filesBelow_of_no_directory absent] at member
      cases member

/-- What a walk finds at an entry. -/
def passed (path : Text) : Text × Tree → List Text
  | (name, file _) => [Path.join path name]
  | (name, directory entries) =>
    if ignoredDirectories.contains name then [] else walk (Path.join path name) (directory entries)

/-- A walk finds what it finds at the entries, in another order. -/
theorem walk_perm (path : Text) (entries : List (Text × Tree)) :
    (walk path (directory entries)).Perm (entries.flatMap (passed path)) := by
  have own : (((entries.filter (·.2.isFile)).map (·.1)).mergeSort Text.precedes).Perm
      (fileNames entries) := List.mergeSort_perm _ _
  have below : ((sortEntries (walkEntries path entries)).flatMap (·.2)).Perm
      ((walkEntries path entries).flatMap (·.2)) := (List.mergeSort_perm _ _).flatMap_right _
  rw [walk]
  refine ((own.map _).append below).trans ?_
  clear own below
  induction entries with
  | nil => exact List.Perm.refl _
  | cons entry entries ih =>
    obtain ⟨name, t⟩ := entry
    cases t with
    | file content =>
      rw [walkEntries_file]
      exact ih.cons _
    | directory inner =>
      rw [fileNames_directory rfl, walkEntries, List.flatMap_cons, passed]
      by_cases ignored : ignoredDirectories.contains name = true
      · rw [if_pos ignored, ignored, Bool.not_true, Bool.and_false, if_neg Bool.false_ne_true]
        exact ih
      · rw [if_neg ignored, if_pos (by simpa [isDirectory] using ignored), List.flatMap_cons]
        exact (List.perm_append_comm_assoc ..).trans (ih.append_left _)

theorem normalSegments_foldl_join (rooted : Path.isAbsolute path) (named : ∀ s ∈ place, IsName s) :
    Path.normalSegments (place.foldl Path.join path) = Path.normalSegments path ++ place := by
  induction place generalizing path with
  | nil => exact (List.append_nil _).symm
  | cons name place ih =>
    obtain ⟨isName, others⟩ := List.forall_mem_cons.mp named
    rw [List.foldl_cons, ih (Path.isAbsolute_join rooted name) others,
      Path.normalSegments_join rooted isName, List.append_assoc]
    rfl

/-- What is found at an entry has its name in its path. -/
theorem prefix_of_mem_passed (isName : IsName entry.1) (proper : entry.2.IsProper)
    (rooted : Path.isAbsolute path) (found : p ∈ passed path entry) :
    Path.normalSegments path ++ [entry.1] <+: Path.normalSegments p := by
  obtain ⟨name, t⟩ := entry
  rw [← Path.normalSegments_join rooted isName]
  cases t with
  | file content =>
    obtain rfl := List.mem_singleton.mp found
    exact List.prefix_refl _
  | directory entries =>
    rw [passed] at found
    split at found
    · cases found
    · obtain ⟨below, last, content, standing, -, rfl⟩ := (mem_walk proper).mp found
      rw [normalSegments_foldl_join (Path.isAbsolute_join rooted name)
        fun s member => ((proper.at standing).1 s member).1]
      exact List.prefix_append _ _

/-- A walk finds each file once. -/
theorem nodup_walk (proper : t.IsProper) (rooted : Path.isAbsolute path) : (walk path t).Nodup := by
  induction proper generalizing path with
  | file content =>
    rw [walk]
    exact List.nodup_nil
  | @directory entries named distinct proper ih =>
    rw [(walk_perm path entries).nodup_iff, List.nodup_flatMap]
    constructor
    · rintro ⟨name, t⟩ member
      cases t with
      | file content => exact List.nodup_singleton _
      | directory inner =>
        rw [passed]
        split
        · exact List.nodup_nil
        · exact ih _ member (Path.isAbsolute_join rooted name)
    · refine (List.pairwise_map.mp distinct).imp_of_mem fun {a b} member member' other => ?_
      refine List.disjoint_left.mpr fun {q} found found' => ?_
      have first := prefix_of_mem_passed (named a member).1 (proper a member) rooted found
      have second := prefix_of_mem_passed (named b member').1 (proper b member') rooted found'
      have same := List.prefix_of_prefix_length_le first second (by simp)
      exact other (by simpa using same.eq_of_length (by simp))

theorem nodup_filesBelow (proper : root.IsProper) (rooted : Path.isAbsolute path) :
    (root.filesBelow path).Nodup := by
  rw [filesBelow]
  split
  · exact List.nodup_nil
  split
  · rename_i t found
    obtain ⟨place, -, standing⟩ := find_eq_ok.mp found
    exact nodup_walk (proper.at standing).2 rooted
  · exact List.nodup_nil

theorem isName_of_mem_literal (rooted : Path.isAbsolute pattern) :
    ∀ s ∈ Glob.literal (Path.normalSegments pattern), IsName s := fun s member =>
  Path.isName_of_mem_normalSegments rooted s (List.takeWhile_subset _ member)

theorem root_rootDirectory (rooted : Path.isAbsolute pattern) :
    Path.root (Glob.rootDirectory pattern) = Path.root pattern :=
  Path.root_ofNames (Path.isRoot_root rooted) (isName_of_mem_literal rooted)

/-- What a pattern matches lies in the directory of its segments without special characters. -/
theorem isWithin_of_matchesPath (rooted : Path.isAbsolute pattern)
    (matched : Glob.matchesPath pattern p) : Path.IsWithin (Glob.rootDirectory pattern) p := by
  rw [Glob.matchesPath, Bool.and_eq_true, decide_eq_true_eq] at matched
  obtain ⟨front, matched⟩ := matched
  refine ⟨(root_rootDirectory rooted).trans front, ?_⟩
  rw [Glob.rootDirectory_eq, Path.normalSegments_ofNames (Path.isRoot_root rooted)
    (isName_of_mem_literal rooted)]
  exact (Glob.matchesSegments_iff.mp matched).literal

theorem pairwise_expandGlob (proper : root.IsProper) (rooted : Path.isAbsolute pattern) :
    (root.expandGlob pattern).Pairwise (· < ·) := by
  have distinct := (nodup_filesBelow proper (isNormal_rootDirectory rooted).rooted).filter
    (Glob.matchesPath pattern ·)
  exact Text.pairwise_lt_mergeSort id (by rwa [List.map_id])

theorem mem_expandGlob (proper : root.IsProper) (rooted : Path.isAbsolute pattern) :
    p ∈ root.expandGlob pattern ↔
      root.IsBelow (Glob.rootDirectory pattern) p ∧ Glob.matchesPath pattern p := by
  rw [expandGlob, List.mem_mergeSort, List.mem_filter,
    mem_filesBelow_iff proper (isNormal_rootDirectory rooted)]

/-- All that a pattern matches lies in its directory without special characters, so that it expands
to the files below that directory that it matches, each of them once and in order. -/
theorem expandGlob_exact (proper : root.IsProper) (rooted : Path.isAbsolute pattern) :
    (∀ p, Path.isAbsolute p → Glob.matchesPath pattern p →
      Path.IsWithin (Glob.rootDirectory pattern) p) ∧
    (root.expandGlob pattern).Pairwise (· < ·) ∧
    ∀ p, p ∈ root.expandGlob pattern ↔
      root.IsBelow (Glob.rootDirectory pattern) p ∧ Glob.matchesPath pattern p :=
  ⟨fun _ _ matched => isWithin_of_matchesPath rooted matched, pairwise_expandGlob proper rooted,
    fun _ => mem_expandGlob proper rooted⟩

/-- A run goes through the directories of the project in layers. -/
theorem expandGlob_exact_layered : layeredProject.IsProper ∧ Path.isAbsolute "/p/**/*.pipe" ∧
    Path.IsWithin "/p" "/p/sub/b.pipe" ∧
    (layeredProject.expandGlob "/p/**/*.pipe").Pairwise (· < ·) ∧
    "/p/sub/b.pipe".toList ∈ layeredProject.expandGlob "/p/**/*.pipe" := by
  have rooted : Path.isAbsolute "/p/**/*.pipe" := by decide
  obtain ⟨within, sorted, included⟩ := expandGlob_exact isProper_layeredProject rooted
  have matched : Glob.matchesPath "/p/**/*.pipe" "/p/sub/b.pipe" := by decide +kernel
  have below : layeredProject.IsBelow "/p" "/p/sub/b.pipe" :=
    ⟨by decide +kernel, ["sub"], "b.pipe", [255], rfl, by decide +kernel, by decide +kernel⟩
  exact ⟨isProper_layeredProject, rooted, within _ (by decide) matched, sorted,
    (included _).mpr ⟨below, matched⟩⟩

end Tree

end DatafileMigration
