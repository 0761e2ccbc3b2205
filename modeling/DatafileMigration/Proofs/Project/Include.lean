import DatafileMigration.Proofs.Project.Expansion

namespace DatafileMigration

namespace Glob

variable {pattern path front back : List Text}

/-- Segments without special characters match themselves only. -/
theorem matches_plain (plain : ∀ s ∈ pattern, ¬ Path.hasGlob s) :
    Matches pattern path ↔ path = pattern := by
  induction pattern generalizing path with
  | nil => exact matches_nil
  | cons p pattern ih =>
    obtain ⟨first, others⟩ := List.forall_mem_cons.mp plain
    simp only [matches_one (ne_run_of_plain first), matchesSegment_of_plain first, ih others]
    constructor
    · rintro ⟨_, _, rfl, rfl, rfl⟩
      rfl
    · rintro rfl
      exact ⟨p, pattern, rfl, rfl, rfl⟩

theorem matchesSegments_append : matchesSegments (front ++ back) path ↔
    ∃ first rest, path = first ++ rest ∧ matchesSegments front first ∧ matchesSegments back rest := by
  simp only [matchesSegments_iff, matches_append]

theorem literal_append (plain : ∀ s ∈ front, ¬ Path.hasGlob s) :
    literal (front ++ back) = front ++ literal back :=
  List.takeWhile_append_of_pos fun s member => by simp [plain s member]

end Glob

namespace Path

variable {p cwd pattern : Text}

theorem normalSegments_normalize (rooted : isAbsolute p) :
    normalSegments (normalize p) = normalSegments p := by
  rw [normalize_of_isAbsolute rooted]
  exact normalSegments_ofNames (isRoot_root rooted) (isName_of_mem_normalSegments rooted)

theorem root_normalize (rooted : isAbsolute p) : root (normalize p) = root p := by
  rw [normalize_of_isAbsolute rooted]
  exact root_ofNames (isRoot_root rooted) (isName_of_mem_normalSegments rooted)

/-- A pattern that goes nowhere up stands behind the directory from which it is read. -/
theorem normalSegments_absolute (rooted : isAbsolute cwd) (relative : ¬ isAbsolute pattern)
    (plain : ∀ s ∈ Path.segments pattern, s ≠ "." ∧ s ≠ "..") :
    normalSegments (absolute cwd pattern) = normalSegments cwd ++ Path.segments pattern := by
  have named : ∀ s ∈ Path.segments pattern, IsName s := fun s member =>
    ⟨(mem_segments member).1, (plain s member).1, (plain s member).2, (mem_segments member).2⟩
  rw [absolute, normalSegments_normalize (isAbsolute_join rooted pattern), normalSegments,
    segments_join relative, isAbsolute_join rooted, List.foldl_append, foldl_push_names named,
    List.reverse_append, List.reverse_reverse, normalSegments, rooted]

theorem root_absolute (rooted : isAbsolute cwd) (relative : ¬ isAbsolute pattern) :
    root (absolute cwd pattern) = root cwd := by
  rw [absolute, root_normalize (isAbsolute_join rooted pattern), root_join rooted relative]

end Path

namespace Tree

open DatafileMigration.Path (ofNames)

variable {root : Tree} {p cwd pattern : Text} {files : List IncludedFile} {seen : List Text}

/-- Files that are told by their paths are all kept. -/
theorem keepFirstPaths_of_nodup (new : ∀ f ∈ files, f.absolute ∉ seen)
    (distinct : (files.map IncludedFile.absolute).Nodup) : keepFirstPaths seen files = files := by
  induction files generalizing seen with
  | nil => rfl
  | cons f files ih =>
    obtain ⟨here, others⟩ := List.forall_mem_cons.mp new
    rw [List.map_cons, List.nodup_cons] at distinct
    rw [keepFirstPaths, if_neg (by simpa using here), ih ?_ distinct.2]
    intro g member
    rw [List.mem_cons, not_or]
    exact ⟨fun same => distinct.1 (List.mem_map.mpr ⟨g, member, same⟩), others g member⟩

/-- What one pattern with special characters includes. -/
theorem resolveIncludes_glob (proper : root.IsProper) (rooted : Path.isAbsolute cwd)
    (relative : ¬ Path.isAbsolute pattern) (glob : Path.hasGlob pattern) :
    root.resolveIncludes [pattern] cwd =
      if root.expandGlob (Path.absolute cwd pattern) = [] then .error (.noMatch pattern)
      else .ok ((root.expandGlob (Path.absolute cwd pattern)).map fun f =>
        ⟨Path.unifySlashes (Path.relative cwd f), f⟩) := by
  have rooted' := (isNormal_absolute rooted pattern).rooted
  rw [resolveIncludes_single, resolvePattern, if_pos glob]
  simp only [if_neg relative]
  split
  · rename_i none
    rw [if_pos none]
    rfl
  · rename_i some
    rw [if_neg some]
    refine congrArg Except.ok (keepFirstPaths_of_nodup (fun _ _ => List.not_mem_nil) ?_)
    rw [List.map_map, Function.comp_def, List.map_id']
    have inside := nodup_filesBelow proper (isNormal_rootDirectory rooted').rooted
    exact (List.mergeSort_perm _ _).nodup_iff.mpr (inside.filter _)

/-- A relative pattern matches the paths that can be cut in two, so that the working directory as a
pattern matches the first part, and the pattern the second one. -/
theorem mem_expandGlob_absolute (proper : root.IsProper) (rooted : Path.isAbsolute cwd)
    (relative : ¬ Path.isAbsolute pattern)
    (plain : ∀ s ∈ Path.segments pattern, s ≠ "." ∧ s ≠ "..") :
    p ∈ root.expandGlob (Path.absolute cwd pattern) ↔
      root.IsBelow (ofNames (Path.root cwd)
        (Glob.literal (Path.normalSegments cwd ++ Path.segments pattern))) p ∧
      ∃ front back, Path.normalSegments p = front ++ back ∧
        Glob.matchesSegments (Path.normalSegments cwd) front ∧
        Glob.matchesSegments (Path.segments pattern) back := by
  have rooted' := (isNormal_absolute rooted pattern).rooted
  have names := Path.normalSegments_absolute rooted relative plain
  have front := Path.root_absolute rooted relative
  rw [mem_expandGlob proper rooted', Glob.matchesPath, names, front, Bool.and_eq_true,
    decide_eq_true_eq, Glob.matchesSegments_append, ← front, ← names, ← Glob.rootDirectory_eq]
  refine and_congr_right fun below => and_iff_right ?_
  exact ((below.root_eq proper (isNormal_rootDirectory rooted').rooted).trans
    (root_rootDirectory rooted')).symm

/-- The path of a file that a pattern means when it is read from the working directory: it lies below
the segments of the pattern without special characters, and matches from the directory on. -/
def IsMeant (root : Tree) (cwd pattern p : Text) : Prop :=
  root.IsBelow (ofNames (Path.root cwd)
    (Path.normalSegments cwd ++ Glob.literal (Path.segments pattern))) p ∧
  ∃ back, Path.normalSegments p = Path.normalSegments cwd ++ back ∧
    Glob.matchesSegments (Path.segments pattern) back

/-- A relative pattern includes the files whose paths can be cut in two, so that the working
directory matches the first part as a pattern and the pattern matches the second one; it fails if
there are none. These are the files that it means if the directory holds no special characters. -/
theorem resolveIncludes_relative (proper : root.IsProper) (rooted : Path.isAbsolute cwd)
    (relative : ¬ Path.isAbsolute pattern) (glob : Path.hasGlob pattern)
    (plain : ∀ s ∈ Path.segments pattern, s ≠ "." ∧ s ≠ "..") :
    ∃ files : List Text, files.Pairwise (· < ·) ∧
      root.resolveIncludes [pattern] cwd =
        (if files = [] then .error (.noMatch pattern)
          else .ok (files.map fun f => ⟨Path.unifySlashes (Path.relative cwd f), f⟩)) ∧
      (∀ p, p ∈ files ↔
        root.IsBelow (ofNames (Path.root cwd)
          (Glob.literal (Path.normalSegments cwd ++ Path.segments pattern))) p ∧
        ∃ front back, Path.normalSegments p = front ++ back ∧
          Glob.matchesSegments (Path.normalSegments cwd) front ∧
          Glob.matchesSegments (Path.segments pattern) back) ∧
      ((∀ s ∈ Path.normalSegments cwd, ¬ Path.hasGlob s) →
        ∀ p, p ∈ files ↔ root.IsMeant cwd pattern p) := by
  have rooted' := (isNormal_absolute rooted pattern).rooted
  have included (p : Text) := mem_expandGlob_absolute (p := p) proper rooted relative plain
  refine ⟨root.expandGlob (Path.absolute cwd pattern), pairwise_expandGlob proper rooted',
    resolveIncludes_glob proper rooted relative glob, included, fun plain' p => ?_⟩
  rw [included, IsMeant, Glob.literal_append plain']
  refine and_congr_right fun _ => ?_
  simp only [Glob.matchesSegments_iff, Glob.matches_plain plain']
  constructor
  · rintro ⟨_, back, names, rfl, matched⟩
    exact ⟨back, names, matched⟩
  · rintro ⟨back, names, matched⟩
    exact ⟨_, back, names, rfl, matched⟩

/-- In the project in layers, the pattern is read from the directory as it says. -/
theorem resolveIncludes_relative_layered : layeredProject.IsProper ∧ Path.isAbsolute "/p" ∧
    ¬ Path.isAbsolute "**/*.pipe" ∧ Path.hasGlob "**/*.pipe" ∧
    (∀ s ∈ Path.segments "**/*.pipe", s ≠ "." ∧ s ≠ "..") ∧
    ∃ files : List Text, layeredProject.resolveIncludes ["**/*.pipe"] "/p" =
      (if files = [] then .error (.noMatch "**/*.pipe")
        else .ok (files.map fun f => ⟨Path.unifySlashes (Path.relative "/p" f), f⟩)) ∧
      "/p/sub/b.pipe".toList ∈ files := by
  have rooted : Path.isAbsolute "/p" := by decide
  have relative : ¬ Path.isAbsolute "**/*.pipe" := by decide
  have glob : Path.hasGlob "**/*.pipe" := by decide
  have plain : ∀ s ∈ Path.segments "**/*.pipe", s ≠ "." ∧ s ≠ ".." := by decide
  obtain ⟨files, -, resolved, -, meant⟩ :=
    resolveIncludes_relative isProper_layeredProject rooted relative glob plain
  have below : layeredProject.IsBelow "/p" "/p/sub/b.pipe" :=
    ⟨by decide +kernel, ["sub"], "b.pipe", [255], rfl, by decide +kernel, by decide +kernel⟩
  refine ⟨isProper_layeredProject, rooted, relative, glob, plain, files, resolved, ?_⟩
  exact (meant (by decide) _).mpr
    ⟨below, ["sub", "b.pipe"], by decide +kernel, by decide +kernel⟩

/-- A project in a directory whose name reads as a pattern for another name. -/
def bracketProject : Tree := .directory [("a[b]", .directory [("x.pipe", .file [])])]

theorem isProper_bracketProject : bracketProject.IsProper := by
  refine .directory (by decide) (by decide) (List.forall_mem_singleton.mpr ?_)
  refine .directory (by decide) (by decide) (List.forall_mem_singleton.mpr (.file _))

/-- From a directory whose name holds special characters, a pattern does not include what it
means. -/
theorem resolveIncludes_relative_bracket : ¬ ∀ (root : Tree) (cwd pattern : Text),
    root.IsProper → Path.isAbsolute cwd → ¬ Path.isAbsolute pattern → Path.hasGlob pattern →
    (∀ s ∈ Path.segments pattern, s ≠ "." ∧ s ≠ "..") →
    ∃ files : List Text,
      root.resolveIncludes [pattern] cwd =
        (if files = [] then .error (.noMatch pattern)
          else .ok (files.map fun f => ⟨Path.unifySlashes (Path.relative cwd f), f⟩)) ∧
      ∀ p, p ∈ files ↔ root.IsMeant cwd pattern p := by
  intro claimed
  obtain ⟨files, resolved, meant⟩ := claimed bracketProject "/a[b]" "*.pipe"
    isProper_bracketProject (by decide) (by decide) (by decide) (by decide)
  have below : bracketProject.IsBelow "/a[b]" "/a[b]/x.pipe" :=
    ⟨by decide +kernel, [], "x.pipe", [], rfl, by decide, by decide +kernel⟩
  have included : "/a[b]/x.pipe".toList ∈ files := (meant _).mpr
    ⟨below, ["x.pipe"], by decide +kernel, by decide +kernel⟩
  have refused : bracketProject.resolveIncludes ["*.pipe"] "/a[b]" = .error (.noMatch "*.pipe") := by
    decide +kernel
  rw [refused, if_neg (List.ne_nil_of_mem included)] at resolved
  cases resolved

end Tree

end DatafileMigration
