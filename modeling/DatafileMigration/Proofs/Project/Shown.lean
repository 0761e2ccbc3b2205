import DatafileMigration.Proofs.Project.Discovered
import DatafileMigration.Proofs.Project.Relative

namespace DatafileMigration.Tree

open Candidate (fresh fresh_sublist perm_fresh split_of_mem_fresh)
open DatafileMigration.Path (IsNormal)

variable {root : Tree} {p cwd pattern : Text} {patterns others : List Text}
  {c e : Candidate} {cs cs' : List Candidate} {f g : DiscoveredFile}

/-- A pattern leads to the file at a path. -/
def LeadsTo (root : Tree) (cwd pattern p : Text) : Prop :=
  ∃ c ∈ root.found root.resolveIncludes cwd pattern, c.absolute = p

/-- A path in a system as it is shown from a directory. -/
def relativePath (cwd p : Text) : Text := Path.unifySlashes (Path.relative cwd p)

/-- No two files that patterns lead to have paths that are the same but for the kind of their
slashes, be it the whole ones or the relative ones. -/
def PathsTell (root : Tree) (cwd : Text) (patterns : List Text) : Prop :=
  ∀ p q, (∃ pattern ∈ patterns, root.LeadsTo cwd pattern p) →
    (∃ pattern ∈ patterns, root.LeadsTo cwd pattern q) →
    (Path.unifySlashes p = Path.unifySlashes q ∨ relativePath cwd p = relativePath cwd q) → p = q

theorem resource?_eq_some (read : root.resource? c = some f) :
    f.absolute = c.absolute ∧ f.file.path = c.path := by
  rw [resource?] at read
  split at read
  · cases read
    exact ⟨rfl, rfl⟩
  · cases read

/-- Candidates that no rooted glob offers are told by their paths. -/
theorem Offers.eq_of_absolute {other : Text} (offers : root.Offers cwd pattern c)
    (offers' : root.Offers cwd other e) (plain : ¬ root.IsRootedGlob cwd pattern)
    (plain' : ¬ root.IsRootedGlob cwd other) (same : c.absolute = e.absolute) : c = e := by
  obtain ⟨kind, absolute, path⟩ := c
  obtain ⟨kind', absolute', path'⟩ := e
  obtain rfl : absolute = absolute' := same
  obtain rfl : kind = kind' := Option.some.inj (offers.kind.symm.trans offers'.kind)
  have shown := offers.path
  have shown' := offers'.path
  rw [shownPath, if_neg plain] at shown
  rw [shownPath, if_neg plain'] at shown'
  obtain rfl : path = path' := shown.trans shown'.symm
  rfl

theorem unifySlashes_of_not_mem {p : Text} (absent : '\\' ∉ p) : Path.unifySlashes p = p := by
  have kept : ∀ c ∈ p, (if c = '\\' then '/' else c) = id c := by
    intro c member
    refine if_neg ?_
    rintro rfl
    exact absent member
  rw [Path.unifySlashes, Text.replaceChar, List.map_congr_left kept, List.map_id]

/-- Paths tell files apart that hold no backslash and begin with the same slashes. -/
theorem pathsTell_of_slashes (proper : root.IsProper) (rooted : Path.isAbsolute cwd) (front : Text)
    (slashes : ∀ pattern ∈ patterns, ∀ p, root.LeadsTo cwd pattern p →
      '\\' ∉ p ∧ Path.root p = front) : root.PathsTell cwd patterns := by
  rintro p q ⟨pattern, listed, led⟩ ⟨pattern', listed', led'⟩ equal
  have normal {pattern p : Text} (led : root.LeadsTo cwd pattern p) : IsNormal p := by
    obtain ⟨c, member, rfl⟩ := led
    exact (offers_of_mem_found proper rooted member).file.normal
  obtain ⟨absent, begins⟩ := slashes pattern listed p led
  obtain ⟨absent', begins'⟩ := slashes pattern' listed' q led'
  rcases equal with whole | relative
  · rwa [unifySlashes_of_not_mem absent, unifySlashes_of_not_mem absent'] at whole
  · have absent := Path.not_mem_relative (normal led) absent (by decide) (by decide) cwd
    have absent' := Path.not_mem_relative (normal led') absent' (by decide) (by decide) cwd
    rw [relativePath, relativePath, unifySlashes_of_not_mem absent,
      unifySlashes_of_not_mem absent'] at relative
    exact Path.eq_of_relative rooted (normal led) (normal led') (begins.trans begins'.symm) relative

theorem leadsTo_iff_reached : (∃ pattern ∈ patterns, root.LeadsTo cwd pattern p) ↔
    ∃ c ∈ root.reached root.resolveIncludes cwd patterns, c.absolute = p := by
  constructor
  · rintro ⟨pattern, listed, c, led, here⟩
    exact ⟨c, List.mem_flatMap.mpr ⟨pattern, listed, led⟩, here⟩
  · rintro ⟨c, member, here⟩
    obtain ⟨pattern, listed, led⟩ := List.mem_flatMap.mp member
    exact ⟨pattern, listed, c, led, here⟩

theorem shown_of_mem_files (proper : root.IsProper) (rooted : Path.isAbsolute cwd)
    (taken : c ∈ fresh [] (root.reached root.resolveIncludes cwd patterns))
    (read : root.resource? c = some f) : ∃ before pattern after,
      patterns = before ++ pattern :: after ∧ root.LeadsTo cwd pattern f.absolute ∧
      (∀ earlier ∈ before, ∀ p, root.LeadsTo cwd earlier p →
        Path.unifySlashes p ≠ Path.unifySlashes f.absolute) ∧
      f.file.path = root.shownPath cwd pattern f.absolute := by
  obtain ⟨absolute, path⟩ := resource?_eq_some read
  obtain ⟨before, pattern, after, whole, led, others⟩ := split_of_mem_fresh taken
  have offers := offers_of_mem_found proper rooted led
  refine ⟨before, pattern, after, whole, ⟨c, led, absolute.symm⟩, ?_, ?_⟩
  · rintro earlier listed p ⟨c', led', rfl⟩
    rw [absolute, ← offers.file.key, ← (offers_of_mem_found proper rooted led').file.key]
    exact others earlier listed c' led'
  · rw [path, absolute]
    exact offers.path

/-- Without patterns for absolute paths, what is reached is told by its paths. -/
theorem eq_of_mem_reached (proper : root.IsProper) (rooted : Path.isAbsolute cwd)
    (plain : ∀ pattern ∈ patterns ++ others, ¬ root.IsRootedGlob cwd pattern)
    (c e : Candidate) (member : c ∈ root.reached root.resolveIncludes cwd (patterns ++ others))
    (member' : e ∈ root.reached root.resolveIncludes cwd (patterns ++ others))
    (same : c.absolute = e.absolute) : c = e := by
  obtain ⟨pattern, listed, offers⟩ := offers_of_mem_reached proper rooted member
  obtain ⟨pattern', listed', offers'⟩ := offers_of_mem_reached proper rooted member'
  exact offers.eq_of_absolute offers' (plain pattern listed) (plain pattern' listed') same

/-- Where paths tell files apart, it does not matter which patterns lead to them. -/
theorem sorted_files_eq (proper : root.IsProper) (rooted : Path.isAbsolute cwd)
    (plain : ∀ pattern ∈ patterns ++ others, ¬ root.IsRootedGlob cwd pattern)
    (same : ∀ p, (∃ pattern ∈ patterns, root.LeadsTo cwd pattern p) ↔
      ∃ pattern ∈ others, root.LeadsTo cwd pattern p)
    (tell : root.PathsTell cwd patterns) :
    (((fresh [] (root.reached root.resolveIncludes cwd patterns)).filterMap
      root.resource?).mergeSort fun a b => Text.precedes a.file.path b.file.path) =
    ((fresh [] (root.reached root.resolveIncludes cwd others)).filterMap
      root.resource?).mergeSort fun a b => Text.precedes a.file.path b.file.path := by
  have both : root.reached root.resolveIncludes cwd (patterns ++ others) =
      root.reached root.resolveIncludes cwd patterns ++
        root.reached root.resolveIncludes cwd others := List.flatMap_append
  have told := eq_of_mem_reached proper rooted plain
  rw [both] at told
  have alike (c : Candidate) : c ∈ root.reached root.resolveIncludes cwd patterns ↔
      c ∈ root.reached root.resolveIncludes cwd others := by
    constructor
    · intro member
      obtain ⟨e, member', here⟩ := leadsTo_iff_reached.mp ((same c.absolute).mp
        (leadsTo_iff_reached.mpr ⟨c, member, rfl⟩))
      rwa [← told _ _ (List.mem_append_right _ member') (List.mem_append_left _ member) here]
    · intro member
      obtain ⟨e, member', here⟩ := leadsTo_iff_reached.mp ((same c.absolute).mpr
        (leadsTo_iff_reached.mpr ⟨c, member, rfl⟩))
      rwa [← told _ _ (List.mem_append_left _ member') (List.mem_append_right _ member) here]
  have apart {c c' : Candidate} (member : c ∈ root.reached root.resolveIncludes cwd patterns)
      (member' : c' ∈ root.reached root.resolveIncludes cwd patterns)
      (equal : Path.unifySlashes c.absolute = Path.unifySlashes c'.absolute ∨
        relativePath cwd c.absolute = relativePath cwd c'.absolute) : c = c' :=
    told _ _ (List.mem_append_left _ member) (List.mem_append_left _ member')
      (tell _ _ (leadsTo_iff_reached.mpr ⟨c, member, rfl⟩)
        (leadsTo_iff_reached.mpr ⟨c', member', rfl⟩) equal)
  refine Text.mergeSort_eq_of_perm (fun f : DiscoveredFile => f.file.path)
    ((perm_fresh ?_ alike).filterMap _) ?_
  · intro c member c' member' keys
    obtain ⟨_, _, offers⟩ := offers_of_mem_reached proper rooted member
    obtain ⟨_, _, offers'⟩ := offers_of_mem_reached proper rooted member'
    rw [offers.file.key, offers'.file.key] at keys
    exact apart member member' (.inl keys)
  · have shown {c : Candidate} (member : c ∈ root.reached root.resolveIncludes cwd patterns) :
        c.path = relativePath cwd c.absolute := by
      obtain ⟨pattern, listed, offers⟩ := offers_of_mem_reached proper rooted member
      rw [offers.path, shownPath, if_neg (plain pattern (List.mem_append_left _ listed)),
        relativePath]
    intro f member g member' paths
    obtain ⟨c, taken, read⟩ := List.mem_filterMap.mp member
    obtain ⟨c', taken', read'⟩ := List.mem_filterMap.mp member'
    have member := (fresh_sublist _ _).subset taken
    have member' := (fresh_sublist _ _).subset taken'
    rw [(resource?_eq_some read).2, (resource?_eq_some read').2, shown member, shown member'] at paths
    obtain rfl := apart member member' (.inr paths)
    exact Option.some.inj (read.symm.trans read')

/-- A file is shown by its path as read from the working directory, unless the first pattern that
leads to it is a rooted glob. Without such patterns, what is discovered depends on nothing but the
files that the patterns lead to, if their paths tell them apart. -/
theorem discover_relative (proper : root.IsProper) (rooted : Path.isAbsolute cwd)
    (patterns : List Text) :
    ∃ d, root.discover root.resolveIncludes cwd patterns = .ok d ∧
      (∀ f ∈ d.files, ∃ before pattern after, patterns = before ++ pattern :: after ∧
        root.LeadsTo (Path.normalize cwd) pattern f.absolute ∧
        (∀ earlier ∈ before, ∀ p, root.LeadsTo (Path.normalize cwd) earlier p →
          Path.unifySlashes p ≠ Path.unifySlashes f.absolute) ∧
        f.file.path = root.shownPath (Path.normalize cwd) pattern f.absolute) ∧
      ∀ others,
        (∀ pattern ∈ patterns ++ others, ¬ root.IsRootedGlob (Path.normalize cwd) pattern) →
        (∀ p, (∃ pattern ∈ patterns, root.LeadsTo (Path.normalize cwd) pattern p) ↔
          ∃ pattern ∈ others, root.LeadsTo (Path.normalize cwd) pattern p) →
        root.PathsTell (Path.normalize cwd) patterns →
        ∃ d', root.discover root.resolveIncludes cwd others = .ok d' ∧ d'.files = d.files := by
  have rooted' := (Path.isNormal_normalize rooted).rooted
  obtain ⟨d, _, discovered, rfl, files, -⟩ := exists_discover proper rooted patterns
  refine ⟨d, discovered, fun f member => ?_, fun others plain same tell => ?_⟩
  · rw [files, List.mem_mergeSort, List.mem_filterMap] at member
    obtain ⟨c, taken, read⟩ := member
    exact shown_of_mem_files proper rooted' taken read
  · obtain ⟨d', _, discovered', rfl, files', -⟩ := exists_discover proper rooted others
    refine ⟨d', discovered', ?_⟩
    rw [files, files', led, led, sorted_files_eq proper rooted' plain same tell]

theorem discover_relative_layered : ∃ d d',
    layeredProject.discover layeredProject.resolveIncludes "/p" [".", "*.datasource"] = .ok d ∧
      layeredProject.discover layeredProject.resolveIncludes "/p" ["*.datasource", "."] = .ok d' ∧
      d'.files = d.files ∧ d.files ≠ [] ∧
      ∀ f ∈ d.files, ∃ pattern, f.file.path = layeredProject.shownPath "/p" pattern f.absolute := by
  obtain ⟨d, discovered, shown, alike⟩ := discover_relative isProper_layeredProject
    (by decide : Path.isAbsolute "/p") [".", "*.datasource"]
  have tell : layeredProject.PathsTell "/p" [".", "*.datasource"] := by
    have slashes : ∀ pattern ∈ ([".", "*.datasource"] : List Text),
        ∀ c ∈ layeredProject.found layeredProject.resolveIncludes "/p" pattern,
        '\\' ∉ c.absolute ∧ Path.root c.absolute = "/" := by decide +kernel
    refine pathsTell_of_slashes isProper_layeredProject (by decide) "/" ?_
    rintro pattern listed p ⟨c, member, rfl⟩
    exact slashes pattern listed c member
  obtain ⟨d', discovered', same⟩ := alike ["*.datasource", "."] (by decide +kernel)
    (fun _ => exists_congr fun _ => and_congr_left fun _ => (List.Perm.swap _ _ []).mem_iff) tell
  obtain ⟨d'', discovered'', some⟩ := exists_eq_ok (p := fun d => d.files ≠ [])
    (x := layeredProject.discover layeredProject.resolveIncludes "/p" [".", "*.datasource"])
    (by decide +kernel)
  obtain rfl : d = d'' := Except.ok.inj (discovered.symm.trans discovered'')
  refine ⟨d, d', discovered, discovered', same, of_decide_eq_true some, fun f member => ?_⟩
  obtain ⟨_, pattern, _, _, _, _, path⟩ := shown f member
  exact ⟨pattern, path⟩

/-- A file that a rooted glob leads to is shown by its whole path. -/
theorem discover_relative_rooted : ¬ ∀ (root : Tree) (cwd : Text) (patterns : List Text),
    root.IsProper → Path.isAbsolute cwd →
    ∃ d, root.discover root.resolveIncludes cwd patterns = .ok d ∧
      (∀ f ∈ d.files, f.file.path = relativePath (Path.normalize cwd) f.absolute) ∧
      ∀ others, others.Perm patterns →
        ∃ d', root.discover root.resolveIncludes cwd others = .ok d' ∧ d'.files = d.files := by
  intro claimed
  obtain ⟨d, discovered, shown, _⟩ :=
    claimed layeredProject "/p" ["/p/*.datasource"] isProper_layeredProject (by decide)
  obtain ⟨d', discovered', whole⟩ := exists_eq_ok (p := fun d => d.files.any fun f =>
      f.file.path ≠ relativePath "/p" f.absolute)
    (x := layeredProject.discover layeredProject.resolveIncludes "/p" ["/p/*.datasource"])
    (by decide +kernel)
  obtain rfl : d = d' := Except.ok.inj (discovered.symm.trans discovered')
  obtain ⟨f, member, other⟩ := List.any_eq_true.mp whole
  exact of_decide_eq_true other (shown f member)

end DatafileMigration.Tree
