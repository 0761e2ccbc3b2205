import DatafileMigration.Project.Discovery
import DatafileMigration.Proofs.Project.Walk

namespace DatafileMigration

open DatafileMigration.Path (IsName)

/-- Whether a path has the extension of a datafile. -/
def Path.isDatafile (p : Text) : Bool := (Path.kind? p).isSome

/-- Two discoveries of the same datafiles; what failed may differ. -/
structure Discovery.Alike (d d' : Discovery) : Prop where
  files : d'.files = d.files
  seen : d'.seen = d.seen

/-- Steps that keep discoveries alike do so one after the other. -/
theorem Discovery.Alike.foldlM {α : Type} {take take' : Discovery → α → Except Breakdown Discovery}
    {items : List α} {d d' last : Discovery} (alike : d.Alike d')
    (each : ∀ a ∈ items, ∀ d d' next : Discovery, d.Alike d' → take d a = .ok next →
      ∃ next', take' d' a = .ok next' ∧ next.Alike next')
    (taken : items.foldlM take d = .ok last) :
    ∃ last', items.foldlM take' d' = .ok last' ∧ last.Alike last' := by
  induction items generalizing d d' with
  | nil =>
    obtain rfl := Except.ok.inj taken
    exact ⟨d', rfl, alike⟩
  | cons a items ih =>
    rw [List.foldlM_cons, bind_eq_ok] at taken
    obtain ⟨next, first, taken⟩ := taken
    obtain ⟨here, others⟩ := List.forall_mem_cons.mp each
    obtain ⟨next', first', alike⟩ := here d d' next alike first
    obtain ⟨last', taken', alike⟩ := ih alike others taken
    refine ⟨last', ?_, alike⟩
    rw [List.foldlM_cons, bind_eq_ok]
    exact ⟨next', first', taken'⟩

namespace Tree

variable {root tree : Tree} {parent : Place} {name path cwd pattern : Text} {content : Text.Octets}
  {d d' next : Discovery} {c : Candidate} {resolver : Resolver}

/-- Whoever looks for datafiles finds the same ones in both trees, and nothing of the first tree is
missing in the second. -/
structure SameDatafiles (root tree : Tree) : Prop where
  directories : ∀ path, tree.hasDirectory path = root.hasDirectory path
  files : ∀ path, root.hasFile path → tree.hasFile path
  named : ∀ path n, Path.isDatafile path → (tree.Finds path n ↔ root.Finds path n)
  below : ∀ path, (tree.filesBelow path).filter Path.isDatafile =
    (root.filesBelow path).filter Path.isDatafile

/-- A datafile does not stand at a place of another name. -/
theorem locate_ne_of_isDatafile (unknown : Path.kind? name = none)
    (known : Path.isDatafile path) : root.locate path ≠ .ok (parent ++ [name]) := by
  intro located
  obtain ⟨parent', same⟩ := locate_last located (Path.isName_of_kind? known)
  obtain rfl : name = Path.baseName path := List.singleton_inj.mp (List.append_inj_right' same rfl)
  rw [Path.isDatafile, ← Path.kind?_baseName, unknown] at known
  cases known

theorem Slot.sameDatafiles (slot : Slot root parent name) (isName : IsName name)
    (unknown : Path.kind? name = none) (content : Text.Octets) :
    SameDatafiles root (put (.file content) (parent ++ [name]) root) := by
  have written := slot.written content
  constructor
  case directories => exact written.hasDirectory_eq
  case files => exact fun path found => written.hasFile_of_root found
  case named =>
    intro path n known
    exact written.finds_iff_of_apart (locate_ne_of_isDatafile unknown known)
  case below =>
    intro path
    refine filter_filesBelow slot (fun directory => ?_) path
    rw [Path.isDatafile, Path.kind?_join isName, unknown]
    rfl

theorem candidate?_of_not_isDatafile {absolute : Text} (unknown : ¬ Path.isDatafile absolute)
    (path : Text) : candidate? absolute path = none := by
  rw [Path.isDatafile, Option.not_isSome_iff_eq_none] at unknown
  rw [candidate?, unknown, Option.map_none]

theorem isDatafile_of_candidate? {absolute : Text} (found : candidate? absolute path = some c) :
    Path.isDatafile c.absolute := by
  obtain ⟨kind, known, rfl⟩ := Option.map_eq_some_iff.mp found
  exact Option.isSome_iff_exists.mpr ⟨kind, known⟩

/-- Candidates are the datafiles among files. -/
theorem filterMap_candidate? {α : Type} (absolute shown : α → Text) (files : List α) :
    files.filterMap (fun f => candidate? (absolute f) (shown f)) =
      (files.filter (Path.isDatafile ∘ absolute)).filterMap
        fun f => candidate? (absolute f) (shown f) := by
  rw [List.filterMap_filter]
  refine congrArg (List.filterMap · files) (funext fun f => ?_)
  by_cases known : Path.isDatafile (absolute f)
  · exact (if_pos known).symm
  · rw [candidate?_of_not_isDatafile known]
    exact (if_neg known).symm

/-- What a pattern leads to: its candidates, or nothing if it fails. -/
def found (root : Tree) (resolver : Resolver) (cwd pattern : Text) : List Candidate :=
  (root.candidates resolver cwd pattern).toOption.getD []

theorem isDatafile_of_mem_found (member : c ∈ root.found resolver cwd pattern) :
    Path.isDatafile c.absolute := by
  rw [found, candidates] at member
  dsimp only at member
  split at member
  · obtain ⟨f, _, made⟩ := List.mem_filterMap.mp member
    exact isDatafile_of_candidate? made
  split at member
  · split at member
    · rename_i made
      obtain rfl := List.mem_singleton.mp member
      exact isDatafile_of_candidate? made
    · cases member
  split at member
  · cases member
  · obtain ⟨f, _, made⟩ := List.mem_filterMap.mp member
    exact isDatafile_of_candidate? made

/-- A pattern that fails leaves a failure and no datafile. -/
theorem discoverPattern_found (root : Tree) (resolver : Resolver) (cwd : Text) (d : Discovery)
    (pattern : Text) : ∃ failures, root.discoverPattern resolver cwd d pattern =
      (root.found resolver cwd pattern).foldlM root.discoverCandidate { d with failures } := by
  rw [discoverPattern, found]
  cases root.candidates resolver cwd pattern with
  | ok cs => exact ⟨d.failures, rfl⟩
  | error e => exact ⟨d.failures ++ [e], rfl⟩

theorem keepFirstPaths_filter (p : Text → Bool) (files : List IncludedFile) {seen seen' : List Text}
    (agree : ∀ path, p path → (path ∈ seen ↔ path ∈ seen')) :
    (keepFirstPaths seen files).filter (p ∘ IncludedFile.absolute) =
      keepFirstPaths seen' (files.filter (p ∘ IncludedFile.absolute)) := by
  induction files generalizing seen seen' with
  | nil => rfl
  | cons f files ih =>
    by_cases chosen : (p ∘ IncludedFile.absolute) f = true
    · rw [List.filter_cons_of_pos chosen, keepFirstPaths, keepFirstPaths]
      simp only [List.contains_iff_mem, agree _ chosen]
      split
      · exact ih agree
      · rw [List.filter_cons_of_pos chosen]
        refine congrArg (f :: ·) (ih fun path known => ?_)
        rw [List.mem_cons, List.mem_cons, agree path known]
    · rw [List.filter_cons_of_neg chosen, keepFirstPaths]
      split
      · exact ih agree
      · rw [List.filter_cons_of_neg chosen]
        refine ih fun path known => ?_
        have other : path ≠ f.absolute := by
          rintro rfl
          exact chosen known
        rw [List.mem_cons, or_iff_right other, agree path known]

theorem resolveIncludes_single (root : Tree) (cwd pattern : Text) :
    root.resolveIncludes [pattern] cwd = (root.resolvePattern cwd pattern).map (keepFirstPaths []) := by
  rw [resolveIncludes, List.mapM_cons, List.mapM_nil]
  cases root.resolvePattern cwd pattern with
  | error e => rfl
  | ok files =>
    refine congrArg (Except.ok ∘ keepFirstPaths []) ?_
    exact List.append_nil files

/-- The files that one pattern includes; none if it fails. -/
def includes (root : Tree) (cwd pattern : Text) : List IncludedFile :=
  (root.resolvePattern cwd pattern).toOption.getD []

theorem found_of_hasDirectory (isDirectory : root.hasDirectory (Path.absolute cwd pattern)) :
    root.found resolver cwd pattern =
      ((root.filesBelow (Path.absolute cwd pattern)).filter Path.isDatafile).filterMap
        fun f => candidate? f (Path.unifySlashes (Path.relative cwd f)) := by
  rw [found, candidates]
  dsimp only
  rw [if_pos isDirectory]
  exact filterMap_candidate? id _ _

theorem found_of_hasFile (noDirectory : root.hasDirectory (Path.absolute cwd pattern) = false)
    (isFile : root.hasFile (Path.absolute cwd pattern)) :
    root.found resolver cwd pattern = (candidate? (Path.absolute cwd pattern)
      (Path.unifySlashes (Path.relative cwd (Path.absolute cwd pattern)))).toList := by
  rw [found, candidates]
  dsimp only
  rw [noDirectory, if_neg Bool.false_ne_true, if_pos isFile]
  cases candidate? _ _ <;> rfl

/-- A pattern that is left to the resolver leads to the datafiles among what it includes. -/
theorem found_of_includes (noDirectory : root.hasDirectory (Path.absolute cwd pattern) = false)
    (noFile : root.hasFile (Path.absolute cwd pattern) = false) :
    root.found root.resolveIncludes cwd pattern =
      (keepFirstPaths [] ((root.includes cwd pattern).filter
        (Path.isDatafile ∘ IncludedFile.absolute))).filterMap
          fun f => candidate? f.absolute (Path.unifySlashes f.source) := by
  have resolved : root.found root.resolveIncludes cwd pattern =
      (keepFirstPaths [] (root.includes cwd pattern)).filterMap
        fun f => candidate? f.absolute (Path.unifySlashes f.source) := by
    rw [found, candidates]
    dsimp only
    rw [noDirectory, if_neg Bool.false_ne_true, noFile, if_neg Bool.false_ne_true,
      resolveIncludes_single, includes]
    cases root.resolvePattern cwd pattern <;> rfl
  rw [resolved, filterMap_candidate? IncludedFile.absolute fun f => Path.unifySlashes f.source,
    ← keepFirstPaths_filter Path.isDatafile _ fun _ _ => Iff.rfl]

/-- The path of a pattern: one that is absolute is taken as it is. -/
def patternPath (cwd pattern : Text) : Text :=
  if Path.isAbsolute pattern then pattern else Path.absolute cwd pattern

theorem includes_glob (glob : Path.hasGlob pattern) : root.includes cwd pattern =
    (root.expandGlob (patternPath cwd pattern)).map
      fun f => { source := Path.unifySlashes (if Path.isAbsolute pattern then f
        else Path.relative cwd f), absolute := f } := by
  rw [includes, resolvePattern, if_pos glob, ← patternPath]
  split
  · rename_i none
    rw [none]
    rfl
  · rfl

theorem exists?_eq_ok_true : root.exists? path = .ok true ↔ root.has path := by
  rw [exists?, has, leadsTo]
  by_cases impossible : isImpossible path = true
  · simp [impossible]
  rw [if_neg impossible]
  rw [Bool.not_eq_true] at impossible
  cases root.find path with
  | ok t => simp [impossible]
  | error e => cases e <;> simp

theorem includes_plain (plain : ¬ Path.hasGlob pattern) : root.includes cwd pattern =
    if root.has (Path.tidy (patternPath cwd pattern)) then
      [{ source := Path.unifySlashes pattern, absolute := patternPath cwd pattern }] else [] := by
  rw [includes, resolvePattern, if_neg plain, ← patternPath]
  by_cases present : root.has (Path.tidy (patternPath cwd pattern)) = true
  · rw [exists?_eq_ok_true.mpr present, if_pos present]
    rfl
  · rw [if_neg present]
    have absent := mt exists?_eq_ok_true.mp present
    cases tested : root.exists? (Path.tidy (patternPath cwd pattern)) with
    | error e => rfl
    | ok there =>
      cases there with
      | false => rfl
      | true => exact absurd tested absent

/-- What a plain pattern includes is a datafile only if the path of the pattern is one. -/
theorem isDatafile_of_patternPath (known : Path.isDatafile (patternPath cwd pattern)) :
    Path.isDatafile (Path.absolute cwd pattern) := by
  rw [patternPath] at known
  by_cases rooted : Path.isAbsolute pattern = true
  · rw [if_pos rooted] at known
    rw [Path.absolute, Path.join, if_pos rooted, Path.isDatafile, Path.kind?_normalize known]
    exact known
  · rwa [if_neg rooted] at known

theorem filter_includes_plain (plain : ¬ Path.hasGlob pattern)
    (unknown : ¬ Path.isDatafile (patternPath cwd pattern)) :
    (root.includes cwd pattern).filter (Path.isDatafile ∘ IncludedFile.absolute) = [] := by
  rw [includes_plain plain]
  split
  · exact List.filter_cons_of_neg unknown
  · rfl

/-- A glob pattern that leads to datafiles does not come to name a file, for which it would stand
instead of what it matches. -/
def GlobStays (root tree : Tree) (cwd pattern : Text) : Prop :=
  Path.hasGlob pattern → root.found root.resolveIncludes cwd pattern ≠ [] →
    tree.hasFile (Path.absolute cwd pattern) → root.hasFile (Path.absolute cwd pattern)

instance (root tree : Tree) (cwd pattern : Text) : Decidable (GlobStays root tree cwd pattern) :=
  inferInstanceAs (Decidable (_ → _ → _ → _))

namespace SameDatafiles

theorem hasFile_eq (same : SameDatafiles root tree) (known : Path.isDatafile path) :
    tree.hasFile path = root.hasFile path := by
  rw [Bool.eq_iff_iff, hasFile_iff, hasFile_iff]
  simp only [same.named path _ known]

theorem has_eq (same : SameDatafiles root tree) (known : Path.isDatafile path) :
    tree.has path = root.has path := by
  rw [Bool.eq_iff_iff, has_iff, has_iff]
  simp only [same.named path _ known]

theorem filter_expandGlob (same : SameDatafiles root tree) (pattern : Text) :
    (tree.expandGlob pattern).filter Path.isDatafile =
      (root.expandGlob pattern).filter Path.isDatafile := by
  rw [expandGlob, expandGlob, Text.filter_mergeSort, Text.filter_mergeSort, List.filter_comm,
    same.below, List.filter_comm]

theorem filter_includes (same : SameDatafiles root tree) (cwd pattern : Text) :
    (tree.includes cwd pattern).filter (Path.isDatafile ∘ IncludedFile.absolute) =
      (root.includes cwd pattern).filter (Path.isDatafile ∘ IncludedFile.absolute) := by
  by_cases glob : Path.hasGlob pattern
  · rw [includes_glob glob, includes_glob glob, List.filter_map, List.filter_map]
    exact congrArg (List.map _) (same.filter_expandGlob _)
  by_cases known : Path.isDatafile (patternPath cwd pattern) = true
  · have tidied : Path.isDatafile (Path.tidy (patternPath cwd pattern)) := by
      rw [Path.isDatafile, Path.kind?_tidy known]
      exact known
    rw [includes_plain glob, includes_plain glob, same.has_eq tidied]
  · rw [filter_includes_plain glob known, filter_includes_plain glob known]

/-- A pattern leads to the same datafiles, unless it names a new file in place of what it matches. -/
theorem found_eq (same : SameDatafiles root tree) (stays : GlobStays root tree cwd pattern) :
    tree.found tree.resolveIncludes cwd pattern = root.found root.resolveIncludes cwd pattern := by
  by_cases isDirectory : root.hasDirectory (Path.absolute cwd pattern) = true
  · have isDirectory' := (same.directories (Path.absolute cwd pattern)).trans isDirectory
    rw [found_of_hasDirectory isDirectory, found_of_hasDirectory isDirectory', same.below]
  rw [Bool.not_eq_true] at isDirectory
  have isDirectory' := (same.directories (Path.absolute cwd pattern)).trans isDirectory
  by_cases isFile : root.hasFile (Path.absolute cwd pattern) = true
  · rw [found_of_hasFile isDirectory isFile, found_of_hasFile isDirectory' (same.files _ isFile)]
  by_cases isFile' : tree.hasFile (Path.absolute cwd pattern) = true
  · -- The pattern names a new file: it is no datafile, and was none when there was no file yet.
    have unknown : ¬ Path.isDatafile (Path.absolute cwd pattern) :=
      fun known => isFile ((same.hasFile_eq known).symm.trans isFile')
    rw [found_of_hasFile isDirectory' isFile', candidate?_of_not_isDatafile unknown]
    by_cases glob : Path.hasGlob pattern = true
    · by_contra some
      exact isFile (stays glob (Ne.symm some) isFile')
    · rw [Bool.not_eq_true] at isFile
      rw [found_of_includes isDirectory isFile,
        filter_includes_plain glob (mt isDatafile_of_patternPath unknown)]
      rfl
  · rw [Bool.not_eq_true] at isFile isFile'
    rw [found_of_includes isDirectory isFile, found_of_includes isDirectory' isFile',
      same.filter_includes]

/-- Reading a datafile gives the same text, or is refused as it was. -/
theorem readText_cases (same : SameDatafiles root tree) (known : Path.isDatafile path) :
    tree.readText path = root.readText path ∨
      ∃ e e', root.readText path = .error (.refused e) ∧ tree.readText path = .error (.refused e') := by
  have agree : ∀ octets, tree.read path = .ok octets ↔ root.read path = .ok octets :=
    fun octets => read_eq_ok.trans ((same.named path _ known).trans read_eq_ok.symm)
  rw [readText, readText]
  by_cases impossible : isImpossible path = true
  · exact Or.inl (by rw [if_pos impossible, if_pos impossible])
  rw [if_neg impossible, if_neg impossible]
  cases read : root.read path with
  | ok octets =>
    rw [(agree octets).mpr read]
    exact Or.inl rfl
  | error e =>
    cases read' : tree.read path with
    | ok octets => cases read.symm.trans ((agree octets).mp read')
    | error e' => exact Or.inr ⟨_, _, rfl, rfl⟩

theorem discoverCandidate (same : SameDatafiles root tree) (known : Path.isDatafile c.absolute)
    (alike : d.Alike d') (taken : root.discoverCandidate d c = .ok next) :
    ∃ next', tree.discoverCandidate d' c = .ok next' ∧ next.Alike next' := by
  rw [Tree.discoverCandidate] at taken ⊢
  dsimp only at taken ⊢
  rw [alike.seen]
  split at taken
  case isTrue seen =>
    obtain rfl := Except.ok.inj taken
    exact ⟨d', if_pos seen, alike⟩
  case isFalse new =>
    rw [if_neg new]
    rcases same.readText_cases known with equal | ⟨e, e', refused, refused'⟩
    · rw [equal]
      cases read : root.readText c.absolute with
      | ok content =>
        rw [read] at taken
        obtain rfl := Except.ok.inj taken
        exact ⟨_, rfl, by rw [alike.files], rfl⟩
      | error fault =>
        rw [read] at taken
        cases fault with
        | broken why => cases taken
        | refused e =>
          obtain rfl := Except.ok.inj taken
          exact ⟨_, rfl, alike.files, rfl⟩
    · rw [refused] at taken
      rw [refused']
      obtain rfl := Except.ok.inj taken
      exact ⟨_, rfl, alike.files, rfl⟩

theorem discoverPattern (same : SameDatafiles root tree) (stays : GlobStays root tree cwd pattern)
    (alike : d.Alike d') (taken : root.discoverPattern root.resolveIncludes cwd d pattern = .ok next) :
    ∃ next', tree.discoverPattern tree.resolveIncludes cwd d' pattern = .ok next' ∧
      next.Alike next' := by
  obtain ⟨failures, first⟩ := discoverPattern_found root root.resolveIncludes cwd d pattern
  obtain ⟨failures', again⟩ := discoverPattern_found tree tree.resolveIncludes cwd d' pattern
  rw [first] at taken
  rw [again, same.found_eq stays]
  have start : Discovery.Alike { d with failures } { d' with failures := failures' } :=
    ⟨alike.files, alike.seen⟩
  refine start.foldlM (fun c member d d' next alike taken => ?_) taken
  exact same.discoverCandidate (isDatafile_of_mem_found member) alike taken

end SameDatafiles

/-- The same datafiles are discovered in a tree in which another file was written, unless a glob
pattern has come to name that file. -/
theorem SameDatafiles.discover (same : SameDatafiles root tree) {patterns : List Text}
    (stay : ∀ pattern ∈ patterns, GlobStays root tree (Path.normalize cwd) pattern)
    (discovered : root.discover root.resolveIncludes cwd patterns = .ok d) :
    ∃ d', tree.discover tree.resolveIncludes cwd patterns = .ok d' ∧ d.Alike d' := by
  obtain ⟨last, taken, done⟩ := bind_eq_ok.mp discovered
  obtain rfl := Except.ok.inj done
  have start : Discovery.Alike {} {} := ⟨rfl, rfl⟩
  obtain ⟨last', taken', alike⟩ := start.foldlM
    (fun pattern member d d' next alike taken =>
      same.discoverPattern (stay pattern member) alike taken) taken
  refine ⟨_, bind_eq_ok.mpr ⟨last', taken', rfl⟩, ?_, alike.seen⟩
  dsimp only
  rw [alike.files]

end Tree

end DatafileMigration
