import DatafileMigration.Proofs.Project.Follow
import DatafileMigration.Proofs.Project.Walk

namespace DatafileMigration.Tree

open DatafileMigration.Path (IsName IsNormal ofNames)
open Text (Octets)

variable {root t : Tree} {place : Place} {name path p : Text} {entries : List (Text × Tree)}

theorem isImpossible_append {s t : Text} :
    isImpossible (s ++ t) = false ↔ isImpossible s = false ∧ isImpossible t = false := by
  simp [isImpossible, Bool.eq_false_iff]

/-- Entries have names, and no two of a directory have the same one. -/
inductive IsProper : Tree → Prop
  | file (content : Octets) : IsProper (.file content)
  | directory {entries : List (Text × Tree)} :
      (∀ entry ∈ entries, IsName entry.1 ∧ isImpossible entry.1 = false) →
      (entries.map (·.1)).Nodup → (∀ entry ∈ entries, IsProper entry.2) →
      IsProper (.directory entries)

theorem child?_eq_some (distinct : (entries.map (·.1)).Nodup) :
    (directory entries).child? name = some t ↔ (name, t) ∈ entries := by
  induction entries with
  | nil => simp [child?]
  | cons entry entries ih =>
    obtain ⟨first, sub⟩ := entry
    rw [List.map_cons, List.nodup_cons] at distinct
    rw [child?, List.mem_cons]
    by_cases here : first = name
    · subst here
      have absent : (first, t) ∉ entries :=
        fun member => distinct.1 (List.mem_map.mpr ⟨_, member, rfl⟩)
      rw [List.find?_cons_of_pos (by simp)]
      simp [absent, eq_comm]
    · rw [List.find?_cons_of_neg (by simpa using here), ← child?, ih distinct.2]
      simp [Ne.symm here]

theorem IsProper.child (proper : t.IsProper) {sub : Tree} (found : t.child? name = some sub) :
    IsName name ∧ isImpossible name = false ∧ sub.IsProper := by
  cases proper with
  | file content => cases found
  | directory named distinct below =>
    have member := (child?_eq_some distinct).mp found
    exact ⟨(named _ member).1, (named _ member).2, below _ member⟩

theorem IsProper.at (proper : root.IsProper) (found : root.at? place = some t) :
    (∀ s ∈ place, IsName s ∧ isImpossible s = false) ∧ t.IsProper := by
  induction place generalizing root with
  | nil =>
    obtain rfl := Option.some.inj found
    exact ⟨List.forall_mem_nil _, proper⟩
  | cons name place ih =>
    obtain ⟨sub, present, found⟩ := Option.bind_eq_some_iff.mp found
    obtain ⟨isName, possible, proper⟩ := proper.child present
    obtain ⟨others, proper⟩ := ih proper found
    exact ⟨List.forall_mem_cons.mpr ⟨⟨isName, possible⟩, others⟩, proper⟩

theorem map_putEntry (name : Text) (t : Tree) (entries : List (Text × Tree)) :
    (putEntry name t entries).map (·.1) =
      if name ∈ entries.map (·.1) then entries.map (·.1) else entries.map (·.1) ++ [name] := by
  cases found : (directory entries).child? name with
  | some old =>
    obtain ⟨before, after, rfl, put⟩ := putEntry_of_some found
    rw [put, if_pos (by simp)]
    simp
  | none =>
    have absent : name ∉ entries.map (·.1) := by
      intro member
      obtain ⟨⟨_, sub⟩, listed, rfl⟩ := List.mem_map.mp member
      rw [child?, Option.map_eq_none_iff, List.find?_eq_none] at found
      exact found _ listed (decide_eq_true rfl)
    rw [putEntry_of_none found, if_neg absent, List.map_append]
    rfl

theorem mem_of_mem_putEntry {entry : Text × Tree} (member : entry ∈ putEntry name t entries) :
    entry = (name, t) ∨ entry ∈ entries := by
  cases found : (directory entries).child? name with
  | some old =>
    obtain ⟨before, after, rfl, put⟩ := putEntry_of_some found
    rw [put, List.mem_append, List.mem_cons] at member
    rcases member with early | here | late
    · exact .inr (List.mem_append_left _ early)
    · exact .inl here
    · exact .inr (List.mem_append_right _ (List.mem_cons_of_mem _ late))
  | none =>
    rw [putEntry_of_none found, List.mem_append, List.mem_singleton] at member
    exact member.symm

theorem IsProper.putEntry (proper : (Tree.directory entries).IsProper) (isName : IsName name)
    (possible : isImpossible name = false) (sub : t.IsProper) :
    (Tree.directory (Tree.putEntry name t entries)).IsProper := by
  cases proper with
  | directory named distinct below =>
    refine .directory (fun entry member => ?_) ?_ (fun entry member => ?_)
    · rcases mem_of_mem_putEntry member with rfl | member
      · exact ⟨isName, possible⟩
      · exact named entry member
    · rw [map_putEntry]
      split
      · exact distinct
      · rename_i absent
        exact List.nodup_append.mpr ⟨distinct, List.pairwise_singleton _ _, fun a member b here => by
          rintro rfl
          exact absent (List.mem_singleton.mp here ▸ member)⟩
    · rcases mem_of_mem_putEntry member with rfl | member
      · exact sub
      · exact below entry member

/-- A file that is put into a proper tree leaves it proper. -/
theorem IsProper.put (proper : root.IsProper) {parent : Place} (slot : Slot root parent name)
    (isName : IsName name) (possible : isImpossible name = false) (content : Octets) :
    (Tree.put (.file content) (parent ++ [name]) root).IsProper := by
  induction parent generalizing root with
  | nil =>
    obtain ⟨entries, rfl, -⟩ := slot.of_nil
    rw [List.nil_append, put_single]
    exact proper.putEntry isName possible (.file content)
  | cons first parent ih =>
    obtain ⟨entries, sub, rfl, found, inner⟩ := slot.of_cons
    obtain ⟨isName', possible', proper'⟩ := proper.child found
    rw [List.cons_append, put_below found]
    exact proper.putEntry isName' possible' (ih proper' inner)

/-- Saving a text keeps a tree proper. -/
theorem IsProper.saving {text : Text} {force : Bool} {u : Unit} {tree : Tree}
    (proper : root.IsProper) (saved : Tree.saving path text force root = .ok u tree) : tree.IsProper := by
  obtain ⟨-, possible, written⟩ := saving_eq_ok.mp saved
  obtain ⟨parent, target, rfl⟩ := write_eq_ok.mp written
  obtain ⟨front, whole, -⟩ := Path.append_baseName path
  rw [whole, isImpossible_append] at possible
  exact proper.put target.slot target.isName possible.2 _

theorem mem_walkEntries {files : List Text} : (name, files) ∈ walkEntries path entries ↔
    ∃ sub, (name, sub) ∈ entries ∧ sub.isDirectory ∧ name ∉ ignoredDirectories ∧
      files = walk (Path.join path name) sub := by
  induction entries with
  | nil => simp [walkEntries]
  | cons entry entries ih =>
    obtain ⟨first, sub⟩ := entry
    rw [walkEntries]
    split
    case isTrue entered =>
      rw [Bool.and_eq_true, Bool.not_eq_true', Bool.eq_false_iff, ne_eq, List.contains_iff_mem]
        at entered
      rw [List.mem_cons, ih]
      constructor
      · rintro (here | ⟨sub', member, rest⟩)
        · obtain ⟨rfl, rfl⟩ := Prod.mk.inj here
          exact ⟨sub, List.mem_cons_self, entered.1, entered.2, rfl⟩
        · exact ⟨sub', List.mem_cons_of_mem _ member, rest⟩
      · rintro ⟨sub', member, rest⟩
        rcases List.mem_cons.mp member with here | member
        · obtain ⟨rfl, rfl⟩ := Prod.mk.inj here
          exact .inl (Prod.ext rfl rest.2.2)
        · exact .inr ⟨sub', member, rest⟩
    case isFalse passed =>
      rw [ih]
      refine exists_congr fun sub' => and_congr_left fun below => ?_
      obtain ⟨isDirectory, kept, -⟩ := below
      rw [List.mem_cons, or_iff_right]
      intro here
      obtain ⟨rfl, rfl⟩ := Prod.mk.inj here
      refine passed ?_
      rw [Bool.and_eq_true, Bool.not_eq_true', Bool.eq_false_iff, ne_eq, List.contains_iff_mem]
      exact ⟨isDirectory, kept⟩

/-- A file is found if it is one of the directory itself, or in what is found below. -/
theorem mem_walk_directory : p ∈ walk path (directory entries) ↔
    (∃ name content, (name, file content) ∈ entries ∧ p = Path.join path name) ∨
      ∃ name sub, (name, sub) ∈ entries ∧ sub.isDirectory ∧ name ∉ ignoredDirectories ∧
        p ∈ walk (Path.join path name) sub := by
  rw [walk, List.mem_append]
  refine or_congr ?_ ?_
  · rw [List.mem_map]
    constructor
    · rintro ⟨name, own, rfl⟩
      obtain ⟨⟨_, sub⟩, among, rfl⟩ := List.mem_map.mp (List.mem_mergeSort.mp own)
      obtain ⟨member, isFile⟩ := List.mem_filter.mp among
      cases sub with
      | file content => exact ⟨_, content, member, rfl⟩
      | directory below => cases isFile
    · rintro ⟨name, content, member, rfl⟩
      have own : (name, file content) ∈ entries.filter (·.2.isFile) :=
        List.mem_filter.mpr ⟨member, rfl⟩
      exact ⟨name, List.mem_mergeSort.mpr (List.mem_map.mpr ⟨_, own, rfl⟩), rfl⟩
  · rw [List.mem_flatMap]
    constructor
    · rintro ⟨⟨name, files⟩, below, inside⟩
      obtain ⟨sub, member, isDirectory, kept, rfl⟩ := mem_walkEntries.mp (List.mem_mergeSort.mp below)
      exact ⟨name, sub, member, isDirectory, kept, inside⟩
    · rintro ⟨name, sub, member, isDirectory, kept, inside⟩
      have below : (name, walk (Path.join path name) sub) ∈ walkEntries path entries :=
        mem_walkEntries.mpr ⟨sub, member, isDirectory, kept, rfl⟩
      exact ⟨_, List.mem_mergeSort.mpr below, inside⟩

theorem isDirectory_of_at? (found : t.at? (name :: place) = some root) : t.isDirectory := by
  cases t with
  | file content => cases found
  | directory entries => rfl

/-- A walk finds the files at the places that do not lead through a directory to pass over. -/
theorem mem_walk (proper : t.IsProper) : p ∈ walk path t ↔ ∃ below name content,
    t.at? (below ++ [name]) = some (.file content) ∧ (∀ d ∈ below, d ∉ ignoredDirectories) ∧
      p = (below ++ [name]).foldl Path.join path := by
  induction proper generalizing path with
  | file content =>
    rw [walk]
    refine iff_of_false List.not_mem_nil ?_
    rintro ⟨below, name, content', found, -⟩
    cases below <;> cases found
  | @directory entries named distinct proper ih =>
    rw [mem_walk_directory]
    constructor
    · rintro (⟨name, content, member, rfl⟩ | ⟨name, sub, member, isDirectory, kept, inside⟩)
      · refine ⟨[], name, content, ?_, List.forall_mem_nil _, rfl⟩
        rw [List.nil_append, at?, (child?_eq_some distinct).mpr member]
        rfl
      · obtain ⟨below, last, content, found, kept', rfl⟩ := (ih _ member).mp inside
        refine ⟨name :: below, last, content, ?_, List.forall_mem_cons.mpr ⟨kept, kept'⟩, rfl⟩
        rw [List.cons_append, at?, (child?_eq_some distinct).mpr member]
        exact found
    · rintro ⟨below, name, content, found, kept, rfl⟩
      cases below with
      | nil =>
        obtain ⟨sub, present, found⟩ := Option.bind_eq_some_iff.mp found
        obtain rfl : sub = .file content := Option.some.inj found
        exact .inl ⟨name, content, (child?_eq_some distinct).mp present, rfl⟩
      | cons first below =>
        obtain ⟨sub, present, found⟩ := Option.bind_eq_some_iff.mp found
        obtain ⟨here, kept⟩ := List.forall_mem_cons.mp kept
        have member := (child?_eq_some distinct).mp present
        have isDirectory : sub.isDirectory := by
          cases below with
          | nil => exact isDirectory_of_at? found
          | cons => exact isDirectory_of_at? found
        exact .inr ⟨first, sub, member, isDirectory, here,
          (ih _ member).mpr ⟨below, name, content, found, kept, rfl⟩⟩

/-- A path in normal form whose names lead to a file. -/
structure IsFilePath (root : Tree) (p : Text) : Prop where
  normal : IsNormal p
  possible : isImpossible p = false
  file : ∃ content, root.at? (Path.normalSegments p) = some (.file content)

/-- The path of a place below a directory. -/
theorem foldl_join (normal : IsNormal path) (possible : isImpossible path = false)
    (named : ∀ s ∈ place, IsName s ∧ isImpossible s = false) :
    place.foldl Path.join path = ofNames (Path.root path) (Path.normalSegments path ++ place) ∧
      isImpossible (place.foldl Path.join path) = false := by
  induction place generalizing path with
  | nil =>
    rw [List.append_nil]
    exact ⟨normal.eq_ofNames, possible⟩
  | cons name place ih =>
    obtain ⟨⟨isName, possible'⟩, others⟩ := List.forall_mem_cons.mp named
    have possible'' : isImpossible (Path.join path name) = false := by
      rcases Path.join_cases isName.relative path with ⟨joined, -⟩ | ⟨joined, -⟩
      · rw [joined, isImpossible_append]
        exact ⟨possible, possible'⟩
      · rw [joined, isImpossible_append]
        exact ⟨possible, isImpossible_append.mpr ⟨(by decide : isImpossible "/" = false), possible'⟩⟩
    have joined := ih (normal.join isName) possible'' others
    rw [Path.root_join normal.rooted isName.relative,
      Path.normalSegments_join normal.rooted isName, List.append_assoc] at joined
    exact joined

/-- What is found below a directory at a path in normal form. -/
theorem mem_filesBelow (proper : root.IsProper) (normal : IsNormal path)
    (possible : isImpossible path = false) (found : root.find path = .ok t) :
    p ∈ root.filesBelow path ↔ ∃ below name content,
      root.at? (Path.normalSegments path ++ (below ++ [name])) = some (.file content) ∧
      (∀ d ∈ below, d ∉ ignoredDirectories) ∧
      p = ofNames (Path.root path) (Path.normalSegments path ++ (below ++ [name])) := by
  obtain ⟨place, located, standing⟩ := find_eq_ok.mp found
  obtain ⟨rfl, -⟩ := place_of_locate normal.rooted located
  obtain ⟨-, proper⟩ := proper.at standing
  rw [filesBelow_of_find possible found, mem_walk proper]
  refine exists_congr fun below => exists_congr fun name => exists_congr fun content => ?_
  have inside : root.at? (Path.normalSegments path ++ (below ++ [name])) = t.at? (below ++ [name]) := by
    rw [at?_append, standing, Option.bind_some]
  rw [inside]
  refine and_congr_right fun standing => and_congr_right fun _ => ?_
  rw [(foldl_join normal possible (proper.at standing).1).1]

/-- What is found below a path in normal form is the path of a file. -/
theorem isFilePath_of_mem_filesBelow (proper : root.IsProper) (normal : IsNormal path)
    (member : p ∈ root.filesBelow path) : root.IsFilePath p := by
  by_cases possible : isImpossible path = false
  case neg =>
    rw [filesBelow, if_pos (by simpa using possible)] at member
    cases member
  cases found : root.find path with
  | error e =>
    rw [filesBelow, possible, found] at member
    cases member
  | ok t =>
    obtain ⟨below, name, content, standing, -, rfl⟩ :=
      (mem_filesBelow proper normal possible found).mp member
    have isRoot := Path.isRoot_root normal.rooted
    have named := (proper.at standing).1
    have names : ∀ s ∈ Path.normalSegments path ++ (below ++ [name]), IsName s :=
      fun s member => (named s member).1
    have others : ∀ s ∈ below ++ [name], IsName s ∧ isImpossible s = false :=
      fun s member => named s (List.mem_append_right _ member)
    refine ⟨Path.isNormal_ofNames isRoot names, ?_, content, ?_⟩
    · obtain ⟨joined, possible⟩ := foldl_join normal possible others
      rwa [joined] at possible
    · rwa [Path.normalSegments_ofNames isRoot names]

end DatafileMigration.Tree
