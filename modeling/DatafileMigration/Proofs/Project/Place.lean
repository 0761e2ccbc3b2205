import DatafileMigration.Project.Tree
import DatafileMigration.Proofs.Fault.Yields

namespace DatafileMigration.Tree

open Text (Octets)

/-- What stands at a place, without what is below it. -/
inductive Node where
  | directory
  | file (content : Octets)
  deriving DecidableEq, Repr

def node : Tree → Node
  | .directory _ => .directory
  | .file content => .file content

def node? (place : Place) (t : Tree) : Option Node := (t.at? place).map node

variable {root tree sub t : Tree} {place parent q r : Place} {name segment path : Text}
  {entries : List (Text × Tree)} {content : Octets}

@[simp]
theorem node?_nil (t : Tree) : t.node? [] = some t.node := rfl

theorem node?_cons (name : Text) (place : Place) (t : Tree) :
    t.node? (name :: place) = (t.child? name).bind (node? place) := by
  rw [node?, at?, Option.map_bind]
  rfl

theorem at?_append (place q : Place) (t : Tree) :
    t.at? (place ++ q) = (t.at? place).bind (at? q) := by
  induction place generalizing t with
  | nil => rfl
  | cons name place ih =>
    rw [List.cons_append, at?, at?]
    cases t.child? name with
    | none => rfl
    | some sub => exact ih sub

@[simp]
theorem node_eq_directory : t.node = .directory ↔ ∃ entries, t = .directory entries := by
  cases t <;> simp [node]

theorem node?_eq_directory :
    root.node? place = some .directory ↔ ∃ entries, root.at? place = some (.directory entries) := by
  rw [node?, Option.map_eq_some_iff]
  constructor
  · rintro ⟨t, found, isDirectory⟩
    obtain ⟨entries, rfl⟩ := node_eq_directory.mp isDirectory
    exact ⟨entries, found⟩
  · rintro ⟨entries, found⟩
    exact ⟨_, found, rfl⟩

theorem node?_eq_file :
    root.node? place = some (.file content) ↔ root.at? place = some (Tree.file content) := by
  rw [node?, Option.map_eq_some_iff]
  constructor
  · rintro ⟨t, found, isFile⟩
    cases t with
    | directory entries => cases isFile
    | file content' =>
      obtain rfl := Node.file.inj isFile
      exact found
  · exact fun found => ⟨_, found, rfl⟩

theorem node?_child (found : root.at? place = some (.directory entries)) (name : Text) :
    root.node? (place ++ [name]) = ((directory entries).child? name).map node := by
  rw [node?, at?_append, found, Option.bind_some, at?]
  cases (directory entries).child? name <;> rfl

theorem any_entries : entries.any (·.1 = name) = ((directory entries).child? name).isSome := by
  rw [child?, Option.isSome_map, Bool.eq_iff_iff, List.any_eq_true, List.find?_isSome]

theorem child?_putEntry (other : Text) :
    (directory (putEntry name t entries)).child? other =
      if other = name then some t else (directory entries).child? other := by
  induction entries with
  | nil =>
    by_cases same : other = name
    · simp [putEntry, child?, same]
    · simp [putEntry, child?, same, Ne.symm same]
  | cons entry entries ih =>
    obtain ⟨first, old⟩ := entry
    rw [child?, child?] at ih
    rw [putEntry, child?, child?]
    by_cases here : first = name
    · rw [if_pos here]
      by_cases same : other = name
      · simp [here, same]
      · simp [here, same, Ne.symm same]
    · rw [if_neg here]
      by_cases same : first = other
      · have different : other ≠ name := same ▸ here
        simp [same, different]
      · simp only [List.find?_cons, same, decide_false]
        exact ih

/-- A file can be put under a name: there is a directory for it, and no other one of its name. -/
structure Slot (root : Tree) (parent : Place) (name : Text) : Prop where
  inside : root.node? parent = some .directory
  free : root.node? (parent ++ [name]) ≠ some .directory

theorem slot_iff (found : root.at? parent = some (.directory entries)) :
    Slot root parent name ↔ ∀ below, (directory entries).child? name ≠ some (.directory below) := by
  have inside : root.node? parent = some .directory := node?_eq_directory.mpr ⟨entries, found⟩
  constructor
  · intro slot below present
    refine slot.free ?_
    rw [node?_child found, present]
    rfl
  · intro free
    refine ⟨inside, fun isDirectory => ?_⟩
    rw [node?_child found, Option.map_eq_some_iff] at isDirectory
    obtain ⟨old, present, isDirectory⟩ := isDirectory
    obtain ⟨below, rfl⟩ := node_eq_directory.mp isDirectory
    exact free below present

theorem Slot.of_cons {first : Text} (slot : Slot root (first :: parent) name) :
    ∃ entries sub, root = .directory entries ∧ (directory entries).child? first = some sub ∧
      Slot sub parent name := by
  have inside := slot.inside
  have free := slot.free
  cases root with
  | file content => cases inside
  | directory entries =>
    rw [node?_cons, Option.bind_eq_some_iff] at inside
    obtain ⟨sub, found, inside⟩ := inside
    rw [List.cons_append, node?_cons, found] at free
    exact ⟨entries, sub, rfl, found, inside, free⟩

theorem Slot.of_nil (slot : Slot root [] name) :
    ∃ entries, root = .directory entries ∧
      ∀ sub, (directory entries).child? name = some sub → sub.node ≠ .directory := by
  have inside := slot.inside
  cases root with
  | file content => cases inside
  | directory entries =>
    refine ⟨entries, rfl, fun sub found isDirectory => slot.free ?_⟩
    rw [List.nil_append, node?_cons, found, ← isDirectory]
    rfl

theorem Slot.root_directory (slot : Slot root parent name) : root.node = .directory := by
  cases parent with
  | nil => exact Option.some.inj slot.inside
  | cons first parent =>
    obtain ⟨entries, sub, rfl, _⟩ := slot.of_cons
    rfl

theorem put_single : put t [name] (.directory entries) = .directory (putEntry name t entries) := by
  rw [put, put]

theorem put_below {first : Text} (found : (directory entries).child? first = some sub) :
    put t (first :: place) (.directory entries) =
      .directory (putEntry first (put t place sub) entries) := by
  rw [child?] at found
  rw [put, found, Option.getD_some]

theorem put_directory (slot : Slot root parent name) (t : Tree) :
    (put t (parent ++ [name]) root).node = .directory := by
  cases parent with
  | nil =>
    obtain ⟨entries, rfl, _⟩ := slot.of_nil
    rw [List.nil_append, put_single]
    rfl
  | cons first parent =>
    obtain ⟨entries, sub, rfl, found, _⟩ := slot.of_cons
    rw [List.cons_append, put_below found]
    rfl

/-- The file stands at its place, and elsewhere stands what stood there. -/
theorem node?_put (slot : Slot root parent name) (q : Place) :
    (put (.file content) (parent ++ [name]) root).node? q =
      if q = parent ++ [name] then some (.file content) else root.node? q := by
  induction parent generalizing root q with
  | nil =>
    obtain ⟨entries, rfl, free⟩ := slot.of_nil
    rw [List.nil_append, put_single]
    cases q with
    | nil => rfl
    | cons other q =>
      rw [node?_cons, child?_putEntry, node?_cons]
      by_cases same : other = name
      · subst same
        cases q with
        | nil => simp [node]
        | cons next q =>
          have below : ((directory entries).child? other).bind (node? (next :: q)) = none := by
            cases found : (directory entries).child? other with
            | none => rfl
            | some old =>
              cases old with
              | file content => rfl
              | directory below => exact absurd rfl (free _ found)
          rw [if_pos rfl, below, if_neg (by simp)]
          rfl
      · rw [if_neg same, if_neg (by simp [same])]
  | cons first parent ih =>
    obtain ⟨entries, sub, rfl, found, inner⟩ := slot.of_cons
    rw [List.cons_append, put_below found]
    cases q with
    | nil => rfl
    | cons other q =>
      rw [node?_cons, child?_putEntry, node?_cons]
      by_cases same : other = first
      · subst same
        rw [if_pos rfl, found, Option.bind_some, Option.bind_some, ih inner]
        simp
      · rw [if_neg same, if_neg (by simp [same])]

theorem putEntry_putEntry (s t : Tree) (entries : List (Text × Tree)) :
    putEntry name s (putEntry name t entries) = putEntry name s entries := by
  induction entries with
  | nil => simp [putEntry]
  | cons entry entries ih =>
    obtain ⟨first, old⟩ := entry
    by_cases same : first = name
    · simp [putEntry, same]
    · simp [putEntry, same, ih]

/-- What is put last is what stays. -/
theorem put_put (s t : Tree) (place : Place) (root : Tree) :
    put s place (put t place root) = put s place root := by
  induction place generalizing root with
  | nil => rw [put, put]
  | cons name place ih =>
    cases root with
    | file content =>
      have found : (directory [(name, put t place empty)]).child? name = some (put t place empty) := by
        simp [child?]
      rw [put, put_below found, ih, put]
      simp [putEntry]
    | directory entries =>
      have found := @child?_putEntry
        (put t place (((entries.find? (·.1 = name)).map (·.2)).getD empty)) name entries name
      rw [if_pos rfl] at found
      rw [put, put_below found, ih, putEntry_putEntry, put]

/-- Where a segment leads from a directory. -/
inductive Leads (root : Tree) (place : Place) : Text → Place → Prop
  | stay {s : Text} : s = [] ∨ s = "." → Leads root place s place
  | up : Leads root place ".." place.dropLast
  | into {s : Text} : s ≠ [] → s ≠ "." → s ≠ ".." → ¬ isLongName s →
      (root.node? (place ++ [s])).isSome → Leads root place s (place ++ [s])

theorem step_eq_ok : root.step place segment = .ok q ↔
    root.node? place = some .directory ∧ root.Leads place segment q := by
  rw [node?_eq_directory, step]
  constructor
  · intro stepped
    split at stepped
    case h_2 => cases stepped
    case h_3 => cases stepped
    case h_1 entries found =>
      refine ⟨⟨entries, found⟩, ?_⟩
      split at stepped
      case isTrue stays =>
        cases stepped
        exact .stay (by simpa using stays)
      case isFalse moves =>
        split at stepped
        case isTrue up =>
          cases stepped
          rw [up]
          exact .up
        case isFalse down =>
          split at stepped
          case isTrue => cases stepped
          case isFalse short =>
            split at stepped
            case isFalse => cases stepped
            case isTrue present =>
              cases stepped
              simp only [Bool.or_eq_true, decide_eq_true_eq, not_or] at moves
              refine .into moves.1 moves.2 down short ?_
              rw [any_entries] at present
              rw [node?_child found, Option.isSome_map]
              exact present
  · rintro ⟨⟨entries, found⟩, leads⟩
    rw [found]
    cases leads with
    | stay stays => exact if_pos (by simpa using stays)
    | up => rfl
    | into solid other back short present =>
      rw [node?_child found, Option.isSome_map] at present
      have listed : entries.any (·.1 = segment) := any_entries.trans present
      dsimp only
      rw [if_neg (by simpa using And.intro solid other), if_neg back, if_neg short, if_pos listed]

end DatafileMigration.Tree
