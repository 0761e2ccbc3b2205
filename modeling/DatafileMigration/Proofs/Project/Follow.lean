import Mathlib.Data.List.Flatten
import DatafileMigration.Proofs.Project.Normal
import DatafileMigration.Proofs.Project.Written

namespace DatafileMigration.Tree

open DatafileMigration.Path (IsName IsRoot ofNames)

variable {root : Tree} {place q : Place} {path front segment : Text} {segments names : List Text}

/-- A place that is reached from the root without a detour. -/
inductive Direct (root : Tree) : Place → Prop
  | root : Direct root []
  | into {place : Place} {segment : Text} : Direct root place →
      root.step place segment = .ok (place ++ [segment]) → Direct root (place ++ [segment])

theorem Direct.dropLast (direct : Direct root place) : Direct root place.dropLast := by
  cases direct with
  | root => exact .root
  | into direct _ => rwa [List.dropLast_concat]

/-- A step leads from a direct place to a direct one, as a segment changes a stack of names. -/
theorem Direct.step (direct : Direct root place) (up : (".." : Text) ∉ place)
    (stepped : root.step place segment = .ok q) : Direct root q ∧ (".." : Text) ∉ q ∧
      (if segment = [] then place.reverse else Path.push true place.reverse segment) = q.reverse := by
  obtain ⟨inside, leads⟩ := step_eq_ok.mp stepped
  cases leads with
  | stay stays =>
    refine ⟨direct, up, ?_⟩
    split
    · rfl
    · rename_i solid
      unfold Path.push
      rw [if_pos (stays.resolve_left solid)]
  | up =>
    refine ⟨direct.dropLast, fun member => up (List.dropLast_subset _ member), ?_⟩
    rw [if_neg (by decide)]
    unfold Path.push
    rw [if_neg (by decide), if_pos rfl]
    rcases List.eq_nil_or_concat' place with rfl | ⟨front, last, rfl⟩
    · rfl
    · rw [List.reverse_append, List.dropLast_concat]
      have notUp : last ≠ ".." := by
        rintro rfl
        exact up (List.mem_append_right _ List.mem_cons_self)
      exact if_neg notUp
  | into solid other down short present =>
    refine ⟨.into direct stepped, ?_, ?_⟩
    · rw [List.mem_append, List.mem_singleton, not_or]
      exact ⟨up, Ne.symm down⟩
    · rw [if_neg solid]
      unfold Path.push
      rw [if_neg other, if_neg down, List.reverse_append]
      rfl

theorem Direct.follow (direct : Direct root place) (up : (".." : Text) ∉ place)
    (followed : segments.foldlM (Tree.step root) place = .ok q) : Direct root q ∧
      ((segments.filter (· ≠ [])).foldl (Path.push true) place.reverse).reverse = q := by
  induction segments generalizing place with
  | nil =>
    obtain rfl := Except.ok.inj followed
    exact ⟨direct, List.reverse_reverse _⟩
  | cons segment segments ih =>
    rw [List.foldlM_cons, bind_eq_ok] at followed
    obtain ⟨next, stepped, followed⟩ := followed
    obtain ⟨direct', up', pushed⟩ := direct.step up stepped
    obtain ⟨direct'', ends⟩ := ih direct' up' followed
    refine ⟨direct'', ?_⟩
    by_cases empty : segment = []
    · rw [List.filter_cons_of_neg (by simpa using empty)]
      rw [if_pos empty] at pushed
      rwa [pushed]
    · rw [List.filter_cons_of_pos (by simpa using empty), List.foldl_cons]
      rw [if_neg empty] at pushed
      rwa [pushed]

theorem Direct.again (direct : Direct root place) :
    place.foldlM (Tree.step root) [] = .ok place := by
  induction direct with
  | root => rfl
  | into _ stepped ih =>
    rw [List.foldlM_append, ih]
    exact (List.foldlM_cons ..).trans (bind_eq_ok.mpr ⟨_, stepped, rfl⟩)

/-- An absolute path leads to the place of its names. -/
theorem place_of_locate (rooted : Path.isAbsolute path) (located : root.locate path = .ok place) :
    Path.normalSegments path = place ∧ Direct root place := by
  obtain ⟨-, -, followed⟩ := locate_eq_ok.mp located
  obtain ⟨direct, ends⟩ := Direct.root.follow List.not_mem_nil followed
  refine ⟨?_, direct⟩
  rw [Path.normalSegments, rooted]
  exact ends

theorem follow_names (top : root.node? [] = some .directory) (direct : Direct root names)
    (named : ∀ s ∈ names, IsName s) :
    (Text.splitOn '/' (Text.join "/" names)).foldlM (Tree.step root) [] = .ok names := by
  by_cases none : names = []
  · subst none
    have stays : root.step [] [] = .ok [] := step_eq_ok.mpr ⟨top, .stay (.inl rfl)⟩
    exact (List.foldlM_cons ..).trans (bind_eq_ok.mpr ⟨[], stays, rfl⟩)
  · have split : Text.splitOn '/' (Text.join "/" names) = names :=
      Text.splitOn_join none fun s member => (named s member).single
    rw [split]
    exact direct.again

/-- A place is reached by the path of its names. -/
theorem locate_ofNames (top : root.node? [] = some .directory) (direct : Direct root names)
    (named : ∀ s ∈ names, IsName s) (isRoot : IsRoot front)
    (short : ¬ isLongPath (ofNames front names)) : root.locate (ofNames front names) = .ok names := by
  have slash {t : Text} (followed : (Text.splitOn '/' t).foldlM (Tree.step root) [] = .ok names) :
      (Text.splitOn '/' ('/' :: t)).foldlM (Tree.step root) [] = .ok names := by
    have cut : Text.splitOn '/' ('/' :: t) = [] :: Text.splitOn '/' t :=
      Text.splitOn_append List.not_mem_nil t
    rw [cut, List.foldlM_cons]
    exact bind_eq_ok.mpr ⟨[], step_eq_ok.mpr ⟨top, .stay (.inl rfl)⟩, followed⟩
  have followed := follow_names top direct named
  rw [locate_eq_ok]
  rcases isRoot with rfl | rfl
  · exact ⟨List.cons_ne_nil _ _, short, slash followed⟩
  · exact ⟨List.cons_ne_nil _ _, short, slash (slash followed)⟩

theorem isLongPath_of_sublist {shorter : Text} (among : shorter.Sublist path)
    (long : isLongPath shorter) : isLongPath path := by
  rw [isLongPath, decide_eq_true_eq] at long ⊢
  exact long.trans (among.flatMap Text.encodeChar).length_le

theorem top_of_locate (rooted : Path.isAbsolute path) (located : root.locate path = .ok place) :
    root.node? [] = some .directory := by
  obtain ⟨t, rfl⟩ := Path.isAbsolute_iff.mp rooted
  obtain ⟨-, -, followed⟩ := locate_eq_ok.mp located
  have cut : Text.splitOn '/' ('/' :: t) = [] :: Text.splitOn '/' t :=
    Text.splitOn_append List.not_mem_nil t
  rw [cut, List.foldlM_cons, bind_eq_ok] at followed
  obtain ⟨next, stepped, -⟩ := followed
  exact (step_eq_ok.mp stepped).1

/-- Where a tidy path leads, the normal form leads as well. -/
theorem locate_normalize (rooted : Path.isAbsolute path)
    (located : root.locate (Path.tidy path) = .ok place) :
    root.locate (Path.normalize path) = .ok place := by
  have short : ¬ isLongPath (Path.normalize path) := fun long =>
    (locate_eq_ok.mp located).2.1 (isLongPath_of_sublist (Path.normalize_sublist rooted) long)
  rw [Path.tidy_of_isAbsolute rooted] at located
  have isRoot := Path.isRoot_root rooted
  have rooted' := Path.isAbsolute_ofNames isRoot ((Path.segments path).filter (· ≠ "."))
  obtain ⟨ends, direct⟩ := place_of_locate rooted' located
  rw [Path.normalSegments_tidied rooted] at ends
  subst ends
  rw [Path.normalize_of_isAbsolute rooted] at short ⊢
  exact locate_ofNames (top_of_locate rooted' located) direct
    (Path.isName_of_mem_normalSegments rooted) isRoot short

theorem isImpossible_of_sublist {shorter : Text} (among : shorter.Sublist path)
    (possible : isImpossible path = false) : isImpossible shorter = false := by
  rw [isImpossible, Bool.eq_false_iff, ne_eq, List.contains_iff_mem] at possible ⊢
  exact fun member => possible (among.subset member)

theorem has_normalize (rooted : Path.isAbsolute path) (present : root.has (Path.tidy path)) :
    root.has (Path.normalize path) := by
  rw [has_iff] at present ⊢
  obtain ⟨possible, n, place, located, standing⟩ := present
  exact ⟨isImpossible_of_sublist (Path.normalize_sublist rooted) possible, n, place,
    locate_normalize rooted located, standing⟩

end DatafileMigration.Tree
