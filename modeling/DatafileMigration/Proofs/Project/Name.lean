import Mathlib.Data.List.TakeWhile
import DatafileMigration.Project.Path
import DatafileMigration.Proofs.Text.Join
import DatafileMigration.Proofs.Text.Lines

namespace DatafileMigration.Path

open Text (splitOn)

variable {p front back name : Text} {segments : List Text}

/-- A name that something below a directory can have. -/
structure IsName (name : Text) : Prop where
  solid : name ≠ []
  other : name ≠ "."
  down : name ≠ ".."
  single : '/' ∉ name

theorem isName_iff : IsName name ↔
    name ≠ [] ∧ name ≠ "." ∧ name ≠ ".." ∧ '/' ∉ name :=
  ⟨fun isName => ⟨isName.solid, isName.other, isName.down, isName.single⟩,
    fun ⟨solid, other, down, single⟩ => ⟨solid, other, down, single⟩⟩

instance (name : Text) : Decidable (IsName name) := decidable_of_iff _ isName_iff.symm

/-- What can stand in front of a name: nothing, or a text up to a slash. -/
def IsFront (front : Text) : Prop := front = [] ∨ ∃ before, front = before ++ ['/']

theorem isFront_nil : IsFront [] := Or.inl rfl

theorem isFront_slash (before : Text) : IsFront (before ++ ['/']) := Or.inr ⟨before, rfl⟩

theorem IsFront.append (first : IsFront front) (second : IsFront back) : IsFront (front ++ back) := by
  rcases second with rfl | ⟨before, rfl⟩
  · rw [List.append_nil]
    exact first
  · rw [← List.append_assoc]
    exact isFront_slash _

theorem isFront_root (p : Text) : IsFront (root p) := by
  unfold root
  split
  · exact isFront_slash []
  · exact isFront_slash ['/']
  · exact isFront_slash []
  · exact isFront_nil

theorem isFront_of_endsWith (ends : Text.endsWith "/" p) : IsFront p := by
  obtain ⟨before, found⟩ := Option.isSome_iff_exists.mp ends
  rw [Text.dropSuffix?_eq_some_iff.mp found]
  exact isFront_slash before

theorem isFront_join (segments : List Text) (name : Text) :
    ∃ front, Text.join "/" (segments ++ [name]) = front ++ name ∧ IsFront front := by
  induction segments with
  | nil => exact ⟨[], rfl, isFront_nil⟩
  | cons segment segments ih =>
    obtain ⟨front, joined, isFront⟩ := ih
    refine ⟨segment ++ "/" ++ front, ?_, (isFront_slash segment).append isFront⟩
    rw [List.cons_append, Text.join_cons_of_ne_nil (by simp), joined, List.append_assoc _ front]

theorem not_mem_baseName (p : Text) : '/' ∉ baseName p := by
  rw [baseName, List.mem_reverse]
  intro member
  simpa using List.mem_takeWhile_imp member

theorem baseName_append (isFront : IsFront front) (single : '/' ∉ name) :
    baseName (front ++ name) = name := by
  have all : ∀ c ∈ name.reverse, decide (c ≠ '/') = true := by
    intro c member
    have different : c ≠ '/' := fun same => single (List.mem_reverse.mp (same ▸ member))
    simpa using different
  rw [baseName, List.reverse_append, List.takeWhile_append_of_pos all]
  rcases isFront with rfl | ⟨before, rfl⟩
  · simp
  · simp

theorem baseName_of_not_mem (single : '/' ∉ name) : baseName name = name :=
  baseName_append isFront_nil single

/-- A path ends with its name. -/
theorem append_baseName (p : Text) : ∃ front, p = front ++ baseName p ∧ IsFront front := by
  have cut := List.takeWhile_append_dropWhile (p := fun c : Char => decide (c ≠ '/')) (l := p.reverse)
  have whole := congrArg List.reverse cut
  rw [List.reverse_append, List.reverse_reverse] at whole
  refine ⟨_, whole.symm, ?_⟩
  cases rest : p.reverse.dropWhile fun c => decide (c ≠ '/') with
  | nil => exact isFront_nil
  | cons c rest' =>
    have stop := List.head?_dropWhile_not (fun c : Char => decide (c ≠ '/')) p.reverse
    rw [rest] at stop
    have slash : c = '/' := by simpa using stop
    rw [slash, List.reverse_cons]
    exact isFront_slash _

/-- The name is the last segment. -/
theorem splitOn_baseName (p : Text) : ∃ front, splitOn '/' p = front ++ [baseName p] := by
  obtain ⟨front, whole, isFront⟩ := append_baseName p
  have last := Text.splitOn_of_not_mem (not_mem_baseName p)
  rcases isFront with rfl | ⟨before, rfl⟩
  · refine ⟨[], ?_⟩
    rw [List.nil_append] at whole ⊢
    rw [← last, ← whole]
  · refine ⟨splitOn '/' before, ?_⟩
    rw [List.append_assoc, List.singleton_append] at whole
    rw [whole, Text.splitOn_append_cons, ← whole, last]

theorem segments_baseName (isName : IsName (baseName p)) :
    ∃ front, Path.segments p = front ++ [baseName p] := by
  obtain ⟨front, split⟩ := splitOn_baseName p
  refine ⟨front.filter (· ≠ []), ?_⟩
  rw [Path.segments, split, List.filter_append]
  simp [isName.solid]

theorem baseName_of_segments (isName : IsName name) (p : Text) (segments : List Text) :
    baseName (match root p ++ Text.join "/" (segments ++ [name]) with
      | [] => "."
      | t => t) = name := by
  obtain ⟨front, joined, isFront⟩ := isFront_join segments name
  rw [joined, ← List.append_assoc]
  have whole := baseName_append ((isFront_root p).append isFront) isName.single
  split
  · rename_i empty
    exact absurd (List.append_eq_nil_iff.mp empty).2 isName.solid
  · exact whole

theorem push_name (isName : IsName name) (rooted : Bool) (stack : List Text) :
    push rooted stack name = name :: stack := by
  unfold push
  rw [if_neg isName.other, if_neg isName.down]

theorem baseName_normalize (isName : IsName (baseName p)) : baseName (normalize p) = baseName p := by
  obtain ⟨front, split⟩ := segments_baseName isName
  have last : normalSegments p =
      (front.foldl (push (isAbsolute p)) []).reverse ++ [baseName p] := by
    rw [normalSegments, split, List.foldl_append, List.foldl_cons, List.foldl_nil,
      push_name isName, List.reverse_cons]
  rw [normalize, last]
  exact baseName_of_segments isName p _

theorem baseName_tidy (isName : IsName (baseName p)) : baseName (tidy p) = baseName p := by
  obtain ⟨front, split⟩ := segments_baseName isName
  have kept : [baseName p].filter (fun s : Text => decide (s ≠ ".")) = [baseName p] :=
    List.filter_cons_of_pos (decide_eq_true isName.other)
  rw [tidy, split, List.filter_append, kept]
  exact baseName_of_segments isName p _

theorem baseName_join (isName : IsName name) (directory : Text) :
    baseName (join directory name) = name := by
  have relative : ¬ isAbsolute name := by
    intro rooted
    obtain ⟨rest, found⟩ := Option.isSome_iff_exists.mp rooted
    rw [Text.dropPrefix?_eq_some_iff.mp found] at isName
    exact isName.single (by simp)
  rw [join, if_neg relative]
  split
  case isTrue closed =>
    rw [Bool.or_eq_true, decide_eq_true_eq] at closed
    rcases closed with rfl | ends
    · exact baseName_append isFront_nil isName.single
    · exact baseName_append (isFront_of_endsWith ends) isName.single
  case isFalse => exact baseName_append (isFront_slash directory) isName.single

theorem kind?_congr {q : Text} (same : baseName p = baseName q) : kind? p = kind? q := by
  rw [kind?, kind?, extension, extension, same]

/-- What has the extension of a datafile has a name. -/
theorem isName_of_kind? (known : (kind? p).isSome) : IsName (baseName p) := by
  refine ⟨?_, ?_, ?_, not_mem_baseName p⟩
  all_goals
    intro equal
    rw [kind?, extension, equal] at known
    revert known
    decide

theorem kind?_normalize (known : (kind? p).isSome) : kind? (normalize p) = kind? p :=
  kind?_congr (baseName_normalize (isName_of_kind? known))

theorem kind?_tidy (known : (kind? p).isSome) : kind? (tidy p) = kind? p :=
  kind?_congr (baseName_tidy (isName_of_kind? known))

theorem kind?_join (isName : IsName name) (directory : Text) :
    kind? (join directory name) = kind? name :=
  kind?_congr ((baseName_join isName directory).trans (baseName_of_not_mem isName.single).symm)

theorem kind?_baseName (p : Text) : kind? (baseName p) = kind? p :=
  kind?_congr (baseName_of_not_mem (not_mem_baseName p))

end DatafileMigration.Path
