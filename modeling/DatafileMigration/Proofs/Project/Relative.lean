import DatafileMigration.Proofs.Project.Normal

namespace DatafileMigration.Path

variable {p q d front : Text} {names segments stack : List Text}

/-- What is left of two lists stands behind their common beginning. -/
theorem dropCommon_append (ss ts : List Text) : ∃ common,
    ss = common ++ (dropCommon ss ts).1 ∧ ts = common ++ (dropCommon ss ts).2 := by
  induction ss generalizing ts with
  | nil => exact ⟨[], by simp [dropCommon]⟩
  | cons s ss ih =>
    cases ts with
    | nil => exact ⟨[], by simp [dropCommon]⟩
    | cons t ts =>
      rw [dropCommon]
      split
      · rename_i same
        subst same
        obtain ⟨common, left, right⟩ := ih ts
        exact ⟨s :: common, congrArg (s :: ·) left, congrArg (s :: ·) right⟩
      · exact ⟨[], rfl, rfl⟩

/-- The segments of a path as read from a directory: up to what both have in common, and down. -/
def relativeSegments (d p : Text) : List Text :=
  List.replicate (dropCommon (normalSegments d) (normalSegments p)).1.length (".." : Text)
    ++ (dropCommon (normalSegments d) (normalSegments p)).2

theorem relative_eq (d p : Text) : relative d p =
    if relativeSegments d p = [] then (".": Text) else Text.join "/" (relativeSegments d p) := by
  have parts : (dropCommon (normalSegments d) (normalSegments p)).1.map (fun _ => ['.', '.']) ++
      (dropCommon (normalSegments d) (normalSegments p)).2 = relativeSegments d p := by
    rw [relativeSegments, List.map_const']
    rfl
  rw [relative]
  dsimp only
  rw [parts]
  split
  · rename_i none
    rw [if_pos none]
  · rename_i some
    rw [if_neg some]

theorem foldl_push_up (named : ∀ s ∈ stack, IsName s) (n : Nat) :
    (List.replicate n (".." : Text)).foldl (push true) stack = stack.drop n := by
  induction n generalizing stack with
  | zero => rfl
  | succ n ih =>
    rw [List.replicate_succ, List.foldl_cons]
    cases stack with
    | nil =>
      have top : push true [] ".." = [] := rfl
      rw [top, ih (List.forall_mem_nil _), List.drop_nil, List.drop_nil]
    | cons top below =>
      obtain ⟨isName, others⟩ := List.forall_mem_cons.mp named
      have up : push true (top :: below) ".." = below := by
        unfold push
        rw [if_neg (by decide), if_pos rfl]
        exact if_neg isName.down
      rw [up, ih others, List.drop_succ_cons]

/-- From the segments of a directory, the relative ones lead to those of the path. -/
theorem foldl_push_relative (rooted : isAbsolute d) (rooted' : isAbsolute p) :
    (relativeSegments d p).foldl (push true) (normalSegments d).reverse =
      (normalSegments p).reverse := by
  obtain ⟨common, left, right⟩ := dropCommon_append (normalSegments d) (normalSegments p)
  have named := isName_of_mem_normalSegments rooted
  have named' := isName_of_mem_normalSegments rooted'
  have down : ∀ s ∈ (dropCommon (normalSegments d) (normalSegments p)).2, IsName s := by
    intro s member
    exact named' s (right ▸ List.mem_append_right _ member)
  have up : (normalSegments d).reverse.drop
      (dropCommon (normalSegments d) (normalSegments p)).1.length = common.reverse := by
    have whole := congrArg List.reverse left
    rw [List.reverse_append] at whole
    rw [whole]
    exact List.drop_left' List.length_reverse
  rw [relativeSegments, List.foldl_append, foldl_push_up (fun s member =>
    named s (List.mem_reverse.mp member)), up, foldl_push_names down, ← List.reverse_append, ← right]

theorem given_of_mem_relativeSegments (rooted : isAbsolute p) :
    ∀ s ∈ relativeSegments d p, s ≠ [] ∧ '/' ∉ s := by
  obtain ⟨common, -, right⟩ := dropCommon_append (normalSegments d) (normalSegments p)
  have named := isName_of_mem_normalSegments rooted
  intro s member
  rw [relativeSegments, List.mem_append] at member
  rcases member with up | down
  · rw [List.eq_of_mem_replicate up]
    decide
  · have isName := named s (right ▸ List.mem_append_right _ down)
    exact ⟨isName.solid, isName.single⟩

theorem not_isAbsolute_join_parts (given : ∀ s ∈ segments, s ≠ [] ∧ '/' ∉ s) :
    ¬ isAbsolute (Text.join "/" segments) := by
  rw [isAbsolute_iff]
  rintro ⟨t, begins⟩
  cases segments with
  | nil => cases begins
  | cons segment segments =>
    obtain ⟨solid, single⟩ := given segment List.mem_cons_self
    obtain ⟨c, rest, rfl⟩ := List.exists_cons_of_ne_nil solid
    obtain ⟨t', begins'⟩ := join_begins c rest segments
    obtain ⟨rfl, -⟩ := List.cons.inj (begins'.symm.trans begins)
    exact single List.mem_cons_self

theorem not_isAbsolute_relative (rooted : isAbsolute p) (d : Text) : ¬ isAbsolute (relative d p) := by
  rw [relative_eq]
  split
  · decide
  · exact not_isAbsolute_join_parts (given_of_mem_relativeSegments rooted)

theorem foldl_push_segments (rooted : isAbsolute p) (d : Text) (stack : List Text) :
    (Path.segments (relative d p)).foldl (push true) stack =
      (relativeSegments d p).foldl (push true) stack := by
  rw [relative_eq]
  split
  · rename_i none
    rw [none]
    rfl
  · rw [segments_join_parts (given_of_mem_relativeSegments rooted)]

theorem normalSegments_join_relative (rooted : isAbsolute d) (rooted' : isAbsolute p) :
    normalSegments (join d (relative d p)) = normalSegments p := by
  have start : (Path.segments d).foldl (push true) [] = (normalSegments d).reverse := by
    rw [normalSegments, rooted, List.reverse_reverse]
  rw [normalSegments, isAbsolute_join rooted, segments_join (not_isAbsolute_relative rooted' d),
    List.foldl_append, start, foldl_push_segments rooted', foldl_push_relative rooted rooted',
    List.reverse_reverse]

/-- The relative path tells paths apart that begin with the same slashes. -/
theorem eq_of_relative (rooted : isAbsolute d) (normal : IsNormal p) (normal' : IsNormal q)
    (front : root p = root q) (same : relative d p = relative d q) : p = q := by
  refine normal.eq_of_names normal' front ?_
  rw [← normalSegments_join_relative rooted normal.rooted, same,
    normalSegments_join_relative rooted normal'.rooted]

/-- A relative path has no characters of its own but dots and slashes. -/
theorem not_mem_relative {c : Char} (normal : IsNormal p) (absent : c ∉ p) (dot : c ≠ '.')
    (slash : c ≠ '/') (d : Text) : c ∉ relative d p := by
  obtain ⟨common, -, right⟩ := dropCommon_append (normalSegments d) (normalSegments p)
  have names : ∀ s ∈ normalSegments p, c ∉ s := by
    intro s member inside
    have among : s <:+: p := by
      rw [normal.eq_ofNames]
      exact (Text.infix_join_self member).trans (List.suffix_append _ _).isInfix
    exact absent (among.subset inside)
  have each : ∀ s ∈ relativeSegments d p, s.any (· = c) = false := by
    intro s member
    rw [List.any_eq_false]
    intro x inside same
    obtain rfl : x = c := of_decide_eq_true same
    rw [relativeSegments, List.mem_append] at member
    rcases member with up | down
    · rw [List.eq_of_mem_replicate up] at inside
      simp [dot] at inside
    · exact names s (right ▸ List.mem_append_right _ down) inside
  have between : List.any ("/" : Text) (· = c) = false := by simp [Ne.symm slash]
  rw [relative_eq]
  split
  · simp [dot]
  · intro inside
    have found := Text.any_join between each
    rw [List.any_eq_false] at found
    exact found c inside (decide_eq_true rfl)

end DatafileMigration.Path
