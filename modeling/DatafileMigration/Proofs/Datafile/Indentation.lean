import DatafileMigration.Datafile.Block
import DatafileMigration.Proofs.Text.Strip

namespace DatafileMigration.Datafile

variable {indent line : Text} {lines : List Text}

/-- A line with an indentation in front; an empty line stays empty. -/
def indentBy (indent line : Text) : Text := if line = [] then line else indent ++ line

theorem indentBy_nil : indentBy indent [] = [] := rfl

theorem indentBy_of_ne_nil (filled : line ≠ []) : indentBy indent line = indent ++ line :=
  if_neg filled

theorem isBlank_of_isIndent {c : Char} (spacing : isIndent c) : Text.isBlank c := by
  simp only [isIndent, Bool.or_eq_true, decide_eq_true_eq] at spacing
  rcases spacing with rfl | rfl <;> decide

theorem indentBy_eq_nil_iff : indentBy indent line = [] ↔ line = [] := by
  constructor
  · intro empty
    by_contra filled
    rw [indentBy_of_ne_nil filled] at empty
    exact filled (List.append_eq_nil_iff.mp empty).2
  · rintro rfl
    exact indentBy_nil

theorem isBlankText_indentBy (spacing : indent.all isIndent) (line : Text) :
    Text.isBlankText (indentBy indent line) = Text.isBlankText line := by
  have blank : Text.isBlankText indent := by
    rw [Text.isBlankText, List.all_eq_true]
    intro c member
    exact isBlank_of_isIndent (List.all_eq_true.mp spacing c member)
  unfold indentBy
  split
  · rfl
  · rw [Text.isBlankText, List.all_append, ← Text.isBlankText, blank, Bool.true_and,
      Text.isBlankText]

section Shared

variable {s t : Text}

theorem sharedPrefix_append (front s t : Text) :
    sharedPrefix (front ++ s) (front ++ t) = front ++ sharedPrefix s t := by
  induction front with
  | nil => rfl
  | cons c front ih => rw [List.cons_append, List.cons_append, sharedPrefix, if_pos rfl, ih,
      List.cons_append]

theorem sharedPrefix_isPrefix (s t : Text) : sharedPrefix s t <+: s ∧ sharedPrefix s t <+: t := by
  fun_induction sharedPrefix s t with
  | case1 s c t ih => exact ih.imp (List.prefix_cons_inj c).mpr (List.prefix_cons_inj c).mpr
  | case2 => exact ⟨List.nil_prefix, List.nil_prefix⟩
  | case3 => exact ⟨List.nil_prefix, List.nil_prefix⟩

/-- What many texts share is a beginning of each of them. -/
theorem foldl_sharedPrefix_isPrefix (first : Text) (lines : List Text) :
    ∀ line ∈ first :: lines, lines.foldl sharedPrefix first <+: line := by
  induction lines generalizing first with
  | nil =>
    intro line member
    rw [List.mem_singleton.mp member]
    exact List.prefix_rfl
  | cons next lines ih =>
    intro line member
    have shared := ih (sharedPrefix first next) (sharedPrefix first next) List.mem_cons_self
    rcases List.mem_cons.mp member with rfl | member
    · exact shared.trans (sharedPrefix_isPrefix line next).1
    rcases List.mem_cons.mp member with rfl | member
    · exact shared.trans (sharedPrefix_isPrefix first line).2
    · exact ih _ line (List.mem_cons_of_mem _ member)

theorem prefix_sharedPrefix {front : Text} (left : front <+: s) (right : front <+: t) :
    front <+: sharedPrefix s t := by
  obtain ⟨u, rfl⟩ := left
  obtain ⟨v, rfl⟩ := right
  rw [sharedPrefix_append]
  exact List.prefix_append _ _

/-- What all of many texts begin with, they share. -/
theorem prefix_foldl_sharedPrefix {front first : Text} {lines : List Text}
    (each : ∀ line ∈ first :: lines, front <+: line) : front <+: lines.foldl sharedPrefix first := by
  induction lines generalizing first with
  | nil => exact each first List.mem_cons_self
  | cons next lines ih =>
    rw [List.forall_mem_cons, List.forall_mem_cons] at each
    obtain ⟨here, behind, others⟩ := each
    exact ih (List.forall_mem_cons.mpr ⟨prefix_sharedPrefix here behind, others⟩)

theorem foldl_sharedPrefix_append (front first : Text) (lines : List Text) :
    (lines.map (front ++ ·)).foldl sharedPrefix (front ++ first) =
      front ++ lines.foldl sharedPrefix first := by
  induction lines generalizing first with
  | nil => rfl
  | cons next lines ih =>
    rw [List.map_cons, List.foldl_cons, sharedPrefix_append, ih, List.foldl_cons]

end Shared

/-- The lines that count for the margin. -/
def solidLines (lines : List Text) : List Text := lines.filter (!·.all isIndent)

theorem mem_solidLines : line ∈ solidLines lines ↔ line ∈ lines ∧ line.all isIndent = false := by
  rw [solidLines, List.mem_filter, Bool.not_eq_true']

theorem margin_of_solidLines {first : Text} {rest : List Text}
    (solid : solidLines lines = first :: rest) :
    margin lines = (rest.map indentOf).foldl sharedPrefix (indentOf first) := by
  rw [solidLines] at solid
  rw [margin, solid, List.foldl_map]

theorem margin_of_no_solidLines (none : solidLines lines = []) : margin lines = [] := by
  rw [solidLines] at none
  rw [margin, none]

theorem margin_isPrefix (member : line ∈ solidLines lines) : margin lines <+: indentOf line := by
  cases solid : solidLines lines with
  | nil =>
    rw [solid] at member
    cases member
  | cons first rest =>
    rw [solid] at member
    rw [margin_of_solidLines solid]
    refine foldl_sharedPrefix_isPrefix _ _ _ ?_
    rw [← List.map_cons (f := indentOf)]
    exact List.mem_map_of_mem member

theorem indentOf_all (line : Text) : (indentOf line).all isIndent := List.all_takeWhile

theorem margin_all (lines : List Text) : (margin lines).all isIndent := by
  cases solid : solidLines lines with
  | nil =>
    rw [margin_of_no_solidLines solid]
    rfl
  | cons first rest =>
    have shared : margin lines <+: indentOf first := margin_isPrefix (by rw [solid]; simp)
    rw [List.all_eq_true]
    intro c member
    exact List.all_eq_true.mp (indentOf_all first) c (shared.subset member)

theorem indentOf_append (spacing : indent.all isIndent) (line : Text) :
    indentOf (indent ++ line) = indent ++ indentOf line :=
  List.takeWhile_append_of_pos (List.all_eq_true.mp spacing)

/-- The margin is the longest indentation that all lines begin with which count for it. -/
theorem prefix_margin (spacing : indent.all isIndent) (some : solidLines lines ≠ [])
    (shared : ∀ line ∈ solidLines lines, indent <+: line) : indent <+: margin lines := by
  obtain ⟨first, rest, listed⟩ := List.exists_cons_of_ne_nil some
  rw [margin_of_solidLines listed]
  refine prefix_foldl_sharedPrefix ?_
  rw [← List.map_cons (f := indentOf), ← listed]
  refine List.forall_mem_map.mpr fun line member => ?_
  obtain ⟨behind, rfl⟩ := shared line member
  rw [indentOf_append spacing]
  exact List.prefix_append _ _

theorem all_isIndent_indentBy (spacing : indent.all isIndent) (line : Text) :
    (indentBy indent line).all isIndent = line.all isIndent := by
  unfold indentBy
  split
  · rfl
  · rw [List.all_append, spacing, Bool.true_and]

theorem solidLines_indentBy (spacing : indent.all isIndent) (lines : List Text) :
    solidLines (lines.map (indentBy indent)) = (solidLines lines).map (indent ++ ·) := by
  have same : (fun line : Text => !line.all isIndent) ∘ indentBy indent =
      fun line => !line.all isIndent := by
    funext line
    exact congrArg Bool.not (all_isIndent_indentBy spacing line)
  rw [solidLines, List.filter_map, same, ← solidLines]
  refine List.map_congr_left ?_
  intro line member
  refine indentBy_of_ne_nil ?_
  rintro rfl
  exact absurd (mem_solidLines.mp member).2 (by decide)

/-- Lines that are indented together have the indentation in front of their margin. -/
theorem margin_indentBy (spacing : indent.all isIndent) (solid : solidLines lines ≠ []) :
    margin (lines.map (indentBy indent)) = indent ++ margin lines := by
  obtain ⟨first, rest, listed⟩ := List.exists_cons_of_ne_nil solid
  have indented := solidLines_indentBy spacing lines
  rw [listed, List.map_cons] at indented
  rw [margin_of_solidLines indented, margin_of_solidLines listed, indentOf_append spacing,
    ← foldl_sharedPrefix_append, List.map_map, List.map_map]
  congr 2
  funext line
  exact indentOf_append spacing line

/-- Lines that are empty where they hold nothing but indentation. -/
def NoSpacing (lines : List Text) : Prop := ∀ line ∈ lines, line.all isIndent → line = []

theorem NoSpacing.solid (clear : NoSpacing lines) (member : line ∈ lines) (filled : line ≠ []) :
    line ∈ solidLines lines := by
  rw [mem_solidLines]
  refine ⟨member, ?_⟩
  cases spacing : line.all isIndent with
  | false => rfl
  | true => exact absurd (clear line member spacing) filled

/-- Taking the margin of indented lines away leaves the lines, if these have no margin. -/
theorem dedent_indentBy (spacing : indent.all isIndent) (clear : NoSpacing lines)
    (flush : margin lines = []) : dedent (lines.map (indentBy indent)) = lines := by
  unfold dedent
  rw [List.map_map]
  conv_rhs => rw [← List.map_id lines]
  refine List.map_congr_left ?_
  intro line member
  rw [Function.comp_apply, all_isIndent_indentBy spacing, id]
  split
  · rename_i blank
    exact (clear line member blank).symm
  · rename_i solid
    have filled : line ≠ [] := by
      rintro rfl
      exact solid rfl
    have some : solidLines lines ≠ [] := List.ne_nil_of_mem (clear.solid member filled)
    rw [margin_indentBy spacing some, flush, List.append_nil, indentBy_of_ne_nil filled,
      List.drop_left]

/-- The lines are the dedented ones behind their margin. -/
theorem indentBy_dedent (clear : NoSpacing lines) :
    (dedent lines).map (indentBy (margin lines)) = lines := by
  unfold dedent
  rw [List.map_map]
  conv_rhs => rw [← List.map_id lines]
  refine List.map_congr_left ?_
  intro line member
  rw [Function.comp_apply, id]
  split
  · rename_i blank
    rw [clear line member blank, indentBy_nil]
  · rename_i solid
    have counts : line ∈ solidLines lines := by
      rw [mem_solidLines]
      exact ⟨member, Bool.eq_false_iff.mpr solid⟩
    obtain ⟨rest, whole⟩ := (margin_isPrefix counts).trans (List.takeWhile_prefix _)
    have filled : rest ≠ [] := by
      rintro rfl
      rw [List.append_nil] at whole
      exact solid (whole ▸ margin_all lines)
    rw [← whole, List.drop_left, whole, indentBy_of_ne_nil filled, whole]

/-- Dedented lines have no margin. -/
theorem margin_dedent (clear : NoSpacing lines) : margin (dedent lines) = [] := by
  by_cases none : solidLines (dedent lines) = []
  · exact margin_of_no_solidLines none
  · have indented := margin_indentBy (margin_all lines) none
    rw [indentBy_dedent clear] at indented
    exact List.append_right_eq_self.mp indented.symm

section Trim

variable {f : Text → Text}

theorem trimBlankLines_trimBlankLines (lines : List Text) :
    trimBlankLines (trimBlankLines lines) = trimBlankLines lines :=
  Text.dropEnds_dropEnds Text.isBlankText lines

theorem trimBlankLines_map (same : ∀ line, Text.isBlankText (f line) = Text.isBlankText line)
    (lines : List Text) : trimBlankLines (lines.map f) = (trimBlankLines lines).map f := by
  have composed : Text.isBlankText ∘ f = Text.isBlankText := funext same
  rw [trimBlankLines, trimBlankLines, List.dropWhile_map, composed, ← List.map_reverse,
    List.dropWhile_map, composed, ← List.map_reverse]

/-- Lines that are kept together keep their outer lines. Outer blank lines are told by what is
blank, so that indentation does not count for them. -/
theorem trimBlankLines_of_map (same : ∀ line, Text.isBlankText (f line) = Text.isBlankText line)
    (trimmed : trimBlankLines (lines.map f) = lines.map f) : trimBlankLines lines = lines := by
  rw [trimBlankLines_map same] at trimmed
  have length := congrArg List.length trimmed
  rw [List.length_map, List.length_map] at length
  exact (Text.dropEnds_sublist Text.isBlankText lines).eq_of_length length

end Trim

end DatafileMigration.Datafile
