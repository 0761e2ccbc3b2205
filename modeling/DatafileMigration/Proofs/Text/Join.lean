import DatafileMigration.Text.Basic
import DatafileMigration.Text.Blank

namespace DatafileMigration.Text

variable {separator part : Text} {parts : List Text}

theorem join_cons_of_ne_nil (more : parts ≠ []) :
    join separator (part :: parts) = part ++ separator ++ join separator parts := by
  cases parts with
  | nil => exact absurd rfl more
  | cons next parts => rfl

theorem join_concat (more : parts ≠ []) :
    join separator (parts ++ [part]) = join separator parts ++ separator ++ part := by
  induction parts with
  | nil => exact absurd rfl more
  | cons first parts ih =>
    by_cases last : parts = []
    · subst last
      rfl
    · rw [List.cons_append, join_cons_of_ne_nil (by simp), ih last, join_cons_of_ne_nil last]
      simp only [List.append_assoc]

/-- Fewer parts make a shorter text. -/
theorem join_sublist {fewer : List Text} (among : fewer.Sublist parts) :
    (join separator fewer).Sublist (join separator parts) := by
  induction among with
  | slnil => exact List.Sublist.refl _
  | @cons fewer parts part _ ih =>
    refine ih.trans ?_
    by_cases last : parts = []
    · subst last
      exact List.nil_sublist _
    · rw [join_cons_of_ne_nil last]
      exact List.sublist_append_right _ _
  | @cons_cons fewer parts part among ih =>
    by_cases last : parts = []
    · subst last
      obtain rfl := List.sublist_nil.mp among
      exact List.Sublist.refl _
    rw [join_cons_of_ne_nil last]
    by_cases single : fewer = []
    · subst single
      rw [List.append_assoc]
      exact List.sublist_append_left _ _
    · rw [join_cons_of_ne_nil single]
      exact (List.Sublist.refl _).append ih

/-- A part of a joined text is followed by its end or by a separator. -/
theorem infix_join (member : part ∈ parts) :
    (∃ before, join separator parts = before ++ part) ∨
      part ++ separator <:+: join separator parts := by
  induction parts with
  | nil => cases member
  | cons head parts ih =>
    by_cases last : parts = []
    · subst last
      rw [List.mem_singleton] at member
      subst member
      exact Or.inl ⟨[], rfl⟩
    rw [join_cons_of_ne_nil last]
    rcases List.mem_cons.mp member with rfl | member
    · exact Or.inr (List.prefix_append _ _).isInfix
    rcases ih member with ⟨before, equal⟩ | inside
    · refine Or.inl ⟨head ++ separator ++ before, ?_⟩
      rw [equal, ← List.append_assoc]
    · exact Or.inr (inside.trans (List.suffix_append _ _).isInfix)

theorem infix_join_self (member : part ∈ parts) : part <:+: join separator parts := by
  rcases @infix_join separator _ _ member with ⟨before, equal⟩ | inside
  · rw [equal]
    exact (List.suffix_append _ _).isInfix
  · exact (List.prefix_append _ _).isInfix.trans inside

theorem join_getLast (more : parts ≠ []) :
    ∃ before, join separator parts = before ++ parts.getLast more := by
  induction parts with
  | nil => exact absurd rfl more
  | cons head parts ih =>
    by_cases last : parts = []
    · subst last
      exact ⟨[], rfl⟩
    · obtain ⟨before, equal⟩ := ih last
      refine ⟨head ++ separator ++ before, ?_⟩
      rw [join_cons_of_ne_nil last, equal, List.getLast_cons last, List.append_assoc _ before]

/-- A joined text ends as all of its parts do. -/
theorem join_ends {ending : Text} (more : parts ≠ [])
    (ends : ∀ t ∈ parts, ∃ before, t = before ++ ending) :
    ∃ before, join separator parts = before ++ ending := by
  obtain ⟨front, joined⟩ := @join_getLast separator parts more
  obtain ⟨before, last⟩ := ends _ (List.getLast_mem more)
  refine ⟨front ++ before, ?_⟩
  rw [joined, last, List.append_assoc]

theorem any_join {p : Char → Bool}
    (between : separator.any p = false) (each : ∀ part ∈ parts, part.any p = false) :
    (join separator parts).any p = false := by
  induction parts with
  | nil => rfl
  | cons part parts ih =>
    obtain ⟨first, rest⟩ := List.forall_mem_cons.mp each
    cases parts with
    | nil => exact first
    | cons next parts =>
      rw [join, List.any_append, List.any_append, first, between, ih rest]
      rfl

theorem not_mem_join {c : Char} (between : c ∉ separator) (each : ∀ part ∈ parts, c ∉ part) :
    c ∉ join separator parts := by
  have absent (t : Text) : t.any (· == c) = false ↔ c ∉ t := by
    rw [← Bool.not_eq_true, List.any_beq', List.contains_iff_mem]
  rw [← absent] at between ⊢
  exact any_join between fun part member => (absent part).mpr (each part member)

/-- One line feed behind another character is all that goes. -/
theorem trimNewlines_line {c : Char} (t : Text) (solid : c ≠ '\n') :
    trimNewlines (t ++ [c, '\n']) = t ++ [c] := by
  simp [trimNewlines, solid]

end DatafileMigration.Text
