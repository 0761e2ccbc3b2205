import Mathlib.Data.List.Chain
import DatafileMigration.Proofs.Text.Join
import DatafileMigration.Proofs.Template.Segments

namespace DatafileMigration.Template

variable {a b s t : Text} {c : Char} {inside rest : Text}

theorem expressions_placeholder (found : placeholderAt? t = some (inside, rest)) :
    expressions t = Text.strip inside :: expressions rest := by
  rw [expressions, segments_placeholder found]
  rfl

theorem expressions_plain (none : placeholderAt? (c :: t) = none) :
    expressions (c :: t) = expressions t := by
  rw [expressions, segments_plain none]
  rfl

theorem expressions_append_of_no_opening (solid : '\x7b' ∉ s) (t : Text) :
    expressions (s ++ t) = expressions t := by
  induction s with
  | nil => rfl
  | cons c s ih =>
    rw [List.mem_cons, not_or] at solid
    have none : placeholderAt? (c :: (s ++ t)) = none := by
      rw [← Option.not_isSome_iff_eq_none, isSome_placeholderAt?]
      exact fun found => solid.1 found.1.symm
    rw [List.cons_append, expressions_plain none, ih solid.2]

theorem expressions_of_no_closing (solid : '\x7d' ∉ t) : expressions t = [] := by
  induction t with
  | nil =>
    rw [expressions, segments]
    rfl
  | cons c t ih =>
    have none : placeholderAt? (c :: t) = none := by
      refine Option.eq_none_iff_forall_not_mem.mpr fun part found => solid ?_
      rw [(placeholderAt?_eq_some.mp found).2]
      simp [Segment.source]
    rw [expressions_plain none, ih fun member => solid (List.mem_cons_of_mem _ member)]

/-- The first text opens a placeholder at its end that the second closes at its beginning. -/
def Spans (a b : Text) : Prop :=
  ∃ front s t behind, a = front ++ "\x7b\x7b" ++ s ∧ b = t ++ "\x7d\x7d" ++ behind ∧
    (∀ c ∈ s, isBrace c = false) ∧ ∀ c ∈ t, isBrace c = false

theorem Spans.behind (spans : Spans a b) (s : Text) : Spans (s ++ a) b := by
  obtain ⟨front, u, t, behind, rfl, closes⟩ := spans
  exact ⟨s ++ front, u, t, behind, by simp, closes⟩

namespace PlaceholderPart

/-- What is left of a placeholder without its closing braces. -/
def Leaves : PlaceholderPart → Text → Prop
  | .opening, t => ∃ s, t = '\x7b' :: s ∧ ∀ c ∈ s, isBrace c = false
  | .first, t | .inside, t => ∀ c ∈ t, isBrace c = false
  | .closing, _ => False

/-- An opening brace completes nothing. -/
theorem completes_append_opening (part : PlaceholderPart) (t behind : Text) :
    part.completes (t ++ '\x7b' :: '\x7b' :: behind) = part.completes t := by
  induction t generalizing part with
  | nil => cases part <;> rfl
  | cons c t ih => cases part <;> simp only [List.cons_append, completes, ih]

/-- What is completed behind a character that is no brace is so in front of it already, or is left
open there. -/
theorem completes_append_plain {part : PlaceholderPart} (plain : isBrace c = false)
    (whole : part.completes (t ++ c :: b)) :
    part.completes t ∨ part.Leaves t ∧ PlaceholderPart.inside.completes b := by
  induction t generalizing part with
  | nil =>
    have other : c ≠ '\x7b' ∧ c ≠ '\x7d' := by
      simpa [isBrace] using plain
    cases part with
    | opening => simp [completes, other] at whole
    | closing => simp [completes, other] at whole
    | first | inside =>
      refine .inr ⟨List.forall_mem_nil _, ?_⟩
      simpa [completes, plain] using whole
  | cons d t ih =>
    rw [List.cons_append] at whole
    cases part with
    | closing => exact .inl whole
    | opening =>
      simp only [completes, Bool.and_eq_true, decide_eq_true_eq] at whole ⊢
      obtain ⟨rfl, whole⟩ := whole
      exact (ih whole).imp (⟨rfl, ·⟩) fun left => ⟨⟨t, rfl, left.1⟩, left.2⟩
    | first =>
      simp only [completes, Bool.and_eq_true, Bool.not_eq_true'] at whole ⊢
      obtain ⟨solid, whole⟩ := whole
      refine (ih whole).imp (⟨solid, ·⟩) fun left => ⟨?_, left.2⟩
      exact List.forall_mem_cons.mpr ⟨solid, left.1⟩
    | inside =>
      simp only [completes] at whole ⊢
      split at whole
      · rename_i brace
        left
        rw [if_pos brace]
        cases t with
        | nil => simp_all [completes, isBrace]
        | cons e t => exact whole
      · rename_i solid
        rw [if_neg solid]
        rw [Bool.not_eq_true] at solid
        exact (ih whole).imp_right fun left => ⟨List.forall_mem_cons.mpr ⟨solid, left.1⟩, left.2⟩

end PlaceholderPart

namespace Segment

variable {ss ts : List Segment}

/-- Two opening braces behind a text change nothing of its segments. -/
theorem Settled.append_opening (settled : Settled ss) (settled' : Settled ts)
    (opens : ∃ behind, ts.flatMap source = '\x7b' :: '\x7b' :: behind) : Settled (ss ++ ts) := by
  obtain ⟨behind, whole⟩ := opens
  induction settled with
  | nil => exact settled'
  | @plain c ss none _ ih =>
    rw [← Option.not_isSome_iff_eq_none, isSome_placeholderAt?,
      ← PlaceholderPart.completes_append_opening _ _ behind, ← whole, ← List.flatMap_append,
      ← isSome_placeholderAt?, Option.not_isSome_iff_eq_none] at none
    exact .plain none ih
  | placeholder isInside _ ih => exact .placeholder isInside ih

/-- A character that is no brace ends what stands in front of it, unless a placeholder goes on. -/
theorem Settled.append_plain (settled : Settled ss) (settled' : Settled ts)
    (plain : isBrace c = false) (apart : ¬ Spans (ss.flatMap source) (ts.flatMap source)) :
    Settled (ss ++ .plain c :: ts) := by
  induction settled with
  | nil =>
    refine .plain ?_ settled'
    rw [← Option.not_isSome_iff_eq_none, isSome_placeholderAt?]
    rintro ⟨rfl, _⟩
    cases plain
  | @plain d ss none _ ih =>
    rw [List.flatMap_cons] at apart
    have still : placeholderAt? (d :: (ss ++ .plain c :: ts).flatMap source) = Option.none := ?_
    · exact .plain still (ih fun spans => apart (spans.behind _))
    rw [← Option.not_isSome_iff_eq_none, isSome_placeholderAt?] at none ⊢
    rintro ⟨rfl, whole⟩
    rw [List.flatMap_append, List.flatMap_cons, source, List.singleton_append] at whole
    rcases PlaceholderPart.completes_append_plain plain whole with here | ⟨left, closes⟩
    · exact none ⟨rfl, here⟩
    · obtain ⟨s, left, solid⟩ := left
      obtain ⟨t, behind, solid', closed⟩ := PlaceholderPart.completes_inside.mp closes
      refine apart ⟨[], s, t, behind, ?_, by simp [closed], solid, solid'⟩
      rw [left]
      rfl
  | placeholder isInside _ ih =>
    rw [List.flatMap_cons] at apart
    exact .placeholder isInside (ih fun spans => apart (spans.behind _))

end Segment

theorem segments_append_opening (a behind : Text) :
    segments (a ++ '\x7b' :: '\x7b' :: behind) =
      segments a ++ segments ('\x7b' :: '\x7b' :: behind) := by
  have settled := (Segment.settled_segments a).append_opening
    (Segment.settled_segments ('\x7b' :: '\x7b' :: behind)) ⟨behind, flatMap_source_segments _⟩
  have equal := settled.segments_eq
  rwa [List.flatMap_append, flatMap_source_segments, flatMap_source_segments] at equal

theorem segments_append_plain (plain : isBrace c = false) (apart : ¬ Spans a b) :
    segments (a ++ c :: b) = segments a ++ .plain c :: segments b := by
  rw [← flatMap_source_segments a, ← flatMap_source_segments b] at apart
  have settled := (Segment.settled_segments a).append_plain (Segment.settled_segments b) plain apart
  have equal := settled.segments_eq
  rwa [List.flatMap_append, List.flatMap_cons, flatMap_source_segments, flatMap_source_segments]
    at equal

theorem expressions_append_opening (a behind : Text) :
    expressions (a ++ '\x7b' :: '\x7b' :: behind) =
      expressions a ++ expressions ('\x7b' :: '\x7b' :: behind) := by
  rw [expressions, segments_append_opening, List.filterMap_append]
  rfl

/-- Two texts with a character between them that is no brace have the expressions of both. -/
theorem expressions_append_plain (plain : isBrace c = false) (apart : ¬ Spans a b) :
    expressions (a ++ c :: b) = expressions a ++ expressions b := by
  rw [expressions, segments_append_plain plain apart, List.filterMap_append]
  rfl

/-- Where the texts span a placeholder, its expression stands between theirs. -/
theorem expressions_append_of_spans (plain : isBrace c = false) (spans : Spans a b) :
    ∃ between, expressions (a ++ c :: b) = expressions a ++ between :: expressions b := by
  obtain ⟨front, s, t, behind, rfl, rfl, solid, solid'⟩ := spans
  have isInside : IsInside (s ++ c :: t) := by
    refine ⟨by simp, fun d member => ?_⟩
    rcases List.mem_append.mp member with before | after
    · exact solid d before
    · rcases List.mem_cons.mp after with rfl | after
      · exact plain
      · exact solid' d after
  have noClosing : '\x7d' ∉ ('\x7b' :: '\x7b' :: s : Text) := by
    simp only [List.mem_cons, not_or]
    exact ⟨by decide, by decide, fun member => absurd (solid _ member) (by decide)⟩
  have noOpening : '\x7b' ∉ t ++ "\x7d\x7d".toList := by
    rw [List.mem_append, not_or]
    exact ⟨fun member => absurd (solid' _ member) (by decide), by decide⟩
  have first : expressions (front ++ "\x7b\x7b" ++ s) = expressions front := by
    rw [List.append_assoc]
    refine (expressions_append_opening front s).trans ?_
    rw [expressions_of_no_closing noClosing, List.append_nil]
  have whole : front ++ "\x7b\x7b" ++ s ++ c :: (t ++ "\x7d\x7d" ++ behind) =
      front ++ '\x7b' :: '\x7b' :: (s ++ c :: (t ++ "\x7d\x7d" ++ behind)) := by
    simp
  have found : placeholderAt? ('\x7b' :: '\x7b' :: (s ++ c :: (t ++ "\x7d\x7d" ++ behind))) =
      some (s ++ c :: t, behind) :=
    placeholderAt?_eq_some.mpr ⟨isInside, by simp [Segment.source]⟩
  refine ⟨Text.strip (s ++ c :: t), ?_⟩
  rw [whole, expressions_append_opening, first, expressions_placeholder found,
    expressions_append_of_no_opening noOpening]

/-- Each of two texts keeps its expressions when the other is put before or behind it. -/
theorem expressions_sublist_append (a b : Text) :
    (expressions a ++ expressions b).Sublist (expressions (a ++ '\n' :: b)) := by
  by_cases spans : Spans a b
  · obtain ⟨between, whole⟩ := expressions_append_of_spans (c := '\n') rfl spans
    rw [whole, List.append_sublist_append_left]
    exact List.sublist_cons_self _ _
  · rw [expressions_append_plain rfl spans]

/-- A query keeps its expressions among others. -/
theorem expressions_subset_join {queries : List Text} {sql : Text} (member : sql ∈ queries) :
    expressions sql ⊆ expressions (Text.join "\n" queries) := by
  induction queries with
  | nil => cases member
  | cons first queries ih =>
    cases queries with
    | nil => rw [List.mem_singleton.mp member]; simp [Text.join]
    | cons second queries =>
      have both := (expressions_sublist_append first (Text.join "\n" (second :: queries))).subset
      rw [List.append_subset] at both
      rw [Text.join_cons_of_ne_nil (List.cons_ne_nil _ _), List.append_assoc]
      rcases List.mem_cons.mp member with rfl | later
      · exact both.1
      · exact List.Subset.trans (ih later) both.2

/-- Nowhere in a text do two braces open. -/
def Unopened (t : Text) : Prop := ¬ ("\x7b\x7b" : Text) <:+: t

theorem unopened_iff_isChain : Unopened t ↔ t.IsChain fun c d => ¬ (c = '\x7b' ∧ d = '\x7b') := by
  rw [List.isChain_iff_forall_rel_of_append_cons_cons]
  constructor
  · rintro unopened _ _ before after rfl ⟨rfl, rfl⟩
    exact unopened ⟨before, after, by simp⟩
  · rintro apart ⟨before, after, rfl⟩
    exact @apart '\x7b' '\x7b' before after (by simp) ⟨rfl, rfl⟩

namespace Unopened

theorem of_infix (unopened : Unopened t) (inside : s <:+: t) : Unopened s :=
  fun opening => unopened (opening.trans inside)

theorem segments (unopened : Unopened t) : segments t = t.map .plain := by
  fun_induction Template.segments t with
  | case1 t inside rest found ih =>
    refine absurd ?_ unopened
    rw [(placeholderAt?_eq_some.mp found).2, Segment.source, List.append_assoc, List.append_assoc]
    exact (List.prefix_append _ _).isInfix
  | case2 none => rfl
  | case3 c rest none ih =>
    rw [ih (unopened.of_infix (List.suffix_cons c rest).isInfix)]
    rfl

theorem normalize (unopened : Unopened t) : normalize t = t := by
  rw [Template.normalize, unopened.segments, List.flatMap_map]
  exact List.flatMap_singleton' t

theorem expressions (unopened : Unopened t) : expressions t = [] := by
  rw [Template.expressions, unopened.segments, List.filterMap_map, List.filterMap_eq_nil_iff]
  exact fun _ _ => rfl

theorem parameters (unopened : Unopened t) : parameters t = .ok [] := by
  have none : usages t = .ok [] := by
    rw [usages, queryCalls, unopened.expressions]
    rfl
  exact map_eq_ok.mpr ⟨[], none, List.mergeSort_nil⟩

/-- The break between two queries opens nothing. -/
theorem join {queries : List Text} (unopened : ∀ sql ∈ queries, Unopened sql) :
    Unopened (Text.join "\n" queries) := by
  induction queries with
  | nil => exact unopened_iff_isChain.mpr .nil
  | cons sql queries ih =>
    rw [List.forall_mem_cons] at unopened
    by_cases last : queries = []
    · rw [last]
      exact unopened.1
    · rw [Text.join_cons_of_ne_nil last]
      have front := unopened_iff_isChain.mp unopened.1
      have behind := unopened_iff_isChain.mp (ih unopened.2)
      rw [unopened_iff_isChain, List.append_assoc, List.isChain_append]
      refine ⟨front, List.isChain_cons.mpr ⟨?_, behind⟩, ?_⟩
      · exact fun _ _ opens => absurd opens.1 (by decide)
      · rintro _ _ c isBreak opens
        obtain rfl := Option.some.inj isBreak
        exact absurd opens.2 (by decide)

end Unopened

end DatafileMigration.Template
