import DatafileMigration.Proofs.Template.Pieces

namespace DatafileMigration.Template

/-- The inside of a placeholder that is read where it is written. -/
structure IsInside (inside : Text) : Prop where
  nonempty : inside ≠ []
  solid : ∀ c ∈ inside, isBrace c = false

section Placeholder

variable {c : Char} {inside rest t : Text}

theorem placeholderAt?_eq_some : placeholderAt? t = some (inside, rest) ↔
    IsInside inside ∧ t = (Segment.placeholder inside).source ++ rest := by
  constructor
  · intro found
    refine ⟨?_, eq_of_placeholderAt? found⟩
    simp only [placeholderAt?, Option.bind_eq_bind, Option.bind_eq_some_iff] at found
    obtain ⟨body, _, _, _, found⟩ := found
    split at found
    · cases found
    · rename_i some
      cases found
      exact ⟨some, fun c member => by simpa using List.mem_takeWhile_imp member⟩
  · rintro ⟨isInside, rfl⟩
    have solid : ∀ c ∈ inside, (!isBrace c) = true := fun c member => by
      rw [isInside.solid c member]
      rfl
    have spelled : (Segment.placeholder inside).source ++ rest =
        "\x7b\x7b" ++ (inside ++ '\x7d' :: '\x7d' :: rest) := by
      simp [Segment.source]
    rw [spelled, placeholderAt?, Text.dropPrefix?_eq_some_iff.mpr rfl]
    simp only [Option.bind_eq_bind, Option.bind_some]
    rw [Text.takeWhile_of_stop solid rfl, Text.dropWhile_of_stop solid rfl]
    exact if_neg isInside.nonempty

end Placeholder

/-- Where a reader may stand in a placeholder. -/
inductive PlaceholderPart where
  | opening
  | first
  | inside
  | closing

namespace PlaceholderPart

/-- Whether a text is what is left of a placeholder from such a place on, with anything behind. -/
def completes : PlaceholderPart → Text → Bool
  | _, [] => false
  | opening, c :: t => c = '\x7b' && completes first t
  | first, c :: t => !isBrace c && completes inside t
  | inside, c :: t => if isBrace c then c = '\x7d' && completes closing t else completes inside t
  | closing, c :: _ => c = '\x7d'

variable {t : Text}

theorem completes_closing : closing.completes t ↔ ∃ rest, t = '\x7d' :: rest := by
  cases t with
  | nil => simp [completes]
  | cons c t => simp [completes]

theorem completes_inside : inside.completes t ↔
    ∃ s rest, (∀ c ∈ s, isBrace c = false) ∧ t = s ++ '\x7d' :: '\x7d' :: rest := by
  induction t with
  | nil => simp [completes]
  | cons c t ih =>
    rw [completes]
    constructor
    · intro whole
      split at whole
      · rw [Bool.and_eq_true, decide_eq_true_eq, completes_closing] at whole
        obtain ⟨rfl, rest, rfl⟩ := whole
        exact ⟨[], rest, List.forall_mem_nil _, rfl⟩
      · rename_i plain
        obtain ⟨s, rest, solid, rfl⟩ := ih.mp whole
        exact ⟨c :: s, rest, List.forall_mem_cons.mpr ⟨by simpa using plain, solid⟩, rfl⟩
    · rintro ⟨s, rest, solid, whole⟩
      cases s with
      | nil =>
        obtain ⟨rfl, rfl⟩ := List.cons.inj whole
        rfl
      | cons d s =>
        obtain ⟨rfl, rfl⟩ := List.cons.inj whole
        rw [List.forall_mem_cons] at solid
        rw [solid.1, if_neg Bool.false_ne_true, ih]
        exact ⟨s, rest, solid.2, rfl⟩

theorem completes_first : first.completes t ↔
    ∃ s rest, IsInside s ∧ t = s ++ '\x7d' :: '\x7d' :: rest := by
  cases t with
  | nil => simp [completes]
  | cons c t =>
    rw [completes, Bool.and_eq_true, Bool.not_eq_true', completes_inside]
    constructor
    · rintro ⟨plain, s, rest, solid, rfl⟩
      exact ⟨c :: s, rest, ⟨List.cons_ne_nil c s, List.forall_mem_cons.mpr ⟨plain, solid⟩⟩, rfl⟩
    · rintro ⟨s, rest, isInside, whole⟩
      obtain ⟨d, s, rfl⟩ := List.exists_cons_of_ne_nil isInside.nonempty
      obtain ⟨rfl, rfl⟩ := List.cons.inj whole
      exact ⟨isInside.solid c List.mem_cons_self, s, rest,
        fun d member => isInside.solid d (List.mem_cons_of_mem _ member), rfl⟩

end PlaceholderPart

/-- A placeholder is found at an opening brace, if a placeholder goes on from there. -/
theorem isSome_placeholderAt? {c : Char} {t : Text} : (placeholderAt? (c :: t)).isSome ↔
    c = '\x7b' ∧ PlaceholderPart.opening.completes t := by
  rw [Option.isSome_iff_exists, Prod.exists]
  simp only [placeholderAt?_eq_some, Segment.source]
  cases t with
  | nil => simp [PlaceholderPart.completes]
  | cons d t =>
    rw [PlaceholderPart.completes, Bool.and_eq_true, decide_eq_true_eq,
      PlaceholderPart.completes_first]
    constructor
    · rintro ⟨inside, rest, isInside, whole⟩
      rw [List.append_assoc, List.append_assoc] at whole
      obtain ⟨atFirst, whole⟩ := List.cons.inj whole
      obtain ⟨atSecond, whole⟩ := List.cons.inj whole
      exact ⟨atFirst, atSecond, inside, rest, isInside, whole⟩
    · rintro ⟨rfl, rfl, inside, rest, isInside, rfl⟩
      exact ⟨inside, rest, isInside, by simp⟩

theorem segments_placeholder {inside rest t : Text}
    (found : placeholderAt? t = some (inside, rest)) :
    segments t = .placeholder inside :: segments rest := by
  rw [segments]
  split
  · rename_i found'
    rw [found] at found'
    cases found'
    rfl
  · rename_i none
    rw [found] at none
    cases none

theorem segments_plain {c : Char} {t : Text} (none : placeholderAt? (c :: t) = none) :
    segments (c :: t) = .plain c :: segments t := by
  rw [segments]
  split
  · rename_i found
    rw [none] at found
    cases found
  · rfl

namespace Segment

/-- Segments that are read where they are written. -/
inductive Settled : List Segment → Prop
  | nil : Settled []
  | plain {c ss} : placeholderAt? (c :: ss.flatMap source) = none → Settled ss →
      Settled (.plain c :: ss)
  | placeholder {inside ss} : IsInside inside → Settled ss → Settled (.placeholder inside :: ss)

variable {ss : List Segment} {f : Text → Text}

/-- The segments of a text are read where they are written. -/
theorem settled_segments (t : Text) : Settled (segments t) := by
  fun_induction segments t with
  | case1 t inside rest found ih => exact .placeholder (placeholderAt?_eq_some.mp found).1 ih
  | case2 none => exact .nil
  | case3 c rest none ih =>
    refine .plain ?_ ih
    rw [flatMap_source_segments]
    exact none

theorem Settled.segments_eq (settled : Settled ss) : segments (ss.flatMap source) = ss := by
  induction settled with
  | nil =>
    rw [List.flatMap_nil, segments]
    rfl
  | plain none _ ih =>
    rw [List.flatMap_cons, source, List.singleton_append, segments_plain none, ih]
  | placeholder isInside _ ih =>
    rw [List.flatMap_cons, segments_placeholder (placeholderAt?_eq_some.mpr ⟨isInside, rfl⟩), ih]

/-- The segment with another inside, if it is a placeholder. -/
def rewrite (f : Text → Text) : Segment → Segment
  | .plain c => .plain c
  | .placeholder inside => .placeholder (f inside)

/-- What stands behind a place completes a placeholder there or does not, whatever the insides of
the placeholders behind it are: none of these can be a part of it. -/
theorem Settled.completes_rewrite (settled : Settled ss) (part : PlaceholderPart) :
    part.completes ((ss.map (rewrite f)).flatMap source) = part.completes (ss.flatMap source) := by
  induction settled generalizing part with
  | nil => rfl
  | @plain c ss _ _ ih =>
    simp only [List.map_cons, List.flatMap_cons, rewrite, source, List.singleton_append]
    cases part <;> simp only [PlaceholderPart.completes, ih]
  | placeholder _ _ _ => cases part <;> rfl

theorem Settled.rewrite (settled : Settled ss)
    (keeps : ∀ inside, IsInside inside → IsInside (f inside)) : Settled (ss.map (rewrite f)) := by
  induction settled with
  | nil => exact .nil
  | plain none settled ih =>
    refine .plain ?_ ih
    rw [← Option.not_isSome_iff_eq_none, isSome_placeholderAt?] at none ⊢
    rwa [settled.completes_rewrite]
  | placeholder isInside _ ih => exact .placeholder (keeps _ isInside) ih

end Segment

/-- The inside of a placeholder after its expression is put in normal form. -/
def normalizeInside (inside : Text) : Text :=
  let normal := normalizeExpression (Text.strip inside)
  if normal = Text.strip inside then inside else " " ++ normal ++ " "

variable {inside : Text}

theorem Call.mem_normalized {c : Call} {d : Char} (member : d ∈ c.normalized) : d ∈ c.source := by
  cases named : c.parameterName? with
  | none => rwa [← c.source_reduced, c.reduced_of_none named] at member
  | some name =>
    obtain ⟨_, _, options, split⟩ := c.parameterName?_eq_some.mp named
    have inArguments (inName : d ∈ name) : d ∈ c.arguments :=
      Text.mem_of_mem_splitTopLevel (split ▸ List.mem_cons_self) inName
    rw [← c.source_reduced, c.reduced_of_some named] at member
    simp only [source, List.mem_append] at member ⊢
    grind

theorem mem_of_mem_normalizeExpression {expression : Text} {c : Char}
    (member : c ∈ normalizeExpression expression) : c ∈ expression := by
  obtain ⟨p, isPiece, inPiece⟩ := List.mem_flatMap.mp (Text.mem_of_mem_strip member)
  rw [← (settled_piecesOf {} expression).2]
  refine List.mem_flatMap.mpr ⟨p, isPiece, ?_⟩
  cases p with
  | plain c => exact inPiece
  | call c => exact c.mem_normalized inPiece

theorem IsInside.normalizeInside (isInside : IsInside inside) :
    IsInside (normalizeInside inside) := by
  rw [Template.normalizeInside]
  split
  · exact isInside
  · refine ⟨by simp, fun c member => ?_⟩
    simp only [List.append_assoc, List.mem_append] at member
    rcases member with blank | inNormal | blank
    · rw [List.mem_singleton.mp blank]
      rfl
    · exact isInside.solid c (Text.mem_of_mem_strip (mem_of_mem_normalizeExpression inNormal))
    · rw [List.mem_singleton.mp blank]
      rfl

theorem Segment.source_rewrite (s : Segment) :
    (s.rewrite normalizeInside).source = s.normalized := by
  cases s with
  | plain c => rfl
  | placeholder inside =>
    rw [rewrite, normalizeInside, normalized]
    split
    · rfl
    · simp [source]

theorem normalize_eq (sql : Text) : normalize sql =
    ((segments sql).map (Segment.rewrite normalizeInside)).flatMap Segment.source := by
  rw [normalize, List.flatMap_map]
  simp only [Segment.source_rewrite]

/-- The segments of a normal query are the normal segments. Each placeholder stays where it is
between the same text, and no new one comes into being. -/
theorem segments_normalize (sql : Text) :
    segments (normalize sql) = (segments sql).map (Segment.rewrite normalizeInside) := by
  rw [normalize_eq]
  exact ((Segment.settled_segments sql).rewrite fun _ => IsInside.normalizeInside).segments_eq

theorem strip_normalizeInside (inside : Text) :
    Text.strip (normalizeInside inside) = normalizeExpression (Text.strip inside) := by
  rw [normalizeInside]
  split
  · rename_i normal
    exact normal.symm
  · have behind := Text.strip_append_blank (c := ' ')
      (t := " ".toList ++ normalizeExpression (Text.strip inside)) (by decide)
    have front := Text.strip_cons_blank (c := ' ')
      (t := normalizeExpression (Text.strip inside)) (by decide)
    exact behind.trans (front.trans (Text.strip_strip _))

theorem normalizeInside_normalizeInside (inside : Text) :
    normalizeInside (normalizeInside inside) = normalizeInside inside := by
  rw [normalizeInside, strip_normalizeInside,
    normalizeExpression_normalizeExpression (Text.strip_strip inside), if_pos rfl]

/-- The expressions of a normal query are the normal expressions. -/
theorem expressions_normalize (sql : Text) :
    expressions (normalize sql) = (expressions sql).map normalizeExpression := by
  rw [expressions, segments_normalize, expressions, List.filterMap_map, List.map_filterMap]
  congr 1
  funext s
  cases s with
  | plain c => rfl
  | placeholder inside => exact congrArg some (strip_normalizeInside inside)

/-- The calls of a normal query are the reduced calls. -/
theorem queryCalls_normalize (sql : Text) :
    queryCalls (normalize sql) = (queryCalls sql).map Call.reduced := by
  rw [queryCalls, expressions_normalize, queryCalls, List.flatMap_map, List.map_flatMap]
  refine List.flatMap_congr fun expression member => ?_
  have stripped : Text.strip expression = expression := by
    obtain ⟨s, _, found⟩ := List.mem_filterMap.mp member
    cases s with
    | plain c => cases found
    | placeholder inside =>
      cases found
      exact Text.strip_strip inside
  exact calls_normalizeExpression stripped

end DatafileMigration.Template
