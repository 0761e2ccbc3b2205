import DatafileMigration.Proofs.Text.Join
import DatafileMigration.Proofs.Text.Strip
import DatafileMigration.Text.TopLevel

namespace DatafileMigration.Text

namespace SplitState

variable {s : SplitState} {t : Text} {c : Char}

theorem mem_of_mem_pieces {piece : Text} (isPiece : piece ∈ s.pieces t) (member : c ∈ piece) :
    c ∈ t := by
  induction t generalizing s piece with
  | nil =>
    rw [pieces, List.mem_singleton] at isPiece
    rwa [isPiece] at member
  | cons d t ih =>
    rw [pieces] at isPiece
    split at isPiece
    · rcases List.mem_cons.mp isPiece with rfl | later
      · cases member
      · exact List.mem_cons_of_mem _ (ih later member)
    · split at isPiece
      · rw [List.mem_singleton.mp isPiece, List.mem_singleton] at member
        exact member ▸ List.mem_cons_self
      · rename_i first rest split
        rcases List.mem_cons.mp isPiece with rfl | later
        · rcases List.mem_cons.mp member with rfl | inFirst
          · exact List.mem_cons_self
          · exact List.mem_cons_of_mem _ (ih (by rw [split]; exact List.mem_cons_self) inFirst)
        · have inRest : piece ∈ (s.next d).pieces t := by
            rw [split]
            exact List.mem_cons_of_mem _ later
          exact List.mem_cons_of_mem _ (ih inRest member)

/-- A text without commas is one piece. -/
theorem pieces_of_no_comma (free : ',' ∉ t) : s.pieces t = [t] := by
  induction t generalizing s with
  | nil => rfl
  | cons c t ih =>
    rw [List.mem_cons, not_or] at free
    rw [pieces, if_neg (by simp [Ne.symm free.1]), ih free.2]

/-- The state behind a text that is cut nowhere. -/
def through? (s : SplitState) : Text → Option SplitState
  | [] => some s
  | c :: t => if c = ',' && s.isNeutral then none else (s.next c).through? t

theorem through?_append {u : Text} :
    s.through? (t ++ u) = (s.through? t).bind (·.through? u) := by
  induction t generalizing s with
  | nil => rfl
  | cons c t ih =>
    rw [List.cons_append, through?, through?]
    split
    · rfl
    · exact ih

theorem pieces_nil : s.pieces [] = [[]] := rfl

theorem pieces_ne_nil : s.pieces t ≠ [] := by
  cases t with
  | nil => exact List.cons_ne_nil _ _
  | cons c t =>
    rw [pieces]
    split
    · exact List.cons_ne_nil _ _
    · split <;> exact List.cons_ne_nil _ _

/-- The state behind a text. A comma that is cut off changes it no more than any other comma. -/
def after (s : SplitState) (t : Text) : SplitState := t.foldl next s

theorem after_append (s : SplitState) (t u : Text) : s.after (t ++ u) = (s.after t).after u :=
  List.foldl_append

theorem next_cut (neutral : s.isNeutral) : s.next ',' = { s with escaped := false } := by
  obtain ⟨opened, depth, escaped⟩ := s
  obtain ⟨rfl, rfl⟩ : opened = none ∧ depth = 0 := by simpa [isNeutral] using neutral
  rfl

/-- Behind a text, the splitter goes on in the state after it and with the last of its pieces. -/
theorem exists_pieces_append (s : SplitState) (t : Text) : ∃ front last,
    s.pieces t = front ++ [last] ∧ ∀ {u first rest}, (s.after t).pieces u = first :: rest →
      s.pieces (t ++ u) = front ++ (last ++ first) :: rest := by
  induction t generalizing s with
  | nil => exact ⟨[], [], rfl, fun behind => behind⟩
  | cons c t ih =>
    obtain ⟨front, last, alone, goesOn⟩ := ih (s.next c)
    by_cases isCut : (decide (c = ',') && s.isNeutral) = true
    · rw [Bool.and_eq_true, decide_eq_true_eq] at isCut
      obtain ⟨rfl, neutral⟩ := isCut
      have cuts : ∀ v, s.pieces (',' :: v) = [] :: (s.next ',').pieces v := fun v => by
        rw [pieces, if_pos (by simp [neutral]), next_cut neutral]
      refine ⟨[] :: front, last, by rw [cuts, alone]; rfl, fun behind => ?_⟩
      rw [List.cons_append, cuts, goesOn behind]
      rfl
    · have keeps : ∀ {v first rest}, (s.next c).pieces v = first :: rest →
          s.pieces (c :: v) = (c :: first) :: rest := fun split => by
        rw [pieces, if_neg isCut, split]
      cases front with
      | nil =>
        exact ⟨[], c :: last, keeps alone, fun behind => keeps (goesOn behind)⟩
      | cons piece front =>
        exact ⟨(c :: piece) :: front, last, keeps alone, fun behind => keeps (goesOn behind)⟩

/-- A text that is cut nowhere belongs to the first piece of what follows. -/
theorem pieces_append {next : SplitState} {u piece : Text} {rest : List Text}
    (whole : s.through? t = some next) (behind : next.pieces u = piece :: rest) :
    s.pieces (t ++ u) = (t ++ piece) :: rest := by
  induction t generalizing s with
  | nil =>
    cases whole
    exact behind
  | cons c t ih =>
    rw [through?] at whole
    split at whole
    · cases whole
    · rename_i noCut
      rw [List.cons_append, pieces, if_neg noCut, ih whole]
      rfl

/-- A text that is cut nowhere is one piece. -/
theorem pieces_of_through? {next : SplitState} (whole : s.through? t = some next) :
    s.pieces t = [t] := by
  have only := pieces_append whole pieces_nil
  rwa [List.append_nil] at only

end SplitState

/-- The text is a part of its own: it is cut nowhere, and closes all that it opens. -/
def IsPart (t : Text) : Prop :=
  ∀ d : Nat, SplitState.through? { depth := d } t = some { depth := d }

/-- So it is between parentheses, where commas do not count. -/
def IsEnclosed (t : Text) : Prop :=
  ∀ d : Nat, SplitState.through? { depth := d + 1 } t = some { depth := d + 1 }

variable {s t : Text} {parts : List Text}

theorem IsPart.isEnclosed (part : IsPart t) : IsEnclosed t := fun d => part (d + 1)

theorem IsPart.append (first : IsPart s) (second : IsPart t) : IsPart (s ++ t) := fun d => by
  rw [SplitState.through?_append, first d, Option.bind_some, second d]

theorem IsEnclosed.append (first : IsEnclosed s) (second : IsEnclosed t) : IsEnclosed (s ++ t) :=
  fun d => by rw [SplitState.through?_append, first d, Option.bind_some, second d]

/-- The characters that mean something to the splitter. -/
def splitMarks : List Char := [',', '\'', '"', backtick, '(', ')', '\\']

theorem isPart_of_plain (plain : ∀ c ∈ t, c ∉ splitMarks) : IsPart t := by
  intro d
  induction t with
  | nil => rfl
  | cons c t ih =>
    rw [List.forall_mem_cons] at plain
    have free := plain.1
    simp only [splitMarks, List.mem_cons, List.not_mem_nil, or_false, not_or] at free
    obtain ⟨comma, single, double, tick, opening, closing, escape⟩ := free
    have same : SplitState.next { depth := d } c = { depth := d } := by
      simp [SplitState.next, single, double, tick, opening, closing, escape]
    rw [SplitState.through?, if_neg (by simp [comma]), same]
    exact ih plain.2

/-- Within quotes nothing counts but a quote or a backslash. -/
theorem isPart_quoted (solid : ∀ c ∈ t, c ≠ '\'' ∧ c ≠ '\\') : IsPart ("'" ++ t ++ "'") := by
  intro d
  have inside : SplitState.through? { opened := some '\'', depth := d } t =
      some { opened := some '\'', depth := d } := by
    induction t with
    | nil => rfl
    | cons c t ih =>
      rw [List.forall_mem_cons] at solid
      have same : SplitState.next { opened := some '\'', depth := d } c =
          { opened := some '\'', depth := d } := by
        simp [SplitState.next, solid.1.1, solid.1.2]
      rw [SplitState.through?, if_neg (by simp [SplitState.isNeutral]), same]
      exact ih solid.2
  have opening : SplitState.through? { depth := d } "'" =
      some { opened := some '\'', depth := d } := rfl
  rw [SplitState.through?_append, SplitState.through?_append, opening, Option.bind_some, inside]
  rfl

theorem IsEnclosed.parenthesized (inside : IsEnclosed t) : IsPart ("(" ++ t ++ ")") := by
  intro d
  have opening : SplitState.through? { depth := d } "(" = some { depth := d + 1 } := rfl
  have closing : SplitState.through? { depth := d + 1 } ")" = some { depth := d } := by
    simp [SplitState.through?, SplitState.next, backtick]
  rw [SplitState.through?_append, SplitState.through?_append, opening, Option.bind_some, inside d,
    Option.bind_some, closing]

theorem isEnclosed_comma : IsEnclosed ", " := by
  intro d
  have deep : (d : Int) + 1 ≠ 0 := by omega
  simp [SplitState.through?, SplitState.next, SplitState.isNeutral, backtick, deep]

/-- The splitter cuts the text nowhere, and behind it nothing is open. -/
def IsWhole (t : Text) : Prop :=
  ∃ s, SplitState.through? {} t = some s ∧ s.isNeutral

theorem IsPart.isWhole (part : IsPart t) : IsWhole t := ⟨{}, part 0, rfl⟩

theorem plain_of_blank {blanks : Text} (blank : isBlankText blanks) :
    ∀ c ∈ blanks, c ∉ splitMarks := by
  intro c member mark
  have solid : ∀ c ∈ splitMarks, isBlank c = false := solid_of_all (by decide)
  rw [isBlankText, List.all_eq_true] at blank
  exact absurd (blank c member) (by rw [solid c mark]; decide)

namespace SplitState

variable {r : SplitState} {u : Text}

/-- Nothing is open, but there may be a backslash that keeps the next quote from counting. -/
theorem isNeutral_iff : r.isNeutral ↔ { r with escaped := false } = ({} : SplitState) := by
  obtain ⟨opened, depth, escaped⟩ := r
  simp [isNeutral, beq_iff_eq]

theorem exists_through?_of_plain (plain : ∀ c ∈ t, c ∉ splitMarks) (neutral : r.isNeutral) :
    ∃ next, r.through? t = some next ∧ next.isNeutral := by
  cases t with
  | nil => exact ⟨r, rfl, neutral⟩
  | cons c t =>
    have free := (List.forall_mem_cons.mp plain).1
    simp only [splitMarks, List.mem_cons, List.not_mem_nil, or_false, not_or] at free
    have same : r.next c = {} := by
      obtain ⟨comma, single, double, tick, opening, closing, escape⟩ := free
      rw [← isNeutral_iff.mp neutral]
      obtain ⟨opened, depth, escaped⟩ := r
      obtain ⟨rfl, -⟩ : opened = none ∧ depth = 0 := by simpa [isNeutral] using neutral
      simp [next, single, double, tick, opening, closing, escape]
    rw [through?, if_neg (by simp [free.1]), same]
    exact ⟨{}, isPart_of_plain (List.forall_mem_cons.mp plain).2 0, rfl⟩

/-- Behind a whole text, the next comma cuts. -/
theorem pieces_cut (whole : IsWhole t) (u : Text) :
    pieces {} (t ++ ',' :: u) = t :: pieces {} u := by
  obtain ⟨r, through, neutral⟩ := whole
  have behind : r.pieces (',' :: u) = [] :: pieces {} u := by
    rw [pieces, if_pos (by simp [neutral]), isNeutral_iff.mp neutral]
  rw [pieces_append through behind, List.append_nil]

theorem pieces_of_whole (whole : IsWhole t) : pieces {} t = [t] := by
  obtain ⟨r, through, _⟩ := whole
  exact pieces_of_through? through

/-- Whole texts with commas between them are the pieces. -/
theorem pieces_join (each : ∀ part ∈ parts, IsWhole part) (some : parts ≠ []) :
    pieces {} (join "," parts) = parts := by
  induction parts with
  | nil => exact absurd rfl some
  | cons part parts ih =>
    rw [List.forall_mem_cons] at each
    by_cases last : parts = []
    · subst last
      exact pieces_of_whole each.1
    · rw [join_cons_of_ne_nil last, List.append_assoc]
      exact (pieces_cut each.1 _).trans (congrArg (part :: ·) (ih each.2 last))

/-- A text without commas lengthens the last piece of what stands in front of it. -/
theorem pieces_append_plain (free : ',' ∉ u) : ∃ front last,
    r.pieces t = front ++ [last] ∧ r.pieces (t ++ u) = front ++ [last ++ u] := by
  obtain ⟨front, last, alone, goesOn⟩ := exists_pieces_append r t
  exact ⟨front, last, alone, goesOn (pieces_of_no_comma free)⟩

variable {blanks : Text}

/-- Blanks in front belong to the first piece, and go with its ends. -/
theorem map_strip_pieces_blanks (blank : isBlankText blanks) (t : Text) :
    (pieces {} (blanks ++ t)).map strip = (pieces {} t).map strip := by
  have through : through? {} blanks = some {} := isPart_of_plain (plain_of_blank blank) 0
  obtain ⟨piece, rest, split⟩ := List.exists_cons_of_ne_nil (pieces_ne_nil (s := {}) (t := t))
  have same := strip_between_blanks blank (rfl : isBlankText []) piece
  rw [List.append_nil] at same
  rw [pieces_append through split, split, List.map_cons, List.map_cons, same]

/-- Blanks behind belong to the last. -/
theorem map_strip_pieces_append_blanks (blank : isBlankText blanks) (t : Text) :
    (r.pieces (t ++ blanks)).map strip = (r.pieces t).map strip := by
  have free : ',' ∉ blanks := fun member => plain_of_blank blank _ member (by decide)
  obtain ⟨front, last, short, long⟩ := pieces_append_plain (r := r) (t := t) free
  rw [short, long, List.map_append, List.map_append, List.map_singleton, List.map_singleton,
    strip_append_blanks blank]

theorem map_strip_pieces_join (each : ∀ part ∈ parts, IsWhole part) (some : parts ≠ []) :
    (pieces {} (join ", " parts)).map strip = parts.map strip := by
  induction parts with
  | nil => exact absurd rfl some
  | cons part parts ih =>
    rw [List.forall_mem_cons] at each
    by_cases last : parts = []
    · subst last
      rw [join, pieces_of_whole each.1]
    · have behind := map_strip_pieces_blanks (by decide : isBlankText " ") (join ", " parts)
      have cut := pieces_cut each.1 (" " ++ join ", " parts)
      rw [join_cons_of_ne_nil last, List.append_assoc]
      change (pieces {} (part ++ ',' :: (" " ++ join ", " parts))).map strip = _
      rw [cut, List.map_cons, behind, ih each.2 last, List.map_cons]

end SplitState

variable {blanks : Text}

theorem IsWhole.blanks_append (blank : isBlankText blanks) (whole : IsWhole t) :
    IsWhole (blanks ++ t) := by
  obtain ⟨r, through, neutral⟩ := whole
  have start : SplitState.through? {} blanks = some {} := isPart_of_plain (plain_of_blank blank) 0
  exact ⟨r, by rw [SplitState.through?_append, start, Option.bind_some, through], neutral⟩

theorem IsWhole.append_blanks (blank : isBlankText blanks) (whole : IsWhole t) :
    IsWhole (t ++ blanks) := by
  obtain ⟨r, through, neutral⟩ := whole
  obtain ⟨next, behind, neutral'⟩ :=
    SplitState.exists_through?_of_plain (plain_of_blank blank) neutral
  exact ⟨next, by rw [SplitState.through?_append, through, Option.bind_some, behind], neutral'⟩

/-- The splitter minds no blanks at the ends. -/
theorem splitTopLevel_strip (t : Text) : splitTopLevel (strip t) = splitTopLevel t := by
  obtain ⟨before, blank, start⟩ := exists_append_stripStart t
  obtain ⟨after, blank', finish⟩ := exists_stripEnd_append (stripStart t)
  have whole : t = before ++ (strip t ++ after) := by rw [strip, ← finish, ← start]
  have same : (SplitState.pieces {} t).map strip = (SplitState.pieces {} (strip t)).map strip := by
    conv_lhs => rw [whole]
    rw [SplitState.map_strip_pieces_blanks blank, SplitState.map_strip_pieces_append_blanks blank']
  rw [splitTopLevel, splitTopLevel, same]

/-- Parts with commas between them are, stripped, the parts that the splitter finds. -/
theorem splitTopLevel_join_strip (each : ∀ part ∈ parts, IsWhole part)
    (filled : ∀ part ∈ parts, strip part ≠ []) :
    splitTopLevel (join ", " parts) = parts.map strip := by
  cases parts with
  | nil => rfl
  | cons part parts =>
    rw [splitTopLevel, SplitState.map_strip_pieces_join each (List.cons_ne_nil _ _)]
    exact List.filter_eq_self.mpr (by simpa using filled)

theorem splitTopLevel_join (each : ∀ part ∈ parts, IsWhole part)
    (stripped : ∀ part ∈ parts, strip part = part) (some : ∀ part ∈ parts, part ≠ []) :
    splitTopLevel (join ", " parts) = parts := by
  have same : parts.map strip = parts := (List.map_congr_left stripped).trans (List.map_id parts)
  rw [splitTopLevel_join_strip each fun part member => by
    rw [stripped part member]
    exact some part member, same]

theorem mem_of_mem_splitTopLevel {t part : Text} {c : Char} (isPart : part ∈ splitTopLevel t)
    (member : c ∈ part) : c ∈ t := by
  obtain ⟨piece, isPiece, rfl⟩ := List.mem_map.mp (List.mem_filter.mp isPart).1
  exact SplitState.mem_of_mem_pieces isPiece (mem_of_mem_strip member)

end DatafileMigration.Text
