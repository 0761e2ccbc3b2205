import Mathlib.Data.List.Forall2
import Mathlib.Data.List.TakeWhile
import DatafileMigration.Proofs.Datafile.Canonical

namespace DatafileMigration.Datafile

open Text (isBlank isBlankText stripEnd strip cutWord)

variable {indent line inner : Text} {lines kept block : List Text} {start finish i : Nat}
  {d e : Directive} {ds : List Directive}

theorem startsAtColumnZero_iff :
    startsAtColumnZero line ↔ ∃ c ∈ line.head?, isBlank c = false := by
  cases line <;> simp [startsAtColumnZero]

theorem startsAtColumnZero_eq_false_iff :
    startsAtColumnZero line = false ↔ ∀ c ∈ line.head?, isBlank c := by
  cases line <;> simp [startsAtColumnZero]

/-- The first line from `start` on that has a first character which is no blank, or the number of
lines if there is none. Lines are counted from zero. -/
structure IsBlockEnd (lines : List Text) (start finish : Nat) : Prop where
  after : start ≤ finish
  within : finish ≤ lines.length
  below : ∀ i line, start ≤ i → i < finish → lines[i]? = some line →
    ∀ c ∈ line.head?, isBlank c
  stops : ∀ line, lines[finish]? = some line → ∃ c ∈ line.head?, isBlank c = false

theorem IsBlockEnd.le {m n : Nat} (first : IsBlockEnd lines start m)
    (second : IsBlockEnd lines start n) : n ≤ m := by
  by_contra inside
  have before : m < n := Nat.not_le.mp inside
  have here := List.getElem?_eq_getElem (Nat.lt_of_lt_of_le before second.within)
  obtain ⟨c, begins, solid⟩ := first.stops _ here
  have blank := second.below m _ first.after before here c begins
  rw [solid] at blank
  cases blank

theorem IsBlockEnd.unique {m n : Nat} (first : IsBlockEnd lines start m)
    (second : IsBlockEnd lines start n) : m = n :=
  Nat.le_antisymm (second.le first) (first.le second)

theorem isBlockEnd (inside : start ≤ lines.length) :
    IsBlockEnd lines start (start + (blockExtent (lines.drop start)).length) := by
  have whole := blockExtent_append_afterBlock (lines.drop start)
  have here (i : Nat) : lines[start + i]? =
      (blockExtent (lines.drop start) ++ afterBlock (lines.drop start))[i]? := by
    rw [whole, List.getElem?_drop]
  refine ⟨Nat.le_add_right _ _, ?_, fun i line after before stands => ?_, fun line stands => ?_⟩
  · have lengths := congrArg List.length whole
    rw [List.length_append, List.length_drop] at lengths
    omega
  · obtain ⟨j, rfl⟩ := Nat.exists_eq_add_of_le after
    rw [here, List.getElem?_append_left (by omega)] at stands
    have stays := List.mem_takeWhile_imp (List.mem_of_getElem? stands)
    exact startsAtColumnZero_eq_false_iff.mp (by simpa using stays)
  · rw [here, List.getElem?_append_right (Nat.le_refl _), Nat.sub_self,
      ← List.head?_eq_getElem?] at stands
    exact startsAtColumnZero_iff.mp (atColumnZero_afterBlock _ line stands)

theorem take_drop_blockExtent (lines : List Text) (start : Nat) :
    (lines.take (start + (blockExtent (lines.drop start)).length)).drop start =
      blockExtent (lines.drop start) := by
  rw [List.drop_take, Nat.add_sub_cancel_left]
  exact (List.prefix_iff_eq_take.mp (List.takeWhile_prefix _)).symm

/-- The lines from the first to the last that is not blank. -/
structure IsTrimmed (lines kept : List Text) : Prop where
  around : ∃ front back, lines = front ++ kept ++ back ∧
    (∀ line ∈ front, isBlankText line) ∧ ∀ line ∈ back, isBlankText line
  first : ∀ line ∈ kept.head?, isBlankText line = false
  last : ∀ line ∈ kept.getLast?, isBlankText line = false

theorem isTrimmed_trimBlankLines (lines : List Text) : IsTrimmed lines (trimBlankLines lines) := by
  obtain ⟨front, back, before, after, whole⟩ := Text.exists_dropEnds isBlankText lines
  exact ⟨⟨front, back, whole, before, after⟩, Text.head?_dropEnds _ _, Text.getLast?_dropEnds _ _⟩

theorem IsTrimmed.eq (trimmed : IsTrimmed lines kept) : kept = trimBlankLines lines := by
  obtain ⟨⟨front, back, rfl, before, after⟩, first, last⟩ := trimmed
  exact (Text.dropEnds_between before after first last).symm

/-- The longest text of spaces and tabs that all lines begin with which are not blank. -/
structure IsMargin (indent : Text) (lines : List Text) : Prop where
  spacing : ∀ c ∈ indent, c = ' ' ∨ c = '\t'
  shared : ∀ line ∈ lines, isBlankText line = false → indent <+: line
  longest : ∀ longer : Text, (∀ c ∈ longer, c = ' ' ∨ c = '\t') →
    (∀ line ∈ lines, isBlankText line = false → longer <+: line) → longer <+: indent

theorem IsMargin.unique {other : Text} (margin : IsMargin indent lines)
    (margin' : IsMargin other lines) : indent = other := by
  have first := margin'.longest indent margin.spacing margin.shared
  have second := margin.longest other margin'.spacing margin'.shared
  exact first.eq_of_length_le second.length_le

theorem all_isIndent_iff : indent.all isIndent ↔ ∀ c ∈ indent, c = ' ' ∨ c = '\t' := by
  simp [isIndent]

/-- Spaces and tabs in front of something do not go with the blanks at the end of a line. -/
theorem prefix_stripEnd (spacing : indent.all isIndent) (filled : isBlankText line = false)
    (begins : indent <+: line) : indent <+: stripEnd line := by
  rcases List.prefix_or_prefix_of_prefix begins (Text.stripEnd_isPrefix line) with inside | beyond
  · exact inside
  · have blank : isBlankText (stripEnd line) := by
      rw [isBlankText, List.all_eq_true]
      exact fun c member =>
        isBlank_of_isIndent (List.all_eq_true.mp spacing c (beyond.subset member))
    rw [Text.isBlankText_stripEnd, filled] at blank
    cases blank

theorem noSpacing_map_stripEnd (lines : List Text) : NoSpacing (lines.map stripEnd) :=
  noSpacing_of_whole (List.forall_mem_map.mpr fun line _ => Text.stripEnd_stripEnd line)

theorem mem_solidLines_map_stripEnd : inner ∈ solidLines (lines.map stripEnd) ↔
    ∃ line ∈ lines, isBlankText line = false ∧ stripEnd line = inner := by
  rw [mem_solidLines, List.mem_map]
  constructor
  · rintro ⟨⟨line, member, rfl⟩, solid⟩
    refine ⟨line, member, Bool.eq_false_iff.mpr fun blank => ?_, rfl⟩
    rw [Text.stripEnd_eq_nil_iff.mpr blank] at solid
    cases solid
  · rintro ⟨line, member, filled, rfl⟩
    have some : stripEnd line ≠ [] := fun empty =>
      Bool.eq_false_iff.mp filled (Text.stripEnd_eq_nil_iff.mp empty)
    exact ⟨⟨line, member, rfl⟩,
      (mem_solidLines.mp ((noSpacing_map_stripEnd lines).solid (List.mem_map_of_mem member) some)).2⟩

/-- The margin that is taken away once the lines are without the blanks at their ends. -/
theorem isMargin_margin (some : ∃ line ∈ lines, isBlankText line = false) :
    IsMargin (margin (lines.map stripEnd)) lines := by
  constructor
  · exact all_isIndent_iff.mp (margin_all _)
  · intro line member filled
    have counts := mem_solidLines_map_stripEnd.mpr ⟨line, member, filled, rfl⟩
    exact (margin_isPrefix counts).trans
      ((List.takeWhile_prefix _).trans (Text.stripEnd_isPrefix line))
  · intro longer spacing shared
    obtain ⟨line, member, filled⟩ := some
    have counts := mem_solidLines_map_stripEnd.mpr ⟨line, member, filled, rfl⟩
    refine prefix_margin (all_isIndent_iff.mpr spacing) (List.ne_nil_of_mem counts) fun _ solid => ?_
    obtain ⟨source, here, filled', rfl⟩ := mem_solidLines_map_stripEnd.mp solid
    exact prefix_stripEnd (all_isIndent_iff.mpr spacing) filled' (shared source here filled')

/-- What a block keeps of a line: nothing of a blank one, and of another one what stands behind the
indentation and in front of the blanks at the end. -/
def Keeps (indent line inner : Text) : Prop :=
  if isBlankText line then inner = [] else stripEnd line = indent ++ inner

theorem keeps_of_indentBy (same : stripEnd line = indentBy indent inner) :
    Keeps indent line inner := by
  rw [Keeps]
  split
  · rename_i blank
    rw [Text.stripEnd_eq_nil_iff.mpr blank] at same
    exact indentBy_eq_nil_iff.mp same.symm
  · rename_i filled
    have some : inner ≠ [] := by
      rintro rfl
      exact filled (Text.stripEnd_eq_nil_iff.mp same)
    rw [same, indentBy_of_ne_nil some]

theorem rightUnique_keeps (indent : Text) : Relator.RightUnique (Keeps indent) := by
  intro line inner other keeps keeps'
  rw [Keeps] at keeps keeps'
  split at keeps
  · rename_i blank
    rw [if_pos blank] at keeps'
    rw [keeps, keeps']
  · rename_i filled
    rw [if_neg filled, keeps] at keeps'
    exact List.append_cancel_left keeps'

/-- The block that reaches from `start` up to `finish`. -/
structure IsLaidOut (lines : List Text) (start finish : Nat) (block : List Text) : Prop where
  ends : IsBlockEnd lines start finish
  keeps : ∃ kept indent, IsTrimmed ((lines.take finish).drop start) kept ∧
    List.Forall₂ (Keeps indent) kept block ∧ (kept ≠ [] → IsMargin indent kept)

theorem IsLaidOut.unique {m : Nat} {other : List Text} (laid : IsLaidOut lines start finish block)
    (laid' : IsLaidOut lines start m other) : finish = m ∧ block = other := by
  obtain ⟨ends, kept, indent, trimmed, keeps, margin⟩ := laid
  obtain ⟨ends', kept', indent', trimmed', keeps', margin'⟩ := laid'
  obtain rfl := ends.unique ends'
  obtain rfl : kept = kept' := trimmed.eq.trans trimmed'.eq.symm
  refine ⟨rfl, ?_⟩
  by_cases none : kept = []
  · subst none
    rw [List.forall₂_nil_left_iff.mp keeps, List.forall₂_nil_left_iff.mp keeps']
  · obtain rfl := (margin none).unique (margin' none)
    exact (rightUnique_keeps indent).forall₂ keeps keeps'

theorem isLaidOut_blockContent (inside : start ≤ lines.length) :
    IsLaidOut lines start (start + (blockExtent (lines.drop start)).length)
      (blockContent (lines.drop start)) := by
  have trimmed := isTrimmed_trimBlankLines (blockExtent (lines.drop start))
  generalize listed : trimBlankLines (blockExtent (lines.drop start)) = kept at trimmed
  have behind : List.Forall₂ (fun line inner => stripEnd line =
      indentBy (margin (kept.map stripEnd)) inner) kept (dedent (kept.map stripEnd)) := by
    refine List.forall₂_map_right_iff.mp (List.forall₂_map_left_iff.mp ?_)
    rw [indentBy_dedent (noSpacing_map_stripEnd kept)]
    exact List.forall₂_refl _
  refine ⟨isBlockEnd inside, kept, margin (kept.map stripEnd), ?_, ?_, fun some => ?_⟩
  · rwa [take_drop_blockExtent]
  · rw [blockContent, listed]
    exact behind.imp fun _ _ => keeps_of_indentBy
  · obtain ⟨line, others, rfl⟩ := List.exists_cons_of_ne_nil some
    exact isMargin_margin ⟨line, List.mem_cons_self, trimmed.first line rfl⟩

/-- Reading a block gives the one and only block that begins at a line, and its end. -/
theorem isLaidOut_iff (inside : start ≤ lines.length) : IsLaidOut lines start finish block ↔
    finish = start + (blockExtent (lines.drop start)).length ∧
      block = blockContent (lines.drop start) := by
  constructor
  · exact fun laid => laid.unique (isLaidOut_blockContent inside)
  · rintro ⟨rfl, rfl⟩
    exact isLaidOut_blockContent inside

/-- Spaces and tabs that lines do not share, a blank line of other blanks, and a line that begins
with a blank which is no indentation. -/
def unevenLines : List Text :=
  ["SQL >", " ", " \t\ta ", "\x0c", " \t  b\x85", " \t\xa0c", "", "TYPE x"]

theorem isLaidOut_unevenLines : 1 ≤ unevenLines.length ∧
    IsLaidOut unevenLines 1 7 ["\ta", "", "  b", "\xa0c"] :=
  ⟨by decide, (isLaidOut_iff (by decide)).mpr (by decide)⟩

/-- The line stands for nothing: it is blank, or its first character that is no blank is `#`. -/
def IsSilent (line : Text) : Prop := isBlankText line ∨ line.find? (!isBlank ·) = some '#'

/-- The line introduces the directive: its first word is the keyword, and what follows is the value,
or `>` in front of a block. -/
structure Introduces (line : Text) (d : Directive) : Prop where
  speaks : ¬ IsSilent line
  keyword : (cutWord line).1 = d.keyword
  rest : (cutWord line).2 = if d.isBlock then ">".toList else d.value
  block : d.isBlock ↔ (cutWord line).2 = ">".toList

/-- The directive takes all lines up to `finish`, be it with its one line or with its block. -/
def ReachesTo (lines : List Text) (d : Directive) (finish : Nat) : Prop :=
  if d.isBlock then IsBlockEnd lines d.line finish else finish = d.line

/-- A run from line `i` on. Lines are counted from zero, and directives are numbered from one, so
that the number of a directive is the index of the line behind it. -/
inductive Consumes (lines : List Text) : Nat → List Directive → Prop
  | done : Consumes lines lines.length []
  | silent {i : Nat} {line : Text} {ds : List Directive} : lines[i]? = some line → IsSilent line →
      Consumes lines (i + 1) ds → Consumes lines i ds
  | directive {i finish : Nat} {line : Text} {d : Directive} {ds : List Directive} :
      lines[i]? = some line → Introduces line d → d.line = i + 1 → ReachesTo lines d finish →
      Consumes lines finish ds → Consumes lines i (d :: ds)

theorem isSilent_iff :
    (decide (strip line = []) || Text.startsWith "#" (strip line)) = true ↔ IsSilent line := by
  rw [Bool.or_eq_true, decide_eq_true_eq, Text.strip_eq_nil_iff, IsSilent]
  refine or_congr_right' fun filled => ?_
  have some : strip line ≠ [] := mt Text.strip_eq_nil_iff.mp filled
  have first := Text.head?_strip some
  rw [Text.stripStart, ← List.find?_not_eq_head?_dropWhile] at first
  obtain ⟨c, rest, listed⟩ := List.exists_cons_of_ne_nil some
  rw [listed] at first ⊢
  rw [startsWith_comment, decide_eq_true_eq, ← first, List.head?_cons, Option.some.injEq]

theorem of_drop_eq_cons {below : List Text} (rest : lines.drop i = line :: below) :
    i < lines.length ∧ lines[i]? = some line ∧ lines.drop (i + 1) = below := by
  refine ⟨?_, ?_, ?_⟩
  · by_contra beyond
    rw [List.drop_eq_nil_of_le (Nat.not_lt.mp beyond)] at rest
    cases rest
  · rw [← List.head?_drop, rest, List.head?_cons]
  · rw [← List.tail_drop, rest, List.tail_cons]

theorem afterBlock_eq_drop (lines : List Text) :
    afterBlock lines = lines.drop (blockExtent lines).length := by
  have cut := congrArg (List.drop (blockExtent lines).length) (blockExtent_append_afterBlock lines)
  rwa [List.drop_left] at cut

theorem consumes_scanLines (number : Nat) (below : List Text) : ∀ i ≤ lines.length,
    lines.drop i = below → i + 1 = number → Consumes lines i (scanLines number below) := by
  fun_induction scanLines number below with
  | case1 number =>
    intro i inside rest _
    have finished : i = lines.length := Nat.le_antisymm inside (List.drop_eq_nil_iff.mp rest)
    exact finished ▸ .done
  | case2 number line below stripped skipped ih =>
    rintro i inside rest rfl
    obtain ⟨within, here, behind⟩ := of_drop_eq_cons rest
    exact .silent here (isSilent_iff.mp skipped) (ih _ within behind rfl)
  | case3 number line below stripped spoken keyword cut ih =>
    rintro i inside rest rfl
    obtain ⟨within, here, behind⟩ := of_drop_eq_cons rest
    have ends : IsBlockEnd lines (i + 1) (i + 1 + (blockExtent below).length) :=
      behind ▸ isBlockEnd within
    have past : lines.drop (i + 1 + (blockExtent below).length) = afterBlock below := by
      rw [← List.drop_drop, behind, afterBlock_eq_drop]
    have run := ih _ ends.within past (Nat.add_right_comm _ _ _)
    rw [Text.cutWord_strip] at cut
    refine .directive here ⟨mt isSilent_iff.mpr spoken, ?_, ?_, ?_⟩ rfl ends run
    · rw [cut]
    · rw [cut]
      rfl
    · rw [cut]
      exact iff_of_true rfl rfl
  | case4 number line below stripped spoken keyword value cut other ih =>
    rintro i inside rest rfl
    obtain ⟨within, here, behind⟩ := of_drop_eq_cons rest
    rw [Text.cutWord_strip] at cut
    refine .directive here ⟨mt isSilent_iff.mpr spoken, ?_, ?_, ?_⟩ rfl rfl
      (ih _ within behind rfl)
    · rw [cut]
    · rw [cut]
      rfl
    · rw [cut]
      exact iff_of_false Bool.false_ne_true other

theorem consumes_scan (content : Text) : Consumes (linesOf content) 0 (scan content) :=
  consumes_scanLines 1 _ 0 (Nat.zero_le _) List.drop_zero rfl

/-- What a line is there for. -/
inductive Role where
  | introduces (d : Directive)
  | continues (d : Directive)
  | idle

/-- Line `i` is in the block of the directive, which reaches from the line behind the directive up
to the next one that starts at column zero. -/
def InBlock (lines : List Text) (d : Directive) (i : Nat) : Prop :=
  d.isBlock ∧ d.line ≤ i ∧ ∃ finish, IsBlockEnd lines d.line finish ∧ i < finish

/-- The role of line `i` among the directives of a file. -/
inductive HasRole (lines : List Text) (ds : List Directive) (i : Nat) : Role → Prop
  | introduces {d : Directive} : d ∈ ds → d.line = i + 1 → HasRole lines ds i (.introduces d)
  | continues {d : Directive} : d ∈ ds → InBlock lines d i → HasRole lines ds i (.continues d)
  | idle {line : Text} : lines[i]? = some line → IsSilent line → (∀ d ∈ ds, ¬ InBlock lines d i) →
      HasRole lines ds i .idle

/-- All lines of the directive `d` are above the one that introduces `e`. -/
def Follows (lines : List Text) (d e : Directive) : Prop :=
  ∃ finish, ReachesTo lines d finish ∧ finish < e.line

theorem ReachesTo.le (reaches : ReachesTo lines d finish) : d.line ≤ finish := by
  rw [ReachesTo] at reaches
  split at reaches
  · exact reaches.after
  · exact reaches.ge

/-- Behind its own line, a directive has the lines of its block only. -/
theorem ReachesTo.le_of_not_inBlock (reaches : ReachesTo lines d finish) (behind : d.line ≤ i)
    (outside : ¬ InBlock lines d i) : finish ≤ i := by
  rw [ReachesTo] at reaches
  split at reaches
  · rename_i block
    exact Nat.not_lt.mp fun before => outside ⟨block, behind, finish, reaches, before⟩
  · exact reaches.trans_le behind

theorem Follows.lt (follows : Follows lines d e) : d.line < e.line := by
  obtain ⟨finish, reaches, below⟩ := follows
  exact Nat.lt_of_le_of_lt reaches.le below

theorem Follows.lt_of_inBlock (follows : Follows lines d e) (inside : InBlock lines d i) :
    i + 1 < e.line := by
  obtain ⟨finish, reaches, below⟩ := follows
  obtain ⟨block, after, last, ends, before⟩ := inside
  rw [ReachesTo, if_pos block] at reaches
  have same := reaches.unique ends
  omega

namespace Consumes

theorem lt_line (run : Consumes lines i ds) : ∀ d ∈ ds, i < d.line := by
  induction run with
  | done => exact List.forall_mem_nil _
  | silent _ _ _ ih => exact fun d member => Nat.lt_of_succ_lt (ih d member)
  | directive _ _ number reaches _ ih =>
    refine List.forall_mem_cons.mpr ⟨by omega, fun d member => ?_⟩
    have past := reaches.le
    have later := ih d member
    omega

theorem pairwise_follows (run : Consumes lines i ds) : ds.Pairwise (Follows lines) := by
  induction run with
  | done => exact .nil
  | silent _ _ _ ih => exact ih
  | directive _ _ _ reaches run ih =>
    exact .cons (fun e member => ⟨_, reaches, run.lt_line e member⟩) ih

theorem introduced (run : Consumes lines i ds) :
    ∀ d ∈ ds, ∃ i line, d.line = i + 1 ∧ lines[i]? = some line ∧ Introduces line d := by
  induction run with
  | done => exact List.forall_mem_nil _
  | silent _ _ _ ih => exact ih
  | directive here introduces number _ _ ih =>
    exact List.forall_mem_cons.mpr ⟨⟨_, _, number, here, introduces⟩, ih⟩

/-- A step of the run gives a role to each line that it passes. -/
theorem exists_role (run : Consumes lines i ds) {j : Nat} (behind : i ≤ j)
    (inside : j < lines.length) : ∃ role, HasRole lines ds j role := by
  induction run with
  | done => omega
  | @silent i line ds here silent run ih =>
    rcases Nat.eq_or_lt_of_le behind with rfl | later
    · refine ⟨.idle, .idle here silent fun d member inBlock => ?_⟩
      have below := run.lt_line d member
      have above := inBlock.2.1
      omega
    · exact ih later
  | @directive i finish line d ds here introduces number reaches run ih =>
    rcases Nat.eq_or_lt_of_le behind with rfl | later
    · exact ⟨.introduces d, .introduces List.mem_cons_self number⟩
    · by_cases within : InBlock lines d j
      · exact ⟨.continues d, .continues List.mem_cons_self within⟩
      · obtain ⟨role, has⟩ := ih (reaches.le_of_not_inBlock (number.trans_le later) within)
        cases has with
        | introduces member number => exact ⟨_, .introduces (List.mem_cons_of_mem _ member) number⟩
        | continues member inBlock => exact ⟨_, .continues (List.mem_cons_of_mem _ member) inBlock⟩
        | idle here silent outside =>
          exact ⟨_, .idle here silent (List.forall_mem_cons.mpr ⟨within, outside⟩)⟩

/-- Of two directives, one follows the other. -/
theorem follows_or (run : Consumes lines i ds) (member : d ∈ ds) (member' : e ∈ ds) :
    d = e ∨ Follows lines d e ∨ Follows lines e d := by
  have sorted := run.pairwise_follows
  clear run
  induction sorted with
  | nil => cases member
  | @cons first others each _ ih =>
    rcases List.mem_cons.mp member with rfl | later
    · rcases List.mem_cons.mp member' with rfl | later'
      · exact Or.inl rfl
      · exact Or.inr (Or.inl (each e later'))
    · rcases List.mem_cons.mp member' with rfl | later'
      · exact Or.inr (Or.inr (each d later))
      · exact ih later later'

theorem eq_of_line_eq (run : Consumes lines i ds) (member : d ∈ ds) (member' : e ∈ ds)
    (same : d.line = e.line) : d = e := by
  rcases run.follows_or member member' with here | later | earlier
  · exact here
  · exact absurd same later.lt.ne
  · exact absurd same earlier.lt.ne'

theorem eq_of_inBlock {j : Nat} (run : Consumes lines i ds) (member : d ∈ ds) (member' : e ∈ ds)
    (inside : InBlock lines d j) (inside' : InBlock lines e j) : d = e := by
  rcases run.follows_or member member' with here | later | earlier
  · exact here
  · have above := later.lt_of_inBlock inside
    have below := inside'.2.1
    omega
  · have above := earlier.lt_of_inBlock inside'
    have below := inside.2.1
    omega

/-- The line of a directive is in no block. -/
theorem not_inBlock {j : Nat} (run : Consumes lines i ds) (member : d ∈ ds) (number : d.line = j + 1)
    (member' : e ∈ ds) : ¬ InBlock lines e j := by
  intro inside
  have after := inside.2.1
  rcases run.follows_or member member' with rfl | later | earlier
  · omega
  · have below := later.lt
    omega
  · have below := earlier.lt_of_inBlock inside
    omega

theorem not_isSilent {j : Nat} (run : Consumes lines i ds) (member : d ∈ ds)
    (number : d.line = j + 1) (here : lines[j]? = some line) : ¬ IsSilent line := by
  obtain ⟨k, other, number', here', introduces⟩ := run.introduced d member
  obtain rfl : k = j := Nat.succ.inj (number'.symm.trans number)
  obtain rfl := Option.some.inj (here'.symm.trans here)
  exact introduces.speaks

theorem role_unique {j : Nat} {role other : Role} (run : Consumes lines i ds)
    (has : HasRole lines ds j role) (has' : HasRole lines ds j other) : role = other := by
  cases has with
  | introduces member number =>
    cases has' with
    | introduces member' number' =>
      rw [run.eq_of_line_eq member member' (number.trans number'.symm)]
    | continues member' inside => exact absurd inside (run.not_inBlock member number member')
    | idle here silent _ => exact absurd silent (run.not_isSilent member number here)
  | continues member inside =>
    cases has' with
    | introduces member' number => exact absurd inside (run.not_inBlock member' number member)
    | continues member' inside' => rw [run.eq_of_inBlock member member' inside inside']
    | idle _ _ outside => exact absurd inside (outside _ member)
  | idle here silent outside =>
    cases has' with
    | introduces member number => exact absurd silent (run.not_isSilent member number here)
    | continues member inside => exact absurd inside (outside _ member)
    | idle _ _ _ => rfl

end Consumes

/-- The directives of a file stand one below the other, each at the line that introduces it, and each
line of the file has one role among them. -/
theorem scan_covers (content : Text) :
    (scan content).Pairwise (·.line < ·.line) ∧
      (∀ d ∈ scan content, ∃ i line, d.line = i + 1 ∧ (linesOf content)[i]? = some line ∧
        Introduces line d) ∧
      ∀ i < (linesOf content).length, ∃! role, HasRole (linesOf content) (scan content) i role := by
  have run := consumes_scan content
  refine ⟨run.pairwise_follows.imp Follows.lt, run.introduced, fun i inside => ?_⟩
  obtain ⟨role, has⟩ := run.exists_role (Nat.zero_le i) inside
  exact ⟨role, has, fun other has' => run.role_unique has' has⟩

/-- A block with a comment inside, a comment behind it, and an indented directive. -/
def viewFile : Text := "SQL >\n  SELECT 1\n\n  # kept\n# note\n  TYPE endpoint".toList

theorem scan_covers_viewFile :
    { keyword := "SQL".toList, body := .block ["SELECT 1".toList, [], "# kept".toList], line := 1 } ∈
        scan viewFile ∧
      (∃ i line, 1 = i + 1 ∧ (linesOf viewFile)[i]? = some line ∧ Introduces line
        { keyword := "SQL".toList, body := .block ["SELECT 1".toList, [], "# kept".toList],
          line := 1 }) ∧
      3 < (linesOf viewFile).length ∧
      ∃! role, HasRole (linesOf viewFile) (scan viewFile) 3 role :=
  have member : _ ∈ scan viewFile := by decide +kernel
  ⟨member, (scan_covers viewFile).2.1 _ member, by decide, (scan_covers viewFile).2.2 3 (by decide)⟩

end DatafileMigration.Datafile
