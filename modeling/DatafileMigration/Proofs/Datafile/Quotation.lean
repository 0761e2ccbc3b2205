import DatafileMigration.Proofs.Datafile.Canonical

namespace DatafileMigration.Datafile

open Text (isBlank isBlankText strip stripEnd stripStart splitOn cutWord)

variable {line keyword value lead gap trail content : Text} {lines rest : List Text} {number : Nat}
  {d : Directive}

theorem startsAtColumnZero_append (filled : line ≠ []) (t : Text) :
    startsAtColumnZero (line ++ t) = startsAtColumnZero line := by
  cases line with
  | nil => exact absurd rfl filled
  | cons c line => rfl

theorem startsAtColumnZero_of_blank (blank : isBlankText line) : startsAtColumnZero line = false := by
  cases line with
  | nil => rfl
  | cons c line =>
    rw [isBlankText, List.all_cons, Bool.and_eq_true] at blank
    rw [startsAtColumnZero, blank.1, Bool.not_true]

theorem startsAtColumnZero_stripEnd (line : Text) :
    startsAtColumnZero (stripEnd line) = startsAtColumnZero line := by
  obtain ⟨blanks, blank, whole⟩ := Text.exists_stripEnd_append line
  by_cases empty : stripEnd line = []
  · have blank' : isBlankText line := by rwa [← Text.stripEnd_eq_nil_iff]
    rw [empty, startsAtColumnZero_of_blank blank']
    rfl
  · conv_rhs => rw [whole, startsAtColumnZero_append empty]

theorem strip_ne_nil_of_startsAtColumnZero (zero : startsAtColumnZero line) : strip line ≠ [] := by
  cases line with
  | nil => cases zero
  | cons c line =>
    rw [startsAtColumnZero, Bool.not_eq_true'] at zero
    have whole : stripStart (c :: line) = c :: line := List.dropWhile_cons_of_neg (by simp [zero])
    rw [strip, whole, Ne, Text.stripEnd_eq_nil_iff]
    simp [isBlankText, zero]

theorem blockExtent_map_stripEnd (lines : List Text) :
    blockExtent (lines.map stripEnd) = (blockExtent lines).map stripEnd := by
  rw [blockExtent, List.takeWhile_map, blockExtent]
  simp only [Function.comp_def, startsAtColumnZero_stripEnd]

theorem afterBlock_map_stripEnd (lines : List Text) :
    afterBlock (lines.map stripEnd) = (afterBlock lines).map stripEnd := by
  rw [afterBlock, List.dropWhile_map, afterBlock]
  simp only [Function.comp_def, startsAtColumnZero_stripEnd]

theorem blockContent_map_stripEnd (lines : List Text) :
    blockContent (lines.map stripEnd) = blockContent lines := by
  rw [blockContent, blockExtent_map_stripEnd, trimBlankLines_map Text.isBlankText_stripEnd,
    List.map_map, blockContent]
  simp only [Function.comp_def, Text.stripEnd_stripEnd]

theorem scanLines_map_stripEnd (number : Nat) (lines : List Text) :
    scanLines number (lines.map stripEnd) = scanLines number lines := by
  fun_induction scanLines number lines with
  | case1 => rw [List.map_nil, scanLines]
  | case2 number line rest stripped skipped ih =>
    rw [List.map_cons, scanLines, Text.strip_stripEnd, if_pos skipped, ih]
  | case3 number line rest stripped spoken keyword cut ih =>
    rw [List.map_cons, scanLines, Text.strip_stripEnd, if_neg spoken, cut]
    dsimp only
    rw [if_pos rfl, blockContent_map_stripEnd, blockExtent_map_stripEnd, afterBlock_map_stripEnd,
      List.length_map, ih]
  | case4 number line rest stripped spoken keyword value cut other ih =>
    rw [List.map_cons, scanLines, Text.strip_stripEnd, if_neg spoken, cut]
    dsimp only
    rw [if_neg other, ih]

/-- What line ends are made of changes no line but for blanks at its end. -/
theorem splitOn_unifyNewlines (t : Text) :
    (splitOn '\n' (Text.unifyNewlines t)).map stripEnd = (splitOn '\n' t).map stripEnd := by
  have grown (c : Char) (s : Text) : stripEnd (c :: s) = stripEnd (c :: stripEnd s) := by
    obtain ⟨blanks, blank, whole⟩ := Text.exists_stripEnd_append s
    conv_lhs => rw [whole, ← List.cons_append, Text.stripEnd_append_blanks blank]
  fun_induction Text.unifyNewlines t with
  | case1 t ih =>
    have alone : splitOn '\n' ('\r' :: '\n' :: t) = ['\r'] :: splitOn '\n' t := by
      rw [splitOn, if_neg (by decide), splitOn, if_pos rfl]
    rw [alone, splitOn, if_pos rfl, List.map_cons, List.map_cons, ih]
    rfl
  | case2 c t _ ih =>
    rw [splitOn, splitOn]
    by_cases cut : c = '\n'
    · rw [if_pos cut, if_pos cut, List.map_cons, List.map_cons, ih]
    · rw [if_neg cut, if_neg cut]
      obtain ⟨first, others, split⟩ :=
        List.exists_cons_of_ne_nil (Text.splitOn_ne_nil '\n' (Text.unifyNewlines t))
      obtain ⟨first', others', split'⟩ := List.exists_cons_of_ne_nil (Text.splitOn_ne_nil '\n' t)
      rw [split, split', List.map_cons, List.map_cons] at ih
      obtain ⟨same, same'⟩ := List.cons.inj ih
      rw [split, split', List.map_cons, List.map_cons, grown c first, same, ← grown c first', same']
  | case3 => rfl

theorem scan_eq_scanLines (content : Text) : scan content = scanLines 1 (splitOn '\n' content) := by
  rw [scan, linesOf, ← scanLines_map_stripEnd, splitOn_unifyNewlines, scanLines_map_stripEnd]

/-- A line with double quotes around the value behind its first word. Where there is no value, a
blank and two quotes follow the word. -/
def quoteLine (line : Text) : Text :=
  let value := (cutWord (strip line)).2
  let core := stripEnd line
  let gap : Text := if value = [] then " " else []
  core.take (core.length - value.length) ++ gap ++ "\"" ++ value ++ "\"" ++ line.drop core.length

/-- A line is a word and a stripped value with blanks around them. -/
structure Spaces (lead keyword gap value trail : Text) : Prop where
  front : isBlankText lead
  word : keyword ≠ []
  solid : ∀ c ∈ keyword, isBlank c = false
  between : isBlankText gap
  apart : gap = [] ↔ value = []
  stripped : strip value = value
  back : isBlankText trail

namespace Spaces

theorem stripStart_word (spaces : Spaces lead keyword gap value trail) (t : Text) :
    stripStart (keyword ++ t) = keyword ++ t := by
  obtain ⟨c, rest, rfl⟩ := List.exists_cons_of_ne_nil spaces.word
  exact List.dropWhile_cons_of_neg (by simp [spaces.solid c List.mem_cons_self])

theorem stripEnd_word (spaces : Spaces lead keyword gap value trail) :
    stripEnd keyword = keyword := by
  rw [Text.stripEnd_eq_self_iff]
  rintro before c rfl
  exact spaces.solid c (List.mem_append_right _ List.mem_cons_self)

theorem strip_inside (spaces : Spaces lead keyword gap value trail) :
    strip (keyword ++ gap ++ value) = keyword ++ gap ++ value := by
  rw [strip, List.append_assoc, spaces.stripStart_word]
  by_cases empty : value = []
  · rw [spaces.apart.mpr empty, empty, List.append_nil, List.append_nil, spaces.stripEnd_word]
  · rw [← List.append_assoc]
    exact Text.stripEnd_append_self (Text.strip_eq_self_iff.mp spaces.stripped).2 empty _

theorem strip_line (spaces : Spaces lead keyword gap value trail) :
    strip (lead ++ (keyword ++ gap ++ value) ++ trail) = keyword ++ gap ++ value := by
  rw [Text.strip_between_blanks spaces.front spaces.back, spaces.strip_inside]

theorem cutWord_inside (spaces : Spaces lead keyword gap value trail) :
    cutWord (keyword ++ gap ++ value) = (keyword, value) := by
  have solid : ∀ c ∈ keyword, (!isBlank c) = true := by
    intro c member
    rw [spaces.solid c member, Bool.not_false]
  rw [cutWord, List.append_assoc, spaces.stripStart_word, List.takeWhile_append_of_pos solid,
    List.dropWhile_append_of_pos solid]
  cases found : gap with
  | nil =>
    rw [spaces.apart.mp found, List.append_nil, List.takeWhile_nil, List.append_nil]
    rfl
  | cons c gap =>
    have blank := spaces.between
    rw [found, isBlankText, List.all_cons, Bool.and_eq_true] at blank
    have stop : ¬ (!isBlank c) = true := by simp [blank.1]
    have inner : strip (c :: gap ++ value) = value := by
      have whole := Text.strip_between_blanks (found ▸ spaces.between)
        (List.all_nil : isBlankText []) value
      rwa [List.append_nil, spaces.stripped] at whole
    rw [List.cons_append, List.takeWhile_cons, List.dropWhile_cons, if_neg stop, if_neg stop,
      List.append_nil, ← List.cons_append, inner]

theorem stripEnd_line (spaces : Spaces lead keyword gap value trail) :
    stripEnd (lead ++ (keyword ++ gap ++ value) ++ trail) = lead ++ (keyword ++ gap ++ value) := by
  have filled : keyword ++ gap ++ value ≠ [] := by simp [spaces.word]
  rw [Text.stripEnd_append_blanks spaces.back]
  exact Text.stripEnd_append_self (Text.strip_eq_self_iff.mp spaces.strip_inside).2 filled lead

theorem startsAtColumnZero_line (spaces : Spaces lead keyword gap value trail) (t : Text) :
    startsAtColumnZero (lead ++ (keyword ++ t)) = startsAtColumnZero (lead ++ keyword) := by
  rw [← List.append_assoc, startsAtColumnZero_append (by simp [spaces.word])]

end Spaces

/-- Every line that is not blank is one. -/
theorem exists_spaces (filled : strip line ≠ []) : ∃ lead keyword gap value trail,
    Spaces lead keyword gap value trail ∧ line = lead ++ (keyword ++ gap ++ value) ++ trail := by
  obtain ⟨lead, blank, front⟩ := Text.exists_append_stripStart line
  obtain ⟨trail, blank', back⟩ := Text.exists_stripEnd_append (stripStart line)
  have core : stripEnd (stripStart line) = strip line := rfl
  rw [core] at back
  obtain ⟨start, finish⟩ := Text.strip_eq_self_iff.mp (Text.strip_strip line)
  have cut := List.takeWhile_append_dropWhile (p := fun c => !isBlank c) (l := strip line)
  generalize word : (strip line).takeWhile (fun c => !isBlank c) = keyword at cut
  generalize behind : (strip line).dropWhile (fun c => !isBlank c) = after at cut
  obtain ⟨gap, blank'', inside⟩ := Text.exists_append_stripStart after
  have solid : ∀ c ∈ keyword, isBlank c = false := by
    intro c member
    rw [← word] at member
    simpa using List.mem_takeWhile_imp member
  have whole : strip line = keyword ++ gap ++ stripStart after := by
    rw [List.append_assoc, ← inside, cut]
  refine ⟨lead, keyword, gap, stripStart after, trail, ⟨blank, ?_, solid, blank'', ?_, ?_, blank'⟩, ?_⟩
  · obtain ⟨c, t, begins⟩ := List.exists_cons_of_ne_nil filled
    have head := Text.stripStart_eq_self_iff.mp start c t begins
    rw [← word, begins, List.takeWhile_cons, head, Bool.not_false, if_pos rfl]
    exact List.cons_ne_nil _ _
  · constructor
    · rintro rfl
      rw [List.nil_append] at inside
      cases found : after with
      | nil => rfl
      | cons c t =>
        -- Behind the word there is a blank, if anything.
        have stop := List.head?_dropWhile_not (fun c => !isBlank c) (strip line)
        rw [behind, found] at stop
        have solid' := Text.stripStart_eq_self_iff.mp inside.symm c t found
        simp [solid'] at stop
    · intro empty
      rw [whole, empty, List.append_nil] at finish
      have trimmed := Text.stripEnd_of_append finish
      rwa [Text.stripEnd_eq_nil_iff.mpr blank'', eq_comm] at trimmed
  · have start' : stripStart (stripStart after) = stripStart after := List.dropWhile_idempotent _ _
    rw [whole] at finish
    exact Text.strip_eq_self_iff.mpr ⟨start', Text.stripEnd_of_append finish⟩
  · rw [← whole, List.append_assoc, ← back, ← front]

/-- The blanks between a word and the quotes behind it. -/
def widen (gap : Text) : Text := if gap = [] then " " else gap

namespace Spaces

theorem quoteLine_eq (spaces : Spaces lead keyword gap value trail) :
    quoteLine (lead ++ (keyword ++ gap ++ value) ++ trail) =
      lead ++ (keyword ++ widen gap ++ ("\"" ++ value ++ "\"")) ++ trail := by
  have front : lead ++ (keyword ++ gap ++ value) = lead ++ (keyword ++ gap) ++ value := by simp
  rw [quoteLine, spaces.strip_line, spaces.cutWord_inside, spaces.stripEnd_line]
  dsimp only
  rw [List.drop_left, front, List.length_append, Nat.add_sub_cancel, List.take_left, widen]
  by_cases empty : value = []
  · simp [empty, spaces.apart.mpr empty]
  · simp [empty, mt spaces.apart.mp empty]

theorem quoted (spaces : Spaces lead keyword gap value trail) :
    Spaces lead keyword (widen gap) ("\"" ++ value ++ "\"") trail := by
  refine ⟨spaces.front, spaces.word, spaces.solid, ?_, ?_, ?_, spaces.back⟩
  · unfold widen
    split
    · rfl
    · exact spaces.between
  · refine iff_of_false ?_ (by simp)
    unfold widen
    split <;> simp_all
  · refine Text.strip_eq_self_iff.mpr ⟨List.dropWhile_cons_of_neg (by decide), ?_⟩
    exact Text.stripEnd_append_self (by decide) (by decide) _

end Spaces

theorem quoteLine_single (single : '\n' ∉ line) : '\n' ∉ quoteLine line := by
  have inside : '\n' ∉ stripEnd line := fun feed => single (Text.mem_of_mem_stripEnd feed)
  have behind : '\n' ∉ (cutWord (strip line)).2 := by
    intro feed
    have feed := (List.dropWhile_sublist _).subset (Text.mem_of_mem_strip feed)
    have feed := (List.dropWhile_sublist isBlank).subset feed
    exact single (Text.mem_of_mem_strip feed)
  have front : '\n' ∉ (stripEnd line).take ((stripEnd line).length - (cutWord (strip line)).2.length) :=
    fun feed => inside (List.mem_of_mem_take feed)
  have back : '\n' ∉ line.drop (stripEnd line).length := fun feed => single (List.mem_of_mem_drop feed)
  have gap : '\n' ∉ (if (cutWord (strip line)).2 = [] then " " else [] : Text) := by
    split <;> decide
  unfold quoteLine
  dsimp only
  simp only [List.mem_append, not_or]
  exact ⟨⟨⟨⟨⟨front, gap⟩, by decide⟩, behind⟩, by decide⟩, back⟩

/-- The directive with double quotes around its value; a block has none. -/
def Directive.quoted (d : Directive) : Directive :=
  match d.body with
  | .inline value => { d with body := .inline ("\"" ++ value ++ "\"") }
  | .block _ => d

theorem Directive.quoted_of_inline (inline : d.body = .inline value) :
    d.quoted = ⟨d.keyword, .inline ("\"" ++ value ++ "\""), d.line⟩ := by
  rw [quoted, inline]

theorem modify_blockExtent (index : Nat) (behind : ∀ line ∈ (afterBlock lines).head?,
      startsAtColumnZero (quoteLine line)) :
    blockExtent (lines.modify ((blockExtent lines).length + index) quoteLine) = blockExtent lines ∧
      afterBlock (lines.modify ((blockExtent lines).length + index) quoteLine) =
        (afterBlock lines).modify index quoteLine := by
  have whole := blockExtent_append_afterBlock lines
  have below : ∀ line ∈ blockExtent lines, startsAtColumnZero line = false :=
    fun _ => below_of_mem_blockExtent
  have stops := atColumnZero_afterBlock lines
  have stops' : AtColumnZero ((afterBlock lines).modify index quoteLine) := by
    intro line first
    cases found : afterBlock lines with
    | nil =>
      rw [found, List.modify_nil] at first
      cases first
    | cons head others =>
      rw [found] at first stops behind
      cases index with
      | zero =>
        rw [List.modify_zero_cons] at first
        obtain rfl : quoteLine head = line := Option.some.inj first
        exact behind head rfl
      | succ index =>
        rw [List.modify_succ_cons] at first
        obtain rfl : head = line := Option.some.inj first
        exact stops _ rfl
  have modified : lines.modify ((blockExtent lines).length + index) quoteLine =
      blockExtent lines ++ (afterBlock lines).modify index quoteLine := by
    have added := List.modifyTailIdx_add (List.modifyHead quoteLine) index (blockExtent lines)
      (afterBlock lines)
    rw [whole] at added
    exact added
  rw [modified]
  exact blockExtent_append below stops'

theorem startsAtColumnZero_quoteLine (filled : strip line ≠ []) :
    startsAtColumnZero (quoteLine line) = startsAtColumnZero line := by
  obtain ⟨lead, keyword, gap, value, trail, spaces, rfl⟩ := exists_spaces filled
  rw [spaces.quoteLine_eq, List.append_assoc, List.append_assoc lead, List.append_assoc keyword,
    List.append_assoc keyword, List.append_assoc keyword, List.append_assoc keyword,
    spaces.startsAtColumnZero_line, spaces.startsAtColumnZero_line]

/-- In quotes, the value of a line is read with its quotes, behind the same keyword. -/
theorem cutWord_quoteLine (filled : strip line ≠ []) (cut : cutWord (strip line) = (keyword, value)) :
    strip (quoteLine line) ≠ [] ∧
      Text.startsWith "#" (strip (quoteLine line)) = Text.startsWith "#" (strip line) ∧
      cutWord (strip (quoteLine line)) = (keyword, "\"" ++ value ++ "\"") := by
  obtain ⟨lead, word, gap, inner, trail, spaces, rfl⟩ := exists_spaces filled
  rw [spaces.strip_line, spaces.cutWord_inside] at cut
  obtain ⟨rfl, rfl⟩ := Prod.mk.inj cut
  rw [spaces.quoteLine_eq, spaces.quoted.strip_line, spaces.quoted.cutWord_inside,
    spaces.strip_line]
  obtain ⟨c, word, rfl⟩ := List.exists_cons_of_ne_nil spaces.word
  refine ⟨List.cons_ne_nil _ _, ?_, rfl⟩
  exact (startsWith_comment c _).trans (startsWith_comment c _).symm

/-- Quotes around the value of a directive on one of the lines change this directive and no
other. -/
theorem scanLines_quoteLine (member : d ∈ scanLines number lines) (inline : d.body = .inline value) :
    ∃ index before after, d.line = number + index ∧ scanLines number lines = before ++ d :: after ∧
      scanLines number (lines.modify index quoteLine) = before ++ d.quoted :: after := by
  fun_induction scanLines number lines with
  | case1 => cases member
  | case2 number line rest stripped skipped ih =>
    obtain ⟨index, before, after, stands, whole, changed⟩ := ih member
    refine ⟨index + 1, before, after, by omega, whole, ?_⟩
    rw [List.modify_succ_cons, scanLines, if_pos skipped, changed]
  | case3 number line rest stripped spoken keyword cut ih =>
    rcases List.mem_cons.mp member with rfl | member
    · cases inline
    obtain ⟨index, before, after, stands, whole, changed⟩ := ih member
    have behind : ∀ line ∈ (afterBlock rest).head?, startsAtColumnZero (quoteLine line) := by
      intro line first
      have stop := List.head?_dropWhile_not (fun line => !startsAtColumnZero line) rest
      rw [← afterBlock, Option.mem_def.mp first] at stop
      have zero : startsAtColumnZero line = true := by simpa using stop
      rwa [startsAtColumnZero_quoteLine (strip_ne_nil_of_startsAtColumnZero zero)]
    obtain ⟨extent, tail⟩ := modify_blockExtent index behind
    have content : blockContent (rest.modify ((blockExtent rest).length + index) quoteLine) =
        blockContent rest := by
      rw [blockContent, extent, blockContent]
    refine ⟨(blockExtent rest).length + index + 1, _ :: before, after, by omega,
      congrArg (_ :: ·) whole, ?_⟩
    rw [List.modify_succ_cons, scanLines, if_neg spoken, cut]
    dsimp only
    rw [if_pos rfl, content, extent, tail, changed]
    rfl
  | case4 number line rest stripped spoken keyword inner cut other ih =>
    rcases List.mem_cons.mp member with rfl | member
    · obtain rfl := Body.inline.inj inline
      rw [Bool.or_eq_true, not_or, decide_eq_true_eq, Bool.not_eq_true] at spoken
      obtain ⟨filled, comment, cut'⟩ := cutWord_quoteLine spoken.1 cut
      have spoken' : ¬ (decide (strip (quoteLine line) = []) ||
          Text.startsWith "#" (strip (quoteLine line))) = true := by
        rw [decide_eq_false filled, comment, spoken.2]
        decide
      refine ⟨0, [], _, rfl, rfl, ?_⟩
      rw [List.modify_zero_cons, scanLines, if_neg spoken', cut', Directive.quoted_of_inline rfl]
      dsimp only
      rw [if_neg (by simp)]
      rfl
    · obtain ⟨index, before, after, stands, whole, changed⟩ := ih member
      refine ⟨index + 1, _ :: before, after, by omega, congrArg (_ :: ·) whole, ?_⟩
      rw [List.modify_succ_cons, scanLines, if_neg spoken, cut]
      dsimp only
      rw [if_neg other, changed]
      rfl

/-- A text with double quotes around the value on the line of a number, counted from one. -/
def quoteAt (number : Nat) (content : Text) : Text :=
  Text.join "\n" ((splitOn '\n' content).modify (number - 1) quoteLine)

theorem splitOn_quoteAt (number : Nat) (content : Text) :
    splitOn '\n' (quoteAt number content) = (splitOn '\n' content).modify (number - 1) quoteLine := by
  refine Text.splitOn_join ?_ ?_
  · intro none
    have lengths := congrArg List.length none
    rw [List.length_modify, List.length_nil, List.length_eq_zero_iff] at lengths
    exact Text.splitOn_ne_nil _ _ lengths
  · intro line member
    obtain ⟨i, inside, rfl⟩ := List.mem_iff_getElem.mp member
    rw [List.length_modify] at inside
    have single := Text.not_mem_of_mem_splitOn (List.getElem_mem inside)
    rw [List.getElem_modify]
    split
    · exact quoteLine_single single
    · exact single

/-- Quotes around the value of a directive in a text change this directive and no other. -/
theorem scan_quoteAt (member : d ∈ scan content) (inline : d.body = .inline value) :
    ∃ before after, scan content = before ++ d :: after ∧
      scan (quoteAt d.line content) = before ++ d.quoted :: after := by
  rw [scan_eq_scanLines] at member
  obtain ⟨index, before, after, stands, whole, changed⟩ := scanLines_quoteLine member inline
  refine ⟨before, after, (scan_eq_scanLines content).trans whole, ?_⟩
  rw [scan_eq_scanLines, splitOn_quoteAt, stands, Nat.add_sub_cancel_left, changed]

end DatafileMigration.Datafile
