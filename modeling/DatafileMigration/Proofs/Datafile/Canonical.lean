import DatafileMigration.Datafile.Directive
import DatafileMigration.Proofs.Datafile.Indentation
import DatafileMigration.Proofs.Text.Lines

namespace DatafileMigration.Datafile

/-- A word that begins no comment. -/
structure IsKeyword (t : Text) : Prop where
  filled : t ≠ []
  solid : ∀ c ∈ t, Text.isBlank c = false
  speaks : Text.startsWith "#" t = false

/-- A stripped text of one line that does not ask for a block. -/
structure IsValue (t : Text) : Prop where
  stripped : Text.strip t = t
  single : '\n' ∉ t
  inline : t ≠ ">"

/-- Lines without blanks at their ends, without blank lines around them, and without a margin. -/
structure IsBlock (lines : List Text) : Prop where
  trimmed : trimBlankLines lines = lines
  whole : ∀ line ∈ lines, Text.stripEnd line = line
  single : ∀ line ∈ lines, '\n' ∉ line
  flush : margin lines = []

def Body.IsCanonical : Body → Prop
  | .inline value => IsValue value
  | .block lines => IsBlock lines

namespace Directive

/-- The form of a directive that is scanned. -/
structure IsCanonical (d : Directive) : Prop where
  keyword : IsKeyword d.keyword
  body : d.body.IsCanonical

/-- What a directive says, on whatever line it stands. -/
def content (d : Directive) : Text × Body := (d.keyword, d.body)

theorem IsCanonical.congr {d e : Directive} (canonical : d.IsCanonical)
    (same : e.content = d.content) : e.IsCanonical := by
  obtain ⟨keyword, body⟩ := Prod.mk.inj same
  exact ⟨keyword ▸ canonical.keyword, body ▸ canonical.body⟩

end Directive

variable {lines rest : List Text} {keyword value line : Text}

theorem noSpacing_of_whole (whole : ∀ line ∈ lines, Text.stripEnd line = line) :
    NoSpacing lines := by
  intro line member spacing
  rw [← whole line member, Text.stripEnd_eq_nil_iff, Text.isBlankText, List.all_eq_true]
  intro c inside
  exact isBlank_of_isIndent (List.all_eq_true.mp spacing c inside)

/-- A block has no character that its lines do not have. -/
theorem not_mem_blockContent {c : Char} (absent : ∀ line ∈ lines, c ∉ line) :
    ∀ line ∈ blockContent lines, c ∉ line := by
  intro line member
  obtain ⟨stripped, here, rfl⟩ := List.mem_map.mp member
  obtain ⟨source, inside, rfl⟩ := List.mem_map.mp here
  have extent := (Text.dropEnds_sublist Text.isBlankText (blockExtent lines)).subset inside
  have clear := absent source ((List.takeWhile_sublist _).subset extent)
  split
  · exact List.not_mem_nil
  · exact fun within => clear (Text.mem_of_mem_stripEnd (List.mem_of_mem_drop within))

/-- Scanned blocks are in canonical form. -/
theorem isBlock_blockContent (single : ∀ line ∈ lines, '\n' ∉ line) :
    IsBlock (blockContent lines) := by
  generalize body : (trimBlankLines (blockExtent lines)).map Text.stripEnd = stripped
  have content : blockContent lines = dedent stripped := by rw [blockContent, body]
  have whole : ∀ line ∈ stripped, Text.stripEnd line = line := by
    intro line member
    rw [← body] at member
    obtain ⟨t, _, rfl⟩ := List.mem_map.mp member
    exact Text.stripEnd_stripEnd t
  have clear := noSpacing_of_whole whole
  have indented := indentBy_dedent clear
  have trimmed : trimBlankLines stripped = stripped := by
    rw [← body, trimBlankLines_map Text.isBlankText_stripEnd, trimBlankLines_trimBlankLines]
  have source {line : Text} (member : line ∈ dedent stripped) :
      indentBy (margin stripped) line ∈ stripped := by
    have place := List.mem_map_of_mem (f := indentBy (margin stripped)) member
    rwa [indented] at place
  rw [content]
  refine ⟨?_, ?_, ?_, margin_dedent clear⟩
  · rw [← indented] at trimmed
    exact trimBlankLines_of_map (isBlankText_indentBy (margin_all stripped)) trimmed
  · intro line member
    by_cases empty : line = []
    · rw [empty]
      rfl
    · have same := whole _ (source member)
      rw [indentBy_of_ne_nil empty] at same
      exact Text.stripEnd_of_append same
  · rw [← content]
    exact not_mem_blockContent single

/-- Lines of a block as they are printed below a keyword. -/
abbrev printBlock (lines : List Text) : List Text := lines.map (indentBy "    ")

theorem startsAtColumnZero_indentBy (line : Text) :
    startsAtColumnZero (indentBy "    " line) = false := by
  unfold indentBy
  split
  · rename_i empty
    rw [empty]
    rfl
  · rfl

/-- No block goes on behind the lines. -/
def AtColumnZero (lines : List Text) : Prop := ∀ line ∈ lines.head?, startsAtColumnZero line

theorem atColumnZero_afterBlock (lines : List Text) : AtColumnZero (afterBlock lines) := by
  intro line first
  have stop := List.head?_dropWhile_not (!startsAtColumnZero ·) lines
  rw [← afterBlock, Option.mem_def.mp first] at stop
  simpa using stop

theorem below_of_mem_blockExtent {line : Text} (member : line ∈ blockExtent lines) :
    startsAtColumnZero line = false := by
  simpa using List.mem_takeWhile_imp member

theorem blockExtent_append (below : ∀ line ∈ lines, startsAtColumnZero line = false)
    (behind : AtColumnZero rest) :
    blockExtent (lines ++ rest) = lines ∧ afterBlock (lines ++ rest) = rest := by
  have below' : ∀ line ∈ lines, (!startsAtColumnZero line) = true := by
    intro line member
    rw [below line member, Bool.not_false]
  rw [blockExtent, afterBlock, List.takeWhile_append_of_pos below',
    List.dropWhile_append_of_pos below']
  cases rest with
  | nil => exact ⟨List.append_nil _, rfl⟩
  | cons next rest =>
    have stop : ¬ (!startsAtColumnZero next) = true := by
      rw [behind next rfl]
      decide
    rw [List.takeWhile_cons, List.dropWhile_cons, if_neg stop, if_neg stop]
    exact ⟨List.append_nil _, rfl⟩

theorem printBlock_below (lines : List Text) :
    ∀ line ∈ printBlock lines, startsAtColumnZero line = false := by
  intro line member
  obtain ⟨t, _, rfl⟩ := List.mem_map.mp member
  exact startsAtColumnZero_indentBy t

theorem stripEnd_indentBy (whole : Text.stripEnd line = line) (indent : Text) :
    Text.stripEnd (indentBy indent line) = indentBy indent line := by
  by_cases empty : line = []
  · rw [empty, indentBy_nil]
    rfl
  · rw [indentBy_of_ne_nil empty]
    exact Text.stripEnd_append_self whole empty indent

/-- A block that is printed is scanned as it was. -/
theorem blockContent_printBlock (block : IsBlock lines) (behind : AtColumnZero rest) :
    blockContent (printBlock lines ++ rest) = lines := by
  have stripped : (printBlock lines).map Text.stripEnd = printBlock lines := by
    rw [List.map_map]
    refine List.map_congr_left ?_
    intro line member
    exact stripEnd_indentBy (block.whole line member) _
  rw [blockContent, (blockExtent_append (printBlock_below lines) behind).1,
    trimBlankLines_map (isBlankText_indentBy (by decide)), block.trimmed, stripped]
  exact dedent_indentBy (by decide) (noSpacing_of_whole block.whole) block.flush

theorem startsWith_comment (c : Char) (t : Text) :
    Text.startsWith "#" (c :: t) = decide (c = '#') :=
  Text.startsWith_singleton '#' c t

/-- A line that is neither blank nor a comment begins with a keyword, and a value follows. -/
theorem cutWord_canonical (single : '\n' ∉ line) (filled : Text.strip line ≠ [])
    (speaks : Text.startsWith "#" (Text.strip line) = false)
    (cut : Text.cutWord (Text.strip line) = (keyword, value)) :
    IsKeyword keyword ∧ Text.strip value = value ∧ '\n' ∉ value := by
  have solid : Text.stripStart (Text.strip line) = Text.strip line :=
    (Text.strip_eq_self_iff.mp (Text.strip_strip line)).1
  rw [Text.cutWord, solid] at cut
  obtain ⟨rfl, rfl⟩ := Prod.mk.inj cut
  refine ⟨?_, Text.strip_strip _, ?_⟩
  · obtain ⟨c, rest, listed⟩ := List.exists_cons_of_ne_nil filled
    rw [listed] at speaks solid ⊢
    have head := Text.stripStart_eq_self_iff.mp solid c rest rfl
    rw [List.takeWhile_cons, head, Bool.not_false, if_pos rfl]
    refine ⟨List.cons_ne_nil _ _, ?_, ?_⟩
    · intro d member
      rcases List.mem_cons.mp member with rfl | member
      · exact head
      · simpa using List.mem_takeWhile_imp member
    · rw [startsWith_comment] at speaks ⊢
      exact speaks
  · intro member
    have inside := (List.dropWhile_sublist _).subset (Text.mem_of_mem_strip member)
    exact single (Text.mem_of_mem_strip inside)

namespace IsKeyword

theorem stripStart_append (word : IsKeyword keyword) (t : Text) :
    Text.stripStart (keyword ++ t) = keyword ++ t := by
  obtain ⟨c, rest, rfl⟩ := List.exists_cons_of_ne_nil word.filled
  rw [Text.stripStart_eq_self_iff]
  intro d tail equal
  rw [List.cons_append] at equal
  rw [← (List.cons.inj equal).1]
  exact word.solid c List.mem_cons_self

theorem stripEnd_self (word : IsKeyword keyword) : Text.stripEnd keyword = keyword := by
  rw [Text.stripEnd_eq_self_iff]
  intro before c equal
  refine word.solid c ?_
  rw [equal]
  exact List.mem_append_right _ List.mem_cons_self

/-- The line of a directive, stripped: the blank behind a keyword without a value goes. -/
theorem strip_line (word : IsKeyword keyword) (stripped : Text.strip value = value) :
    Text.strip (keyword ++ " " ++ value) =
      keyword ++ if value = [] then [] else ' ' :: value := by
  rw [List.append_assoc, Text.strip, word.stripStart_append,
    Text.stripEnd_append word.stripEnd_self]
  split
  · rename_i empty
    rw [empty]
    rfl
  · rename_i filled
    exact congrArg (keyword ++ ·)
      (Text.stripEnd_append_self (Text.strip_eq_self_iff.mp stripped).2 filled [' '])

theorem speaks_append (word : IsKeyword keyword) (t : Text) :
    keyword ++ t ≠ [] ∧ Text.startsWith "#" (keyword ++ t) = false := by
  have speaks := word.speaks
  obtain ⟨c, rest, rfl⟩ := List.exists_cons_of_ne_nil word.filled
  rw [List.cons_append]
  rw [startsWith_comment] at speaks ⊢
  exact ⟨List.cons_ne_nil _ _, speaks⟩

/-- A line with a keyword and a value is cut between them. -/
theorem cutWord_line (word : IsKeyword keyword) (stripped : Text.strip value = value) :
    Text.cutWord (Text.strip (keyword ++ " " ++ value)) = (keyword, value) := by
  have solid : ∀ c ∈ keyword, (!Text.isBlank c) = true := by
    intro c member
    rw [word.solid c member, Bool.not_false]
  rw [word.strip_line stripped, Text.cutWord, word.stripStart_append,
    List.takeWhile_append_of_pos solid, List.dropWhile_append_of_pos solid]
  split
  · rename_i empty
    rw [empty, List.takeWhile_nil, List.append_nil]
    rfl
  · have space : ¬ (!Text.isBlank ' ') = true := by decide
    have again : Text.strip (' ' :: value) = Text.strip value := rfl
    rw [List.takeWhile_cons, List.dropWhile_cons, if_neg space, if_neg space, again, stripped,
      List.append_nil]

theorem startsAtColumnZero_line (word : IsKeyword keyword) (t : Text) :
    startsAtColumnZero (keyword ++ t) := by
  have solid := word.solid
  obtain ⟨c, rest, rfl⟩ := List.exists_cons_of_ne_nil word.filled
  rw [List.cons_append, startsAtColumnZero, solid c List.mem_cons_self, Bool.not_false]

end IsKeyword

theorem scanLines_canonical (single : ∀ line ∈ lines, '\n' ∉ line) (number : Nat) :
    ∀ d ∈ scanLines number lines, d.IsCanonical := by
  fun_induction scanLines number lines with
  | case1 => simp
  | case2 number line rest stripped skipped ih =>
    exact ih fun line member => single line (List.mem_cons_of_mem _ member)
  | case3 number line rest stripped spoken keyword cut ih =>
    rw [Bool.or_eq_true, not_or, decide_eq_true_eq, Bool.not_eq_true] at spoken
    have below : ∀ line ∈ rest, '\n' ∉ line := fun line member =>
      single line (List.mem_cons_of_mem _ member)
    have parts := cutWord_canonical (single line List.mem_cons_self) spoken.1 spoken.2 cut
    intro d member
    rcases List.mem_cons.mp member with rfl | member
    · exact ⟨parts.1, isBlock_blockContent below⟩
    · exact ih (fun line member => below line ((List.dropWhile_sublist _).subset member)) d member
  | case4 number line rest stripped spoken keyword value cut other ih =>
    rw [Bool.or_eq_true, not_or, decide_eq_true_eq, Bool.not_eq_true] at spoken
    have parts := cutWord_canonical (single line List.mem_cons_self) spoken.1 spoken.2 cut
    intro d member
    rcases List.mem_cons.mp member with rfl | member
    · exact ⟨parts.1, parts.2.1, parts.2.2, other⟩
    · exact ih (fun line member => single line (List.mem_cons_of_mem _ member)) d member

/-- Whatever is scanned is in canonical form. -/
theorem scan_canonical (text : Text) : ∀ d ∈ scan text, d.IsCanonical :=
  scanLines_canonical (fun _ member => Text.not_mem_of_mem_splitOn member) 1

theorem scanLines_line (word : IsKeyword keyword) (stripped : Text.strip value = value)
    (number : Nat) (rest : List Text) :
    scanLines number ((keyword ++ " " ++ value) :: rest) =
      if value = ">" then
        { keyword, body := .block (blockContent rest), line := number }
          :: scanLines (number + 1 + (blockExtent rest).length) (afterBlock rest)
      else { keyword, body := .inline value, line := number } :: scanLines (number + 1) rest := by
  have speaks := word.speaks_append (if value = [] then [] else ' ' :: value)
  rw [← word.strip_line stripped] at speaks
  have spoken : ¬ (decide (Text.strip (keyword ++ " " ++ value) = []) ||
      Text.startsWith "#" (Text.strip (keyword ++ " " ++ value))) = true := by
    rw [decide_eq_false speaks.1, speaks.2]
    decide
  rw [scanLines, if_neg spoken, word.cutWord_line stripped]

/-- A printed directive is scanned as it was, and then what stands below it. -/
theorem scanLines_printLines {d : Directive} (canonical : d.IsCanonical)
    (behind : AtColumnZero rest) (number : Nat) :
    scanLines number (d.printLines ++ rest) =
      { d with line := number } :: scanLines (number + d.printLines.length) rest := by
  obtain ⟨keyword, body, line⟩ := d
  have word : IsKeyword keyword := canonical.keyword
  cases body with
  | inline value =>
    have isValue : IsValue value := canonical.body
    have printed := scanLines_line word isValue.stripped number rest
    rw [if_neg isValue.inline] at printed
    exact printed
  | block lines =>
    have isBlock : IsBlock lines := canonical.body
    have arrow : Text.strip ">" = ">" := by decide
    have printed := scanLines_line word arrow number (printBlock lines ++ rest)
    obtain ⟨extent, after⟩ := blockExtent_append (printBlock_below lines) behind
    rw [if_pos rfl, blockContent_printBlock isBlock behind, extent, after] at printed
    have opening : keyword ++ " >" = keyword ++ " " ++ ">" := by
      rw [List.append_assoc]
      rfl
    have length : (Directive.printLines ⟨keyword, .block lines, line⟩).length =
        1 + (printBlock lines).length := Nat.add_comm _ 1
    rw [length, ← Nat.add_assoc, ← printed, ← opening]
    rfl

/-- Printed directives are scanned as what they say. -/
theorem scanLines_flatMap_printLines {ds : List Directive} (canonical : ∀ d ∈ ds, d.IsCanonical)
    (number : Nat) :
    (scanLines number (ds.flatMap Directive.printLines)).map Directive.content =
      ds.map Directive.content := by
  induction ds generalizing number with
  | nil => rw [List.flatMap_nil, scanLines]
  | cons d ds ih =>
    have others : ∀ e ∈ ds, e.IsCanonical := fun e member =>
      canonical e (List.mem_cons_of_mem _ member)
    have behind : AtColumnZero (ds.flatMap Directive.printLines) := by
      cases ds with
      | nil => exact fun line first => absurd first (Option.not_mem_none line)
      | cons e ds =>
        have word := (others e List.mem_cons_self).keyword
        obtain ⟨keyword, body, line⟩ := e
        intro first found
        cases body with
        | inline value =>
          cases found
          rw [List.append_assoc]
          exact word.startsAtColumnZero_line _
        | block lines =>
          cases found
          exact word.startsAtColumnZero_line _
    rw [List.flatMap_cons, scanLines_printLines (canonical d List.mem_cons_self) behind,
      List.map_cons, ih others, List.map_cons]
    rfl

theorem isLine_of_whole (single : '\n' ∉ line) (whole : Text.stripEnd line = line) :
    Text.IsLine line := by
  refine ⟨single, ?_⟩
  intro before equal
  have solid := Text.stripEnd_eq_self_iff.mp whole before '\r' equal
  exact absurd solid (by decide)

theorem Directive.isLine_of_mem_printLines {d : Directive} (canonical : d.IsCanonical)
    (member : line ∈ d.printLines) : Text.IsLine line := by
  obtain ⟨keyword, body, number⟩ := d
  have word : IsKeyword keyword := canonical.keyword
  have single : '\n' ∉ keyword := fun feed => absurd (word.solid '\n' feed) (by decide)
  cases body with
  | inline value =>
    have isValue : IsValue value := canonical.body
    rw [List.mem_singleton.mp member]
    by_cases empty : value = []
    · rw [empty, List.append_nil]
      refine ⟨by simp [single], ?_⟩
      intro before equal
      have last := congrArg List.getLast? equal
      simp at last
    · have whole := Text.stripEnd_append_self (Text.strip_eq_self_iff.mp isValue.stripped).2 empty
        (keyword ++ " ")
      exact isLine_of_whole (by simp [single, isValue.single]) whole
  | block lines =>
    have isBlock : IsBlock lines := canonical.body
    rcases List.mem_cons.mp member with rfl | member
    · have whole := Text.stripEnd_append word.stripEnd_self " >"
      exact isLine_of_whole (by simp [single]) whole
    · obtain ⟨t, inside, rfl⟩ := List.mem_map.mp member
      have feed : '\n' ∉ indentBy "    " t := by
        unfold indentBy
        split
        · exact isBlock.single t inside
        · simp [isBlock.single t inside]
      exact isLine_of_whole feed (stripEnd_indentBy (isBlock.whole t inside) _)

/-- The lines of a printed text are the printed lines. -/
theorem linesOf_print {ds : List Directive} (canonical : ∀ d ∈ ds, d.IsCanonical) (some : ds ≠ []) :
    linesOf (print ds) = ds.flatMap Directive.printLines := by
  have isLine : ∀ line ∈ ds.flatMap Directive.printLines, Text.IsLine line := by
    intro line member
    obtain ⟨d, found, inside⟩ := List.mem_flatMap.mp member
    exact Directive.isLine_of_mem_printLines (canonical d found) inside
  have filled : ds.flatMap Directive.printLines ≠ [] := by
    obtain ⟨d, found⟩ := List.exists_mem_of_ne_nil ds some
    obtain ⟨keyword, body, number⟩ := d
    cases body <;> exact List.ne_nil_of_mem (List.mem_flatMap.mpr ⟨_, found, List.mem_cons_self⟩)
  have unified : Text.unifyNewlines (print ds) = print ds := Text.unifyNewlines_join isLine
  rw [linesOf, unified]
  exact Text.splitOn_join filled fun line member => (isLine line member).single

/-- Directives in canonical form are printed so that scanning reads what they say. -/
theorem scan_print {ds : List Directive} (canonical : ∀ d ∈ ds, d.IsCanonical) :
    (scan (print ds)).map Directive.content = ds.map Directive.content := by
  by_cases none : ds = []
  · have blank : scanLines 1 [[]] = [] := by decide +kernel
    rw [none]
    exact congrArg (List.map Directive.content) blank
  · rw [scan, linesOf_print canonical none]
    exact scanLines_flatMap_printLines canonical 1

/-- Scanning what is printed of a scanned text reads the same keywords, values and blocks in the
same order. What can be scanned are the directives in canonical form. -/
theorem scan_print_scan (text : Text) :
    (scan (print (scan text))).map Directive.content = (scan text).map Directive.content ∧
      ∀ ds : List Directive,
        (∃ source, (scan source).map Directive.content = ds.map Directive.content) ↔
          ∀ d ∈ ds, d.IsCanonical := by
  refine ⟨scan_print (scan_canonical text), fun ds => ⟨?_, fun canonical => ?_⟩⟩
  · rintro ⟨source, same⟩ d member
    obtain ⟨e, scanned, equal⟩ := List.mem_map.mp (same ▸ List.mem_map_of_mem member)
    exact (scan_canonical source e scanned).congr equal.symm
  · exact ⟨print ds, scan_print canonical⟩

/-- Tabs and deeper lines stay in a block, as do its inner blank lines. -/
example : (scan (print (scan "SQL >\n\t\tSELECT 1\n\n\t\t\tFROM t"))).map Directive.content =
    [("SQL".toList, .block ["SELECT 1", "", "\tFROM t"])] := by
  decide +kernel

end DatafileMigration.Datafile
