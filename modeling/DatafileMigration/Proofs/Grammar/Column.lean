import DatafileMigration.Proofs.Grammar.Definition
import DatafileMigration.Proofs.Text.Lines

namespace DatafileMigration.Column

open Grammar
open Text (strip stripStart stripEnd isBlank backtick IsClosed)

variable {c : Column}

/-- What is read is stripped. -/
theorem isStripped_of_readColumn {definition : Text} (read : readColumn definition = .ok c) :
    c.IsStripped := by
  obtain ⟨word, rest, before, head, cut, -, -, -, first, second, third, typed⟩ :=
    readColumn_eq_ok.mp read
  have whole : strip rest = rest := by
    obtain ⟨-, rfl⟩ := Prod.mk.inj cut
    exact Text.strip_strip _
  obtain ⟨whole, codec⟩ := takeCodec_stripped whole first
  obtain ⟨whole, default⟩ := takeDefault_stripped whole second
  obtain ⟨whole, path⟩ := takePath_stripped whole third
  exact ⟨⟨whole, typed⟩, path, default, codec⟩

/-- A text behind an opening parenthesis is shorter than all of it, blanks at the ends apart. -/
theorem strip_append_open_ne (y k : Text) : strip (y ++ '(' :: k) ≠ k := by
  intro same
  have finish : stripEnd k = k := by
    rw [← same]
    exact (Text.strip_eq_self_iff.mp (Text.strip_strip _)).2
  have finish' : stripEnd ('(' :: k) = '(' :: k := by
    have opened : stripEnd ("(" : Text) = "(" := Text.stripEnd_append_self (by decide) (by decide) []
    have whole := Text.stripEnd_append opened k
    rwa [finish] at whole
  have start : ∃ z, stripStart (y ++ '(' :: k) = z ++ '(' :: k := by
    have solid : stripStart ('(' :: k) = '(' :: k := List.dropWhile_cons_of_neg (by decide)
    rw [stripStart, List.dropWhile_append]
    split
    · exact ⟨[], solid⟩
    · exact ⟨_, rfl⟩
  obtain ⟨z, start⟩ := start
  rw [strip, start, Text.stripEnd_append_self finish' (List.cons_ne_nil _ _)] at same
  have lengths := congrArg List.length same
  rw [List.length_append, List.length_cons] at lengths
  omega

/-- A codec that is cut off and stripped to the one at the end is that one. -/
theorem eq_of_cutCodec? {front inside codec : Text} (stripped : c.IsStripped)
    (found : c.codec = some codec) (cut : cutCodec? c.rest = some (front, inside))
    (same : strip inside = codec) : inside = codec ∧ inside ≠ [] := by
  rw [cutCodec?_eq_search] at cut
  obtain ⟨w, split, isClause⟩ := search_eq_some cut
  have whole : stripEnd w = w := by
    have finish := (Text.strip_eq_self_iff.mp stripped.strip_rest).2
    rw [split] at finish
    exact Text.stripEnd_of_append finish
  obtain ⟨-, begins, filled, -⟩ := (codecClause?_eq_some whole).mp isClause
  obtain ⟨blanks, -, back⟩ := Text.exists_append_stripStart w
  have ends : front ++ blanks ++ codecMark ++ inside = c.body ++ " CODEC" ++ '(' :: codec := by
    have both : front ++ blanks ++ codecMark ++ inside ++ ")" =
        c.body ++ " CODEC" ++ '(' :: codec ++ ")" := by
      calc front ++ blanks ++ codecMark ++ inside ++ ")"
          = front ++ (blanks ++ (codecMark ++ inside ++ ")")) := by simp only [List.append_assoc]
        _ = c.rest := by rw [split, back, begins]; rfl
        _ = c.body ++ " CODEC" ++ '(' :: codec ++ ")" := by
            rw [rest, found, List.append_assoc, List.append_assoc]
            rfl
    exact List.append_cancel_right both
  have isSuffix : inside <:+ c.body ++ " CODEC" ++ '(' :: codec := ends ▸ List.suffix_append _ _
  refine ⟨?_, filled⟩
  by_cases longer : codec.length < inside.length
  · obtain ⟨y, shape⟩ := List.suffix_of_suffix_length_le (List.suffix_append _ ('(' :: codec))
      isSuffix longer
    rw [← shape] at same
    exact absurd same (strip_append_open_ne y codec)
  · have isSuffix' : codec <:+ c.body ++ " CODEC" ++ '(' :: codec :=
      (List.suffix_cons '(' codec).trans (List.suffix_append _ _)
    have atMost := Text.length_strip_le inside
    rw [same] at atMost
    exact (List.suffix_of_suffix_length_le isSuffix isSuffix' (by omega)).eq_of_length (by omega)

/-- Before a stray codec, less is cut off than the codec at the end. -/
theorem length_lt_of_hasStrayCodec {front inside codec : Text} (stripped : c.IsStripped)
    (found : c.codec = some codec) (cut : cutCodec? c.rest = some (front, inside))
    (stray : c.HasStrayCodec) : codec.length < inside.length := by
  obtain ⟨u, b, v, blank, shape, single, -⟩ := stray
  have single' : '\n' ∉ v ++ ' ' :: (codecMark ++ codec) := by
    rw [List.mem_append, List.mem_cons, List.mem_append]
    rintro (early | space | mark | late)
    · exact single early
    · exact absurd space (by decide)
    · exact absurd mark (by decide)
    · exact (stripped.codec codec found).2 late
  have isClause := codecClause?_mark blank (by simp) single'
  have whole : c.rest = u ++ b :: (codecMark ++ (v ++ ' ' :: (codecMark ++ codec)) ++ ")") := by
    rw [rest, shape, found, codecClause_some]
    simp only [List.append_assoc, List.cons_append]
    rfl
  obtain ⟨front', a, earlier, isFront⟩ := exists_search isClause (List.cons_ne_nil _ _) u
  rw [← whole, ← cutCodec?_eq_search, cut] at earlier
  obtain ⟨rfl, rfl⟩ := Prod.mk.inj (Option.some.inj earlier)
  obtain ⟨x, rfl⟩ := isFront
  rw [cutCodec?_eq_search] at cut
  obtain ⟨w, split, isClause'⟩ := search_eq_some cut
  have finish := (Text.strip_eq_self_iff.mp stripped.strip_rest).2
  rw [split] at finish
  obtain ⟨-, begins, -, -⟩ := (codecClause?_eq_some (Text.stripEnd_of_append finish)).mp isClause'
  have longer := Text.length_stripStart_le x
    (b :: (codecMark ++ (v ++ ' ' :: (codecMark ++ codec)) ++ ")"))
  rw [split, List.append_assoc] at whole
  rw [← List.append_cancel_left whole, begins] at longer
  have start : stripStart (b :: (codecMark ++ (v ++ ' ' :: (codecMark ++ codec)) ++ ")")) =
      codecMark ++ (v ++ ' ' :: (codecMark ++ codec)) ++ ")" :=
    (List.dropWhile_cons_of_pos blank).trans (List.dropWhile_cons_of_neg (by decide))
  rw [start] at longer
  simp only [List.length_append, List.length_cons] at longer
  have size : codecMark.length = ("CODEC(" : Text).length := rfl
  omega

/-- If the codec is cut off, it is not empty, and none was cut off before. -/
theorem isTight_of_takeCodec {before : Text} (stripped : c.IsStripped)
    (cut : takeCodec c.rest = (before, c.codec)) : c.IsTight ∧ ¬ c.HasStrayCodec := by
  unfold takeCodec at cut
  cases found : c.codec with
  | none =>
    rw [found] at cut
    split at cut
    · cases cut
    · rename_i uncut
      refine ⟨⟨stripped, by rw [found]; exact Option.some_ne_none [] ∘ Eq.symm⟩, ?_⟩
      rintro ⟨u, b, v, blank, shape, single, closing⟩
      obtain ⟨inside, filled, rfl⟩ := closing found
      have single' : '\n' ∉ inside := fun feed => single (List.mem_append_left _ feed)
      have isClause := codecClause?_mark blank filled single'
      obtain ⟨front, a, earlier, -⟩ := exists_search isClause (List.cons_ne_nil _ _) u
      rw [cutCodec?_eq_search, rest, found, codecClause_none, List.append_nil, shape,
        ← List.append_assoc] at uncut
      cases uncut.symm.trans earlier
  | some codec =>
    rw [found] at cut
    split at cut
    · rename_i front inside located
      obtain ⟨-, same⟩ := Prod.mk.inj cut
      obtain ⟨rfl, filled⟩ := eq_of_cutCodec? stripped found located (Option.some.inj same)
      refine ⟨⟨stripped, ?_⟩, ?_⟩
      · rw [found]
        exact fun empty => filled (Option.some.inj empty)
      · exact fun stray => absurd (length_lt_of_hasStrayCodec stripped found located stray) (by omega)
    · cases cut

/-- A JSON path does not stand both before and, with a space in front, behind a text that ends with
a backtick: the two have other numbers of neighbouring backticks. -/
theorem path_append_ne {x y : Text} (free : backtick ∉ x) (free' : backtick ∉ y) (t : Text) :
    pathMark ++ x ++ [backtick] ++ (t ++ [backtick]) ≠
      t ++ [backtick] ++ ' ' :: (pathMark ++ y ++ [backtick]) := by
  intro same
  have free {t : Text} (absent : backtick ∉ t) : backtick ∉ ("json:" : Text) ++ t := by
    rw [List.mem_append, not_or]
    exact ⟨by decide, absent⟩
  have front : pathMark ++ x ++ [backtick] ++ (t ++ [backtick]) =
      [] ++ backtick :: ("json:" ++ x ++ backtick :: (t ++ backtick :: [])) := by
    simp only [List.append_assoc]
    rfl
  have back : t ++ [backtick] ++ ' ' :: (pathMark ++ y ++ [backtick]) =
      t ++ backtick :: ([' '] ++ backtick :: ("json:" ++ y ++ backtick :: [])) := by
    simp only [List.append_assoc]
    rfl
  have pieces := congrArg (fun s => (Text.splitOn backtick s).count []) same
  have other : ' ' ≠ backtick := by decide
  rw [front, back] at pieces
  simp only [Text.splitOn_append_cons, Text.splitOn_of_not_mem (free ‹backtick ∉ x›),
    Text.splitOn_of_not_mem (free free'), Text.splitOn, if_neg other, List.count_append,
    List.count_cons, List.count_nil] at pieces
  simp at pieces

/-- A stray JSON path is cut out, if none before it. -/
theorem cutJsonPath?_of_stray (stray : c.HasStrayPath) : ∃ front path after,
    cutJsonPath? c.head = some (front, path, after) ∧ front ++ pathMark <+: c.type := by
  obtain ⟨u, v, shape, first, closing⟩ := stray
  have ticked : backtick ∈ v ++ pathClause c.jsonPath := by
    cases found : c.jsonPath with
    | none => exact List.mem_append_left _ (closing found)
    | some path =>
      rw [pathClause_some]
      exact List.mem_append_right _ (List.mem_cons_of_mem _
        (List.mem_append_right _ List.mem_cons_self))
  obtain ⟨path, after, split, absent⟩ := List.eq_append_cons_of_mem ticked
  have filled : path ≠ [] := by
    rintro rfl
    cases v with
    | nil =>
      rcases pathClause_spaced c.jsonPath with empty | ⟨r, spaced⟩
      · rw [empty] at split
        cases split
      · rw [spaced] at split
        exact absurd (List.cons.inj split).1 (by decide)
    | cons d v =>
      obtain rfl : d = backtick := (List.cons.inj split).1
      exact first rfl
  have isPath : pathHere? (pathMark ++ (v ++ pathClause c.jsonPath)) = some (path, after) := by
    refine pathHere?_eq_some.mpr ⟨?_, filled, absent⟩
    rw [split, List.append_assoc, List.append_assoc]
    rfl
  obtain ⟨front, ⟨path', after'⟩, cut, isFront⟩ := exists_search isPath (List.cons_ne_nil _ _) u
  have whole : c.head = u ++ (pathMark ++ (v ++ pathClause c.jsonPath)) := by
    rw [head, shape, List.append_assoc, List.append_assoc]
  rw [← whole, ← cutJsonPath?_eq_search] at cut
  refine ⟨front, path', after', cut, ?_⟩
  rw [cutJsonPath?_eq_search] at cut
  obtain ⟨w, split', isPath'⟩ := search_eq_some cut
  have begins := (pathHere?_eq_some.mp isPath').1
  have stands : front ++ pathMark <+: c.head := by
    rw [split', begins, List.prefix_append_right_inj, List.append_assoc, List.append_assoc]
    exact List.prefix_append ..
  refine List.prefix_of_prefix_length_le stands (List.prefix_append ..) ?_
  have bound := isFront.length_le
  rw [shape, List.length_append, List.length_append, List.length_append]
  omega

/-- If the JSON path is cut out, none was cut out before. -/
theorem not_hasStrayPath_of_takePath (written : c.IsWritten) (stripped : c.IsStripped)
    (cut : takePath c.head = (c.type, c.jsonPath)) : ¬ c.HasStrayPath := by
  intro stray
  obtain ⟨front, path, after, located, isFront⟩ := cutJsonPath?_of_stray stray
  rw [takePath, located] at cut
  obtain ⟨type_eq, path_eq⟩ := Prod.mk.inj cut
  have opened : front ≠ [] := by
    rintro rfl
    have closed : IsClosed [] := rfl
    exact written.noPath.not_prefix closed isFront
  rw [cutJsonPath?_eq_search] at located
  obtain ⟨w, split, isPath⟩ := search_eq_some located
  obtain ⟨begins, -, absent⟩ := pathHere?_eq_some.mp isPath
  have whole : c.head = front ++ (pathMark ++ path ++ [backtick] ++ after) := by rw [split, begins]; rfl
  have clause : c.head = c.type ++ ' ' :: (pathMark ++ strip path ++ [backtick]) := by
    rw [head, ← path_eq, pathClause_some]
  obtain ⟨rest, behind⟩ := isFront
  -- Nothing is stripped off what stands around the path that is cut out.
  obtain ⟨after, d, rfl⟩ : ∃ t d, after = t ++ [d] := by
    refine (List.eq_nil_or_concat' after).resolve_left ?_
    rintro rfl
    have bound := Text.length_strip_le (front ++ [])
    rw [type_eq, ← behind, List.append_nil, List.length_append, List.length_append] at bound
    have size : pathMark.length = 6 := rfl
    omega
  obtain rfl : d = backtick := by
    have ends : front ++ (pathMark ++ path ++ [backtick] ++ after) ++ [d] =
        c.type ++ ' ' :: (pathMark ++ strip path) ++ [backtick] := by
      rw [List.append_assoc, List.append_assoc, ← whole, clause, List.append_assoc c.type]
      rfl
    exact List.singleton_inj.mp (List.append_inj' ends rfl).2
  have start : stripStart (front ++ (after ++ [backtick])) = front ++ (after ++ [backtick]) := by
    obtain ⟨e, front, rfl⟩ := List.exists_cons_of_ne_nil opened
    have solid := Text.stripStart_eq_self_iff.mp (Text.strip_eq_self_iff.mp stripped.type.1).1 e _
      behind.symm
    exact List.dropWhile_cons_of_neg (by simp [solid])
  have finish : stripEnd (front ++ (after ++ [backtick])) = front ++ (after ++ [backtick]) := by
    rw [← List.append_assoc]
    exact Text.stripEnd_append_self (by decide) (by decide) _
  rw [Text.strip_eq_self_iff.mpr ⟨start, finish⟩] at type_eq
  rw [whole, ← type_eq, List.append_assoc front] at clause
  exact path_append_ne absent (fun tick => absent (Text.mem_of_mem_strip tick)) after
    (List.append_cancel_left clause)

/-- A column is read back exactly if its clauses are stripped and not empty, and no text before the
codec or in the type looks like a codec or a JSON path. -/
theorem readColumn_definition (written : c.IsWritten) :
    readColumn c.definition = .ok c ↔ c.IsTight ∧ ¬ c.HasStrayCodec ∧ ¬ c.HasStrayPath := by
  constructor
  · intro read
    have stripped := isStripped_of_readColumn read
    obtain ⟨word, rest, before, head, cut, -, -, -, first, second, third, typed⟩ :=
      readColumn_eq_ok.mp read
    obtain ⟨rfl, rfl⟩ := Prod.mk.inj ((cutWord_definition written stripped).symm.trans cut)
    obtain ⟨tight, noCodec⟩ := isTight_of_takeCodec stripped first
    obtain ⟨rfl, -⟩ := Prod.mk.inj ((takeCodec_rest tight noCodec).symm.trans first)
    obtain ⟨rfl, -⟩ := Prod.mk.inj ((takeDefault_body written stripped).symm.trans second)
    exact ⟨tight, noCodec, not_hasStrayPath_of_takePath written stripped third⟩
  · rintro ⟨tight, noCodec, noPath⟩
    have stripped := tight.toIsStripped
    exact readColumn_eq_ok.mpr ⟨c.name, c.rest, c.body, c.head,
      cutWord_definition written stripped, stripped.rest_ne_nil, unquoteName_name written,
      written.name, takeCodec_rest tight noCodec, takeDefault_body written stripped,
      takePath_head written stripped noPath, stripped.type.2⟩

/-- A column with all its clauses. -/
def compressed : Column where
  name := "tags"
  type := "Array(String)"
  jsonPath := some "$.a[:]"
  default := some "array('x, y')"
  codec := some "ZSTD(1)"

theorem isWritten_compressed : compressed.IsWritten where
  name := by decide
  plain := List.forall_iff_forall_mem.mp (by decide)
  path := by decide +kernel
  closed := by decide +kernel
  noDefault := by decide +kernel
  noPath := by decide +kernel

theorem readColumn_definition_compressed : compressed.IsWritten ∧
    (readColumn compressed.definition = .ok compressed ↔
      compressed.IsTight ∧ ¬ compressed.HasStrayCodec ∧ ¬ compressed.HasStrayPath) ∧
    readColumn compressed.definition = .ok compressed :=
  ⟨isWritten_compressed, readColumn_definition isWritten_compressed, by decide +kernel⟩

/-- A column whose default is a text that looks like the beginning of a codec. -/
def misleading : Column where
  name := "a"
  type := "String"
  default := some "' CODEC('"
  codec := some "ZSTD(1)"

/-- The default is cut within its quotes. -/
theorem readColumn_definition_misleading : misleading.IsWritten ∧ misleading.IsTight ∧
    misleading.definition = "a String DEFAULT ' CODEC(' CODEC(ZSTD(1))" ∧
    (∀ t ∈ ["String", "' CODEC('", "ZSTD(1)"], IsClosed (t : String) ∧
      Text.Lacks "DEFAULT" (t : String) ∧ Text.Lacks codecMark (t : String) ∧
      Text.Lacks pathMark (t : String)) ∧
    readColumn misleading.definition =
      .ok { name := "a", type := "String", default := some "'", codec := some "' CODEC(ZSTD(1)" } := by
  refine ⟨?_, ?_, by decide +kernel, by decide +kernel, by decide +kernel⟩
  · exact ⟨by decide, List.forall_mem_singleton.mpr (by decide), by decide +kernel,
      by decide +kernel, by decide +kernel, by decide +kernel⟩
  · exact ⟨⟨by decide +kernel, by decide +kernel, by decide +kernel, by decide +kernel⟩,
      by decide⟩

end DatafileMigration.Column
