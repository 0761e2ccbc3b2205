import DatafileMigration.Proofs.Datafile.Quotation
import DatafileMigration.Proofs.Grammar.Clause

namespace DatafileMigration.Column

open Grammar
open Text (strip stripStart stripEnd isBlank backtick IsClosed)

/-- The beginning of a JSON path. -/
def pathMark : Text := "\x60json:"

/-- The beginning of a codec, behind its blanks. -/
def codecMark : Text := "CODEC("

def pathClause : Option Text → Text
  | some path => " " ++ pathMark ++ path ++ [backtick]
  | none => []

def defaultClause : Option Text → Text
  | some default => defaultMark ++ default
  | none => []

def codecClause : Option Text → Text
  | some codec => " " ++ codecMark ++ codec ++ ")"
  | none => []

theorem pathClause_none : pathClause none = [] := rfl

theorem pathClause_some (path : Text) :
    pathClause (some path) = ' ' :: (pathMark ++ path ++ [backtick]) := rfl

theorem defaultClause_none : defaultClause none = [] := rfl

theorem defaultClause_some (default : Text) :
    defaultClause (some default) = defaultMark ++ default := rfl

theorem codecClause_none : codecClause none = [] := rfl

theorem codecClause_some (codec : Text) :
    codecClause (some codec) = ' ' :: (codecMark ++ codec ++ ")") := rfl

/-- The type and the JSON path. -/
def head (c : Column) : Text := c.type ++ pathClause c.jsonPath

/-- The type, the JSON path and the default. -/
def body (c : Column) : Text := c.head ++ defaultClause c.default

/-- All that follows the name. -/
def rest (c : Column) : Text := c.body ++ codecClause c.codec

/-- A column in the words of a schema. -/
def definition (c : Column) : Text := c.name ++ " " ++ c.rest

/-- The name is a plain word, and the type closes what it opens and introduces no other clause
outside its quotes and parentheses. -/
structure IsWritten (c : Column) : Prop where
  name : c.name ≠ []
  plain : ∀ ch ∈ c.name, isBlank ch = false ∧ ch ≠ backtick ∧ ch ≠ '"'
  path : ∀ path ∈ c.jsonPath, strip path ≠ [] ∧ backtick ∉ path
  closed : IsClosed c.type
  noDefault : Text.Lacks defaultMark (c.type ++ [' '])
  noPath : Text.Lacks pathMark c.type

/-- No clause has blanks at its ends, the type and the default are not empty, and the codec is on
one line. -/
structure IsStripped (c : Column) : Prop where
  type : strip c.type = c.type ∧ c.type ≠ []
  path : ∀ path ∈ c.jsonPath, strip path = path
  default : ∀ default ∈ c.default, strip default = default ∧ default ≠ []
  codec : ∀ codec ∈ c.codec, strip codec = codec ∧ '\n' ∉ codec

/-- The codec is not empty either. -/
structure IsTight (c : Column) : Prop extends c.IsStripped where
  filled : c.codec ≠ some []

/-- Something before the codec looks like its beginning, and the end of the line like its end. -/
def HasStrayCodec (c : Column) : Prop :=
  ∃ (u : Text) (b : Char) (v : Text), isBlank b ∧ c.body = u ++ b :: ("CODEC(" ++ v) ∧ '\n' ∉ v ∧
    (c.codec = none → ∃ inside : Text, inside ≠ [] ∧ v = inside ++ ")")

/-- Something in the type looks like the beginning of a JSON path, and the next backtick like its
end. -/
def HasStrayPath (c : Column) : Prop :=
  ∃ u v : Text, c.type = u ++ pathMark ++ v ∧ v.head? ≠ some backtick ∧
    (c.jsonPath = none → backtick ∈ v)

variable {c : Column}

theorem stripEnd_pathClause (path : Option Text) :
    stripEnd (pathClause path) = pathClause path := by
  cases path with
  | none => rfl
  | some path => exact Text.stripEnd_append_self (by decide) (by decide) _

theorem stripEnd_codecClause (codec : Option Text) :
    stripEnd (codecClause codec) = codecClause codec := by
  cases codec with
  | none => rfl
  | some codec => exact Text.stripEnd_append_self (by decide) (by decide) _

namespace IsStripped

variable (stripped : c.IsStripped)

include stripped

theorem strip_head : strip c.head = c.head :=
  Text.strip_append stripped.type.1 stripped.type.2 (stripEnd_pathClause _)

theorem head_ne_nil : c.head ≠ [] := List.append_ne_nil_of_left_ne_nil stripped.type.2 _

theorem strip_body : strip c.body = c.body := by
  refine Text.strip_append stripped.strip_head stripped.head_ne_nil ?_
  cases found : c.default with
  | none => rfl
  | some default =>
    obtain ⟨whole, some⟩ := stripped.default default found
    exact Text.stripEnd_append_self (Text.strip_eq_self_iff.mp whole).2 some _

theorem body_ne_nil : c.body ≠ [] := List.append_ne_nil_of_left_ne_nil stripped.head_ne_nil _

theorem strip_rest : strip c.rest = c.rest :=
  Text.strip_append stripped.strip_body stripped.body_ne_nil (stripEnd_codecClause _)

theorem rest_ne_nil : c.rest ≠ [] := List.append_ne_nil_of_left_ne_nil stripped.body_ne_nil _

end IsStripped

theorem cutWord_definition (written : c.IsWritten) (stripped : c.IsStripped) :
    Text.cutWord (strip c.definition) = (c.name, c.rest) := by
  have spaces : Datafile.Spaces [] c.name " " c.rest [] := by
    refine ⟨rfl, written.name, fun ch member => (written.plain ch member).1, rfl, ?_,
      stripped.strip_rest, rfl⟩
    exact iff_of_false (by decide) stripped.rest_ne_nil
  rw [definition, spaces.strip_inside, spaces.cutWord_inside]

theorem unquoteName_name (written : c.IsWritten) : unquoteName c.name = c.name := by
  obtain ⟨ch, rest, split⟩ := List.exists_cons_of_ne_nil written.name
  obtain ⟨-, tick, double⟩ := written.plain ch (by rw [split]; exact List.mem_cons_self)
  have other : ¬ (decide (ch = backtick) || decide (ch = '"')) = true := by simp [tick, double]
  rw [split, unquoteName, if_neg other]

/-- The word that introduces a default does not begin before a space and end behind it. -/
theorem mark_prefix_of_space {p t w : Text} (short : p.length < t.length)
    (stands : p ++ defaultMark <+: t ++ ' ' :: w) : p ++ defaultMark <+: t ++ [' '] := by
  obtain ⟨x, rfl⟩ : p <+: t := List.prefix_of_prefix_length_le
    ((List.prefix_append p _).trans stands) (List.prefix_append t _) short.le
  rw [List.append_assoc, List.prefix_append_right_inj] at stands ⊢
  have front : x ++ [' '] <+: x ++ ' ' :: w := ⟨w, by simp⟩
  refine List.prefix_of_prefix_length_le stands front ?_
  rw [List.length_append] at short
  by_contra long
  have spaces : ∀ i < 9, 0 < i → defaultMark[i]? = some ' ' → i = 8 := by decide
  have inside : x.length < 9 := by
    have size : defaultMark.length = 9 := rfl
    simp at long
    omega
  obtain ⟨z, whole⟩ := stands
  have space : defaultMark[x.length]? = some ' ' := by
    have here := congrArg (·[x.length]?) whole
    have size : x.length < defaultMark.length := inside
    simpa [List.getElem?_append_left size] using here
  have last := spaces x.length inside (by omega) space
  have size : defaultMark.length = 9 := rfl
  simp at long
  omega

/-- Where the word stands with nothing open, it stands behind the type and the JSON path. -/
theorem IsWritten.length_head_le {p w : Text} (written : c.IsWritten) (closed : IsClosed p)
    (stands : p ++ defaultMark <+: c.head ++ ' ' :: w) : c.head.length ≤ p.length := by
  by_contra short
  rw [Nat.not_le] at short
  by_cases inType : p.length < c.type.length
  · refine written.noDefault.not_prefix closed ?_
    cases found : c.jsonPath with
    | none =>
      rw [head, found, pathClause_none, List.append_nil] at stands
      exact mark_prefix_of_space inType stands
    | some path =>
      rw [head, found, pathClause_some, List.append_assoc] at stands
      exact mark_prefix_of_space inType stands
  · cases found : c.jsonPath with
    | none =>
      rw [head, found, pathClause_none, List.append_nil] at short
      exact inType short
    | some path =>
      have front : p <+: c.head := List.prefix_of_prefix_length_le
        ((List.prefix_append p _).trans stands) (List.prefix_append c.head _) short.le
      have front' : c.type <+: p := List.prefix_of_prefix_length_le (List.prefix_append c.type _)
        front (by omega)
      obtain ⟨y, rfl⟩ := front'
      have shape : pathClause (some path) = ' ' :: backtick :: ("json:" ++ path ++ [backtick]) := rfl
      rw [head, List.append_assoc, List.append_assoc, List.prefix_append_right_inj, found,
        shape] at stands
      rw [head, List.prefix_append_right_inj, found, shape] at front
      rw [head, List.length_append, List.length_append, found, shape] at short
      rcases y with _ | ⟨a, _ | ⟨b, z⟩⟩
      · have second := (List.cons_prefix_cons.mp stands).2
        exact absurd (List.cons_prefix_cons.mp second).1 (by decide)
      · have second := (List.cons_prefix_cons.mp stands).2
        exact absurd (List.cons_prefix_cons.mp second).1 (by decide)
      · obtain ⟨space, front⟩ := List.cons_prefix_cons.mp front
        obtain ⟨tick, front⟩ := List.cons_prefix_cons.mp front
        have inside : z <+: "json:" ++ path := by
          refine List.prefix_of_prefix_length_le front (List.prefix_append ..) ?_
          simp only [List.length_cons, List.length_append, List.length_nil] at short ⊢
          omega
        have free : backtick ∉ z := by
          intro member
          rcases List.mem_append.mp (inside.subset member) with early | late
          · exact absurd early (by decide)
          · exact (written.path path found).2 late
        refine written.closed.not_append_tick free ?_
        rw [space, tick] at closed
        rw [List.append_assoc]
        exact closed

theorem IsWritten.isClosed_head (written : c.IsWritten) : IsClosed c.head := by
  cases found : c.jsonPath with
  | none =>
    rw [head, found, pathClause_none, List.append_nil]
    exact written.closed
  | some path =>
    have free : backtick ∉ ("json:" ++ path : Text) := by
      rw [List.mem_append, not_or]
      exact ⟨by decide, (written.path path found).2⟩
    have shape : c.head = c.type ++ [' ', backtick] ++ ("json:" ++ path) ++ [backtick] := by
      have mark : pathMark = backtick :: "json:".toList := rfl
      rw [head, found, pathClause_some, mark]
      simp [-String.reduceToList]
    rw [shape]
    exact written.closed.append_ticked free

theorem takeDefault_body (written : c.IsWritten) (stripped : c.IsStripped) :
    takeDefault c.body = (c.head, c.default) := by
  cases found : c.default with
  | none =>
    have noMark : Text.findTopLevel? defaultMark c.head = none := by
      rw [defaultMark_eq]
      refine Text.FindState.find?_eq_none fun p closed stands => ?_
      rw [← defaultMark_eq] at stands
      have bound := written.length_head_le closed (stands.trans (List.prefix_append c.head [' ']))
      have longer := stands.length_le
      rw [List.length_append, show defaultMark.length = 9 from rfl] at longer
      omega
    rw [body, found, defaultClause_none, List.append_nil, takeDefault, noMark]
  | some default =>
    have mark : Text.findTopLevel? defaultMark (c.head ++ defaultMark ++ default) =
        some c.head.length := by
      have closed : IsClosed c.head := written.isClosed_head
      have first : ∀ p, IsClosed p → p ++ defaultMark <+: c.head ++ defaultMark ++ default →
          c.head.length ≤ p.length := by
        intro p closed' stands
        rw [List.append_assoc] at stands
        exact written.length_head_le closed' stands
      rw [defaultMark_eq] at first ⊢
      refine (Text.FindState.find?_of_first closed first).trans ?_
      rw [Nat.zero_add]
    rw [body, found, defaultClause_some, ← List.append_assoc, takeDefault, mark]
    dsimp only
    rw [List.append_assoc, List.take_left, stripped.strip_head, ← List.drop_drop, List.drop_left,
      List.drop_left, (stripped.default default found).1]

/-- A text without spaces that begins a text and a clause behind it begins the text. -/
theorem prefix_of_clause {mark t clause : Text} (solid : ' ' ∉ mark)
    (spaced : clause = [] ∨ ∃ r, clause = ' ' :: r) (begins : mark <+: t ++ clause) :
    mark <+: t := by
  refine List.prefix_of_prefix_length_le begins (List.prefix_append ..) ?_
  by_contra short
  rw [Nat.not_le] at short
  rcases spaced with rfl | ⟨r, rfl⟩
  · have longer := begins.length_le
    rw [List.append_nil] at longer
    exact absurd longer (Nat.not_le.mpr short)
  · obtain ⟨z, whole⟩ := begins
    have inside : (mark ++ z)[t.length]? = mark[t.length]? := List.getElem?_append_left short
    have space : mark[t.length]? = some ' ' := by
      rw [← inside, whole, List.getElem?_append_right le_rfl, Nat.sub_self, List.getElem?_cons_zero]
    exact solid (List.mem_of_getElem? space)

theorem codecClause_spaced (codec : Option Text) :
    codecClause codec = [] ∨ ∃ r, codecClause codec = ' ' :: r := by
  cases codec with
  | none => exact .inl rfl
  | some codec => exact .inr ⟨_, codecClause_some codec⟩

theorem pathClause_spaced (path : Option Text) :
    pathClause path = [] ∨ ∃ r, pathClause path = ' ' :: r := by
  cases path with
  | none => exact .inl rfl
  | some path => exact .inr ⟨_, pathClause_some path⟩

theorem codecClause?_mark {b : Char} {inside : Text} (blank : isBlank b) (filled : inside ≠ [])
    (single : '\n' ∉ inside) : codecClause? (b :: (codecMark ++ inside ++ ")")) = some inside := by
  have whole : stripEnd (b :: (codecMark ++ inside) ++ ")") = b :: (codecMark ++ inside) ++ ")" :=
    Text.stripEnd_append_self (by decide) (by decide) _
  have start : stripStart (b :: (codecMark ++ inside ++ ")")) = codecMark ++ inside ++ ")" :=
    (List.dropWhile_cons_of_pos blank).trans (List.dropWhile_cons_of_neg (by decide))
  exact (codecClause?_eq_some whole).mpr ⟨⟨b, rfl, blank⟩, start, filled, single⟩

/-- What is cut as a codec before the codec is a stray one. -/
theorem hasStrayCodec_of_codecClause? {u w inside : Text} (stripped : c.IsStripped)
    (split : c.body = u ++ w) (some : w ≠ [])
    (isClause : codecClause? (w ++ codecClause c.codec) = .some inside) : c.HasStrayCodec := by
  have whole : stripEnd (w ++ codecClause c.codec) = w ++ codecClause c.codec := by
    have finish := (Text.strip_eq_self_iff.mp stripped.strip_rest).2
    rw [rest, split, List.append_assoc] at finish
    exact Text.stripEnd_of_append finish
  have whole' : stripEnd w = w := by
    have finish := (Text.strip_eq_self_iff.mp stripped.strip_body).2
    rw [split] at finish
    exact Text.stripEnd_of_append finish
  obtain ⟨⟨b, first, blank⟩, begins, filled, single⟩ := (codecClause?_eq_some whole).mp isClause
  obtain ⟨blanks, allBlank, front⟩ := Text.exists_append_stripStart w
  have solid : stripStart w ≠ [] := by
    intro empty
    rw [empty, List.append_nil] at front
    rw [← front] at allBlank
    rw [Text.stripEnd_eq_nil_iff.mpr allBlank] at whole'
    exact some whole'.symm
  have start : stripStart (w ++ codecClause c.codec) = stripStart w ++ codecClause c.codec :=
    List.dropWhile_append.trans (if_neg (mt List.isEmpty_iff.mp solid))
  rw [start, List.append_assoc] at begins
  have begins' : codecMark <+: stripStart w ++ codecClause c.codec := ⟨_, begins.symm⟩
  obtain ⟨v, mark⟩ := prefix_of_clause (by decide) (codecClause_spaced _) begins'
  rw [← mark, List.append_assoc] at begins
  have behind : v ++ codecClause c.codec = inside ++ ")" := List.append_cancel_left begins
  have feedless : '\n' ∉ v := by
    intro feed
    have feed' : '\n' ∈ inside ++ ")" := behind ▸ List.mem_append_left _ feed
    rcases List.mem_append.mp feed' with early | late
    · exact single early
    · exact absurd late (by decide)
  have closing : c.codec = none → ∃ inside : Text, inside ≠ [] ∧ v = inside ++ ")" := by
    intro none
    rw [none, codecClause_none, List.append_nil] at behind
    exact ⟨inside, filled, behind⟩
  rcases List.eq_nil_or_concat' blanks with rfl | ⟨blanks, d, rfl⟩
  · rw [List.nil_append] at front
    obtain ⟨a, rest, shape⟩ := List.exists_cons_of_ne_nil some
    have solid' := Text.stripStart_eq_self_iff.mp front.symm a rest shape
    rw [shape] at first
    obtain rfl : a = b := Option.some.inj first
    rw [blank] at solid'
    cases solid'
  · rw [Text.isBlankText, List.all_append, Bool.and_eq_true] at allBlank
    have blank' : isBlank d = true := by simpa using allBlank.2
    have shape : c.body = u ++ blanks ++ d :: (codecMark ++ v) := by
      rw [split, front, ← mark]
      simp only [List.append_assoc, List.singleton_append]
    exact ⟨u ++ blanks, d, v, blank', shape, feedless, closing⟩

/-- A codec that is not a stray one is cut off. -/
theorem takeCodec_rest (tight : c.IsTight) (noStray : ¬ c.HasStrayCodec) :
    takeCodec c.rest = (c.body, c.codec) := by
  cases found : c.codec with
  | none =>
    have uncut : cutCodec? c.body = none := by
      rw [cutCodec?_eq_search]
      refine search_eq_none fun u w split some => ?_
      rw [Option.eq_none_iff_forall_not_mem]
      intro inside isClause
      have isClause' : codecClause? (w ++ codecClause c.codec) = .some inside := by
        rw [found, codecClause_none, List.append_nil]
        exact isClause
      exact noStray (hasStrayCodec_of_codecClause? tight.toIsStripped split some isClause')
    rw [rest, found, codecClause_none, List.append_nil, takeCodec, uncut]
  | some codec =>
    obtain ⟨stripped, single⟩ := tight.codec codec found
    have filled : codec ≠ [] := fun empty => tight.filled (empty ▸ found)
    have isClause : codecClause? (codecClause c.codec) = some codec := by
      rw [found, codecClause_some]
      exact codecClause?_mark (by decide) filled single
    have cut : cutCodec? c.rest = some (c.body, codec) := by
      rw [cutCodec?_eq_search]
      refine search_of_first isClause (by rw [found, codecClause_some]; exact List.cons_ne_nil _ _) ?_
      intro u w split some
      rw [Option.eq_none_iff_forall_not_mem]
      intro inside isClause'
      exact noStray (hasStrayCodec_of_codecClause? tight.toIsStripped split some isClause')
    rw [takeCodec, cut]
    dsimp only
    rw [tight.strip_body, stripped]

/-- What is cut as a JSON path in the type is a stray one. -/
theorem hasStrayPath_of_pathHere? {u w path after : Text} (split : c.type = u ++ w)
    (isPath : pathHere? (w ++ pathClause c.jsonPath) = some (path, after)) : c.HasStrayPath := by
  obtain ⟨begins, filled, absent⟩ := pathHere?_eq_some.mp isPath
  rw [List.append_assoc, List.append_assoc] at begins
  have begins' : pathMark <+: w ++ pathClause c.jsonPath := ⟨_, begins.symm⟩
  obtain ⟨v, rfl⟩ := prefix_of_clause (by decide) (pathClause_spaced _) begins'
  rw [List.append_assoc] at begins
  have behind : v ++ pathClause c.jsonPath = path ++ ("\x60" ++ after) :=
    List.append_cancel_left begins
  refine ⟨u, v, by rw [split, List.append_assoc], ?_, ?_⟩
  · intro first
    obtain ⟨d, path, rfl⟩ := List.exists_cons_of_ne_nil filled
    obtain ⟨e, v, rfl⟩ := List.exists_cons_of_ne_nil (l := v) (by rintro rfl; cases first)
    obtain rfl := Option.some.inj first
    exact absent ((List.cons.inj behind).1 ▸ List.mem_cons_self)
  · intro none
    rw [none, pathClause_none, List.append_nil] at behind
    rw [behind]
    exact List.mem_append_right _ List.mem_cons_self

/-- A JSON path before which no stray one stands is cut out. -/
theorem takePath_head (written : c.IsWritten) (stripped : c.IsStripped) (noStray : ¬ c.HasStrayPath) :
    takePath c.head = (c.type, c.jsonPath) := by
  cases found : c.jsonPath with
  | none =>
    have uncut : cutJsonPath? c.type = none := by
      rw [cutJsonPath?_eq_search]
      refine search_eq_none fun u w split _ => ?_
      rw [Option.eq_none_iff_forall_not_mem]
      intro ⟨path, after⟩ isPath
      have isPath' : pathHere? (w ++ pathClause c.jsonPath) = some (path, after) := by
        rw [found, pathClause_none, List.append_nil]
        exact isPath
      exact noStray (hasStrayPath_of_pathHere? split isPath')
    rw [head, found, pathClause_none, List.append_nil, takePath, uncut]
  | some path =>
    obtain ⟨filled, absent⟩ := written.path path found
    have filled' : path ≠ [] := by
      rintro rfl
      exact filled rfl
    have isPath : pathHere? (pathMark ++ path ++ [backtick]) = some (path, []) :=
      pathHere?_eq_some.mpr ⟨(List.append_nil _).symm, filled', absent⟩
    have cut : cutJsonPath? (c.type ++ [' '] ++ (pathMark ++ path ++ [backtick])) =
        some (c.type ++ [' '], path, []) := by
      rw [cutJsonPath?_eq_search]
      refine search_of_first isPath (List.cons_ne_nil _ _) ?_
      intro u w split some
      rw [Option.eq_none_iff_forall_not_mem]
      intro ⟨path', after⟩ isPath'
      obtain ⟨w, d, rfl⟩ := (List.eq_nil_or_concat' w).resolve_left some
      rw [← List.append_assoc] at split
      obtain ⟨split', last⟩ := List.append_inj' split rfl
      obtain rfl : ' ' = d := List.singleton_inj.mp last
      have isPath'' : pathHere? (w ++ pathClause c.jsonPath) = .some (path', after) := by
        rw [found, pathClause_some]
        rw [List.append_assoc] at isPath'
        exact isPath'
      exact noStray (hasStrayPath_of_pathHere? split' isPath'')
    have shape : c.head = c.type ++ [' '] ++ (pathMark ++ path ++ [backtick]) := by
      rw [head, found, pathClause_some, List.append_assoc c.type, List.singleton_append]
    rw [shape, takePath, cut]
    dsimp only
    rw [List.append_nil, Text.strip_append_blank (by decide), stripped.type.1, stripped.path path found]

end DatafileMigration.Column
