import DatafileMigration.Proofs.Literal.Quoted
import DatafileMigration.Proofs.Template.Options
import DatafileMigration.Proofs.Template.Segments

namespace DatafileMigration.Template

open Text (enclosed strip)

variable {c : Call} {f name d sql type : Text} {ps : List Parameter} {p : Parameter}

namespace Call

/-- A placeholder that holds a call and nothing else. -/
def placed (c : Call) : Text := "\x7b\x7b " ++ c.source ++ " \x7d\x7d"

theorem placed_eq (c : Call) :
    c.placed = (Segment.placeholder (" " ++ c.source ++ " ")).source := by
  have opening : "\x7b\x7b ".toList = "\x7b\x7b".toList ++ " ".toList := rfl
  have closing : " \x7d\x7d".toList = " ".toList ++ "\x7d\x7d".toList := rfl
  unfold placed Segment.source
  rw [opening, closing]
  simp only [List.append_assoc]

namespace IsRead

variable (read : c.IsRead)

include read

theorem strip_source : strip c.source = c.source := by
  rw [Text.strip_eq_self_iff_ends, c.getLast?_source]
  constructor
  · obtain ⟨first, more, spelled⟩ := List.exists_cons_of_ne_nil (Text.isIdentifier_ne_nil read.name)
    have word := Text.isIdentifierChar_of_mem read.name first (spelled ▸ List.mem_cons_self)
    rw [source, spelled]
    rintro _ ⟨⟩
    exact Text.isBlank_of_isIdentifierChar word
  · rintro _ ⟨⟩
    rfl

theorem pieces_source : pieces c.source = [.call c] := by
  have settled : Settled {} [.call c] := .call rfl read .nil
  have equal := settled.piecesOf_eq
  rw [List.flatMap_singleton] at equal
  exact equal

theorem calls_source : calls c.source = [c] := by
  rw [calls, read.pieces_source]
  rfl

theorem normalizeExpression_source : normalizeExpression c.source = c.reduced.source := by
  rw [normalizeExpression_eq read.strip_source, read.pieces_source, List.flatMap_singleton]
  exact c.source_reduced.symm

end IsRead

section Placed

variable (read : c.IsRead) (solid : ∀ d ∈ c.source, isBrace d = false)

include solid

theorem isInside_placed : IsInside (" " ++ c.source ++ " ") := by
  refine ⟨by simp, fun d member => ?_⟩
  have inside : d = ' ' ∨ d ∈ c.source := by
    simpa [or_comm, or_left_comm] using member
  rcases inside with rfl | inside
  · rfl
  · exact solid d inside

theorem segments_placed : segments c.placed = [.placeholder (" " ++ c.source ++ " ")] := by
  have settled := Segment.Settled.placeholder (isInside_placed solid) .nil
  have equal := settled.segments_eq
  rwa [List.flatMap_singleton, ← placed_eq] at equal

include read

theorem expressions_placed : expressions c.placed = [c.source] := by
  have stripped : strip (" " ++ c.source ++ " ") = c.source :=
    (Text.strip_between_blanks (by decide) (by decide) _).trans read.strip_source
  rw [expressions, segments_placed solid]
  exact congrArg ([·]) stripped

theorem queryCalls_placed : queryCalls c.placed = [c] := by
  rw [queryCalls, expressions_placed read solid, List.flatMap_singleton, read.calls_source]

theorem normalize_placed : normalize c.placed = c.reduced.placed := by
  have stripped : strip (" " ++ c.source ++ " ") = c.source :=
    (Text.strip_between_blanks (by decide) (by decide) _).trans read.strip_source
  rw [normalize, segments_placed solid, List.flatMap_singleton, Segment.normalized, stripped,
    read.normalizeExpression_source]
  split
  · rename_i same
    rw [placed_eq, same]
  · rfl

end Placed

end Call

/-- No quote ends a text before its closing one. -/
def IsPlainText (d : Text) : Prop := ∀ c ∈ d, c ≠ '\'' ∧ c ≠ '\\'

theorem mask_of_isPlainText (plain : IsPlainText d) :
    (∀ x ∈ Quotes.mask { inSingle := true } d, isParenthesis x.1 = false) ∧
      Quotes.after { inSingle := true } d = { inSingle := true } := by
  induction d with
  | nil => exact ⟨List.forall_mem_nil _, rfl⟩
  | cons c d ih =>
    obtain ⟨⟨other, still⟩, rest⟩ := List.forall_mem_cons.mp plain
    have next : Quotes.next { inSingle := true } c = { inSingle := true } := by
      simp [Quotes.next, other, still]
    have hidden : isParenthesis (Quotes.seen { inSingle := true } c) = false := by
      rw [Quotes.seen]
      split
      · rfl
      · simp_all [Quotes.isOpen]
    rw [Quotes.mask_cons, Quotes.after_cons, next]
    exact ⟨List.forall_mem_cons.mpr ⟨hidden, (ih rest).1⟩, (ih rest).2⟩

theorem strip_enclosed (d : Text) : strip (enclosed '\'' d) = enclosed '\'' d := by
  have last : (enclosed '\'' d).getLast? = some '\'' := List.getLast?_concat (l := '\'' :: d)
  rw [Text.strip_eq_self_iff_ends, last]
  constructor
  · rintro _ ⟨⟩
    rfl
  · rintro _ ⟨⟩
    rfl

theorem readDefault_enclosed (d : Text) : readDefault (enclosed '\'' d) = .ok (.text d) :=
  readDefault_eq_text_iff.mpr ⟨'\'', .inl rfl, strip_enclosed d⟩

/-- What begins with a quote has no identifier in front of an equals sign. -/
theorem keywordArgument?_enclosed (d : Text) : keywordArgument? (enclosed '\'' d) = none := by
  rw [keywordArgument?]
  cases cut : Text.cutAt? '=' (enclosed '\'' d) with
  | none => rfl
  | some parts =>
    obtain ⟨key, value⟩ := parts
    obtain ⟨whole, _⟩ := Text.cutAt?_eq_some cut
    have quoted : '\'' ∈ key := by
      cases key with
      | nil => cases whole
      | cons first key => exact (List.cons.inj whole).1 ▸ List.mem_cons_self
    have other : Text.isIdentifier (strip key) = false := by
      refine Bool.eq_false_iff.mpr fun identifier => ?_
      have member := Text.mem_strip quoted rfl
      exact absurd (Text.isIdentifierChar_of_mem identifier _ member) (by decide)
    simp [other]

theorem readOptions_enclosed (d : Text) :
    readOptions [enclosed '\'' d] = .ok { default := some (.text d) } := by
  have filled : enclosed '\'' d ≠ [] := List.cons_ne_nil _ _
  have taken : Options.take {} (enclosed '\'' d) = .ok { default := some (.text d) } := by
    rw [Options.take, strip_enclosed, if_neg filled, keywordArgument?_enclosed,
      readDefault_enclosed]
    rfl
  rw [readOptions, List.foldlM_cons, taken]
  rfl

/-- A call that gives a text by its place. -/
def textCall (f name d : Text) : Call :=
  { name := f, gap := [], arguments := name ++ ", " ++ enclosed '\'' d }

section TextCall

variable (function : Text.isIdentifier f) (typed : typeOfFunction? f = some type)
  (scalar : type ≠ "Array") (identifier : Text.isIdentifier name) (plain : IsPlainText d)

include identifier plain in
theorem splitTopLevel_textCall :
    Text.splitTopLevel (textCall f name d).arguments = [name, enclosed '\'' d] := by
  have joined : (textCall f name d).arguments = Text.join ", " [name, enclosed '\'' d] := by
    simp [textCall, Text.join]
  have word : Text.IsPart name := Text.isPart_of_plain fun c member =>
    Text.not_mem_splitMarks_of_isIdentifierChar (Text.isIdentifierChar_of_mem identifier c member)
  have quoted : Text.IsPart (enclosed '\'' d) := Text.isPart_quoted plain
  rw [joined]
  refine Text.splitTopLevel_join ?_ ?_ ?_
  · simp [word.isWhole, quoted.isWhole]
  · simp [Text.strip_of_isIdentifier identifier, strip_enclosed]
  · simp [Text.isIdentifier_ne_nil identifier, enclosed]

include identifier in
/-- Behind the name and its comma no quote is open. -/
theorem mask_name :
    (∀ x ∈ Quotes.mask {} (name ++ ", "), isParenthesis x.1 = false) ∧
      Quotes.after {} (name ++ ", ") = {} := by
  have word := Text.isIdentifierChar_of_mem identifier
  have free : ∀ c ∈ name, c ≠ '\'' ∧ c ≠ '"' := fun c member =>
    not_quote_of_isIdentifierChar (word c member)
  have closed : (Quotes.after {} name).isOpen = false := (Quotes.isOpen_after free).trans rfl
  rw [Quotes.mask_append, Quotes.mask_of_closed rfl free, Quotes.after_append]
  generalize Quotes.after {} name = q at closed
  obtain ⟨single, double, escaped⟩ := q
  obtain ⟨rfl, rfl⟩ : single = false ∧ double = false := by simpa [Quotes.isOpen] using closed
  constructor
  · intro x member
    rcases List.mem_append.mp member with inName | behind
    · obtain ⟨c, isChar, rfl⟩ := List.mem_map.mp inName
      exact isParenthesis_of_isIdentifierChar (word c isChar)
    · have spelled : x = (',', ',') ∨ x = (' ', ' ') := by
        simpa [Quotes.seen, Quotes.isOpen, Quotes.next] using behind
      rcases spelled with rfl | rfl <;> rfl
  · simp [Quotes.next, Quotes.after]

include function identifier plain in
theorem isRead_textCall : (textCall f name d).IsRead := by
  obtain ⟨front, closed⟩ := mask_name identifier
  obtain ⟨inside, still⟩ := mask_of_isPlainText plain
  have opening : Quotes.next {} '\'' = { inSingle := true } := rfl
  have whole : Quotes.mask {} (textCall f name d).arguments = Quotes.mask {} (name ++ ", ") ++
      ('\'', '\'') :: (Quotes.mask { inSingle := true } d ++ [('\'', '\'')]) := by
    rw [textCall, Quotes.mask_append (s := name ++ ", "), closed, enclosed, Quotes.mask_cons,
      opening, Quotes.mask_append (s := d), still]
    rfl
  refine ⟨function, List.forall_mem_nil _, ?_, ?_⟩
  · rw [whole, List.forall_mem_append, List.forall_mem_cons, List.forall_mem_append]
    exact ⟨front, rfl, inside, List.forall_mem_singleton.mpr rfl⟩
  · rw [textCall, Quotes.after_append, closed, enclosed, Quotes.after_cons, opening,
      Quotes.after_append, still]
    rfl

include typed scalar identifier plain in
theorem usage?_textCall : (textCall f name d).usage? =
    .ok (some { name, type, options := { default := some (.text d) } }) := by
  have known : typeOfFunction? (textCall f name d).name = some type := typed
  have calm : (textCall f name d).isRaising = false := Call.isRaising_of_typeOfFunction? known
  rw [Call.usage?]
  simp only [calm, known, splitTopLevel_textCall identifier plain, identifier, if_neg scalar,
    readOptions_enclosed, Bool.false_eq_true, if_false, Bool.not_true]
  rfl

include typed scalar identifier plain in
theorem reduced_textCall :
    (textCall f name d).reduced = { name := f, gap := [], arguments := name } := by
  have known : typeOfFunction? (textCall f name d).name = some type := typed
  have calm : (textCall f name d).isRaising = false := Call.isRaising_of_typeOfFunction? known
  have isTyped : (textCall f name d).isTyped := by
    rw [Call.isTyped, calm, known]
    exact decide_eq_true scalar
  exact Call.reduced_of_some (Call.parameterName?_eq_some.mpr
    ⟨isTyped, identifier, _, splitTopLevel_textCall identifier plain⟩)

end TextCall

theorem subset_of_keywordArgument? {t key value : Text}
    (found : keywordArgument? t = some (key, value)) : value ⊆ t := by
  simp only [keywordArgument?, Option.bind_eq_bind, Option.bind_eq_some_iff] at found
  obtain ⟨⟨before, after⟩, cut, found⟩ := found
  obtain ⟨rfl, _⟩ := Text.cutAt?_eq_some cut
  split at found
  · cases found
    exact fun c member => List.mem_append_right _ (.tail _ (Text.mem_of_mem_strip member))
  · cases found

theorem subset_of_defaultText? {argument t : Text} (found : defaultText? argument = some t) :
    t ⊆ strip argument := by
  rw [defaultText?] at found
  split at found
  · cases found
  · split at found
    · cases found
      exact List.Subset.refl _
    · rename_i keyword
      split at found
      · cases found
        exact subset_of_keywordArgument? keyword
      · cases found

/-- A text that an argument gives stands in it. -/
theorem subset_of_givenDefault? {argument : Text}
    (given : givenDefault? argument = some (.text d)) : d ⊆ argument := by
  obtain ⟨t, found, read⟩ := Option.bind_eq_some_iff.mp given
  obtain ⟨q, _, quoted⟩ := readDefault_eq_text_iff.mp (toOption_eq_some.mp read)
  intro c member
  have inQuotes : c ∈ strip t := by
    rw [quoted]
    exact List.mem_cons_of_mem _ (List.mem_append_left _ member)
  exact Text.mem_of_mem_strip (subset_of_defaultText? found (Text.mem_of_mem_strip inQuotes))

/-- A parameter of a query has no brace in its default. -/
theorem solid_of_default (declared : parameters sql = .ok ps) (member : p ∈ ps)
    (default : p.default = some (.text d)) : ∀ c ∈ d, isBrace c = false := by
  obtain ⟨us, makes, merged⟩ := merged_of_mem declared member
  have last := (getLast?_defaults_of_makes makes).trans (Usage.merged_default merged)
  rw [default] at last
  obtain ⟨c, isCall, given⟩ := List.mem_flatMap.mp (List.mem_of_getLast? last)
  obtain ⟨argument, isArgument, given⟩ := List.mem_filterMap.mp given
  have stands : c.StandsIn sql := mem_queryCalls_iff.mp (List.mem_filter.mp isCall).1
  intro x inDefault
  refine stands.solid x ?_
  have inArgument : x ∈ argument := subset_of_givenDefault? given inDefault
  have inArguments : x ∈ c.arguments := Call.subset_of_mem_saying isArgument inArgument
  simp [Call.source, inArguments]

/-- A placeholder with a call of one name and a text between single quotes. -/
def textPlaceholder (f name d : Text) : Text :=
  "\x7b\x7b " ++ f ++ "(" ++ name ++ ", '" ++ d ++ "') \x7d\x7d"

theorem textPlaceholder_eq (f name d : Text) :
    textPlaceholder f name d = (textCall f name d).placed := by
  have opening : ", '".toList = ", ".toList ++ ['\''] := rfl
  have closing : "') \x7d\x7d".toList = ['\''] ++ (")".toList ++ " \x7d\x7d".toList) := rfl
  unfold textPlaceholder
  rw [opening, closing]
  simp only [Call.placed, Call.source, textCall, enclosed, List.append_assoc, List.nil_append,
    List.cons_append]

theorem placed_bare (f name : Text) : Call.placed { name := f, gap := [], arguments := name } =
    "\x7b\x7b " ++ f ++ "(" ++ name ++ ") \x7d\x7d" := by
  have closing : ") \x7d\x7d".toList = ")".toList ++ " \x7d\x7d".toList := rfl
  have source : (Call.mk f [] name).source = f ++ "(" ++ name ++ ")" :=
    congrArg (· ++ "(".toList ++ name ++ ")".toList) (List.append_nil f)
  unfold Call.placed
  rw [closing, source]
  simp only [List.append_assoc]

theorem solid_of_isIdentifier {t : Text} (identifier : Text.isIdentifier t) :
    ∀ c ∈ t, isBrace c = false := by
  intro c member
  have char := Text.isIdentifierChar_of_mem identifier c member
  rw [isBrace, Bool.or_eq_false_iff, decide_eq_false_iff_not, decide_eq_false_iff_not]
  exact ⟨Text.ne_of_isIdentifierChar char (by decide), Text.ne_of_isIdentifierChar char (by decide)⟩

section TextPlaceholder

variable (function : Text.isIdentifier f) (typed : typeOfFunction? f = some type)
  (scalar : type ≠ "Array") (identifier : Text.isIdentifier name) (plain : IsPlainText d)

include function identifier

theorem solid_source_textCall :
    (∀ x ∈ (textCall f name d).source, isBrace x = false) ↔ ∀ x ∈ d, isBrace x = false := by
  have before := solid_of_isIdentifier function
  have inside := solid_of_isIdentifier identifier
  have whole : (textCall f name d).source = f ++ ('(' :: (name ++ (',' :: ' ' :: '\'' ::
      (d ++ ['\'', ')'])))) := by
    simp [Call.source, textCall, enclosed]
  rw [whole]
  simp only [List.forall_mem_append, List.forall_mem_cons]
  constructor
  · rintro ⟨_, _, _, _, _, _, solid, _⟩
    exact solid
  · intro solid
    exact ⟨before, rfl, inside, rfl, rfl, rfl, solid, rfl, rfl, List.forall_mem_nil _⟩

/-- A placeholder that is put in normal form was one before, so that there was no brace inside. -/
theorem solid_of_normalize (normal : normalize (textPlaceholder f name d) =
    "\x7b\x7b " ++ f ++ "(" ++ name ++ ") \x7d\x7d") : ∀ c ∈ d, isBrace c = false := by
  have solid : ∀ x ∈ (Call.mk f [] name).source, isBrace x = false := by
    have before := solid_of_isIdentifier function
    have inside := solid_of_isIdentifier identifier
    have whole : (Call.mk f [] name).source = f ++ '(' :: (name ++ [')']) := by simp [Call.source]
    rw [whole]
    simp only [List.forall_mem_append, List.forall_mem_cons]
    exact ⟨before, rfl, inside, rfl, List.forall_mem_nil _⟩
  have single := segments_normalize (textPlaceholder f name d)
  rw [normal, ← placed_bare, Call.segments_placed solid, eq_comm, List.map_eq_singleton_iff] at single
  obtain ⟨s, segmented, rewritten⟩ := single
  cases s with
  | plain c => cases rewritten
  | placeholder inside =>
    have settled := Segment.settled_segments (textPlaceholder f name d)
    have whole := flatMap_source_segments (textPlaceholder f name d)
    rw [segmented] at settled whole
    rw [List.flatMap_singleton, textPlaceholder_eq, Call.placed_eq, Segment.source, Segment.source,
      List.append_left_inj, List.append_right_inj] at whole
    subst whole
    intro x member
    refine (settled.isInside List.mem_cons_self).solid x ?_
    simp [Call.source, textCall, enclosed, member]

include typed scalar plain in
theorem parameters_textPlaceholder (solid : ∀ c ∈ d, isBrace c = false) :
    parameters (textPlaceholder f name d) =
      .ok [{ name, type, required := false, default := some (.text d) }] := by
  have calls := Call.queryCalls_placed (isRead_textCall function identifier plain)
    ((solid_source_textCall function identifier).mpr solid)
  have used : usages (textPlaceholder f name d) =
      .ok [{ name, type, options := { default := some (.text d) } }] := by
    rw [usages, textPlaceholder_eq, calls, List.filterMapM_cons,
      usage?_textCall typed scalar identifier plain]
    rfl
  exact parameters_eq_ok.mpr ⟨_, used, List.mergeSort_singleton _⟩

include typed scalar plain in
theorem normalize_textPlaceholder (solid : ∀ c ∈ d, isBrace c = false) :
    normalize (textPlaceholder f name d) = "\x7b\x7b " ++ f ++ "(" ++ name ++ ") \x7d\x7d" := by
  have normal := Call.normalize_placed (isRead_textCall function identifier plain)
    ((solid_source_textCall function identifier).mpr solid)
  rw [textPlaceholder_eq, normal, reduced_textCall typed scalar identifier plain, placed_bare]

end TextPlaceholder

/-- A text default is read, and removed from the normal form, if there is no brace in it. -/
theorem textPlaceholder_is_read_iff (function : Text.isIdentifier f)
    (typed : typeOfFunction? f = some type) (scalar : type ≠ "Array")
    (identifier : Text.isIdentifier name) (plain : IsPlainText d) :
    ((∃ p, parameters (textPlaceholder f name d) = .ok [p] ∧
        p.name = name ∧ p.type = type ∧ p.default = some (.text d)) ↔
      ∀ c ∈ d, isBrace c = false) ∧
    (normalize (textPlaceholder f name d) = "\x7b\x7b " ++ f ++ "(" ++ name ++ ") \x7d\x7d" ↔
      ∀ c ∈ d, isBrace c = false) := by
  refine ⟨⟨?_, fun solid => ?_⟩, solid_of_normalize function identifier, ?_⟩
  · rintro ⟨p, declared, _, _, default⟩
    exact solid_of_default declared List.mem_cons_self default
  · have declared := parameters_textPlaceholder function typed scalar identifier plain solid
    exact ⟨_, declared, rfl, rfl, rfl⟩
  · exact normalize_textPlaceholder function typed scalar identifier plain

/-- A text with commas, parentheses, brackets, an equals sign, a backtick and a double quote. -/
def markedText : Text := "a, (b] = `c\")"

theorem textPlaceholder_is_read_iff_marked :
    ((∃ p, parameters (textPlaceholder "String" "q" markedText) = .ok [p] ∧
        p.name = "q" ∧ p.type = "String" ∧ p.default = some (.text markedText)) ↔
      ∀ c ∈ markedText, isBrace c = false) ∧
    (normalize (textPlaceholder "String" "q" markedText) =
        "\x7b\x7b " ++ "String" ++ "(" ++ "q" ++ ") \x7d\x7d" ↔
      ∀ c ∈ markedText, isBrace c = false) := by
  have plain : IsPlainText markedText := by
    have all : markedText.all fun c => c ≠ '\'' && c ≠ '\\' := by decide +kernel
    simpa [IsPlainText] using all
  exact textPlaceholder_is_read_iff rfl (by decide) (by decide) rfl plain

/-- An empty object as text. -/
theorem textPlaceholder_braces :
    parameters (textPlaceholder "JSON" "payload" "\x7b\x7d") = .ok [] ∧
      normalize (textPlaceholder "JSON" "payload" "\x7b\x7d") =
        textPlaceholder "JSON" "payload" "\x7b\x7d" := by
  have unread : usages (textPlaceholder "JSON" "payload" "\x7b\x7d") = .ok [] := by decide +kernel
  exact ⟨parameters_eq_ok.mpr ⟨[], unread, List.mergeSort_nil⟩, by decide +kernel⟩

end DatafileMigration.Template
