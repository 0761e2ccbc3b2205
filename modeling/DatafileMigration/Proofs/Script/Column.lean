import DatafileMigration.Proofs.Module.Schema
import DatafileMigration.Proofs.Script.Argument
import DatafileMigration.Proofs.Script.ColumnType
import DatafileMigration.Proofs.Text.Join

namespace DatafileMigration

open Script

variable {strict : Bool} {free : Token → Prop}

/-- The comment that says what did not migrate, if there is something. -/
def ColumnExpression.comments (e : ColumnExpression) : List Token :=
  if e.notes = [] then [] else [.comment (' ' :: Text.join "; " e.notes)]

namespace Script

/-- A text that is read as tokens which hold the texts and pass for one value of a dictionary. -/
def Stands (free : Token → Prop) (t : Text) (texts : List Text) : Prop :=
  ∃ tokens, Holds free tokens texts ∧ Spells true t tokens ∧ Passes false tokens

namespace Stands

variable {t u opening : Text} {texts others : List Text} {w : String}

theorem reads (stands : Stands free t texts) : Reads true free t texts := by
  obtain ⟨tokens, holds, spells, _⟩ := stands
  exact spells.reads holds

theorem ofType (type : ColumnType) (digits : ∀ n ∈ type.digits, n.IsDigits) :
    Stands free type.builder type.texts :=
  have forms := type.forms_builder
  ⟨type.tokens, forms.holds digits free, forms.spells digits true, forms.passes false⟩

/-- A function of an object with one argument. -/
theorem modified (object : Stands free t texts) (listed : w ∈ vocabulary)
    (spelled : opening = "." ++ w ++ "(") (argument : Reads true free u others) :
    Stands free (t ++ opening ++ u ++ ")") (texts ++ others) := by
  obtain ⟨tokens, holds, spells, passes⟩ := object
  obtain ⟨more, holds', spells'⟩ := argument.spells
  obtain ⟨some, chars⟩ := isWordChar_of_mem_vocabulary w listed
  have arguments : SpellsAll true [u] [more] := .cons spells' .nil
  have called := (spells.select some (List.all_eq_true.mp chars)).call arguments
  have joined : t ++ opening = t ++ "." ++ w ++ "(" := by
    rw [spelled, ← List.append_assoc, ← List.append_assoc]
  rw [← joined] at called
  have known : Holds free (commas [more]) others := holds'
  refine ⟨_, (holds.select (isFixed_of_mem_vocabulary listed)).call known, called, ?_⟩
  exact (passes.select w).call (List.forall_mem_singleton.mpr spells'.passes)

/-- A column with its path. -/
theorem pathed (object : Stands free t texts) (path : Text) :
    Stands free ("column(" ++ t ++ ", json_path=" ++ Text.quoted path ++ ")") (texts ++ [path]) := by
  obtain ⟨tokens, holds, spells, passes⟩ := object
  have word {w : String} (listed : w ∈ vocabulary) : Holds free [.word w] [] :=
    .singleton (Or.inl (isFixed_of_mem_vocabulary listed))
  have spell {w : String} (listed : w ∈ vocabulary) : Spells true w [.word w] :=
    .word (isWordChar_of_mem_vocabulary w listed).1
      (List.all_eq_true.mp (isWordChar_of_mem_vocabulary w listed).2)
  have mark (c : Char) (fixed : (Token.mark c).isFixed) : Holds free [.mark c] [] :=
    .singleton (Or.inl fixed)
  have keyword := (spell (w := "json_path") (by simp [vocabulary])).append (c := '=') (by decide)
    ((Spells.quoted path).separated (by decide))
  have named := (word (w := "json_path") (by simp [vocabulary])).append
    ((mark '=' (by decide)).append (Holds.string path))
  have called := (spell (w := "column") (by simp [vocabulary])).call
    (.cons spells (.cons keyword .nil))
  have spelled : "column(" ++ t ++ ", json_path=" ++ Text.quoted path ++ ")" = "column" ++ "(" ++
      Text.join ", " [t, "json_path" ++ '=' :: Text.quoted path] ++ ")" := by
    simp [Text.join]
  rw [spelled]
  refine ⟨_, ?_, called, (Passes.word "column").call (List.forall_mem_cons.mpr ⟨passes.mono,
    List.forall_mem_singleton.mpr keyword.passes⟩)⟩
  exact (word (w := "column") (by simp [vocabulary])).call
    (holds.append ((mark ',' (by decide)).append named))

end Stands

end Script

namespace Column

/-- A column whose type and default stand on one line. -/
def IsInline (c : Column) : Prop :=
  c.type.any isLineEnd = false ∧ ∀ default ∈ c.default, default.any isLineEnd = false

/-- An expression that is read, with notes that fit into a comment; none if it is strict. -/
structure ExpressionRead (strict : Bool) (free : Token → Prop) (e : ColumnExpression)
    (texts : List Text) : Prop where
  stands : Stands free e.expression texts
  noted : ∀ note ∈ e.notes, strict = false ∧ note.any isLineEnd = false

variable {c : Column} {e : ColumnExpression} {texts : List Text}

theorem reads_typeExpression (inline : strict ∨ c.IsInline) :
    Yields (fun e => ExpressionRead strict free e c.typeTexts) (c.typeExpression strict) := by
  rw [typeExpression, columnBuilder, typeTexts]
  cases read : ColumnType.read c.type with
  | ok type =>
    exact yields_ok.mpr ⟨.ofType type (ColumnType.isDigits_of_read c.type type read), nofun⟩
  | error unsupported =>
    cases strict with
    | true => exact yields_error
    | false =>
      refine yields_ok.mpr ⟨.ofType (.simple .string) nofun, ?_⟩
      intro note member
      rw [List.mem_singleton.mp member, List.any_append, Bool.or_eq_false_iff]
      exact ⟨rfl, by decide, (inline.resolve_left Bool.false_ne_true).1⟩

theorem reads_withDefault (inline : strict ∨ c.IsInline)
    (read : ExpressionRead strict free e texts) :
    Yields (fun e => ExpressionRead strict free e (texts ++ c.defaultTexts))
      (c.withDefault strict e) := by
  have noted (default : Text) (here : c.default = some default) (cause : RenderError) :
      Yields (fun e => ExpressionRead strict free e (texts ++ []))
        (if strict then .error (.refused cause : Fault RenderError)
          else .ok { e with notes := e.notes ++ ["default not migrated: " ++ default] }) := by
    rw [List.append_nil]
    cases strict with
    | true => exact yields_error
    | false =>
      refine yields_ok.mpr ⟨read.stands, List.forall_mem_append.mpr ⟨read.noted, ?_⟩⟩
      intro note member
      rw [List.mem_singleton.mp member, List.any_append, Bool.or_eq_false_iff]
      exact ⟨rfl, by decide, (inline.resolve_left Bool.false_ne_true).2 default here⟩
  rw [withDefault, defaultTexts]
  cases here : c.default with
  | none =>
    rw [List.append_nil]
    exact yields_ok.mpr read
  | some default =>
    dsimp only
    rw [columnDefault]
    cases valued : defaultValue c.type default c.name with
    | error fault =>
      cases fault with
      | refused cause => exact noted default here cause
      | broken why => exact yields_error
    | ok value =>
      have literal := @Literal.reads_render free true value
      dsimp only [bind, Except.bind]
      cases rendered : value.render with
      | error e => exact noted default here (.ofNotFinite e)
      | ok t =>
        refine yields_ok.mpr ⟨?_, read.noted⟩
        exact read.stands.modified (w := "default") (by simp [vocabulary]) (by decide)
          (literal t rendered)

theorem reads_withCodec {t : Text} (stands : Stands free t texts) :
    Stands free (c.withCodec t) (texts ++ filledTexts c.codec) := by
  rw [withCodec, filledTexts]
  split
  · exact stands.modified (w := "codec") (by simp [vocabulary]) (by decide) (Reads.quoted _)
  · rwa [List.append_nil]

theorem reads_withJsonPath {t : Text} (stands : Stands free t texts) :
    Stands free (c.withJsonPath t) (texts ++ filledTexts c.jsonPath) := by
  rw [withJsonPath, filledTexts]
  split
  · exact stands.pathed _
  · rwa [List.append_nil]

theorem reads_columnExpression (inline : strict ∨ c.IsInline) :
    Yields (fun e => ExpressionRead strict free e
      (c.typeTexts ++ c.defaultTexts ++ filledTexts c.codec ++ filledTexts c.jsonPath))
      (c.columnExpression strict) := by
  rw [columnExpression, yields_bind]
  intro e typed
  rw [yields_bind]
  intro e' defaulted
  have type : ExpressionRead strict free e _ := reads_typeExpression inline e typed
  have read := reads_withDefault inline type e' defaulted
  exact yields_pure.mpr ⟨reads_withJsonPath (reads_withCodec read.stands), read.noted⟩

/-- A column on its line, in front of the other lines of a schema. -/
theorem spells_line {tokens others : List Token} {t : Text}
    (entry : Spells true (Layout.entry c.name e.expression) tokens)
    (inline : ∀ note ∈ e.notes, note.any isLineEnd = false) (rest : Spells true t others) :
    Spells true (c.line e ++ t) (tokens ++ .mark ',' :: (e.comments ++ others)) := by
  rw [line, ColumnExpression.comments]
  by_cases silent : e.notes = []
  · have line := (entry.append (c := ',') (by decide)
      (rest.lineFeed.separated (by decide))).blanks (4 * 2)
    rw [if_pos silent, if_pos silent]
    simp only [List.append_assoc]
    exact line
  · have notes : (Text.join "; " e.notes).any isLineEnd = false :=
      Text.any_join (by decide) inline
    have comment := rest.comment (t := ' ' :: Text.join "; " e.notes) notes
    have line := (entry.append (c := ',') (by decide)
      (comment.blank.blank.separated (by decide))).blanks (4 * 2)
    rw [if_neg silent, if_neg silent]
    simp only [List.append_assoc]
    exact line

/-- A column on its line as what it holds; where not all is migrated, a comment is free to stand. -/
theorem reads_schemaLine (inline : strict ∨ c.IsInline)
    (comments : strict = false → ∀ t, free (.comment t)) {t : Text} {texts : List Text}
    (others : Reads true free t texts) :
    Yields (fun line => Reads true free (line ++ t) (c.texts ++ texts)) (c.schemaLine strict) := by
  intro line written
  obtain ⟨e, expressed, rfl⟩ := schemaLine_eq_ok.mp written
  have read : ExpressionRead strict free e _ := reads_columnExpression inline e expressed
  have entry : Reads true free (Layout.entry c.name e.expression) c.texts := read.stands.reads.entry
  obtain ⟨tokens, holds, spells⟩ := entry.spells
  obtain ⟨more, holds', spells'⟩ := others.spells
  have noted : Holds free e.comments [] := by
    rw [ColumnExpression.comments]
    split
    · exact .nil
    · rename_i some
      obtain ⟨note, member⟩ := List.exists_mem_of_ne_nil _ some
      exact .singleton (Or.inr (comments (read.noted note member).1 _))
  have comma : Holds free [.mark ','] [] := .singleton (Or.inl (by decide))
  have line := c.spells_line spells (fun note member => (read.noted note member).2) spells'
  exact line.reads (holds.append (comma.append (noted.append holds')))

end Column

end DatafileMigration
