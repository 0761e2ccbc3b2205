import DatafileMigration.Module.Datasource
import DatafileMigration.Proofs.Module.Snake
import DatafileMigration.Proofs.Script.Value

namespace DatafileMigration

theorem Identifier.isWordChar_of_isSnakeChar {c : Char} (snake : isSnakeChar c) :
    Text.isWordChar c :=
  Text.isWordChar_of_isIdentifierChar (isIdentifierChar_of_isSnakeChar snake)

namespace Script

variable {inside : Bool} {free : Token → Prop} {naming : Naming} {texts others : List Text}
  {k : String} {t : Text}

theorem Reads.identifier (snake : Identifier.isSnake t) (known : free (.word t)) :
    Reads inside free t [] :=
  word (Or.inr known) (Identifier.isSnake_ne_nil snake) fun c found =>
    Identifier.isWordChar_of_isSnakeChar (Identifier.isSnakeChar_of_mem snake c found)

/-- The opening of a call by a name. -/
theorem Opens.call {f : String} (listed : f ∈ vocabulary) :
    Opens free (f.toList ++ "(") [')'] := by
  obtain ⟨some, chars⟩ := isWordChar_of_mem_vocabulary f listed
  have known : (Token.word f.toList).Known free :=
    Or.inl (isFixed_of_mem_vocabulary listed)
  refine ⟨[.word f.toList] ++ [.mark '('], (Holds.singleton known).append
    (Holds.singleton (Or.inl (by decide))), ?_⟩
  intro r code
  have word := Reader.scan_word (u := []) code some (List.all_eq_true.mp chars)
    (by decide : Delimits '(')
  obtain ⟨mode, brackets, line, lines⟩ := r
  cases code
  exact word.trans rfl

/-- Keyword arguments whose values are read. -/
def ArgumentsRead (naming : Naming) (free : Token → Prop) (arguments : List (Text × Argument))
    (texts : List Text) : Prop :=
  ReadsAll true free (arguments.map fun (key, a) => Layout.keyword key (a.render naming)) texts

/-- Entries of a dictionary whose values are read. -/
def EntriesRead (naming : Naming) (free : Token → Prop) (entries : List (Text × Operand))
    (texts : List Text) : Prop :=
  ReadsAll true free (entries.map fun (key, o) => Layout.entry key (o.render naming)) texts

namespace EntriesRead

variable {entries more : List (Text × Operand)} {o : Operand}

theorem append (first : EntriesRead naming free entries texts)
    (second : EntriesRead naming free more others) :
    EntriesRead naming free (entries ++ more) (texts ++ others) := by
  rw [EntriesRead, List.map_append]
  exact ReadsAll.append first second

/-- An entry under a fixed key, which is no text of the resource. -/
theorem cons {key : Text} (reads : Reads true free (o.render naming) texts)
    (rest : EntriesRead naming free entries others) :
    EntriesRead naming free ((key, o) :: entries) (texts ++ others) :=
  ReadsAll.cons (reads.entry.mono (List.sublist_cons_self key texts)) rest

theorem single {key : Text} (reads : Reads true free (o.render naming) texts) :
    EntriesRead naming free [(key, o)] texts :=
  ReadsAll.singleton (reads.entry.mono (List.sublist_cons_self key texts))

/-- An entry without a text, if it is there at all. -/
theorem flag {condition : Bool} {key value : Text} (reads : Reads true free value []) :
    EntriesRead naming free (Operand.when condition key value) [] := by
  cases condition with
  | true => exact single reads
  | false => exact ReadsAll.nil

theorem filled {key : Text} {t : Option Text} :
    EntriesRead naming free (Operand.filled key t) (filledTexts t) := by
  rw [Operand.filled, filledTexts]
  cases isFilled t with
  | true => exact single (Reads.quoted _)
  | false => exact ReadsAll.nil

theorem dict (read : EntriesRead naming free entries texts) :
    Reads inside free ((Argument.dict entries).render naming) texts := by
  rw [Argument.render, Layout.dict, List.map_map]
  exact ReadsAll.block (c := '\x7d') read (.fragment (by decide)) (by decide) 1

end EntriesRead

namespace ArgumentsRead

variable {arguments more : List (Text × Argument)} {a : Argument}

theorem append (first : ArgumentsRead naming free arguments texts)
    (second : ArgumentsRead naming free more others) :
    ArgumentsRead naming free (arguments ++ more) (texts ++ others) := by
  rw [ArgumentsRead, List.map_append]
  exact ReadsAll.append first second

theorem cons (listed : k ∈ vocabulary) (reads : Reads true free (a.render naming) texts)
    (rest : ArgumentsRead naming free arguments others) :
    ArgumentsRead naming free ((k.toList, a) :: arguments) (texts ++ others) :=
  ReadsAll.cons (reads.keyword listed) rest

theorem single (listed : k ∈ vocabulary) (reads : Reads true free (a.render naming) texts) :
    ArgumentsRead naming free [(k.toList, a)] texts :=
  ReadsAll.singleton (reads.keyword listed)

/-- An argument that is there if there are texts to write. -/
theorem when {condition : Bool} (listed : k ∈ vocabulary)
    (present : condition → Reads true free (a.render naming) texts)
    (absent : condition = false → texts = []) :
    ArgumentsRead naming free (Argument.when condition k a) texts := by
  cases condition with
  | true => exact single listed (present rfl)
  | false =>
    rw [absent rfl]
    exact ReadsAll.nil

theorem flag {condition : Bool} (listed : k ∈ vocabulary)
    (reads : Reads true free (a.render naming) []) :
    ArgumentsRead naming free (Argument.when condition k a) [] :=
  when listed (fun _ => reads) fun _ => rfl

theorem filled {t : Option Text} (listed : k ∈ vocabulary) :
    ArgumentsRead naming free (Argument.filled k t) (filledTexts t) := by
  refine when listed (fun some => ?_) fun none => ?_
  · rw [filledTexts, if_pos some]
    exact Reads.quoted _
  · rw [filledTexts, if_neg (Bool.eq_false_iff.mp none)]

end ArgumentsRead

end Script

open Script

namespace Statement

variable {s : Statement} {naming : Naming}

/-- The call that a statement assigns. -/
def callText (naming : Naming) (s : Statement) : Text :=
  Layout.call 0 s.function (Text.quoted s.name
    :: s.arguments.map fun (key, a) => Layout.keyword key (a.render naming))

/-- A statement is read as one line: its identifier, an equals sign, and a call. Comments that
stand in front of it are on this line. -/
theorem scan_of_spells {tokens : List Token} (snake : Identifier.isSnake (naming s.kind s.name))
    (spells : Spells false (s.callText naming) tokens) (before : List Token)
    (lines : List (List Token)) :
    Reader.scan { line := before, lines } (s.render naming) =
      some { lines := (before.reverse ++ .word (naming s.kind s.name) :: .mark '=' :: tokens)
        :: lines } := by
  have word := Reader.scan_word (r := { line := before, lines }) (c := ' ')
    (u := "= ".toList ++ (s.callText naming ++ ['\n'])) rfl
    (Identifier.isSnake_ne_nil snake) (fun c found =>
      Identifier.isWordChar_of_isSnakeChar (Identifier.isSnakeChar_of_mem snake c found))
    (by decide)
  have marked := spells
    { line := .mark '=' :: .word (naming s.kind s.name) :: before, lines } ⟨rfl, nofun⟩ '\n' []
    (by decide)
  have solid : (tokens.reverse ++ .mark '=' :: .word (naming s.kind s.name) :: before).all
      Token.isComment = false := by
    rw [List.all_append]
    exact Bool.and_false _
  have ended := Reader.scan_endLine solid lines
  rw [List.reverse_append, List.reverse_reverse, List.reverse_cons, List.reverse_cons,
    List.append_assoc, List.append_assoc] at ended
  rw [Statement.render, List.append_assoc, List.append_assoc]
  exact word.trans (marked.trans ended)

/-- The tokens of the call hold the texts of the statement. -/
theorem scan_render {free : Token → Prop} {texts : List Text} {f : String}
    (function : s.function = f.toList) (listed : f ∈ vocabulary)
    (snake : Identifier.isSnake (naming s.kind s.name))
    (read : ArgumentsRead naming free s.arguments texts) :
    ∃ tokens, Holds free tokens (s.name :: texts) ∧ ∀ before lines,
      Reader.scan { line := before, lines } (s.render naming) =
        some { lines := (before.reverse ++ .word (naming s.kind s.name) :: .mark '=' :: tokens)
          :: lines } := by
  have call : Reads false free (s.callText naming) (s.name :: texts) := by
    rw [callText, function]
    exact (ReadsAll.cons (Reads.quoted s.name) read).block (c := ')') (.call listed) (by decide) 0
  obtain ⟨tokens, holds, spells⟩ := call.spells
  exact ⟨tokens, holds, scan_of_spells snake spells⟩

end Statement

end DatafileMigration
