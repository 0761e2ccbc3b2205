import DatafileMigration.Grammar.Error
import DatafileMigration.Text.TopLevel

namespace DatafileMigration.Grammar

/-- The name without backticks or double quotes around it. -/
def unquoteName (name : Text) : Text :=
  match name with
  | c :: rest => if c = Text.backtick || c = '"' then (Text.dropSuffix? [c] rest).getD name else name
  | [] => []

/-- The codec of a text that is blanks, then `CODEC(…)` up to its end. -/
def codecHere? (t : Text) : Option Text := do
  let rest ← Text.dropPrefix? "CODEC(" (Text.stripStart t)
  let inside ← Text.dropSuffix? ")" (Text.stripEnd rest)
  if inside = [] || inside.contains '\n' then none else return inside

/-- What stands before a final codec, and the codec. -/
def cutCodec? : Text → Option (Text × Text)
  | [] => none
  | c :: t =>
    match if Text.isBlank c then codecHere? (c :: t) else none with
    | some codec => some ([], codec)
    | none => (cutCodec? t).map fun (before, codec) => (c :: before, codec)

/-- What stands before the first JSON path between backticks, the path, and what stands behind. -/
def cutJsonPath? : Text → Option (Text × Text × Text)
  | [] => none
  | c :: t =>
    let here := do
      let rest ← Text.dropPrefix? "\x60json:" (c :: t)
      let (path, after) ← Text.cutAt? Text.backtick rest
      if path = [] then none else some (path, after)
    match here with
    | some (path, after) => some ([], path, after)
    | none => (cutJsonPath? t).map fun (before, found) => (c :: before, found)

/-- The word that introduces a default. -/
def defaultMark : Text := " DEFAULT "

/-- The column that a definition writes: a name, a type, and optionally a JSON path, a default and a
codec. The codec is cut off the end first, then the default, then the path. -/
def readColumn (definition : Text) : Except Cause Column := do
  let line := Text.strip definition
  let (name, rest) := Text.cutWord line
  if rest = [] then throw (.columnWithoutRest line)
  let name := unquoteName name
  if name = [] then throw (.columnWithoutName line)
  let (rest, codec) := match cutCodec? rest with
    | some (before, codec) => (Text.strip before, some (Text.strip codec))
    | none => (rest, none)
  let (rest, default) := match Text.findTopLevel? defaultMark rest with
    | some index =>
      (Text.strip (rest.take index), some (Text.strip (rest.drop (index + defaultMark.length))))
    | none => (rest, none)
  let (type, jsonPath) := match cutJsonPath? rest with
    | some (before, path, after) => (Text.strip (before ++ after), some (Text.strip path))
    | none => (rest, none)
  if type = [] then throw (.columnWithoutType line)
  return { name, type, jsonPath, default, codec }

/-- The columns of a schema's lines. Blank lines and lines whose first character that is no blank
is `#` define none. -/
def readSchema (lines : List Text) : Except Cause (List Column) := do
  let kept := lines.filter fun line =>
    Text.strip line ≠ [] && !Text.startsWith "#" (Text.strip line)
  (kept.flatMap Text.splitTopLevel).mapM readColumn

end DatafileMigration.Grammar
