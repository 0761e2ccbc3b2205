import DatafileMigration.Query.Keyword
import DatafileMigration.Text.TopLevel

namespace DatafileMigration.Query

/-- Whether a keyword is the given word. -/
def Keyword.is (word : Text) (k : Keyword) : Bool := k.word = word

/-- The bounds of the text between the first `SELECT` and the next `FROM`. -/
def selectBounds? (words : List Keyword) : Option (Nat × Nat) := do
  let select ← words.find? (Keyword.is "SELECT")
  let after := (words.dropWhile (!Keyword.is "SELECT" ·)).drop 1
  let source ← after.find? (Keyword.is "FROM")
  return (select.finish, source.start)

def selectList? (sql : Text) : Except Breakdown (Option Text) :=
  (keywords sql).map fun words =>
    (selectBounds? words).map fun (start, finish) => Text.strip ((sql.take finish).drop start)

/-- Letters beyond ASCII that differ from an ASCII letter in case alone. -/
def asciiCaseVariants : List (Char × Char) :=
  [(Char.ofNat 304, 'i'), (Char.ofNat 305, 'i'), (Char.ofNat 383, 's'), (Char.ofNat 8490, 'k')]

/-- The small ASCII letter that a character is in any case. -/
def foldCase (c : Char) : Char :=
  ((asciiCaseVariants.find? (·.1 = c)).map (·.2)).getD c.toLower

/-- What follows a word, in any case, at the beginning of a text. -/
def dropWord? (word t : Text) : Option Text :=
  if (t.take word.length).map foldCase = word then some (t.drop word.length) else none

def dropQuote (t : Text) : Text :=
  match t with
  | c :: rest => if c = '\x60' || c = '"' then rest else t
  | [] => t

/-- A name, maybe in quotes, that reaches to the end of a text but for blanks; `fold` is applied
to its characters when they are tested. -/
def finalName? (fold : Char → Char) (t : Text) : Option Text :=
  let body := dropQuote t
  let name := body.takeWhile fun c => Text.isIdentifierChar (fold c)
  let rest := dropQuote (body.dropWhile fun c => Text.isIdentifierChar (fold c))
  match name with
  | [] => none
  | c :: _ => if Text.isIdentifierStart (fold c) && Text.isBlankText rest then some name else none

/-- The name behind an `AS` with which a text begins after blanks. -/
def aliasHere? (t : Text) : Option Text := do
  let (c :: _) := t | none
  if !Text.isBlank c then none
  let rest ← dropWord? "as" (Text.stripStart t)
  let (d :: _) := rest | none
  if !Text.isBlank d then none
  finalName? foldCase (Text.stripStart rest)

/-- The alias of an expression: the name behind the first `AS` that nothing but a name follows. -/
def alias? : Text → Option Text
  | [] => none
  | c :: t => aliasHere? (c :: t) <|> alias? t

/-- The name behind the first point that nothing but a name follows. -/
def nameBehindPoint? : Text → Option Text
  | [] => none
  | c :: t => (if c = '.' then finalName? id t else none) <|> nameBehindPoint? t

/-- The name of a plain column, without what qualifies it. -/
def plainName? (t : Text) : Option Text := finalName? id t <|> nameBehindPoint? t

/-- The name of the column at a position; none for a star. -/
def columnName? (position : Nat) (expression : Text) : Option Text :=
  if expression = "*" || Text.endsWith ".*" expression then none
  else match alias? expression with
    | some name => some name
    | none =>
      let plain := if Text.endsWith ")" expression then none else plainName? expression
      some (plain.getD ("column_" ++ Text.ofNat position))

/-- The list without a leading `DISTINCT`. -/
def dropDistinct (t : Text) : Text :=
  match dropWord? "distinct" t with
  | some (c :: rest) => if Text.isBlank c then Text.stripStart rest else t
  | _ => t

/-- The names of a select list; a repeated name keeps its first place. -/
def columnNames (selectList : Text) : List Text :=
  let parts := Text.splitTopLevel (dropDistinct selectList)
  let named := parts.zipIdx 1 |>.filterMap fun (part, position) => columnName? position part
  named.foldl (fun known name => if known.contains name then known else known ++ [name]) []

/-- The names of the columns that a query returns, as far as its text shows them, read off its first
select list. -/
def outputColumns (sql : Text) : Except Breakdown (List Text) :=
  (selectList? sql).map fun
    | none => []
    | some selectList => columnNames selectList

end DatafileMigration.Query
