import DatafileMigration.Text.Case
import DatafileMigration.Text.Letter

namespace DatafileMigration

/-- The names that a generated module may import, in the order of its import line. -/
def sdkNames : List Text :=
  ["create_kafka_connection", "create_s3_connection", "define_datasource", "define_pipe",
   "define_materialized_view", "define_copy_pipe", "node", "t", "p", "engine", "column"]

/-- Words that can be no identifier. -/
def reservedWords : List Text :=
  List.map String.toList
    ["False", "None", "True", "and", "as", "assert", "async", "await", "break", "class",
     "continue", "def", "del", "elif", "else", "except", "finally", "for", "from", "global",
     "if", "import", "in", "is", "lambda", "nonlocal", "not", "or", "pass", "raise", "return",
     "try", "while", "with", "yield"]

namespace Identifier

/-- An underscore where a small letter or digit meets a capital. -/
def splitCamel : Text → Text
  | c :: d :: t =>
    if (c.isLower || c.isDigit) && d.isUpper then c :: '_' :: splitCamel (d :: t)
    else c :: splitCamel (d :: t)
  | t => t

/-- One underscore for each run of characters that no identifier holds; `inRun` says whether the
character before was such a one. -/
def maskInvalid (inRun : Bool) : Text → Text
  | [] => []
  | c :: t =>
    if Text.isIdentifierChar c then c :: maskInvalid false t
    else if inRun then maskInvalid true t
    else '_' :: maskInvalid true t

/-- One underscore for each run of them. -/
def squeeze : Text → Text
  | c :: d :: t => if c = '_' && d = '_' then squeeze (d :: t) else c :: squeeze (d :: t)
  | t => t

def trimUnderscores (t : Text) : Text :=
  ((t.dropWhile (· = '_')).reverse.dropWhile (· = '_')).reverse

/-- The words of a name in small letters, joined by underscores. -/
def snakeCase (name : Text) : Text :=
  trimUnderscores (squeeze ((maskInvalid false (splitCamel name)).map Char.toLower))

/-- An underscore goes in front of a digit. -/
def guardDigit (t : Text) : Text :=
  match t with
  | c :: _ => if c.isDigit then '_' :: t else t
  | [] => t

/-- An underscore goes behind a word that means something else. -/
def guardReserved (t : Text) : Text :=
  if reservedWords.contains t || sdkNames.contains t then t ++ "_" else t

/-- The identifier for a name: its snake case, kept apart from the names that the module imports and
from the words of its language. -/
def ofName (name : Text) : Text :=
  let snake := snakeCase name
  guardReserved (guardDigit (if snake = [] then "resource" else snake))

end Identifier

end DatafileMigration
