import DatafileMigration.Text.Blank
import DatafileMigration.Text.Case

namespace DatafileMigration.Datafile

/-- The inside of a text whose first and last character is `quote`, if these are two. -/
def insideQuotes? (quote : Char) : Text → Option Text
  | [] => none
  | c :: t => if c = quote then Text.dropSuffix? [quote] t else none

/-- The value without one pair of double quotes around it. -/
def unquote (value : Text) : Text :=
  let trimmed := Text.strip value
  (insideQuotes? '"' trimmed).getD trimmed

/-- The stripped parts between commas; parts of nothing but blanks are left out. -/
def splitCommas (value : Text) : List Text :=
  ((Text.splitOn ',' value).map Text.strip).filter (· ≠ [])

/-- `true` and `1`, `false` and `0`, in any case. -/
def flag? (value : Text) : Option Bool :=
  let word := Text.lower (Text.strip value)
  if word = "true" || word = "1" then some true
  else if word = "false" || word = "0" then some false
  else none

end DatafileMigration.Datafile
