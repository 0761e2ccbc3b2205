import DatafileMigration.Text.Basic

namespace DatafileMigration.Text

def hexDigit (n : Nat) : Char := Char.ofNat (if n < 10 then 48 + n else 87 + n)

/-- How a character stands between double quotes. -/
def quotedChar (c : Char) : Text :=
  if c = '"' || c = '\\' then ['\\', c]
  else if c = '\n' then ['\\', 'n']
  else if c = '\r' then ['\\', 'r']
  else if c = '\t' then ['\\', 't']
  else if c.toNat = 8 then ['\\', 'b']
  else if c.toNat = 12 then ['\\', 'f']
  else if c.toNat < 32 then ['\\', 'u', '0', '0', hexDigit (c.toNat / 16), hexDigit (c.toNat % 16)]
  else [c]

/-- The text as one double-quoted line: a quote and a backslash stand behind a backslash, control
characters stand as an escape, and all else stands for itself. -/
def quoted (t : Text) : Text := '"' :: t.flatMap quotedChar ++ ['"']

/-- How a character stands between tripled double quotes, where lines keep their layout. -/
def layoutChar (c : Char) : Text := if c = '"' || c = '\\' then ['\\', c] else [c]

/-- Text of one line double-quoted, text of several lines between tripled double quotes. -/
def quotedLines (t : Text) : Text :=
  if t.contains '\n' then "\"\"\"" ++ t.flatMap layoutChar ++ "\"\"\"" else quoted t

end DatafileMigration.Text
