import DatafileMigration.Number.Plain

namespace DatafileMigration

/-- The blanks that may stand around a number. The four separators before the space are none. -/
def isNumberBlank (c : Char) : Bool := Text.isBlank c && !Text.inRanges [(28, 31)] c.toNat

def stripNumber (t : Text) : Text :=
  ((t.dropWhile isNumberBlank).reverse.dropWhile isNumberBlank).reverse

/-- Whether a minus sign stands in front, and what follows the sign. -/
def splitSign : Text → Bool × Text
  | '-' :: t => (true, t)
  | '+' :: t => (false, t)
  | t => (false, t)

/-- The values of digits in groups that single underscores join. -/
def groupedDigits? (t : Text) : Option (List Nat) :=
  let groups := Text.splitOn '_' t
  if groups.any (· = []) then none else PlainNumber.digits? groups.flatten

def signed (negative : Bool) (n : Nat) : Int := if negative then -n else n

/-- An integer of at most the limit of digits. Blanks may stand around it, a sign in front, and
single underscores between its digits. -/
def integer? (t : Text) : Option Int := do
  let (negative, body) := splitSign (stripNumber t)
  let digits ← groupedDigits? body
  if digits.length > integerDigitLimit then none
  else return signed negative (Text.natOfDigits digits)

namespace Binary64

/-- A value that is not finite by its name in small letters. -/
def named? (negative : Bool) (name : Text) : Option Binary64 :=
  if name = "inf" || name = "infinity" then some (.infinite negative)
  else if name = "nan" then some .nan
  else none

/-- Digits that may be missing on one side of the point. -/
def sideDigits? (t : Text) : Option (List Nat) := if t = [] then some [] else groupedDigits? t

/-- The digits on both sides of the point, and how many of them stand behind it. -/
def significand? (t : Text) : Option (List Nat × Nat) := do
  let (whole, fraction) := (Text.cutAt? '.' t).getD (t, [])
  let whole ← sideDigits? whole
  let fraction ← sideDigits? fraction
  if whole ++ fraction = [] then none else return (whole ++ fraction, fraction.length)

/-- The power of ten that an exponent writes. -/
def power? (t : Text) : Option Int := do
  let (negative, body) := splitSign t
  let digits ← groupedDigits? body
  return signed negative (Text.natOfDigits digits)

/-- The number nearest to the decimal that a text writes, or the value that it names. Blanks may
stand around it, a sign in front, and single underscores between digits; one side of the point may
have no digits. -/
def ofText? (t : Text) : Option Binary64 :=
  let (negative, body) := splitSign (stripNumber t)
  let small := body.map Char.toLower
  match named? negative small with
  | some x => some x
  | none => do
    let (front, power) ← match Text.cutAt? 'e' small with
      | some (front, back) => (power? back).map fun power => (front, power)
      | none => some (small, 0)
    let (digits, places) ← significand? front
    return .ofDecimal negative (Text.natOfDigits digits) (power - places)

end Binary64

end DatafileMigration
