import DatafileMigration.Literal.Basic
import DatafileMigration.Text.Blank
import DatafileMigration.Text.Digit

namespace DatafileMigration

/-- Digits of any script with an optional minus sign and an optional fraction. -/
structure PlainNumber where
  negative : Bool
  whole : List Nat
  fraction : Option (List Nat)
  deriving DecidableEq, Repr

/-- Integers of more digits are not read. -/
def integerDigitLimit : Nat := 4300

namespace PlainNumber

def digits? (t : Text) : Option (List Nat) :=
  if t = [] then none else t.mapM Text.digitValue?

/-- An optional minus sign, digits, and optionally a point and digits. -/
def ofText? (t : Text) : Option PlainNumber :=
  let (negative, body) := match t with
    | '-' :: rest => (true, rest)
    | _ => (false, t)
  match Text.cutAt? '.' body with
  | none => (digits? body).map fun whole => ⟨negative, whole, none⟩
  | some (whole, fraction) => do
    let whole ← digits? whole
    let fraction ← digits? fraction
    return ⟨negative, whole, some fraction⟩

/-- The number that is written: an integer, or with a fraction the floating-point number nearest
to it. -/
def value (x : PlainNumber) : Except Breakdown Scalar :=
  match x.fraction with
  | none =>
    if x.whole.length > integerDigitLimit then .error .longInteger
    else
      let n : Int := Text.natOfDigits x.whole
      .ok (.int (if x.negative then -n else n))
  | some fraction =>
    .ok (.float (.ofDecimal x.negative (Text.natOfDigits (x.whole ++ fraction)) (-fraction.length)))

end PlainNumber

end DatafileMigration
