import DatafileMigration.Number.Binary64
import DatafileMigration.Text.Basic

namespace DatafileMigration.Binary64

/-- Whether the decimal `c` times ten to the power `s` lies among the reals that round to
`mantissa` times two to the power `exponent`. These reach half way to both neighbours, the lower
of which is half as far where the mantissa is the least of its exponent; the ends belong to an
even mantissa. All is counted in quarters of the last binary place. -/
def readsBack (mantissa : Nat) (exponent : Int) (c : Nat) (s : Int) : Bool :=
  let quarter := Nat.pow 2 (exponent - 2).toNat * Nat.pow 10 (-s).toNat
  let grid := c * (Nat.pow 10 s.toNat * Nat.pow 2 (2 - exponent).toNat)
  let below := if mantissa = mantissaBound / 2 && exponent > leastExponent then 1 else 2
  let low := (4 * mantissa - below) * quarter
  let high := (4 * mantissa + 2) * quarter
  if mantissa % 2 = 0 then low ≤ grid && grid ≤ high else low < grid && grid < high

/-- The nearest decimal with the given last place that reads back, if one of the two around the
number does. -/
def onGrid? (mantissa : Nat) (exponent : Int) (s : Int) : Option Nat :=
  let value := mantissa * Nat.pow 2 exponent.toNat * Nat.pow 10 (-s).toNat
  let unit := Nat.pow 10 s.toNat * Nat.pow 2 (-exponent).toNat
  let c := value / unit
  match readsBack mantissa exponent c s, readsBack mantissa exponent (c + 1) s with
  | true, true => some (roundHalfEven value unit)
  | true, false => some c
  | false, true => some (c + 1)
  | false, false => none

/-- How many digits stand before the point; zero and less for small numbers. -/
def pointPlace (mantissa : Nat) (exponent : Int) : Int :=
  let value := mantissa * Nat.pow 2 exponent.toNat * Nat.pow 10 400 / Nat.pow 2 (-exponent).toNat
  (Nat.toDigits 10 value).length - 400

/-- The digits of the shortest decimal and the place of its last digit, with grids of `n` digits
and more still to try. -/
def shortestFrom (mantissa : Nat) (exponent : Int) (place : Int) : Nat → Nat → Nat × Int
  | 0, n => (mantissa * Nat.pow 2 exponent.toNat, place - n)
  | tries + 1, n =>
    match onGrid? mantissa exponent (place - n) with
    | some c => (c, place - n)
    | none => shortestFrom mantissa exponent place tries (n + 1)

/-- The shortest decimal: of all decimals that read back as the number those with the fewest digits,
and of these the nearest. Seventeen digits always suffice. -/
def shortest (mantissa : Nat) (exponent : Int) : Nat × Int :=
  shortestFrom mantissa exponent (pointPlace mantissa exponent) 17 1

/-- Where positional notation ends, for a number whose point stands `place` digits into its
digits. -/
def isPositional (place : Int) : Bool := -4 < place && place ≤ 16

/-- Digits with a point set `place` digits into them: positional with at least one digit on both
sides, or one digit before the point and an exponent of at least two digits. -/
def layOut (digits : Text) (place : Int) : Text :=
  if isPositional place then
    if place ≤ 0 then "0." ++ List.replicate (-place).toNat '0' ++ digits
    else if (digits.length : Int) ≤ place then
      digits ++ List.replicate (place.toNat - digits.length) '0' ++ ".0"
    else digits.take place.toNat ++ "." ++ digits.drop place.toNat
  else
    let exponent := place - 1
    let power := Text.ofNat exponent.natAbs
    let lead : Text := if digits.length ≤ 1 then digits else digits.take 1 ++ "." ++ digits.drop 1
    lead ++ "e" ++ (if exponent < 0 then "-" else "+") ++
      (if power.length < 2 then '0' :: power else power)

/-- The shortest text that reads back. -/
def text : Binary64 → Text
  | .nan => "nan"
  | .infinite negative => if negative then "-inf" else "inf"
  | .finite negative mantissa exponent =>
    let sign : Text := if negative then "-" else ""
    if mantissa = 0 then sign ++ "0.0"
    else
      let (c, s) := shortest mantissa exponent
      let digits := Text.ofNat c
      let significant := (digits.reverse.dropWhile (· = '0')).reverse
      sign ++ layOut significant (digits.length + s)

end DatafileMigration.Binary64
