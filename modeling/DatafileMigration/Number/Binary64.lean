namespace DatafileMigration

/-- A number of 64 bits. A finite one is `mantissa` times two to the power `exponent`, with a
mantissa below 2 to the 53rd and an exponent from -1074 to 971; its sign counts for zero too. -/
inductive Binary64 where
  | finite (negative : Bool) (mantissa : Nat) (exponent : Int)
  | infinite (negative : Bool)
  | nan
  deriving DecidableEq, Repr

namespace Binary64

/-- Mantissas stay below this bound and, but for the least exponent, reach half of it. -/
def mantissaBound : Nat := Nat.pow 2 53

def leastExponent : Int := -1074

def greatestExponent : Int := 971

/-- The natural number nearest to a quotient; of two, the even one. -/
def roundHalfEven (num den : Nat) : Nat :=
  let q := num / den
  let twice := 2 * (num % den)
  if twice < den then q
  else if den < twice then q + 1
  else q + q % 2

/-- A quotient divided by two to the power `q`, as a quotient. -/
def scale (num den : Nat) (q : Int) : Nat × Nat :=
  (num * Nat.pow 2 (-q).toNat, den * Nat.pow 2 q.toNat)

/-- The number nearest to a quotient, ties to the even mantissa; too large a quotient gives
infinity. -/
def ofRatio (negative : Bool) (num den : Nat) : Binary64 :=
  if num = 0 then .finite negative 0 leastExponent
  else
    let guess : Int := Nat.log2 num - Nat.log2 den - 52
    let (n, d) := scale num den guess
    let exponent := max leastExponent (if n / d < mantissaBound / 2 then guess - 1 else guess)
    let (n, d) := scale num den exponent
    let rounded := roundHalfEven n d
    let (mantissa, exponent) :=
      if rounded = mantissaBound then (mantissaBound / 2, exponent + 1) else (rounded, exponent)
    if exponent > greatestExponent then .infinite negative
    else .finite negative mantissa exponent

/-- The number nearest to `n` times ten to the power `e`. Where `n` has `k` digits the value is
below ten to the power `k + e`, so exponents far out are answered without the power. -/
def ofDecimal (negative : Bool) (n : Nat) (e : Int) : Binary64 :=
  let order : Int := (Nat.toDigits 10 n).length + e
  if n = 0 || order < -400 then .finite negative 0 leastExponent
  else if order > 400 then .infinite negative
  else ofRatio negative (n * Nat.pow 10 e.toNat) (Nat.pow 10 (-e).toNat)

/-- The integer that a number is, if it is one. -/
def toInt? : Binary64 → Option Int
  | .finite negative mantissa exponent =>
    let num := mantissa * Nat.pow 2 exponent.toNat
    let den := Nat.pow 2 (-exponent).toNat
    if num % den ≠ 0 then none
    else some (if negative then -(num / den : Nat) else (num / den : Nat))
  | _ => none

end Binary64

end DatafileMigration
