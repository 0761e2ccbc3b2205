import DatafileMigration.Literal.Basic
import DatafileMigration.Number.Plain

namespace DatafileMigration.Literal

def isJsonBlank (c : Char) : Bool := c = ' ' || c = '\t' || c = '\n' || c = '\r'

def skipBlanks (t : Text) : Text := t.dropWhile isJsonBlank

def hexValue? (c : Char) : Option Nat :=
  if c.isDigit then some (c.toNat - 48)
  else if 'a' ≤ c && c ≤ 'f' then some (c.toNat - 87)
  else if 'A' ≤ c && c ≤ 'F' then some (c.toNat - 55)
  else none

/-- The number that four hexadecimal digits write. -/
def hexCode? : Text → Option (Nat × Text)
  | a :: b :: c :: d :: t => do
    let a ← hexValue? a
    let b ← hexValue? b
    let c ← hexValue? c
    let d ← hexValue? d
    return (((a * 16 + b) * 16 + c) * 16 + d, t)
  | _ => none

/-- The character of a code after an escape. A high surrogate needs a low one behind it: a text of
this library has no lone surrogates, so that an escape that would write one is refused, though the
notation allows for it. -/
def escapedCode? (code : Nat) (t : Text) : Option (Char × Text) :=
  if 55296 ≤ code && code ≤ 56319 then
    match t with
    | '\\' :: 'u' :: rest => do
      let (low, rest) ← hexCode? rest
      if 56320 ≤ low && low ≤ 57343 then
        return (Char.ofNat (65536 + (code - 55296) * 1024 + (low - 56320)), rest)
      else none
    | _ => none
  else if 56320 ≤ code && code ≤ 57343 then none
  else some (Char.ofNat code, t)

/-- The character that an escape letter stands for. -/
def escapeLetter? (c : Char) : Option Char :=
  if c = '"' || c = '\\' || c = '/' then some c
  else if c = 'b' then some (Char.ofNat 8)
  else if c = 'f' then some (Char.ofNat 12)
  else if c = 'n' then some '\n'
  else if c = 'r' then some '\r'
  else if c = 't' then some '\t'
  else none

/-- The inside of a string up to its closing quote. -/
def readString : Nat → Text → Option (Text × Text)
  | 0, _ => none
  | _, [] => none
  | fuel + 1, c :: t =>
    if c = '"' then some ([], t)
    else if c = '\\' then
      match t with
      | [] => none
      | 'u' :: t => do
        let (code, t) ← hexCode? t
        let (c, t) ← escapedCode? code t
        let (rest, t) ← readString fuel t
        return (c :: rest, t)
      | e :: t => do
        let c ← escapeLetter? e
        let (rest, t) ← readString fuel t
        return (c :: rest, t)
    else if c.toNat < 32 then none
    else do
      let (rest, t) ← readString fuel t
      return (c :: rest, t)

def asciiDigits (t : Text) : Text × Text := (t.takeWhile Char.isDigit, t.dropWhile Char.isDigit)

/-- The digits after a point, if any stand there. -/
def readFraction (t : Text) : Option (Text × Text) :=
  match t with
  | '.' :: rest =>
    let (digits, after) := asciiDigits rest
    if digits = [] then none else some (digits, after)
  | _ => none

/-- The exponent, if a complete one stands there. -/
def readExponent (t : Text) : Option (Int × Text) :=
  match t with
  | c :: rest =>
    if c = 'e' || c = 'E' then
      let (negative, body) := match rest with
        | '-' :: body => (true, body)
        | '+' :: body => (false, body)
        | _ => (false, rest)
      let (digits, after) := asciiDigits body
      if digits = [] then none
      else
        let n : Int := Text.natOfDigits (digits.filterMap Text.digitValue?)
        some (if negative then -n else n, after)
    else none
  | [] => none

/-- A number whose integer part has no superfluous zero in front. -/
def readNumber (t : Text) : Option (Scalar × Text) :=
  let (negative, body) := match t with
    | '-' :: rest => (true, rest)
    | _ => (false, t)
  let (whole, after) := match body with
    | '0' :: rest => (['0'], rest)
    | _ => asciiDigits body
  if whole = [] then none
  else
    let fraction := readFraction after
    let (places, after) := fraction.getD ([], after)
    let exponent := readExponent after
    let (power, after) := exponent.getD (0, after)
    if fraction.isNone && exponent.isNone then
      match (PlainNumber.mk negative (whole.filterMap Text.digitValue?) none).value with
      | .ok n => some (n, after)
      | .error _ => none
    else
      let n := Text.natOfDigits ((whole ++ places).filterMap Text.digitValue?)
      some (.float (.ofDecimal negative n (power - places.length)), after)

/-- The words that stand for values. -/
def namedValues : List (Text × Literal) :=
  [("null", .null), ("true", .bool true), ("false", .bool false),
   ("NaN", .scalar (.float .nan)), ("Infinity", .scalar (.float (.infinite false))),
   ("-Infinity", .scalar (.float (.infinite true)))]

def readNamed (t : Text) : Option (Literal × Text) :=
  namedValues.findSome? fun (name, value) => (Text.dropPrefix? name t).map (value, ·)

mutual

/-- A value; the fuel bounds the characters still to read. -/
def readValue : Nat → Text → Option (Literal × Text)
  | 0, _ => none
  | fuel + 1, t =>
    match t with
    | '"' :: rest => (readString fuel rest).map fun (s, after) => (.text s, after)
    | '[' :: rest =>
      match skipBlanks rest with
      | ']' :: after => some (.list [], after)
      | items => (readItems fuel items).map fun (values, after) => (.list values, after)
    | '\x7b' :: rest =>
      match skipBlanks rest with
      | '\x7d' :: after => some (.dict [], after)
      | entries => (readEntries fuel [] entries).map fun (values, after) => (.dict values, after)
    | _ =>
      match readNamed t with
      | some found => some found
      | none => (readNumber t).map fun (x, after) => (.scalar x, after)

/-- The items of a list from the first character of one on. -/
def readItems : Nat → Text → Option (List Literal × Text)
  | 0, _ => none
  | fuel + 1, t => do
    let (value, after) ← readValue fuel t
    match skipBlanks after with
    | ']' :: rest => return ([value], rest)
    | ',' :: rest =>
      let (values, rest) ← readItems fuel (skipBlanks rest)
      return (value :: values, rest)
    | _ => none

/-- The entries of a dictionary from the quote of a key on, put to those already read. -/
def readEntries : Nat → List (Text × Literal) → Text → Option (List (Text × Literal) × Text)
  | 0, _, _ => none
  | fuel + 1, known, t =>
    match t with
    | '"' :: rest => do
      let (key, after) ← readString fuel rest
      match skipBlanks after with
      | ':' :: rest =>
        let (value, after) ← readValue fuel (skipBlanks rest)
        let known := putEntry key value known
        match skipBlanks after with
        | '\x7d' :: rest => return (known, rest)
        | ',' :: rest => readEntries fuel known (skipBlanks rest)
        | _ => none
      | _ => none
    | _ => none

end

/-- The value that a whole text writes in the notation of JSON, where `NaN`, `Infinity` and
`-Infinity` count as numbers, the last value of a repeated key stands in the key's first place, and
integers beyond the digit limit are refused. -/
def ofJson? (t : Text) : Option Literal :=
  match readValue (2 * t.length + 2) (skipBlanks t) with
  | some (value, after) => if skipBlanks after = [] then some value else none
  | none => none

end DatafileMigration.Literal
