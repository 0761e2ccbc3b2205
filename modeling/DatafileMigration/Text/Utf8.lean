import DatafileMigration.Text.Printable

namespace DatafileMigration.Text

abbrev Octets := List UInt8

def encodeChar (c : Char) : Octets := String.utf8EncodeChar c

def encode (t : Text) : Octets := t.flatMap encodeChar

inductive Utf8Cause where
  | start
  | continuation
  | ended
  deriving DecidableEq, Repr

/-- Octets that are no character: the first of them, its position, and how many there are. -/
structure Utf8Error where
  octet : UInt8
  position : Nat
  count : Nat
  cause : Utf8Cause
  deriving DecidableEq, Repr

def Utf8Cause.message : Utf8Cause → Text
  | start => "invalid start byte"
  | continuation => "invalid continuation byte"
  | ended => "unexpected end of data"

def Utf8Error.message (e : Utf8Error) : Text :=
  let place : Text :=
    if e.count = 1 then "byte 0x" ++ hex 2 e.octet.toNat ++ " in position " ++ ofNat e.position
    else "bytes in position " ++ ofNat e.position ++ "-" ++ ofNat (e.position + e.count - 1)
  "'utf-8' codec can't decode " ++ place ++ ": " ++ e.cause.message

/-- How many octets follow a first one, and between which limits the next one lies. -/
def continuation? (first : UInt8) : Option (Nat × UInt8 × UInt8) :=
  if first < 0x80 then some (0, 0x80, 0xBF)
  else if first < 0xC2 then none
  else if first < 0xE0 then some (1, 0x80, 0xBF)
  else if first = 0xE0 then some (2, 0xA0, 0xBF)
  else if first = 0xED then some (2, 0x80, 0x9F)
  else if first < 0xF0 then some (2, 0x80, 0xBF)
  else if first = 0xF0 then some (3, 0x90, 0xBF)
  else if first < 0xF4 then some (3, 0x80, 0xBF)
  else if first = 0xF4 then some (3, 0x80, 0x8F)
  else none

/-- The bits that a first octet gives to its character. -/
def leadBits (first : UInt8) : Nat :=
  if first < 0x80 then first.toNat
  else if first < 0xE0 then first.toNat % 0x20
  else if first < 0xF0 then first.toNat % 0x10
  else first.toNat % 0x08

/-- The code point when `more` octets follow, the next one between the limits, and what is left.
An error tells how many octets were right. -/
def takeRest (code right : Nat) : Nat → UInt8 → UInt8 → Octets →
    Except (Nat × Utf8Cause) (Nat × Octets)
  | 0, _, _, rest => .ok (code, rest)
  | _ + 1, _, _, [] => .error (right, .ended)
  | more + 1, low, high, b :: rest =>
    if low ≤ b && b ≤ high then
      takeRest (code * 0x40 + b.toNat % 0x40) (right + 1) more 0x80 0xBF rest
    else .error (right, .continuation)

theorem length_le_of_takeRest {code right more : Nat} {low high : UInt8} {bs rest : Octets}
    {n : Nat} (h : takeRest code right more low high bs = .ok (n, rest)) :
    rest.length ≤ bs.length := by
  induction more generalizing code right low high bs with
  | zero =>
    simp only [takeRest, Except.ok.injEq, Prod.mk.injEq] at h
    exact Nat.le_of_eq (congrArg List.length h.2.symm)
  | succ more ih =>
    cases bs with
    | nil => simp [takeRest] at h
    | cons b bs =>
      rw [takeRest] at h
      split at h
      · exact Nat.le_succ_of_le (ih h)
      · cases h

/-- The text of octets that stand at a position. A sequence is refused at the first octet that can
continue no character; the refusal names the octets from the beginning of that character up to
there. -/
def decodeAt (position : Nat) : Octets → Except Utf8Error Text
  | [] => .ok []
  | b :: bs =>
    match continuation? b with
    | none => .error { octet := b, position, count := 1, cause := .start }
    | some (more, low, high) =>
      match _h : takeRest (leadBits b) 1 more low high bs with
      | .error (count, cause) => .error { octet := b, position, count, cause }
      | .ok (code, rest) => (decodeAt (position + 1 + more) rest).map (Char.ofNat code :: ·)
termination_by bs => bs.length
decreasing_by
  have := length_le_of_takeRest _h
  simp
  omega

def decode (bs : Octets) : Except Utf8Error Text := decodeAt 0 bs

/-- Every end of a line, be it a carriage return, a line feed or both, is one line feed. -/
def lineFeeds : Text → Text
  | '\r' :: '\n' :: t => '\n' :: lineFeeds t
  | '\r' :: t => '\n' :: lineFeeds t
  | c :: t => c :: lineFeeds t
  | [] => []

end DatafileMigration.Text
