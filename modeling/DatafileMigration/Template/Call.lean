import DatafileMigration.Text.Blank
import DatafileMigration.Text.Letter

namespace DatafileMigration.Template

/-- A name, an opening parenthesis, arguments without parentheses, and the closing one. Parentheses
inside quotes count for nothing. -/
structure Call where
  name : Text
  gap : Text
  arguments : Text
  deriving DecidableEq, Repr

def Call.source (c : Call) : Text := c.name ++ c.gap ++ "(" ++ c.arguments ++ ")"

/-- Each character together with what the call reader sees in its place: parentheses inside
quotes look like spaces. A backslash keeps a quote from counting. -/
def mask (inSingle inDouble escaped : Bool) : Text → List (Char × Char)
  | [] => []
  | c :: t =>
    let following := c == '\\'
    if c = '\'' && !inDouble && !escaped then (c, c) :: mask (!inSingle) inDouble following t
    else if c = '"' && !inSingle && !escaped then (c, c) :: mask inSingle (!inDouble) following t
    else if (inSingle || inDouble) && (c = '(' || c = ')') then
      (' ', c) :: mask inSingle inDouble following t
    else (c, c) :: mask inSingle inDouble following t

def isParenthesis (c : Char) : Bool := c = '(' || c = ')'

/-- The call with which masked text begins, and the rest. -/
def callAt? (t : List (Char × Char)) : Option (Call × List (Char × Char)) :=
  match t with
  | [] => none
  | (seen, _) :: _ =>
    if !Text.isIdentifierStart seen then none
    else
      let afterName := t.dropWhile (Text.isIdentifierChar ·.1)
      match afterName.dropWhile (Text.isBlank ·.1) with
      | ('(', _) :: inside =>
        match inside.dropWhile (!isParenthesis ·.1) with
        | (')', _) :: rest =>
          some ({ name := (t.takeWhile (Text.isIdentifierChar ·.1)).map (·.2)
                  gap := (afterName.takeWhile (Text.isBlank ·.1)).map (·.2)
                  arguments := (inside.takeWhile (!isParenthesis ·.1)).map (·.2) }, rest)
        | _ => none
      | _ => none

theorem length_lt_of_callAt? {t rest : List (Char × Char)} {c : Call}
    (h : callAt? t = some (c, rest)) : rest.length < t.length := by
  unfold callAt? at h
  split at h
  · cases h
  · rename_i seen shown tail
    split at h
    · cases h
    · simp only at h
      split at h
      · rename_i inside hinside
        split at h
        · rename_i after hafter
          cases h
          have h1 := (List.dropWhile_sublist (l := (seen, shown) :: tail)
            (Text.isIdentifierChar ·.1)).length_le
          have h2 := (List.dropWhile_sublist
            (l := ((seen, shown) :: tail).dropWhile (Text.isIdentifierChar ·.1))
            (Text.isBlank ·.1)).length_le
          have h3 := (List.dropWhile_sublist (l := inside) (!isParenthesis ·.1)).length_le
          rw [hinside] at h2
          rw [hafter] at h3
          simp only [List.length_cons] at h1 h2 h3 ⊢
          omega
        · cases h
      · cases h

/-- One character of an expression, or a call. -/
inductive Piece where
  | plain (c : Char)
  | call (c : Call)
  deriving DecidableEq, Repr

def Piece.source : Piece → Text
  | .plain c => [c]
  | .call c => c.source

/-- The pieces of masked text; a call is taken at the first place where one begins. -/
def piecesOf (t : List (Char × Char)) : List Piece :=
  match _h : callAt? t with
  | some (c, rest) => .call c :: piecesOf rest
  | none =>
    match t with
    | [] => []
    | (_, c) :: rest => .plain c :: piecesOf rest
termination_by t.length
decreasing_by
  · exact length_lt_of_callAt? _h
  · simp

def pieces (expression : Text) : List Piece := piecesOf (mask false false false expression)

/-- The calls among pieces, each with the places where it begins and ends. -/
def locate (start : Nat) : List Piece → List (Call × Nat × Nat)
  | [] => []
  | .plain _ :: rest => locate (start + 1) rest
  | .call c :: rest =>
    (c, start, start + c.source.length) :: locate (start + c.source.length) rest

def calls (expression : Text) : List Call :=
  (pieces expression).filterMap fun
    | .plain _ => none
    | .call c => some c

end DatafileMigration.Template
