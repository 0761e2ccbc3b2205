import DatafileMigration.Text.Blank

namespace DatafileMigration.Text

def backtick : Char := '\x60'

/-- What the splitter remembers: the quote that is open, how deep the parentheses are, and
whether the last character was a backslash, which keeps a quote from counting. -/
structure SplitState where
  opened : Option Char := none
  depth : Int := 0
  escaped : Bool := false
  deriving DecidableEq, Repr

namespace SplitState

/-- Whether a character at this point stands outside quotes, backticks and parentheses. -/
def isNeutral (s : SplitState) : Bool := s.opened.isNone && s.depth == 0

/-- The state after a character that is no cut. A backtick opens and closes whatever stands
before it; a quote counts only without a backslash; parentheses count outside quotes. -/
def next (s : SplitState) (c : Char) : SplitState :=
  let escaped := c == '\\'
  match s.opened with
  | some q =>
    if c = q && (c = backtick || !s.escaped) then { s with opened := none, escaped }
    else { s with escaped }
  | none =>
    if c = backtick then { s with opened := some c, escaped }
    else if (c = '\'' || c = '"') && !s.escaped then { s with opened := some c, escaped }
    else if c = '(' then { s with depth := s.depth + 1, escaped }
    else if c = ')' then { s with depth := s.depth - 1, escaped }
    else { s with escaped }

/-- The stretches between cuts, in order; there is always at least one. -/
def pieces (s : SplitState) : Text → List Text
  | [] => [[]]
  | c :: t =>
    if c = ',' && s.isNeutral then [] :: pieces { s with escaped := false } t
    else match pieces (s.next c) t with
      | [] => [[c]]
      | piece :: rest => (c :: piece) :: rest

end SplitState

/-- The stripped parts between commas outside parentheses, quotes and backticks; parts of
nothing but blanks are left out. -/
def splitTopLevel (t : Text) : List Text :=
  ((SplitState.pieces {} t).map strip).filter (· ≠ [])

namespace SplitState

theorem length_le_of_mem_pieces {s : SplitState} {t piece : Text} (h : piece ∈ s.pieces t) :
    piece.length ≤ t.length := by
  induction t generalizing s piece with
  | nil => simp only [pieces, List.mem_singleton] at h; simp [h]
  | cons c t ih =>
    rw [pieces] at h
    split at h
    · rcases List.mem_cons.1 h with rfl | h
      · simp
      · exact Nat.le_succ_of_le (ih h)
    · split at h
      · rename_i he
        simp only [List.mem_singleton] at h
        simp [h]
      · rename_i first rest he
        rcases List.mem_cons.1 h with rfl | h
        · exact Nat.succ_le_succ (ih (by rw [he]; exact List.mem_cons_self))
        · exact Nat.le_succ_of_le (ih (by rw [he]; exact List.mem_cons_of_mem _ h))

end SplitState

theorem length_le_of_mem_splitTopLevel {t part : Text} (h : part ∈ splitTopLevel t) :
    part.length ≤ t.length := by
  obtain ⟨piece, hp, rfl⟩ := List.mem_map.1 (List.mem_filter.1 h).1
  exact Nat.le_trans (length_strip_le piece) (SplitState.length_le_of_mem_pieces hp)

/-- What the finder remembers. -/
structure FindState where
  inSingle : Bool := false
  inDouble : Bool := false
  inBacktick : Bool := false
  depth : Int := 0
  deriving DecidableEq, Repr

namespace FindState

def isQuoted (s : FindState) : Bool := s.inSingle || s.inDouble || s.inBacktick

/-- The state at a character, given whether a backslash stands before it. -/
def next (s : FindState) (escaped : Bool) (c : Char) : FindState :=
  if c = '\'' && !s.inDouble && !s.inBacktick && !escaped then { s with inSingle := !s.inSingle }
  else if c = '"' && !s.inSingle && !s.inBacktick && !escaped then
    { s with inDouble := !s.inDouble }
  else if c = backtick && !s.inSingle && !s.inDouble then { s with inBacktick := !s.inBacktick }
  else if s.isQuoted then s
  else if c = '(' then { s with depth := s.depth + 1 }
  else if c = ')' then { s with depth := s.depth - 1 }
  else s

/-- The first place, counted from `index`, that a token takes while nothing is open. -/
def find? (token : Text) (s : FindState) (escaped : Bool) (index : Nat) : Text → Option Nat
  | [] => none
  | c :: t =>
    let here := s.next escaped c
    if !here.isQuoted && here.depth == 0 && startsWith token (c :: t) then some index
    else find? token here (c == '\\') (index + 1) t

end FindState

/-- Index of the first `token` outside quotes, backticks and parentheses. The splitter drops each
comma and goes on, whereas a token is tested against the rest of the text after the character it
begins with has taken effect. -/
def findTopLevel? (token t : Text) : Option Nat := FindState.find? token {} false 0 t

end DatafileMigration.Text
