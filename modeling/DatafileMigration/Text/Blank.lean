import DatafileMigration.Text.Basic

namespace DatafileMigration.Text

/-- The characters that separate words: the control characters from tab to carriage return and
the four separators before the space, then the space and the blanks of other scripts. Neither
the zero-width space nor the byte order mark is one. -/
def blankRanges : List (Nat × Nat) :=
  [(9, 13), (28, 32), (133, 133), (160, 160), (5760, 5760), (8192, 8202), (8232, 8233),
   (8239, 8239), (8287, 8287), (12288, 12288)]

def isBlank (c : Char) : Bool := inRanges blankRanges c.toNat

def stripStart (t : Text) : Text := t.dropWhile isBlank

def stripEnd (t : Text) : Text := (t.reverse.dropWhile isBlank).reverse

def strip (t : Text) : Text := stripEnd (stripStart t)

theorem length_strip_le (t : Text) : (strip t).length ≤ t.length := by
  have h1 := (List.dropWhile_sublist (l := (stripStart t).reverse) isBlank).length_le
  have h2 := (List.dropWhile_sublist (l := t) isBlank).length_le
  simp only [strip, stripEnd, stripStart, List.length_reverse] at h1 h2 ⊢
  omega

def isBlankText (t : Text) : Bool := t.all isBlank

def words : Text → List Text
  | [] => []
  | c :: t =>
    if isBlank c then words t
    else match t with
      | [] => [[c]]
      | d :: _ =>
        if isBlank d then [c] :: words t
        else match words t with
          | [] => [[c]]
          | word :: rest => (c :: word) :: rest

/-- The first word and the stripped rest. -/
def cutWord (t : Text) : Text × Text :=
  let body := stripStart t
  (body.takeWhile (!isBlank ·), strip (body.dropWhile (!isBlank ·)))

def trimNewlines (t : Text) : Text := (t.reverse.dropWhile (· = '\n')).reverse

end DatafileMigration.Text
