import DatafileMigration.Project.Path
import DatafileMigration.Project.Wildcard

namespace DatafileMigration.Glob

/-- A part of the inside of brackets: a member, or the hyphen between the ends of a range. -/
inductive Mark where
  | member (c : Char)
  | hyphen
  deriving DecidableEq, Repr

/-- The characters between a low and a high end. -/
structure Range where
  low : Char
  high : Char
  deriving DecidableEq, Repr

def Range.contains (r : Range) (c : Char) : Bool := r.low ≤ c && c ≤ r.high

/-- A set of characters, or what is not in it. -/
structure CharSet where
  complement : Bool
  ranges : List Range
  deriving DecidableEq, Repr

def CharSet.contains (s : CharSet) (c : Char) : Bool :=
  s.ranges.any (·.contains c) != s.complement

/-- The inside of brackets cut at the hyphens that make ranges. No such hyphen stands at the
beginning of a piece or right behind the end of a range: `held` characters are passed first. -/
def cutRanges (held : Nat) : Text → List Text
  | [] => [[]]
  | c :: t =>
    if held = 0 && c = '-' then [] :: cutRanges 2 t
    else match cutRanges (held - 1) t with
      | [] => [[c]]
      | chunk :: chunks => (c :: chunk) :: chunks

/-- A hyphen at the end makes no range. -/
def closeLast : List Text → List Text
  | [chunk, []] => [chunk ++ "-"]
  | chunk :: chunks => chunk :: closeLast chunks
  | [] => []

/-- A chunk in front of others; if its last character is above their first, there is nothing
between these two, and both go. -/
def prepend (chunk : Text) : List Text → List Text
  | [] => [chunk]
  | next :: chunks =>
    match chunk.getLast?, next with
    | some high, low :: rest =>
      if low < high then (chunk.dropLast ++ rest) :: chunks else chunk :: next :: chunks
    | _, _ => chunk :: next :: chunks

/-- The marks of chunks with hyphens between them. -/
def marks : List Text → List Mark
  | [] => []
  | [chunk] => chunk.map .member
  | chunk :: next :: chunks => chunk.map .member ++ .hyphen :: marks (next :: chunks)

/-- The ranges that marks write; a hyphen without a character in front is a member. -/
def ranges : List Mark → List Range
  | .member low :: .hyphen :: .member high :: rest => ⟨low, high⟩ :: ranges rest
  | .member c :: rest => ⟨c, c⟩ :: ranges rest
  | .hyphen :: rest => ⟨'-', '-'⟩ :: ranges rest
  | [] => []

/-- The set that the inside of brackets writes. -/
def readSet (inside : Text) : CharSet :=
  let held := if Text.startsWith "!" inside then 2 else 1
  let chunks := (closeLast (cutRanges held inside)).foldr prepend []
  match marks chunks with
  | .member '!' :: rest => ⟨true, ranges rest⟩
  | all => ⟨false, ranges all⟩

/-- What stands in front of a closing bracket and what follows it; a text may open with characters
among which that bracket is a member. -/
def cutClosed? (opening rest : Text) : Option (Text × Text) :=
  (Text.cutAt? ']' rest).map fun (inside, after) => (opening ++ inside, after)

/-- The inside of brackets and what follows them. A closing bracket right at the beginning, or
behind `!`, is a member. -/
def cutSet? : Text → Option (Text × Text)
  | '!' :: ']' :: rest => cutClosed? "!]" rest
  | '!' :: rest => cutClosed? "!" rest
  | ']' :: rest => cutClosed? "]" rest
  | rest => cutClosed? [] rest

theorem length_lt_of_cutClosed? {opening t inside after : Text}
    (h : cutClosed? opening t = some (inside, after)) : after.length < t.length := by
  obtain ⟨⟨i, a⟩, hi, he⟩ := Option.map_eq_some_iff.1 h
  cases he
  have := congrArg List.length (Text.cutAt?_eq_some hi).1
  simp at this
  omega

theorem length_lt_of_cutSet? {t inside after : Text} (h : cutSet? t = some (inside, after)) :
    after.length < t.length := by
  unfold cutSet? at h
  split at h <;> have := length_lt_of_cutClosed? h <;> simp_all <;> omega

/-- What a segment's pattern asks of the characters. `*` is any text, `?` any character, and
brackets hold a set of characters. A set is written by its members and by ranges; `!` in front
complements it. A bracket that is not closed stands for itself. -/
def pieces : Text → List (Wildcard Char)
  | [] => []
  | c :: t =>
    if c = '*' then .run :: pieces t
    else if c = '?' then .one (fun _ => true) :: pieces t
    else if c = '[' then
      match _h : cutSet? t with
      | some (inside, after) => .one (readSet inside).contains :: pieces after
      | none => .one (· = c) :: pieces t
    else .one (· = c) :: pieces t
termination_by t => t.length
decreasing_by
  · simp
  · simp
  · have := length_lt_of_cutSet? _h; simp; omega
  · simp
  · simp

/-- Whether a pattern for one segment matches a segment. -/
def matchesSegment (pattern segment : Text) : Bool :=
  if Path.hasGlob pattern then Wildcard.accepts (pieces pattern) segment else pattern = segment

end DatafileMigration.Glob
