import DatafileMigration.Project.Segment

namespace DatafileMigration.Glob

/-- Whether an end of a pattern matches an end of a path, as far as it is known. The ends are told by
the numbers of their segments. -/
abbrev Answers := List ((Nat × Nat) × Bool)

/-- The answer for two ends: the known one, or else the one that is found, which is known then. -/
def remember (ends : Nat × Nat) (find : StateM Answers Bool) : StateM Answers Bool := do
  match (← get).lookup ends with
  | some answer => return answer
  | none =>
    let answer ← find
    modify ((ends, answer) :: ·)
    return answer

/-- The search for an end of `count` segments that begins with `**`: it takes no segment, or one and
then maybe more of them. What follows is searched for with `behind`. -/
def searchRun (count : Nat) (behind : List Text → StateM Answers Bool) :
    List Text → StateM Answers Bool
  | [] => remember (count, 0) (behind [])
  | s :: path => remember (count, path.length + 1)
      (behind (s :: path) <||> searchRun count behind path)

/-- The search for an end that begins with another segment. -/
def searchOne (count : Nat) (p : Text) (behind : List Text → StateM Answers Bool) :
    List Text → StateM Answers Bool
  | [] => remember (count, 0) (return false)
  | s :: path => remember (count, path.length + 1)
      (if matchesSegment p s then behind path else return false)

/-- Whether a pattern matches a path, with what is known of their ends. The ways to cut the path are
tried one after the other, and what was found about an end of the pattern and an end of the path is
not looked for again. -/
def search : List Text → List Text → StateM Answers Bool
  | [], path => remember (0, path.length) (return path.isEmpty)
  | p :: pattern, path =>
    if p = "**" then searchRun (pattern.length + 1) (search pattern) path
    else searchOne (pattern.length + 1) p (search pattern) path

/-- Whether segments match the segments of a pattern. -/
def matchesSegments (pattern path : List Text) : Bool := (search pattern path []).1

/-- Whether an absolute path matches an absolute pattern: the segment `**` takes any number of
segments, each other one takes a segment that it matches. -/
def matchesPath (pattern path : Text) : Bool :=
  Path.root pattern = Path.root path
    && matchesSegments (Path.normalSegments pattern) (Path.normalSegments path)

/-- The directory of the segments in front of the first one with a special character. -/
def rootDirectory (pattern : Text) : Text :=
  Path.root pattern
    ++ Text.join "/" ((Path.normalSegments pattern).takeWhile fun s => !Path.hasGlob s)

end DatafileMigration.Glob
