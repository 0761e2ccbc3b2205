namespace DatafileMigration

/-- A part of a pattern over lists: it takes one element that passes a test, or a run of any
elements. -/
inductive Wildcard (α : Type) where
  | run
  | one (test : α → Bool)

namespace Wildcard

/-- The list and all that is left of it from the front, the longest first. -/
def suffixes {α : Type} : List α → List (List α)
  | [] => [[]]
  | x :: xs => (x :: xs) :: suffixes xs

/-- What can be left behind a part, given what can be left in front of it, the longest first. -/
def rests {α : Type} (lefts : List (List α)) : Wildcard α → List (List α)
  | run =>
    match lefts with
    | [] => []
    | longest :: _ => suffixes longest
  | one test =>
    lefts.filterMap fun left =>
      match left with
      | x :: xs => if test x then some xs else none
      | [] => none

/-- Whether a list can be cut into what the parts take, one after the other. -/
def accepts {α : Type} (parts : List (Wildcard α)) (xs : List α) : Bool :=
  (parts.foldl rests [xs]).any (·.isEmpty)

end Wildcard

end DatafileMigration
