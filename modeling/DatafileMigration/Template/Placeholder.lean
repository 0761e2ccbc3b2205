import DatafileMigration.Text.Blank

namespace DatafileMigration.Template

/-- One character of plain text, or a placeholder: a text without braces between two pairs of them.
-/
inductive Segment where
  | plain (c : Char)
  | placeholder (inside : Text)
  deriving DecidableEq, Repr

def isBrace (c : Char) : Bool := c = '\x7b' || c = '\x7d'

def Segment.source : Segment → Text
  | .plain c => [c]
  | .placeholder inside => "\x7b\x7b" ++ inside ++ "\x7d\x7d"

/-- The placeholder with which a text begins, and the rest. -/
def placeholderAt? (t : Text) : Option (Text × Text) := do
  let body ← Text.dropPrefix? "\x7b\x7b" t
  let inside := body.takeWhile (!isBrace ·)
  let rest ← Text.dropPrefix? "\x7d\x7d" (body.dropWhile (!isBrace ·))
  if inside = [] then none else return (inside, rest)

theorem eq_of_placeholderAt? {t inside rest : Text} (h : placeholderAt? t = some (inside, rest)) :
    t = (Segment.placeholder inside).source ++ rest := by
  simp only [placeholderAt?, Option.bind_eq_bind, Option.bind_eq_some_iff,
    Text.dropPrefix?_eq_some_iff] at h
  obtain ⟨body, rfl, after, hafter, h⟩ := h
  split at h
  · cases h
  · cases h
    have := List.takeWhile_append_dropWhile (p := (!isBrace ·)) (l := body)
    rw [hafter] at this
    simp only [Segment.source, List.append_assoc, List.append_cancel_left_eq]
    exact this.symm

/-- The segments of a text; a placeholder is taken at the first place where one begins. -/
def segments (t : Text) : List Segment :=
  match _h : placeholderAt? t with
  | some (inside, rest) => .placeholder inside :: segments rest
  | none =>
    match t with
    | [] => []
    | c :: rest => .plain c :: segments rest
termination_by t.length
decreasing_by
  · rw [eq_of_placeholderAt? _h]
    simp [Segment.source]
    omega
  · simp

/-- Nothing is lost between the segments. -/
theorem flatMap_source_segments (t : Text) : (segments t).flatMap Segment.source = t := by
  fun_induction segments t with
  | case1 t inside rest h ih =>
    rw [List.flatMap_cons, ih, ← eq_of_placeholderAt? h]
  | case2 h => rfl
  | case3 c rest h ih => simp [Segment.source, ih]

def expressions (t : Text) : List Text :=
  (segments t).filterMap fun
    | .plain _ => none
    | .placeholder inside => some (Text.strip inside)

end DatafileMigration.Template
