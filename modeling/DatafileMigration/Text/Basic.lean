namespace DatafileMigration

/-- Text is the list of its characters, so that every scanner of this library is recursion on its
data. -/
abbrev Text := List Char

/-- A string literal stands for its characters. -/
instance : Coe String Text := ⟨String.toList⟩

namespace Text

/-- The parts with `separator` between neighbours. -/
def join (separator : Text) : List Text → Text
  | [] => []
  | [part] => part
  | part :: next :: parts => part ++ separator ++ join separator (next :: parts)

/-- The stretches between occurrences of `separator`; there is always at least one. -/
def splitOn (separator : Char) : Text → List Text
  | [] => [[]]
  | c :: t =>
    if c = separator then [] :: splitOn separator t
    else match splitOn separator t with
      | [] => [[c]]
      | part :: parts => (c :: part) :: parts

theorem splitOn_ne_nil (separator : Char) (t : Text) : splitOn separator t ≠ [] := by
  cases t with
  | nil => simp [splitOn]
  | cons c t =>
    rw [splitOn]
    split
    · exact List.cons_ne_nil _ _
    · split <;> exact List.cons_ne_nil _ _

/-- Splitting at a character and joining with it gives the text back. -/
theorem join_splitOn (separator : Char) (t : Text) : join [separator] (splitOn separator t) = t := by
  induction t with
  | nil => rfl
  | cons c t ih =>
    rw [splitOn]
    split
    · rename_i h
      match hs : splitOn separator t with
      | [] => exact absurd hs (splitOn_ne_nil separator t)
      | part :: parts => rw [hs] at ih; simp [join, ih, h]
    · match hs : splitOn separator t with
      | [] => exact absurd hs (splitOn_ne_nil separator t)
      | [part] => rw [hs] at ih; simpa [join] using ih
      | part :: next :: parts => rw [hs] at ih; simpa [join] using ih

/-- What follows `start` in a text that begins with it. -/
def dropPrefix? : Text → Text → Option Text
  | [], t => some t
  | _ :: _, [] => none
  | p :: start, c :: t => if p = c then dropPrefix? start t else none

theorem dropPrefix?_eq_some_iff {start t rest : Text} :
    dropPrefix? start t = some rest ↔ t = start ++ rest := by
  induction start generalizing t with
  | nil => simp [dropPrefix?, eq_comm]
  | cons p start ih =>
    cases t with
    | nil => simp [dropPrefix?]
    | cons c t =>
      rw [dropPrefix?]
      split
      · rename_i h; simp [ih, h]
      · rename_i h; simp [Ne.symm h]

/-- What precedes `finish` in a text that ends with it. -/
def dropSuffix? (finish t : Text) : Option Text :=
  (dropPrefix? finish.reverse t.reverse).map List.reverse

theorem dropSuffix?_eq_some_iff {finish t rest : Text} :
    dropSuffix? finish t = some rest ↔ t = rest ++ finish := by
  simp only [dropSuffix?, Option.map_eq_some_iff, dropPrefix?_eq_some_iff]
  constructor
  · rintro ⟨back, h, rfl⟩
    have := congrArg List.reverse h
    simpa using this
  · rintro rfl
    exact ⟨rest.reverse, by simp, by simp⟩

def startsWith (start t : Text) : Bool := (dropPrefix? start t).isSome

def endsWith (finish t : Text) : Bool := (dropSuffix? finish t).isSome

theorem startsWith_singleton (p c : Char) (t : Text) : startsWith [p] (c :: t) = decide (c = p) := by
  by_cases same : p = c
  · simp [startsWith, dropPrefix?, same]
  · simp [startsWith, dropPrefix?, same, Ne.symm same]

/-- The inside of a text that is `start`, then something, then `finish`. -/
def between? (start finish t : Text) : Option Text :=
  (dropPrefix? start t).bind (dropSuffix? finish)

theorem between?_eq_some_iff {start finish t inside : Text} :
    between? start finish t = some inside ↔ t = start ++ inside ++ finish := by
  simp only [between?, Option.bind_eq_some_iff, dropPrefix?_eq_some_iff, dropSuffix?_eq_some_iff]
  constructor
  · rintro ⟨rest, rfl, rfl⟩; simp
  · rintro rfl; exact ⟨inside ++ finish, by simp, rfl⟩

/-- The part before the first `mark` and the part after it, if it occurs. -/
def cutAt? (mark : Char) : Text → Option (Text × Text)
  | [] => none
  | c :: t =>
    if c = mark then some ([], t)
    else (cutAt? mark t).map fun (before, after) => (c :: before, after)

theorem cutAt?_eq_some {mark : Char} {t before after : Text}
    (h : cutAt? mark t = some (before, after)) : t = before ++ mark :: after ∧ mark ∉ before := by
  induction t generalizing before with
  | nil => simp [cutAt?] at h
  | cons c t ih =>
    rw [cutAt?] at h
    split at h
    · rename_i hc; cases h; simp [hc]
    · rename_i hc
      obtain ⟨⟨b, a⟩, hb, he⟩ := Option.map_eq_some_iff.1 h
      cases he
      obtain ⟨rfl, hm⟩ := ih hb
      exact ⟨by simp, by simp [Ne.symm hc, hm]⟩

/-- Line ends written as carriage return and line feed become line feeds. -/
def unifyNewlines : Text → Text
  | '\r' :: '\n' :: t => '\n' :: unifyNewlines t
  | c :: t => c :: unifyNewlines t
  | [] => []

/-- A backslash in front of a single quote goes. -/
def unescapeQuotes : Text → Text
  | '\\' :: '\'' :: t => '\'' :: unescapeQuotes t
  | c :: t => c :: unescapeQuotes t
  | [] => []

/-- Every `old` replaced by `new`. -/
def replaceChar (old new : Char) (t : Text) : Text := t.map fun c => if c = old then new else c

def precedes : Text → Text → Bool
  | [], _ => true
  | _ :: _, [] => false
  | c :: s, d :: t => c.toNat < d.toNat || (c = d && precedes s t)

/-- Digits of `n` in base ten. -/
def ofNat (n : Nat) : Text := Nat.toDigits 10 n

def ofInt : Int → Text
  | .ofNat n => ofNat n
  | .negSucc n => '-' :: ofNat (n + 1)

/-- Whether a code point lies in one of the ranges, whose both ends count. Tables of character
classes have this form. -/
def inRanges (ranges : List (Nat × Nat)) (n : Nat) : Bool :=
  ranges.any fun (low, high) => low ≤ n && n ≤ high

end Text

end DatafileMigration
