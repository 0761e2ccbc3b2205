import DatafileMigration.Literal.Basic
import DatafileMigration.Text.Blank
import DatafileMigration.Text.Letter

namespace DatafileMigration.Query

/-- A word in capitals, with the places where it begins and ends. -/
structure Keyword where
  word : Text
  start : Nat
  finish : Nat
  deriving DecidableEq, Repr

/-- What follows the first occurrence of `mark`; nothing, if there is none. -/
def skipPast (mark : Text) : Text → Text
  | [] => []
  | c :: t =>
    match Text.dropPrefix? mark (c :: t) with
    | some rest => rest
    | none => skipPast mark t

theorem length_skipPast_le (mark t : Text) : (skipPast mark t).length ≤ t.length := by
  induction t with
  | nil => simp [skipPast]
  | cons c t ih =>
    rw [skipPast]
    split
    · rename_i rest h
      rw [Text.dropPrefix?_eq_some_iff] at h
      have := congrArg List.length h
      simp only [List.length_cons, List.length_append] at this ⊢
      omega
    · simp only [List.length_cons]
      omega

/-- What is skipped at the first character of a text: a quoted stretch, a comment up to the end
of its line, or a placeholder. All of them reach to the end if nothing closes them. -/
def skipAt? (t : Text) : Option Text :=
  match t with
  | [] => none
  | c :: rest =>
    if c = '\'' || c = '"' || c = '\x60' then some (skipPast [c] rest)
    else if Text.startsWith "--" t then some (skipPast "\n" t)
    else if Text.startsWith "\x7b\x7b" t then some (skipPast "\x7d\x7d" t)
    else none

theorem length_lt_of_skipAt? {t rest : Text} (h : skipAt? t = some rest) :
    rest.length < t.length := by
  cases t with
  | nil => simp [skipAt?] at h
  | cons c t =>
    have hc : ∀ mark : Text, Text.startsWith mark (c :: t) → 2 ≤ mark.length →
        ∀ finish : Text, ¬ Text.startsWith finish (c :: t) →
          (skipPast finish (c :: t)).length < (c :: t).length := by
      intro mark _ _ finish hf
      rw [skipPast]
      split
      · rename_i he; simp [Text.startsWith, he] at hf
      · have := length_skipPast_le finish t
        simp only [List.length_cons]
        omega
    rw [skipAt?] at h
    split at h
    · cases h
      have := length_skipPast_le [c] t
      simp only [List.length_cons]
      omega
    · split at h
      · rename_i hd
        cases h
        refine hc "--" hd (by decide) "\n" ?_
        intro hn
        obtain ⟨r, hr⟩ := Option.isSome_iff_exists.1 hd
        obtain ⟨r', hr'⟩ := Option.isSome_iff_exists.1 hn
        rw [Text.dropPrefix?_eq_some_iff] at hr hr'
        rw [hr] at hr'
        cases hr'
      · split at h
        · rename_i hd
          cases h
          refine hc "\x7b\x7b" hd (by decide) "\x7d\x7d" ?_
          intro hn
          obtain ⟨r, hr⟩ := Option.isSome_iff_exists.1 hd
          obtain ⟨r', hr'⟩ := Option.isSome_iff_exists.1 hn
          rw [Text.dropPrefix?_eq_some_iff] at hr hr'
          rw [hr] at hr'
          cases hr'
        · cases h

/-- The words of a text that begins at place `index`, below `depth` parentheses. A letter that
can begin no word ends the search. -/
def keywordsFrom (depth : Int) (index : Nat) (t : Text) : Except Breakdown (List Keyword) :=
  match _h : skipAt? t with
  | some rest => keywordsFrom depth (index + (t.length - rest.length)) rest
  | none =>
    match t with
    | [] => .ok []
    | c :: rest =>
      if c = '(' then keywordsFrom (depth + 1) (index + 1) rest
      else if c = ')' then keywordsFrom (depth - 1) (index + 1) rest
      else if depth = 0 && (Text.isLetter c || c = '_') then
        if Text.isIdentifierStart c then
          let word := c :: rest.takeWhile Text.isIdentifierChar
          let finish := index + word.length
          (keywordsFrom depth finish (rest.dropWhile Text.isIdentifierChar)).map fun found =>
            { word := word.map Char.toUpper, start := index, finish } :: found
        else .error .strayLetter
      else keywordsFrom depth (index + 1) rest
termination_by t.length
decreasing_by
  · exact length_lt_of_skipAt? _h
  · simp
  · simp
  · have := (List.dropWhile_sublist (l := rest) Text.isIdentifierChar).length_le
    simp only [List.length_cons]
    omega
  · simp

/-- The words of a query outside of quotes, comments, placeholders and parentheses. -/
def keywords (sql : Text) : Except Breakdown (List Keyword) := keywordsFrom 0 0 sql

end DatafileMigration.Query
