import DatafileMigration.Text.Basic
import DatafileMigration.Text.Utf8

namespace DatafileMigration.Text

variable {separator : Char} {line part t : Text} {lines parts : List Text}

/-- A text that can be one line among others: a line feed would end it before, and a carriage return
at its end would make one line end with the line feed behind it. -/
structure IsLine (t : Text) : Prop where
  single : '\n' ∉ t
  open_ended : ∀ before, t ≠ before ++ ['\r']

theorem not_mem_of_mem_splitOn (member : part ∈ splitOn separator t) : separator ∉ part := by
  induction t generalizing part with
  | nil =>
    rw [splitOn, List.mem_singleton] at member
    rw [member]
    exact List.not_mem_nil
  | cons c t ih =>
    rw [splitOn] at member
    split at member
    · rcases List.mem_cons.mp member with rfl | member
      · exact List.not_mem_nil
      · exact ih member
    · rename_i other
      cases pieces : splitOn separator t with
      | nil => exact absurd pieces (splitOn_ne_nil separator t)
      | cons first rest =>
        rw [pieces] at member ih
        rcases List.mem_cons.mp member with rfl | member
        · rw [List.mem_cons, not_or]
          exact ⟨Ne.symm other, ih List.mem_cons_self⟩
        · exact ih (List.mem_cons_of_mem _ member)

theorem mem_of_mem_splitOn {c : Char} (isPart : part ∈ splitOn separator t) (member : c ∈ part) :
    c ∈ t := by
  induction t generalizing part with
  | nil =>
    rw [splitOn, List.mem_singleton] at isPart
    rwa [isPart] at member
  | cons d t ih =>
    rw [splitOn] at isPart
    split at isPart
    · rcases List.mem_cons.mp isPart with rfl | isPart
      · cases member
      · exact List.mem_cons_of_mem d (ih isPart member)
    · cases pieces : splitOn separator t with
      | nil => exact absurd pieces (splitOn_ne_nil separator t)
      | cons first rest =>
        rw [pieces] at isPart ih
        rcases List.mem_cons.mp isPart with rfl | isPart
        · rw [List.mem_cons] at member ⊢
          exact member.imp_right (ih List.mem_cons_self)
        · exact List.mem_cons_of_mem d (ih (List.mem_cons_of_mem _ isPart) member)

theorem splitOn_append_cons (separator : Char) (s t : Text) :
    splitOn separator (s ++ separator :: t) = splitOn separator s ++ splitOn separator t := by
  induction s with
  | nil => exact if_pos rfl
  | cons c s ih =>
    rw [List.cons_append, splitOn, ih, splitOn]
    by_cases cut : c = separator
    · rw [if_pos cut, if_pos cut, List.cons_append]
    · rw [if_neg cut, if_neg cut]
      cases pieces : splitOn separator s with
      | nil => exact absurd pieces (splitOn_ne_nil separator s)
      | cons piece rest => rfl

theorem splitOn_of_not_mem (absent : separator ∉ part) : splitOn separator part = [part] := by
  induction part with
  | nil => rfl
  | cons c part ih =>
    rw [List.mem_cons, not_or] at absent
    rw [splitOn, if_neg (Ne.symm absent.1), ih absent.2]

theorem splitOn_append (absent : separator ∉ part) (t : Text) :
    splitOn separator (part ++ separator :: t) = part :: splitOn separator t := by
  induction part with
  | nil => rw [List.nil_append, splitOn, if_pos rfl]
  | cons c part ih =>
    rw [List.mem_cons, not_or] at absent
    rw [List.cons_append, splitOn, if_neg (Ne.symm absent.1), ih absent.2]

/-- Joining with a character and splitting at it gives the parts back. -/
theorem splitOn_join (some : parts ≠ []) (absent : ∀ part ∈ parts, separator ∉ part) :
    splitOn separator (join [separator] parts) = parts := by
  induction parts with
  | nil => exact absurd rfl some
  | cons part parts ih =>
    have here := absent part List.mem_cons_self
    cases parts with
    | nil => exact splitOn_of_not_mem here
    | cons next parts =>
      rw [join, List.append_assoc, List.singleton_append, splitOn_append here,
        ih (List.cons_ne_nil _ _) fun part member => absent part (List.mem_cons_of_mem _ member)]

theorem unifyNewlines_cons {c : Char} (other : c = '\r' → ∀ rest, t ≠ '\n' :: rest) :
    unifyNewlines (c :: t) = c :: unifyNewlines t := by
  rw [unifyNewlines]
  intro rest return_ equal
  exact other return_ rest equal

theorem unifyNewlines_of_single (single : '\n' ∉ line) : unifyNewlines line = line := by
  induction line with
  | nil => rfl
  | cons c line ih =>
    rw [List.mem_cons, not_or] at single
    rw [unifyNewlines_cons, ih single.2]
    rintro _ rest rfl
    exact single.2 List.mem_cons_self

theorem IsLine.tail {c : Char} (isLine : IsLine (c :: line)) : IsLine line := by
  constructor
  · exact fun member => isLine.single (List.mem_cons_of_mem _ member)
  · intro before equal
    exact isLine.open_ended (c :: before) (by rw [equal, List.cons_append])

/-- The line feed behind a line is no part of another line end. -/
theorem unifyNewlines_append (isLine : IsLine line) (t : Text) :
    unifyNewlines (line ++ '\n' :: t) = line ++ '\n' :: unifyNewlines t := by
  induction line with
  | nil => exact unifyNewlines_cons fun equal => absurd equal (by decide)
  | cons c line ih =>
    rw [List.cons_append, unifyNewlines_cons, ih isLine.tail, List.cons_append]
    intro equal rest begins
    cases line with
    | nil => exact isLine.open_ended [] (by rw [equal, List.nil_append])
    | cons d line =>
      rw [List.cons_append] at begins
      exact isLine.single (by rw [(List.cons.inj begins).1]; simp)

theorem unifyNewlines_join (isLine : ∀ line ∈ lines, IsLine line) :
    unifyNewlines (join ['\n'] lines) = join ['\n'] lines := by
  induction lines with
  | nil => rfl
  | cons line lines ih =>
    have here := isLine line List.mem_cons_self
    cases lines with
    | nil => exact unifyNewlines_of_single here.single
    | cons next lines =>
      rw [join, List.append_assoc, List.singleton_append, unifyNewlines_append here,
        ih fun line member => isLine line (List.mem_cons_of_mem _ member)]

theorem not_mem_lineFeeds (t : Text) : '\r' ∉ lineFeeds t := by
  fun_induction lineFeeds t with
  | case1 t ih | case2 t _ ih =>
    rw [List.mem_cons, not_or]
    exact ⟨by decide, ih⟩
  | case3 c t _ other ih =>
    rw [List.mem_cons, not_or]
    exact ⟨fun same => other same.symm, ih⟩
  | case4 => exact List.not_mem_nil

theorem lineFeeds_cons {c : Char} (other : c ≠ '\r') (t : Text) :
    lineFeeds (c :: t) = c :: lineFeeds t := by
  rw [lineFeeds]
  · exact fun rest same => absurd same other
  · exact fun same => absurd same other

/-- A carriage return is a line end of its own where no line feed follows. -/
theorem lineFeeds_return (alone : ∀ rest, t ≠ '\n' :: rest) :
    lineFeeds ('\r' :: t) = '\n' :: lineFeeds t := by
  rw [lineFeeds]
  exact alone

theorem lineFeeds_of_not_mem (free : '\r' ∉ t) : lineFeeds t = t := by
  induction t with
  | nil => rfl
  | cons c t ih =>
    rw [List.mem_cons, not_or] at free
    rw [lineFeeds_cons (Ne.symm free.1), ih free.2]

end DatafileMigration.Text
