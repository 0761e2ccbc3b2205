import DatafileMigration.Proofs.Text.Find
import DatafileMigration.Proofs.Text.TopLevel

namespace DatafileMigration.Text

namespace SplitState

variable {s r : SplitState} {c : Char} {t first part : Text} {rest : List Text} {index n : Nat}

/-- What is open is a quote or a backtick. -/
def IsMarked (s : SplitState) : Prop := ∀ q ∈ s.opened, q = '\'' ∨ q = '"' ∨ q = backtick

theorem isMarked_start : IsMarked {} := fun q open_ => absurd open_ (Option.not_mem_none q)

/-- What the splitter remembers, as the finder notes it down. -/
def toFind (s : SplitState) : FindState where
  inSingle := s.opened == some '\''
  inDouble := s.opened == some '"'
  inBacktick := s.opened == some backtick
  depth := s.depth

theorem escaped_next (s : SplitState) (c : Char) : (s.next c).escaped = (c == '\\') := by
  obtain ⟨opened, depth, escaped⟩ := s
  cases opened <;> simp only [next] <;> split_ifs <;> rfl

theorem IsMarked.next (marked : s.IsMarked) (c : Char) : (s.next c).IsMarked := by
  obtain ⟨opened, depth, escaped⟩ := s
  cases opened with
  | none =>
    simp only [SplitState.next]
    split_ifs <;> simp_all [IsMarked]
  | some q =>
    simp only [SplitState.next]
    split_ifs
    · simp [IsMarked]
    · exact marked

/-- A character does the same to both scanners, though they ask for it in different orders. -/
theorem toFind_next (marked : s.IsMarked) (c : Char) :
    (s.next c).toFind = s.toFind.next s.escaped c := by
  obtain ⟨opened, depth, escaped⟩ := s
  cases opened with
  | none =>
    simp only [next, toFind, FindState.next, FindState.isQuoted, backtick]
    split_ifs <;> simp_all
  | some q =>
    -- only the mark that is open counts, and a backtick whatever stands in front of it
    rcases marked q rfl with rfl | rfl | rfl
    · by_cases same : c = '\'' <;> cases escaped <;>
        simp [next, toFind, FindState.next, FindState.isQuoted, backtick, same]
    · by_cases same : c = '"' <;> cases escaped <;>
        simp [next, toFind, FindState.next, FindState.isQuoted, backtick, same]
    · by_cases same : c = '\x60' <;>
        simp [next, toFind, FindState.next, FindState.isQuoted, backtick, same]

theorem isNeutral_toFind (marked : s.IsMarked) :
    (!s.toFind.isQuoted && s.toFind.depth == 0) = s.isNeutral := by
  obtain ⟨opened, depth, escaped⟩ := s
  cases opened with
  | none => rfl
  | some q => rcases marked q rfl with rfl | rfl | rfl <;> rfl

theorem isNeutral_next_comma (marked : s.IsMarked) : (s.next ',').isNeutral = s.isNeutral := by
  obtain ⟨opened, depth, escaped⟩ := s
  cases opened with
  | none => rfl
  | some q => rcases marked q rfl with rfl | rfl | rfl <;> rfl

/-- The finder stops at a comma where the splitter cuts. -/
theorem find?_comma_cons (marked : s.IsMarked) (index : Nat) :
    FindState.find? "," s.toFind s.escaped index (c :: t) =
      if c = ',' && s.isNeutral then some index
      else FindState.find? "," (s.next c).toFind (s.next c).escaped (index + 1) t := by
  have begins : startsWith "," (c :: t) = decide (c = ',') := startsWith_singleton ',' c t
  have stops : ((s.next c).isNeutral && startsWith "," (c :: t)) =
      (decide (c = ',') && s.isNeutral) := by
    rw [begins, Bool.and_comm]
    by_cases comma : c = ','
    · rw [comma, isNeutral_next_comma marked]
    · rw [decide_eq_false comma, Bool.false_and, Bool.false_and]
  rw [FindState.find?, ← toFind_next marked, isNeutral_toFind (marked.next c), stops, escaped_next]

/-- Where the finder finds no comma, the splitter cuts nowhere. -/
theorem exists_through?_of_find? (marked : s.IsMarked)
    (none : FindState.find? "," s.toFind s.escaped index t = none) :
    ∃ r, s.through? t = some r := by
  induction t generalizing s index with
  | nil => exact ⟨s, rfl⟩
  | cons c t ih =>
    rw [find?_comma_cons marked] at none
    rw [through?]
    split at none
    · cases none
    · rename_i noCut
      rw [if_neg noCut]
      exact ih (marked.next c) none

/-- The comma that the finder finds is the first that cuts. -/
theorem exists_cut_of_find? (marked : s.IsMarked)
    (found : FindState.find? "," s.toFind s.escaped index t = some n) :
    ∃ before after r, t = before ++ ',' :: after ∧ n = index + before.length ∧
      s.through? before = some r ∧ r.isNeutral := by
  induction t generalizing s index with
  | nil => cases found
  | cons c t ih =>
    rw [find?_comma_cons marked] at found
    split at found
    · rename_i cut
      rw [Bool.and_eq_true, decide_eq_true_eq] at cut
      obtain ⟨rfl, neutral⟩ := cut
      obtain rfl := Option.some.inj found
      exact ⟨[], t, s, rfl, rfl, rfl, neutral⟩
    · rename_i noCut
      obtain ⟨before, after, r, rfl, rfl, through, neutral⟩ := ih (marked.next c) found
      refine ⟨c :: before, after, r, rfl, by rw [List.length_cons]; omega, ?_, neutral⟩
      rw [through?, if_neg noCut, through]

/-- No piece would be cut again. Those behind a cut are read as if nothing stood in front. -/
theorem exists_through?_of_pieces (split : s.pieces t = first :: rest) :
    (∃ r, s.through? first = some r) ∧ ∀ piece ∈ rest, ∃ r, through? {} piece = some r := by
  induction t generalizing s first rest with
  | nil =>
    cases split
    exact ⟨⟨s, rfl⟩, List.forall_mem_nil _⟩
  | cons c t ih =>
    rw [pieces] at split
    split at split
    · rename_i cut
      rw [Bool.and_eq_true] at cut
      rw [isNeutral_iff.mp cut.2] at split
      obtain ⟨rfl, behind⟩ := List.cons.inj split
      obtain ⟨next, others, listed⟩ := List.exists_cons_of_ne_nil (pieces_ne_nil (s := {}) (t := t))
      rw [← behind, listed, List.forall_mem_cons]
      exact ⟨⟨s, rfl⟩, ih listed⟩
    · rename_i noCut
      cases behind : (s.next c).pieces t with
      | nil => exact absurd behind pieces_ne_nil
      | cons piece others =>
        rw [behind] at split
        obtain ⟨rfl, rfl⟩ := List.cons.inj split
        rw [through?, if_neg noCut]
        exact ih behind

theorem exists_through?_of_mem (member : part ∈ pieces {} t) : ∃ r, through? {} part = some r := by
  obtain ⟨first, rest, split⟩ := List.exists_cons_of_ne_nil (pieces_ne_nil (s := {}) (t := t))
  obtain ⟨whole, each⟩ := exists_through?_of_pieces split
  rw [split] at member
  rcases List.mem_cons.mp member with rfl | member
  · exact whole
  · exact each part member

/-- A text is cut nowhere exactly if something is open at each of its commas. -/
theorem through?_eq_some_iff : s.through? t = some r ↔
    s.after t = r ∧ ∀ before rest, t = before ++ ',' :: rest →
      (s.after before).isNeutral = false := by
  induction t generalizing s with
  | nil => simp [through?, after]
  | cons c t ih =>
    rw [through?]
    split
    · rename_i cut
      rw [Bool.and_eq_true, decide_eq_true_eq] at cut
      obtain ⟨rfl, neutral⟩ := cut
      constructor
      · intro none
        cases none
      · rintro ⟨-, uncut⟩
        exact absurd neutral (Bool.eq_false_iff.mp (uncut [] t rfl))
    · rename_i noCut
      refine ih.trans (and_congr_right fun _ => ⟨fun uncut before rest whole => ?_, ?_⟩)
      · cases before with
        | nil =>
          obtain ⟨rfl, -⟩ := List.cons.inj whole
          exact Bool.eq_false_iff.mpr fun neutral : s.isNeutral => noCut (by simpa using neutral)
        | cons d before =>
          obtain ⟨rfl, behind⟩ := List.cons.inj whole
          exact uncut before rest behind
      · exact fun uncut before rest whole => uncut (c :: before) rest (congrArg (c :: ·) whole)

end SplitState

variable {t part : Text}

/-- The stripped text as the only part, and no part if the text is blank. -/
def onlyPart (t : Text) : List Text := if isBlankText t then [] else [strip t]

theorem filter_map_strip_cons (piece : Text) (pieces : List Text) :
    ((piece :: pieces).map strip).filter (· ≠ []) =
      onlyPart piece ++ (pieces.map strip).filter (· ≠ []) := by
  rw [List.map_cons, List.filter_cons, onlyPart]
  by_cases blank : isBlankText piece
  · rw [if_pos blank, strip_eq_nil_iff.mpr blank]
    rfl
  · have filled : strip piece ≠ [] := mt strip_eq_nil_iff.mp blank
    rw [if_neg blank, if_pos (decide_eq_true filled)]
    rfl

theorem splitTopLevel_of_through? {r : SplitState} (through : SplitState.through? {} t = some r) :
    splitTopLevel t = onlyPart t := by
  rw [splitTopLevel, SplitState.pieces_of_through? through, filter_map_strip_cons]
  exact List.append_nil _

/-- The parts of a text are the one in front of the first comma that the finder finds, and the parts
of what stands behind it. A text in which it finds none is one part. -/
theorem splitTopLevel_eq_findTopLevel? (t : Text) :
    splitTopLevel t = (findTopLevel? "," t).elim (onlyPart t) fun i =>
      onlyPart (t.take i) ++ splitTopLevel (t.drop (i + 1)) := by
  cases found : findTopLevel? "," t with
  | none =>
    obtain ⟨r, through⟩ := SplitState.exists_through?_of_find? SplitState.isMarked_start found
    exact splitTopLevel_of_through? through
  | some i =>
    obtain ⟨before, after, r, rfl, rfl, through, neutral⟩ :=
      SplitState.exists_cut_of_find? SplitState.isMarked_start found
    have cut := SplitState.pieces_cut ⟨r, through, neutral⟩ after
    have behind : (before ++ ',' :: after).drop (before.length + 1) = after := by
      rw [← List.drop_drop, List.drop_left, List.drop_one, List.tail_cons]
    rw [Option.elim_some, Nat.zero_add, List.take_left, behind, splitTopLevel, cut,
      filter_map_strip_cons, splitTopLevel]

/-- A parenthesis that closes nothing hides the commas behind it until another one opens. -/
example : splitTopLevel ") a, b (, 'c" = [") a, b (".toList, "'c".toList] := by decide

/-- The text can be one part among others: it is stripped and not blank, nothing is open behind it,
and at each of its commas something is. -/
structure StandsAlone (t : Text) : Prop where
  filled : isBlankText t = false
  stripped : strip t = t
  closed : (SplitState.after {} t).isNeutral
  uncut : ∀ before rest, t = before ++ ',' :: rest →
    (SplitState.after {} before).isNeutral = false

theorem standsAlone_iff : StandsAlone t ↔ isBlankText t = false ∧ strip t = t ∧ IsWhole t := by
  constructor
  · rintro ⟨filled, stripped, closed, uncut⟩
    exact ⟨filled, stripped, _, SplitState.through?_eq_some_iff.mpr ⟨rfl, uncut⟩, closed⟩
  · rintro ⟨filled, stripped, r, through, neutral⟩
    obtain ⟨rfl, uncut⟩ := SplitState.through?_eq_some_iff.mp through
    exact ⟨filled, stripped, neutral, uncut⟩

instance : DecidablePred IsWhole := fun t =>
  decidable_of_iff ((SplitState.through? {} t).any (·.isNeutral)) (Option.any_eq_true ..)

instance : DecidablePred StandsAlone := fun _ => decidable_of_iff _ standsAlone_iff.symm

/-- Texts that stand alone come apart where they are joined. No part of a split is split further. -/
theorem splitTopLevel_parts :
    (∀ parts : List Text, (∀ part ∈ parts, StandsAlone part) →
      splitTopLevel (join ", " parts) = parts) ∧
    ∀ t : Text, ∀ part ∈ splitTopLevel t, splitTopLevel part = [part] := by
  refine ⟨fun parts each => ?_, fun t part member => ?_⟩
  · refine splitTopLevel_join (fun part member => (standsAlone_iff.mp (each part member)).2.2)
      (fun part member => (each part member).stripped) fun part member empty => ?_
    have filled := (each part member).filled
    rw [empty] at filled
    cases filled
  · obtain ⟨isPiece, filled⟩ := List.mem_filter.mp member
    obtain ⟨piece, inside, rfl⟩ := List.mem_map.mp isPiece
    obtain ⟨r, through⟩ := SplitState.exists_through?_of_mem inside
    rw [splitTopLevel_strip, splitTopLevel_of_through? through, onlyPart, if_neg]
    exact mt strip_eq_nil_iff.mpr (of_decide_eq_true filled)

/-- A quote that is kept from closing, commas between parentheses and backticks, a backslash in front
of the comma that joins, and a part that closes nothing. -/
theorem splitTopLevel_parts_nested :
    (∀ part ∈ (["'it\\'s, x'", "f(a, b) \\", "`c, d`"] : List Text), StandsAlone part) ∧
      splitTopLevel (join ", " ["'it\\'s, x'", "f(a, b) \\", "`c, d`"]) =
        ["'it\\'s, x'", "f(a, b) \\", "`c, d`"] ∧
      "(a, b".toList ∈ splitTopLevel "c, (a, b " ∧
        splitTopLevel "(a, b" = ["(a, b".toList] := by
  have each : ∀ part ∈ (["'it\\'s, x'", "f(a, b) \\", "`c, d`"] : List Text),
      StandsAlone part := by
    decide
  have member : "(a, b".toList ∈ splitTopLevel "c, (a, b " := by decide
  exact ⟨each, splitTopLevel_parts.1 _ each, member, splitTopLevel_parts.2 _ _ member⟩

end DatafileMigration.Text
