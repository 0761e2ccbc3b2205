import Mathlib.Data.List.Chain
import DatafileMigration.Proofs.Column.Reading
import DatafileMigration.Proofs.Script.ColumnType

namespace DatafileMigration

namespace ColumnType

open Script

/-- A member as it is written: what stands in its quotes, and what stands behind them, up to the next
member. -/
structure Entry where
  name : Text
  tail : Text
  deriving DecidableEq, Repr

/-- The number behind an equals sign with which a text begins, and the rest. -/
def assigned? (t : Text) : Option (Text × Text) := do
  let rest ← Text.dropPrefix? "=" (Text.stripStart t)
  integerAt? (Text.stripStart rest)

/-- A text that begins with an equals sign and an integer, with blanks in front of both. -/
def IsNumbered (t : Text) : Prop :=
  ∃ front middle number rest : Text, t = front ++ '=' :: (middle ++ (number ++ rest)) ∧
    (∀ c ∈ front, Text.isBlank c) ∧ (∀ c ∈ middle, Text.isBlank c) ∧ number.IsInteger

namespace Entry

def print (e : Entry) : Text := '\'' :: e.name ++ '\'' :: e.tail

/-- The member, if the entry has a name and a number. -/
def member? (e : Entry) : Option EnumMember :=
  if e.name = [] then none else (assigned? e.tail).map fun (number, _) => { name := e.name, number }

/-- The entry has a name and a number. -/
structure IsWhole (e : Entry) : Prop where
  named : e.name ≠ []
  numbered : IsNumbered e.tail

/-- What the quotes between two names enclose, where the quote of the first is taken for an opening
one. -/
def across (e next : Entry) : Entry := ⟨e.tail, next.name⟩

end Entry

/-- A text that neither begins nor ends a quotation, on one line. -/
def IsBetweenQuotes (t : Text) : Prop := '\'' ∉ t ∧ '\n' ∉ t

instance (t : Text) : Decidable (IsBetweenQuotes t) := inferInstanceAs (Decidable (_ ∧ _))

/-- The arguments of an enumeration, behind what stands in front of them. -/
def enumArguments (lead : Text) (entries : List Entry) : Text := lead ++ entries.flatMap Entry.print

/-- The members that are found, if one is: those of whole entries, and those that are found across
entries behind one that is not whole. -/
def found : Option Entry → List Entry → List EnumMember
  | _, [] => []
  | broken, e :: entries =>
    match broken.bind fun b => (b.across e).member? with
    | some m => m :: found (some e) entries
    | none =>
      match e.member? with
      | some m => m :: found none entries
      | none => found (some e) entries

/-- What is still to be read: behind a broken entry its closing quote stands in front. -/
def remaining : Option Entry → List Entry → Text
  | none, entries => entries.flatMap Entry.print
  | some b, entries => '\'' :: b.tail ++ entries.flatMap Entry.print

variable {t u rest name : Text} {e b : Entry} {entries : List Entry} {broken : Option Entry}

/-- A quote, or nothing at all. -/
def Stops (t : Text) : Prop := t = [] ∨ ∃ u, t = '\'' :: u

theorem stops_print (entries : List Entry) : Stops (entries.flatMap Entry.print) := by
  cases entries with
  | nil => exact Or.inl rfl
  | cons e entries => exact Or.inr ⟨_, rfl⟩

theorem stops_remaining (e : Entry) (entries : List Entry) :
    Stops (remaining (some e) entries) := Or.inr ⟨_, rfl⟩

theorem dropWhile_append_of_stops {p : Char → Bool} (other : p '\'' = false) (stops : Stops u)
    (t : Text) : (t ++ u).dropWhile p = t.dropWhile p ++ u := by
  rcases stops with rfl | ⟨u, rfl⟩
  · simp
  · rw [List.dropWhile_append]
    split
    · rename_i all
      rw [List.isEmpty_iff.mp all, List.dropWhile_cons_of_neg (by rw [other]; decide)]
      rfl
    · rfl

theorem takeWhile_append_of_stops {p : Char → Bool} (other : p '\'' = false) (stops : Stops u)
    (t : Text) : (t ++ u).takeWhile p = t.takeWhile p := by
  rcases stops with rfl | ⟨u, rfl⟩
  · simp
  · rw [List.takeWhile_append]
    split
    · rename_i all
      rw [List.takeWhile_cons_of_neg (by rw [other]; decide), List.append_nil]
      exact ((List.takeWhile_sublist p).eq_of_length all).symm
    · rfl

theorem stripStart_append_of_stops (stops : Stops u) (t : Text) :
    Text.stripStart (t ++ u) = Text.stripStart t ++ u :=
  dropWhile_append_of_stops (by decide) stops t

theorem dropPrefix?_append_of_stops {c : Char} (other : c ≠ '\'') (stops : Stops u) (t : Text) :
    Text.dropPrefix? [c] (t ++ u) = (Text.dropPrefix? [c] t).map (· ++ u) := by
  cases t with
  | nil =>
    rcases stops with rfl | ⟨u, rfl⟩
    · rfl
    · exact if_neg other
  | cons d t =>
    by_cases same : c = d
    · simp [Text.dropPrefix?, same]
    · simp [Text.dropPrefix?, same]

theorem cutSign_append_of_stops (stops : Stops u) (t : Text) :
    cutSign (t ++ u) = ((cutSign t).1, (cutSign t).2 ++ u) := by
  cases t with
  | nil => rcases stops with rfl | ⟨u, rfl⟩ <;> rfl
  | cons c t =>
    by_cases sign : c = '-'
    · rw [sign]
      rfl
    · simp [cutSign, sign]

theorem integerAt?_append_of_stops (stops : Stops u) (t : Text) :
    integerAt? (t ++ u) = (integerAt? t).map fun (number, rest) => (number, rest ++ u) := by
  rw [integerAt?, cutSign_append_of_stops stops, takeWhile_append_of_stops (by decide) stops,
    dropWhile_append_of_stops (by decide) stops, integerAt?, Option.map_map]
  rfl

/-- What a text assigns does not depend on the quotation behind it. -/
theorem assigned?_append_of_stops (stops : Stops u) (t : Text) :
    assigned? (t ++ u) = (assigned? t).map fun (number, rest) => (number, rest ++ u) := by
  have equals : "=".toList = ['='] := rfl
  simp only [assigned?, equals, Option.bind_eq_bind, stripStart_append_of_stops stops,
    dropPrefix?_append_of_stops (c := '=') (by decide) stops, Option.bind_map, Option.map_bind]
  refine congrArg _ (funext fun rest => ?_)
  rw [Function.comp_apply, Function.comp_apply, stripStart_append_of_stops stops,
    integerAt?_append_of_stops stops]

theorem eq_of_integerAt? {number : Text} (integer : integerAt? t = some (number, rest)) :
    t = number ++ rest ∧ number.IsInteger := by
  obtain ⟨digits, read, same⟩ := Option.map_eq_some_iff.mp integer
  have isDigits := isDigits_of_digits? read
  have front : digits = (cutSign t).2.takeWhile Text.isDigit := by
    rw [digits?] at read
    split at read
    · exact (Option.some.inj read).symm
    · cases read
  have behind : (cutSign t).2 = digits ++ (cutSign t).2.dropWhile Text.isDigit := by
    rw [front, List.takeWhile_append_dropWhile]
  cases same
  unfold cutSign at behind ⊢
  split at behind <;> rename_i spelled
  · exact ⟨congrArg ('-' :: ·) behind, .negative isDigits⟩
  · exact ⟨behind, .positive isDigits⟩

theorem eq_of_assigned? {number : Text} (assigned : assigned? t = some (number, rest)) :
    ∃ front middle : Text, t = front ++ '=' :: (middle ++ (number ++ rest)) ∧
      (∀ c ∈ front, Text.isBlank c) ∧ (∀ c ∈ middle, Text.isBlank c) ∧ number.IsInteger := by
  obtain ⟨behind, equals, found⟩ := Option.bind_eq_some_iff.mp assigned
  obtain ⟨spelled, integer⟩ := eq_of_integerAt? found
  refine ⟨t.takeWhile Text.isBlank, behind.takeWhile Text.isBlank, ?_,
    fun c member => List.mem_takeWhile_imp member, fun c member => List.mem_takeWhile_imp member,
    integer⟩
  rw [← spelled, Text.stripStart, List.takeWhile_append_dropWhile]
  have first := Text.dropPrefix?_eq_some_iff.mp equals
  exact (List.takeWhile_append_dropWhile (p := Text.isBlank)).symm.trans (congrArg _ first)

theorem isSome_digits? {digits : Text} (isDigits : digits.IsDigits) (rest : Text) :
    (digits? ((digits ++ rest).takeWhile Text.isDigit)).isSome := by
  rw [List.takeWhile_append_of_pos isDigits.2]
  have written : (digits ++ rest.takeWhile Text.isDigit).IsDigits :=
    Text.isDigits_append isDigits fun c member => List.mem_takeWhile_imp member
  rw [digits?_of_isDigits written]
  rfl

theorem isSome_integerAt? {number : Text} (integer : number.IsInteger) (rest : Text) :
    (integerAt? (number ++ rest)).isSome := by
  rw [integerAt?, Option.isSome_map]
  cases integer with
  | positive digits =>
    rw [cutSign_of_isDigits digits]
    exact isSome_digits? digits rest
  | negative digits => exact isSome_digits? digits rest

theorem isNumbered_iff : IsNumbered t ↔ (assigned? t).isSome := by
  constructor
  · rintro ⟨front, middle, number, rest, rfl, blank, blank', integer⟩
    have sign : Text.stripStart (front ++ '=' :: (middle ++ (number ++ rest))) =
        "=" ++ (middle ++ (number ++ rest)) := Text.dropWhile_of_stop blank (by decide)
    rw [assigned?, sign, Text.dropPrefix?_eq_some_iff.mpr rfl, Option.bind_eq_bind,
      Option.bind_some, integer.stripStart _ blank']
    exact isSome_integerAt? integer rest
  · intro assigned
    obtain ⟨⟨number, rest⟩, assigned⟩ := Option.isSome_iff_exists.mp assigned
    obtain ⟨front, middle, spelled, blank, blank', integer⟩ := eq_of_assigned? assigned
    exact ⟨front, middle, number, rest, spelled, blank, blank', integer⟩

theorem Entry.isWhole_iff : e.IsWhole ↔ e.member?.isSome := by
  rw [Entry.member?]
  split
  · rename_i empty
    exact iff_of_false (fun whole => whole.named empty) nofun
  · rename_i named
    rw [Option.isSome_map, ← isNumbered_iff]
    exact ⟨IsWhole.numbered, fun numbered => ⟨named, numbered⟩⟩

theorem memberAt?_quoted (plain : '\'' ∉ name) (rest : Text) :
    memberAt? ('\'' :: name ++ '\'' :: rest) =
      if name = [] then none
      else (assigned? rest).map fun (number, rest) => ({ name, number }, rest) := by
  have quote : Text.dropPrefix? "'" ('\'' :: name ++ '\'' :: rest) =
      some (name ++ '\'' :: rest) := Text.dropPrefix?_eq_some_iff.mpr rfl
  rw [memberAt?, quote]
  simp only [Option.bind_eq_bind, Option.bind_some, Text.cutAt?_append plain, assigned?]
  by_cases empty : name = []
  · simp only [if_pos empty, Option.bind_fun_none]
  · simp only [if_neg empty, Option.map_bind]
    refine congrArg _ (funext fun behind => ?_)
    rw [Function.comp_apply]
    cases integerAt? (Text.stripStart behind) <;> rfl

theorem members_append (plain : '\'' ∉ t) (u : Text) : members (t ++ u) = members u := by
  induction t with
  | nil => rfl
  | cons c t ih =>
    rw [List.mem_cons, not_or] at plain
    have none : memberAt? (c :: (t ++ u)) = none := by
      have other : Text.dropPrefix? "'" (c :: (t ++ u)) = none := if_neg plain.1
      rw [memberAt?, other]
      rfl
    rw [List.cons_append, members_of_none none, ih plain.2]

theorem members_nil : members [] = [] := by
  rw [members]
  rfl

/-- At a quote a member is found, or the reader goes on at the quote that closes this one. -/
theorem members_quoted (plain : '\'' ∉ e.name) (plain' : '\'' ∉ e.tail) (stops : Stops u) :
    members ('\'' :: e.name ++ '\'' :: (e.tail ++ u)) =
      match e.member? with
      | some m => m :: members u
      | none => members ('\'' :: (e.tail ++ u)) := by
  have quoted := memberAt?_quoted plain (e.tail ++ u)
  have skipped (none : memberAt? ('\'' :: e.name ++ '\'' :: (e.tail ++ u)) = none) :
      members ('\'' :: e.name ++ '\'' :: (e.tail ++ u)) = members ('\'' :: (e.tail ++ u)) :=
    (members_of_none none).trans (members_append plain _)
  rw [assigned?_append_of_stops stops] at quoted
  unfold Entry.member?
  split at quoted
  · rename_i empty
    rw [if_pos empty]
    exact skipped quoted
  · rename_i named
    rw [if_neg named]
    cases assigned : assigned? e.tail with
    | none =>
      rw [assigned] at quoted
      exact skipped quoted
    | some found =>
      rw [assigned] at quoted
      have rest : '\'' ∉ found.2 := fun member => by
        obtain ⟨front, middle, spelled, _⟩ := eq_of_assigned? assigned
        rw [spelled] at plain'
        simp [member] at plain'
      exact (members_of_some quoted).trans (congrArg _ (members_append rest u))

/-- Behind a broken entry, or at the start, the reader finds what is told by the entries. It looks
for a member wherever one begins, passes over a name without a number, and may then take the text
between two names for a name. -/
theorem members_remaining (broken : Option Entry)
    (plain : ∀ e ∈ broken, '\'' ∉ e.tail) (each : ∀ e ∈ entries, '\'' ∉ e.name ∧ '\'' ∉ e.tail) :
    members (remaining broken entries) = found broken entries := by
  induction entries generalizing broken with
  | nil =>
    cases broken with
    | none => exact members_nil
    | some b =>
      have open? : memberAt? ('\'' :: b.tail) = none := by
        have quote : Text.dropPrefix? "'" ('\'' :: b.tail) = some b.tail :=
          Text.dropPrefix?_eq_some_iff.mpr rfl
        have closing := Text.cutAt?_of_not_mem (plain b rfl)
        rw [memberAt?, quote, Option.bind_eq_bind, Option.bind_some, closing]
        rfl
      have skipped := members_append (plain b rfl) []
      rw [List.append_nil, members_nil] at skipped
      rw [remaining, List.flatMap_nil, List.append_nil]
      exact (members_of_none open?).trans skipped
  | cons e entries ih =>
    obtain ⟨first, rest⟩ := List.forall_mem_cons.mp each
    have behind : members (remaining (some e) entries) = found (some e) entries :=
      ih (some e) (by simpa using first.2) rest
    have whole : members (remaining none (e :: entries)) = found none (e :: entries) := by
      have spelled : remaining none (e :: entries) =
          '\'' :: e.name ++ '\'' :: (e.tail ++ entries.flatMap Entry.print) := by
        simp [remaining, Entry.print]
      rw [found, ← behind, ← ih none (by simp) rest, spelled,
        members_quoted first.1 first.2 (stops_print entries)]
      rfl
    cases broken with
    | none => exact whole
    | some b =>
      have spelled : remaining (some b) (e :: entries) = '\'' :: (b.across e).name ++
          '\'' :: ((b.across e).tail ++ remaining (some e) entries) := by
        simp [remaining, Entry.print, Entry.across]
      have opening : '\'' :: ((b.across e).tail ++ remaining (some e) entries) =
          remaining none (e :: entries) := by
        simp [remaining, Entry.print, Entry.across]
      rw [spelled, members_quoted (e := b.across e) (plain b rfl) first.1
        (stops_remaining e entries), behind, opening, whole]
      rfl

theorem name_of_member? {m : EnumMember} (member : e.member? = some m) : m.name = e.name := by
  rw [Entry.member?] at member
  split at member
  · cases member
  · obtain ⟨_, _, rfl⟩ := Option.map_eq_some_iff.mp member
    rfl

theorem length_found_le (broken : Option Entry) (entries : List Entry) :
    (found broken entries).length ≤ entries.length := by
  fun_induction found broken entries with
  | case1 => exact Nat.le_refl _
  | case2 broken e entries m across ih => exact Nat.succ_le_succ ih
  | case3 broken e entries none m member ih => exact Nat.succ_le_succ ih
  | case4 broken e entries none none' ih => exact Nat.le_succ_of_le ih

theorem found_cons (e : Entry) (entries : List Entry) :
    found none (e :: entries) = match e.member? with
      | some m => m :: found none entries
      | none => found (some e) entries := rfl

/-- A member is missing among those that are found as soon as an entry is not whole. -/
theorem isWhole_of_length_found (length : (found none entries).length = entries.length) :
    ∀ e ∈ entries, e.IsWhole := by
  induction entries with
  | nil => exact nofun
  | cons e entries ih =>
    rw [found_cons] at length
    cases member : e.member? with
    | some m =>
      rw [member] at length
      have whole := Entry.isWhole_iff.mpr (Option.isSome_of_eq_some member)
      exact List.forall_mem_cons.mpr ⟨whole, ih (Nat.succ.inj length)⟩
    | none =>
      rw [member] at length
      have fewer := length_found_le (some e) entries
      rw [length, List.length_cons] at fewer
      omega

theorem names_found_iff : (found none entries).map EnumMember.name = entries.map Entry.name ↔
    ∀ e ∈ entries, e.IsWhole := by
  constructor
  · intro names
    have length := congrArg List.length names
    rw [List.length_map, List.length_map] at length
    exact isWhole_of_length_found length
  · intro whole
    induction entries with
    | nil => rfl
    | cons e entries ih =>
      obtain ⟨first, rest⟩ := List.forall_mem_cons.mp whole
      obtain ⟨m, member⟩ := Option.isSome_iff_exists.mp (Entry.isWhole_iff.mp first)
      rw [found_cons, member, List.map_cons, List.map_cons, ih rest, name_of_member? member]

/-- Neighbours across which no member is found. -/
def Apart (e next : Entry) : Prop := ¬ (e.across next).IsWhole

theorem found_eq_nil_iff : found broken entries = [] ↔
    (∀ e ∈ entries, ¬ e.IsWhole) ∧ (broken.toList ++ entries).IsChain Apart := by
  induction entries generalizing broken with
  | nil => cases broken <;> simp [found]
  | cons e entries ih =>
    have step : found broken (e :: entries) = [] ↔
        (broken.bind fun b => (b.across e).member?) = none ∧ e.member? = none ∧
          found (some e) entries = [] := by
      rw [found]
      cases broken.bind fun b => (b.across e).member? with
      | some m => simp
      | none => cases e.member? <;> simp
    rw [step, ih]
    cases broken with
    | none => simp [Entry.isWhole_iff, and_assoc]
    | some b => simp [Entry.isWhole_iff, Apart, and_assoc, and_left_comm]

/-- The expression of an enumeration with these names. -/
def enumBuilder (width : EnumWidth) (names : List Text) : Text :=
  "t.enum" ++ width.print ++ "(" ++ Text.join ", " (names.map Text.quoted) ++ ")"

theorem builder_enum (width : EnumWidth) (members : List EnumMember) :
    (ColumnType.enum width members).builder = enumBuilder width (members.map EnumMember.name) := by
  dsimp only [builder, enumBuilder]
  rw [List.map_map, Function.comp_def]

/-- Two lists of names do not have one expression. -/
theorem names_of_enumBuilder {width : EnumWidth} {names others : List Text}
    (same : enumBuilder width names = enumBuilder width others) : names = others := by
  have read (names : List Text) :
      (tokensOf? (enumBuilder width names)).map strings = some names := by
    have forms := forms_builder (.enum width (names.map fun n => ⟨n, []⟩))
    have spells := forms.spells nofun true
    have same : (names.map fun n => EnumMember.mk n []).map EnumMember.name = names := by
      rw [List.map_map]
      exact List.map_id names
    have strings : strings (ColumnType.enum width (names.map fun n => ⟨n, []⟩)).tokens = names := by
      change strings (typeCall ("enum" ++ width.print) _) = names
      rw [typeCall, ignoresMarks_strings.call, List.map_map, List.flatMap_map]
      exact List.flatMap_singleton' names
    rw [builder_enum, same] at spells
    rw [spells.tokensOf?, Option.map_some, strings]
  have both := congrArg (fun t => (tokensOf? t).map strings) same
  rw [read, read] at both
  exact Option.some.inj both

end ColumnType

open ColumnType

/-- A type that writes an enumeration. -/
def enumText (width : EnumWidth) (lead : Text) (entries : List Entry) : Text :=
  headed ("Enum" ++ width.print) (enumArguments lead entries)

variable {width : EnumWidth} {lead : Text} {entries : List Entry}

theorem columnBuilder_enumText (some : entries ≠ []) (front : IsBetweenQuotes lead)
    (each : ∀ e ∈ entries, IsBetweenQuotes e.name ∧ IsBetweenQuotes e.tail) :
    columnBuilder (enumText width lead entries) =
      if found none entries = [] then .error ⟨enumText width lead entries⟩
      else .ok (enumBuilder width ((found none entries).map EnumMember.name)) := by
  have members : members (enumArguments lead entries) = found none entries := by
    rw [enumArguments, members_append front.1]
    exact members_remaining none nofun fun e member => ⟨(each e member).1.1, (each e member).2.1⟩
  have nonempty : enumArguments lead entries ≠ [] := by
    obtain ⟨e, entries, rfl⟩ := List.exists_cons_of_ne_nil some
    simp [enumArguments, Entry.print]
  have inline : '\n' ∉ enumArguments lead entries := by
    rw [enumArguments, List.mem_append, List.mem_flatMap, not_or]
    refine ⟨front.2, ?_⟩
    rintro ⟨e, member, here⟩
    simp [Entry.print, (each e member).1.2, (each e member).2.2] at here
  have identifier : Text.isIdentifier ("Enum" ++ width.print) := by cases width <;> decide
  rw [columnBuilder, enumText, read_headed identifier, shape_enum nonempty inline, readLayer,
    members]
  cases here : found none entries with
  | nil => rfl
  | cons m ms =>
    rw [if_neg (List.cons_ne_nil m ms), ← builder_enum]
    rfl

/-- An enumeration has an expression with exactly its names if each entry has a name and a number,
and only then; it is refused if no entry has, unless a member is found across two entries. In all
other cases the names are those that are found. -/
theorem columnBuilder_enum_iff (some : entries ≠ []) (front : IsBetweenQuotes lead)
    (each : ∀ e ∈ entries, IsBetweenQuotes e.name ∧ IsBetweenQuotes e.tail) :
    (columnBuilder (enumText width lead entries) =
        .ok (enumBuilder width (entries.map Entry.name)) ↔ ∀ e ∈ entries, e.IsWhole) ∧
      (columnBuilder (enumText width lead entries) = .error ⟨enumText width lead entries⟩ ↔
        (∀ e ∈ entries, ¬ e.IsWhole) ∧ entries.IsChain Apart) ∧
      (columnBuilder (enumText width lead entries) ≠ .error ⟨enumText width lead entries⟩ →
        columnBuilder (enumText width lead entries) =
          .ok (enumBuilder width ((found none entries).map EnumMember.name))) ∧
      (found none entries).length ≤ entries.length := by
  have empty := @found_eq_nil_iff entries none
  rw [columnBuilder_enumText some front each, ← names_found_iff]
  refine ⟨?_, ?_, ?_, length_found_le none entries⟩
  · split
    · rename_i none
      refine iff_of_false nofun fun same => some ?_
      rw [none, List.map_nil, eq_comm, List.map_eq_nil_iff] at same
      exact same
    · constructor
      · exact fun same => names_of_enumBuilder (Except.ok.inj same)
      · exact fun same => by rw [same]
  · rw [Option.toList_none, List.nil_append] at empty
    rw [← empty]
    split
    · rename_i none
      exact iff_of_true rfl none
    · rename_i more
      exact iff_of_false nofun more
  · split
    · exact fun other => absurd rfl other
    · exact fun _ => rfl

/-- Two members with numbers, the second below zero. -/
def numberedEntries : List Entry := [⟨"a, b", " = 1, "⟩, ⟨"c", "=-2"⟩]

theorem columnBuilder_enum_iff_numbered :
    numberedEntries ≠ [] ∧ IsBetweenQuotes [] ∧
      (∀ e ∈ numberedEntries, IsBetweenQuotes e.name ∧ IsBetweenQuotes e.tail) ∧
      (columnBuilder (enumText .eight [] numberedEntries) =
          .ok (enumBuilder .eight (numberedEntries.map Entry.name)) ↔
        ∀ e ∈ numberedEntries, e.IsWhole) ∧
      (columnBuilder (enumText .eight [] numberedEntries) =
          .error ⟨enumText .eight [] numberedEntries⟩ ↔
        (∀ e ∈ numberedEntries, ¬ e.IsWhole) ∧ numberedEntries.IsChain Apart) ∧
      (columnBuilder (enumText .eight [] numberedEntries) ≠
          .error ⟨enumText .eight [] numberedEntries⟩ →
        columnBuilder (enumText .eight [] numberedEntries) =
          .ok (enumBuilder .eight ((found none numberedEntries).map EnumMember.name))) ∧
      (found none numberedEntries).length ≤ numberedEntries.length := by
  have some : numberedEntries ≠ [] := List.cons_ne_nil _ _
  have front : IsBetweenQuotes [] := by decide
  have each : ∀ e ∈ numberedEntries, IsBetweenQuotes e.name ∧ IsBetweenQuotes e.tail := by decide
  exact ⟨some, front, each, columnBuilder_enum_iff some front each⟩

/-- A member without a number is missing in the expression, and behind a member without a name what
stands between two members becomes one. -/
theorem columnBuilder_enum_dropped :
    enumText .eight [] [⟨"a", ", "⟩, ⟨"b", " = 2"⟩] = "Enum8('a', 'b' = 2)" ∧
      columnBuilder "Enum8('a', 'b' = 2)" = .ok (enumBuilder .eight ["b".toList]) ∧
      enumText .eight [] [⟨"", " = 1, "⟩, ⟨"=2", " = 2"⟩] = "Enum8('' = 1, '=2' = 2)" ∧
      columnBuilder "Enum8('' = 1, '=2' = 2)" = .ok (enumBuilder .eight [" = 1, ".toList]) := by
  decide +kernel

end DatafileMigration
