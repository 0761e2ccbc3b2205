import DatafileMigration.Proofs.Script.Phrase

namespace DatafileMigration.Script

/-- The brackets that are open behind a token, if it closes none but the innermost. -/
def shift? (brackets : List Char) : Token → Option (List Char)
  | .mark c =>
    match closer? c with
    | some close => some (close :: brackets)
    | none =>
      if isCloser c then
        match brackets with
        | [] => none
        | close :: rest => if c = close then some rest else none
      else some brackets
  | .word _ | .string _ | .comment _ => some brackets

/-- Tokens in front of the first piece. -/
def onFirst (tokens : List Token) : List (List Token) → List (List Token)
  | [] => []
  | piece :: pieces => (tokens ++ piece) :: pieces

/-- The stretches between the commas that stand in no bracket. -/
def pieces : List Char → List Token → Option (List (List Token))
  | brackets, [] => if brackets = [] then some [[]] else none
  | brackets, token :: tokens =>
    if brackets = [] ∧ token = .mark ',' then (pieces [] tokens).map ([] :: ·)
    else (shift? brackets token).bind fun inner => (pieces inner tokens).map (onFirst [token])

/-- Arguments with a comma behind each. -/
def enumerated (arguments : List (List Token)) : List Token :=
  arguments.flatMap (· ++ [.mark ','])

def entry? : List Token → Option (Text × List Token)
  | .string key :: .mark ':' :: value => some (key, value)
  | _ => none

/-- The entries of a dictionary that is displayed; comments do not count. -/
def dict? (tokens : List Token) : Option (List (Text × List Token)) :=
  match tokens.filter (!·.isComment) with
  | .mark '\x7b' :: inside =>
    if inside.getLast? = some (.mark '\x7d') then
      (pieces [] inside.dropLast).bind fun items =>
        (if items.getLast? = some [] then items.dropLast else items).mapM entry?
    else none
  | _ => none

/-- Tokens that pass as a part of one piece; `inside` asks for an open bracket around them. -/
def Passes (inside : Bool) (tokens : List Token) : Prop :=
  ∀ brackets rest, (inside → brackets ≠ []) →
    pieces brackets (tokens ++ rest) = (pieces brackets rest).map (onFirst tokens)

variable {inside : Bool} {tokens more : List Token} {t : Text} {c : Char}

theorem onFirst_onFirst (tokens more : List Token) (items : List (List Token)) :
    onFirst tokens (onFirst more items) = onFirst (tokens ++ more) items := by
  cases items with
  | nil => rfl
  | cons item items => exact congrArg (· :: items) (List.append_assoc tokens more item).symm

theorem onFirst_nil : onFirst [] = id := by
  funext items
  cases items <;> rfl

theorem isCloser_of_closer? {o : Char} (opens : closer? o = some c) : isCloser c := by
  rw [closer?] at opens
  repeat' split at opens
  all_goals cases opens
  all_goals rfl

namespace Passes

theorem nil : Passes inside [] := fun brackets rest _ => by
  rw [onFirst_nil, Option.map_id]
  rfl

theorem append (first : Passes inside tokens) (second : Passes inside more) :
    Passes inside (tokens ++ more) := by
  intro brackets rest around
  rw [List.append_assoc, first _ _ around, second _ _ around, Option.map_map]
  exact congrArg (Option.map · _) (funext (onFirst_onFirst tokens more))

theorem mono (passes : Passes false tokens) : Passes inside tokens :=
  fun brackets rest _ => passes brackets rest nofun

/-- A token that is neither a bracket nor a comma. -/
theorem single {token : Token} (plain : ∀ brackets, shift? brackets token = some brackets)
    (other : token ≠ .mark ',') : Passes inside [token] := by
  intro brackets rest _
  rw [List.singleton_append, pieces, if_neg (fun both => other both.2), plain]
  rfl

theorem string (value : Text) : Passes inside [.string value] := single (fun _ => rfl) nofun

theorem word (w : Text) : Passes inside [.word w] := single (fun _ => rfl) nofun

/-- Inside of brackets a comma is a token like others. -/
theorem comma : Passes true [.mark ','] := by
  intro brackets rest around
  rw [List.singleton_append, pieces, if_neg (fun both => around rfl both.1)]
  rfl

/-- What stands between brackets. -/
theorem enclosed {o : Char} (opens : closer? o = some c) (passes : Passes true tokens) :
    Passes inside (.mark o :: tokens ++ [.mark c]) := by
  intro brackets rest _
  have closer : c = ')' ∨ c = ']' ∨ c = '\x7d' := eq_of_isCloser (isCloser_of_closer? opens)
  have opened : shift? brackets (.mark o) = some (c :: brackets) := by simp only [shift?, opens]
  have closed : shift? (c :: brackets) (.mark c) = some brackets := by
    rcases closer with rfl | rfl | rfl <;> rfl
  have apart : o ≠ ',' ∧ c ≠ ',' := by
    refine ⟨?_, by rcases closer with rfl | rfl | rfl <;> decide⟩
    rintro rfl
    cases opens
  rw [List.cons_append, List.cons_append, pieces, if_neg (by simp [apart]), opened,
    Option.bind_some, List.append_assoc, passes _ _ (fun _ => List.cons_ne_nil _ _),
    List.singleton_append, pieces, if_neg (by simp), closed, Option.bind_some, Option.map_map,
    Option.map_map]
  refine congrArg (Option.map · _) (funext fun items => ?_)
  rw [Function.comp, Function.comp, onFirst_onFirst, onFirst_onFirst]
  rfl

theorem commas {arguments : List (List Token)} (all : ∀ a ∈ arguments, Passes true a) :
    Passes true (commas arguments) := by
  induction arguments with
  | nil => exact nil
  | cons argument arguments ih =>
    obtain ⟨first, rest⟩ := List.forall_mem_cons.mp all
    cases arguments with
    | nil => exact first
    | cons next arguments => exact first.append (comma.append (ih rest))

theorem enumerated {arguments : List (List Token)} (all : ∀ a ∈ arguments, Passes true a) :
    Passes true (enumerated arguments) := by
  induction arguments with
  | nil => exact nil
  | cons argument arguments ih =>
    obtain ⟨first, rest⟩ := List.forall_mem_cons.mp all
    exact (first.append comma).append (ih rest)

theorem select (object : Passes inside tokens) (name : Text) :
    Passes inside (select tokens name) :=
  object.append ((single (fun _ => rfl) (by decide)).append (word name))

theorem call {arguments : List (List Token)} (function : Passes inside tokens)
    (all : ∀ a ∈ arguments, Passes true a) : Passes inside (call tokens arguments) := by
  rw [Script.call, List.append_assoc]
  exact function.append ((commas all).enclosed rfl)

end Passes

/-- Arguments that pass are the pieces of them all, and nothing follows the last comma. -/
theorem pieces_enumerated {arguments : List (List Token)}
    (all : ∀ a ∈ arguments, Passes false a) :
    pieces [] (enumerated arguments) = some (arguments ++ [[]]) := by
  induction arguments with
  | nil => rfl
  | cons argument arguments ih =>
    obtain ⟨first, rest⟩ := List.forall_mem_cons.mp all
    rw [enumerated, List.flatMap_cons, ← enumerated, List.append_assoc, first [] _ nofun,
      List.singleton_append, pieces, if_pos ⟨rfl, rfl⟩, ih rest]
    simp [onFirst]

/-- So they can be told from it. -/
theorem enumerated_injective {arguments others : List (List Token)}
    (all : ∀ a ∈ arguments, Passes false a) (all' : ∀ a ∈ others, Passes false a)
    (same : enumerated arguments = enumerated others) : arguments = others := by
  have items := pieces_enumerated all
  rw [same, pieces_enumerated all', Option.some.injEq] at items
  exact (List.append_cancel_right items).symm

/-- The brackets that are open behind tokens. -/
def shifts? (brackets : List Char) (tokens : List Token) : Option (List Char) :=
  tokens.foldlM shift? brackets

/-- The reader has open what its tokens opened in a bracket that no character closes. -/
def Tracks (r : Reader) : Prop := shifts? [' '] r.line.reverse = some r.brackets

variable {a b : List Char} {token : Token} {r s : Reader} {close : Char}

theorem shift?_opener (opens : closer? c = some close) (brackets : List Char) :
    shift? brackets (.mark c) = some (close :: brackets) := by
  simp only [shift?, opens]

theorem shift?_other (none : closer? c = none) (other : isCloser c = false)
    (brackets : List Char) : shift? brackets (.mark c) = some brackets := by
  simp [shift?, none, other]

theorem shift?_closer (none : closer? c = none) (closes : isCloser c) (brackets : List Char) :
    shift? brackets (.mark c) = if brackets.head? = some c then some brackets.tail else .none := by
  cases brackets with
  | nil => simp [shift?, none, closes]
  | cons close rest => simp [shift?, none, closes, eq_comm]

/-- What a token does to the brackets does not depend on those around it. -/
theorem shift?_frame (step : shift? (a ++ [' ']) token = some b) :
    ∃ inner, b = inner ++ [' '] ∧ ∀ outer, shift? (a ++ outer) token = some (inner ++ outer) := by
  cases token with
  | mark c =>
    cases opens : closer? c with
    | some close =>
      rw [shift?_opener opens] at step
      cases step
      exact ⟨close :: a, rfl, fun outer => shift?_opener opens _⟩
    | none =>
      cases closes : isCloser c with
      | false =>
        rw [shift?_other opens closes] at step
        cases step
        exact ⟨a, rfl, fun outer => shift?_other opens closes _⟩
      | true =>
        rw [shift?_closer opens closes] at step
        split at step
        · rename_i innermost
          cases step
          cases a with
          | nil =>
            cases innermost
            exact absurd closes (by decide)
          | cons d a =>
            refine ⟨a, rfl, fun outer => ?_⟩
            rw [shift?_closer opens closes]
            exact if_pos innermost
        · cases step
  | word w | string value | comment t =>
    cases step
    exact ⟨a, rfl, fun _ => rfl⟩

/-- Tokens that leave the brackets as they are pass inside of others. -/
theorem pieces_of_shifts? (run : shifts? (a ++ [' ']) tokens = some b) :
    ∃ inner, b = inner ++ [' '] ∧ ∀ outer rest, outer ≠ [] →
      pieces (a ++ outer) (tokens ++ rest) =
        (pieces (inner ++ outer) rest).map (onFirst tokens) := by
  induction tokens generalizing a with
  | nil =>
    cases run
    refine ⟨a, rfl, fun outer rest _ => ?_⟩
    rw [onFirst_nil, Option.map_id]
    rfl
  | cons token tokens ih =>
    obtain ⟨middle, step, run⟩ := Option.bind_eq_some_iff.mp run
    obtain ⟨inner, rfl, frame⟩ := shift?_frame step
    obtain ⟨inner', rfl, behind⟩ := ih run
    refine ⟨inner', rfl, fun outer rest around => ?_⟩
    have inside : ¬ (a ++ outer = [] ∧ token = .mark ',') := fun both =>
      around (List.append_eq_nil_iff.mp both.1).2
    rw [List.cons_append, pieces, if_neg inside, frame, Option.bind_some, behind _ _ around,
      Option.map_map]
    exact congrArg (Option.map · _) (funext (onFirst_onFirst [token] tokens))

theorem Tracks.ne_nil (tracks : Tracks r) : r.brackets ≠ [] := by
  obtain ⟨inner, spelled, _⟩ := pieces_of_shifts? (a := []) tracks
  rw [spelled]
  exact List.append_ne_nil_of_right_ne_nil _ (List.cons_ne_nil _ _)

theorem Tracks.push (tracks : Tracks r) (token : Token) (step : shift? r.brackets token = some b) :
    Tracks { r.push [token] with brackets := b } := by
  have spelled : ({ r.push [token] with brackets := b } : Reader).line.reverse =
      r.line.reverse ++ [token] := List.reverse_cons
  rw [Tracks, spelled, shifts?, List.foldlM_append, ← shifts?, tracks]
  exact (bind_pure _).trans step

theorem Tracks.inCode (tracks : Tracks r) (step : r.inCode c = some s) : Tracks s := by
  revert step
  unfold Reader.inCode
  split
  · rintro ⟨⟩; exact tracks
  split
  · rintro ⟨⟩; exact tracks
  split
  · rintro ⟨⟩; exact tracks
  split
  · rw [if_neg tracks.ne_nil]
    rintro ⟨⟩; exact tracks
  split
  · rintro ⟨⟩; exact tracks
  split
  · rintro ⟨⟩
  split
  · rename_i opens
    rintro ⟨⟩
    exact tracks.push _ (shift?_opener opens r.brackets)
  rename_i none
  split
  · rename_i closes
    split
    · rintro ⟨⟩
    · rename_i close rest spelled
      split
      · rename_i same
        rintro ⟨⟩
        refine tracks.push _ ?_
        rw [shift?_closer none closes, spelled, same]
        exact if_pos rfl
      · rintro ⟨⟩
  · rename_i other
    rintro ⟨⟩
    exact tracks.push _ (shift?_other none (Bool.eq_false_iff.mpr other) r.brackets)

theorem Tracks.inString {long : Bool} {value : Text} (tracks : Tracks r)
    (step : r.inString long value c = some s) : Tracks s := by
  revert step
  unfold Reader.inString
  split
  · rintro ⟨⟩; exact tracks
  split
  · split
    · rintro ⟨⟩; exact tracks
    · rintro ⟨⟩
      exact tracks.push (.string value.reverse) rfl
  split
  · rintro ⟨⟩
  · rintro ⟨⟩; exact tracks

theorem Tracks.next (tracks : Tracks r) (step : r.next c = some s) : Tracks s := by
  obtain ⟨mode, brackets, line, lines⟩ := r
  revert step
  cases mode with
  | code => exact tracks.inCode
  | word t =>
    simp only [Reader.next]
    split
    · rintro ⟨⟩; exact tracks
    split
    · rintro ⟨⟩
    · exact Tracks.inCode (tracks.push (.word t.reverse) rfl)
  | comment t =>
    simp only [Reader.next]
    split
    · exact Tracks.inCode (tracks.push (.comment t.reverse) rfl)
    · rintro ⟨⟩; exact tracks
  | opened =>
    simp only [Reader.next]
    split
    · rintro ⟨⟩; exact tracks
    · exact tracks.inString
  | twice =>
    simp only [Reader.next]
    split
    · rintro ⟨⟩; exact tracks
    · exact Tracks.inCode (tracks.push (.string []) rfl)
  | string long value => exact tracks.inString
  | escape long value =>
    simp only [Reader.next]
    split
    · rintro ⟨⟩; exact tracks
    · rw [Option.map_eq_some_iff]
      rintro ⟨d, _, rfl⟩
      exact tracks
  | code16 long value digits code =>
    simp only [Reader.next]
    rw [Option.map_eq_some_iff]
    rintro ⟨n, _, rfl⟩
    split <;> exact tracks
  | closing value two =>
    simp only [Reader.next]
    split
    · split
      · rintro ⟨⟩
        exact tracks.push (.string value.reverse) rfl
      · rintro ⟨⟩; exact tracks
    · exact tracks.inString

theorem Tracks.scan (tracks : Tracks r) (scanned : r.scan t = some s) : Tracks s := by
  induction t generalizing r with
  | nil =>
    cases scanned
    exact tracks
  | cons c t ih =>
    rw [Reader.scan_cons] at scanned
    obtain ⟨_, step, scanned⟩ := Option.bind_eq_some_iff.mp scanned
    exact ih (tracks.next step) scanned

/-- The tokens of a text that is read as a whole pass inside of brackets. -/
theorem Spells.passes (spells : Spells true t tokens) : Passes true tokens := by
  have tracks : Tracks Reader.inner := rfl
  have run := tracks.scan spells.scan_inner
  rw [Tracks, Reader.line_push_inner] at run
  obtain ⟨inner, spelled, passes⟩ := pieces_of_shifts? (a := []) run
  have none : inner ++ [' '] = [] ++ [' '] := spelled.symm
  rw [List.append_cancel_right none] at passes
  exact fun brackets rest around => passes brackets rest (around rfl)

end DatafileMigration.Script
