import DatafileMigration.Number.Plain
import DatafileMigration.Proofs.Text.Word

namespace DatafileMigration

/-- An optional minus sign and more digits, of any script, than are read. -/
def IsLongInteger (t : Text) : Prop :=
  ∃ sign digits : Text, (sign = [] ∨ sign = ['-']) ∧ t = sign ++ digits ∧
    (∀ c ∈ digits, Text.isDigit c) ∧ integerDigitLimit < digits.length

theorem IsLongInteger.head {t : Text} (long : IsLongInteger t) :
    ∃ c rest, t = c :: rest ∧ (c = '-' ∨ Text.isDigit c) := by
  obtain ⟨sign, digits, kind, rfl, all, length⟩ := long
  rcases kind with rfl | rfl
  · cases digits with
    | nil => simp at length
    | cons c rest => exact ⟨c, rest, rfl, Or.inr (all c (List.mem_cons_self ..))⟩
  · exact ⟨'-', digits, rfl, Or.inl rfl⟩

theorem IsLongInteger.mem {t : Text} (long : IsLongInteger t) {c : Char} (member : c ∈ t) :
    c = '-' ∨ Text.isDigit c := by
  obtain ⟨sign, digits, kind, rfl, all, _⟩ := long
  rcases List.mem_append.mp member with signed | digit
  · rcases kind with rfl | rfl
    · cases signed
    · exact Or.inl (List.mem_singleton.mp signed)
  · exact Or.inr (all c digit)

namespace PlainNumber

theorem mapM_digitValue? {t : Text} (digits : ∀ c ∈ t, Text.isDigit c) :
    ∃ values, t.mapM Text.digitValue? = some values := by
  induction t with
  | nil => exact ⟨[], rfl⟩
  | cons c t ih =>
    obtain ⟨value, first⟩ := Option.isSome_iff_exists.mp (digits c (List.mem_cons_self ..))
    obtain ⟨values, rest⟩ := ih fun d member => digits d (List.mem_cons_of_mem _ member)
    exact ⟨value :: values, by simp [List.mapM_cons, first, rest]⟩

theorem of_mapM_digitValue? {t : Text} {values : List Nat}
    (read : t.mapM Text.digitValue? = some values) :
    values.length = t.length ∧ ∀ c ∈ t, Text.isDigit c := by
  induction t generalizing values with
  | nil =>
    cases read
    simp
  | cons c t ih =>
    simp only [List.mapM_cons, Option.bind_eq_bind, Option.bind_eq_some_iff, Option.pure_def,
      Option.some.injEq] at read
    obtain ⟨value, first, rest, others, rfl⟩ := read
    obtain ⟨length, digits⟩ := ih others
    refine ⟨by simp [length], ?_⟩
    intro d member
    rcases List.mem_cons.mp member with rfl | member
    · exact Option.isSome_iff_exists.mpr ⟨value, first⟩
    · exact digits d member

theorem digits?_isSome {t : Text} (nonempty : t ≠ []) (digits : ∀ c ∈ t, Text.isDigit c) :
    ∃ values, digits? t = some values := by
  rw [digits?, if_neg nonempty]
  exact mapM_digitValue? digits

theorem of_digits? {t : Text} {values : List Nat} (read : digits? t = some values) :
    values.length = t.length ∧ ∀ c ∈ t, Text.isDigit c := by
  rw [digits?] at read
  split at read
  · cases read
  · exact of_mapM_digitValue? read

/-- The number of a text without its sign. -/
def ofBody (negative : Bool) (body : Text) : Option PlainNumber :=
  match Text.cutAt? '.' body with
  | none => (digits? body).map fun whole => ⟨negative, whole, none⟩
  | some (whole, fraction) => do
    let whole ← digits? whole
    let fraction ← digits? fraction
    return ⟨negative, whole, some fraction⟩

theorem ofText?_minus (body : Text) : ofText? ('-' :: body) = ofBody true body := rfl

theorem ofText?_unsigned {t : Text} (unsigned : ∀ body, t ≠ '-' :: body) :
    ofText? t = ofBody false t := by
  unfold ofText?
  split
  rename_i negative body equal
  split at equal
  · exact absurd rfl (unsigned _)
  · cases equal
    rfl

theorem ofBody_eq_some {negative : Bool} {body : Text} {x : PlainNumber}
    (read : ofBody negative body = some x) (integer : x.fraction = none) :
    x.whole.length = body.length ∧ ∀ c ∈ body, Text.isDigit c := by
  unfold ofBody at read
  split at read
  · obtain ⟨values, some, rfl⟩ := Option.map_eq_some_iff.mp read
    exact of_digits? some
  · simp only [Option.bind_eq_bind, Option.bind_eq_some_iff, Option.pure_def,
      Option.some.injEq] at read
    obtain ⟨_, _, _, _, rfl⟩ := read
    cases integer

/-- Digits alone are the whole part of a number. -/
theorem ofBody_of_digits {negative : Bool} {digits : Text} (nonempty : digits ≠ [])
    (all : ∀ c ∈ digits, Text.isDigit c) :
    ∃ whole, ofBody negative digits = some ⟨negative, whole, none⟩ ∧
      whole.length = digits.length := by
  have noPoint : Text.cutAt? '.' digits = none :=
    Text.cutAt?_of_not_mem fun member => absurd (all _ member) (by decide)
  obtain ⟨whole, read⟩ := digits?_isSome nonempty all
  refine ⟨whole, ?_, (of_digits? read).1⟩
  rw [ofBody, noPoint, read]
  rfl

/-- A number without a fraction is a sign and as many digits as it has values. -/
theorem eq_of_ofText? {t : Text} {x : PlainNumber} (read : ofText? t = some x)
    (integer : x.fraction = none) :
    ∃ sign digits : Text, (sign = [] ∨ sign = ['-']) ∧ t = sign ++ digits ∧
      (∀ c ∈ digits, Text.isDigit c) ∧ x.whole.length = digits.length := by
  by_cases signed : ∃ body, t = '-' :: body
  · obtain ⟨body, rfl⟩ := signed
    obtain ⟨length, digits⟩ := ofBody_eq_some ((ofText?_minus body).symm.trans read) integer
    exact ⟨['-'], body, Or.inr rfl, rfl, digits, length⟩
  · have unsigned : ∀ body, t ≠ '-' :: body := fun body equal => signed ⟨body, equal⟩
    obtain ⟨length, digits⟩ := ofBody_eq_some ((ofText?_unsigned unsigned).symm.trans read) integer
    exact ⟨[], t, Or.inl rfl, rfl, digits, length⟩

theorem ofText?_of_digits {sign digits : Text} (kind : sign = [] ∨ sign = ['-'])
    (nonempty : digits ≠ []) (all : ∀ c ∈ digits, Text.isDigit c) :
    ∃ negative whole, ofText? (sign ++ digits) = some ⟨negative, whole, none⟩ ∧
      whole.length = digits.length := by
  rcases kind with rfl | rfl
  · have unsigned : ∀ body, digits ≠ '-' :: body := by
      rintro body rfl
      exact absurd (all '-' (List.mem_cons_self ..)) (by decide)
    rw [List.nil_append, ofText?_unsigned unsigned]
    exact ⟨false, ofBody_of_digits nonempty all⟩
  · exact ⟨true, ofBody_of_digits nonempty all⟩

/-- A plain number has no value exactly if it is an integer of too many digits. -/
theorem no_value_iff {t : Text} :
    (∃ x, ofText? t = some x ∧ ∃ why, x.value = .error why) ↔ IsLongInteger t := by
  constructor
  · rintro ⟨x, read, why, failed⟩
    unfold value at failed
    split at failed
    · rename_i integer
      split at failed
      · rename_i long
        obtain ⟨sign, digits, kind, equal, all, length⟩ := eq_of_ofText? read integer
        exact ⟨sign, digits, kind, equal, all, length ▸ long⟩
      · cases failed
    · cases failed
  · rintro ⟨sign, digits, kind, rfl, all, long⟩
    have nonempty : digits ≠ [] := by
      rintro rfl
      simp at long
    obtain ⟨negative, whole, read, length⟩ := ofText?_of_digits kind nonempty all
    refine ⟨_, read, .longInteger, ?_⟩
    simp only [value]
    rw [if_pos (by omega)]

end PlainNumber

end DatafileMigration
