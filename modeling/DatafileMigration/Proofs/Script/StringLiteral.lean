import DatafileMigration.Proofs.Script.Scan
import DatafileMigration.Proofs.Text.Lines

namespace DatafileMigration

namespace Script

/-- The character of a code, if there is one. -/
def codeChar? (code : Nat) : Option Char :=
  if code.isValidChar then some (Char.ofNat code) else none

/-- The code in so many hexadecimal digits behind those of a code, and what follows. -/
def hexDigits? : Nat → Nat → Text → Option (Nat × Text)
  | 0, code, t => some (code, t)
  | _ + 1, _, [] => none
  | more + 1, code, c :: t =>
    (Literal.hexValue? c).bind fun digit => hexDigits? more (16 * code + digit) t

def isOctal (c : Char) : Bool := '0' ≤ c && c ≤ '7'

/-- The code in at most so many octal digits behind those of a code, and what follows. -/
def octalDigits : Nat → Nat → Text → Nat × Text
  | more + 1, code, c :: t =>
    if isOctal c then octalDigits more (8 * code + (c.toNat - 48)) t else (code, c :: t)
  | _, code, t => (code, t)

/-- How many hexadecimal digits follow an escape. -/
def hexWidth? (c : Char) : Option Nat :=
  if c = 'x' then some 2 else if c = 'u' then some 4 else if c = 'U' then some 8 else none

/-- The character that one character behind a backslash stands for. -/
def escapeLetter? (c : Char) : Option Char :=
  if c = '\'' then some c
  else if c = 'a' then some (Char.ofNat 7)
  else if c = 'v' then some (Char.ofNat 11)
  else escaped? c

/-- What stands behind a backslash: what both are read as, and what follows. A line end is skipped;
a backslash in front of what is no escape stands for itself. -/
def escape? : Text → Option (Text × Text)
  | [] => none
  | c :: t =>
    if c = '\n' then some ([], t)
    else if c = 'N' then none
    else if isOctal c then
      let read := octalDigits 3 0 (c :: t)
      (codeChar? read.1).map fun d => ([d], read.2)
    else match hexWidth? c with
      | some width =>
        (hexDigits? width 0 t).bind fun (code, rest) => (codeChar? code).map fun d => ([d], rest)
      | none => some ((escapeLetter? c).elim ['\\', c] fun d => [d], t)

variable {c d : Char} {t u value rest : Text} {long : Bool}

theorem length_le_of_hexDigits? {more code n : Nat}
    (read : hexDigits? more code t = some (n, rest)) : rest.length ≤ t.length := by
  induction more generalizing code t with
  | zero =>
    rw [hexDigits?, Option.some.injEq, Prod.mk.injEq] at read
    exact Nat.le_of_eq (congrArg List.length read.2.symm)
  | succ more ih =>
    cases t with
    | nil => cases read
    | cons c t =>
      obtain ⟨digit, _, read⟩ := Option.bind_eq_some_iff.mp read
      exact Nat.le_succ_of_le (ih read)

theorem length_octalDigits_le (more code : Nat) (t : Text) :
    (octalDigits more code t).2.length ≤ t.length := by
  induction more generalizing code t with
  | zero => simp [octalDigits]
  | succ more ih =>
    cases t with
    | nil => simp [octalDigits]
    | cons c t =>
      rw [octalDigits]
      split
      · exact Nat.le_succ_of_le (ih _ t)
      · exact Nat.le_refl _

theorem length_octalDigits_lt (octal : isOctal c) (more code : Nat) (t : Text) :
    (octalDigits (more + 1) code (c :: t)).2.length < (c :: t).length := by
  rw [octalDigits, if_pos octal]
  exact Nat.lt_succ_of_le (length_octalDigits_le more _ t)

theorem length_lt_of_escape? (read : escape? t = some (value, rest)) : rest.length < t.length := by
  cases t with
  | nil => cases read
  | cons c t =>
    rw [escape?] at read
    split at read
    · cases read
      exact Nat.lt_succ_self _
    split at read
    · cases read
    split at read
    · rename_i octal
      obtain ⟨d, _, same⟩ := Option.map_eq_some_iff.mp read
      rw [← (Prod.mk.inj same).2]
      exact length_octalDigits_lt octal 2 0 t
    split at read
    · obtain ⟨⟨code, behind⟩, digits, read⟩ := Option.bind_eq_some_iff.mp read
      obtain ⟨d, _, same⟩ := Option.map_eq_some_iff.mp read
      cases same
      exact Nat.lt_succ_of_le (length_le_of_hexDigits? digits)
    · cases read
      exact Nat.lt_succ_self _

/-- What is read of a string, with its beginning put in front. -/
def putBefore (value : Text) : Text × Text → Text × Text :=
  fun (more, rest) => (value ++ more, rest)

/-- The value of a string that is open, and what follows behind the quotes that close it. -/
def inside? (long : Bool) (t : Text) : Option (Text × Text) :=
  match t with
  | [] => none
  | c :: t =>
    if c = '\\' then
      match _h : escape? t with
      | some (value, rest) => (inside? long rest).map (putBefore value)
      | none => none
    else if c = '"' then
      if long then
        match Text.dropPrefix? "\"\"" t with
        | some rest => some ([], rest)
        | none => (inside? long t).map (putBefore [c])
      else some ([], t)
    else if !long && c = '\n' then none
    else (inside? long t).map (putBefore [c])
termination_by t.length
decreasing_by
  · exact Nat.lt_succ_of_lt (length_lt_of_escape? _h)
  · exact Nat.lt_succ_self _
  · exact Nat.lt_succ_self _

/-- The value of the string with which a text begins, and what follows. -/
def string? (t : Text) : Option (Text × Text) :=
  match Text.dropPrefix? "\"\"\"" t with
  | some inside => inside? true inside
  | none => (Text.dropPrefix? "\"" t).bind (inside? false)

/-- The value of a source that is one string between double quotes and nothing else, read by the
rules of the language of a generated module: on one line or between tripled quotes, with every
escape of the language. Characters that are named between braces are refused, as their names are not
listed here. Line ends of a source are line feeds to its reader, whatever they are written as. -/
def stringLiteral? (source : Text) : Option Text :=
  match string? (Text.lineFeeds source) with
  | some (value, []) => some value
  | _ => none

example : stringLiteral? "\"\\101\\x42\\\n\\u0043\\q\"" = some "ABC\\q" := by decide +kernel

theorem inside?_escape (read : escape? t = some (value, rest)) :
    inside? long ('\\' :: t) = (inside? long rest).map (putBefore value) := by
  rw [inside?, if_pos rfl]
  split
  · rename_i value' rest' same
    rw [read] at same
    cases same
    rfl
  · rename_i none
    rw [read] at none
    cases none

theorem inside?_plain (backslash : c ≠ '\\') (quote : c ≠ '"') (inline : long = false → c ≠ '\n')
    (t : Text) : inside? long (c :: t) = (inside? long t).map (putBefore [c]) := by
  have open? : ¬ (!long && decide (c = '\n')) = true := by
    cases long with
    | true => exact Bool.false_ne_true
    | false => simpa using inline rfl
  rw [inside?, if_neg backslash, if_neg quote, if_neg open?]

theorem escape?_letter (letter : escapeLetter? c = some d) (single : hexWidth? c = none)
    (other : c ≠ '\n' ∧ c ≠ 'N' ∧ isOctal c = false) (t : Text) :
    escape? (c :: t) = some ([d], t) := by
  rw [escape?, if_neg other.1, if_neg other.2.1, if_neg (by simp [other.2.2]), single]
  simp only [letter, Option.elim_some]

/-- A control character is written with four hexadecimal digits. -/
theorem escape?_control (control : c.toNat < 32) (t : Text) :
    escape? ('u' :: '0' :: '0' :: Text.hexDigit (c.toNat / 16) :: Text.hexDigit (c.toNat % 16) :: t)
      = some ([c], t) := by
  have high := @Reader.hexValue?_hexDigit (c.toNat / 16) (by omega)
  have low := @Reader.hexValue?_hexDigit (c.toNat % 16) (by omega)
  have zero : Literal.hexValue? '0' = some 0 := rfl
  have code : 16 * (c.toNat / 16) + c.toNat % 16 = c.toNat := Nat.div_add_mod _ _
  have valid : codeChar? c.toNat = some c := by
    rw [codeChar?, if_pos (Or.inl (by omega)), Char.ofNat_toNat]
  have width : hexWidth? 'u' = some 4 := rfl
  rw [escape?, if_neg (by decide), if_neg (by decide), if_neg (by decide), width]
  simp only [hexDigits?, zero, high, low, Option.bind_some, Nat.mul_zero, Nat.zero_add, code, valid,
    Option.map_some]

/-- On one line each character is read back from how it stands there. -/
theorem inside?_quotedChar (c : Char) (t : Text) :
    inside? false (Text.quotedChar c ++ t) = (inside? false t).map (putBefore [c]) := by
  have stands := Text.standsQuoted_quotedChar c
  generalize Text.quotedChar c = u at stands ⊢
  cases stands with
  | letter listed =>
    have letters : ∀ row ∈ Text.shortEscapes,
        escapeLetter? row.2 = some row.1 ∧ hexWidth? row.2 = none ∧
          row.2 ≠ '\n' ∧ row.2 ≠ 'N' ∧ isOctal row.2 = false := by decide
    obtain ⟨known, single, other⟩ := letters _ listed
    exact inside?_escape (escape?_letter known single other t)
  | code control => exact inside?_escape (escape?_control control t)
  | plain quote backslash printable =>
    refine inside?_plain backslash quote (fun _ => ?_) t
    rintro rfl
    exact absurd printable (by decide)

/-- Between tripled quotes, too. -/
theorem inside?_layoutChar (c : Char) (t : Text) :
    inside? true (Text.layoutChar c ++ t) = (inside? true t).map (putBefore [c]) := by
  rcases Text.layoutChar_cases c with ⟨rfl | rfl, written⟩ | ⟨⟨quote, backslash⟩, written⟩
  · rw [written]
    exact inside?_escape (escape?_letter rfl rfl (by decide) t)
  · rw [written]
    exact inside?_escape (escape?_letter rfl rfl (by decide) t)
  · rw [written]
    exact inside?_plain backslash quote (fun short => by cases short) t

/-- Texts that are read back character by character are read back. -/
theorem inside?_flatMap {write : Char → Text}
    (each : ∀ c t, inside? long (write c ++ t) = (inside? long t).map (putBefore [c]))
    (closed : inside? long u = some ([], rest)) (t : Text) :
    inside? long (t.flatMap write ++ u) = some (t, rest) := by
  induction t with
  | nil => exact closed
  | cons c t ih =>
    rw [List.flatMap_cons, List.append_assoc, each, ih]
    rfl

theorem inside?_quote (t : Text) : inside? false ('"' :: t) = some ([], t) := by
  rw [inside?, if_neg (by decide), if_pos rfl, if_neg Bool.false_ne_true]

theorem inside?_quotes (t : Text) : inside? true ("\"\"\"" ++ t) = some ([], t) := by
  have closes : Text.dropPrefix? "\"\"" ("\"\"" ++ t) = some t :=
    Text.dropPrefix?_eq_some_iff.mpr rfl
  change inside? true ('"' :: ("\"\"" ++ t)) = _
  rw [inside?, if_neg (by decide), if_pos rfl, if_pos rfl, closes]

theorem string?_quoted (t : Text) : string? (Text.quoted t) = some (t, []) := by
  have read := inside?_flatMap inside?_quotedChar (inside?_quote []) t
  have single : Text.dropPrefix? "\"\"\"" (Text.quoted t) = none := by
    cases t with
    | nil => rfl
    | cons c t =>
      obtain ⟨d, more, written, solid⟩ := Text.exists_quotedChar c
      have begins :
          Text.quoted (c :: t) = '"' :: d :: (more ++ t.flatMap Text.quotedChar ++ ['"']) := by
        rw [Text.quoted, List.flatMap_cons, written]
        rfl
      rw [begins]
      exact (if_pos rfl).trans (if_neg (Ne.symm solid))
  rw [string?, single]
  exact read

theorem string?_tripled (t : Text) :
    string? ("\"\"\"" ++ t.flatMap Text.layoutChar ++ "\"\"\"") = some (t, []) := by
  have read := inside?_flatMap inside?_layoutChar (inside?_quotes []) t
  rw [List.append_nil] at read
  rw [string?, List.append_assoc, Text.dropPrefix?_eq_some_iff.mpr rfl]
  exact read

/-- Only line ends of the text itself change between tripled quotes. -/
theorem lineFeeds_layoutChars (t : Text) :
    Text.lineFeeds (t.flatMap Text.layoutChar ++ "\"\"\"") =
      (Text.lineFeeds t).flatMap Text.layoutChar ++ "\"\"\"" := by
  fun_induction Text.lineFeeds t with
  | case1 t ih => exact congrArg ('\n' :: ·) ih
  | case2 t other ih =>
    have alone (rest : Text) : t.flatMap Text.layoutChar ++ "\"\"\"".toList ≠ '\n' :: rest := by
      cases t with
      | nil => exact fun same => absurd (List.cons.inj same).1 (by decide)
      | cons d t =>
        intro same
        rw [List.flatMap_cons] at same
        rcases Text.layoutChar_cases d with ⟨_, escaped⟩ | ⟨_, plain⟩
        · rw [escaped] at same
          exact absurd (List.cons.inj same).1 (by decide)
        · rw [plain] at same
          exact other t (by rw [(List.cons.inj same).1])
    exact (Text.lineFeeds_return alone).trans (congrArg ('\n' :: ·) ih)
  | case3 c t _ other ih =>
    rw [List.flatMap_cons, List.flatMap_cons, List.append_assoc, List.append_assoc, ← ih]
    rcases Text.layoutChar_cases c with ⟨_, escaped⟩ | ⟨_, plain⟩
    · rw [escaped]
      exact (Text.lineFeeds_cons (by decide) _).trans
        (congrArg ('\\' :: ·) (Text.lineFeeds_cons other _))
    · rw [plain]
      exact Text.lineFeeds_cons other _
  | case4 => rfl

theorem stringLiteral?_quoted (t : Text) : stringLiteral? (Text.quoted t) = some t := by
  rw [stringLiteral?, Text.lineFeeds_of_not_mem (Text.not_mem_quoted t), string?_quoted]

theorem stringLiteral?_quotedLines (feed : '\n' ∈ t) :
    stringLiteral? (Text.quotedLines t) = some (Text.lineFeeds t) := by
  have tripled : Text.lineFeeds (Text.quotedLines t) =
      "\"\"\"" ++ (Text.lineFeeds t).flatMap Text.layoutChar ++ "\"\"\"" := by
    rw [Text.quotedLines, if_pos (List.contains_iff_mem.mpr feed), List.append_assoc,
      List.append_assoc, ← lineFeeds_layoutChars]
    rfl
  rw [stringLiteral?, tripled, string?_tripled]

/-- A quoted text is one string of this value. So is a text that is quoted in its lines, unless it
has line feeds and carriage returns, of which the latter are read as line feeds. -/
theorem stringLiteral?_quotedLines_iff (t : Text) :
    stringLiteral? (Text.quoted t) = some t ∧
      (stringLiteral? (Text.quotedLines t) = some t ↔ '\r' ∉ t ∨ '\n' ∉ t) := by
  refine ⟨stringLiteral?_quoted t, ?_⟩
  by_cases feed : '\n' ∈ t
  · rw [stringLiteral?_quotedLines feed, Option.some.injEq, or_iff_left (not_not_intro feed)]
    constructor
    · intro same
      rw [← same]
      exact Text.not_mem_lineFeeds t
    · exact Text.lineFeeds_of_not_mem
  · have single : Text.quotedLines t = Text.quoted t :=
      if_neg (by rwa [List.contains_iff_mem])
    rw [single]
    exact iff_of_true (stringLiteral?_quoted t) (Or.inr feed)

end Script

end DatafileMigration
