import DatafileMigration.Proofs.Script.Reader
import DatafileMigration.Proofs.Text.Quoted

namespace DatafileMigration

namespace Script

/-- A character that ends the word before it and begins no string. -/
def Delimits (c : Char) : Prop := Text.isWordChar c = false ∧ c ≠ '"'

instance (c : Char) : Decidable (Delimits c) := inferInstanceAs (Decidable (_ ∧ _))

namespace Reader

variable {r s : Reader} {c : Char} {t u : Text}

@[simp] theorem push_push (r : Reader) (tokens more : List Token) :
    (r.push tokens).push more = r.push (tokens ++ more) := by
  simp [push]

theorem scan_cons (r : Reader) (c : Char) (t : Text) :
    r.scan (c :: t) = (r.next c).bind fun s => s.scan t := rfl

theorem scan_cons_of_next (step : r.next c = some s) (t : Text) : r.scan (c :: t) = s.scan t := by
  rw [scan_cons, step]
  rfl

theorem scan_append (r : Reader) (t u : Text) :
    r.scan (t ++ u) = (r.scan t).bind fun s => s.scan u := List.foldlM_append

theorem scan_append_of_scan (scanned : r.scan t = some s) (u : Text) :
    r.scan (t ++ u) = s.scan u := by
  rw [scan_append, scanned]
  rfl

/-- A reader with more brackets open around it and more tokens on its line. -/
def within (r : Reader) (around : List Char) (before : List Token) (lines : List (List Token)) :
    Reader where
  mode := r.mode
  brackets := r.brackets ++ around
  line := r.line ++ before
  lines := lines

variable {around : List Char} {before : List Token} {lines : List (List Token)}

theorem inCode_within (inline : isLineEnd c = false) (step : r.inCode c = some s) :
    (r.within around before lines).inCode c = some (s.within around before lines) := by
  revert step
  unfold inCode
  simp only [inline, Bool.false_eq_true, if_false]
  split
  · rintro ⟨⟩; rfl
  split
  · rintro ⟨⟩; rfl
  split
  · rintro ⟨⟩; rfl
  split
  · rintro ⟨⟩; rfl
  split
  · rintro ⟨⟩
  split
  · rintro ⟨⟩; rfl
  split
  · cases open? : r.brackets with
    | nil => rintro ⟨⟩
    | cons close rest =>
      simp only [within, open?, List.cons_append]
      split
      · rintro ⟨⟩; rfl
      · rintro ⟨⟩
  · rintro ⟨⟩; rfl

theorem inString_within {long : Bool} {value : Text} (step : r.inString long value c = some s) :
    (r.within around before lines).inString long value c = some (s.within around before lines) := by
  revert step
  unfold inString
  split
  · rintro ⟨⟩; rfl
  split
  · split
    · rintro ⟨⟩; rfl
    · rintro ⟨⟩; rfl
  split
  · rintro ⟨⟩
  · rintro ⟨⟩; rfl

theorem next_within (inline : isLineEnd c = false) (step : r.next c = some s) :
    (r.within around before lines).next c = some (s.within around before lines) := by
  obtain ⟨mode, brackets, line, done⟩ := r
  revert step
  cases mode with
  | code => exact inCode_within inline
  | word t =>
    simp only [next, within]
    split
    · rintro ⟨⟩; rfl
    split
    · rintro ⟨⟩
    · exact inCode_within inline
  | comment t =>
    simp only [next, within, inline]
    rintro ⟨⟩; rfl
  | opened =>
    simp only [next, within]
    split
    · rintro ⟨⟩; rfl
    · exact inString_within
  | twice =>
    simp only [next, within]
    split
    · rintro ⟨⟩; rfl
    · exact inCode_within inline
  | string long value => exact inString_within
  | escape long value =>
    simp only [next, within]
    split
    · rintro ⟨⟩; rfl
    · rw [Option.map_eq_some_iff]
      rintro ⟨d, escaped, rfl⟩
      rw [escaped]
      rfl
  | code16 long value digits code =>
    simp only [next, within]
    rw [Option.map_eq_some_iff]
    rintro ⟨n, hex, rfl⟩
    rw [hex]
    simp only [Option.map_some]
    split <;> rfl
  | closing value two =>
    simp only [next, within]
    split
    · split
      · rintro ⟨⟩; rfl
      · rintro ⟨⟩; rfl
    · exact inString_within

/-- Without line ends a text is read in the same way wherever it stands. -/
theorem scan_within (inline : t.any isLineEnd = false) (scanned : r.scan t = some s) :
    (r.within around before lines).scan t = some (s.within around before lines) := by
  induction t generalizing r with
  | nil => cases scanned; rfl
  | cons c t ih =>
    rw [List.any_cons, Bool.or_eq_false_iff] at inline
    rw [scan_cons] at scanned
    obtain ⟨next, step, scanned⟩ := Option.bind_eq_some_iff.mp scanned
    rw [scan_cons_of_next (next_within inline.1 step)]
    exact ih inline.2 scanned

theorem inCode_of_isWordChar (word : Text.isWordChar c) :
    r.inCode c = some { r with mode := .word [c] } := by
  have quote : c ≠ '"' := by
    rintro rfl
    exact absurd word (by decide)
  have hash : c ≠ '#' := by
    rintro rfl
    exact absurd word (by decide)
  rw [inCode, if_neg quote, if_neg hash, if_pos word]

theorem next_of_code (code : r.mode = .code) : r.next c = r.inCode c := by
  rw [next, code]

/-- A delimiter ends the word before it. -/
theorem next_word (delimits : Delimits c) (w : Text) :
    { r with mode := .word w }.next c =
      ({ r with mode := .code }.push [.word w.reverse]).next c := by
  simp only [next, delimits.1, Bool.false_eq_true, if_false, delimits.2]
  rfl

theorem scan_word_rest {w : Text} (word : ∀ d ∈ t, Text.isWordChar d) (delimits : Delimits c) :
    { r with mode := .word w }.scan (t ++ c :: u) =
      ({ r with mode := .code }.push [.word (w.reverse ++ t)]).scan (c :: u) := by
  induction t generalizing w with
  | nil =>
    rw [List.nil_append, List.append_nil, scan_cons, scan_cons, next_word delimits]
  | cons d t ih =>
    obtain ⟨first, rest⟩ := List.forall_mem_cons.mp word
    have step : { r with mode := .word w }.next d = some { r with mode := .word (d :: w) } := by
      simp only [next, first, if_true]
    rw [List.cons_append, scan_cons_of_next step, ih rest, List.reverse_cons, List.append_assoc]
    rfl

theorem scan_word {w : Text} (code : r.mode = .code) (some : w ≠ [])
    (word : ∀ d ∈ w, Text.isWordChar d) (delimits : Delimits c) :
    r.scan (w ++ c :: u) = (r.push [.word w]).scan (c :: u) := by
  obtain ⟨mode, brackets, line, lines⟩ := r
  cases code
  cases w with
  | nil => exact absurd rfl some
  | cons d t =>
    obtain ⟨first, rest⟩ := List.forall_mem_cons.mp word
    have step := @inCode_of_isWordChar ⟨.code, brackets, line, lines⟩ _ first
    rw [List.cons_append, scan_cons_of_next ((next_of_code rfl).trans step)]
    exact scan_word_rest rest delimits

/-- Outside of brackets a line end ends the line. -/
theorem scan_endLine {tokens : List Token} (more : tokens.all Token.isComment = false)
    (lines : List (List Token)) :
    scan { line := tokens, lines } ['\n'] = some { lines := tokens.reverse :: lines } := by
  have step : next { line := tokens, lines } '\n' = some (endLine { line := tokens, lines }) := rfl
  rw [scan_cons_of_next step, endLine, if_neg (Bool.eq_false_iff.mp more)]
  rfl

theorem scan_comment_rest {w : Text} (inline : t.any isLineEnd = false) (ends : isLineEnd c) :
    { r with mode := .comment w }.scan (t ++ c :: u) =
      ({ r with mode := .code }.push [.comment (w.reverse ++ t)]).scan (c :: u) := by
  induction t generalizing w with
  | nil =>
    have step : { r with mode := .comment w }.next c =
        ({ r with mode := .code }.push [.comment w.reverse]).next c := by
      simp only [next, ends, if_true]
      rfl
    rw [List.nil_append, List.append_nil, scan_cons, scan_cons, step]
  | cons d t ih =>
    rw [List.any_cons, Bool.or_eq_false_iff] at inline
    have step : { r with mode := .comment w }.next d =
        some { r with mode := .comment (d :: w) } := by
      simp only [next, inline.1, Bool.false_eq_true, if_false]
    rw [List.cons_append, scan_cons_of_next step, ih inline.2, List.reverse_cons,
      List.append_assoc]
    rfl

/-- A comment ends with its line. -/
theorem scan_comment (code : r.mode = .code) (inline : t.any isLineEnd = false)
    (ends : isLineEnd c) :
    r.scan ('#' :: (t ++ c :: u)) = (r.push [.comment t]).scan (c :: u) := by
  obtain ⟨mode, brackets, line, lines⟩ := r
  cases code
  have start : next ⟨.code, brackets, line, lines⟩ '#' =
      some ⟨.comment [], brackets, line, lines⟩ := rfl
  rw [scan_cons_of_next start]
  exact scan_comment_rest (r := ⟨.code, brackets, line, lines⟩) inline ends

theorem hexValue?_hexDigit {n : Nat} (bound : n < 16) :
    Literal.hexValue? (Text.hexDigit n) = some n := by
  have all : ∀ n < 16, Literal.hexValue? (Text.hexDigit n) = some n := by decide
  exact all n bound

theorem isLineEnd_of_printable (printable : 32 ≤ c.toNat) : isLineEnd c = false := by
  rw [isLineEnd, Bool.or_eq_false_iff, decide_eq_false_iff_not, decide_eq_false_iff_not]
  constructor <;> rintro rfl <;> exact absurd printable (by decide)

/-- A character as it stands in a string of one line is read as itself. -/
theorem scan_quotedChar (d : Char) (value : Text) :
    { r with mode := .string false value }.scan (Text.quotedChar d) =
      some { r with mode := .string false (d :: value) } := by
  have stands := Text.standsQuoted_quotedChar d
  generalize Text.quotedChar d = t at stands ⊢
  cases stands with
  | letter listed =>
    have letters : ∀ row ∈ Text.shortEscapes,
        { r with mode := .string false value }.scan ['\\', row.2] =
          some { r with mode := .string false (row.1 :: value) } := by
      simp only [Text.shortEscapes, List.forall_mem_cons]
      exact ⟨rfl, rfl, rfl, rfl, rfl, rfl, rfl, List.forall_mem_nil _⟩
    exact letters _ listed
  | code control =>
    have whole : Char.ofNat (16 * (16 * 0 + d.toNat / 16) + d.toNat % 16) = d := by
      rw [show 16 * (16 * 0 + d.toNat / 16) + d.toNat % 16 = d.toNat by omega, Char.ofNat_toNat]
    have high : { r with mode := .code16 false value 2 0 }.next (Text.hexDigit (d.toNat / 16)) =
        some { r with mode := .code16 false value 1 (16 * 0 + d.toNat / 16) } := by
      simp [next, @hexValue?_hexDigit (d.toNat / 16) (by omega)]
    have low : { r with mode := .code16 false value 1 (16 * 0 + d.toNat / 16) }.next
        (Text.hexDigit (d.toNat % 16)) = some { r with mode := .string false (d :: value) } := by
      simp only [next, @hexValue?_hexDigit (d.toNat % 16) (by omega), Option.map_some, if_true,
        whole]
    exact (scan_cons_of_next high _).trans (scan_cons_of_next low [])
  | plain quote backslash printable =>
    have inline : isLineEnd d = false := isLineEnd_of_printable printable
    have step : { r with mode := .string false value }.next d =
        some { r with mode := .string false (d :: value) } := by
      simp [next, inString, quote, backslash, inline]
    exact scan_cons_of_next step []

theorem scan_quotedChars (t value : Text) :
    { r with mode := .string false value }.scan (t.flatMap Text.quotedChar) =
      some { r with mode := .string false (t.reverse ++ value) } := by
  induction t generalizing value with
  | nil => rfl
  | cons d t ih =>
    rw [List.flatMap_cons, scan_append_of_scan (scan_quotedChar d value), ih, List.reverse_cons,
      List.append_assoc]
    rfl

/-- The first character behind a quote is read as any other, unless it is a quote itself. -/
theorem scan_opened (d : Char) :
    { r with mode := .opened }.scan (Text.quotedChar d) =
      { r with mode := .string false [] }.scan (Text.quotedChar d) := by
  obtain ⟨e, rest, written, solid⟩ := Text.exists_quotedChar d
  have step : { r with mode := .opened }.next e = { r with mode := .string false [] }.next e := by
    simp only [next, if_neg solid]
    rfl
  rw [written, scan_cons, scan_cons, step]

/-- A quoted text is read as one string of this value. -/
theorem scan_quoted (code : r.mode = .code) (t : Text) (delimits : Delimits c) :
    r.scan (Text.quoted t ++ c :: u) = (r.push [.string t]).scan (c :: u) := by
  obtain ⟨mode, brackets, line, lines⟩ := r
  cases code
  have start : Reader.next ⟨.code, brackets, line, lines⟩ '"' =
    some ⟨.opened, brackets, line, lines⟩ := rfl
  cases t with
  | nil =>
    have step : Reader.next ⟨.twice, brackets, line, lines⟩ c =
        (Reader.push ⟨.code, brackets, line, lines⟩ [.string []]).next c := by
      simp only [next, delimits.2, if_false]
      rfl
    exact congrArg (·.bind fun s => s.scan u) step
  | cons d t =>
    have chars : Reader.scan ⟨.opened, brackets, line, lines⟩ ((d :: t).flatMap Text.quotedChar) =
        some ⟨.string false (d :: t).reverse, brackets, line, lines⟩ := by
      rw [List.flatMap_cons, scan_append, @scan_opened ⟨.code, brackets, line, lines⟩ d,
        ← scan_append, ← List.flatMap_cons, @scan_quotedChars ⟨.code, brackets, line, lines⟩,
        List.append_nil]
    have finish : Reader.next ⟨.string false (d :: t).reverse, brackets, line, lines⟩ '"' =
        some (Reader.push ⟨.code, brackets, line, lines⟩ [.string (d :: t)]) := by
      simp only [next, inString, List.reverse_reverse]
      rfl
    rw [Text.quoted, List.cons_append, List.cons_append, scan_cons_of_next start, List.append_assoc,
      scan_append_of_scan chars, List.singleton_append, scan_cons_of_next finish]

theorem scan_layoutChar (d : Char) (value : Text) :
    { r with mode := .string true value }.scan (Text.layoutChar d) =
      some { r with mode := .string true (d :: value) } := by
  rcases Text.layoutChar_cases d with ⟨rfl | rfl, written⟩ | ⟨ordinary, written⟩
  · rw [written]
    rfl
  · rw [written]
    rfl
  · have step : { r with mode := .string true value }.next d =
        some { r with mode := .string true (d :: value) } := by
      simp [next, inString, ordinary]
    rw [written]
    exact scan_cons_of_next step []

theorem scan_layoutChars (t value : Text) :
    { r with mode := .string true value }.scan (t.flatMap Text.layoutChar) =
      some { r with mode := .string true (t.reverse ++ value) } := by
  induction t generalizing value with
  | nil => rfl
  | cons d t ih =>
    rw [List.flatMap_cons, scan_append_of_scan (scan_layoutChar d value), ih, List.reverse_cons,
      List.append_assoc]
    rfl

/-- So is a quoted text of several lines. -/
theorem scan_quotedLines (code : r.mode = .code) (t : Text) (delimits : Delimits c) :
    r.scan (Text.quotedLines t ++ c :: u) = (r.push [.string t]).scan (c :: u) := by
  unfold Text.quotedLines
  split
  · obtain ⟨mode, brackets, line, lines⟩ := r
    cases code
    have start : Reader.scan ⟨.code, brackets, line, lines⟩ "\"\"\"" =
      some ⟨.string true [], brackets, line, lines⟩ := rfl
    have chars := @scan_layoutChars ⟨.code, brackets, line, lines⟩ t []
    have finish : Reader.scan ⟨.string true t.reverse, brackets, line, lines⟩ "\"\"\"" =
        some (Reader.push ⟨.code, brackets, line, lines⟩ [.string t.reverse.reverse]) := rfl
    rw [List.append_nil] at chars
    rw [List.reverse_reverse] at finish
    rw [List.append_assoc, List.append_assoc, scan_append_of_scan start,
      scan_append_of_scan chars, scan_append_of_scan finish]
  · exact scan_quoted code t delimits

end Reader

end Script

end DatafileMigration
