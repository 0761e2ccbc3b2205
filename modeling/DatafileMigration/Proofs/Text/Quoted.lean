import DatafileMigration.Text.Quoted

namespace DatafileMigration.Text

/-- The characters that stand as a letter behind a backslash, with this letter. -/
def shortEscapes : List (Char × Char) :=
  [('"', '"'), ('\\', '\\'), ('\n', 'n'), ('\r', 'r'), ('\t', 't'), (Char.ofNat 8, 'b'),
   (Char.ofNat 12, 'f')]

/-- A character stands behind a backslash as a letter or as the digits of its code, or for itself.
Readers of quoted text are compared with these rules, and not with the tests of the writer. -/
inductive StandsQuoted (c : Char) : Text → Prop
  | letter {d : Char} : (c, d) ∈ shortEscapes → StandsQuoted c ['\\', d]
  | code : c.toNat < 32 →
      StandsQuoted c ['\\', 'u', '0', '0', hexDigit (c.toNat / 16), hexDigit (c.toNat % 16)]
  | plain : c ≠ '"' → c ≠ '\\' → 32 ≤ c.toNat → StandsQuoted c [c]

variable {c : Char}

theorem eq_ofNat_of_toNat {n : Nat} (same : c.toNat = n) : c = Char.ofNat n := by
  rw [← same, Char.ofNat_toNat]

theorem standsQuoted_quotedChar (c : Char) : StandsQuoted c (quotedChar c) := by
  unfold quotedChar
  split
  · rename_i special
    rw [Bool.or_eq_true, decide_eq_true_eq, decide_eq_true_eq] at special
    rcases special with rfl | rfl <;> exact .letter (by decide)
  rename_i ordinary
  rw [Bool.or_eq_true, decide_eq_true_eq, decide_eq_true_eq, not_or] at ordinary
  split
  · rename_i feed
    exact .letter (feed ▸ by decide)
  split
  · rename_i carriage
    exact .letter (carriage ▸ by decide)
  split
  · rename_i tab
    exact .letter (tab ▸ by decide)
  split
  · rename_i backspace
    exact .letter (eq_ofNat_of_toNat backspace ▸ by decide)
  split
  · rename_i form
    exact .letter (eq_ofNat_of_toNat form ▸ by decide)
  split
  · exact .code ‹_›
  · exact .plain ordinary.1 ordinary.2 (Nat.le_of_not_lt ‹_›)

/-- No character begins with a quote when it stands in quotes. -/
theorem exists_quotedChar (c : Char) : ∃ d rest, quotedChar c = d :: rest ∧ d ≠ '"' := by
  have stands := standsQuoted_quotedChar c
  generalize quotedChar c = t at stands ⊢
  cases stands with
  | letter _ => exact ⟨_, _, rfl, by decide⟩
  | code _ => exact ⟨_, _, rfl, by decide⟩
  | plain quote _ _ => exact ⟨_, _, rfl, quote⟩

theorem not_mem_quotedChar (c : Char) : '\r' ∉ quotedChar c := by
  have stands := standsQuoted_quotedChar c
  generalize quotedChar c = t at stands ⊢
  cases stands with
  | letter listed =>
    have letters : ∀ row ∈ shortEscapes, '\r' ∉ ['\\', row.2] := by decide
    exact letters _ listed
  | code control =>
    have digits : ∀ n < 16, '\r' ≠ hexDigit n := by decide
    have high := digits (c.toNat / 16) (by omega)
    have low := digits (c.toNat % 16) (by omega)
    simp [high, low]
  | plain _ _ printable =>
    intro member
    rw [← List.mem_singleton.mp member] at printable
    exact absurd printable (by decide)

theorem not_mem_quoted (t : Text) : '\r' ∉ quoted t := by
  simp [quoted, not_mem_quotedChar]

/-- Between tripled quotes a quote and a backslash stand behind a backslash, and all else for
itself. -/
theorem layoutChar_cases (c : Char) :
    (c = '"' ∨ c = '\\') ∧ layoutChar c = ['\\', c] ∨
      (c ≠ '"' ∧ c ≠ '\\') ∧ layoutChar c = [c] := by
  unfold layoutChar
  split
  · rename_i special
    rw [Bool.or_eq_true, decide_eq_true_eq, decide_eq_true_eq] at special
    exact Or.inl ⟨special, rfl⟩
  · rename_i ordinary
    rw [Bool.or_eq_true, decide_eq_true_eq, decide_eq_true_eq, not_or] at ordinary
    exact Or.inr ⟨ordinary, rfl⟩

end DatafileMigration.Text
