import DatafileMigration.Module.Datasource
import DatafileMigration.Module.ParameterBuilder
import DatafileMigration.Proofs.Fault.Yields
import DatafileMigration.Proofs.Script.Expression
import DatafileMigration.Proofs.Script.Numeral
import DatafileMigration.Proofs.Script.Texts

namespace DatafileMigration

namespace Script

/-- Expressions without a text in them, beside those that come from tables. -/
def expressions : List String := ["t.string()", "p.string()"]

/-- What stands behind an expression to modify it. -/
def modifiers : List String := [".optional()"]

/-- What stands behind an expression and in front of the argument that modifies it. -/
def modifierOpenings : List String := [".optional("]

theorem fixed_parts :
    (∀ row ∈ parameterBuilders, isFragment row.2 []) ∧
      (∀ row ∈ engineFunctions, isFragment ("engine." ++ row.2 ++ "(") [')']) ∧
      (∀ w ∈ expressions, isFragment w []) ∧
      (∀ w ∈ modifiers, isFragment w [] ∧ w.toList.head? = some '.') ∧
      ∀ w ∈ modifierOpenings, isFragment w [')'] ∧ w.toList.head? = some '.' := by
  decide +kernel

theorem Opens.engine {free : Token → Prop} {row : Text × Text} (listed : row ∈ engineFunctions) :
    Opens free ("engine." ++ row.2 ++ "(") [')'] :=
  .fragment (fixed_parts.2.1 row listed)

namespace Reads

variable {inside : Bool} {free : Token → Prop} {t u : Text} {texts others : List Text} {w : String}

theorem parameterType {row : Text × Text} (listed : row ∈ parameterBuilders) :
    Reads inside free row.2 [] :=
  fragment (fixed_parts.1 row listed)

theorem fixed (listed : w ∈ expressions) : Reads inside free w.toList [] :=
  fragment (fixed_parts.2.2.1 w listed)

theorem modified (reads : Reads inside free t texts) (listed : w ∈ modifiers) :
    Reads inside free (t ++ w.toList) texts := by
  obtain ⟨fixed, point⟩ := fixed_parts.2.2.2.1 w listed
  obtain ⟨rest, written⟩ := List.head?_eq_some_iff.mp point
  rw [written] at fixed ⊢
  exact List.append_nil texts ▸ reads.append (by decide) (fragment fixed)

theorem modifiedBy (reads : Reads inside free t texts) (listed : w ∈ modifierOpenings)
    (argument : Reads true free u others) :
    Reads inside free (t ++ w.toList ++ u ++ [')']) (texts ++ others) := by
  obtain ⟨fixed, point⟩ := fixed_parts.2.2.2.2 w listed
  obtain ⟨rest, written⟩ := List.head?_eq_some_iff.mp point
  have whole : Reads inside free (w.toList ++ u ++ [')']) others :=
    argument.enclose (.fragment fixed) (by decide)
  rw [written, List.cons_append, List.cons_append] at whole
  rw [written, List.append_assoc, List.append_assoc, List.cons_append, ← List.append_assoc]
  exact reads.append (by decide) whole

end Reads

end Script

open Script

variable {inside : Bool} {free : Token → Prop}

theorem Scalar.reads_render (x : Scalar) :
    Yields (fun t => Reads inside free t x.texts) x.render := by
  cases x with
  | bool b =>
    refine yields_ok.mpr ?_
    cases b <;> exact Reads.name (by simp [vocabulary])
  | int n => exact yields_ok.mpr (IsNumber.ofInt n).reads
  | float x =>
    cases x with
    | finite negative mantissa exponent =>
      exact yields_ok.mpr (IsNumber.finite negative mantissa exponent).reads
    | infinite negative => exact yields_error
    | nan => exact yields_error
  | text t => exact yields_ok.mpr (Reads.quoted t)

namespace Literal

mutual

theorem reads_render {inside : Bool} :
    (x : Literal) → Yields (fun t => Reads inside free t x.texts) x.render
  | .null => yields_ok.mpr (Reads.name (by simp [vocabulary]))
  | .scalar x => x.reads_render
  | .list items => by
    rw [render, yields_bind]
    intro parts rendered
    have all : ReadsAll true free parts _ := reads_renderItems items parts rendered
    exact yields_pure.mpr (all.join.enclose (c := ']') (.fragment (by decide)) (by decide))
  | .dict entries => by
    rw [render, yields_bind]
    intro parts rendered
    have all : ReadsAll true free parts _ := reads_renderEntries entries parts rendered
    exact yields_pure.mpr (all.join.enclose (c := '\x7d') (.fragment (by decide)) (by decide))

theorem reads_renderItems {inside : Bool} : (items : List Literal) →
    Yields (fun parts => ReadsAll inside free parts (itemTexts items)) (renderItems items)
  | [] => yields_ok.mpr .nil
  | item :: items => by
    rw [renderItems, yields_bind]
    intro part rendered
    rw [yields_bind]
    intro parts others
    exact yields_pure.mpr
      (.cons (reads_render item part rendered) (reads_renderItems items parts others))

theorem reads_renderEntries {inside : Bool} : (entries : List (Text × Literal)) →
    Yields (fun parts => ReadsAll inside free parts (entryTexts entries)) (renderEntries entries)
  | [] => yields_ok.mpr .nil
  | (key, value) :: entries => by
    rw [renderEntries, yields_bind]
    intro part rendered
    rw [yields_bind]
    intro parts others
    exact yields_pure.mpr
      (.cons (reads_render value part rendered).entry (reads_renderEntries entries parts others))

end

end Literal

theorem reads_renderTexts (texts : List Text) : Reads inside free (renderTexts texts) texts := by
  have all : ReadsAll true free (texts.map Text.quoted) (texts.flatMap fun t => [t]) :=
    ReadsAll.map fun t _ => Reads.quoted t
  rw [List.flatMap_singleton'] at all
  exact all.join.enclose (c := ']') (.fragment (by decide)) (by decide)

theorem reads_renderKeys (keys : List Text) : Reads inside free (renderKeys keys) keys := by
  unfold renderKeys
  split
  · exact Reads.quoted _
  · exact reads_renderTexts keys

end DatafileMigration
