import DatafileMigration.Proofs.Template.Segments

namespace DatafileMigration

/-- The parameter with nothing but name and type: required, without default and description. -/
def Parameter.bare (p : Parameter) : Parameter := { name := p.name, type := p.type }

namespace Template

/-- The text between placeholders, and a mark where a placeholder stands. -/
def Segment.outline : Segment → Option Char
  | .plain c => some c
  | .placeholder _ => none

variable {sql : Text} {us : List Usage} {ps : List Parameter}

theorem Usage.map_bare_record (ps : List Parameter) (u : Usage) :
    (Usage.record ps u).map Parameter.bare = Usage.record (ps.map Parameter.bare) u.bare := by
  induction ps with
  | nil => rfl
  | cons p ps ih =>
    rw [Usage.record, List.map_cons, Usage.record]
    have sameName : p.bare.name = p.name := rfl
    have sameUse : u.bare.name = u.name := rfl
    rw [sameName, sameUse]
    split
    · rfl
    · rw [List.map_cons, ih]

theorem map_bare_foldl_record (us : List Usage) (ps : List Parameter) :
    (us.foldl Usage.record ps).map Parameter.bare =
      (us.map Usage.bare).foldl Usage.record (ps.map Parameter.bare) := by
  induction us generalizing ps with
  | nil => rfl
  | cons u us ih => rw [List.foldl_cons, ih, List.map_cons, List.foldl_cons, u.map_bare_record]

theorem map_bare_sortParameters (ps : List Parameter) :
    (sortParameters ps).map Parameter.bare = sortParameters (ps.map Parameter.bare) :=
  List.map_mergeSort fun _ _ _ _ => rfl

/-- The uses of a normal query are the uses of the query, without options. -/
theorem usages_normalize (used : usages sql = .ok us) :
    usages (normalize sql) = .ok (us.map Usage.bare) := by
  obtain ⟨found, each, rfl⟩ := filterMapM_eq_ok.mp used
  rw [usages, queryCalls_normalize, filterMapM_eq_ok]
  refine ⟨found.map (Option.map Usage.bare), ?_, ?_⟩
  · rw [List.forall₂_map_left_iff, List.forall₂_map_right_iff]
    exact each.imp fun _ _ => Call.usage?_reduced
  · rw [List.filterMap_map, List.map_filterMap]
    rfl

theorem parameters_normalize (declared : parameters sql = .ok ps) :
    parameters (normalize sql) = .ok (ps.map Parameter.bare) := by
  obtain ⟨us, used, rfl⟩ := map_eq_ok.mp declared
  rw [parameters, usages_normalize used, map_bare_sortParameters, map_bare_foldl_record]
  rfl

theorem normalize_normalize (sql : Text) : normalize (normalize sql) = normalize sql := by
  rw [normalize_eq (normalize sql), segments_normalize, normalize_eq, List.map_map]
  congr 2
  funext s
  cases s with
  | plain c => rfl
  | placeholder inside =>
    exact congrArg Segment.placeholder (normalizeInside_normalizeInside inside)

theorem outline_normalize (sql : Text) :
    (segments (normalize sql)).map Segment.outline = (segments sql).map Segment.outline := by
  rw [segments_normalize, List.map_map]
  congr 1
  funext s
  cases s <;> rfl

/-- A query in normal form declares the parameters of the query by name and type, wherever these
are known; it is its own normal form, and differs from the query inside of placeholders only. -/
theorem normalize_preserves (sql : Text) :
    (∀ ps, parameters sql = .ok ps → parameters (normalize sql) = .ok (ps.map Parameter.bare)) ∧
      normalize (normalize sql) = normalize sql ∧
      (segments (normalize sql)).map Segment.outline = (segments sql).map Segment.outline :=
  ⟨fun _ => parameters_normalize, normalize_normalize sql, outline_normalize sql⟩

example : normalize "\x7b \x7b\x7bString( b , 'x)' ) + f(Int32(a, 3)) \x7d\x7d \x7d\x7d" =
    "\x7b \x7b\x7b String(b) + f(Int32(a)) \x7d\x7d \x7d\x7d" := by decide +kernel

/-- A query with braces that open nothing, with a call inside of another one, and with a parenthesis
in a quoted default. -/
def nestedQuery : Text :=
  "\x7b \x7b\x7bf(Int32(a, 3, required=False)) + String( b , 'x)' ) \x7d\x7d \x7d\x7d"

def nestedParameters : List Parameter :=
  [{ name := "a", type := "Int32", required := false, default := some (.int 3) },
   { name := "b", type := "String", required := false, default := some (.text "x)") }]

theorem normalize_preserves_nestedQuery :
    parameters nestedQuery = .ok nestedParameters ∧
    parameters (normalize nestedQuery) = .ok (nestedParameters.map Parameter.bare) ∧
    normalize (normalize nestedQuery) = normalize nestedQuery ∧
    (segments (normalize nestedQuery)).map Segment.outline =
      (segments nestedQuery).map Segment.outline := by
  have used : (usages nestedQuery).map (·.foldl Usage.record []) = .ok nestedParameters := by
    decide +kernel
  have sorted : sortParameters nestedParameters = nestedParameters :=
    List.mergeSort_of_pairwise (by decide)
  have declared : parameters nestedQuery = .ok nestedParameters := by
    obtain ⟨us, found, recorded⟩ := map_eq_ok.mp used
    exact map_eq_ok.mpr ⟨us, found, by rw [recorded, sorted]⟩
  obtain ⟨same, again, outside⟩ := normalize_preserves nestedQuery
  exact ⟨declared, same nestedParameters declared, again, outside⟩

end Template

end DatafileMigration
