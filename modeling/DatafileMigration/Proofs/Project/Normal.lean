import Mathlib.Data.List.Basic
import DatafileMigration.Proofs.Project.Name

namespace DatafileMigration.Path

variable {p q d name front : Text} {names segments : List Text}

theorem isAbsolute_iff : isAbsolute p ↔ ∃ t, p = '/' :: t := by
  rw [isAbsolute, Text.startsWith, Option.isSome_iff_exists]
  exact exists_congr fun _ => Text.dropPrefix?_eq_some_iff

theorem IsName.relative (isName : IsName name) : ¬ isAbsolute name := by
  rw [isAbsolute_iff]
  rintro ⟨t, rfl⟩
  exact isName.single List.mem_cons_self

/-- The beginnings of absolute paths. -/
def IsRoot (front : Text) : Prop := front = "/" ∨ front = "//"

theorem isRoot_root (rooted : isAbsolute p) : IsRoot (root p) := by
  obtain ⟨t, rfl⟩ := isAbsolute_iff.mp rooted
  unfold root
  split
  · exact .inl rfl
  · exact .inr rfl
  · exact .inl rfl
  · rename_i other
    exact absurd rfl (other t)

theorem segments_append_slash (s t : Text) : Path.segments (s ++ '/' :: t) =
    Path.segments s ++ Path.segments t := by
  rw [Path.segments, Text.splitOn_append_cons, List.filter_append]
  rfl

theorem segments_of_isName (isName : IsName name) : Path.segments name = [name] := by
  rw [Path.segments, Text.splitOn_of_not_mem isName.single]
  exact List.filter_cons_of_pos (decide_eq_true isName.solid)

/-- What is joined to a path stands behind it. -/
theorem join_cases (relative : ¬ isAbsolute p) (d : Text) : join d p = d ++ p ∧ IsFront d ∨
    join d p = d ++ '/' :: p ∧ ¬ IsFront d := by
  rw [join, if_neg relative]
  split
  case isTrue closed =>
    rw [Bool.or_eq_true, decide_eq_true_eq] at closed
    rcases closed with rfl | ends
    · exact .inl ⟨rfl, isFront_nil⟩
    · exact .inl ⟨rfl, isFront_of_endsWith ends⟩
  case isFalse =>
    rename_i apart
    refine .inr ⟨by rw [List.append_assoc]; rfl, ?_⟩
    rintro (rfl | ⟨before, rfl⟩)
    · exact apart rfl
    · refine apart ?_
      have cut : Text.dropSuffix? "/" (before ++ "/") = some before :=
        Text.dropSuffix?_eq_some_iff.mpr rfl
      have ends : Text.endsWith "/" (before ++ ['/']) = true := Option.isSome_iff_exists.mpr ⟨_, cut⟩
      rw [ends, Bool.or_true]

theorem segments_join (relative : ¬ isAbsolute p) (d : Text) :
    Path.segments (join d p) = Path.segments d ++ Path.segments p := by
  rcases join_cases relative d with ⟨joined, isFront⟩ | ⟨joined, -⟩
  · rw [joined]
    rcases isFront with rfl | ⟨before, rfl⟩
    · rfl
    · rw [List.append_assoc, List.singleton_append, segments_append_slash, segments_append_slash]
      simp [Path.segments, Text.splitOn]
  · rw [joined, segments_append_slash]

theorem isAbsolute_join (rooted : isAbsolute d) (p : Text) : isAbsolute (join d p) := by
  rw [join]
  split
  · assumption
  · obtain ⟨t, rfl⟩ := isAbsolute_iff.mp rooted
    split
    · exact isAbsolute_iff.mpr ⟨_, rfl⟩
    · exact isAbsolute_iff.mpr ⟨_, rfl⟩

theorem normalSegments_join (rooted : isAbsolute d) (isName : IsName name) :
    normalSegments (join d name) = normalSegments d ++ [name] := by
  rw [normalSegments, segments_join isName.relative, isAbsolute_join rooted, List.foldl_append,
    segments_of_isName isName, List.foldl_cons, List.foldl_nil, push_name isName, List.reverse_cons,
    normalSegments, rooted]

theorem root_single {c : Char} (other : c ≠ '/') (t : Text) : root ('/' :: c :: t) = "/" := by
  simp [root, other]

theorem root_double {c : Char} (other : c ≠ '/') (t : Text) : root ('/' :: '/' :: c :: t) = "//" := by
  simp [root, other]

/-- What follows has no part in the root, unless it goes on with slashes. -/
theorem root_append {d t : Text} (rooted : isAbsolute d)
    (apart : t.head? ≠ some '/' ∨ d ≠ "/" ∧ d ≠ "//") : root (d ++ t) = root d := by
  obtain ⟨d, rfl⟩ := isAbsolute_iff.mp rooted
  rcases d with _ | ⟨e, _ | ⟨f, d⟩⟩
  · have other := apart.resolve_right fun ends => ends.1 rfl
    cases t with
    | nil => rfl
    | cons c t => exact root_single (fun same => other (congrArg some same)) t
  · by_cases two : e = '/'
    · subst two
      have other := apart.resolve_right fun ends => ends.2 rfl
      cases t with
      | nil => rfl
      | cons c t => exact root_double (fun same => other (congrArg some same)) t
    · exact (root_single two _).trans (root_single two _).symm
  · by_cases two : e = '/'
    · subst two
      by_cases three : f = '/'
      · subst three
        rfl
      · exact (root_double three _).trans (root_double three _).symm
    · exact (root_single two _).trans (root_single two _).symm

theorem root_join (rooted : isAbsolute d) (relative : ¬ isAbsolute p) :
    root (join d p) = root d := by
  rcases join_cases relative d with ⟨joined, -⟩ | ⟨joined, apart⟩
  · rw [joined]
    refine root_append rooted (.inl fun slash => relative ?_)
    exact isAbsolute_iff.mpr (List.head?_eq_some_iff.mp slash)
  · rw [joined]
    refine root_append rooted (.inr ⟨?_, ?_⟩)
    · rintro rfl
      exact apart (isFront_slash [])
    · rintro rfl
      exact apart (isFront_slash ['/'])

theorem normalize_of_isAbsolute (rooted : isAbsolute p) :
    normalize p = root p ++ Text.join "/" (normalSegments p) := by
  rw [normalize]
  split
  · rename_i empty
    rcases isRoot_root rooted with slash | slashes
    · rw [slash] at empty
      cases empty
    · rw [slashes] at empty
      cases empty
  · rfl

theorem isName_of_mem_push {stack : List Text} {segment : Text} (named : ∀ s ∈ stack, IsName s)
    (solid : segment ≠ []) (single : '/' ∉ segment) : ∀ s ∈ push true stack segment, IsName s := by
  unfold push
  split
  · exact named
  split
  · cases stack with
    | nil => exact fun s member => by cases member
    | cons top below =>
      have notUp : top ≠ ".." := (named top List.mem_cons_self).down
      dsimp only
      rw [if_neg notUp]
      exact fun s member => named s (List.mem_cons_of_mem _ member)
  · intro s member
    rcases List.mem_cons.mp member with rfl | member
    · exact ⟨solid, ‹_›, ‹_›, single⟩
    · exact named s member

theorem mem_segments {s : Text} (member : s ∈ Path.segments p) : s ≠ [] ∧ '/' ∉ s := by
  obtain ⟨piece, filled⟩ := List.mem_filter.mp member
  exact ⟨by simpa using filled, Text.not_mem_of_mem_splitOn piece⟩

theorem isName_of_mem_foldl {stack : List Text} (named : ∀ s ∈ stack, IsName s)
    (given : ∀ s ∈ segments, s ≠ [] ∧ '/' ∉ s) :
    ∀ s ∈ segments.foldl (push true) stack, IsName s := by
  induction segments generalizing stack with
  | nil => exact named
  | cons segment segments ih =>
    obtain ⟨⟨solid, single⟩, others⟩ := List.forall_mem_cons.mp given
    exact ih (isName_of_mem_push named solid single) others

/-- The segments of an absolute path in normal form are names. -/
theorem isName_of_mem_normalSegments (rooted : isAbsolute p) :
    ∀ s ∈ normalSegments p, IsName s := by
  intro s member
  rw [normalSegments, rooted, List.mem_reverse] at member
  exact isName_of_mem_foldl (List.forall_mem_nil _) (fun _ => mem_segments) s member

theorem foldl_push_names (named : ∀ s ∈ names, IsName s) (stack : List Text) (rooted : Bool) :
    names.foldl (push rooted) stack = names.reverse ++ stack := by
  induction names generalizing stack with
  | nil => rfl
  | cons name names ih =>
    rw [List.forall_mem_cons] at named
    rw [List.foldl_cons, push_name named.1, ih named.2, List.reverse_cons, List.append_assoc]
    rfl

/-- The path of names behind slashes. -/
def ofNames (front : Text) (names : List Text) : Text := front ++ Text.join "/" names

theorem segments_join_parts (given : ∀ s ∈ segments, s ≠ [] ∧ '/' ∉ s) :
    Path.segments (Text.join "/" segments) = segments := by
  cases segments with
  | nil => rfl
  | cons segment segments =>
    have split : Text.splitOn '/' (Text.join "/" (segment :: segments)) = segment :: segments :=
      Text.splitOn_join (List.cons_ne_nil _ _) fun s member => (given s member).2
    rw [Path.segments, split]
    exact List.filter_eq_self.mpr fun s member => decide_eq_true (given s member).1

theorem isAbsolute_ofNames (isRoot : IsRoot front) (names : List Text) :
    isAbsolute (ofNames front names) := by
  rcases isRoot with rfl | rfl
  · exact isAbsolute_iff.mpr ⟨_, rfl⟩
  · exact isAbsolute_iff.mpr ⟨_, rfl⟩

theorem segments_behind_root (isRoot : IsRoot front) (given : ∀ s ∈ segments, s ≠ [] ∧ '/' ∉ s) :
    Path.segments (ofNames front segments) = segments := by
  have slash (t : Text) : Path.segments ('/' :: t) = Path.segments t := segments_append_slash [] t
  rcases isRoot with rfl | rfl
  · exact (slash _).trans (segments_join_parts given)
  · exact (slash _).trans ((slash _).trans (segments_join_parts given))

theorem segments_ofNames (isRoot : IsRoot front) (named : ∀ s ∈ names, IsName s) :
    Path.segments (ofNames front names) = names :=
  segments_behind_root isRoot fun s member => ⟨(named s member).solid, (named s member).single⟩

theorem normalSegments_ofNames (isRoot : IsRoot front) (named : ∀ s ∈ names, IsName s) :
    normalSegments (ofNames front names) = names := by
  rw [normalSegments, segments_ofNames isRoot named, foldl_push_names named, List.append_nil,
    List.reverse_reverse]

theorem join_begins (c : Char) (rest : Text) (names : List Text) :
    ∃ t, Text.join "/" ((c :: rest) :: names) = c :: t := by
  cases names with
  | nil => exact ⟨rest, rfl⟩
  | cons next names => exact ⟨_, rfl⟩

theorem root_ofNames (isRoot : IsRoot front) (named : ∀ s ∈ names, IsName s) :
    root (ofNames front names) = front := by
  have rooted : isAbsolute front ∧ root front = front := by
    rcases isRoot with rfl | rfl <;> exact ⟨rfl, rfl⟩
  refine (root_append rooted.1 (.inl ?_)).trans rooted.2
  cases names with
  | nil => exact nofun
  | cons name names =>
    have isName := named name List.mem_cons_self
    obtain ⟨c, rest, rfl⟩ := List.exists_cons_of_ne_nil isName.solid
    obtain ⟨t, joined⟩ := join_begins c rest names
    rw [joined]
    intro slash
    exact isName.single (Option.some.inj slash ▸ List.mem_cons_self)

theorem IsRoot.isFront (isRoot : IsRoot front) : IsFront front := by
  rcases isRoot with rfl | rfl
  · exact isFront_slash []
  · exact isFront_slash ['/']

/-- The kind of a path is that of its last name. -/
theorem kind?_ofNames (isRoot : IsRoot front) (isName : IsName name) (names : List Text) :
    kind? (ofNames front (names ++ [name])) = kind? name := by
  obtain ⟨before, joined, isFront⟩ := isFront_join names name
  refine kind?_congr ?_
  rw [ofNames, joined, ← List.append_assoc,
    baseName_append (isRoot.isFront.append isFront) isName.single, baseName_of_not_mem isName.single]

theorem tidy_of_isAbsolute (rooted : isAbsolute p) :
    tidy p = ofNames (root p) ((Path.segments p).filter (· ≠ ".")) := by
  rw [tidy, ← ofNames]
  split
  · rename_i empty
    obtain ⟨t, whole⟩ := isAbsolute_iff.mp (isAbsolute_ofNames (isRoot_root rooted) _)
    cases empty.symm.trans whole
  · rfl

/-- The names on a stack stand among the segments that came to it. -/
theorem foldl_push_sublist (rooted : Bool) (segments stack : List Text) :
    (segments.foldl (push rooted) stack).reverse.Sublist (stack.reverse ++ segments) := by
  induction segments generalizing stack with
  | nil =>
    rw [List.append_nil]
    exact List.Sublist.refl _
  | cons segment segments ih =>
    have pushed : (push rooted stack segment).reverse.Sublist (stack.reverse ++ [segment]) := by
      rw [← List.reverse_cons, List.reverse_sublist]
      unfold push
      split
      · exact List.sublist_cons_self _ _
      split
      · cases stack with
        | nil =>
          dsimp only
          split
          · exact List.nil_sublist _
          · exact List.Sublist.refl _
        | cons top below =>
          dsimp only
          split
          · exact List.Sublist.refl _
          · exact (List.sublist_cons_self _ _).trans (List.sublist_cons_self _ _)
      · exact List.Sublist.refl _
    rw [List.foldl_cons, List.append_cons]
    exact (ih _).trans (pushed.append (List.Sublist.refl _))

theorem foldl_push_tidied (rooted : Bool) (segments stack : List Text) :
    (segments.filter (· ≠ ("." : Text))).foldl (push rooted) stack =
      segments.foldl (push rooted) stack := by
  rw [List.foldl_filter]
  congr 1
  funext stack segment
  by_cases here : segment = "."
  · subst here
    rfl
  · exact if_pos (decide_eq_true here)

theorem normalSegments_tidied (rooted : isAbsolute p) :
    normalSegments (ofNames (root p) ((Path.segments p).filter (· ≠ "."))) = normalSegments p := by
  have isRoot := isRoot_root rooted
  rw [normalSegments, segments_behind_root isRoot, isAbsolute_ofNames isRoot _, foldl_push_tidied,
    normalSegments, rooted]
  exact fun s member => mem_segments (List.mem_of_mem_filter member)

theorem normalSegments_sublist (p : Text) :
    (normalSegments p).Sublist ((Path.segments p).filter (· ≠ ".")) := by
  rw [normalSegments, ← foldl_push_tidied]
  exact foldl_push_sublist _ _ []

/-- The normal form is a tidy path without some of its segments. -/
theorem normalize_sublist (rooted : isAbsolute p) : (normalize p).Sublist (tidy p) := by
  rw [normalize_of_isAbsolute rooted, tidy_of_isAbsolute rooted]
  exact (List.Sublist.refl _).append (Text.join_sublist (normalSegments_sublist p))

/-- An absolute path in normal form. -/
structure IsNormal (p : Text) : Prop where
  rooted : isAbsolute p
  normal : normalize p = p

theorem isNormal_ofNames (isRoot : IsRoot front) (named : ∀ s ∈ names, IsName s) :
    IsNormal (ofNames front names) := by
  have rooted := isAbsolute_ofNames isRoot names
  refine ⟨rooted, ?_⟩
  rw [normalize_of_isAbsolute rooted, root_ofNames isRoot named, normalSegments_ofNames isRoot named,
    ofNames]

theorem isNormal_normalize (rooted : isAbsolute p) : IsNormal (normalize p) := by
  rw [normalize_of_isAbsolute rooted]
  exact isNormal_ofNames (isRoot_root rooted) (isName_of_mem_normalSegments rooted)

namespace IsNormal

theorem eq_ofNames (normal : IsNormal p) : p = ofNames (root p) (normalSegments p) :=
  normal.normal.symm.trans (normalize_of_isAbsolute normal.rooted)

/-- A path in normal form is told by its beginning and its names. -/
theorem eq_of_names (normal : IsNormal p) (normal' : IsNormal q) (same : root p = root q)
    (names : normalSegments p = normalSegments q) : p = q := by
  rw [normal.eq_ofNames, same, names, ← normal'.eq_ofNames]

/-- A name that is joined to a path in normal form comes behind its names. -/
theorem join_eq (normal : IsNormal d) (isName : IsName name) :
    Path.join d name = ofNames (root d) (normalSegments d ++ [name]) := by
  have whole := normal.eq_ofNames
  rcases List.eq_nil_or_concat' (normalSegments d) with none | ⟨front, last, split⟩
  · rw [none, ofNames, Text.join, List.append_nil] at whole
    have isFront : IsFront d := whole ▸ isFront_root d
    obtain ⟨joined, -⟩ := (join_cases isName.relative d).resolve_right fun apart => apart.2 isFront
    rw [joined, none, ofNames, ← whole]
    rfl
  · have isName' := isName_of_mem_normalSegments normal.rooted last
      (split ▸ List.mem_append_right _ List.mem_cons_self)
    have apart : ¬ IsFront d := by
      intro isFront
      obtain ⟨before, joined, isFront'⟩ := isFront_join front last
      rw [split, ofNames, joined, ← List.append_assoc] at whole
      have ends := baseName_append ((isFront_root d).append isFront') isName'.single
      have ends' := baseName_append isFront List.not_mem_nil
      rw [← whole] at ends
      rw [List.append_nil, ends] at ends'
      exact isName'.solid ends'
    obtain ⟨joined, -⟩ := (join_cases isName.relative d).resolve_left fun front => apart front.2
    rw [joined, ofNames, split, Text.join_concat (by simp), ← List.append_assoc, ← List.append_assoc,
      ← split, ← ofNames, ← whole, List.append_assoc]
    rfl

theorem join (normal : IsNormal d) (isName : IsName name) : IsNormal (Path.join d name) := by
  rw [normal.join_eq isName]
  refine isNormal_ofNames (isRoot_root normal.rooted) fun s member => ?_
  rcases List.mem_append.mp member with early | last
  · exact isName_of_mem_normalSegments normal.rooted s early
  · exact List.mem_singleton.mp last ▸ isName

end IsNormal

end DatafileMigration.Path
