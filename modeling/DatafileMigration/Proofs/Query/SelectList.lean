import DatafileMigration.Proofs.Query.Alias
import DatafileMigration.Proofs.Query.Reading

namespace DatafileMigration.Query

variable {s : Context} {c p : Char} {a e t list rest : Text} {items : List (Text × Text)}
  {parts : List Text}

/-- The splitter cuts a text nowhere that shows no comma at the top level, and knows behind it what
is open. -/
theorem exists_through? (quoted : ∀ q ∈ s.quote, isQuote q)
    (unescaped : ∀ q, q = '\'' ∨ q = '"' → ¬ ['\\', q] <:+: p :: t)
    (comma : ∀ before rest, t = before ++ ',' :: rest → s.after before ≠ {}) :
    ∃ escaped, Text.SplitState.through? ⟨s.quote, s.depth, p == '\\'⟩ t =
      some ⟨(s.after t).quote, (s.after t).depth, escaped⟩ := by
  induction t generalizing s p with
  | nil => exact ⟨_, rfl⟩
  | cons c t ih =>
    have counts : c = '\'' ∨ c = '"' → p ≠ '\\' := by
      rintro quote rfl
      exact unescaped c quote ⟨[], t, rfl⟩
    have noCut :
        ¬ (decide (c = ',') && Text.SplitState.isNeutral ⟨s.quote, s.depth, p == '\\'⟩) := by
      rw [Bool.and_eq_true, decide_eq_true_eq]
      rintro ⟨rfl, neutral⟩
      have closed := Text.SplitState.isNeutral_iff.mp neutral
      exact comma [] t rfl (Context.ext (congrArg (·.opened) closed) (congrArg (·.depth) closed))
    have next := next_eq (s := ⟨s.quote, s.depth, p == '\\'⟩) (c := c) quoted fun keeps =>
      counts keeps.mark (by simpa using keeps.escaped)
    rw [Text.SplitState.through?, if_neg noCut, next]
    refine ih (isQuote_of_next quoted) (fun q quote inside => unescaped q quote ?_) ?_
    · exact inside.trans (List.suffix_cons p _).isInfix
    · rintro before rest rfl
      exact comma (c :: before) rest rfl

/-- An aliased expression is a part of its own, whatever is cut off in front that means nothing to
the splitter. -/
theorem isWhole_aliased (front : Text) (expression : IsExpression (front ++ rest))
    (plain : ∀ c ∈ front, c ∉ Text.splitMarks) (identifier : Text.isIdentifier a) :
    Text.IsWhole (aliased (rest, a)) := by
  have unescaped : ∀ q, q = '\'' ∨ q = '"' → ¬ ['\\', q] <:+: ' ' :: (front ++ rest) := by
    intro q quote inside
    rcases List.infix_cons_iff.mp inside with first | later
    · exact absurd (List.cons_prefix_cons.mp first).1 (by decide)
    · exact expression.unescaped q quote later
  obtain ⟨escaped, through⟩ := exists_through? (s := {}) (by simp) unescaped expression.comma
  have start : Text.SplitState.through? {} front = some {} := Text.isPart_of_plain plain 0
  have neutral : Text.SplitState.isNeutral ⟨(Context.after {} (front ++ rest)).quote,
      (Context.after {} (front ++ rest)).depth, escaped⟩ := by
    rw [expression.closed]
    rfl
  have behind : ∀ c ∈ " AS ".toList ++ a, c ∉ Text.splitMarks := by
    rw [List.forall_mem_append]
    refine ⟨by simp [Text.splitMarks, Text.backtick], fun c member => ?_⟩
    exact Text.not_mem_splitMarks_of_isIdentifierChar
      (Text.isIdentifierChar_of_mem identifier c member)
  obtain ⟨next, passed, whole⟩ := Text.SplitState.exists_through?_of_plain behind neutral
  refine ⟨next, ?_, whole⟩
  have inside : Text.SplitState.through? {} rest = some ⟨(Context.after {} (front ++ rest)).quote,
      (Context.after {} (front ++ rest)).depth, escaped⟩ := by
    have both := Text.SplitState.through?_append (s := {}) (t := front) (u := rest)
    rw [start, Option.bind_some] at both
    exact both.symm.trans through
  rw [aliased, List.append_assoc, Text.SplitState.through?_append, inside, Option.bind_some, passed]

/-- The aliases of a list, each of which names its column at every position. -/
theorem filterMap_columnName?
    (each : ∀ i ∈ items, Text.isBlankText i.1 = false ∧ Text.isIdentifier i.2) (first : Nat) :
    (((items.map aliased).map Text.strip).zipIdx first).filterMap
      (fun part => columnName? part.2 part.1) = items.map (·.2) := by
  induction items generalizing first with
  | nil => rfl
  | cons item items ih =>
    obtain ⟨⟨filled, identifier⟩, others⟩ := List.forall_mem_cons.mp each
    have name := columnName?_aliased identifier first (Text.stripStart item.1)
    rw [← strip_aliased identifier filled] at name
    rw [List.map_cons, List.map_cons, List.zipIdx_cons, List.filterMap_cons, name]
    exact congrArg (item.2 :: ·) (ih others (first + 1))

/-- A select list ends with its last alias. -/
theorem stripEnd_join (some : items ≠ []) (each : ∀ i ∈ items, Text.isIdentifier i.2) :
    Text.stripEnd (Text.join ", " (items.map aliased)) = Text.join ", " (items.map aliased) := by
  have more : items.map aliased ≠ [] := by simpa using some
  obtain ⟨before, joined⟩ := @Text.join_getLast ", " _ more
  have identifier := each _ (List.getLast_mem some)
  have whole := (Text.strip_eq_self_iff.mp (Text.strip_of_isIdentifier identifier)).2
  rw [joined, List.getLast_map, aliased, ← List.append_assoc]
  exact Text.stripEnd_append_self whole (Text.isIdentifier_ne_nil identifier) _

theorem columnNames_aliased (some : items ≠ [])
    (each : ∀ i ∈ items, IsExpression i.1 ∧ Text.isIdentifier i.2)
    (distinct : (items.map (·.2)).Nodup) :
    columnNames (Text.strip (Text.join ", " (items.map aliased))) = items.map (·.2) := by
  have identifiers : ∀ i ∈ items, Text.isIdentifier i.2 := fun i member => (each i member).2
  have stripped := stripEnd_join some identifiers
  obtain ⟨⟨e, a⟩, items, rfl⟩ := List.exists_cons_of_ne_nil some
  obtain ⟨⟨expression, identifier⟩, others⟩ := List.forall_mem_cons.mp each
  obtain ⟨more, joined⟩ : ∃ more, ∀ e : Text,
      Text.join ", " (((e, a) :: items).map aliased) = e ++ ' ' :: more := by
    refine ⟨Text.join ", " (("AS " ++ a) :: items.map aliased), fun e => ?_⟩
    cases items <;> simp [aliased, Text.join]
  obtain ⟨front, rest, rfl, plain, filled, dropped⟩ :=
    exists_dropDistinct expression.ascii expression.filled expression.other more
  have start : Text.strip (Text.join ", " (((front ++ rest, a) :: items).map aliased)) =
      Text.stripStart (front ++ rest ++ ' ' :: more) := by
    rw [Text.strip_eq_stripStart stripped, joined]
  have whole : ∀ part ∈ ((rest, a) :: items).map aliased, Text.IsWhole part := by
    rw [List.forall_mem_map, List.forall_mem_cons]
    exact ⟨isWhole_aliased front expression plain identifier, fun item member =>
      isWhole_aliased [] (others item member).1 (by simp) (others item member).2⟩
  have named : ∀ i ∈ (rest, a) :: items, Text.isBlankText i.1 = false ∧ Text.isIdentifier i.2 :=
    List.forall_mem_cons.mpr ⟨⟨filled, identifier⟩, fun item member =>
      ⟨(others item member).1.filled, (others item member).2⟩⟩
  have parts : Text.splitTopLevel (Text.stripStart (rest ++ ' ' :: more)) =
      (((rest, a) :: items).map aliased).map Text.strip := by
    rw [← Text.splitTopLevel_strip, Text.strip_stripStart, Text.splitTopLevel_strip, ← joined]
    refine Text.splitTopLevel_join_strip whole (List.forall_mem_map.mpr fun item member => ?_)
    have inside := strip_aliased (named item member).2 (named item member).1
    rw [inside]
    simp [aliased]
  have kept := @foldl_names [] _ distinct
  rw [start, columnNames, dropped, parts]
  exact (congrArg (List.foldl _ []) (filterMap_columnName? named 1)).trans kept

namespace Passage

theorem aliased (expression : IsExpression e) (identifier : Text.isIdentifier a)
    (other : a.map Char.toUpper ≠ "FROM".toList) : Passage 0 (aliased (e, a)) := by
  have name : Passage 0 a := by
    have alone := Passage.word identifier (t := []) (by simp) other .nil
    rwa [List.append_nil] at alone
  have mark : Passage 0 ("AS".toList ++ ' ' :: a) :=
    .word (by decide) (by rintro _ ⟨⟩; rfl) (by decide) (name.behind_separator (Or.inl rfl))
  have whole := (expression.toPasses.passage expression.ascii).append (Or.inl rfl)
    (mark.behind_separator (Or.inl rfl))
  simpa [Query.aliased] using whole

theorem join (each : ∀ t ∈ parts, Passage 0 t) : Passage 0 (Text.join ", " parts) := by
  induction parts with
  | nil => exact .nil
  | cons part parts ih =>
    obtain ⟨first, others⟩ := List.forall_mem_cons.mp each
    by_cases last : parts = []
    · subst last
      exact first
    · rw [Text.join_cons_of_ne_nil last, List.append_assoc]
      exact first.append (Or.inr rfl)
        (((ih others).behind_separator (Or.inl rfl)).behind_separator (Or.inr rfl))

end Passage

/-- The words of a query: in its select list, no other `FROM` is found. -/
theorem keywords_of_passage (passage : Passage 0 list) (ascii : ∀ c ∈ rest, c.toNat < 128) :
    ∃ found more, (∀ k ∈ found, k.word ≠ "FROM".toList) ∧
      keywords ("SELECT " ++ list ++ " FROM " ++ rest) = .ok (⟨"SELECT", 0, 6⟩ ::
        (found ++ ⟨"FROM", list.length + 8, list.length + 12⟩ :: more)) := by
  have separated : ∀ d ∈ (' ' :: rest).head?, Text.isIdentifierChar d = false := by
    rintro _ ⟨⟩
    rfl
  obtain ⟨more, source⟩ := exists_keywordsFrom (t := ' ' :: rest)
    (List.forall_mem_cons.mpr ⟨by decide, ascii⟩) 0 (list.length + 12)
  have fromWord : keywordsFrom 0 (list.length + 8) ("FROM".toList ++ ' ' :: rest) =
      .ok (⟨"FROM", list.length + 8, list.length + 12⟩ :: more) := by
    refine (keywordsFrom_word (by decide) separated _).trans ?_
    rw [show list.length + 8 + "FROM".toList.length = list.length + 12 from rfl, source]
    rfl
  have blank : keywordsFrom 0 (6 + (' ' :: list).length) (' ' :: ("FROM".toList ++ ' ' :: rest)) =
      .ok (⟨"FROM", list.length + 8, list.length + 12⟩ :: more) := by
    have place : 6 + (' ' :: list).length + 1 = list.length + 8 := by
      rw [List.length_cons]
      omega
    rw [keywordsFrom_blank, place, fromWord]
  obtain ⟨found, noSource, behind⟩ := (passage.behind_separator (Or.inl rfl)).finds 6
  refine ⟨found, more, noSource, ?_⟩
  have whole : "SELECT ".toList ++ list ++ " FROM ".toList ++ rest =
      "SELECT".toList ++ (' ' :: list ++ ' ' :: ("FROM".toList ++ ' ' :: rest)) := by simp
  have ends : ∀ d ∈ (' ' :: list ++ ' ' :: ("FROM".toList ++ ' ' :: rest)).head?,
      Text.isIdentifierChar d = false := by
    rintro _ ⟨⟩
    rfl
  rw [whole, keywords, keywordsFrom_word (by decide) ends]
  exact congrArg (Except.map _) (behind _ ⟨_, rfl⟩ _ blank)

/-- A passage between `SELECT` and `FROM` is the select list. -/
theorem selectList?_of_passage (passage : Passage 0 list) (ascii : ∀ c ∈ rest, c.toNat < 128) :
    selectList? ("SELECT " ++ list ++ " FROM " ++ rest) = .ok (some (Text.strip list)) := by
  obtain ⟨found, more, noSource, words⟩ := keywords_of_passage passage ascii
  have bounds : selectBounds? (⟨"SELECT", 0, 6⟩ ::
      (found ++ ⟨"FROM", list.length + 8, list.length + 12⟩ :: more)) =
        some (6, list.length + 8) := by
    have absent : found.find? (Keyword.is "FROM") = none :=
      List.find?_eq_none.mpr fun k member => by simpa [Keyword.is] using noSource k member
    have source : (found ++ ⟨"FROM", list.length + 8, list.length + 12⟩ :: more).find?
        (Keyword.is "FROM") = some ⟨"FROM", list.length + 8, list.length + 12⟩ := by
      rw [List.find?_append, absent]
      rfl
    rw [selectBounds?_select rfl, source]
    rfl
  have between : (("SELECT ".toList ++ list ++ " FROM ".toList ++ rest).take
      (list.length + 8)).drop 6 = [' '] ++ list ++ [' '] := by
    have whole : "SELECT ".toList ++ list ++ " FROM ".toList ++ rest =
        ("SELECT".toList ++ ([' '] ++ list ++ [' '])) ++ ("FROM ".toList ++ rest) := by simp
    have length : ("SELECT".toList ++ ([' '] ++ list ++ [' '])).length = list.length + 8 := by
      simp only [List.length_append, List.length_singleton]
      exact (Nat.add_comm 6 _).trans (by omega)
    rw [whole, List.take_left' length]
    rfl
  rw [selectList?_of_keywords words, bounds, Option.map_some, between,
    Text.strip_between_blanks (by decide) (by decide)]

/-- The columns of a query that gives each of its expressions an alias are the aliases, in their
order. -/
theorem outputColumns_aliased (some : items ≠ [])
    (each : ∀ i ∈ items, IsExpression i.1 ∧ Text.isIdentifier i.2 ∧
      i.2.map Char.toUpper ≠ "FROM".toList)
    (distinct : (items.map (·.2)).Nodup) (ascii : ∀ c ∈ rest, c.toNat < 128) :
    outputColumns ("SELECT " ++ Text.join ", " (items.map aliased) ++ " FROM " ++ rest) =
      .ok (items.map (·.2)) := by
  have passage : Passage 0 (Text.join ", " (items.map aliased)) := by
    refine Passage.join (List.forall_mem_map.mpr fun item member => ?_)
    obtain ⟨expression, identifier, other⟩ := each item member
    exact .aliased expression identifier other
  have names := columnNames_aliased some
    (fun item member => ⟨(each item member).1, (each item member).2.1⟩) distinct
  rw [outputColumns, selectList?_of_passage passage ascii, ← names]
  rfl

/-- Commas, an `AS` and a `FROM` in quotes and parentheses, and a comment behind the list. -/
theorem outputColumns_aliased_nested :
    outputColumns ("SELECT " ++ Text.join ", " ([
      ("if(a AS b, 'x, y FROM (', 2)".toList, "one".toList),
      ("distinct \"AS z, (\"".toList, "two".toList)].map aliased) ++ " FROM " ++
        "t -- (note".toList) = .ok ["one".toList, "two".toList] :=
  outputColumns_aliased (by decide) (by decide +kernel) (by decide) (ascii_of_all (by decide))

end DatafileMigration.Query
