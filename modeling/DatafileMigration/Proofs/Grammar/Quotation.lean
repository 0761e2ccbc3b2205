import DatafileMigration.Proofs.Datafile.Quotation
import DatafileMigration.Proofs.Grammar.Order

namespace DatafileMigration.Grammar

open Datafile
open Cause (inQuotes)

variable {d : Directive} {before after : List Directive} {value name path : Text} {kind : Kind}
  {r : Resource}

theorem strip_inQuotes (value : Text) : Text.strip (inQuotes value) = inQuotes value :=
  Text.strip_eq_self_iff.mpr ⟨List.dropWhile_cons_of_neg (by decide),
    Text.stripEnd_append_self (by decide) (by decide) _⟩

theorem unquote_inQuotes (value : Text) : unquote (inQuotes value) = value := by
  have opened : inQuotes value = '"' :: (value ++ "\"") := rfl
  have inside : insideQuotes? '"' (inQuotes value) = some value := by
    rw [opened, insideQuotes?, if_pos rfl]
    exact Text.dropSuffix?_eq_some_iff.mpr rfl
  rw [unquote, strip_inQuotes, inside, Option.getD_some]

theorem unquote_of_bare (stripped : Text.strip value = value) (bare : '"' ∉ value) :
    unquote value = value := by
  have outside : insideQuotes? '"' value = none := by
    cases value with
    | nil => rfl
    | cons c value =>
      rw [List.mem_cons, not_or] at bare
      exact if_neg (Ne.symm bare.1)
  rw [unquote, stripped, outside, Option.getD_none]

theorem integer?_inQuotes (value : Text) : integer? (inQuotes value) = none := by
  have stripped : stripNumber (inQuotes value) = inQuotes value := by
    have front : (inQuotes value).dropWhile isNumberBlank = inQuotes value :=
      List.dropWhile_cons_of_neg (by decide)
    have back : (inQuotes value).reverse.dropWhile isNumberBlank = (inQuotes value).reverse := by
      rw [inQuotes, List.reverse_append]
      exact List.dropWhile_cons_of_neg (by decide)
    rw [stripNumber, front, back, List.reverse_reverse]
  have groups : ∃ first others,
      Text.splitOn '_' (inQuotes value) = ('"' :: first) :: others := by
    obtain ⟨first, others, split⟩ :=
      List.exists_cons_of_ne_nil (Text.splitOn_ne_nil '_' (value ++ "\""))
    have opening : inQuotes value = '"' :: (value ++ "\"") := rfl
    refine ⟨first, others, ?_⟩
    rw [opening, Text.splitOn, if_neg (by decide), split]
  obtain ⟨first, others, split⟩ := groups
  have digits : groupedDigits? (inQuotes value) = none := by
    rw [groupedDigits?, split]
    split
    · rfl
    · rfl
  have unsigned : splitSign (inQuotes value) = (false, inQuotes value) := rfl
  rw [integer?, stripped, unsigned]
  dsimp only
  rw [digits]
  rfl

theorem flag?_inQuotes (value : Text) : flag? (inQuotes value) = none := by
  have small : Text.lower (inQuotes value) = '"' :: Text.lowerAfter ['"'] (value ++ "\"") := rfl
  rw [flag?, strip_inQuotes, small]
  rfl

theorem ofText?_inQuotes {α : Type} [Choice α] (plain : ∀ a ∈ Choice.all (α := α),
      (Choice.text a).head? ≠ some '"') (value : Text) :
    (Choice.ofText? (inQuotes value) : Option α) = none := by
  rw [Choice.ofText?, List.find?_eq_none]
  intro a listed same
  rw [decide_eq_true_eq] at same
  exact plain a listed (by rw [same]; rfl)

theorem keyword_quoted (d : Directive) : d.quoted.keyword = d.keyword := by
  rw [Directive.quoted]
  split <;> rfl

theorem requireBlock_quoted (d : Directive) : requireBlock d.quoted = requireBlock d := by
  obtain ⟨keyword, body, line⟩ := d
  cases body <;> rfl

theorem isBlock_quoted (d : Directive) : d.quoted.isBlock = d.isBlock := by
  obtain ⟨keyword, body, line⟩ := d
  cases body <;> rfl

theorem readSql_quoted (node : Text) (d : Directive) : readSql node d.quoted = readSql node d := by
  obtain ⟨keyword, body, line⟩ := d
  cases body <;> rfl

/-- A directive whose value is stripped and holds no double quotes. -/
structure IsBare (d : Directive) (value : Text) : Prop where
  inline : d.body = .inline value
  stripped : Text.strip value = value
  bare : '"' ∉ value

namespace IsBare

variable (isBare : IsBare d value)

include isBare

theorem quoted_eq : d.quoted = ⟨d.keyword, .inline (inQuotes value), d.line⟩ :=
  Directive.quoted_of_inline isBare.inline

theorem requireInline_quoted : requireInline d.quoted = .ok (inQuotes value) := by
  rw [isBare.quoted_eq]
  rfl

theorem requireUnquoted_quoted : requireUnquoted d.quoted = requireUnquoted d := by
  have inline : requireInline d = .ok value := by rw [requireInline, isBare.inline]
  rw [requireUnquoted, isBare.requireInline_quoted, requireUnquoted, inline, Except.map, Except.map,
    unquote_inQuotes, unquote_of_bare isBare.stripped isBare.bare]

theorem descriptionText_quoted : descriptionText d.quoted = descriptionText d := by
  obtain ⟨keyword, body, line⟩ := d
  obtain rfl : body = .inline value := isBare.inline
  exact (unquote_inQuotes value).trans (unquote_of_bare isBare.stripped isBare.bare).symm

end IsBare

/-- What refuses a value in quotes, where a datasource reads it as it stands. -/
def DatasourceKeyword.refusalOfQuotes? (value : Text) : DatasourceKeyword → Option Cause
  | .offsetReset => some (.offsetReset (inQuotes value))
  | .storeRawValue => some (.storeRawValue (inQuotes value))
  | _ => none

/-- What refuses a value in quotes, where a pipe reads it as it stands. -/
def PipeKeyword.refusalOfQuotes? (value : Text) : PipeKeyword → Option Cause
  | .cache => some (.cache (inQuotes value))
  | _ => none

/-- What refuses a directive's value in quotes, if anything. -/
def refusalOfQuotes? (kind : Kind) (d : Directive) : Option Cause :=
  match kind with
  | .connection => none
  | .datasource =>
    (keyword? datasourceKeywords d.keyword).bind (DatasourceKeyword.refusalOfQuotes? d.value)
  | .pipe => (keyword? pipeKeywords d.keyword).bind (PipeKeyword.refusalOfQuotes? d.value)

/-- A result, or the refusal that comes in its place. -/
def unlessRefused {α : Type} (a : α) : Option Cause → Parse α
  | some cause => refuse cause
  | none => .ok a

theorem IsBare.value_eq (isBare : IsBare d value) : d.value = value := by
  rw [Directive.value, isBare.inline]

theorem ok_bind {α : Type} (t : Text) (f : Text → Parse α) :
    ((.ok t : Parse Text) >>= f) = f t := rfl

/-- Quotes change nothing about what a datasource takes, or are refused. -/
theorem DatasourceDraft.take_quoted {draft next : DatasourceDraft} (isBare : IsBare d value)
    (noToken : d.keyword ≠ "TOKEN") (noSettings : d.keyword ≠ "ENGINE_SETTINGS")
    (taken : draft.take d = .ok next) :
    draft.take d.quoted = unlessRefused next (refusalOfQuotes? .datasource d) := by
  unfold take at taken ⊢
  rw [keyword_quoted, refusalOfQuotes?, isBare.value_eq]
  cases found : keyword? datasourceKeywords d.keyword with
  | none => rwa [found] at taken
  | some keyword =>
    rw [found] at taken
    dsimp only at taken
    rw [Option.bind_some]
    cases keyword with
    | description => rwa [isBare.descriptionText_quoted]
    | schema | forwardQuery | sharedWith => rwa [requireBlock_quoted]
    | engine | engineText | engineKeys | topic | bucket => rwa [isBare.requireUnquoted_quoted]
    | engineSettings => exact absurd (keyword?_injective (by decide) found rfl) noSettings
    | token => exact absurd (keyword?_injective (by decide) found rfl) noToken
    | offsetReset =>
      have other : (Choice.ofText? (inQuotes value) : Option OffsetReset) = none :=
        ofText?_inQuotes (by decide) value
      dsimp only
      rw [isBare.requireInline_quoted, ok_bind, strip_inQuotes, other]
      rfl
    | storeRawValue =>
      dsimp only
      rw [isBare.requireInline_quoted, ok_bind, strip_inQuotes, flag?_inQuotes]
      rfl

theorem PipeDraft.closeNode_quoted (draft : PipeDraft) (d : Directive) :
    draft.closeNode d.quoted = draft.closeNode d := by
  unfold closeNode
  simp only [readSql_quoted]

/-- Quotes change nothing about what a pipe takes, or are refused. -/
theorem PipeDraft.take_quoted {draft next : PipeDraft} (isBare : IsBare d value)
    (noToken : d.keyword ≠ "TOKEN") (taken : draft.take d = .ok next) :
    draft.take d.quoted = unlessRefused next (refusalOfQuotes? .pipe d) := by
  unfold take at taken ⊢
  rw [keyword_quoted, refusalOfQuotes?, isBare.value_eq]
  cases found : keyword? pipeKeywords d.keyword with
  | none => rwa [found] at taken
  | some keyword =>
    rw [found] at taken
    rw [Option.bind_some]
    cases keyword with
    | description => rwa [isBare.descriptionText_quoted]
    | sql => rwa [closeNode_quoted]
    | token => exact absurd (keyword?_injective (by decide) found rfl) noToken
    | node => rwa [isBare.requireUnquoted_quoted]
    | type | datasource | deploymentMethod | targetDatasource | copySchedule | copyMode =>
      unfold set at taken ⊢
      rwa [isBare.requireUnquoted_quoted]
    | cache =>
      cases opened : draft.opened with
      | some node =>
        rw [opened] at taken
        cases taken
      | none =>
        have refused : readCache (inQuotes value) = .error (.cache (inQuotes value)) := by
          rw [readCache, integer?_inQuotes]
          rfl
        dsimp only
        rw [if_neg (by decide), set, isBare.requireInline_quoted]
        change (Except.mapError Fault.refused (readCache (inQuotes value)) >>= fun ttl =>
          (.ok { draft with cacheTtl := some ttl } : Parse PipeDraft)) = _
        rw [refused]
        rfl

/-- Quotes change nothing about what a connection takes. -/
theorem ConnectionDraft.take_quoted (draft : ConnectionDraft) (isBare : IsBare d value) :
    draft.take d.quoted = draft.take d := by
  have inline : d.isBlock = false := by rw [Directive.isBlock, isBare.inline]
  unfold take
  rw [keyword_quoted, isBare.requireUnquoted_quoted, isBlock_quoted, inline]
  simp only [Bool.and_false, Bool.false_eq_true, if_false]

section Fold

variable {State α : Type} (take : State → Directive → Parse State) (finish : State → Parse α)
  {s : State} {d' : Directive} {cause? : Option Cause} {a : α}

/-- Where a directive is exchanged for one that does the same or is refused, so do all directives
together. -/
theorem foldlM_exchange (exchange : ∀ s next, take s d = .ok next →
      take s d' = unlessRefused next cause?)
    (built : (before ++ d :: after).foldlM take s >>= finish = .ok a) :
    (before ++ d' :: after).foldlM take s >>= finish = unlessRefused a cause? := by
  obtain ⟨last, folded, finished⟩ := bind_eq_ok.mp built
  rw [List.foldlM_append] at folded
  obtain ⟨middle, front, back⟩ := bind_eq_ok.mp folded
  rw [List.foldlM_cons] at back
  obtain ⟨next, taken, rest⟩ := bind_eq_ok.mp back
  have exchanged := exchange middle next taken
  rw [List.foldlM_append, front]
  change (take middle d' >>= _) >>= finish = _
  rw [exchanged]
  cases cause? with
  | some cause => rfl
  | none =>
    change after.foldlM take next >>= finish = .ok a
    rw [rest]
    exact finished

end Fold

theorem map_unlessRefused {α β : Type} (f : α → β) (a : α) (cause? : Option Cause) :
    (unlessRefused a cause?).map f = unlessRefused (f a) cause? := by
  cases cause? <;> rfl

/-- Quotes around a value change nothing about what directives define, or are refused. -/
theorem build_quoted (isBare : IsBare d value) (noToken : d.keyword ≠ "TOKEN")
    (noSettings : d.keyword ≠ "ENGINE_SETTINGS")
    (built : build kind name path (before ++ d :: after) = .ok r) :
    build kind name path (before ++ d.quoted :: after) =
      unlessRefused r (refusalOfQuotes? kind d) := by
  cases kind with
  | datasource =>
    obtain ⟨datasource, made, rfl⟩ := map_eq_ok.mp built
    have exchanged := foldlM_exchange DatasourceDraft.take (·.finish name path)
      (fun _ _ => DatasourceDraft.take_quoted isBare noToken noSettings) made
    rw [← map_unlessRefused, ← exchanged]
    rfl
  | pipe =>
    obtain ⟨pipe, made, rfl⟩ := map_eq_ok.mp built
    have exchanged := foldlM_exchange PipeDraft.take (·.finish name path)
      (fun _ _ => PipeDraft.take_quoted isBare noToken) made
    rw [← map_unlessRefused, ← exchanged]
    rfl
  | connection =>
    obtain ⟨connection, made, rfl⟩ := map_eq_ok.mp built
    have exchange (draft next : ConnectionDraft) (taken : draft.take d = .ok next) :
        draft.take d.quoted = unlessRefused next none :=
      (draft.take_quoted isBare).trans taken
    have exchanged := foldlM_exchange ConnectionDraft.take (·.finish name path) exchange made
    rw [refusalOfQuotes?, ← map_unlessRefused, ← exchanged]
    rfl

theorem keyword?_eq_none {α : Type} {table : List (Text × α)} {t : Text}
    (unlisted : t ∉ table.map (·.1)) : keyword? table t = none := by
  rw [Option.eq_none_iff_forall_not_mem]
  intro a found
  exact unlisted (List.mem_map_of_mem (mem_of_keyword? found))

theorem refusalOfQuotes?_of_unknown (unknown : d.keyword ∉ knownKeywords kind) :
    refusalOfQuotes? kind d = none := by
  cases kind with
  | connection => rfl
  | datasource => rw [refusalOfQuotes?, keyword?_eq_none unknown, Option.bind_none]
  | pipe => rw [refusalOfQuotes?, keyword?_eq_none unknown, Option.bind_none]

theorem unknownDirectives_quoted (kind : Kind) (before after : List Directive) (d : Directive) :
    unknownDirectives kind (before ++ d.quoted :: after) = [] ↔
      unknownDirectives kind (before ++ d :: after) = [] := by
  simp [unknownDirectives, keyword_quoted]

/-- Directives of a file that is accepted, with quotes around one of the values. -/
theorem build_knownDirectives_quoted (isBare : IsBare d value) (noToken : d.keyword ≠ "TOKEN")
    (noSettings : d.keyword ≠ "ENGINE_SETTINGS")
    (built : build kind name path (knownDirectives kind (before ++ d :: after)) = .ok r) :
    build kind name path (knownDirectives kind (before ++ d.quoted :: after)) =
      unlessRefused r (refusalOfQuotes? kind d) := by
  rw [knownDirectives, List.filter_append, List.filter_cons] at built ⊢
  rw [keyword_quoted]
  by_cases known : d.keyword ∈ knownKeywords kind
  · have counts : (knownKeywords kind).contains d.keyword = true := List.contains_iff_mem.mpr known
    rw [if_pos counts] at built ⊢
    exact build_quoted isBare noToken noSettings built
  · have skipped : ¬ (knownKeywords kind).contains d.keyword = true :=
      mt List.contains_iff_mem.mp known
    rw [if_neg skipped] at built ⊢
    rw [refusalOfQuotes?_of_unknown known]
    exact built

end Grammar

open Datafile Grammar

variable {strict : Bool} {file : Datafile} {r : Resource} {d : Directive} {value : Text}

/-- Double quotes around an inline value of an accepted file change nothing about what the file
defines, or the file is refused for them: `CACHE`, `KAFKA_AUTO_OFFSET_RESET` and
`KAFKA_STORE_RAW_VALUE` read their values as they stand. -/
theorem Datafile.parse_quoteAt (accepted : file.parse strict = .ok r)
    (member : d ∈ scan file.content) (inline : d.body = .inline value) (bare : '"' ∉ value)
    (noToken : d.keyword ≠ "TOKEN") (noSettings : d.keyword ≠ "ENGINE_SETTINGS") :
    { file with content := quoteAt d.line file.content }.parse strict =
      match refusalOfQuotes? file.kind d with
      | some cause =>
        .error (.refused { path := file.path, kind := file.kind, name := file.name, cause })
      | none => .ok r := by
  have stripped : Text.strip value = value := by
    have canonical := (scan_canonical file.content d member).body
    rw [inline] at canonical
    exact canonical.stripped
  have isBare : IsBare d value := ⟨inline, stripped, bare⟩
  obtain ⟨before, after, whole, quoted⟩ := scan_quoteAt member inline
  have passed := yields_mapError.mpr yields_self r accepted
  obtain ⟨known, selected, made⟩ := bind_eq_ok.mp passed
  obtain ⟨resource, built, valid⟩ := bind_eq_ok.mp made
  rw [whole, selectKnown_eq_ok] at selected
  obtain ⟨noUnknown, rfl⟩ := selected
  have selected : selectKnown strict file.kind (before ++ d.quoted :: after) =
      .ok (knownDirectives file.kind (before ++ d.quoted :: after)) :=
    selectKnown_eq_ok.mpr ⟨fun isStrict => (unknownDirectives_quoted ..).mpr (noUnknown isStrict), rfl⟩
  have changed := build_knownDirectives_quoted isBare noToken noSettings built
  unfold Datafile.parse
  dsimp only
  rw [quoted, selected]
  change Except.mapError _ (build file.kind file.name file.path
    (knownDirectives file.kind (before ++ d.quoted :: after)) >>= requireValid file.kind) = _
  rw [changed]
  cases refusalOfQuotes? file.kind d with
  | some cause => rfl
  | none =>
    change Except.mapError _ (requireValid file.kind resource) = .ok r
    rw [valid]
    rfl

/-- A file with an endpoint that keeps its results for a minute. -/
def cachedEndpoint : Datafile where
  kind := .pipe
  path := "a.pipe"
  name := "a"
  content := "NODE n\nSQL >\n    SELECT 1\n\nTYPE endpoint\nCACHE 60\n"

theorem exists_parse_cachedEndpoint : ∃ r, cachedEndpoint.parse true = .ok r := by
  obtain ⟨r, accepted, _⟩ := exists_eq_ok (p := fun _ => true) (x := cachedEndpoint.parse true) (by
    unfold cachedEndpoint
    repeat rw [String.toList_ofList]
    decide +kernel)
  exact ⟨r, accepted⟩

theorem parse_quoteAt_cachedEndpoint :
    let type : Directive := ⟨"TYPE", .inline "endpoint", 5⟩
    ∃ r, cachedEndpoint.parse true = .ok r ∧ type ∈ scan cachedEndpoint.content ∧
      type.body = .inline "endpoint" ∧ '"' ∉ ("endpoint" : Text) ∧ type.keyword ≠ "TOKEN" ∧
      type.keyword ≠ "ENGINE_SETTINGS" ∧
      { cachedEndpoint with
        content := "NODE n\nSQL >\n    SELECT 1\n\nTYPE \"endpoint\"\nCACHE 60\n" }.parse true =
        .ok r := by
  intro type
  obtain ⟨r, accepted⟩ := exists_parse_cachedEndpoint
  have member : type ∈ scan cachedEndpoint.content := by decide +kernel
  have quotes : quoteAt 5 cachedEndpoint.content =
      "NODE n\nSQL >\n    SELECT 1\n\nTYPE \"endpoint\"\nCACHE 60\n" := by
    unfold cachedEndpoint
    repeat rw [String.toList_ofList]
    decide +kernel
  have neutral := Datafile.parse_quoteAt accepted member rfl (by decide) (by decide) (by decide)
  rw [quotes] at neutral
  exact ⟨r, accepted, member, rfl, by decide, by decide, by decide, neutral⟩

/-- The time that an endpoint keeps its results must not stand in quotes. -/
theorem parse_quoteAt_cache :
    (∃ r, cachedEndpoint.parse true = .ok r) ∧
      ⟨"CACHE", .inline "60", 6⟩ ∈ scan cachedEndpoint.content ∧
      quoteAt 6 cachedEndpoint.content =
        "NODE n\nSQL >\n    SELECT 1\n\nTYPE endpoint\nCACHE \"60\"\n" ∧
      { cachedEndpoint with content := quoteAt 6 cachedEndpoint.content }.parse true =
        .error (.refused ⟨"a.pipe", .pipe, "a", .cache "\"60\""⟩) := by
  have quotes : quoteAt 6 cachedEndpoint.content =
      "NODE n\nSQL >\n    SELECT 1\n\nTYPE endpoint\nCACHE \"60\"\n" := by
    unfold cachedEndpoint
    repeat rw [String.toList_ofList]
    decide +kernel
  have refused : { cachedEndpoint with content := quoteAt 6 cachedEndpoint.content }.parse true =
      .error (.refused ⟨"a.pipe", .pipe, "a", .cache "\"60\""⟩) := by
    rw [quotes]
    unfold cachedEndpoint
    repeat rw [String.toList_ofList]
    decide +kernel
  exact ⟨exists_parse_cachedEndpoint, by decide +kernel, quotes, refused⟩

end DatafileMigration
