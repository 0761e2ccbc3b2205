import DatafileMigration.Proofs.Module.Check

namespace DatafileMigration

variable {strict : Bool} {naming : Naming} {name : Text}

/-- What a statement writes behind a keyword. -/
def Statement.written (naming : Naming) (s : Statement) (key : Text) : List Text :=
  (s.arguments.filter (·.1 = key)).map (·.2.render naming)

namespace Argument

variable {condition : Bool} {key other : Text} {a : Argument} {t : Option Text}

theorem filter_when_of_ne (different : key ≠ other) :
    (when condition key a).filter (·.1 = other) = [] := by
  have skipped : decide ((key, a).1 = other) = false := decide_eq_false different
  cases condition with
  | true => exact List.filter_cons_of_neg (Bool.eq_false_iff.mp skipped)
  | false => rfl

theorem filter_filled_of_ne (different : key ≠ other) :
    (filled key t).filter (·.1 = other) = [] := filter_when_of_ne different

end Argument

namespace Datasource

variable {d : Datasource}

/-- The connections from which a datasource ingests, each with the keyword that says so. -/
def sources (d : Datasource) : List (Text × Text) :=
  (d.kafka.elim [] fun k => [("kafka".toList, k.connection)])
    ++ d.s3.elim [] fun s => [("s3".toList, s.connection)]

/-- What a datasource says of its sources, and nothing else under their keywords. -/
theorem filter_sources (d : Datasource) :
    Yields (fun s => s.arguments.filter (·.1 = "kafka".toList) =
        (d.kafka.elim [] fun k => [("kafka".toList, k.argument)]) ∧
      s.arguments.filter (·.1 = "s3".toList) =
        (d.s3.elim [] fun s => [("s3".toList, s.argument)])) (d.statement strict) := by
  refine yields_ite.mpr ⟨fun _ => yields_throw, fun _ => ?_⟩
  refine yields_bind.mpr fun schema _ => yields_bind.mpr fun engine _ => yields_pure.mpr ?_
  simp (disch := decide) only [List.filter_append, Argument.filter_filled_of_ne,
    Argument.filter_when_of_ne, List.nil_append, List.append_nil]
  constructor
  · cases d.kafka <;> cases d.s3 <;> rfl
  · cases d.kafka <;> cases d.s3 <;> rfl

/-- The identifier of a source is the first thing that is said of it. -/
theorem written_source (d : Datasource) {keyword name : Text}
    (source : (keyword, name) ∈ d.sources) :
    Yields (fun s => ∃ entries, s.written naming keyword =
      [Layout.dict 1 (("connection".toList, naming .connection name) :: entries)])
      (d.statement strict) := by
  refine d.filter_sources.mono fun s filtered => ?_
  rw [Statement.written]
  rcases List.mem_append.mp source with kafka | s3
  · cases found : d.kafka with
    | none =>
      rw [found] at kafka
      cases kafka
    | some k =>
      rw [found] at kafka filtered
      cases List.mem_singleton.mp kafka
      rw [filtered.1]
      exact ⟨_, rfl⟩
  · cases found : d.s3 with
    | none =>
      rw [found] at s3
      cases s3
    | some x =>
      rw [found] at s3 filtered
      cases List.mem_singleton.mp s3
      rw [filtered.2]
      exact ⟨_, rfl⟩

end Datasource

namespace Pipe

variable {p : Pipe}

theorem filter_typeArguments {name : Text} (target : p.target? = some name) :
    Yields (fun arguments => arguments.filter (·.1 = "datasource".toList) =
      [("datasource".toList, .single (.identifier .datasource name))])
      (p.typeArguments strict) := by
  rw [target?] at target
  rw [typeArguments]
  cases type : p.type with
  | pipe =>
    rw [type] at target
    cases target
  | endpoint =>
    rw [type] at target
    cases target
  | materialized =>
    rw [type] at target
    rw [show p.materializedDatasource = some name from target]
    exact yields_ok.mpr (congrArg (("datasource".toList, _) :: ·)
      (Argument.filter_when_of_ne (by decide)))
  | copy =>
    rw [type] at target
    rw [show p.copyTarget = some name from target]
    have others : (Argument.filled "copy_mode" (p.copyMode.map Choice.text)
        ++ Argument.filled "copy_schedule" p.copySchedule).filter
          (·.1 = "datasource".toList) = [] := by
      rw [List.filter_append, Argument.filter_filled_of_ne (by decide),
        Argument.filter_filled_of_ne (by decide)]
      rfl
    exact yields_ok.mpr (congrArg (("datasource".toList, _) :: ·) others)

/-- The identifier of a target is all that is said of it. -/
theorem written_target {name : Text} (target : p.target? = some name) :
    Yields (fun s => s.written naming "datasource".toList = [naming .datasource name])
      (p.statement strict) := by
  rw [statement, yields_bind]
  intro ofType typed
  have filtered := filter_typeArguments target ofType typed
  refine yields_pure.mpr ?_
  rw [Statement.written, endpointArguments, tokensArgument]
  simp (disch := decide) only [List.filter_append, Argument.filter_filled_of_ne,
    Argument.filter_when_of_ne, List.nil_append, List.append_nil]
  rw [filtered]
  rfl

end Pipe

end DatafileMigration
