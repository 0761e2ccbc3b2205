import DatafileMigration.Grammar.Parse
import DatafileMigration.Module.Assembly
import DatafileMigration.Proofs.Fault.Yields
import DatafileMigration.Proofs.Grammar.LongNumber

namespace DatafileMigration

/-- The statement of a resource as it is written with a registry, which gets the resource. The other
resources in it are of other kinds, so that it makes no difference to them. -/
def Resource.renderIn (registry : Registry) (strict : Bool) (r : Resource) :
    Except (Fault RenderError) Text :=
  (r.statement strict).map (·.render (registry.register r.kind r.name).2.lookup)

/-- With an empty registry, every identifier is the plain one. -/
theorem Resource.renderIn_empty (strict : Bool) (r : Resource) :
    r.renderIn {} strict = r.render strict := by
  have plain : (Registry.register {} r.kind r.name).2.lookup = Registry.lookup {} := by
    funext kind name
    by_cases own : (r.kind, r.name) = (kind, name)
    · cases own
      simp [Registry.register, Registry.lookup, Registry.find?, Registry.fresh, Registry.taken]
    · simp [Registry.register, Registry.lookup, Registry.find?, own]
  rw [renderIn, plain, Resource.render]

namespace Column

variable {c : Column}

theorem typeExpression_extends : Extends (c.typeExpression true) (c.typeExpression false) := by
  unfold typeExpression
  cases columnBuilder c.type with
  | ok builder => exact .refl _
  | error e => exact .of_error

theorem withDefault_extends {e : ColumnExpression} :
    Extends (c.withDefault true e) (c.withDefault false e) := by
  unfold withDefault
  cases c.default with
  | none => exact .refl _
  | some default =>
    simp only
    cases columnDefault c.type default c.name with
    | ok value => exact .refl _
    | error fault =>
      cases fault with
      | refused cause => exact .of_error
      | broken why => exact .refl _

theorem schemaLine_extends : Extends (c.schemaLine true) (c.schemaLine false) :=
  .bind (.bind typeExpression_extends fun _ => .bind withDefault_extends fun _ => .refl _)
    fun _ => .refl _

end Column

theorem Datasource.statement_extends {d : Datasource} :
    Extends (d.statement true) (d.statement false) := by
  have schema : Extends (d.schema true) (d.schema false) :=
    .bind (.mapM (fun _ => Column.schemaLine_extends) d.columns) fun _ => .refl _
  unfold statement
  split
  · exact .of_error
  · exact .bind schema fun _ => .bind (.refl _) fun _ => .refl _

theorem parameterTypeBuilder_extends {type : Text} :
    Extends (parameterTypeBuilder true type) (parameterTypeBuilder false type) := by
  unfold parameterTypeBuilder
  cases parameterBuilders.find? (·.1 = type) with
  | some entry => exact .refl _
  | none => exact .of_error

theorem Pipe.statement_extends {p : Pipe} : Extends (p.statement true) (p.statement false) := by
  have parameters : Extends (p.parametersArgument true) (p.parametersArgument false) := by
    unfold parametersArgument
    split
    · exact .refl _
    · refine .bind (.mapM (fun q => ?_) p.parameters) fun _ => .refl _
      exact .bind (.bind parameterTypeBuilder_extends fun _ => .refl _) fun _ => .refl _
  have ofType : Extends (p.typeArguments true) (p.typeArguments false) := by
    unfold typeArguments
    cases p.type with
    | pipe | endpoint => exact parameters
    | materialized | copy => exact .refl _
  exact .bind ofType fun _ => .refl _

theorem Resource.statement_extends {r : Resource} :
    Extends (r.statement true) (r.statement false) := by
  cases r with
  | connection c => exact .refl _
  | datasource d => exact Datasource.statement_extends
  | pipe p => exact Pipe.statement_extends

theorem Grammar.selectKnown_extends {kind : Kind} {ds : List Datafile.Directive} :
    Extends (selectKnown true kind ds) (selectKnown false kind ds) := by
  intro known selected
  rw [selectKnown_eq_ok] at selected ⊢
  exact ⟨fun strict => absurd strict Bool.false_ne_true, selected.2⟩

theorem Datafile.parse_extends {file : Datafile} : Extends (file.parse true) (file.parse false) :=
  .mapError (.bind Grammar.selectKnown_extends fun _ => .refl _) _

/-- A file that parses strictly has nothing to skip. -/
theorem Datafile.skipped_of_parse {file : Datafile} {r : Resource}
    (parsed : file.parse true = .ok r) : file.skipped = [] := by
  have nothing : Yields (fun _ => file.skipped = []) (file.parse true) := by
    rw [parse, yields_mapError, yields_bind]
    intro ds selected _ _
    exact (Grammar.selectKnown_eq_ok.mp selected).1 rfl
  exact nothing r parsed

/-- A file that parses strictly parses to the same resource without, and nothing is said of it; a
statement that is written strictly is written alike without. -/
theorem strict_extends :
    (∀ (file : Datafile) (r : Resource), file.parse true = .ok r →
        file.parse false = .ok r ∧ file.notices false = []) ∧
      ∀ (r : Resource) (registry : Registry) (t : Text),
        r.renderIn registry true = .ok t → r.renderIn registry false = .ok t := by
  refine ⟨fun file r parsed => ⟨Datafile.parse_extends r parsed, ?_⟩,
    fun r registry => Resource.statement_extends.map _⟩
  rw [Datafile.notices, if_neg Bool.false_ne_true, Datafile.skipped_of_parse parsed, List.map_nil]

/-- A file of a datasource with a nested type and a default, both of which migrate. -/
def nestedFile : Datafile where
  kind := .datasource
  path := "d.datasource"
  name := "d"
  content := "SCHEMA >\n    a Nullable(Int32) DEFAULT 3\n\nENGINE MergeTree\nENGINE_SORTING_KEY a"

def nestedDatasource : Datasource where
  name := "d"
  path := "d.datasource"
  columns := [{ name := "a", type := "Nullable(Int32)", default := some "3" }]
  engine := { type := "MergeTree", sortingKey := ["a"] }

theorem strict_extends_nested :
    nestedFile.parse true = .ok (.datasource nestedDatasource) ∧
      nestedFile.parse false = .ok (.datasource nestedDatasource) ∧
      nestedFile.notices false = [] ∧
      ∃ t, (Resource.datasource nestedDatasource).renderIn {} true = .ok t ∧
        (Resource.datasource nestedDatasource).renderIn {} false = .ok t := by
  have parsed : nestedFile.parse true = .ok (.datasource nestedDatasource) := by
    unfold nestedFile nestedDatasource
    repeat rw [String.toList_ofList]
    decide +kernel
  obtain ⟨t, written, _⟩ :=
    exists_eq_ok (x := (Resource.datasource nestedDatasource).renderIn {} true)
      (p := fun _ => true) (by decide +kernel)
  obtain ⟨same, quiet⟩ := strict_extends.1 nestedFile _ parsed
  exact ⟨parsed, same, quiet, t, written, strict_extends.2 _ _ t written⟩

end DatafileMigration
