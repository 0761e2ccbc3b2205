import DatafileMigration.Batch.Notice

namespace DatafileMigration

inductive Binding where
  | kafka
  | s3
  deriving DecidableEq, Repr

def Binding.text : Binding → Text
  | kafka => "kafka"
  | s3 => "s3"

def Connection.binding : Connection → Binding
  | .kafka _ => .kafka
  | .s3 _ => .s3

/-- The type of connection that a datasource ingests from. -/
def Datasource.binding (d : Datasource) : Binding := if d.kafka.isSome then .kafka else .s3

inductive ReferenceFault where
  | missingConnection (name : Text)
  | otherConnection (name : Text) (type : Binding) (used : Binding)
  | missingTarget (name : Text)
  deriving DecidableEq, Repr

def ReferenceFault.message : ReferenceFault → Text
  | missingConnection name => "Connection \"" ++ name ++ "\" is not part of this migration."
  | otherConnection name type used =>
    "Connection \"" ++ name ++ "\" is of type " ++ type.text ++ " but the datasource uses "
      ++ used.text ++ " ingestion."
  | missingTarget name => "Target datasource \"" ++ name ++ "\" is not part of this migration."

/-- A resource and what is wrong with its reference. -/
structure Warning where
  resource : Resource
  fault : ReferenceFault
  deriving DecidableEq, Repr

def Warning.notice (w : Warning) : Notice := w.resource.notice w.fault.message

/-- The type of the connection of a name. -/
def connectionBinding? (rs : List Resource) (name : Text) : Option Binding :=
  rs.findSome? fun
    | .connection c => if (Resource.connection c).name = name then some c.binding else none
    | _ => none

def hasDatasource (rs : List Resource) (name : Text) : Bool :=
  rs.any fun r => r.kind = .datasource && r.name = name

/-- What is wrong with the reference of a resource, in a batch. -/
def Resource.referenceFault? (batch : List Resource) : Resource → Option ReferenceFault
  | .connection _ => none
  | .datasource d =>
    match d.connection? with
    | none | some [] => none
    | some name =>
      match connectionBinding? batch name with
      | none => some (.missingConnection name)
      | some type => if type = d.binding then none else some (.otherConnection name type d.binding)
  | .pipe p =>
    match p.target? with
    | none | some [] => none
    | some name => if hasDatasource batch name then none else some (.missingTarget name)

/-- A reference that leads out of the batch, or to a connection of another type, is worth a warning
and no more. -/
def referenceWarnings (batch : List Resource) : List Warning :=
  batch.filterMap fun r => (r.referenceFault? batch).map fun fault => { resource := r, fault }

end DatafileMigration
