import DatafileMigration.Text.Basic

namespace DatafileMigration

/-- The three kinds of datafile, in the order in which a generated module defines them. -/
inductive Kind where
  | connection
  | datasource
  | pipe
  deriving DecidableEq, Repr

namespace Kind

def all : List Kind := [connection, datasource, pipe]

def text : Kind → Text
  | connection => "connection"
  | datasource => "datasource"
  | pipe => "pipe"

def ofText? (t : Text) : Option Kind := all.find? (·.text = t)

theorem ofText?_text (k : Kind) : ofText? k.text = some k := by cases k <;> decide

def rank : Kind → Nat
  | connection => 0
  | datasource => 1
  | pipe => 2

def title : Kind → Text
  | connection => "Connections"
  | datasource => "Datasources"
  | pipe => "Pipes"

end Kind

end DatafileMigration
