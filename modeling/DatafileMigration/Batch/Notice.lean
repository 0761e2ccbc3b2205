import DatafileMigration.Resource.Basic

namespace DatafileMigration

/-- What a report says about a file, or about something else that was asked for. -/
structure Notice where
  path : Text
  name : Text
  kind : Option Kind
  message : Text
  deriving DecidableEq, Repr

def Resource.notice (r : Resource) (message : Text) : Notice :=
  { path := r.path, name := r.name, kind := some r.kind, message }

end DatafileMigration
