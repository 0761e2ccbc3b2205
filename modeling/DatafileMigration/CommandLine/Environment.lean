import DatafileMigration.Text.Blank
import DatafileMigration.Text.Case

namespace DatafileMigration.CommandLine

/-- The values of variables by their names. -/
abbrev Environment := Text → Option Text

namespace Environment

def variableName (name : Text) : Text := "TB_MIGRATE_" ++ name

def value (env : Environment) (name : Text) (default : Option Text) : Option Text :=
  match env (variableName name) with
  | some t => some t
  | none => default

/-- The words that switch something on. -/
def isOn (t : Text) : Bool :=
  (List.map String.toList ["1", "true", "yes", "on"]).contains (Text.lower (Text.strip t))

/-- Whether a variable switches something on; unset, it leaves the default. -/
def flag (env : Environment) (name : Text) (default : Bool) : Bool :=
  match env.value name none with
  | some t => isOn t
  | none => default

end Environment

end DatafileMigration.CommandLine
