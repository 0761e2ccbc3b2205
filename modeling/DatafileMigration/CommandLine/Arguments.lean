import DatafileMigration.CommandLine.Environment
import DatafileMigration.Project.Run

namespace DatafileMigration.CommandLine

inductive Request where
  | migrate (o : Options)
  | version
  | help
  deriving DecidableEq, Repr

/-- The word behind which there are no options. -/
def endOfOptions : Text := "--"

def helpOption : Text := "--help"

/-- A word that must be an option. -/
def isOption (word : Text) : Bool := Text.startsWith "-" word && word.length > 1

/-- Options of a migration that take a value. -/
inductive Setting where
  | cwd
  | out
  deriving DecidableEq, Repr

def Setting.ofWord? (word : Text) : Option Setting :=
  if word = "--cwd" then some .cwd else if word = "--out" then some .out else none

/-- What the words behind a command say. -/
structure Words where
  options : Options
  help : Bool := false
  deriving DecidableEq, Repr

namespace Words

def set (w : Words) (value : Text) : Setting → Words
  | .cwd => { w with options.cwd := value }
  | .out => { w with options.out := value }

/-- What an option without a value says. -/
def switch? (w : Words) (word : Text) : Option Words :=
  if word = "--strict" then some { w with options.strict := true }
  else if word = "--no-strict" then some { w with options.strict := false }
  else if word = "--dry-run" then some { w with options.dryRun := true }
  else if word = "--force" then some { w with options.force := true }
  else if word = "--verbose" || word = "--no-verbose" then some w
  else if word = helpOption then some { w with help := true }
  else none

def addPatterns (w : Words) (patterns : List Text) : Words :=
  { w with options.patterns := w.options.patterns ++ patterns }

end Words

/-- What the arguments of a migration say, if they are well formed. Options and patterns may stand
in any order; `--` ends the options, and of an option that is given twice the last one counts. -/
def readMigrate (w : Words) : List Text → Option Words
  | [] => some w
  | word :: rest =>
    if word = endOfOptions then some (w.addPatterns rest)
    else if !isOption word then readMigrate (w.addPatterns [word]) rest
    else match Text.cutAt? '=' word with
      | some (name, value) =>
        match Setting.ofWord? name with
        | some s => readMigrate (w.set value s) rest
        | none => none
      | none =>
        match Setting.ofWord? word with
        | some s =>
          match rest with
          | value :: rest => readMigrate (w.set value s) rest
          | [] => none
        | none =>
          match w.switch? word with
          | some w => readMigrate w rest
          | none => none

/-- Whether the arguments of the version ask for help instead, if they are well formed. Help is
given whatever else is asked for, as long as all options are known. -/
def readVersion (arguments : List Text) : Option Bool :=
  let front := arguments.takeWhile fun word => word ≠ endOfOptions
  let behind := arguments.drop (front.length + 1)
  let options := front.filter isOption
  if options.any fun word => word ≠ helpOption then none
  else if options ≠ [] then some true
  else if front = [] && behind = [] then some false
  else none

/-- A migration as the environment sets it, for a process in the directory `here`. -/
def defaults (env : Environment) (here : Text) : Options where
  cwd := (env.value "CWD" none).getD here
  patterns := []
  out := (env.value "OUT" none).getD (Options.out { cwd := [], patterns := [] })
  strict := env.flag "STRICT" true
  force := env.flag "FORCE" false

/-- What a command's arguments ask for. -/
def readCommand (env : Environment) (here command : Text) (arguments : List Text) :
    Option Request :=
  if command = "migrate" then
    (readMigrate { options := defaults env here } arguments).map fun w =>
      if w.help then .help
      else .migrate { w.options with cwd := Path.absolute here w.options.cwd }
  else if command = "version" then
    (readVersion arguments).map fun help => if help then .help else .version
  else none

/-- Whether the options in front of a command ask for help, if they are well formed: there is no
other option. -/
def helpInFront? (arguments : List Text) : Option Bool :=
  let front := arguments.takeWhile fun word => word ≠ endOfOptions && isOption word
  if front.any fun word => word ≠ helpOption then none else some (front ≠ [])

/-- What arguments ask for whose front is read first; `behind` reads the others. -/
def readFront (behind : List Text → Option Request) (arguments : List Text) : Option Request :=
  match helpInFront? arguments with
  | none => none
  | some true => some .help
  | some false => behind arguments

/-- What a command line asks for, if it is well formed. The options in front may be ended, and
help may be asked for once more behind their end. -/
def read (env : Environment) (here : Text) : List Text → Option Request :=
  let command : List Text → Option Request
    | [] => none
    | word :: rest => readCommand env here word rest
  readFront fun
    | [] => none
    | word :: rest => if word = endOfOptions then readFront command rest else command (word :: rest)

end DatafileMigration.CommandLine
