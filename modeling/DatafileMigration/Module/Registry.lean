import DatafileMigration.Module.Identifier
import DatafileMigration.Resource.Kind

namespace DatafileMigration

/-- The assigned identifiers, the latest first. -/
structure Registry where
  entries : List ((Kind × Text) × Text) := []
  deriving DecidableEq, Repr

namespace Registry

def taken (r : Registry) : List Text := r.entries.map (·.2)

def find? (r : Registry) (kind : Kind) (name : Text) : Option Text :=
  (r.entries.find? (·.1 = (kind, name))).map (·.2)

/-- The first of the numbered candidates from `n` on that is not taken. As the candidates differ,
one more of them than there are taken identifiers is enough. -/
def firstFree (taken : List Text) (base : Text) : Nat → Nat → Text
  | 0, n => base ++ "_" ++ Text.ofNat n
  | fuel + 1, n =>
    let candidate := base ++ "_" ++ Text.ofNat n
    if taken.contains candidate then firstFree taken base fuel (n + 1) else candidate

/-- An identifier for a new resource. Whoever registers first keeps the plain identifier; later ones
get the kind behind it, and then a number. -/
def fresh (taken : List Text) (kind : Kind) (name : Text) : Text :=
  let base := Identifier.ofName name
  let ofKind := base ++ "_" ++ kind.text
  if !taken.contains base then base
  else if !taken.contains ofKind then ofKind
  else firstFree taken ofKind taken.length 2

/-- The identifier of a resource, and the registry that holds it. -/
def register (r : Registry) (kind : Kind) (name : Text) : Text × Registry :=
  match r.find? kind name with
  | some identifier => (identifier, r)
  | none =>
    let identifier := fresh r.taken kind name
    (identifier, { entries := ((kind, name), identifier) :: r.entries })

/-- The identifier of a registered resource, or the plain one of an unknown name. -/
def lookup (r : Registry) (kind : Kind) (name : Text) : Text :=
  (r.find? kind name).getD (Identifier.ofName name)

def registerAll (r : Registry) (resources : List (Kind × Text)) : Registry :=
  resources.foldl (fun r (kind, name) => (r.register kind name).2) r

end Registry

end DatafileMigration
