import DatafileMigration.Number.Binary64
import DatafileMigration.Text.Basic

namespace DatafileMigration

/-- A value without parts. -/
inductive Scalar where
  | bool (b : Bool)
  | int (n : Int)
  | float (x : Binary64)
  | text (t : Text)
  deriving DecidableEq, Repr

/-- A value; a dictionary keeps the order of its entries. It is what a default, a setting or a
keyword argument can be. -/
inductive Literal where
  | null
  | scalar (x : Scalar)
  | list (items : List Literal)
  | dict (entries : List (Text × Literal))
  deriving Repr

namespace Literal

abbrev bool (b : Bool) : Literal := .scalar (.bool b)

abbrev int (n : Int) : Literal := .scalar (.int n)

abbrev text (t : Text) : Literal := .scalar (.text t)

def find? (key : Text) (entries : List (Text × Literal)) : Option Literal :=
  (entries.find? (·.1 = key)).map (·.2)

end Literal

/-- An entry put into a list of entries: a new key comes last, a known one keeps its place. -/
def putEntry {α : Type} (key : Text) (value : α) : List (Text × α) → List (Text × α)
  | [] => [(key, value)]
  | (k, v) :: rest => if k = key then (k, value) :: rest else (k, v) :: putEntry key value rest

/-- A fault that no stage records; it ends the whole batch. -/
inductive Breakdown where
  /-- An integer of more digits than are read. -/
  | longInteger
  /-- A letter outside quotes in a query that can begin no keyword. -/
  | strayLetter
  /-- A path that no file can have. -/
  | impossiblePath
  deriving DecidableEq, Repr

/-- Why a stage gave no result: a cause that is recorded for the file at hand, or a breakdown. -/
inductive Fault (ε : Type) where
  | refused (cause : ε)
  | broken (why : Breakdown)
  deriving DecidableEq, Repr

namespace Fault

/-- The fault with its cause seen as another. -/
def map {ε δ : Type} (f : ε → δ) : Fault ε → Fault δ
  | .refused cause => .refused (f cause)
  | .broken why => .broken why

end Fault

end DatafileMigration
