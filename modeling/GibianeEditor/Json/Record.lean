/-
Reading records from JSON. A record is written as an object with a member for each field, in any
order and among others, or as an array with an item for each field, in the order of the fields.
-/
import GibianeEditor.Json.Basic

namespace GibianeEditor.Json

/-- The members of an object. -/
def members? : Json → Option (List (String × Json))
  | .obj members => some members
  | _ => none

/-- The members of a record with the named fields. -/
def record? (names : List String) : Json → Option (List (String × Json))
  | .obj members => some members
  | .arr items => if items.length = names.length then some (names.zip items) else none
  | _ => none

/-- The member of a key. -/
def find? (members : List (String × Json)) (key : String) : Option Json :=
  (members.find? fun m => m.1 = key).map Prod.snd

/-- A required member, read. -/
def field? {α : Type} (members : List (String × Json)) (key : String) (read : Json → Option α) : Option α :=
  (find? members key).bind read

/-- A member that may be missing or null, read. -/
def optional? {α : Type} (members : List (String × Json)) (key : String) (read : Json → Option α) :
    Option (Option α) :=
  match find? members key with
  | none | some .null => some none
  | some j => (read j).map some

def bool? : Json → Option Bool
  | .bool b => some b
  | _ => none

def str? : Json → Option String
  | .str s => some s
  | _ => none

/-- An integer from one bound to another, both included. -/
def intWithin? (low high : Int) : Json → Option Int
  | .int n => if low ≤ n ∧ n ≤ high then some n else none
  | _ => none

/-- A signed integer of 32 bits. -/
def int32? : Json → Option Int := intWithin? (-0x80000000) 0x7FFFFFFF

/-- An unsigned integer of 32 bits. -/
def nat32? (j : Json) : Option Nat := (intWithin? 0 0xFFFFFFFF j).map Int.toNat

/-- An array whose items can all be read. -/
def list? {α : Type} (read : Json → Option α) : Json → Option (List α)
  | .arr items => items.mapM read
  | _ => none

end GibianeEditor.Json
