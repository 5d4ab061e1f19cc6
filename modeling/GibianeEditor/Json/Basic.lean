/-
JSON values. The members of an object keep their order and may repeat a key, as the text they were
read from may; `Json.normal` settles both.
-/
namespace GibianeEditor

/-- A JSON value. A number without fraction and exponent is an `int`; any other keeps its text. -/
inductive Json where
  | null
  | bool (value : Bool)
  | int (value : Int)
  | decimal (literal : String)
  | str (value : String)
  | arr (items : List Json)
  | obj (members : List (String × Json))
  deriving Inhabited

namespace Json

/-- A natural number as a value. -/
def nat (n : Nat) : Json := .int n

/-- A text as a value. -/
def text (cs : List Char) : Json := .str (String.ofList cs)

/-- Members in ascending order of keys with one more. -/
def putMember (key : String) (value : Json) : List (String × Json) → List (String × Json)
  | [] => [(key, value)]
  | m :: rest =>
    if key < m.1 then (key, value) :: m :: rest
    else if key = m.1 then (key, value) :: rest
    else m :: putMember key value rest

mutual

/-- The value with the members of every object in ascending order of keys, each key once and with the
last of its values. -/
def normal : Json → Json
  | .arr items => .arr (normalItems items)
  | .obj members => .obj (normalMembers [] members)
  | j => j

def normalItems : List Json → List Json
  | [] => []
  | j :: rest => normal j :: normalItems rest

def normalMembers (settled : List (String × Json)) : List (String × Json) → List (String × Json)
  | [] => settled
  | (key, value) :: rest => normalMembers (putMember key (normal value) settled) rest

end

end Json
end GibianeEditor
