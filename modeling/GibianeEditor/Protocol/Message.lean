/-
The messages that client and server exchange: a request has an identifier and a method, a response
the identifier of the request it answers, a notification only a method. A JSON value is taken for the
first of the three that it can be read as, so a request whose identifier is unreadable is a
notification.
-/
import GibianeEditor.Json.Record

namespace GibianeEditor.Protocol

/-- What tells requests apart. -/
inductive RequestId where
  | number (n : Int)
  | text (s : String)
  deriving DecidableEq, Repr

structure Request where
  id : RequestId
  method : String
  params : Json

/-- Why a request has no result. -/
structure Failure where
  code : Int
  message : String
  data : Option Json

structure Response where
  id : RequestId
  result : Option Json
  error : Option Failure

structure Notification where
  method : String
  params : Json

inductive Message where
  | request (r : Request)
  | response (r : Response)
  | notification (n : Notification)

/-- The response that gives a result. -/
def Message.ok (id : RequestId) (result : Json) : Message := .response ⟨id, some result, none⟩

/-- The response that tells why there is no result. -/
def Message.failed (id : RequestId) (code : Int) (message : String) : Message :=
  .response ⟨id, none, some ⟨code, message, none⟩⟩

/-! ## Reading -/

/-- The members of a record, where an array may leave out fields from the end; of the named fields an
object has none twice. -/
def fields? (names : List String) (needed : Nat) : Json → Option (List (String × Json))
  | .obj members =>
    if names.all fun name => (members.filter fun m => m.1 = name).length ≤ 1 then some members else none
  | .arr items => if needed ≤ items.length ∧ items.length ≤ names.length then some (names.zip items) else none
  | _ => none

def RequestId.read? : Json → Option RequestId
  | .str s => some (.text s)
  | j => j.int32?.map .number

/-- The parameters; null where there are none. -/
def readParams (members : List (String × Json)) : Json := ((Json.find? members "params").getD .null).normal

def Request.read? (j : Json) : Option Request := do
  let members ← fields? ["id", "method", "params"] 2 j
  let id ← Json.field? members "id" RequestId.read?
  let method ← Json.field? members "method" Json.str?
  some ⟨id, method, readParams members⟩

def Failure.read? (j : Json) : Option Failure := do
  let members ← fields? ["code", "message", "data"] 3 j
  let code ← Json.field? members "code" Json.int32?
  let message ← Json.field? members "message" Json.str?
  let data ← Json.optional? members "data" some
  some ⟨code, message, data.map Json.normal⟩

def Response.read? (j : Json) : Option Response := do
  let members ← fields? ["id", "result", "error"] 3 j
  let id ← Json.field? members "id" RequestId.read?
  let result ← Json.optional? members "result" some
  let error ← Json.optional? members "error" Failure.read?
  some ⟨id, result.map Json.normal, error⟩

def Notification.read? (j : Json) : Option Notification := do
  let members ← fields? ["method", "params"] 1 j
  let method ← Json.field? members "method" Json.str?
  some ⟨method, readParams members⟩

/-- The message that a JSON value writes. -/
def Message.read? (j : Json) : Option Message :=
  match Request.read? j with
  | some r => some (.request r)
  | none =>
    match Response.read? j with
    | some r => some (.response r)
    | none => (Notification.read? j).map .notification

/-! ## Writing -/

def RequestId.toJson : RequestId → Json
  | .number n => .int n
  | .text s => .str s

/-- A member, unless it is missing. -/
def member? (key : String) : Option Json → List (String × Json)
  | none => []
  | some j => [(key, j)]

/-- The member that holds parameters, unless they are null. -/
def paramsMember : Json → List (String × Json)
  | .null => []
  | params => [("params", params)]

def Failure.toJson (f : Failure) : Json :=
  .obj ([("code", .int f.code), ("message", .str f.message)] ++ member? "data" f.data)

/-- The members of a message. -/
def Message.members : Message → List (String × Json)
  | .request r => [("id", r.id.toJson), ("method", .str r.method)] ++ paramsMember r.params
  | .response r => [("id", r.id.toJson)] ++ member? "result" r.result ++ member? "error" (r.error.map Failure.toJson)
  | .notification n => [("method", .str n.method)] ++ paramsMember n.params

end GibianeEditor.Protocol
