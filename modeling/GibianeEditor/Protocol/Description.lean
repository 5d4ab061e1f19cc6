/-
Messages as they are shown in diagnostics, with all their parts by name.
-/
import GibianeEditor.Protocol.Message
import GibianeEditor.Text.Quoted

namespace GibianeEditor.Protocol

/-- Parts between braces with a blank inside. -/
def braced (parts : List String) : String := " \x7b " ++ ", ".intercalate parts ++ " \x7d"

mutual

/-- A JSON value with the sort of every part. -/
def describeJson : Json → String
  | .null => "Null"
  | .bool true => "Bool(true)"
  | .bool false => "Bool(false)"
  | .int n => "Number(" ++ toString n ++ ")"
  | .decimal literal => "Number(" ++ literal ++ ")"
  | .str s => "String(" ++ quoted s ++ ")"
  | .arr items => "Array [" ++ describeItems items ++ "]"
  | .obj members => "Object \x7b" ++ describeMembers members ++ "\x7d"

def describeItems : List Json → String
  | [] => ""
  | [j] => describeJson j
  | j :: rest => describeJson j ++ ", " ++ describeItems rest

def describeMembers : List (String × Json) → String
  | [] => ""
  | [(key, value)] => quoted key ++ ": " ++ describeJson value
  | (key, value) :: rest => quoted key ++ ": " ++ describeJson value ++ ", " ++ describeMembers rest

end

/-- A part that may be missing. -/
def describeOption {α : Type} (describe : α → String) : Option α → String
  | none => "None"
  | some a => "Some(" ++ describe a ++ ")"

def RequestId.describe : RequestId → String
  | .number n => "RequestId(I32(" ++ toString n ++ "))"
  | .text s => "RequestId(String(" ++ quoted s ++ "))"

def Request.describe (r : Request) : String :=
  "Request" ++ braced ["id: " ++ r.id.describe, "method: " ++ quoted r.method, "params: " ++ describeJson r.params]

def Failure.describe (f : Failure) : String :=
  "ResponseError" ++ braced ["code: " ++ toString f.code, "message: " ++ quoted f.message,
    "data: " ++ describeOption describeJson f.data]

def Response.describe (r : Response) : String :=
  "Response" ++ braced ["id: " ++ r.id.describe, "result: " ++ describeOption describeJson r.result,
    "error: " ++ describeOption Failure.describe r.error]

def Notification.describe (n : Notification) : String :=
  "Notification" ++ braced ["method: " ++ quoted n.method, "params: " ++ describeJson n.params]

def Message.describe : Message → String
  | .request r => "Request(" ++ r.describe ++ ")"
  | .response r => "Response(" ++ r.describe ++ ")"
  | .notification n => "Notification(" ++ n.describe ++ ")"

end GibianeEditor.Protocol
