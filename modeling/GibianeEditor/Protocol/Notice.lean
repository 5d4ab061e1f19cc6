/-
What a client tells about the documents it has open.
-/
import GibianeEditor.Protocol.Params

namespace GibianeEditor.Protocol

/-- A step in the life of an open document. -/
inductive Notice where
  | opened (uri : Uri) (text : Text)
  | changed (uri : Uri) (changes : List Change)
  | closed (uri : Uri)

namespace Notice

/-- A document that is opened: its URI and its text. -/
def readItem? (j : Json) : Option (Uri × Text) := do
  let members ← j.record? ["uri", "languageId", "version", "text"]
  let uri ← Json.field? members "uri" readUri?
  let _ ← Json.field? members "languageId" Json.str?
  let _ ← Json.field? members "version" Json.int32?
  let text ← Json.field? members "text" readText?
  some (uri, text)

/-- The URI of a document of a version. -/
def readVersioned? (j : Json) : Option Uri := do
  let members ← j.record? ["uri", "version"]
  let uri ← Json.field? members "uri" readUri?
  let _ ← Json.field? members "version" Json.int32?
  some uri

/-- What a notification tells. Nothing, if the method is unknown or the parameters cannot be read. -/
def read? (method : String) (params : Json) : Option Notice :=
  match method with
  | "textDocument/didOpen" => do
    let members ← params.record? ["textDocument"]
    let (uri, text) ← Json.field? members "textDocument" readItem?
    some (.opened uri text)
  | "textDocument/didChange" => do
    let members ← params.record? ["textDocument", "contentChanges"]
    let uri ← Json.field? members "textDocument" readVersioned?
    let changes ← Json.field? members "contentChanges" (Json.list? readChange?)
    some (.changed uri changes)
  | "textDocument/didClose" => do
    let members ← params.record? ["textDocument"]
    some (.closed (← Json.field? members "textDocument" readDocument?))
  | _ => none

end Notice
end GibianeEditor.Protocol
