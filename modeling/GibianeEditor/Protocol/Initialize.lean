/-
The start of a session: what the client tells about itself and what the server tells that it can do.
-/
import GibianeEditor.Protocol.Description
import GibianeEditor.Protocol.Params

namespace GibianeEditor.Protocol

/-- What the server can do: changes are sent as ranges, documents are told when opened and closed,
and of every question of `Query` the client learns that it may be asked. -/
def capabilities : Json :=
  .obj [
    ("completionProvider", .obj [("resolveProvider", .bool false)]),
    ("definitionProvider", .bool true),
    ("documentSymbolProvider", .bool true),
    ("hoverProvider", .bool true),
    ("referencesProvider", .bool true),
    ("renameProvider", .obj [("prepareProvider", .bool true)]),
    ("semanticTokensProvider", .obj [
      ("full", .bool true),
      ("legend", .obj [
        ("tokenModifiers", .arr [.str "declaration"]),
        ("tokenTypes", .arr [.str "variable"])])]),
    ("textDocumentSync", .obj [("change", .nat 2), ("openClose", .bool true)])]

/-- The name and the version of the client. -/
structure ClientInfo where
  name : String
  version : Option String
  deriving DecidableEq

/-- Why the parameters of `initialize` cannot be read. -/
inductive InitializeError where
  /-- They are no object but this. -/
  | notAnObject (found : Json)
  | missing (field : String)
  | unreadable (field : String)

/-- A value that stands where another sort of value belongs. -/
def sortOf : Json → String
  | .null => "null"
  | .bool true => "boolean `true`"
  | .bool false => "boolean `false`"
  | .int n => "integer `" ++ toString n ++ "`"
  | .decimal literal => "floating point `" ++ literal ++ "`"
  | .str s => "string " ++ quoted s
  | .arr _ => "sequence"
  | .obj _ => "map"

def InitializeError.message : InitializeError → String
  | .notAnObject found => "invalid type: " ++ sortOf found ++ ", expected struct InitializeParams"
  | .missing field => "missing field `" ++ field ++ "`"
  | .unreadable field => "invalid value of field `" ++ field ++ "`"

def readClient? (j : Json) : Option ClientInfo := do
  let members ← j.record? ["name", "version"]
  let name ← Json.field? members "name" Json.str?
  let version ← Json.optional? members "version" Json.str?
  some ⟨name, version⟩

def readTrace? : Json → Option Unit
  | .str "off" | .str "messages" | .str "verbose" => some ()
  | _ => none

def readFolder? (j : Json) : Option Unit := do
  let members ← j.record? ["uri", "name"]
  let _ ← Json.field? members "uri" readUri?
  let _ ← Json.field? members "name" Json.str?
  some ()

/-- A member that may be missing or null; otherwise it has to be readable. -/
def checked {α : Type} (members : List (String × Json)) (key : String) (read : Json → Option α) :
    Except InitializeError (Option α) :=
  match Json.optional? members key read with
  | some a => .ok a
  | none => .error (.unreadable key)

/-- The client that the parameters of `initialize` describe, if they do. Capabilities of the client
are required and not looked into. -/
def readInitialize (params : Json) : Except InitializeError (Option ClientInfo) :=
  match params with
  | .obj members => do
    match Json.find? members "capabilities" with
    | none | some (.obj _) => pure ()
    | some _ => throw (.unreadable "capabilities")
    let client ← checked members "clientInfo" readClient?
    let _ ← checked members "locale" Json.str?
    let _ ← checked members "processId" Json.nat32?
    let _ ← checked members "rootPath" Json.str?
    let _ ← checked members "rootUri" readUri?
    let _ ← checked members "trace" readTrace?
    let _ ← checked members "workDoneToken" readToken?
    let _ ← checked members "workspaceFolders" (Json.list? readFolder?)
    match Json.find? members "capabilities" with
    | none => throw (.missing "capabilities")
    | some _ => return client
  | found => .error (.notAnObject found)

end GibianeEditor.Protocol
