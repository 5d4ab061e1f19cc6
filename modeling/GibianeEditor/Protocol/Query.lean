/-
The questions a client may ask about a document.
-/
import GibianeEditor.Protocol.Params

namespace GibianeEditor.Protocol

/-- A question about a document or about a place in one. -/
inductive Query where
  | hover (place : Place)
  | definition (place : Place)
  | references (place : Place) (withDeclaration : Bool)
  | prepareRename (place : Place)
  | rename (place : Place) (newName : Text)
  | completion (place : Place)
  | documentSymbols (uri : Uri)
  | semanticTokens (uri : Uri)
  deriving DecidableEq

namespace Query

/-- How completion was set off: a number for the cause, and a character if there was one. -/
def readTrigger? (j : Json) : Option Unit := do
  let members ← j.record? ["triggerKind", "triggerCharacter"]
  let _ ← Json.field? members "triggerKind" Json.int32?
  let _ ← Json.optional? members "triggerCharacter" Json.str?
  some ()

/-- Whether the references asked for include the declaration. -/
def readContext? (j : Json) : Option Bool := do
  let members ← j.record? ["includeDeclaration"]
  Json.field? members "includeDeclaration" Json.bool?

/-- The question of a request. There is none if the method is unknown or the parameters cannot be
read. -/
def read? (method : String) (params : Json) : Option Query :=
  match method with
  | "textDocument/hover" => do
    let members ← params.members?
    hasToken members "workDoneToken"
    some (.hover (← readPlace? members))
  | "textDocument/definition" => do
    let members ← params.members?
    hasToken members "workDoneToken"
    hasToken members "partialResultToken"
    some (.definition (← readPlace? members))
  | "textDocument/references" => do
    let members ← params.members?
    hasToken members "workDoneToken"
    hasToken members "partialResultToken"
    let withDeclaration ← Json.field? members "context" readContext?
    some (.references (← readPlace? members) withDeclaration)
  | "textDocument/prepareRename" => do
    let members ← params.record? ["textDocument", "position"]
    some (.prepareRename (← readPlace? members))
  | "textDocument/rename" => do
    let members ← params.members?
    hasToken members "workDoneToken"
    let newName ← Json.field? members "newName" readText?
    some (.rename (← readPlace? members) newName)
  | "textDocument/completion" => do
    let members ← params.members?
    hasToken members "workDoneToken"
    hasToken members "partialResultToken"
    let _ ← Json.optional? members "context" readTrigger?
    some (.completion (← readPlace? members))
  | "textDocument/documentSymbol" => do
    let members ← params.members?
    hasToken members "workDoneToken"
    hasToken members "partialResultToken"
    some (.documentSymbols (← Json.field? members "textDocument" readDocument?))
  | "textDocument/semanticTokens/full" => do
    let members ← params.members?
    hasToken members "workDoneToken"
    hasToken members "partialResultToken"
    some (.semanticTokens (← Json.field? members "textDocument" readDocument?))
  | _ => none

end Query
end GibianeEditor.Protocol
