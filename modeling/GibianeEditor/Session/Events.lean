/-
What a session logs, event by event.
-/
import GibianeEditor.Log.Event
import GibianeEditor.Protocol.Initialize
import GibianeEditor.Protocol.Notice
import GibianeEditor.Protocol.Query
import GibianeEditor.Symbol.Index

namespace GibianeEditor.Log

/-- Where the events about messages and documents come from. -/
def serverTarget : String := "gibiane::lsp::server"

/-- Where the events about tables come from. -/
def indexTarget : String := "gibiane::index"

namespace Event

/-- An event about a message or a document. -/
def ofServer (level : Level) (message : String) (fields : List (String × Value)) : Event :=
  ⟨level, serverTarget, message, fields⟩

/-- The field that holds a URI. -/
def uriField (uri : Uri) : String × Value := ("uri", .text uri.text)

/-- The fields that hold a position. -/
def positionFields (p : Position) : List (String × Value) := [("line", .nat p.line), ("character", .nat p.character)]

def initialized (client : Protocol.ClientInfo) : Event :=
  ofServer .info "Initialized" [("client", .shown client.name),
    ("version", .shown (Protocol.describeOption quoted client.version))]

def received (method : String) : Event := ofServer .debug "Received request" [("method", .shown method)]

def unhandled (method : String) : Event := ofServer .debug "Unhandled request" [("method", .shown method)]

def unindexed (error : IndexError) : Event :=
  ofServer .warn "Query on unindexed document" [("err", .shown error.message)]

def opened (uri : Uri) : Event := ofServer .info "Document opened" [uriField uri]

def closed (uri : Uri) : Event := ofServer .info "Document closed" [uriField uri]

def notOpen (uri : Uri) : Event := ofServer .warn "Change for a document that is not open" [uriField uri]

def invalidRange (uri : Uri) : Event := ofServer .warn "Ignoring change with invalid range" [uriField uri]

def indexed (uri : Uri) (table : SymbolTable) : Event :=
  ⟨.debug, indexTarget, "Indexed document", [uriField uri, ("symbols", .nat table.symbols.length)]⟩

/-- The event that a question has come in. -/
def asked : Protocol.Query → Event
  | .hover place => ofServer .debug "Hover request" (positionFields place.position)
  | .definition place => ofServer .debug "Go to Definition request" (positionFields place.position)
  | .references place withDeclaration =>
    ofServer .debug "Find References request"
      (positionFields place.position ++ [("include_declaration", .shown (toString withDeclaration))])
  | .prepareRename place => ofServer .debug "Prepare rename request" (positionFields place.position)
  | .rename place newName =>
    ofServer .debug "Rename request"
      (positionFields place.position ++ [("new_name", .shown (String.ofList newName))])
  | .completion place => ofServer .debug "Completion request" (positionFields place.position)
  | .documentSymbols uri => ofServer .debug "Document symbols request" [uriField uri]
  | .semanticTokens uri => ofServer .debug "Semantic tokens request" [uriField uri]

def foundHover (word : Text) : Event :=
  ofServer .debug "Found hover text" [("word", .shown (String.ofList word))]

def foundDefinitions (count : Nat) : Event := ofServer .debug "Found definitions" [("count", .nat count)]

def foundReferences (count : Nat) : Event := ofServer .debug "Found references" [("count", .nat count)]

def computedEdits (count : Nat) : Event := ofServer .debug "Rename edits computed" [("edit_count", .nat count)]

def completed (count : Nat) : Event := ofServer .debug "Completion items" [("count", .nat count)]

def foundSymbols (count : Nat) : Event := ofServer .debug "Found document symbols" [("count", .nat count)]

def highlighted (count : Nat) : Event := ofServer .debug "Semantic tokens" [("count", .nat count)]

end Event
end GibianeEditor.Log
