/-
The parts that parameters are made of: places in documents, changes and progress tokens.
-/
import GibianeEditor.Json.Record
import GibianeEditor.Text.Change
import GibianeEditor.Uri.Basic

namespace GibianeEditor.Protocol

/-- A position in a document. -/
structure Place where
  uri : Uri
  position : Position
  deriving DecidableEq

def readUri? : Json → Option Uri
  | .str s => Uri.parse? s
  | _ => none

def readText? (j : Json) : Option Text := j.str?.map String.toList

def readPosition? (j : Json) : Option Position := do
  let members ← j.record? ["line", "character"]
  some ⟨← Json.field? members "line" Json.nat32?, ← Json.field? members "character" Json.nat32?⟩

def readRange? (j : Json) : Option Range := do
  let members ← j.record? ["start", "end"]
  some ⟨← Json.field? members "start" readPosition?, ← Json.field? members "end" readPosition?⟩

/-- The URI of a document identifier. -/
def readDocument? (j : Json) : Option Uri := do
  let members ← j.record? ["uri"]
  Json.field? members "uri" readUri?

/-- The place that members of parameters name. -/
def readPlace? (members : List (String × Json)) : Option Place := do
  let uri ← Json.field? members "textDocument" readDocument?
  let position ← Json.field? members "position" readPosition?
  some ⟨uri, position⟩

/-- A token for reports on progress: a string or an integer. -/
def readToken? : Json → Option Unit
  | .str _ => some ()
  | j => j.int32?.map fun _ => ()

/-- Whether the member of a key, if there is one, is a token. -/
def hasToken (members : List (String × Json)) (key : String) : Option Unit :=
  (Json.optional? members key readToken?).map fun _ => ()

/-- A change of a document. -/
def readChange? (j : Json) : Option Change := do
  let members ← j.record? ["range", "rangeLength", "text"]
  let range ← Json.optional? members "range" readRange?
  let _ ← Json.optional? members "rangeLength" Json.nat32?
  let text ← Json.field? members "text" readText?
  some ⟨range, text⟩

end GibianeEditor.Protocol
