/-
The state of a session: the text of every open document, and its table in the index. Opening,
changing and closing a document keep the two together.
-/
import GibianeEditor.Session.Events

namespace GibianeEditor

open Log (Event)
open Protocol (Notice)

/-- An open document. -/
structure Document where
  text : Text
  path : String
  deriving DecidableEq

/-- The open documents and the index of their symbols, both by URI. -/
structure Session where
  documents : OrderedMap String Document
  index : SymbolIndex

namespace Session

/-- A session without documents. -/
def empty : Session := ⟨.empty, .empty⟩

/-- The session with a document put in, and the table of its text. -/
def store (s : Session) (uri : Uri) (document : Document) : Session × List Event :=
  (⟨s.documents.insert uri.text document, s.index.indexDocument uri.text document.path document.text⟩,
    [.indexed uri (.ofText document.text document.path)])

/-- A text after changes, one after the other. One with an invalid range is left out. -/
def applyChanges (uri : Uri) : Text → List Change → Text × List Event
  | t, [] => (t, [])
  | t, change :: rest =>
    match change.apply? t with
    | some t => applyChanges uri t rest
    | none =>
      let (t, events) := applyChanges uri t rest
      (t, .invalidRange uri :: events)

/-- The session after a notice from the client. -/
def note (s : Session) : Notice → Session × List Event
  | .opened uri text =>
    let (s, events) := s.store uri ⟨text, uri.path⟩
    (s, .opened uri :: events)
  | .changed uri changes =>
    match s.documents.find? uri.text with
    | none => (s, [.notOpen uri])
    | some document =>
      let (text, warnings) := applyChanges uri document.text changes
      let (s, events) := s.store uri { document with text }
      (s, warnings ++ events)
  | .closed uri => (⟨s.documents.erase uri.text, s.index.remove uri.text⟩, [.closed uri])

end Session
end GibianeEditor
