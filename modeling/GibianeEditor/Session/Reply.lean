/-
How a session answers questions. A question about a word needs an open document with a word at the
position; what the word means is then looked up in the index, and places are told as positions of the
open document. Answering changes nothing.
-/
import GibianeEditor.Protocol.Answer
import GibianeEditor.Session.Basic

namespace GibianeEditor.Session

open Log (Event)
open Protocol (Answer Place Query)

/-- The open document at a place, with the word there and its span. -/
def wordAt? (s : Session) (place : Place) : Option (Document × Text × Span) := do
  let document ← s.documents.find? place.uri.text
  let offset ← document.text.offsetAt? place.position
  let (word, span) ← document.text.wordAt? offset
  some (document, word, span)

/-- The answer made of what a table says; nothing, with a warning, where there is no table. -/
def fromTable {α : Type} (s : Session) (uri : Uri) (question : SymbolTable → α)
    (answer : α → Answer × List Event) : Answer × List Event :=
  match s.index.ask uri.text question with
  | .ok a => answer a
  | .error e => (.nothing, [.unindexed e])

/-- The answer made of what a table says about the word at a place; nothing where there is no word. -/
def aboutWord {α : Type} (s : Session) (place : Place) (question : SymbolTable → Text → α)
    (answer : Text → Text → Span → α → Answer × List Event) : Answer × List Event :=
  match s.wordAt? place with
  | none => (.nothing, [])
  | some (document, word, span) =>
    s.fromTable place.uri (fun table => question table word) (answer document.text word span)

/-- The answer made of what a table says about an open document; nothing where it is not open. -/
def aboutDocument {α : Type} (s : Session) (uri : Uri) (question : SymbolTable → α)
    (answer : Text → α → Answer × List Event) : Answer × List Event :=
  match s.documents.find? uri.text with
  | none => (.nothing, [])
  | some document => s.fromTable uri question (answer document.text)

/-- The answer to a question, with what is logged on the way to it. -/
def reply (s : Session) : Query → Answer × List Event
  | .hover place =>
    s.aboutWord place SymbolTable.hover fun text word span value =>
      match value with
      | none => (.nothing, [])
      | some value => (.hover value (text.rangeOf span), [.foundHover word])
  | .definition place =>
    s.aboutWord place SymbolTable.definition fun text _ span targets =>
      let links := targets.map fun target => ⟨text.rangeOf span, place.uri, text.rangeOf target.span⟩
      (if links.isEmpty then .nothing else .links links, [.foundDefinitions links.length])
  | .references place withDeclaration =>
    s.aboutWord place (fun table word => table.references word withDeclaration) fun text _ _ spans =>
      (.locations place.uri (spans.map text.rangeOf), [.foundReferences spans.length])
  | .prepareRename place =>
    s.aboutWord place SymbolTable.prepareRename fun text _ span name =>
      match name with
      | none => (.nothing, [])
      | some name => (.renameRange (text.rangeOf span) name, [])
  | .rename place newName =>
    s.aboutWord place (fun table word => table.rename word newName) fun text _ _ edits =>
      match edits with
      | none => (.nothing, [])
      | some edits =>
        (.edits place.uri (edits.map fun e => ⟨text.rangeOf e.span, e.newText⟩), [.computedEdits edits.length])
  | .completion place =>
    s.fromTable place.uri SymbolTable.completion fun entries =>
      (.completion entries, [.completed entries.length])
  | .documentSymbols uri =>
    s.aboutDocument uri SymbolTable.outline fun text entries =>
      (.documentSymbols (entries.map fun e => ⟨e.name, e.kind, text.rangeOf e.span⟩),
        [.foundSymbols entries.length])
  | .semanticTokens uri =>
    s.aboutDocument uri SymbolTable.highlights fun text spans =>
      let tokens := HighlightToken.encode text spans
      (.semanticTokens tokens, [.highlighted tokens.length])

end GibianeEditor.Session
