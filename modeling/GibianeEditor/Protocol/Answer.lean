/-
The answers to questions about documents, in positions of the document that was asked about, and
their form on the wire.
-/
import GibianeEditor.Json.Basic
import GibianeEditor.Symbol.Query
import GibianeEditor.Text.Highlight
import GibianeEditor.Uri.Basic

namespace GibianeEditor.Protocol

/-- A link from the word at the cursor to a declaration. -/
structure Link where
  origin : Range
  uri : Uri
  target : Range
  deriving DecidableEq

/-- New text for a range. -/
structure RangeEdit where
  range : Range
  newText : Text
  deriving DecidableEq

/-- A variable with the range of its declaration. -/
structure DocumentSymbol where
  name : Name
  kind : SymbolKind
  range : Range
  deriving DecidableEq

/-- What a question about a document gets. -/
inductive Answer where
  | nothing
  | hover (value : Text) (range : Range)
  | links (links : List Link)
  | locations (uri : Uri) (ranges : List Range)
  | renameRange (range : Range) (placeholder : Name)
  | edits (uri : Uri) (edits : List RangeEdit)
  | completion (entries : List CompletionEntry)
  | documentSymbols (symbols : List DocumentSymbol)
  | semanticTokens (tokens : List HighlightToken)
  deriving DecidableEq

/-- The language that documentation is written in. -/
def hoverLanguage : String := "gibiane"

def positionJson (p : Position) : Json := .obj [("character", .nat p.character), ("line", .nat p.line)]

def rangeJson (r : Range) : Json := .obj [("end", positionJson r.stop), ("start", positionJson r.start)]

/-- The number of a kind among those of completion items. -/
def completionKind : SymbolKind → Nat
  | .variable => 6
  | .operator => 3

/-- The number of a kind among those of document symbols. -/
def symbolKindNumber : SymbolKind → Nat
  | .variable => 13
  | .operator => 12

def Link.toJson (l : Link) : Json :=
  .obj [("originSelectionRange", rangeJson l.origin), ("targetRange", rangeJson l.target),
    ("targetSelectionRange", rangeJson l.target), ("targetUri", .str l.uri.text)]

def RangeEdit.toJson (e : RangeEdit) : Json := .obj [("newText", .text e.newText), ("range", rangeJson e.range)]

def DocumentSymbol.toJson (s : DocumentSymbol) : Json :=
  .obj [("kind", .nat (symbolKindNumber s.kind)), ("name", .text s.name.letters), ("range", rangeJson s.range),
    ("selectionRange", rangeJson s.range)]

/-- An item of completion. A detail that is empty is left out. -/
def completionItem (e : CompletionEntry) : Json :=
  .obj ((if e.detail.isEmpty then [] else [("detail", .text e.detail)]) ++
    [("kind", .nat (completionKind e.kind)), ("label", .text e.name.letters)])

/-- The five numbers of a token. Its type and its modifier are the only ones of the legend. -/
def tokenNumbers (t : HighlightToken) : List Json :=
  [.nat t.deltaLine, .nat t.deltaStart, .nat t.length, .nat 0, .nat 1]

/-- An answer on the wire. -/
def Answer.toJson : Answer → Json
  | .nothing => .null
  | .hover value range =>
    .obj [("contents", .obj [("language", .str hoverLanguage), ("value", .text value)]), ("range", rangeJson range)]
  | .links targets => .arr (targets.map Link.toJson)
  | .locations uri ranges => .arr (ranges.map fun r => .obj [("range", rangeJson r), ("uri", .str uri.text)])
  | .renameRange range placeholder =>
    .obj [("placeholder", .text placeholder.letters), ("range", rangeJson range)]
  | .edits uri changes => .obj [("changes", .obj [(uri.text, .arr (changes.map RangeEdit.toJson))])]
  | .completion entries => .obj [("isIncomplete", .bool false), ("items", .arr (entries.map completionItem))]
  | .documentSymbols symbols => .arr (symbols.map DocumentSymbol.toJson)
  | .semanticTokens tokens => .obj [("data", .arr (tokens.flatMap tokenNumbers))]

end GibianeEditor.Protocol
