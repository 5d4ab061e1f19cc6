/-
Highlighted places as the protocol sends them: in document order, each with its distance from the one
before. A place that does not end on the line where it starts is left out. Numbers have no bound here,
and a difference below zero is zero; `WireToken.encode?` tells the same places in numbers of 32 bits.
-/
import GibianeEditor.Text.Position

namespace GibianeEditor

/-- A highlighted place: the lines from the one before, the columns from it if it is on the same
line and from the line's start if not, and the length in columns. -/
structure HighlightToken where
  deltaLine : Nat
  deltaStart : Nat
  length : Nat
  deriving DecidableEq, Repr

namespace HighlightToken

/-- The token of a range behind a position. -/
def relativeTo (previous : Position) (range : Range) : HighlightToken :=
  let deltaLine := range.start.line - previous.line
  { deltaLine
    deltaStart := if deltaLine = 0 then range.start.character - previous.character else range.start.character
    length := range.stop.character - range.start.character }

/-- The tokens of ranges that follow a position. -/
def encodeFrom : Position → List Range → List HighlightToken
  | _, [] => []
  | previous, range :: rest => relativeTo previous range :: encodeFrom range.start rest

/-- The spans in document order, each once. -/
def inOrder (spans : List Span) : List Span := (spans.mergeSort Span.before).eraseReps

/-- The tokens of spans of a text. -/
def encode (text : Text) (spans : List Span) : List HighlightToken :=
  encodeFrom ⟨0, 0⟩ (((inOrder spans).map text.rangeOf).filter fun range => range.start.line = range.stop.line)

end HighlightToken
end GibianeEditor
