/-
Positions and highlighted places in the numbers of the protocol, which have 32 bits. A larger number
keeps its last 32 bits, so only a position with smaller ones is read as it was (`toPosition_wire`). A
difference that would be below zero is none, where the tokens of `HighlightToken.encode` have zero.
-/
import GibianeEditor.Text.Highlight

namespace GibianeEditor

/-- A position in numbers of the protocol. -/
structure WirePosition where
  line : UInt32
  character : UInt32
  deriving DecidableEq, Repr

/-- A stretch of a document in numbers of the protocol. -/
structure WireRange where
  start : WirePosition
  stop : WirePosition
  deriving DecidableEq, Repr

/-- A highlighted place in numbers of the protocol. -/
structure WireToken where
  deltaLine : UInt32
  deltaStart : UInt32
  length : UInt32
  deriving DecidableEq, Repr

/-- A position as it is sent. -/
def Position.wire (p : Position) : WirePosition := ⟨p.line.toUInt32, p.character.toUInt32⟩

/-- A range as it is sent. -/
def Range.wire (r : Range) : WireRange := ⟨r.start.wire, r.stop.wire⟩

namespace WireToken

/-- The token that is read. -/
def toToken (t : WireToken) : HighlightToken := ⟨t.deltaLine.toNat, t.deltaStart.toNat, t.length.toNat⟩

/-- The difference of two numbers; none where it would be below zero. -/
def difference? (a b : UInt32) : Option UInt32 := if b ≤ a then some (a - b) else none

/-- The token of a range behind a position. -/
def relativeTo? (previous : WirePosition) (range : WireRange) : Option WireToken := do
  let deltaLine ← difference? range.start.line previous.line
  let deltaStart ←
    if deltaLine = 0 then difference? range.start.character previous.character else some range.start.character
  let length ← difference? range.stop.character range.start.character
  some { deltaLine, deltaStart, length }

/-- The tokens of ranges that follow a position. -/
def encodeFrom? : WirePosition → List WireRange → Option (List WireToken)
  | _, [] => some []
  | previous, range :: rest => do
    let token ← relativeTo? previous range
    let tokens ← encodeFrom? range.start rest
    some (token :: tokens)

/-- The ranges of spans that end on the line where they start, in document order and each once. -/
def inlineRanges (text : Text) (spans : List Span) : List WireRange :=
  ((HighlightToken.inOrder spans).map fun span => (text.rangeOf span).wire).filter fun range =>
    range.start.line = range.stop.line

/-- The tokens of spans of a text. -/
def encode? (text : Text) (spans : List Span) : Option (List WireToken) :=
  encodeFrom? ⟨0, 0⟩ (inlineRanges text spans)

end WireToken
end GibianeEditor
