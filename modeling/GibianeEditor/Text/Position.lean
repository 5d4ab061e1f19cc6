/-
Positions as an editor counts them: a line, and a column in code units of UTF-16. Every offset has a
position; a position has an offset when its line exists, and a column behind the line's content
counts as its end. Lines and columns have no bound here. Those that are sent have 32 bits, which makes no
difference to the positions of a text of less than 2^32 bytes (`Text.toPosition_wire_positionAt`).
-/
import GibianeEditor.Text.Lines

namespace GibianeEditor

/-- A place in a document, both numbers counted from zero. -/
structure Position where
  line : Nat
  character : Nat
  deriving DecidableEq, Repr

/-- The stretch of a document between two positions. -/
structure Range where
  start : Position
  stop : Position
  deriving DecidableEq, Repr

namespace Text

/-- The column of a byte offset into a line. -/
def columnIn (line : Text) (offset : Nat) : Nat := ((lineContent line).upTo Char.utf8Size offset).units

/-- The byte offset of a column of a line. -/
def offsetInLine (line : Text) (column : Nat) : Nat := ((lineContent line).upTo utf16Size column).bytes

/-- The position of a byte offset into the lines. One behind the end is on the last line. -/
def positionIn : List Text → Nat → Position
  | [], _ => ⟨0, 0⟩
  | [line], offset => ⟨0, columnIn line offset⟩
  | line :: lines, offset =>
    if offset < line.bytes then ⟨0, columnIn line offset⟩
    else
      let p := positionIn lines (offset - line.bytes)
      ⟨p.line + 1, p.character⟩

/-- The byte offset into the lines of the column of the line so many lines down. -/
def offsetIn : List Text → Nat → Nat → Option Nat
  | [], _, _ => none
  | line :: _, 0, column => some (offsetInLine line column)
  | line :: lines, n + 1, column => (offsetIn lines n column).map (line.bytes + ·)

/-- The position of a byte offset. -/
def positionAt (t : Text) (offset : Nat) : Position := positionIn t.lines offset

/-- The byte offset of a position, if the text has its line. -/
def offsetAt? (t : Text) (p : Position) : Option Nat := offsetIn t.lines p.line p.character

/-- The positions of both ends of a span. -/
def rangeOf (t : Text) (span : Span) : Range := ⟨t.positionAt span.start, t.positionAt span.stop⟩

/-- A position has an offset exactly when its line is one of the text's. -/
theorem offsetAt?_isSome_iff (t : Text) (p : Position) : (t.offsetAt? p).isSome ↔ p.line < t.lines.length := by
  suffices h : ∀ (ls : List Text) n, (offsetIn ls n p.character).isSome ↔ n < ls.length from h _ _
  intro ls
  induction ls with
  | nil => simp [offsetIn]
  | cons l ls ih => rintro (_ | n) <;> simp [offsetIn, ih]

end Text
end GibianeEditor
