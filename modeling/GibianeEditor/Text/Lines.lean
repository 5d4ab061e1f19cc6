/-
The lines an editor shows. A line ends behind a line feed, a carriage return, both of them in this
order, a vertical tab, a form feed, a next line, a line separator or a paragraph separator, and
holds what ends it. What follows the last break is a line too, even when nothing does, so there is
always one.
-/
import GibianeEditor.Text.Basic

namespace GibianeEditor.Text

/-- The characters that end a line. -/
def isLineBreak (c : Char) : Bool :=
  ['\n', '\x0b', '\x0c', '\r', '\u0085', '\u2028', '\u2029'].contains c

/-- Whether a line ends between a character and the text behind it; a carriage return waits for its
line feed. -/
def endsLine (c : Char) (rest : Text) : Bool :=
  isLineBreak c && !(c == '\r' && rest.head? == some '\n')

/-- The lines of a text, each with the break that ends it. -/
def lines : Text → List Text
  | [] => [[]]
  | c :: t => if endsLine c t then [c] :: lines t else (lines t).modifyHead (c :: ·)

/-- A line up to its line feed or carriage return. The other breaks count as part of the line. -/
def lineContent (line : Text) : Text := line.takeWhile fun c => c != '\n' && c != '\r'

theorem lines_ne_nil (t : Text) : lines t ≠ [] := by
  induction t with
  | nil => simp [lines]
  | cons c t ih =>
    unfold lines
    split
    · simp
    · cases h : lines t with
      | nil => exact absurd h ih
      | cons l ls => simp

/-- The lines hold the whole text. -/
theorem flatten_lines (t : Text) : (lines t).flatten = t := by
  induction t with
  | nil => rfl
  | cons c t ih =>
    unfold lines
    split
    · simp [ih]
    · cases h : lines t with
      | nil => exact absurd h (lines_ne_nil t)
      | cons l ls => rw [h] at ih; simp at ih; simp [ih]

end GibianeEditor.Text
