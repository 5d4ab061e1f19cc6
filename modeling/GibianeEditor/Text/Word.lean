/-
The word at a cursor: the letters, digits and underscores on both sides of it, without a gap. The
cursor may stand inside the word, before its first character or behind its last.
-/
import GibianeEditor.Text.Basic
import GibianeEditor.Unicode.Alphabetic
import GibianeEditor.Unicode.Numeric

namespace GibianeEditor

/-- Whether a character may stand in a word. -/
def isWordChar (c : Char) : Bool := Unicode.isAlphabetic c || Unicode.isNumeric c || c == '_'

namespace Text

/-- The word at a byte offset, with its place; none where no word touches the offset. -/
def wordAt? (t : Text) (offset : Nat) : Option (Text × Span) :=
  let before : Text := t.upTo Char.utf8Size offset
  let left : Text := (before.reverse.takeWhile isWordChar).reverse
  let right : Text := (t.past Char.utf8Size offset).takeWhile isWordChar
  if left ++ right = [] then none
  else some (left ++ right, ⟨before.bytes - left.bytes, before.bytes + right.bytes⟩)

end Text
end GibianeEditor
