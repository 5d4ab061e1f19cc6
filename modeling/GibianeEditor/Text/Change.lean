/-
Changes of a document: one replaces the whole text, or the range between two positions. Positions
are read in the text that the change finds.
-/
import GibianeEditor.Text.Position

namespace GibianeEditor

/-- New text for a range of the document, or for all of it. -/
structure Change where
  range : Option Range
  text : Text
  deriving DecidableEq, Repr

/-- The text after a change; none where a line of the range does not exist. A range that ends before
it starts is empty. -/
def Change.apply? (change : Change) (t : Text) : Option Text :=
  match change.range with
  | none => some change.text
  | some range =>
    match t.offsetAt? range.start, t.offsetAt? range.stop with
    | some start, some stop => some (t.replace ⟨start, max start stop⟩ change.text)
    | _, _ => none

end GibianeEditor
