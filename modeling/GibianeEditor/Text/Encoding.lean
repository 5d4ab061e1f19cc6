/-
Text as bytes of UTF-8.
-/
import GibianeEditor.Text.Basic

namespace GibianeEditor.Text

/-- The text that bytes encode; none if they are not UTF-8. -/
def ofBytes? (bytes : List UInt8) : Option Text := (String.fromUTF8? bytes.toByteArray).map String.toList

end GibianeEditor.Text
