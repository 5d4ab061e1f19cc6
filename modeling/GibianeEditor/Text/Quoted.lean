/-
Strings as they are shown in diagnostics: in double quotes, on one line, and with everything that
could not be told by its looks written as a code point in braces.
-/
import GibianeEditor.Unicode.GraphemeExtend
import GibianeEditor.Unicode.Printable

namespace GibianeEditor

/-- A character as it is shown between double quotes. -/
def shownInQuotes (c : Char) : List Char :=
  if c = '\x00' then ['\\', '0']
  else if c = '\t' then ['\\', 't']
  else if c = '\r' then ['\\', 'r']
  else if c = '\n' then ['\\', 'n']
  else if c = '"' then ['\\', '"']
  else if c = '\\' then ['\\', '\\']
  else if Unicode.isGraphemeExtend c || !Unicode.isPrintable c then
    "\\u\x7b".toList ++ Nat.toDigits 16 c.toNat ++ "\x7d".toList
  else [c]

/-- A string in double quotes. -/
def quoted (s : String) : String := "\"" ++ String.ofList (s.toList.flatMap shownInQuotes) ++ "\""

end GibianeEditor
