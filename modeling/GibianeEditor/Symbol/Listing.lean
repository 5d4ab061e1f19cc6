/-
The variables of a table as lines of text: a line with their number, then one for each with its
name, its place, its number of uses and its description.
-/
import GibianeEditor.Symbol.Table

namespace GibianeEditor

/-- The line of a variable. A line feed in the description becomes a blank. -/
def Variable.listed (v : Variable) : Text :=
  v.name.letters ++ [' '] ++ Nat.toDigits 10 v.declaration.start ++ "..".toList ++
    Nat.toDigits 10 v.declaration.stop ++ " uses=".toList ++ Nat.toDigits 10 v.uses.length ++
    (if v.description.isEmpty then []
      else " # ".toList ++ v.description.map fun c => if c = '\n' then ' ' else c)

/-- The lines of a table, without a line feed at the end. -/
def SymbolTable.listing (table : SymbolTable) : Text :=
  List.intercalate ['\n'] (("variables: ".toList ++ Nat.toDigits 10 table.declaredVariables.length) ::
    table.declaredVariables.map Variable.listed)

end GibianeEditor
