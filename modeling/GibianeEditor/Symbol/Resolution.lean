/-
What a word means in a table. It means the symbols of its name. Where there is none it may be a
longer spelling: it then means every symbol whose name it begins with (`OPTION` means `OPTI`), and
those come in table order, whatever their lengths.
-/
import GibianeEditor.Symbol.Table

namespace GibianeEditor

/-- How a word led to symbols. -/
inductive MatchKind where
  /-- By a name of the same spelling. -/
  | exact
  /-- By names that the word begins with. -/
  | longer
  deriving DecidableEq, Repr

/-- The symbols that a word means. -/
structure Resolution where
  kind : MatchKind
  symbols : List Symbol
  deriving DecidableEq

/-- Whether a name is the word or a beginning of it. -/
def Name.begins (name : Name) (word : Name) : Bool := name.letters.isPrefixOf word.letters

namespace SymbolTable

/-- The symbols that a word means. None at all is a `longer` match of nothing. -/
def resolve (table : SymbolTable) (word : Text) : Resolution :=
  let name := Name.of word
  match table.symbols.filter fun s => s.name = name with
  | [] => ⟨.longer, table.symbols.filter fun s => s.name.begins name⟩
  | exacts => ⟨.exact, exacts⟩

/-- The variable of exactly the word's name. -/
def variableOf (table : SymbolTable) (word : Text) : Option Variable :=
  table.declaredVariables.find? fun v => v.name = Name.of word

end SymbolTable
end GibianeEditor
