/-
The symbols of a document under their names. A table starts with the catalog; a declaration of the
document then takes the place of the operator of its name, or comes behind all others.
-/
import GibianeEditor.OrderedMap
import GibianeEditor.Symbol.Catalog

namespace GibianeEditor

/-- Symbols by name, in the order in which their names came in. -/
abbrev SymbolTable := OrderedMap Name Symbol

namespace SymbolTable

/-- The symbols, in the order of their keys. -/
def symbols (table : SymbolTable) : List Symbol := table.values

/-- The variables among the symbols. -/
def declaredVariables (table : SymbolTable) : List Variable := table.symbols.filterMap Symbol.asVariable

/-- A table with the operators of the catalog put in. -/
def seed (table : SymbolTable) : SymbolTable :=
  catalog.foldl (fun table op => table.insert op.name (.operator op)) table

/-- The table of a document that declares nothing. -/
def builtIn : SymbolTable := seed OrderedMap.empty

/-- Whether the table has a key that the word spells. -/
def exists? (table : SymbolTable) (word : Text) : Bool := OrderedMap.contains table (Name.of word)

/-- The symbol under the key that the word spells. -/
def lookup? (table : SymbolTable) (word : Text) : Option Symbol := OrderedMap.find? table (Name.of word)

/-- The table of a document: the catalog, then what the text declares. -/
def ofText (text : Text) (sourcePath : String) : SymbolTable :=
  (Source.scan text).foldl (fun table d => table.insert d.name (.variable (d.toVariable sourcePath))) builtIn

end SymbolTable
end GibianeEditor
