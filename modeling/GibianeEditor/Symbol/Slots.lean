/-
A symbol table as it is held: the symbols in a row, and for each key the slot of its symbol in the row.
What is looked up under a key goes through the slots; what a word means is read off the row, where only
the symbols' own names count. A later insertion under a key replaces the symbol in the key's slot, which
may turn a variable into an operator or the other way round.
-/
import GibianeEditor.Symbol.Resolution

namespace GibianeEditor

/-- Symbols in a row, and the slots of their keys. -/
structure SlotTable where
  symbols : List Symbol
  slots : OrderedMap Name Nat

namespace SlotTable

/-- The table without symbols. -/
def empty : SlotTable := ⟨[], .empty⟩

/-- The table with a symbol in the slot of the key that a word spells, or behind all others. -/
def insert (table : SlotTable) (key : Text) (s : Symbol) : SlotTable :=
  match table.slots.find? (Name.of key) with
  | some slot => { table with symbols := table.symbols.set slot s }
  | none => ⟨table.symbols ++ [s], table.slots.insert (Name.of key) table.symbols.length⟩

/-- A table with the operators of the catalog put in. -/
def seed (table : SlotTable) : SlotTable :=
  catalog.foldl (fun table op => table.insert op.name.letters (.operator op)) table

/-- The table of the catalog alone. -/
def builtIn : SlotTable := seed empty

/-- Whether the table has a key that the word spells. -/
def exists? (table : SlotTable) (word : Text) : Bool := table.slots.contains (Name.of word)

/-- The symbol in the slot of the key that the word spells. -/
def lookup? (table : SlotTable) (word : Text) : Option Symbol :=
  (table.slots.find? (Name.of word)).bind fun slot => table.symbols[slot]?

/-- The row of symbols under their own names. -/
def ownNames (table : SlotTable) : SymbolTable := ⟨table.symbols.map fun s => (s.name, s)⟩

/-- The symbols that a word means. -/
def resolve (table : SlotTable) (word : Text) : Resolution := table.ownNames.resolve word

/-- The variable of exactly the word's name. -/
def variableOf (table : SlotTable) (word : Text) : Option Variable := table.ownNames.variableOf word

/-- The table of a document: the catalog, then what the text declares. -/
def ofText (text : Text) (sourcePath : String) : SlotTable :=
  (Source.scan text).foldl (fun table d => table.insert d.name.letters (.variable (d.toVariable sourcePath))) builtIn

/-- What is done to a table. -/
inductive Step where
  | insert (key : Text) (s : Symbol)
  | seed

/-- The table after one step. -/
def step (table : SlotTable) : Step → SlotTable
  | .insert key s => table.insert key s
  | .seed => table.seed

/-- The table after steps in a row. -/
def run (table : SlotTable) (steps : List Step) : SlotTable := steps.foldl step table

end SlotTable
end GibianeEditor
