/-
The tables of all open documents, by URI. A document that is not in the index has no answers at all,
which is told apart from an answer that is empty.
-/
import GibianeEditor.Symbol.Query

namespace GibianeEditor

/-- Why a question about a document has no answer. -/
inductive IndexError where
  | notIndexed (uri : String)
  deriving DecidableEq

def IndexError.message : IndexError → String
  | .notIndexed uri => "document is not indexed: " ++ uri

/-- Tables by the URI of their document. -/
structure SymbolIndex where
  tables : OrderedMap String SymbolTable

namespace SymbolIndex

def empty : SymbolIndex := ⟨.empty⟩

/-- The index with a table put in for a document, in place of any other. -/
def replace (index : SymbolIndex) (uri : String) (table : SymbolTable) : SymbolIndex :=
  ⟨index.tables.insert uri table⟩

/-- The index with the table of a text. -/
def indexDocument (index : SymbolIndex) (uri sourcePath : String) (text : Text) : SymbolIndex :=
  index.replace uri (.ofText text sourcePath)

def remove (index : SymbolIndex) (uri : String) : SymbolIndex := ⟨index.tables.erase uri⟩

def contains (index : SymbolIndex) (uri : String) : Bool := index.tables.contains uri

/-- The table of a document. -/
def table (index : SymbolIndex) (uri : String) : Except IndexError SymbolTable :=
  match index.tables.find? uri with
  | some table => .ok table
  | none => .error (.notIndexed uri)

/-- What a question gets from the table of a document. -/
def ask {α : Type} (index : SymbolIndex) (uri : String) (question : SymbolTable → α) : Except IndexError α :=
  (index.table uri).map question

/-- A question about a document that was just indexed is answered from its table. -/
theorem ask_indexDocument {α : Type} (index : SymbolIndex) (uri sourcePath : String) (text : Text)
    (question : SymbolTable → α) :
    (index.indexDocument uri sourcePath text).ask uri question = .ok (question (.ofText text sourcePath)) := by
  rw [ask, table, indexDocument, replace, OrderedMap.find?_insert_self]
  rfl

end SymbolIndex
end GibianeEditor
