/-
What an editor asks of a table about a word or about the whole document. Places are byte spans.
-/
import GibianeEditor.Symbol.Resolution

namespace GibianeEditor

/-- A symbol as it is offered while typing. -/
structure CompletionEntry where
  name : Name
  kind : SymbolKind
  detail : Text
  deriving DecidableEq

/-- Where a word is declared. -/
structure DefinitionTarget where
  span : Span
  sourcePath : String
  deriving DecidableEq

/-- A variable in the overview of a document. -/
structure OutlineEntry where
  name : Name
  kind : SymbolKind
  span : Span
  deriving DecidableEq

/-- New text for a span. -/
structure TextEdit where
  span : Span
  newText : Text
  deriving DecidableEq

namespace SymbolTable

/-- Every symbol, whatever was typed. -/
def completion (table : SymbolTable) : List CompletionEntry :=
  table.symbols.map fun s => ⟨s.name, s.kind, s.description⟩

/-- The description of the first symbol that the word means, unless it is empty. -/
def hover (table : SymbolTable) (word : Text) : Option Text :=
  match (table.resolve word).symbols with
  | [] => none
  | s :: _ => if s.description.isEmpty then none else some s.description

/-- The declarations of all variables that the word means. -/
def definition (table : SymbolTable) (word : Text) : List DefinitionTarget :=
  ((table.resolve word).symbols.filterMap Symbol.asVariable).map fun v => ⟨v.declaration, v.sourcePath⟩

/-- Every place of every variable, variable by variable. -/
def highlights (table : SymbolTable) : List Span := table.declaredVariables.flatMap Variable.sites

/-- The variables with their declarations. -/
def outline (table : SymbolTable) : List OutlineEntry :=
  table.declaredVariables.map fun v => ⟨v.name, .variable, v.declaration⟩

/-- The edits that give a variable a new name at all its places. Operators and longer spellings are
not renamed. -/
def rename (table : SymbolTable) (word newName : Text) : Option (List TextEdit) :=
  (table.variableOf word).map fun v => v.sites.map fun span => ⟨span, newName⟩

/-- The name that a rename would replace. -/
def prepareRename (table : SymbolTable) (word : Text) : Option Name :=
  (table.variableOf word).map Variable.name

/-- The places of a variable. -/
def references (table : SymbolTable) (word : Text) (withDeclaration : Bool) : List Span :=
  match table.variableOf word with
  | none => []
  | some v => if withDeclaration then v.sites else v.uses

end SymbolTable
end GibianeEditor
