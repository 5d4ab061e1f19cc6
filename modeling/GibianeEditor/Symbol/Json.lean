/-
Symbols as JSON values.
-/
import GibianeEditor.Json.Basic
import GibianeEditor.Symbol.Table

namespace GibianeEditor

def Span.toJson (s : Span) : Json := .obj [("start", .nat s.start), ("end", .nat s.stop)]

/-- The members that tell of a variable. -/
def Variable.members (v : Variable) : List (String × Json) :=
  [("name", .text v.name.letters), ("description", .text v.description), ("declaration", v.declaration.toJson),
    ("source_path", .str v.sourcePath), ("uses", .arr (v.uses.map Span.toJson))]

/-- The members that tell of an operator. -/
def Operator.members (op : Operator) : List (String × Json) :=
  [("name", .text op.name.letters), ("description", .text op.description)]

/-- The name of a sort of symbols. -/
def SymbolKind.label : SymbolKind → String
  | .variable => "Variable"
  | .operator => "Function"

def Symbol.members : Symbol → List (String × Json)
  | .variable v => v.members
  | .operator op => op.members

/-- A symbol, with its sort in front. -/
def Symbol.toJson (s : Symbol) : Json := .obj (("kind", .str s.kind.label) :: s.members)

/-- All symbols of a table, in order. -/
def SymbolTable.toJson (table : SymbolTable) : Json := .arr (table.symbols.map Symbol.toJson)

end GibianeEditor
