/-
What a name can stand for in a document: a variable that the document declares, or an operator that
the language has built in. Only a variable has places in the document.
-/
import GibianeEditor.Source.Declaration

namespace GibianeEditor

/-- A declared name, with the path of the document that declares it. -/
structure Variable where
  name : Name
  description : Text
  declaration : Span
  sourcePath : String
  uses : List Span
  deriving DecidableEq

/-- A built-in operator. -/
structure Operator where
  name : Name
  description : Text
  deriving DecidableEq

/-- A variable or an operator. -/
inductive Symbol where
  | variable (var : Variable)
  | operator (op : Operator)
  deriving DecidableEq

/-- What tells the two sorts of symbols apart. -/
inductive SymbolKind where
  | variable
  | operator
  deriving DecidableEq, Repr

namespace Symbol

def name : Symbol → Name
  | .variable v => v.name
  | .operator op => op.name

/-- The description; empty where there is none. -/
def description : Symbol → Text
  | .variable v => v.description
  | .operator op => op.description

def kind : Symbol → SymbolKind
  | .variable _ => .variable
  | .operator _ => .operator

def asVariable : Symbol → Option Variable
  | .variable v => some v
  | .operator _ => none

end Symbol

/-- The declaration and all uses of a variable. -/
def Variable.sites (v : Variable) : List Span := v.declaration :: v.uses

/-- A declaration as a variable of the document at a path. -/
def Source.Declaration.toVariable (d : Source.Declaration) (sourcePath : String) : Variable :=
  ⟨d.name, d.description, d.span, sourcePath, d.uses⟩

end GibianeEditor
