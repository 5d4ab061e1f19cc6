/-
What the server logs: an event has a level, a target that names where it comes from, a message and
fields. The same event reads differently for the client and on the console: there the target stands
in front, and strings in quotes.
-/
import GibianeEditor.Text.Quoted

namespace GibianeEditor.Log

/-- How severe an event is. -/
inductive Level where
  | error
  | warn
  | info
  | debug
  | trace
  deriving DecidableEq, Repr

/-- The rank of a level; the most severe comes first. -/
def Level.rank : Level → Nat
  | .error => 1
  | .warn => 2
  | .info => 3
  | .debug => 4
  | .trace => 5

/-- The name of a level on the console. -/
def Level.label : Level → String
  | .error => "ERROR"
  | .warn => "WARN"
  | .info => "INFO"
  | .debug => "DEBUG"
  | .trace => "TRACE"

/-- The value of a field. -/
inductive Value where
  /-- A string, shown in quotes on the console. -/
  | text (s : String)
  /-- Anything else, always shown as it is. -/
  | shown (s : String)
  deriving DecidableEq, Repr

/-- A number as a value. -/
def Value.nat (n : Nat) : Value := .shown (toString n)

structure Event where
  level : Level
  target : String
  message : String
  fields : List (String × Value)
  deriving DecidableEq, Repr

/-- A value for the client. -/
def Value.plain : Value → String
  | .text s => s
  | .shown s => s

/-- A value on the console. -/
def Value.onConsole : Value → String
  | .text s => quoted s
  | .shown s => s

/-- The fields behind a message, each with a blank before it. -/
def showFields (render : Value → String) (fields : List (String × Value)) : String :=
  String.join (fields.map fun f => " " ++ f.1 ++ "=" ++ render f.2)

/-- An event for the client. One without a message shows its target instead. -/
def Event.clientText (e : Event) : String :=
  (if e.message.isEmpty then e.target else e.message) ++ showFields Value.plain e.fields

/-- An event on the console. -/
def Event.consoleText (e : Event) : String :=
  e.level.label ++ " " ++ e.target ++ ": " ++ e.message ++ showFields Value.onConsole e.fields

end GibianeEditor.Log
