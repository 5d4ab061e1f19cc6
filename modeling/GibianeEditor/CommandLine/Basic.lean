/-
What can be asked of the program on its command line, and what can be wrong with how it is asked.
-/
namespace GibianeEditor.CommandLine

/-- What the program does. -/
inductive Command where
  | serve (logLevel : String)
  | index (file : String) (json : Bool)
  deriving DecidableEq, Repr

/-- The names of the commands. -/
inductive Verb where
  | serve
  | index
  deriving DecidableEq, Repr

/-- The parts of the command line that have a page of help and a usage line each. -/
inductive Scope where
  | top
  | verb (name : Verb)
  | help
  deriving DecidableEq, Repr

inductive Opt where
  | help
  | json
  | logLevel
  deriving DecidableEq, Repr

/-- The name of an option behind its two dashes. -/
def Opt.name : Opt → String
  | .help => "help"
  | .json => "json"
  | .logLevel => "log-level"

/-- An option with the value it takes. -/
def Opt.shown : Opt → String
  | .logLevel => "--log-level <LOG_LEVEL>"
  | o => "--" ++ o.name

/-- The options of a part. -/
def Scope.options : Scope → List Opt
  | .top => [.help]
  | .verb .serve => [.logLevel, .help]
  | .verb .index => [.json, .help]
  | .help => []

/-- The name of a command. -/
def Verb.name : Verb → String
  | .serve => "serve"
  | .index => "index"

/-- The words that name commands. -/
def verbWords : List (String × Verb) := [("serve", .serve), ("lsp", .serve), ("index", .index)]

/-- The level up to which a server logs unless another is given. -/
def defaultLogLevel : String := "info"

/-- What a usage line tells: everything that can stand in a part, or only the options given there and
what has to stand with them. -/
structure Usage where
  scope : Scope
  given : Option (List Opt)
  deriving DecidableEq, Repr

/-- What to try instead. -/
inductive Tip where
  /-- The argument as a value, behind a separator. -/
  | asValue
  | option (name : String)
  /-- The option of a command that is named later. -/
  | optionOf (verb : Verb) (name : String)
  | commands (names : List String)
  /-- The command without the separator before it. -/
  | withoutSeparator
  deriving DecidableEq, Repr

/-- Why a command line is refused. -/
inductive UsageError where
  | noCommand
  | unknownCommand (word : String) (tip : Option Tip) (usage : Usage)
  | unexpected (argument : String) (tip : Option Tip) (usage : Usage)
  | repeated (option : Opt) (usage : Usage)
  | missingFile (usage : Usage)
  /-- A file or an option stands without its value. -/
  | missingValue (place : String)
  | extraValue (value : String) (option : Opt) (usage : Usage)
  deriving DecidableEq, Repr

/-- What a command line asks for. -/
inductive Request where
  | run (command : Command)
  | help (page : Scope)
  deriving DecidableEq, Repr

end GibianeEditor.CommandLine
