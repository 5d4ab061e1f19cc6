/-
The pages of help, the usage lines, and the texts of what is wrong with a command line.
-/
import GibianeEditor.CommandLine.Basic

namespace GibianeEditor.CommandLine

/-- What a part is for. -/
def Scope.about : Scope → String
  | .top => "Gibiane symbol index and language server"
  | .verb .serve => "Start the Language Server Protocol (LSP) server"
  | .verb .index => "Index a file and print the variables it declares"
  | .help => "Print this message or the help of the given subcommand(s)"

/-- The words before what a part takes. -/
def Scope.call : Scope → String
  | .top => "gibiane"
  | .verb v => "gibiane " ++ v.name
  | .help => "gibiane help"

/-- What has to stand in a part. -/
def Scope.required : Scope → List String
  | .top => ["<COMMAND>"]
  | .verb .serve => []
  | .verb .index => ["<FILE>"]
  | .help => ["[COMMAND]..."]

/-- What a usage line tells of options. -/
def Usage.options (usage : Usage) : List String :=
  match usage.given, usage.scope with
  | some options, _ => options.eraseDups.map Opt.shown
  | none, .verb _ => ["[OPTIONS]"]
  | none, _ => []

def Usage.line (usage : Usage) : String :=
  "Usage: " ++ " ".intercalate (usage.scope.call :: (usage.options ++ usage.scope.required))

/-- The lists on a page of help: a title, and entries with what they are for. -/
def Scope.sections : Scope → List (String × List (String × String))
  | .top =>
    [("Commands", [("serve", Scope.about (.verb .serve)), ("index", Scope.about (.verb .index)),
        ("help ", Scope.about .help)]),
      ("Options", [("-h, --help", "Print help")])]
  | .verb .serve =>
    [("Options",
      [("    --log-level <LOG_LEVEL>",
          "Log filter directive, overridden by RUST_LOG [default: " ++ defaultLogLevel ++ "]"),
        ("-h, --help                 ", "Print help")])]
  | .verb .index =>
    [("Arguments", [("<FILE>", "")]),
      ("Options", [("    --json", "Print every symbol, built-ins included, as JSON"), ("-h, --help", "Print help")])]
  | .help => [("Arguments", [("[COMMAND]...", "Print help for the subcommand(s)")])]

/-- A page of help. -/
def Scope.page (scope : Scope) : String :=
  scope.about ++ "\n\n" ++ Usage.line ⟨scope, none⟩ ++ "\n" ++
    String.join (scope.sections.map fun (title, entries) =>
      "\n" ++ title ++ ":\n" ++ String.join (entries.map fun (entry, purpose) => "  " ++ entry ++ "  " ++ purpose ++ "\n"))

def inQuotes (s : String) : String := "'" ++ s ++ "'"

/-- The text of a tip about an argument. -/
def Tip.text (argument : String) : Tip → String
  | .asValue => "to pass " ++ inQuotes argument ++ " as a value, use " ++ inQuotes ("-- " ++ argument)
  | .option name => "a similar argument exists: " ++ inQuotes ("--" ++ name)
  | .optionOf verb name => inQuotes (verb.name ++ " --" ++ name) ++ " exists"
  | .commands [name] => "a similar subcommand exists: " ++ inQuotes name
  | .commands names => "some similar subcommands exist: " ++ ", ".intercalate (names.map inQuotes)
  | .withoutSeparator => "subcommand " ++ inQuotes argument ++ " exists; to use it, remove the '--' before it"

/-- What is wrong, then a tip, then a usage line, then where to learn more, unless it is wrong with a
question for help. -/
def complaint (wrong : String) (tip : Option String) (usage : Option Usage) : String :=
  "error: " ++ wrong ++ "\n" ++
    (match tip with
    | some tip => "\n  tip: " ++ tip ++ "\n"
    | none => "") ++
    (match usage with
    | some usage => "\n" ++ usage.line ++ "\n"
    | none => "") ++
    (if usage.any fun usage => usage.scope = .help then "" else "\nFor more information, try '--help'.\n")

/-- The text of what is wrong with a command line. -/
def UsageError.message : UsageError → String
  | .noCommand => Scope.page .top
  | .unknownCommand word tip usage =>
    complaint ("unrecognized subcommand " ++ inQuotes word) (tip.map (Tip.text word)) usage
  | .unexpected argument tip usage =>
    complaint ("unexpected argument " ++ inQuotes argument ++ " found") (tip.map (Tip.text argument)) usage
  | .repeated option usage =>
    complaint ("the argument " ++ inQuotes option.shown ++ " cannot be used multiple times") none usage
  | .missingFile usage => complaint "the following required arguments were not provided:\n  <FILE>" none usage
  | .missingValue place =>
    complaint ("a value is required for " ++ inQuotes place ++ " but none was supplied") none none
  | .extraValue value option usage =>
    complaint ("unexpected value " ++ inQuotes value ++ " for " ++ inQuotes option.shown ++
      " found; no more were expected") none usage

end GibianeEditor.CommandLine
