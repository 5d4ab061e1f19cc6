/-
The program as a whole: what it writes, and the code it exits with, given its arguments, the log
filter of its surroundings, a way to read files, and its input.
-/
import GibianeEditor.CommandLine.Help
import GibianeEditor.CommandLine.Reader
import GibianeEditor.FileTree
import GibianeEditor.Json.Printer
import GibianeEditor.Protocol.Frame
import GibianeEditor.Session.Service
import GibianeEditor.Symbol.Json
import GibianeEditor.Symbol.Listing

namespace GibianeEditor

open CommandLine (Request UsageError)
open Log (Filter)
open Protocol (Message)

/-- What a run of the program leaves behind. -/
structure Outcome where
  exitCode : Nat
  output : String
  errors : String
  deriving DecidableEq, Repr

namespace Program

/-- What is printed about the document at a path: its variables under its path, or all its symbols
as JSON. -/
def report (path : String) (json : Bool) (document : Text) : String :=
  let table := SymbolTable.ofText document path
  if json then table.toJson.pretty ++ "\n"
  else "=== " ++ path ++ " ===\n" ++ String.ofList table.listing ++ "\n"

/-- What is said of a file that cannot be read. -/
def unreadable (path : String) (error : ReadError) : String := "cannot read " ++ path ++ ": " ++ error.message

/-- The run that prints what is in a file. -/
def index (path : String) (json : Bool) (document : Except ReadError Text) : Outcome :=
  match document with
  | .ok t => ⟨0, report path json t, ""⟩
  | .error e => ⟨1, "", "Error: " ++ unreadable path e ++ "\n"⟩

/-- The last line of a server that did not end as asked for. -/
def serverError (reason : String) : String := "LSP server error: " ++ reason

/-- A server from its first message to its last: what it delivered and how it ended. -/
structure Served where
  deliveries : List Delivery
  ending : Ending

/-- The run of a server on a stream of messages. -/
def serve (filter : Filter) (input : List UInt8) : Served :=
  let (service, deliveries) := (Service.new filter).receiveAll (Message.readAll input)
  ⟨deliveries, service.server.ending⟩

/-- What is left behind at the end of a server, apart from what it delivered. -/
def ended (ending : Ending) : Outcome :=
  match ending.error? with
  | none => ⟨0, "", ""⟩
  | some reason => ⟨1, "", serverError reason ++ "\n"⟩

/-- What a server leaves behind. -/
def Served.outcome (served : Served) : Outcome :=
  let last := ended served.ending
  ⟨last.exitCode, String.join ((Delivery.messages served.deliveries).map Message.frame),
    String.join ((Delivery.lines served.deliveries).map (· ++ "\n")) ++ last.errors⟩

/-- The run that shows a page of help. -/
def help (page : CommandLine.Scope) : Outcome := ⟨0, page.page, ""⟩

/-- What is left behind where the filter for the log cannot be read. -/
def refusedFilter (e : Log.FilterError) : Outcome := ⟨1, "", serverError e.message ++ "\n"⟩

/-- What is left behind where the command line is refused. -/
def refused (e : UsageError) : Outcome := ⟨2, "", e.message⟩

/-- The run of the program. -/
def run (args : List String) (logFilter : Option String) (readFile : String → Except ReadError Text)
    (input : List UInt8) : Outcome :=
  match CommandLine.read args with
  | .error e => refused e
  | .ok (.help page) => help page
  | .ok (.run (.index file json)) => index file json (readFile file)
  | .ok (.run (.serve logLevel)) =>
    match Filter.choose (logFilter.map String.toList) logLevel.toList with
    | .error e => refusedFilter e
    | .ok filter => (serve filter input).outcome

end Program
end GibianeEditor
