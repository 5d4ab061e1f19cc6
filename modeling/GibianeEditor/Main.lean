/-
The program on a real console: it hands over arguments, files and input, and writes what comes back.
A server reads no further than to the end of the message it waits for.
-/
import GibianeEditor.Program

namespace GibianeEditor.Main

open Protocol (Reading)

/-- The cause behind a failed access to a file, where it has a name of its own. -/
def readError : IO.Error → ReadError
  | .noFileOrDirectory .. => .notFound
  | .inappropriateType _ code _ => if code = 21 then .isADirectory else .notADirectory
  | .invalidArgument .. => .nameTooLong
  | .permissionDenied .. => .other "Permission denied (os error 13)"
  | e => .other (toString e)

/-- The text of a file. -/
def readFile (path : String) : IO (Except ReadError Text) := do
  try
    return decodeFile (← IO.FS.readBinFile path).toList
  catch e =>
    return .error (readError e)

def deliver (output errors : IO.FS.Stream) : Delivery → IO Unit
  | .toClient m => do
    output.putStr m.frame
    output.flush
  | .toConsole line => errors.putStrLn line

/-- Serves what comes in, and gives the ending. -/
partial def serve (input output errors : IO.FS.Stream) (service : Service) (bytes : List UInt8) : IO Ending := do
  match service.server.stage, Reading.read bytes with
  | .ended ending, _ => return ending
  | _, .message m rest =>
    let (service, deliveries) := service.receive m
    deliveries.forM (deliver output errors)
    if m.isLast then return service.server.ending
    serve input output errors service rest
  | _, .more count =>
    let chunk ← input.read count.toUSize
    if chunk.isEmpty then return service.server.ending
    serve input output errors service (bytes ++ chunk.toList)
  | _, .broken => return service.server.ending

def finish (outcome : Outcome) : IO UInt32 := do
  (← IO.getStdout).putStr outcome.output
  (← IO.getStderr).putStr outcome.errors
  return outcome.exitCode.toUInt32

/-- Runs a command line. -/
def run (args : List String) : IO UInt32 := do
  match CommandLine.read args with
  | .error e => finish (Program.refused e)
  | .ok (.help page) => finish (Program.help page)
  | .ok (.run (.index file json)) => finish (Program.index file json (← readFile file))
  | .ok (.run (.serve logLevel)) =>
    let logFilter ← IO.getEnv "RUST_LOG"
    match Log.Filter.choose (logFilter.map String.toList) logLevel.toList with
    | .error e => finish (Program.refusedFilter e)
    | .ok filter =>
      let ending ← serve (← IO.getStdin) (← IO.getStdout) (← IO.getStderr) (.new filter) []
      finish (Program.ended ending)

end GibianeEditor.Main

def main (args : List String) : IO UInt32 := GibianeEditor.Main.run args
