/-
Statements, read token by token over as many lines as they take, up to `;`. The names before the
first `=` are declared by it, but for those behind a point (`T . I = 3;` assigns into `T`). `DEBP`,
or a longer spelling of `DEBPROC`, at the start of a statement declares the name behind it at once,
and counts as a name itself should an `=` follow. The comment block right above the line where a
statement starts describes what it declares.
-/
import GibianeEditor.Source.Line

namespace GibianeEditor.Source

/-- The spellings of the operator that opens a procedure. -/
def procedureKeywords : List Text := ["DEBP".toList, "DEBPR".toList, "DEBPRO".toList, "DEBPROC".toList]

/-- A site that declares its name, with the description the name gets there. -/
structure Declaring where
  site : Site
  description : Text
  deriving DecidableEq

/-- A statement before its first `=`. -/
structure Header where
  description : Text
  /-- The names that an `=` would declare. -/
  names : List Site
  /-- Whether a point was read behind a name: the names that follow are indices. -/
  indexed : Bool
  /-- Whether the next name is that of a procedure. -/
  awaitsProcedure : Bool
  deriving DecidableEq

/-- Where reading stands. -/
inductive Phase where
  /-- Before a statement, below the comments of an unbroken block. -/
  | between (remarks : List Text)
  | header (statement : Header)
  /-- Behind the first `=`, where no name is declared any more. -/
  | body
  deriving DecidableEq

/-- A statement of which nothing is read yet. -/
def Header.opening (remarks : List Text) : Header := ⟨List.intercalate ['\n'] remarks, [], false, false⟩

/-- The next token of a statement before its first `=`: where reading stands then, and what the
token declares. -/
def Header.read (header : Header) : Token → Phase × List Declaring
  | .name site =>
    if header.awaitsProcedure then
      (.header { header with awaitsProcedure := false }, [⟨site, header.description⟩])
    else if header.names.isEmpty && procedureKeywords.contains site.name.letters then
      (.header { header with names := [site], awaitsProcedure := true }, [])
    else if header.indexed then (.header header, [])
    else (.header { header with names := header.names ++ [site] }, [])
  | .assign => (.body, header.names.map (⟨·, header.description⟩))
  | .dot => (.header { header with indexed := header.indexed || !header.names.isEmpty }, [])
  | .stop => (.between [], [])
  | .other => (.header header, [])

/-- The next token. -/
def Phase.read : Phase → Token → Phase × List Declaring
  | .between _, .stop => (.between [], [])
  | .between remarks, token => (Header.opening remarks).read token
  | .header statement, token => statement.read token
  | .body, .stop => (.between [], [])
  | .body, _ => (.body, [])

/-- The next tokens. -/
def Phase.readAll : Phase → List Token → Phase × List Declaring
  | phase, [] => (phase, [])
  | phase, token :: tokens =>
    let (phase, first) := phase.read token
    let (phase, rest) := phase.readAll tokens
    (phase, first ++ rest)

/-- The next line. Comments and blank lines inside a statement mean nothing; between statements a
comment lengthens the block, unless it is empty, and a blank line breaks it. -/
def Phase.readLine : Phase → Line → Phase × List Declaring
  | phase, .code tokens => phase.readAll tokens
  | .between remarks, .comment remark => (.between (if remark.isEmpty then remarks else remarks ++ [remark]), [])
  | .between _, .blank => (.between [], [])
  | phase, _ => (phase, [])

/-- What lines declare, in the order of reading. -/
def declarings : Phase → List Line → List Declaring
  | _, [] => []
  | phase, line :: rest => (phase.readLine line).2 ++ declarings (phase.readLine line).1 rest

end GibianeEditor.Source
