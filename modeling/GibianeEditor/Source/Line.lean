/-
A document as the lines of source it holds. Here only a line feed ends a line. A line that starts
with `*` is a comment; of any other line that is not blank the tokens count, each name with its
place in the document.
-/
import GibianeEditor.Name
import GibianeEditor.Source.Lexeme

namespace GibianeEditor.Source

/-- A name written at a place. -/
structure Site where
  name : Name
  span : Span
  deriving DecidableEq

/-- What a statement is made of. Strings, numbers and marks are all `other`. -/
inductive Token where
  | name (site : Site)
  | assign
  | dot
  | stop
  | other
  deriving DecidableEq

/-- What a line says. -/
inductive Line where
  /-- The text of a comment, without its stars and without white space around it. -/
  | comment (remark : Text)
  | blank
  | code (tokens : List Token)
  deriving DecidableEq

/-- The lines of a text, each with the line feed that ends it. -/
def rawLines : Text → List Text
  | [] => []
  | c :: t =>
    if c = '\n' then [c] :: rawLines t
    else
      match rawLines t with
      | [] => [[c]]
      | line :: lines => (c :: line) :: lines

/-- A line without the line feeds and carriage returns at its end. -/
def rawContent (line : Text) : Text := (line.reverse.dropWhile fun c => c == '\n' || c == '\r').reverse

/-- The tokens of lexemes that start at a byte offset. -/
def tokensFrom : Nat → List Lexeme → List Token
  | _, [] => []
  | offset, lexeme :: rest =>
    let next := offset + Text.bytes lexeme.text
    match lexeme.kind with
    | .blank => tokensFrom next rest
    | .name => .name ⟨Name.of lexeme.text, ⟨offset, next⟩⟩ :: tokensFrom next rest
    | .assign => .assign :: tokensFrom next rest
    | .dot => .dot :: tokensFrom next rest
    | .stop => .stop :: tokensFrom next rest
    | .number | .quoted | .mark => .other :: tokensFrom next rest

/-- What the content of a line that starts at a byte offset says. -/
def Line.read (offset : Nat) (content : Text) : Line :=
  if content.head? = some '*' then .comment (Unicode.trim (content.dropWhile (· == '*')))
  else if content.all Unicode.isWhiteSpace then .blank
  else .code (tokensFrom offset (lexemes content))

/-- The lines that start at a byte offset, one after the other. -/
def linesFrom : Nat → List Text → List Line
  | _, [] => []
  | offset, line :: rest => Line.read offset (rawContent line) :: linesFrom (offset + line.bytes) rest

/-- The lines of source of a document. -/
def lines (t : Text) : List Line := linesFrom 0 (rawLines t)

/-- The places of names in a line. -/
def Line.sites : Line → List Site
  | .code tokens => tokens.filterMap fun token => match token with
    | .name site => some site
    | _ => none
  | _ => []

/-- The lines hold the whole text. -/
theorem flatten_rawLines (t : Text) : (rawLines t).flatten = t := by
  induction t with
  | nil => rfl
  | cons c t ih =>
    unfold rawLines
    split
    · simp [ih]
    · split <;> simp_all

end GibianeEditor.Source
