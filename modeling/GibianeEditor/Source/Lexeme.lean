/-
A line of code as a sequence of lexemes. Nothing of the line is lost: the lexemes in a row are the
line again (`flatMap_text_lexemes`), so where one stands follows from the lengths of those before it.
-/
import GibianeEditor.Text.Word
import GibianeEditor.Unicode.WhiteSpace

namespace GibianeEditor.Source

/-- Kinds of lexemes. -/
inductive Kind where
  | blank
  /-- A letter or an underscore, then letters, digits and underscores. -/
  | name
  /-- An ASCII digit, then letters, digits and points: the `E3` of `1.5E3` is no name. -/
  | number
  /-- From a quote to the next, or to the end of the line. -/
  | quoted
  /-- `=` -/
  | assign
  /-- `.` -/
  | dot
  /-- `;` -/
  | stop
  /-- Any other character. -/
  | mark
  deriving DecidableEq, Repr

/-- A stretch of a line with its kind. -/
structure Lexeme where
  kind : Kind
  text : Text
  deriving DecidableEq, Repr

/-- Whether a character may start a name. -/
def isNameStart (c : Char) : Bool := Unicode.isAlphabetic c || c == '_'

/-- Whether a character may stand behind the first digit of a number. -/
def isNumberPart (c : Char) : Bool := Unicode.isAlphabetic c || Unicode.isNumeric c || c == '.'

/-- The kind of the lexeme that a character starts. -/
def kindOf (c : Char) : Kind :=
  if c = '\'' then .quoted
  else if c = ';' then .stop
  else if c = '=' then .assign
  else if c = '.' then .dot
  else if isNameStart c then .name
  else if c.isDigit then .number
  else if Unicode.isWhiteSpace c then .blank
  else .mark

/-- The text behind an opening quote up to the closing one, and what follows. -/
def cutQuoted : Text → Text × Text
  | [] => ([], [])
  | c :: t => if c = '\'' then ([c], t) else ((c :: (cutQuoted t).1), (cutQuoted t).2)

/-- How a lexeme goes on behind its first character: what belongs to it, and what follows. -/
def extend (kind : Kind) (rest : Text) : Text × Text :=
  match kind with
  | .name => (rest.takeWhile isWordChar, rest.dropWhile isWordChar)
  | .number => (rest.takeWhile isNumberPart, rest.dropWhile isNumberPart)
  | .quoted => cutQuoted rest
  | _ => ([], rest)

theorem cutQuoted_append (t : Text) : (cutQuoted t).1 ++ (cutQuoted t).2 = t := by
  induction t with
  | nil => rfl
  | cons c t ih => by_cases h : c = '\'' <;> simp [cutQuoted, h, ih]

theorem extend_append (kind : Kind) (rest : Text) : (extend kind rest).1 ++ (extend kind rest).2 = rest := by
  cases kind <;> simp [extend, cutQuoted_append, List.takeWhile_append_dropWhile]

theorem length_extend_le (kind : Kind) (rest : Text) : (extend kind rest).2.length ≤ rest.length := by
  have h := congrArg List.length (extend_append kind rest)
  simp only [List.length_append] at h
  omega

/-- The lexemes of a line. -/
def lexemes : Text → List Lexeme
  | [] => []
  | c :: t => ⟨kindOf c, c :: (extend (kindOf c) t).1⟩ :: lexemes (extend (kindOf c) t).2
termination_by t => t.length
decreasing_by
  have := length_extend_le (kindOf c) t
  simp only [List.length_cons]
  omega

/-- The lexemes of a line are the line. -/
theorem flatMap_text_lexemes (t : Text) : (lexemes t).flatMap Lexeme.text = t := by
  fun_induction lexemes t with
  | case1 => rfl
  | case2 c t ih => simp [ih, extend_append]

end GibianeEditor.Source
