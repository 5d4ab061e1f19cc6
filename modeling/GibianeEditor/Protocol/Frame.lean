/-
Messages in a stream of bytes. A message is written behind a header: lines that end in carriage
return and line feed, up to an empty one, each with a name, a colon with a blank, and a value. One of
them gives the length of what follows in bytes. Reading takes whole messages from the front of the
stream, and what is left is shorter (`length_lt_of_read`).
-/
import GibianeEditor.Json.Parser
import GibianeEditor.Json.Printer
import GibianeEditor.Protocol.Message
import GibianeEditor.Text.Encoding
import GibianeEditor.Text.Pieces

namespace GibianeEditor.Protocol

/-- The name of the header line that gives the length. -/
def lengthName : String := "Content-Length"

/-! ## Writing -/

/-- A message as it stands in the stream. -/
def Message.frame (m : Message) : String :=
  let body := (Json.obj (("jsonrpc", .str "2.0") :: m.members)).compact
  lengthName ++ ": " ++ toString body.utf8ByteSize ++ "\r\n\r\n" ++ body

/-! ## Reading -/

/-- What the front of a stream holds. -/
inductive Reading where
  | message (m : Message) (rest : List UInt8)
  /-- The beginning of a message, which lacks so many bytes at least. -/
  | more (count : Nat)
  /-- No message. -/
  | broken

/-- The bytes before the first line feed, and those behind it. -/
def cutLine? : List UInt8 → Option (List UInt8 × List UInt8)
  | [] => none
  | b :: bytes => if b = 10 then some ([], bytes) else (cutLine? bytes).map fun (line, rest) => (b :: line, rest)

theorem length_lt_of_cutLine? {bytes line rest : List UInt8} (h : cutLine? bytes = some (line, rest)) :
    rest.length < bytes.length := by
  induction bytes generalizing line with
  | nil => simp [cutLine?] at h
  | cons b bytes ih =>
    by_cases hb : b = 10
    · simp only [cutLine?, hb, if_true, Option.some.injEq, Prod.mk.injEq] at h
      simp [h.2]
    · simp only [cutLine?, hb, if_false, Option.map_eq_some_iff] at h
      obtain ⟨⟨first, more⟩, h, e⟩ := h
      simp only [Prod.mk.injEq] at e
      obtain ⟨-, rfl⟩ := e
      have := ih h
      simp only [List.length_cons]
      omega

/-- The text of a header line; before its line feed has to stand a carriage return. -/
def headerText? (line : List UInt8) : Option Text :=
  match line.reverse with
  | 13 :: rest => Text.ofBytes? rest.reverse
  | _ => none

/-- The name and the value of a header line. -/
def headerField? : Text → Option (Text × Text)
  | [] => none
  | ':' :: ' ' :: value => some ([], value)
  | c :: t => (headerField? t).map fun (name, value) => (c :: name, value)

/-- Whether a header line gives the length, however its letters are cased. -/
def isLengthName (name : Text) : Bool := name.map Char.toLower == lengthName.toList.map Char.toLower

/-- A length that fits 64 bits. -/
def readLength? (value : Text) : Option Nat := value.natural?.filter (· ≤ 0xFFFFFFFFFFFFFFFF)

/-- What a header says: the last length it gives, and what stands behind it. -/
inductive Header where
  | length (count : Nat) (rest : List UInt8)
  | unfinished
  | broken

/-- The header at the front of a stream, given the length found so far. -/
def Header.read (found : Option Nat) (bytes : List UInt8) : Header :=
  match h : cutLine? bytes with
  | none => .unfinished
  | some (line, rest) =>
    have := length_lt_of_cutLine? h
    match headerText? line with
    | none => .broken
    | some [] =>
      match found with
      | none => .broken
      | some count => .length count rest
    | some text =>
      match headerField? text with
      | none => .broken
      | some (name, value) =>
        if isLengthName name then
          match readLength? value with
          | none => .broken
          | some count => read (some count) rest
        else read found rest
termination_by bytes.length

theorem length_lt_of_header {found : Option Nat} {bytes rest : List UInt8} {count : Nat}
    (h : Header.read found bytes = .length count rest) : rest.length < bytes.length := by
  fun_induction Header.read found bytes <;> simp_all <;> omega

/-- The message that a body writes. -/
def Message.ofBody? (body : List UInt8) : Option Message :=
  (Text.ofBytes? body).bind fun text => (Json.parse? text).bind Message.read?

/-- The front of a stream. -/
def Reading.read (bytes : List UInt8) : Reading :=
  match Header.read none bytes with
  | .unfinished => .more 1
  | .broken => .broken
  | .length count rest =>
    if rest.length < count then .more (count - rest.length)
    else
      match Message.ofBody? (rest.take count) with
      | some m => .message m (rest.drop count)
      | none => .broken

theorem length_lt_of_read {bytes rest : List UInt8} {m : Message} (h : Reading.read bytes = .message m rest) :
    rest.length < bytes.length := by
  unfold Reading.read at h
  split at h
  · simp at h
  · simp at h
  · rename_i count more hheader
    have := length_lt_of_header hheader
    split at h
    · simp at h
    · split at h
      · simp only [Reading.message.injEq] at h
        rw [← h.2, List.length_drop]
        omega
      · simp at h

/-- Whether nothing is read behind a message. -/
def Message.isLast : Message → Bool
  | .notification n => n.method == "exit"
  | _ => false

/-- All messages of a stream, up to its end, to the first thing that is no message, or to the last
message. -/
def Message.readAll (bytes : List UInt8) : List Message :=
  match h : Reading.read bytes with
  | .message m rest =>
    have := length_lt_of_read h
    if m.isLast then [m] else m :: readAll rest
  | _ => []
termination_by bytes.length

end GibianeEditor.Protocol
