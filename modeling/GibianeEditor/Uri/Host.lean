/-
Hosts in brackets: addresses of the Internet Protocol, version 6, as eight groups of hexadecimal
digits. One `::` may stand for groups of zeros, and the last two groups may be written as an address
of version 4.
-/
namespace GibianeEditor.Uri

def isHexDigit (c : Char) : Bool := c.isDigit || ('a' ≤ c && c ≤ 'f') || ('A' ≤ c && c ≤ 'F')

/-- The pieces between the separators, at least one. -/
def pieces (separator : Char) : List Char → List (List Char)
  | [] => [[]]
  | c :: cs => if c = separator then [] :: pieces separator cs else (pieces separator cs).modifyHead (c :: ·)

/-- A group of an address: one to four hexadecimal digits. -/
def isGroup (cs : List Char) : Bool := !cs.isEmpty && cs.length ≤ 4 && cs.all isHexDigit

/-- A number below 256 without needless zeros. -/
def isOctet (cs : List Char) : Bool :=
  !cs.isEmpty && cs.length ≤ 3 && cs.all Char.isDigit && (cs.length == 1 || cs.head? != some '0') &&
    cs.foldl (fun n d => 10 * n + (d.toNat - '0'.toNat)) 0 < 256

/-- An address of version 4. -/
def isVersion4 (cs : List Char) : Bool :=
  let octets := pieces '.' cs
  octets.length == 4 && octets.all isOctet

/-- How many groups the pieces are, if all are groups; at the end of the address the last may be an
address of version 4, which is two. -/
def countGroups (atEnd : Bool) : List (List Char) → Option Nat
  | [] => some 0
  | [last] => if isGroup last then some 1 else if atEnd && isVersion4 last then some 2 else none
  | group :: rest => if isGroup group then (countGroups atEnd rest).map (· + 1) else none

/-- How many groups stand on one side of `::`, where there may be none. -/
def countSide (atEnd : Bool) (cs : List Char) : Option Nat :=
  if cs.isEmpty then some 0 else countGroups atEnd (pieces ':' cs)

/-- The text before and behind the first `::`. -/
def cutAtGap : List Char → Option (List Char × List Char)
  | ':' :: ':' :: cs => some ([], cs)
  | c :: cs => (cutAtGap cs).map fun (before, behind) => (c :: before, behind)
  | [] => none

/-- An address of version 6. -/
def isVersion6 (cs : List Char) : Bool :=
  match cutAtGap cs with
  | none => countGroups true (pieces ':' cs) == some 8
  | some (before, behind) =>
    match countSide false before, countSide true behind with
    | some m, some n => m + n ≤ 7
    | _, _ => false

end GibianeEditor.Uri
