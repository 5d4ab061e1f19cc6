/-
References to resources by the generic URI grammar: absolute or relative, ASCII only. They are
compared and shown as they were written; a document takes its path from the path component, which
stays percent-encoded.
-/
import GibianeEditor.Uri.Host

namespace GibianeEditor

/-- A reference with its path component. -/
structure Uri where
  text : String
  path : String
  deriving DecidableEq

namespace Uri

/-- ASCII letters. -/
def isLetter (c : Char) : Bool := ('a' ≤ c && c ≤ 'z') || ('A' ≤ c && c ≤ 'Z')

/-- Characters that have no meaning of their own anywhere, and those that the parts of a reference
may give one. -/
def isPlain (c : Char) : Bool := isLetter c || c.isDigit || "-._~!$&'()*+,;=".toList.contains c

def isSchemeChar (c : Char) : Bool := isLetter c || c.isDigit || c == '+' || c == '-' || c == '.'

def isUserChar (c : Char) : Bool := isPlain c || c == ':'

def isPathChar (c : Char) : Bool := isPlain c || c == ':' || c == '@' || c == '/'

def isQueryChar (c : Char) : Bool := isPathChar c || c == '?'

/-- Whether all characters are allowed, but for `%` with two hexadecimal digits behind it. -/
def encoded (allowed : Char → Bool) : List Char → Bool
  | [] => true
  | '%' :: a :: b :: cs => isHexDigit a && isHexDigit b && encoded allowed cs
  | c :: cs => c != '%' && allowed c && encoded allowed cs

/-- The text before the first of the separators, and what follows with the separator in front. -/
def cutBefore (separators : List Char) (cs : List Char) : List Char × List Char :=
  cs.span fun c => !separators.contains c

def isScheme (cs : List Char) : Bool := (cs.head?.map isLetter).getD false && cs.all isSchemeChar

/-- Nothing, or a colon and digits, if any. -/
def isPort : List Char → Bool
  | [] => true
  | c :: cs => c == ':' && cs.all Char.isDigit

/-- A host, with or without a port. -/
def isHostPort : List Char → Bool
  | '[' :: cs =>
    match cutBefore [']'] cs with
    | (address, ']' :: port) => isVersion6 address && isPort port
    | _ => false
  | cs =>
    let (host, port) := cutBefore [':'] cs
    encoded isPlain host && isPort port

/-- A host and a port, with or without a user before them. -/
def isAuthority (cs : List Char) : Bool :=
  match cutBefore ['@'] cs with
  | (user, '@' :: rest) => encoded isUserChar user && isHostPort rest
  | _ => isHostPort cs

/-- Nothing, or a character and what it introduces. -/
def isTail : List Char → Bool
  | [] => true
  | _ :: cs => encoded isQueryChar cs

/-- The path component of the part between the scheme and the query. -/
def path? : List Char → Option (List Char)
  | '/' :: '/' :: cs =>
    let (authority, path) := cutBefore ['/'] cs
    if isAuthority authority && encoded isPathChar path then some path else none
  | path => if encoded isPathChar path then some path else none

/-- The part behind the scheme, if there is one. A colon in the first segment ends a scheme, so it
may stand there for nothing else. -/
def withoutScheme? (cs : List Char) : Option (List Char) :=
  match cutBefore [':', '/', '?', '#'] cs with
  | (scheme, ':' :: rest) => if isScheme scheme then some rest else none
  | _ => some cs

/-- The reference that a text writes. -/
def parse? (text : String) : Option Uri := do
  let rest ← withoutScheme? text.toList
  let (rest, fragment) := cutBefore ['#'] rest
  let (rest, query) := cutBefore ['?'] rest
  let path ← path? rest
  if isTail query && isTail fragment then some ⟨text, String.ofList path⟩ else none

end Uri
end GibianeEditor
