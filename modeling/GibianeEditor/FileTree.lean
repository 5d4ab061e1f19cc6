/-
The files in the directory where the program runs, and what comes of reading the file that a path
names. A path is walked name by name: a file has nothing below it, and a directory is there if a
file lies in it.
-/
import GibianeEditor.Text.Encoding
import GibianeEditor.Text.Pieces

namespace GibianeEditor

/-- Why a file cannot be read. -/
inductive ReadError where
  | notFound
  | notADirectory
  | isADirectory
  | nameTooLong
  | nulInPath
  | notText
  /-- Any other cause, in the words of the system. -/
  | other (text : String)
  deriving DecidableEq, Repr

def ReadError.message : ReadError → String
  | .notFound => "No such file or directory (os error 2)"
  | .notADirectory => "Not a directory (os error 20)"
  | .isADirectory => "Is a directory (os error 21)"
  | .nameTooLong => "File name too long (os error 36)"
  | .nulInPath => "file name contained an unexpected NUL byte"
  | .notText => "stream did not contain valid UTF-8"
  | .other text => text

/-- Files with the names of the directories on the way to each and its own. -/
structure FileTree where
  files : List (List Text × List UInt8)

/-- The names on a path. -/
def namesOn (path : Text) : List Text := (path.pieces '/').filter fun name => !name.isEmpty && name ≠ ['.']

namespace FileTree

/-- The tree with a file added. -/
def insert (tree : FileTree) (path : String) (content : List UInt8) : FileTree :=
  ⟨tree.files ++ [(namesOn path.toList, content)]⟩

def file? (tree : FileTree) (names : List Text) : Option (List UInt8) :=
  (tree.files.find? fun f => f.1 = names).map Prod.snd

def isDirectory (tree : FileTree) (names : List Text) : Bool :=
  names.isEmpty || tree.files.any fun f => names.isPrefixOf f.1 && names.length < f.1.length

/-- The most bytes a path can have, and a name on it. -/
def longestPath : Nat := 4095

def longestName : Nat := 255

/-- The file that the pieces of a path lead to from a directory. Outside of the tree, where the path
stands without a directory, there is nothing but directories without names. -/
def walk (tree : FileTree) (directory : Option (List Text)) : List Text → Except ReadError (List UInt8)
  | [] => .error .isADirectory
  | piece :: rest =>
    if piece.isEmpty || piece = ['.'] then walk tree directory rest
    else if piece = ['.', '.'] then
      walk tree (directory.bind fun names => if names.isEmpty then none else some names.dropLast) rest
    else if longestName < piece.bytes then .error .nameTooLong
    else
      match directory with
      | none => .error .notFound
      | some names =>
        match tree.file? (names ++ [piece]) with
        | some content => if rest.isEmpty then .ok content else .error .notADirectory
        | none =>
          if tree.isDirectory (names ++ [piece]) then walk tree (some (names ++ [piece])) rest
          else .error .notFound

/-- The bytes of the file that a path names. -/
def bytes (tree : FileTree) (path : Text) : Except ReadError (List UInt8) :=
  if path.contains '\x00' then .error .nulInPath
  else if longestPath < path.bytes then .error .nameTooLong
  else tree.walk (if path.head? = some '/' then none else some []) (path.pieces '/')

end FileTree

/-- The text in bytes that were read. -/
def decodeFile (bytes : List UInt8) : Except ReadError Text :=
  match Text.ofBytes? bytes with
  | some t => .ok t
  | none => .error .notText

/-- The text of the file that a path names. -/
def FileTree.read (tree : FileTree) (path : String) : Except ReadError Text := do
  decodeFile (← tree.bytes path.toList)

end GibianeEditor
