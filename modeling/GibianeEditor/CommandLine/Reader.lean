/-
Reading the command line. Arguments are taken one after another. A value is checked only when the
next option is taken or the arguments end, so an unknown argument behind an empty value is what is
complained about.
-/
import GibianeEditor.CommandLine.Basic
import GibianeEditor.Text.Pieces
import GibianeEditor.Text.Similarity

namespace GibianeEditor.CommandLine

/-- An argument by its dashes. -/
inductive Word where
  /-- Two dashes alone, behind which every argument is a value. -/
  | separator
  | long (name : String) (value : Option String)
  | short (letter : Char)
  | plain
  deriving DecidableEq, Repr

def Word.of (argument : String) : Word :=
  match argument.toList with
  | ['-', '-'] => .separator
  | '-' :: '-' :: t =>
    match Text.cutAt? '=' t with
    | some (name, value) => .long (String.ofList name) (some (String.ofList value))
    | none => .long (String.ofList t) none
  | '-' :: c :: _ => .short c
  | _ => .plain

/-- The option of a part that a name names. -/
def Scope.option? (scope : Scope) (name : String) : Option Opt := scope.options.find? fun o => o.name = name

/-- The names of options of a part that are like a name. -/
def Scope.similarOptions (scope : Scope) (name : String) : List String :=
  Text.similar name (scope.options.map Opt.name)

/-- The command that a word names. -/
def verb? (word : String) : Option Verb := (verbWords.find? fun entry => entry.1 = word).map Prod.snd

/-! ## Behind a command -/

/-- A value that is not checked yet. -/
inductive Pending where
  | nothing
  | file (path : String)
  /-- The value of the option for the log level, if it has come. -/
  | logLevel (value : Option String)
  deriving DecidableEq, Repr

/-- What is read behind the name of a command. -/
structure Progress where
  verb : Verb
  /-- The options taken, in order. -/
  given : List Opt
  file : Option String
  logLevel : Option String
  pending : Pending
  deriving DecidableEq, Repr

namespace Progress

def start (verb : Verb) : Progress := ⟨verb, [], none, none, .nothing⟩

/-- All that can stand behind the command. -/
def usage (p : Progress) : Usage := ⟨.verb p.verb, none⟩

/-- The options given, and one more. -/
def usageWith (p : Progress) (more : List Opt) : Usage := ⟨.verb p.verb, some (p.given ++ more)⟩

/-- Takes an option, which must not be taken yet. -/
def take (p : Progress) (option : Opt) : Except UsageError Progress :=
  if option ∈ p.given then .error (.repeated option p.usage) else .ok { p with given := p.given ++ [option] }

def takeLogLevel (p : Progress) (value : String) : Except UsageError Progress := do
  let p ← p.take .logLevel
  return { p with logLevel := some value }

/-- Checks the value that is pending. -/
def settle (p : Progress) : Except UsageError Progress :=
  match p.pending with
  | .nothing => .ok p
  | .file path =>
    if path.isEmpty then .error (.missingValue "<FILE>")
    else .ok { p with file := some path, pending := .nothing }
  | .logLevel none => .error (.missingValue Opt.logLevel.shown)
  | .logLevel (some value) => { p with pending := .nothing }.takeLogLevel value

/-- Whether the place of the file is filled. -/
def hasFile (p : Progress) : Bool :=
  match p.pending with
  | .file _ => true
  | _ => p.file.isSome

/-- Takes an argument for the file. -/
def takeFile (p : Progress) (argument : String) : Except UsageError Progress :=
  if p.verb = .index ∧ !p.hasFile then .ok { p with pending := .file argument }
  else .error (.unexpected argument none p.usage)

/-- Takes an argument without dashes. -/
def takePlain (p : Progress) (argument : String) : Except UsageError Progress :=
  match p.pending with
  | .logLevel none => .ok { p with pending := .logLevel (some argument) }
  | _ => p.takeFile argument

/-- Takes an option with the value attached to it; none where it asks for help. -/
def takeOption (p : Progress) (option : Opt) (value : Option String) : Except UsageError (Option Progress) :=
  match option, value with
  | .logLevel, none => do return some { ← p.settle with pending := .logLevel none }
  | .logLevel, some value => do return some (← (← p.settle).takeLogLevel value)
  | option, some value => .error (.extraValue value option (p.usageWith [option]))
  | .json, none => do return some (← (← p.settle).take .json)
  | .help, none => do
    let _ ← p.settle
    return none

/-- What is wrong with an argument of two dashes that names no option. -/
def unknownLong (p : Progress) (name : String) : UsageError :=
  let p := p.settle.toOption.getD p
  let argument := "--" ++ name
  match (Scope.similarOptions (.verb p.verb) name).getLast? with
  | some other => .unexpected argument (some (.option other)) (p.usageWith (Scope.option? (.verb p.verb) other).toList)
  | none =>
    .unexpected argument (if p.verb = .index then some .asValue else none)
      (if p.given.isEmpty && !p.hasFile then p.usage else p.usageWith [])

/-- What is wrong with an argument of one dash that names no option. -/
def unknownShort (p : Progress) (letter : Char) : UsageError :=
  .unexpected (String.ofList ['-', letter]) (if p.verb = .index then some .asValue else none) p.usage

/-- What the arguments ask for. -/
def finish (p : Progress) : Except UsageError Request := do
  let p ← p.settle
  match p.verb, p.file with
  | .serve, _ => return .run (.serve (p.logLevel.getD defaultLogLevel))
  | .index, some file => return .run (.index file (p.given.contains .json))
  | .index, none => throw (.missingFile (p.usageWith []))

/-- Reads arguments behind a separator. -/
def readValues (p : Progress) : List String → Except UsageError Request
  | [] => p.finish
  | argument :: rest => do readValues (← p.takeFile argument) rest

/-- Reads arguments. -/
def read (p : Progress) : List String → Except UsageError Request
  | [] => p.finish
  | argument :: rest =>
    match Word.of argument with
    | .separator => p.readValues rest
    | .long name value =>
      match Scope.option? (.verb p.verb) name with
      | none => .error (p.unknownLong name)
      | some option => do
        match ← p.takeOption option value with
        | some p => read p rest
        | none => return .help (.verb p.verb)
    | .short letter => do
      if letter = 'h' then
        let _ ← p.settle
        return .help (.verb p.verb)
      else throw (p.unknownShort letter)
    | .plain => do read (← p.takePlain argument) rest

end Progress

/-! ## Before a command -/

/-- What is wrong with a word that names no command. -/
def unknownCommand (word : String) : UsageError :=
  let names := Text.similar word (verbWords.map Prod.fst ++ ["help"])
  .unknownCommand word (if names.isEmpty then none else some (.commands names)) ⟨.top, none⟩

/-- The first command named in the arguments that has an option like the name. -/
def optionOfLater? (name : String) : List String → Option Tip
  | [] => none
  | argument :: rest =>
    match [Verb.serve, Verb.index].find? fun v => v.name = argument with
    | none => optionOfLater? name rest
    | some v =>
      match (Scope.similarOptions (.verb v) name).getLast? with
      | some other => some (.optionOf v other)
      | none => optionOfLater? name rest

/-- What is wrong with an argument of two dashes that names no option before a command. -/
def unknownLong (name : String) (rest : List String) : UsageError :=
  match (Scope.top.similarOptions name).getLast? with
  | some other => .unexpected ("--" ++ name) (some (.option other)) ⟨.top, some (Scope.top.option? other).toList⟩
  | none => .unexpected ("--" ++ name) (optionOfLater? name rest) ⟨.top, none⟩

/-- The page of help that words name. -/
def readPage (page : Scope) : List String → Except UsageError Request
  | [] => .ok (.help page)
  | word :: rest =>
    let refused : UsageError := .unknownCommand word none ⟨page, none⟩
    match page with
    | .top =>
      match verb? word with
      | some v => readPage (.verb v) rest
      | none => if word = "help" then readPage .help rest else .error refused
    | _ => .error refused

/-- What a command line asks for. -/
def read : List String → Except UsageError Request
  | [] => .error .noCommand
  | argument :: rest =>
    match Word.of argument with
    | .separator =>
      match rest with
      | [] => .error .noCommand
      | word :: _ =>
        if (verb? word).isSome || word = "help" then
          .error (.unexpected word (some .withoutSeparator) ⟨.top, none⟩)
        else .error (unknownCommand word)
    | .long name value =>
      match Scope.top.option? name, value with
      | some _, none => .ok (.help .top)
      | some option, some value => .error (.extraValue value option ⟨.top, some [option]⟩)
      | none, _ => .error (unknownLong name rest)
    | .short letter =>
      if letter = 'h' then .ok (.help .top)
      else .error (.unexpected (String.ofList ['-', letter]) none ⟨.top, none⟩)
    | .plain =>
      match verb? argument with
      | some v => (Progress.start v).read rest
      | none => if argument = "help" then readPage .top rest else .error (unknownCommand argument)

end GibianeEditor.CommandLine
