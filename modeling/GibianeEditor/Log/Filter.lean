/-
Which events are shown at all. A filter is written as directives with commas between them: a level,
a target with a level, or a target alone, which shows all of its events. A directive is about the
events whose target starts with its own. Of those that are about an event the one with the longest
target decides (`Filter.deciding?`), and an event that none is about is hidden.
-/
import GibianeEditor.Log.Event
import GibianeEditor.Text.Pieces
import GibianeEditor.Unicode.Alphabetic
import GibianeEditor.Unicode.Numeric
import GibianeEditor.Unicode.WhiteSpace

namespace GibianeEditor.Log

/-- Shows the events of a target up to a level, or none of them. The empty target is every target. -/
structure Directive where
  target : Text
  upTo : Option Level
  deriving DecidableEq

/-- Directives in the order in which they are written. -/
abbrev Filter := List Directive

/-- Why a filter cannot be read. -/
inductive FilterError where
  | badDirective
  | badLevel
  deriving DecidableEq, Repr

def FilterError.message : FilterError → String
  | .badDirective => "invalid filter directive"
  | .badLevel =>
    "error parsing level filter: expected one of \"off\", \"error\", \"warn\", \"info\", \"debug\", \"trace\", " ++
      "or a number 0-5"

/-! ## Reading -/

/-- The levels a directive can name, by name and by number. -/
def namedLevels : List (String × Option Level) :=
  [("off", none), ("error", some .error), ("warn", some .warn), ("info", some .info), ("debug", some .debug),
    ("trace", some .trace)]

/-- The level that a word names, in letters of any case or by its number. -/
def readLevel? (word : Text) : Option (Option Level) :=
  match word.natural? with
  | some n => namedLevels[n]?.map Prod.snd
  | none => (namedLevels.find? fun entry => entry.1.toList = word.map Char.toLower).map Prod.snd

/-- Whether a directive can start with a character. -/
def startsDirective (c : Char) : Bool :=
  Unicode.isAlphabetic c || Unicode.isNumeric c || c == '-' || c == ':' || c == '_'

/-- A directive behind its equals sign. -/
def Directive.withLevel (target level : Text) : Except FilterError Directive :=
  if level.isEmpty then .ok ⟨target, some .trace⟩
  else
    match readLevel? level with
    | some upTo => .ok ⟨target, upTo⟩
    | none => .error .badLevel

/-- A directive without an equals sign, a level if it can be read as one. -/
def Directive.withoutLevel (word : Text) : Directive :=
  match readLevel? word with
  | some upTo => ⟨[], upTo⟩
  | none => ⟨word, some .trace⟩

/-- The directive that a piece writes. Blanks around it are left out of account in finding the equals
sign, but not in cutting the piece there. A target has no brackets. -/
def Directive.read (piece : Text) : Except FilterError Directive :=
  match Unicode.trim piece with
  | [] => .error .badDirective
  | c :: rest =>
    if !startsDirective c then .error .badDirective
    else
      match Text.cutAt? '=' (c :: rest) with
      | none => if rest.contains '[' then .error .badDirective else .ok (.withoutLevel piece)
      | some (target, _) =>
        if target.contains '[' then .error .badDirective
        else
          Directive.withLevel (piece.upTo Char.utf8Size (Text.bytes target))
            (piece.past Char.utf8Size (Text.bytes target + 1))

/-- The filter that a text writes. Without directives only errors are shown. -/
def Filter.read (t : Text) : Except FilterError Filter :=
  match (t.pieces ',').filter (!·.isEmpty) with
  | [] => .ok [⟨[], some .error⟩]
  | pieces => pieces.mapM Directive.read

/-- The filter of the surroundings if they set one that can be read, else the one asked for. -/
def Filter.choose (surrounding : Option Text) (asked : Text) : Except FilterError Filter :=
  match surrounding.map Filter.read with
  | some (.ok filter) => .ok filter
  | _ => Filter.read asked

/-! ## Deciding -/

/-- Whether a directive is about the events of a target. -/
def Directive.covers (d : Directive) (target : Text) : Bool := d.target.isPrefixOf target

/-- The directive that decides about a target. Of several with the same target the last one counts. -/
def Filter.deciding? (filter : Filter) (target : Text) : Option Directive :=
  (filter.filter (·.covers target)).foldl
    (fun best d => match best with
      | none => some d
      | some b => if b.target.length ≤ d.target.length then some d else some b)
    none

/-- Whether a filter shows an event. -/
def Filter.shows (filter : Filter) (e : Event) : Bool :=
  match filter.deciding? e.target.toList with
  | none => false
  | some d => d.upTo.any fun level => e.level.rank ≤ level.rank

end GibianeEditor.Log
