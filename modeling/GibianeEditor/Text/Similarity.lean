/-
How alike two words are. A character of one word matches the first one equal to it in the other that
lies near enough and is not matched yet. The likeness is the mean of three shares: of the first
word's characters that match, of the second word's, and of the matches that come in the same order in
both. A word is worth offering for another where the likeness is at least seven tenths.
-/
import GibianeEditor.Text.Basic

namespace GibianeEditor.Text

/-- A word whose characters are taken or free. -/
abbrev Slots := List (Char × Bool)

/-- Takes the first free slot of a character, among so many slots behind those to skip. -/
def Slots.take? (c : Char) : Nat → Nat → Slots → Option Slots
  | _, _, [] => none
  | skip + 1, count, slot :: slots => (take? c skip count slots).map (slot :: ·)
  | 0, 0, _ => none
  | 0, count + 1, slot :: slots =>
    if slot.1 = c ∧ slot.2 = false then some ((c, true) :: slots) else (take? c 0 count slots).map (slot :: ·)

/-- The characters from an index on that find a slot at most so far from their own index, and the
slots then. -/
def matchInto (reach : Nat) : Nat → Text → Slots → Text × Slots
  | _, [], slots => ([], slots)
  | i, c :: t, slots =>
    match slots.take? c (i - reach) (i + reach + 1 - (i - reach)) with
    | none => matchInto reach (i + 1) t slots
    | some slots =>
      let (found, slots) := matchInto reach (i + 1) t slots
      (c :: found, slots)

/-- A share of a whole. -/
structure Share where
  part : Nat
  whole : Nat

def Share.le (a b : Share) : Bool := a.part * b.whole ≤ b.part * a.whole

/-- How alike two words are. -/
def likeness (t u : Text) : Share :=
  if t.isEmpty && u.isEmpty then ⟨1, 1⟩
  else
    let (found, slots) := matchInto (max t.length u.length / 2 - 1) 0 t (u.map (·, false))
    let inOrder := (slots.filter Prod.snd).map Prod.fst
    let matched := found.length
    let swapped := (List.zip found inOrder).countP (fun pair => pair.1 ≠ pair.2) / 2
    if matched = 0 then ⟨0, 1⟩
    else
      ⟨matched * matched * u.length + matched * matched * t.length + (matched - swapped) * t.length * u.length,
        3 * t.length * u.length * matched⟩

/-- The words worth offering for another, the most alike at the end. -/
def similar (word : String) (candidates : List String) : List String :=
  let scored := candidates.map fun other => (other, likeness word.toList other.toList)
  let close := scored.filter fun entry => Share.le ⟨7, 10⟩ entry.2
  (close.mergeSort fun a b => a.2.le b.2).map Prod.fst

end GibianeEditor.Text
