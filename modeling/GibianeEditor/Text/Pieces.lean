/-
Text in pieces, and pieces of text that write a number.
-/
import GibianeEditor.Text.Basic

namespace GibianeEditor.Text

/-- The pieces between the places of a character; one piece more than there are places. -/
def pieces (mark : Char) : Text → List Text
  | [] => [[]]
  | c :: t =>
    if c = mark then [] :: pieces mark t
    else
      match pieces mark t with
      | [] => [[c]]
      | piece :: rest => (c :: piece) :: rest

/-- What stands before the first place of a character, and what stands behind it. -/
def cutAt? (mark : Char) : Text → Option (Text × Text)
  | [] => none
  | c :: t => if c = mark then some ([], t) else (cutAt? mark t).map fun (before, behind) => (c :: before, behind)

theorem eq_of_cutAt? {mark : Char} {t before behind : Text} (h : t.cutAt? mark = some (before, behind)) :
    t = before ++ mark :: behind ∧ mark ∉ before := by
  induction t generalizing before with
  | nil => simp [cutAt?] at h
  | cons c t ih =>
    by_cases hc : c = mark
    · simp only [cutAt?, hc, if_true, Option.some.injEq, Prod.mk.injEq] at h
      obtain ⟨rfl, rfl⟩ := h
      simp [hc]
    · simp only [cutAt?, hc, if_false, Option.map_eq_some_iff] at h
      obtain ⟨⟨first, rest⟩, h, e⟩ := h
      simp only [Prod.mk.injEq] at e
      obtain ⟨rfl, rfl⟩ := e
      obtain ⟨ht, hn⟩ := ih h
      exact ⟨by simp [ht], by simp [hn, Ne.symm hc]⟩

/-- The value of digits. -/
def valueOf (digits : Text) : Nat := digits.foldl (fun n c => 10 * n + (c.toNat - '0'.toNat)) 0

/-- The number that a text writes in decimal digits, with or without a plus sign. -/
def natural? (t : Text) : Option Nat :=
  let digits := match t with
    | '+' :: rest => rest
    | _ => t
  if digits.isEmpty || !digits.all Char.isDigit then none else some (valueOf digits)

end GibianeEditor.Text
