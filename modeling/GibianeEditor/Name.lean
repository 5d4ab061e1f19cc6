/-
Names of the language. Case does not tell names apart, so a name is kept in upper case, and two
words name the same thing exactly when their upper cases are equal (`Name.of_eq_of_iff`).
-/
import GibianeEditor.Text.Basic
import GibianeEditor.Unicode.UpperCase.Fixed

namespace GibianeEditor

/-- A text in upper case. -/
def Text.upper (t : Text) : Text := t.flatMap Unicode.upper

theorem Text.upper_append (t u : Text) : upper (t ++ u) = upper t ++ upper u := List.flatMap_append

@[simp] theorem Text.upper_upper (t : Text) : upper (upper t) = upper t := by
  refine Unicode.flatMap_upper_of_fixed fun d hd => ?_
  obtain ⟨c, _, hc⟩ := List.mem_flatMap.1 hd
  exact Unicode.upper_of_mem_upper hc

/-- A name, in upper case. -/
structure Name where
  letters : Text
  upper_letters : letters.upper = letters
  deriving DecidableEq

namespace Name

/-- The name that a word spells. -/
def of (word : Text) : Name := ⟨word.upper, Text.upper_upper word⟩

@[simp] theorem letters_of (word : Text) : (of word).letters = word.upper := rfl

theorem ext {a b : Name} (h : a.letters = b.letters) : a = b := by
  cases a; cases b; cases h; rfl

@[simp] theorem of_letters (name : Name) : of name.letters = name := ext name.upper_letters

theorem of_eq_of_iff (u v : Text) : of u = of v ↔ u.upper = v.upper :=
  ⟨fun h => congrArg letters h, fun h => ext h⟩

/-- The name as a string. -/
def toString (name : Name) : String := String.ofList name.letters

end Name
end GibianeEditor
