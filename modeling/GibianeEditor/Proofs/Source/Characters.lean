/-
How the classes of characters lie to each other: what may start a name may also go on with one, no
name has white space in it, and no word has a line break or one of the marks of the language.
-/
import Mathlib.Tactic.SplitIfs
import GibianeEditor.Source.Lexeme
import GibianeEditor.Text.Lines

namespace GibianeEditor

namespace Unicode

/-- Two tables of which no ranges meet hold no code point in common. -/
theorem Ranges.holds_eq_false_of_apart {as bs : Ranges}
    (hapart : (as.all fun a => bs.all fun b => Nat.blt a.2 b.1 || Nat.blt b.2 a.1) = true) {n : Nat}
    (hn : as.holds n = true) : bs.holds n = false := by
  cases hb : bs.holds n with
  | false => rfl
  | true =>
    obtain ⟨a, ha, ha1, ha2⟩ := exists_of_holds hn
    obtain ⟨b, hbm, hb1, hb2⟩ := exists_of_holds hb
    have h := List.all_eq_true.1 (List.all_eq_true.1 hapart a ha) b hbm
    simp only [Bool.or_eq_true, Nat.blt_eq] at h
    omega

set_option maxRecDepth 20000 in
theorem whiteSpaceRanges_apart_alphabeticRanges :
    (whiteSpaceRanges.all fun a => alphabeticRanges.all fun b => Nat.blt a.2 b.1 || Nat.blt b.2 a.1) = true := by
  decide +kernel

theorem isAlphabetic_eq_false_of_isWhiteSpace {c : Char} (h : isWhiteSpace c = true) :
    isAlphabetic c = false :=
  Ranges.holds_eq_false_of_apart whiteSpaceRanges_apart_alphabeticRanges h

end Unicode

theorem isWordChar_eq_false_of_isLineBreak {c : Char} (h : Text.isLineBreak c = true) : isWordChar c = false := by
  simp only [Text.isLineBreak, List.contains_eq_mem, List.mem_cons, List.not_mem_nil, or_false,
    decide_eq_true_eq] at h
  rcases h with rfl | rfl | rfl | rfl | rfl | rfl | rfl <;> decide +kernel

namespace Source

theorem isWordChar_of_isNameStart {c : Char} (h : isNameStart c = true) : isWordChar c = true := by
  simp only [isNameStart, Bool.or_eq_true] at h
  rcases h with h | h <;> simp [isWordChar, h]

/-- Of the characters that start a name only the underscore cannot go on with a number. -/
theorem eq_underscore_of_isNameStart {c : Char} (h : isNameStart c = true) (hn : isNumberPart c = false) :
    c = '_' := by
  simp only [isNumberPart, Bool.or_eq_false_iff] at hn
  simpa [isNameStart, hn.1.1] using h

theorem isNumberPart_underscore : isNumberPart '_' = false := by decide +kernel

theorem isWhiteSpace_eq_false_of_isNameStart {c : Char} (h : isNameStart c = true) :
    Unicode.isWhiteSpace c = false := by
  cases hw : Unicode.isWhiteSpace c with
  | false => rfl
  | true =>
    have ha := Unicode.isAlphabetic_eq_false_of_isWhiteSpace hw
    simp only [isNameStart, ha, Bool.false_or, beq_iff_eq] at h
    subst h
    revert hw
    decide

theorem kindOf_eq_name_iff (c : Char) : kindOf c = .name ↔ isNameStart c = true := by
  constructor
  · intro h
    unfold kindOf at h
    split_ifs at h with _ _ _ _ hn
    exact hn
  · intro h
    have hne : c ≠ '\'' ∧ c ≠ ';' ∧ c ≠ '=' ∧ c ≠ '.' := by
      refine ⟨?_, ?_, ?_, ?_⟩ <;> (rintro rfl; revert h; decide)
    simp [kindOf, hne, h]

/-- A character is a blank of its own exactly when it is white space. -/
theorem kindOf_eq_blank_iff (c : Char) : kindOf c = .blank ↔ Unicode.isWhiteSpace c = true := by
  constructor
  · intro h
    unfold kindOf at h
    split_ifs at h with _ _ _ _ _ _ hw
    exact hw
  · intro h
    have hne : c ≠ '\'' ∧ c ≠ ';' ∧ c ≠ '=' ∧ c ≠ '.' := by
      refine ⟨?_, ?_, ?_, ?_⟩ <;> (rintro rfl; revert h; decide)
    have hname : isNameStart c = false := by
      cases hn : isNameStart c with
      | false => rfl
      | true => rw [isWhiteSpace_eq_false_of_isNameStart hn] at h; cases h
    have hdigit : c.isDigit = false := by
      cases hd : c.isDigit with
      | false => rfl
      | true =>
        exfalso
        obtain ⟨r, hr, h1, h2⟩ := Unicode.Ranges.exists_of_holds h
        simp only [Char.isDigit, Bool.and_eq_true, decide_eq_true_eq, ge_iff_le, UInt32.le_iff_toNat_le] at hd
        simp only [Unicode.whiteSpaceRanges, List.mem_cons, List.not_mem_nil, or_false] at hr
        have hlo : 48 ≤ c.toNat := hd.1
        have hhi : c.toNat ≤ 57 := hd.2
        rcases hr with rfl | rfl | rfl | rfl | rfl | rfl | rfl | rfl | rfl | rfl <;> simp only at h1 h2 <;> omega
    simp [kindOf, hne, hname, hdigit, h]

theorem kindOf_eq_quoted_iff (c : Char) : kindOf c = .quoted ↔ c = '\'' := by
  constructor
  · intro h
    unfold kindOf at h
    split_ifs at h with hc
    exact hc
  · rintro rfl
    rfl

theorem kindOf_star : kindOf '*' = .mark := by decide +kernel

end Source
end GibianeEditor
