/-
Sets of characters given as ascending ranges of code points, the form in which the tables of this
folder are written. A search stops at the first range that starts behind the character, so ASCII
costs a few steps however long the table is.
-/
namespace GibianeEditor.Unicode

/-- Ranges of code points, both ends included, in ascending order and apart from each other. -/
abbrev Ranges := List (Nat × Nat)

/-- Whether one of the ranges holds the code point. -/
def Ranges.holds : Ranges → Nat → Bool
  | [], _ => false
  | (first, last) :: rest, n => decide (first ≤ n) && (decide (n ≤ last) || Ranges.holds rest n)

@[simp] theorem Ranges.holds_nil (n : Nat) : Ranges.holds [] n = false := rfl

theorem Ranges.holds_cons (first last : Nat) (rest : Ranges) (n : Nat) :
    Ranges.holds ((first, last) :: rest) n =
      (decide (first ≤ n) && (decide (n ≤ last) || Ranges.holds rest n)) := rfl

/-- A code point that is found lies in a range of the table. -/
theorem Ranges.exists_of_holds {ranges : Ranges} {n : Nat} (h : ranges.holds n = true) :
    ∃ r ∈ ranges, r.1 ≤ n ∧ n ≤ r.2 := by
  induction ranges with
  | nil => simp at h
  | cons r rest ih =>
    obtain ⟨first, last⟩ := r
    simp only [holds_cons, Bool.and_eq_true, Bool.or_eq_true, decide_eq_true_eq] at h
    obtain ⟨hfirst, hlast | hrest⟩ := h
    · exact ⟨(first, last), by simp, hfirst, hlast⟩
    · obtain ⟨s, hs, hn⟩ := ih hrest
      exact ⟨s, by simp [hs], hn⟩

end GibianeEditor.Unicode
