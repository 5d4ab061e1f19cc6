/-
Spans in document order. The order is total, so spans can be sorted in one way only
(`Span.mergeSort_eq`), and sorted spans without the repetitions next to each other are the same spans,
each once (`Span.mem_eraseReps`, `Span.precedes_eraseReps`).
-/
import Mathlib.Data.List.Pairwise
import GibianeEditor.Text.Basic

namespace GibianeEditor

/-- Document order of two different spans. -/
def Span.Precedes (a b : Span) : Prop := a.before b = true ∧ a ≠ b

/-- No byte is in both spans. -/
def Span.Apart (a b : Span) : Prop := a.stop ≤ b.start ∨ b.stop ≤ a.start

theorem Span.before_iff (a b : Span) :
    a.before b = true ↔ a.start < b.start ∨ a.start = b.start ∧ a.stop ≤ b.stop := by
  simp [Span.before]

theorem Span.before_antisymm {a b : Span} (hab : a.before b = true) (hba : b.before a = true) : a = b := by
  rw [before_iff] at hab hba
  obtain ⟨start, stop⟩ := a
  obtain ⟨start', stop'⟩ := b
  simp only [mk.injEq] at hab hba ⊢
  omega

theorem Span.before_trans (a b c : Span) (hab : a.before b = true) (hbc : b.before c = true) :
    a.before c = true := by
  rw [before_iff] at hab hbc ⊢
  omega

theorem Span.before_total (a b : Span) : (a.before b || b.before a) = true := by
  rw [Bool.or_eq_true, before_iff, before_iff]
  omega

/-- A span that ends before another starts precedes it, if it is not empty. -/
theorem Span.Precedes.of_stop_le {a b : Span} (ha : a.start < a.stop) (h : a.stop ≤ b.start) : a.Precedes b := by
  refine ⟨(before_iff a b).2 (.inl (by omega)), ?_⟩
  rintro rfl
  omega

/-- Sorting gives the one list of the same spans that is in document order. -/
theorem Span.mergeSort_eq {spans sorted : List Span} (hperm : spans.Perm sorted)
    (hsorted : sorted.Pairwise Span.Precedes) : spans.mergeSort Span.before = sorted := by
  have hmerged : (spans.mergeSort Span.before).Pairwise fun a b => a.before b = true :=
    List.pairwise_mergeSort before_trans before_total spans
  have hfirst : sorted.Pairwise fun a b => a.before b = true := hsorted.imp And.left
  exact ((List.mergeSort_perm _ _).trans hperm).eq_of_pairwise (fun a b _ _ => before_antisymm) hmerged hfirst

/-! ## Repetitions -/

/-- What is left behind the spans that are settled, the last of which is still compared. -/
theorem Span.exists_eraseRepsBy_loop (spans : List Span) (a : Span) (settled : List Span) :
    ∃ kept, List.eraseRepsBy.loop (· == ·) a spans settled = settled.reverse ++ a :: kept ∧
      (∀ span, span ∈ a :: kept ↔ span ∈ a :: spans) ∧
      ((a :: spans).Pairwise (fun a b => a.before b = true) → (a :: kept).Pairwise Span.Precedes) := by
  induction spans generalizing a settled with
  | nil => exact ⟨[], by simp [List.eraseRepsBy.loop], fun _ => Iff.rfl, fun _ => List.pairwise_singleton _ _⟩
  | cons b spans ih =>
    by_cases hab : a = b
    · obtain ⟨kept, hloop, hmem, hsorted⟩ := ih a settled
      subst hab
      refine ⟨kept, ?_, fun span => ?_, fun h => hsorted h.tail⟩
      · rw [List.eraseRepsBy.loop, beq_self_eq_true, ← hloop]
      · rw [hmem]
        simp
    · obtain ⟨kept, hloop, hmem, hsorted⟩ := ih b (a :: settled)
      refine ⟨b :: kept, ?_, fun span => ?_, fun h => ?_⟩
      · rw [List.eraseRepsBy.loop, beq_eq_false_iff_ne.2 hab, hloop, List.reverse_cons, List.append_assoc]
        rfl
      · rw [List.mem_cons, hmem, ← List.mem_cons]
      · have hspans := hsorted h.tail
        have hb := (List.pairwise_cons.1 h).1 b List.mem_cons_self
        refine .cons (fun c hc => ?_) hspans
        -- Nothing comes twice that is sorted, so the spans behind the next one are not this one.
        rcases List.mem_cons.1 hc with rfl | hc
        · exact ⟨hb, hab⟩
        · obtain ⟨hbc, hne⟩ := (List.pairwise_cons.1 hspans).1 c hc
          refine ⟨before_trans a b c hb hbc, ?_⟩
          rintro rfl
          exact hne (before_antisymm hbc hb)

theorem Span.mem_eraseReps {spans : List Span} {span : Span} : span ∈ spans.eraseReps ↔ span ∈ spans := by
  cases spans with
  | nil => rfl
  | cons a spans =>
    obtain ⟨kept, hloop, hmem, _⟩ := exists_eraseRepsBy_loop spans a []
    rw [List.eraseReps, List.eraseRepsBy, hloop]
    exact hmem span

theorem Span.precedes_eraseReps {spans : List Span} (h : spans.Pairwise fun a b => a.before b = true) :
    spans.eraseReps.Pairwise Span.Precedes := by
  cases spans with
  | nil => exact .nil
  | cons a spans =>
    obtain ⟨kept, hloop, _, hsorted⟩ := exists_eraseRepsBy_loop spans a []
    rw [List.eraseReps, List.eraseRepsBy, hloop]
    exact hsorted h

end GibianeEditor
