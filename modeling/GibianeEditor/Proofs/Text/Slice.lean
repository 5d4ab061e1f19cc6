/-
What stands at a span of a text. A span has a slice exactly when both its ends lie between two
characters of the text, in this order (`slice?_eq_some_iff`).
-/
import GibianeEditor.Text.Basic

namespace GibianeEditor.Text

/-- The characters at a span; none where the span leaves the text or an end of it lies inside a
character. -/
def slice? (t : Text) (span : Span) : Option Text :=
  let before : Text := t.upTo Char.utf8Size span.start
  let word : Text := (t.past Char.utf8Size span.start).upTo Char.utf8Size (span.stop - span.start)
  if before.bytes = span.start ∧ span.start ≤ span.stop ∧ word.bytes = span.stop - span.start then some word
  else none

theorem bytes_pos {t : Text} (h : t ≠ []) : 0 < t.bytes := by
  cases t with
  | nil => exact absurd rfl h
  | cons c t =>
    have := c.utf8Size_pos
    simp only [bytes, extent_cons]
    omega

/-- What adds no bytes to a text is nothing. -/
theorem eq_nil_of_bytes_append_le {t u : Text} (h : Text.bytes (t ++ u) ≤ t.bytes) : u = [] := by
  refine Decidable.byContradiction fun hne => ?_
  have hpos := bytes_pos hne
  simp only [bytes, extent_append] at h hpos
  omega

theorem upTo_bytes_append (before after : Text) : (before ++ after).upTo Char.utf8Size before.bytes = before :=
  upTo_extent_append before after fun c _ => c.utf8Size_pos

theorem past_bytes_append (before after : Text) : (before ++ after).past Char.utf8Size before.bytes = after :=
  past_extent_append before after fun c _ => c.utf8Size_pos

theorem slice?_append (before word after : Text) :
    slice? (before ++ word ++ after) ⟨before.bytes, before.bytes + word.bytes⟩ = some word := by
  have hbefore := upTo_bytes_append before (word ++ after)
  have hafter := past_bytes_append before (word ++ after)
  have hword := upTo_bytes_append word after
  simp [slice?, hbefore, hafter, hword]

theorem slice?_eq_some_iff {t word : Text} {span : Span} :
    t.slice? span = some word ↔
      ∃ before after, t = before ++ word ++ after ∧ span = ⟨before.bytes, before.bytes + word.bytes⟩ := by
  constructor
  · intro h
    obtain ⟨start, stop⟩ := span
    simp only [slice?] at h
    split at h
    · rename_i hcut
      obtain ⟨hstart, hle, hword⟩ := hcut
      rw [Option.some.injEq] at h
      rw [h] at hword
      refine ⟨t.upTo Char.utf8Size start,
        (t.past Char.utf8Size start).past Char.utf8Size (stop - start), ?_, ?_⟩
      · rw [← h, List.append_assoc, upTo_append_past, upTo_append_past]
      · rw [hstart, hword, Nat.add_sub_cancel' hle]
    · cases h
  · rintro ⟨before, after, rfl, rfl⟩
    exact slice?_append before word after

end GibianeEditor.Text
