/-
The word at a cursor. It is what stands of a word on both sides of the cursor (`wordAt?_append`); so
every cursor that touches a word which none follows finds that word, with the end of another one in
front of it if there is one (`WordAt.wordAt?_eq`). No line ends in a word, so its cursors have
positions that lead back to them (`WordAt.offsetAt?_positionAt`).
-/
import Mathlib.Data.List.TakeWhile
import GibianeEditor.Proofs.Source.Characters
import GibianeEditor.Proofs.Text.Cut
import GibianeEditor.Text.Word

namespace GibianeEditor.Text

/-! ## Boundaries -/

/-- Whether a byte offset lies between two characters or at an end of the text. -/
def Boundary (t : Text) (offset : Nat) : Prop := Text.bytes (t.upTo Char.utf8Size offset) = offset

instance (t : Text) (offset : Nat) : Decidable (t.Boundary offset) :=
  inferInstanceAs (Decidable (Text.bytes (t.upTo Char.utf8Size offset) = offset))

theorem boundary_append (u v : Text) : Boundary (u ++ v) u.bytes := by
  rw [Boundary, upTo_bytes_append]

theorem boundary_of_slice? {t word : Text} {span : Span} (h : t.slice? span = some word) :
    t.Boundary span.start ∧ t.Boundary span.stop := by
  obtain ⟨before, after, rfl, rfl⟩ := slice?_eq_some_iff.1 h
  have hbytes : before.bytes + word.bytes = Text.bytes (before ++ word) := (extent_append before word).symm
  refine ⟨?_, hbytes ▸ boundary_append (before ++ word) after⟩
  rw [List.append_assoc]
  exact boundary_append before (word ++ after)

theorem Boundary.exists_append {t : Text} {offset : Nat} (h : t.Boundary offset) :
    ∃ u v, t = u ++ v ∧ offset = u.bytes :=
  ⟨t.upTo Char.utf8Size offset, t.past Char.utf8Size offset, (upTo_append_past offset t).symm, h.symm⟩

/-- Of two beginnings of a text the shorter one begins the longer one. -/
theorem exists_append_of_bytes_le {u v p q : Text} (h : u ++ v = p ++ q) (hle : u.bytes ≤ p.bytes) :
    ∃ w, p = u ++ w ∧ v = w ++ q := by
  rcases List.append_eq_append_iff.1 h with ⟨w, hp, hv⟩ | ⟨w, rfl, hq⟩
  · exact ⟨w, hp, hv⟩
  · obtain rfl := eq_nil_of_bytes_append_le hle
    exact ⟨[], by simp, by simpa using hq.symm⟩

theorem unbroken_of_isWordChar {t : Text} (h : ∀ c ∈ t, isWordChar c = true) : ∀ c ∈ t, isLineBreak c = false := by
  intro c hc
  cases hbreak : isLineBreak c with
  | false => rfl
  | true =>
    have hword := h c hc
    rw [isWordChar_eq_false_of_isLineBreak hbreak] at hword
    cases hword

/-! ## The end of a word -/

/-- The letters, digits and underscores at the end of a text. -/
def wordEnd (t : Text) : Text := (t.reverse.takeWhile isWordChar).reverse

theorem wordEnd_append (t : Text) {u : Text} (hu : ∀ c ∈ u, isWordChar c = true) :
    wordEnd (t ++ u) = t.wordEnd ++ u := by
  rw [wordEnd, List.reverse_append, List.takeWhile_append_of_pos fun c hc => hu c (List.mem_reverse.1 hc),
    List.reverse_append, List.reverse_reverse, wordEnd]

theorem exists_append_wordEnd (t : Text) : ∃ before, t = before ++ t.wordEnd := by
  refine ⟨(t.reverse.dropWhile isWordChar).reverse, ?_⟩
  rw [wordEnd, ← List.reverse_append, List.takeWhile_append_dropWhile, List.reverse_reverse]

theorem isWordChar_of_mem_wordEnd {t : Text} {c : Char} (h : c ∈ t.wordEnd) : isWordChar c = true := by
  rw [wordEnd, List.mem_reverse] at h
  exact List.mem_takeWhile_imp h

/-- What comes before the end of a word does not end in one. -/
theorem wordEnd_eq_nil_of_append {t before : Text} (h : t = before ++ t.wordEnd) : before.wordEnd = [] := by
  have hchars : ∀ c ∈ t.wordEnd, isWordChar c = true := fun _ => isWordChar_of_mem_wordEnd
  have happend := wordEnd_append before hchars
  rw [← h] at happend
  simpa using happend

theorem takeWhile_eq_nil_iff (t : Text) : t.takeWhile isWordChar = [] ↔ ∀ c ∈ t.head?, isWordChar c = false := by
  cases t with
  | nil => simp
  | cons c t => cases hc : isWordChar c <;> simp [hc]

theorem wordEnd_eq_nil_iff (t : Text) : t.wordEnd = [] ↔ ∀ c ∈ t.getLast?, isWordChar c = false := by
  rw [wordEnd, List.reverse_eq_nil_iff, takeWhile_eq_nil_iff, List.head?_reverse]

theorem bytes_wordEnd_le (t : Text) : t.wordEnd.bytes ≤ t.bytes := by
  have h := congrArg (extent Char.utf8Size) (List.takeWhile_append_dropWhile (p := isWordChar) (l := t.reverse))
  rw [extent_append, extent_reverse] at h
  rw [wordEnd, bytes, bytes, extent_reverse]
  omega

/-! ## The word at a cursor -/

theorem wordAt?_append (u v : Text) :
    wordAt? (u ++ v) u.bytes =
      if u.wordEnd ++ v.takeWhile isWordChar = [] then none
      else some (u.wordEnd ++ v.takeWhile isWordChar,
        ⟨u.bytes - u.wordEnd.bytes, u.bytes + Text.bytes (v.takeWhile isWordChar)⟩) := by
  rw [wordAt?, upTo_bytes_append, past_bytes_append]
  rfl

/-- A word at a span, between what comes before and what follows: letters, digits and underscores with
no other behind them. -/
structure WordAt (t : Text) (span : Span) (before word after : Text) : Prop where
  text : t = before ++ word ++ after
  span : span = ⟨before.bytes, before.bytes + word.bytes⟩
  nonempty : word ≠ []
  chars : ∀ c ∈ word, isWordChar c = true
  ends : ∀ c ∈ after.head?, isWordChar c = false

/-- What stands of a word on both sides of a cursor is a word at a span. -/
theorem wordAt_of_cut {u v : Text} (hne : u.wordEnd ++ v.takeWhile isWordChar ≠ []) :
    ∃ before after, u = before ++ u.wordEnd ∧
      (u ++ v).WordAt ⟨u.bytes - u.wordEnd.bytes, u.bytes + Text.bytes (v.takeWhile isWordChar)⟩ before
        (u.wordEnd ++ v.takeWhile isWordChar) after := by
  obtain ⟨before, hu⟩ := exists_append_wordEnd u
  have hv : v.takeWhile isWordChar ++ v.dropWhile isWordChar = v := List.takeWhile_append_dropWhile
  have hbytes := congrArg Text.bytes hu
  simp only [bytes, extent_append] at hbytes
  refine ⟨before, v.dropWhile isWordChar, hu, ?_, ?_, hne, ?_, ?_⟩
  · calc u ++ v = (before ++ u.wordEnd) ++ (v.takeWhile isWordChar ++ v.dropWhile isWordChar) := by rw [← hu, hv]
      _ = before ++ (u.wordEnd ++ v.takeWhile isWordChar) ++ v.dropWhile isWordChar := by simp
  · rw [Span.mk.injEq]
    simp only [bytes, extent_append]
    omega
  · intro c hc
    rcases List.mem_append.1 hc with hc | hc
    · exact isWordChar_of_mem_wordEnd hc
    · exact List.mem_takeWhile_imp hc
  · intro c hc
    have hstop := List.head?_dropWhile_not isWordChar v
    rw [Option.mem_def.1 hc] at hstop
    simpa using hstop

theorem exists_wordAt_of_wordAt? {u v word : Text} {span : Span} (h : (u ++ v).wordAt? u.bytes = some (word, span)) :
    ∃ before after, (u ++ v).WordAt span before word after := by
  rw [wordAt?_append] at h
  split at h
  · cases h
  · rename_i hne
    obtain ⟨before, after, _, hword⟩ := wordAt_of_cut hne
    simp only [Option.some.injEq, Prod.mk.injEq] at h
    obtain ⟨rfl, rfl⟩ := h
    exact ⟨before, after, hword⟩

namespace WordAt

variable {t before word after : Text} {span : Span}

theorem slice? (h : t.WordAt span before word after) : t.slice? span = some word :=
  slice?_eq_some_iff.2 ⟨before, after, h.text, h.span⟩

theorem upTo_start (h : t.WordAt span before word after) : t.upTo Char.utf8Size span.start = before := by
  rw [h.text, h.span, List.append_assoc, upTo_bytes_append]

theorem start_lt_stop (h : t.WordAt span before word after) : span.start < span.stop := by
  have := bytes_pos h.nonempty
  rw [h.span]
  simpa using this

/-- A cursor in a word cuts it in two. -/
theorem exists_cut (h : t.WordAt span before word after) {offset : Nat} (hboundary : t.Boundary offset)
    (hstart : span.start ≤ offset) (hstop : offset ≤ span.stop) :
    ∃ u v, word = u ++ v ∧ t = (before ++ u) ++ (v ++ after) ∧ offset = Text.bytes (before ++ u) := by
  obtain ⟨p, q, hcut, rfl⟩ := hboundary.exists_append
  rw [h.span] at hstart hstop
  have htext := h.text
  rw [List.append_assoc, hcut] at htext
  obtain ⟨u, rfl, hrest⟩ := exists_append_of_bytes_le htext.symm hstart
  have hle : u.bytes ≤ word.bytes := by
    simp only [bytes, extent_append] at hstop ⊢
    omega
  obtain ⟨v, rfl, rfl⟩ := exists_append_of_bytes_le hrest.symm hle
  exact ⟨u, v, rfl, hcut, rfl⟩

/-- A cursor that touches a word finds it, with what ends right before it. -/
theorem wordAt?_eq (h : t.WordAt span before word after) {offset : Nat} (hboundary : t.Boundary offset)
    (hstart : span.start ≤ offset) (hstop : offset ≤ span.stop) :
    t.wordAt? offset = some (before.wordEnd ++ word, ⟨span.start - before.wordEnd.bytes, span.stop⟩) := by
  obtain ⟨u, v, rfl, htext, rfl⟩ := h.exists_cut hboundary hstart hstop
  have hleft : wordEnd (before ++ u) = before.wordEnd ++ u :=
    wordEnd_append before fun c hc => h.chars c (List.mem_append_left v hc)
  have hright : (v ++ after).takeWhile isWordChar = v := by
    rw [List.takeWhile_append_of_pos fun c hc => h.chars c (List.mem_append_right u hc),
      (takeWhile_eq_nil_iff after).2 h.ends, List.append_nil]
  have hne : before.wordEnd ++ u ++ v ≠ [] := by
    have := h.nonempty
    simp only [ne_eq, List.append_eq_nil_iff, not_and] at this ⊢
    exact fun hu => this hu.2
  have hle := bytes_wordEnd_le before
  rw [htext, wordAt?_append, hleft, hright, if_neg hne, List.append_assoc, h.span]
  simp only [bytes, extent_append] at hle ⊢
  congr 3 <;> omega

/-! ## Positions in a word -/

theorem unbroken (h : t.WordAt span before word after) : ∀ c ∈ word, isLineBreak c = false :=
  unbroken_of_isWordChar h.chars

theorem cutsBreak_eq_false (h : t.WordAt span before word after) {u v : Text} (hword : word = u ++ v) :
    cutsBreak (before ++ u) (v ++ after) = false := by
  have hunbroken := h.unbroken
  rw [hword] at hunbroken
  by_cases hv : v = []
  · have hu : u ≠ [] := by
      rintro rfl
      exact h.nonempty (by simp [hword, hv])
    exact cutsBreak_of_unbroken_left hu (fun c hc => hunbroken c (List.mem_append_left v hc)) before _
  · exact cutsBreak_of_unbroken_right hv (fun c hc => hunbroken c (List.mem_append_right u hc)) _ after

/-- The position of a cursor in a word leads back to the cursor. -/
theorem offsetAt?_positionAt (h : t.WordAt span before word after) {offset : Nat} (hboundary : t.Boundary offset)
    (hstart : span.start ≤ offset) (hstop : offset ≤ span.stop) : t.offsetAt? (t.positionAt offset) = some offset := by
  obtain ⟨u, v, hword, htext, rfl⟩ := h.exists_cut hboundary hstart hstop
  have hcut := h.cutsBreak_eq_false hword
  rw [htext, positionAt_append hcut, offsetAt?_positionBehind hcut]

/-- A word lies on the line where what comes before it ends, and is as long in columns as it is. -/
theorem rangeOf_eq (h : t.WordAt span before word after) :
    t.rangeOf span = ⟨before.positionBehind,
      ⟨before.positionBehind.line, before.positionBehind.character + word.units⟩⟩ := by
  rw [h.text, h.span, rangeOf_append h.nonempty h.unbroken, positionBehind_append h.unbroken]

theorem start_before_stop (h : t.WordAt span before word after) :
    (t.rangeOf span).start.Before (t.rangeOf span).stop := by
  have := units_pos h.nonempty
  rw [h.rangeOf_eq]
  exact .inr ⟨rfl, by simp only; omega⟩

/-- A later word starts where an earlier one ends or behind that. -/
theorem stop_reaches (h : t.WordAt span before word after) {other : Span} {before' word' after' : Text}
    (h' : t.WordAt other before' word' after') (hle : span.stop ≤ other.start) :
    (t.rangeOf span).stop = (t.rangeOf other).start ∨ (t.rangeOf span).stop.Before (t.rangeOf other).start := by
  have hunbroken := h.unbroken
  have hbytes : Text.bytes (before ++ word) ≤ before'.bytes := by
    rw [h.span, h'.span] at hle
    simpa [bytes] using hle
  obtain ⟨x, rfl, _⟩ := exists_append_of_bytes_le (q := word' ++ after') (v := after)
    (by rw [← List.append_assoc, ← h'.text, h.text]) hbytes
  rw [h.rangeOf_eq, h'.rangeOf_eq, ← positionBehind_append hunbroken]
  by_cases hx : x = []
  · simp [hx]
  · exact .inr (before_positionBehind_append (cutsBreak_of_unbroken_left h.nonempty hunbroken before x) hx)

theorem start_before_start (h : t.WordAt span before word after) {other : Span} {before' word' after' : Text}
    (h' : t.WordAt other before' word' after') (hle : span.stop ≤ other.start) :
    (t.rangeOf span).start.Before (t.rangeOf other).start := by
  rcases h.stop_reaches h' hle with heq | hbefore
  · rw [← heq]
    exact h.start_before_stop
  · exact h.start_before_stop.trans hbefore

/-- A range leads back to the word that it is the range of. -/
theorem offsetAt?_rangeOf (h : t.WordAt span before word after) :
    t.offsetAt? (t.rangeOf span).start = some span.start ∧ t.offsetAt? (t.rangeOf span).stop = some span.stop := by
  have hle := Nat.le_of_lt h.start_lt_stop
  obtain ⟨hstart, hstop⟩ := boundary_of_slice? h.slice?
  exact ⟨h.offsetAt?_positionAt hstart (Nat.le_refl _) hle, h.offsetAt?_positionAt hstop hle (Nat.le_refl _)⟩

theorem rangeOf_inj (h : t.WordAt span before word after) {other : Span} {before' word' after' : Text}
    (h' : t.WordAt other before' word' after') (hrange : t.rangeOf span = t.rangeOf other) : span = other := by
  obtain ⟨hstart, hstop⟩ := h.offsetAt?_rangeOf
  rw [hrange, h'.offsetAt?_rangeOf.1] at hstart
  rw [hrange, h'.offsetAt?_rangeOf.2] at hstop
  exact congrArg₂ Span.mk (Option.some.inj hstart.symm) (Option.some.inj hstop.symm)

end WordAt

/-! ## Words in a row -/

section

variable {t : Text} {spans : List Span} (hwords : ∀ span ∈ spans, ∃ before word after, t.WordAt span before word after)
  (h : spans.Pairwise fun a b => a.stop ≤ b.start)
include hwords h

theorem pairwise_stop_reaches :
    spans.Pairwise fun a b =>
      (t.rangeOf a).stop = (t.rangeOf b).start ∨ (t.rangeOf a).stop.Before (t.rangeOf b).start := by
  refine h.imp_of_mem fun {a b} ha hb hle => ?_
  obtain ⟨_, _, _, hword⟩ := hwords a ha
  obtain ⟨_, _, _, hother⟩ := hwords b hb
  exact hword.stop_reaches hother hle

theorem pairwise_start_before_start : spans.Pairwise fun a b => (t.rangeOf a).start.Before (t.rangeOf b).start := by
  refine h.imp_of_mem fun {a b} ha hb hle => ?_
  obtain ⟨_, _, _, hword⟩ := hwords a ha
  obtain ⟨_, _, _, hother⟩ := hwords b hb
  exact hword.start_before_start hother hle

end

end GibianeEditor.Text
