/-
Whole words. A byte offset puts its cursor at the last boundary that is not behind it (`cursorAt`), and the
word there is the whole word that the cursor touches: one that no letter, digit or underscore adjoins on
either side. A cursor touches at most one, so being whole and touched tells the word and its span
(`wordAt?_is_whole_word`).
-/
import GibianeEditor.Proofs.Text.Offset

namespace GibianeEditor.Text

/-- Where the cursor of a byte offset stands: at the end of the text if the offset lies behind it, else at
the start of the character that the offset lies in. -/
def cursorAt (t : Text) (offset : Nat) : Nat := Text.bytes (t.upTo Char.utf8Size offset)

/-- The character that ends at a boundary. -/
def charBefore? (t : Text) (offset : Nat) : Option Char := (t.upTo Char.utf8Size offset).getLast?

/-- The character that starts at a boundary. -/
def charAt? (t : Text) (offset : Nat) : Option Char := (t.past Char.utf8Size offset).head?

/-- A whole word of a text: what stands at a span, all of it letters, digits and underscores, and none of
these right before it or right behind it. -/
structure WholeWord (t : Text) (span : Span) (word : Text) : Prop where
  slice : t.slice? span = some word
  nonempty : word ≠ []
  chars : ∀ c ∈ word, isWordChar c = true
  starts : ∀ c ∈ t.charBefore? span.start, isWordChar c = false
  ends : ∀ c ∈ t.charAt? span.stop, isWordChar c = false

/-! ## Cursors -/

theorem boundary_cursorAt (t : Text) (offset : Nat) : t.Boundary (t.cursorAt offset) := by
  have hcut := upTo_bytes_upTo t [] offset
  rw [List.append_nil] at hcut
  rw [Boundary, cursorAt, hcut]

theorem cursorAt_le (t : Text) (offset : Nat) : t.cursorAt offset ≤ offset := extent_upTo_le offset t

theorem Boundary.le_cursorAt {t : Text} {cut offset : Nat} (h : t.Boundary cut) (hle : cut ≤ offset) :
    cut ≤ t.cursorAt offset := by
  obtain ⟨u, v, rfl, rfl⟩ := h.exists_append
  rw [cursorAt, upTo_append_of_le v hle]
  simp [bytes]

theorem charBefore?_append (u v : Text) : (u ++ v).charBefore? u.bytes = u.getLast? := by
  rw [charBefore?, upTo_bytes_append]

theorem charAt?_append (u v : Text) : (u ++ v).charAt? u.bytes = v.head? := by
  rw [charAt?, past_bytes_append]

/-! ## The word at a cursor -/

theorem wordAt?_cursorAt (t : Text) (offset : Nat) : t.wordAt? (t.cursorAt offset) = t.wordAt? offset := by
  have h := wordAt?_append (t.upTo Char.utf8Size offset) (t.past Char.utf8Size offset)
  rw [upTo_append_past] at h
  exact h

theorem wordAt?_append_eq_none_iff (u v : Text) :
    (u ++ v).wordAt? u.bytes = none ↔
      (∀ c ∈ u.getLast?, isWordChar c = false) ∧ ∀ c ∈ v.head?, isWordChar c = false := by
  rw [wordAt?_append, ← wordEnd_eq_nil_iff, ← takeWhile_eq_nil_iff, ← List.append_eq_nil_iff]
  split
  · simp [*]
  · simp [*]

theorem wholeWord_iff {t word : Text} {span : Span} :
    t.WholeWord span word ↔ ∃ before after, t.WordAt span before word after ∧ before.wordEnd = [] := by
  have hbytes : ∀ before : Text, before.bytes + word.bytes = Text.bytes (before ++ word) := fun before =>
    (extent_append before word).symm
  constructor
  · intro h
    obtain ⟨before, after, htext, hspan⟩ := slice?_eq_some_iff.1 h.slice
    have hstarts := h.starts
    have hends := h.ends
    rw [htext, hspan, List.append_assoc, charBefore?_append] at hstarts
    rw [htext, hspan, hbytes, charAt?_append] at hends
    exact ⟨before, after, ⟨htext, hspan, h.nonempty, h.chars, hends⟩, before.wordEnd_eq_nil_iff.2 hstarts⟩
  · rintro ⟨before, after, h, hstarts⟩
    refine ⟨h.slice?, h.nonempty, h.chars, ?_, ?_⟩
    · rw [h.text, h.span, List.append_assoc, charBefore?_append]
      exact before.wordEnd_eq_nil_iff.1 hstarts
    · rw [h.text, h.span, hbytes, charAt?_append]
      exact h.ends

/-- A cursor that touches a whole word finds it and nothing more. -/
theorem WholeWord.wordAt?_eq {t word : Text} {span : Span} (h : t.WholeWord span word) {offset : Nat}
    (hstart : span.start ≤ t.cursorAt offset) (hstop : t.cursorAt offset ≤ span.stop) :
    t.wordAt? offset = some (word, span) := by
  obtain ⟨before, after, hword, hstarts⟩ := wholeWord_iff.1 h
  have hfound := hword.wordAt?_eq (t.boundary_cursorAt offset) hstart hstop
  rw [wordAt?_cursorAt, hstarts] at hfound
  exact hfound

/-- What a cursor finds is a whole word that it touches. -/
theorem wholeWord_of_wordAt? {t word : Text} {span : Span} {offset : Nat} (h : t.wordAt? offset = some (word, span)) :
    t.WholeWord span word ∧ span.start ≤ t.cursorAt offset ∧ t.cursorAt offset ≤ span.stop := by
  obtain ⟨u, v, rfl, hcursor⟩ := (t.boundary_cursorAt offset).exists_append
  rw [← wordAt?_cursorAt, hcursor, wordAt?_append] at h
  rw [hcursor]
  split at h
  · cases h
  · rename_i hne
    obtain ⟨before, after, hu, hword⟩ := wordAt_of_cut hne
    rw [Option.some.injEq, Prod.mk.injEq] at h
    obtain ⟨rfl, rfl⟩ := h
    exact ⟨wholeWord_iff.2 ⟨before, after, hword, wordEnd_eq_nil_of_append hu⟩, Nat.sub_le .., Nat.le_add_right ..⟩

/-- **The word at an offset is the whole word that its cursor touches.** The cursor stands at the last
boundary that is not behind the offset. It finds nothing exactly where no letter, digit or underscore stands
on either side of it, and a word at a span exactly if that is a whole word whose span holds the cursor or
ends there. Then every offset from the one end of the span to the other finds the same, and the word lies on
one line. -/
theorem wordAt?_is_whole_word (t : Text) (offset : Nat) :
    let cursor := t.cursorAt offset
    (t.Boundary cursor ∧ cursor ≤ offset ∧ ∀ cut, t.Boundary cut → cut ≤ offset → cut ≤ cursor) ∧
    (t.wordAt? offset = none ↔
      (∀ c ∈ t.charBefore? cursor, isWordChar c = false) ∧ ∀ c ∈ t.charAt? cursor, isWordChar c = false) ∧
    ∀ word span,
      (t.wordAt? offset = some (word, span) ↔ t.WholeWord span word ∧ span.start ≤ cursor ∧ cursor ≤ span.stop) ∧
      (t.wordAt? offset = some (word, span) →
        t.Boundary span.start ∧ t.Boundary span.stop ∧
        (∀ other, span.start ≤ other → other ≤ span.stop → t.wordAt? other = some (word, span)) ∧
        (∀ c ∈ word, isLineBreak c = false) ∧ (t.rangeOf span).start.line = (t.rangeOf span).stop.line) := by
  intro cursor
  refine ⟨⟨t.boundary_cursorAt offset, t.cursorAt_le offset, fun cut h hle => h.le_cursorAt hle⟩, ?_,
    fun word span => ⟨⟨wholeWord_of_wordAt?, fun ⟨hwhole, hstart, hstop⟩ => hwhole.wordAt?_eq hstart hstop⟩, ?_⟩⟩
  · obtain ⟨u, v, htext, hcursor⟩ := (t.boundary_cursorAt offset).exists_append
    have hnone := wordAt?_append_eq_none_iff u v
    rw [← charBefore?_append u v, ← charAt?_append u v, ← htext, ← hcursor, wordAt?_cursorAt] at hnone
    exact hnone
  · intro h
    obtain ⟨hwhole, _, _⟩ := wholeWord_of_wordAt? h
    obtain ⟨hstart, hstop⟩ := boundary_of_slice? hwhole.slice
    obtain ⟨before, after, hword, _⟩ := wholeWord_iff.1 hwhole
    refine ⟨hstart, hstop, fun other hfrom hto => ?_, hword.unbroken, by rw [hword.rangeOf_eq]⟩
    -- The span starts at a boundary, so no offset behind its start has its cursor before it.
    exact hwhole.wordAt?_eq (hstart.le_cursorAt hfrom) (Nat.le_trans (t.cursorAt_le other) hto)

/-- A cursor that is asked for inside the first letter of a word, behind a digit of another one. -/
theorem wordAt?_inside_letter :
    let t : Text := "1 été_2\u2028x".toList
    t.cursorAt 3 = 2 ∧ t.wordAt? 3 = some ("été_2".toList, ⟨2, 9⟩) ∧ t.WholeWord ⟨2, 9⟩ "été_2".toList ∧
      ∀ other, 2 ≤ other → other ≤ 9 → t.wordAt? other = some ("été_2".toList, ⟨2, 9⟩) := by
  intro t
  have hfound : t.wordAt? 3 = some ("été_2".toList, ⟨2, 9⟩) := by decide +kernel
  obtain ⟨_, _, hwords⟩ := wordAt?_is_whole_word t 3
  obtain ⟨hwhole, hsame⟩ := hwords "été_2".toList ⟨2, 9⟩
  obtain ⟨_, _, hothers, _⟩ := hsame hfound
  exact ⟨by decide +kernel, hfound, (hwhole.1 hfound).1, hothers⟩

end GibianeEditor.Text
