/-
A text whose lines end at line feeds, and the text with a carriage return before each of these. An
editor sees the same lines (`lines_crlf`), so what a position leads to is the same place
(`offsetAt?_crlf`), a word at it is the same word (`wordAt?_crlf`), and a word has the same range
(`WordAt.rangeOf_crlf`), while its bytes lie as many bytes further as there are line feeds before it.
-/
import GibianeEditor.Proofs.Text.Offset

namespace GibianeEditor.Text

/-- The text with a carriage return before each line feed. -/
def crlf (t : Text) : Text := t.flatMap fun c => if c = '\n' then ['\r', '\n'] else [c]

/-- Where a byte offset of a text lies when a carriage return comes before each line feed. -/
def crlfOffset (t : Text) (offset : Nat) : Nat := offset + (t.upTo Char.utf8Size offset).count '\n'

def crlfSpan (t : Text) (span : Span) : Span := ⟨t.crlfOffset span.start, t.crlfOffset span.stop⟩

/-! ## Characters -/

@[simp] theorem crlf_nil : crlf [] = [] := rfl

@[simp] theorem crlf_lineFeed (t : Text) : crlf ('\n' :: t) = '\r' :: '\n' :: crlf t := by
  simp [crlf]

theorem crlf_cons {c : Char} (h : c ≠ '\n') (t : Text) : crlf (c :: t) = c :: crlf t := by
  simp [crlf, h]

theorem crlf_append (t u : Text) : crlf (t ++ u) = crlf t ++ crlf u := List.flatMap_append

theorem crlf_of_not_mem {t : Text} (h : '\n' ∉ t) : crlf t = t := by
  induction t with
  | nil => rfl
  | cons c t ih =>
    obtain ⟨hc, ht⟩ := List.ne_and_not_mem_of_not_mem_cons h
    rw [crlf_cons (Ne.symm hc), ih ht]

theorem bytes_crlf (t : Text) : (crlf t).bytes = t.bytes + t.count '\n' := by
  induction t with
  | nil => rfl
  | cons c t ih =>
    by_cases hc : c = '\n'
    · have hreturn : Char.utf8Size '\r' = 1 := rfl
      rw [hc, crlf_lineFeed, List.count_cons_self]
      simp only [bytes, extent_cons, hreturn] at ih ⊢
      omega
    · rw [crlf_cons hc, List.count_cons_of_ne hc]
      simp only [bytes, extent_cons] at ih ⊢
      omega

/-- A cut moves to the same cut. -/
theorem crlfOffset_append (u v : Text) : crlfOffset (u ++ v) u.bytes = (crlf u).bytes := by
  rw [crlfOffset, upTo_bytes_append, bytes_crlf]

theorem count_upTo_le (t : Text) {offset offset' : Nat} (h : offset ≤ offset') :
    (t.upTo Char.utf8Size offset).count '\n' ≤ (t.upTo Char.utf8Size offset').count '\n' := by
  induction t generalizing offset offset' with
  | nil => exact Nat.le_refl _
  | cons c t ih =>
    unfold upTo
    by_cases hc : c.utf8Size ≤ offset
    · have hrest : offset - c.utf8Size ≤ offset' - c.utf8Size := Nat.sub_le_sub_right h _
      rw [if_pos hc, if_pos (Nat.le_trans hc h), List.count_cons, List.count_cons]
      exact Nat.add_le_add_right (ih hrest) _
    · rw [if_neg hc]
      exact Nat.zero_le _

/-- What lies behind goes on lying behind. -/
theorem crlfOffset_le (t : Text) {offset offset' : Nat} (h : offset ≤ offset') :
    t.crlfOffset offset ≤ t.crlfOffset offset' :=
  Nat.add_le_add h (count_upTo_le t h)

/-! ## Lines -/

theorem lines_crlf {t : Text} (h : '\r' ∉ t) : lines (crlf t) = (lines t).map crlf := by
  induction t with
  | nil => rfl
  | cons c t ih =>
    obtain ⟨hc, ht⟩ := List.ne_and_not_mem_of_not_mem_cons h
    have ih := ih ht
    by_cases hfeed : c = '\n'
    · have hwaits : endsLine '\r' ('\n' :: crlf t) = false := rfl
      rw [hfeed, crlf_lineFeed, lines_keep hwaits, lines_break rfl, lines_break rfl, ih]
      rfl
    · have hends : ∀ u, endsLine c u = isLineBreak c := by
        intro u
        simp [endsLine, Ne.symm hc]
      rw [crlf_cons hfeed]
      cases hbreak : isLineBreak c with
      | true =>
        rw [lines_break ((hends _).trans hbreak), lines_break ((hends _).trans hbreak), ih, List.map_cons,
          crlf_cons hfeed]
        rfl
      | false =>
        obtain ⟨l, ls, hlines⟩ := List.exists_cons_of_ne_nil (lines_ne_nil t)
        rw [lines_keep ((hends _).trans hbreak), lines_keep ((hends _).trans hbreak), ih, hlines]
        simp [crlf_cons hfeed]

theorem lineContent_crlf {line : Text} (h : '\r' ∉ line) : lineContent (crlf line) = lineContent line := by
  induction line with
  | nil => rfl
  | cons c line ih =>
    obtain ⟨hc, hline⟩ := List.ne_and_not_mem_of_not_mem_cons h
    by_cases hfeed : c = '\n'
    · simp [hfeed, lineContent]
    · have ih := ih hline
      rw [lineContent] at ih
      rw [crlf_cons hfeed]
      simp [lineContent, hfeed, Ne.symm hc, ih]

theorem lineFeed_not_mem_lastLine (t : Text) : '\n' ∉ t.lastLine := by
  intro h
  have hbreak := isLineBreak_of_mem_lastLine h
  revert hbreak
  decide

theorem positionBehind_crlf {t : Text} (h : '\r' ∉ t) : (crlf t).positionBehind = t.positionBehind := by
  have hlast : (crlf t).lastLine = t.lastLine := by
    have hmap : (crlf t).lastLine = crlf t.lastLine := by
      rw [lastLine, lines_crlf h, lastLine, List.getLastD_eq_getLast?, List.getLastD_eq_getLast?, List.getLast?_map]
      cases (lines t).getLast? <;> rfl
    rw [hmap, crlf_of_not_mem (lineFeed_not_mem_lastLine t)]
  rw [positionBehind, positionBehind, hlast, lines_crlf h, List.length_map]

/-! ## Positions -/

theorem not_mem_of_mem_lines {t line : Text} {c : Char} (h : c ∉ t) (hline : line ∈ t.lines) : c ∉ line := by
  intro hc
  refine h ?_
  rw [← flatten_lines t]
  exact List.mem_flatten.2 ⟨line, hline, hc⟩

/-- A column of a line leads to the same place in it. -/
theorem offsetInLine_crlf {line : Text} (h : '\r' ∉ line) (column : Nat) :
    offsetInLine (crlf line) column = offsetInLine line column := by
  rw [offsetInLine, lineContent_crlf h, offsetInLine]

theorem flatten_map_crlf (ls : List Text) : (ls.map crlf).flatten = crlf ls.flatten := by
  induction ls with
  | nil => rfl
  | cons line ls ih => rw [List.map_cons, List.flatten_cons, List.flatten_cons, crlf_append, ih]

/-- A position that leads to a cut leads to the same cut. -/
theorem exists_cut_of_offsetAt? {t : Text} (h : '\r' ∉ t) {p : Position} {offset : Nat}
    (hoffset : t.offsetAt? p = some offset) :
    ∃ u v : Text, t = u ++ v ∧ offset = u.bytes ∧ (crlf t).offsetAt? p = some (crlf u).bytes := by
  obtain ⟨above, u, v, below, hlines, hline, hcontent, hcolumn, htext, hbytes⟩ := exists_line_of_offsetAt? hoffset
  refine ⟨above.flatten ++ u, v ++ below.flatten, htext, hbytes, ?_⟩
  have hreturn : '\r' ∉ u ++ v := not_mem_of_mem_lines h (by simp [hlines])
  have hplain : crlf u = u := crlf_of_not_mem fun hfeed => (hcontent _ hfeed).1 rfl
  have hat := offsetIn_append (above.map crlf) (crlf (u ++ v) :: below.map crlf) 0 p.character
  rw [List.length_map, hline, Nat.add_zero, offsetIn, offsetInLine_crlf hreturn, hcolumn, flatten_map_crlf] at hat
  rw [offsetAt?, lines_crlf h, hlines, List.map_append, List.map_cons, hat, crlf_append, hplain]
  exact congrArg some (extent_append _ _).symm

/-- A position leads to the same place. -/
theorem offsetAt?_crlf {t : Text} (h : '\r' ∉ t) (p : Position) :
    (crlf t).offsetAt? p = (t.offsetAt? p).map t.crlfOffset := by
  cases hoffset : t.offsetAt? p with
  | some offset =>
    obtain ⟨u, v, rfl, rfl, hu⟩ := exists_cut_of_offsetAt? h hoffset
    rw [hu, Option.map_some, crlfOffset_append]
  | none =>
    have hlines : ¬p.line < t.lines.length := by
      rw [← offsetAt?_isSome_iff, hoffset]
      simp
    rw [Option.map_none, ← Option.not_isSome_iff_eq_none, offsetAt?_isSome_iff, lines_crlf h, List.length_map]
    exact hlines

/-! ## Words -/

theorem isWordChar_lineFeed : isWordChar '\n' = false := isWordChar_eq_false_of_isLineBreak rfl

theorem isWordChar_carriageReturn : isWordChar '\r' = false := isWordChar_eq_false_of_isLineBreak rfl

theorem lineFeed_not_mem_of_isWordChar {t : Text} (h : ∀ c ∈ t, isWordChar c = true) : '\n' ∉ t := by
  intro hmem
  have hword := h '\n' hmem
  rw [isWordChar_lineFeed] at hword
  cases hword

/-- Whether a text starts with what may stand in a word does not change. -/
theorem head?_crlf {t : Text} (h : ∀ c ∈ t.head?, isWordChar c = false) :
    ∀ c ∈ (crlf t).head?, isWordChar c = false := by
  cases t with
  | nil => exact h
  | cons d t =>
    intro c hc
    by_cases hfeed : d = '\n'
    · rw [hfeed, crlf_lineFeed] at hc
      obtain rfl : '\r' = c := by simpa using hc
      exact isWordChar_carriageReturn
    · rw [crlf_cons hfeed] at hc
      exact h c hc

theorem getLast?_crlf (t : Text) : (crlf t).getLast? = t.getLast? := by
  rcases List.eq_nil_or_concat' t with rfl | ⟨t, c, rfl⟩
  · rfl
  · rw [crlf_append]
    by_cases hfeed : c = '\n'
    · simp [hfeed]
    · simp [crlf_cons hfeed]

theorem WordAt.crlf {t before word after : Text} {span : Span} (h : t.WordAt span before word after) :
    t.crlf.WordAt (t.crlfSpan span) before.crlf word after.crlf where
  text := by
    rw [h.text, crlf_append, crlf_append, crlf_of_not_mem (lineFeed_not_mem_of_isWordChar h.chars)]
  span := by
    have hword := crlf_of_not_mem (lineFeed_not_mem_of_isWordChar h.chars)
    have hstop : before.bytes + word.bytes = Text.bytes (before ++ word) := (extent_append before word).symm
    have hstart : t.crlfOffset before.bytes = before.crlf.bytes := by
      rw [h.text, List.append_assoc, crlfOffset_append]
    have hend : t.crlfOffset (before.bytes + word.bytes) = before.crlf.bytes + word.bytes := by
      rw [h.text, hstop, crlfOffset_append, crlf_append, hword]
      exact extent_append before.crlf word
    rw [crlfSpan, h.span, hstart, hend]
  nonempty := h.nonempty
  chars := h.chars
  ends := head?_crlf h.ends

/-- A word has the same range. -/
theorem WordAt.rangeOf_crlf {t before word after : Text} {span : Span} (h : t.WordAt span before word after)
    (hreturn : '\r' ∉ t) : t.crlf.rangeOf (t.crlfSpan span) = t.rangeOf span := by
  have hbefore : '\r' ∉ before := by
    rw [h.text] at hreturn
    exact fun hmem => hreturn (by simp [hmem])
  rw [h.crlf.rangeOf_eq, h.rangeOf_eq, positionBehind_crlf hbefore]

/-! ## The word at a cursor -/

theorem wordEnd_crlf (t : Text) : t.crlf.wordEnd = t.wordEnd := by
  obtain ⟨before, ht⟩ := exists_append_wordEnd t
  have hchars : ∀ c ∈ t.wordEnd, isWordChar c = true := fun _ => isWordChar_of_mem_wordEnd
  have hends : before.wordEnd = [] := wordEnd_eq_nil_of_append ht
  have hbefore : before.crlf.wordEnd = [] := by
    rw [wordEnd_eq_nil_iff, getLast?_crlf, ← wordEnd_eq_nil_iff]
    exact hends
  calc t.crlf.wordEnd = wordEnd (before.crlf ++ t.wordEnd) := by
        conv_lhs => rw [ht, crlf_append, crlf_of_not_mem (lineFeed_not_mem_of_isWordChar hchars)]
    _ = t.wordEnd := by rw [wordEnd_append _ hchars, hbefore, List.nil_append]

theorem takeWhile_crlf (t : Text) : t.crlf.takeWhile isWordChar = t.takeWhile isWordChar := by
  induction t with
  | nil => rfl
  | cons c t ih =>
    by_cases hfeed : c = '\n'
    · simp [hfeed, isWordChar_lineFeed, isWordChar_carriageReturn]
    · rw [crlf_cons hfeed, List.takeWhile_cons, List.takeWhile_cons, ih]

/-- The same word is at a cut. -/
theorem wordAt?_crlf (u v : Text) :
    (u ++ v).crlf.wordAt? u.crlf.bytes =
      ((u ++ v).wordAt? u.bytes).map fun found => (found.1, (u ++ v).crlfSpan found.2) := by
  rw [crlf_append, wordAt?_append, wordAt?_append, wordEnd_crlf, takeWhile_crlf]
  by_cases hne : u.wordEnd ++ v.takeWhile isWordChar = []
  · rw [if_pos hne, if_pos hne]
    rfl
  · obtain ⟨before, after, hu, hword⟩ := wordAt_of_cut hne
    have hspan := hword.crlf.span
    have hfeed : '\n' ∉ u.wordEnd := lineFeed_not_mem_of_isWordChar fun _ => isWordChar_of_mem_wordEnd
    have hcrlf : u.crlf = before.crlf ++ u.wordEnd := by
      conv_lhs => rw [hu, crlf_append, crlf_of_not_mem hfeed]
    rw [if_neg hne, if_neg hne, Option.map_some, hspan, hcrlf]
    simp only [bytes, extent_append, Option.some.injEq, Prod.mk.injEq, Span.mk.injEq, true_and]
    omega

end GibianeEditor.Text
