/-
Where a text cut in two is cut. The lines of the text are those of its first part, and the last of
them goes on with the second part (`lines_append`). So the cut stands behind the last line of what
comes before it, whatever follows (`positionAt_append`), its position leads back to it
(`offsetAt?_positionBehind`), and a later cut has a later position (`before_positionBehind_append`).
Only a cut between a carriage return and its line feed is none of these.
-/
import GibianeEditor.Proofs.Text.Position

namespace GibianeEditor

/-- Order of positions: by line, then by column. -/
def Position.Before (a b : Position) : Prop := a.line < b.line ∨ a.line = b.line ∧ a.character < b.character

instance (a b : Position) : Decidable (a.Before b) :=
  inferInstanceAs (Decidable (a.line < b.line ∨ a.line = b.line ∧ a.character < b.character))

theorem Position.Before.trans {a b c : Position} (hab : a.Before b) (hbc : b.Before c) : a.Before c := by
  unfold Position.Before at *
  omega

theorem Position.Before.ne {a b : Position} (h : a.Before b) : a ≠ b := by
  rintro rfl
  unfold Position.Before at h
  omega

namespace Text

/-- What follows the last break. -/
def lastLine (t : Text) : Text := t.lines.getLastD []

/-- The position behind a text. -/
def positionBehind (t : Text) : Position := ⟨t.lines.length - 1, t.lastLine.units⟩

/-! ## Lines of two texts in a row -/

theorem dropLast_append_lastLine (t : Text) : t.lines.dropLast ++ [t.lastLine] = t.lines := by
  have hne := lines_ne_nil t
  rw [lastLine, List.getLastD_eq_getLast?, List.getLast?_eq_some_getLast hne]
  exact List.dropLast_append_getLast hne

theorem flatten_dropLast_append_lastLine (t : Text) : t.lines.dropLast.flatten ++ t.lastLine = t := by
  have h := congrArg List.flatten (dropLast_append_lastLine t)
  rw [flatten_lines] at h
  simpa using h

theorem lines_break {c : Char} {t : Text} (h : endsLine c t = true) : lines (c :: t) = [c] :: lines t := by
  rw [lines, h]
  rfl

theorem lines_keep {c : Char} {t : Text} (h : endsLine c t = false) :
    lines (c :: t) = (lines t).modifyHead (c :: ·) := by
  rw [lines, h]
  rfl

/-- A line break that ends no line is a carriage return in front of its line feed. -/
theorem exists_of_kept_break {c : Char} {t : Text} (hbreak : isLineBreak c = true) (hkept : endsLine c t = false) :
    c = '\r' ∧ ∃ u, t = '\n' :: u := by
  obtain ⟨rfl, hhead⟩ : c = '\r' ∧ t.head? = some '\n' := by simpa [endsLine, hbreak] using hkept
  exact ⟨rfl, List.head?_eq_some_iff.1 hhead⟩

/-- A character in front of a text is a line of its own, or the first line starts with it. -/
theorem cases_of_lines_cons {c : Char} {t l : Text} {ls : List Text} (h : lines (c :: t) = l :: ls) :
    (endsLine c t = true ∧ l = [c] ∧ lines t = ls) ∨ endsLine c t = false ∧ ∃ m, l = c :: m ∧ lines t = m :: ls := by
  cases hends : endsLine c t with
  | true =>
    rw [lines_break hends, List.cons.injEq] at h
    exact .inl ⟨rfl, h.1.symm, h.2⟩
  | false =>
    obtain ⟨m, ms, hlines⟩ := List.exists_cons_of_ne_nil (lines_ne_nil t)
    rw [lines_keep hends, hlines, List.modifyHead_cons, List.cons.injEq] at h
    obtain ⟨rfl, rfl⟩ := h
    exact .inr ⟨rfl, m, rfl, hlines⟩

/-- What comes behind a text does not change where its lines end, if no break is cut. -/
theorem endsLine_append {c : Char} {u v : Text} (h : cutsBreak (c :: u) v = false) :
    endsLine c (u ++ v) = endsLine c u := by
  cases u with
  | nil =>
    simp only [cutsBreak, List.getLast?_singleton] at h
    by_cases hc : c = '\r'
    · subst hc
      have hv : (v.head? == some '\n') = false := by simpa using h
      simp [endsLine, hv]
    · simp [endsLine, hc]
  | cons d u => rfl

theorem lines_append {u v : Text} (h : cutsBreak u v = false) :
    lines (u ++ v) = (lines u).dropLast ++ linesBehind u.lastLine v := by
  induction u with
  | nil => exact (linesBehind_nil v).symm
  | cons c u ih =>
    have ih := ih (cutsBreak_of_cons h)
    have hends := endsLine_append h
    obtain ⟨l, ls, hlines⟩ := List.exists_cons_of_ne_nil (lines_ne_nil u)
    cases hc : endsLine c u with
    | true =>
      rw [hc] at hends
      rw [List.cons_append, lines_break hends, ih, lastLine, lastLine, lines_break hc, hlines]
      simp
    | false =>
      rw [hc] at hends
      rw [List.cons_append, lines_keep hends, ih, lastLine, lastLine, lines_keep hc, hlines]
      -- The first line is the last one too, or it comes before.
      cases ls with
      | nil =>
        simp only [linesBehind, List.dropLast_singleton, List.modifyHead_cons, List.nil_append]
        cases lines v <;> simp
      | cons m ls => simp

theorem eq_singleton_of_lines {t l : Text} (h : lines t = [l]) : l = t := by
  have hflat := flatten_lines t
  rw [h] at hflat
  simpa using hflat

/-- Only the line at the end may hold nothing. -/
theorem head_ne_nil_of_lines {t l m : Text} {ls : List Text} (h : lines t = l :: m :: ls) : l ≠ [] := by
  cases t with
  | nil => simp [lines] at h
  | cons c t => rcases cases_of_lines_cons h with ⟨_, rfl, _⟩ | ⟨_, rest, rfl, _⟩ <;> simp

/-- A text without breaks is one line. -/
theorem lines_of_unbroken {t : Text} (h : ∀ c ∈ t, isLineBreak c = false) : lines t = [t] := by
  induction t with
  | nil => rfl
  | cons c t ih =>
    have hc : endsLine c t = false := by simp [endsLine, h c (by simp)]
    rw [lines_keep hc, ih fun d hd => h d (List.mem_cons_of_mem c hd)]
    rfl

theorem isLineBreak_of_mem_lastLine {t : Text} {c : Char} (hc : c ∈ t.lastLine) : isLineBreak c = false := by
  induction t with
  | nil => simp [lastLine, lines] at hc
  | cons d t ih =>
    obtain ⟨l, ls, hlines⟩ := List.exists_cons_of_ne_nil (lines_ne_nil t)
    cases hd : endsLine d t with
    | true =>
      rw [lastLine, lines_break hd, hlines] at hc
      exact ih (by rw [lastLine, hlines]; exact hc)
    | false =>
      cases ls with
      | cons m ls =>
        rw [lastLine, lines_keep hd, hlines] at hc
        exact ih (by rw [lastLine, hlines]; simpa using hc)
      | nil =>
        obtain rfl := eq_singleton_of_lines hlines
        rw [lastLine, lines_keep hd, hlines] at hc
        rcases List.mem_cons.1 hc with rfl | hc
        · -- A carriage return that waits for its line feed has a line behind it.
          cases hbreak : isLineBreak c with
          | false => rfl
          | true =>
            obtain ⟨rfl, u, rfl⟩ := exists_of_kept_break hbreak hd
            rw [lines_break rfl] at hlines
            exact absurd hlines (by simp [lines_ne_nil])
        · exact ih (by rw [lastLine, hlines]; exact hc)

theorem onOneLine_of_unbroken {t : Text} (h : ∀ c ∈ t, isLineBreak c = false) : OnOneLine t := by
  intro c hc
  have hc := h c hc
  constructor <;>
    · rintro rfl
      revert hc
      decide

/-- No break is cut in front of characters that end no line. -/
theorem cutsBreak_of_unbroken_right {x : Text} (hne : x ≠ []) (hx : ∀ c ∈ x, isLineBreak c = false) (u v : Text) :
    cutsBreak u (x ++ v) = false := by
  obtain ⟨c, x, rfl⟩ := List.exists_cons_of_ne_nil hne
  have hc : c ≠ '\n' := (onOneLine_of_unbroken hx c (by simp)).1
  simp [cutsBreak, hc]

/-- And none is cut behind them. -/
theorem cutsBreak_of_unbroken_left {x : Text} (hne : x ≠ []) (hx : ∀ c ∈ x, isLineBreak c = false) (u v : Text) :
    cutsBreak (u ++ x) v = false := by
  rcases List.eq_nil_or_concat' x with rfl | ⟨x, c, rfl⟩
  · exact absurd rfl hne
  · have hc : c ≠ '\r' := (onOneLine_of_unbroken hx c (by simp)).2
    simp [cutsBreak, ← List.append_assoc, hc]

theorem onOneLine_lastLine (t : Text) : OnOneLine t.lastLine :=
  onOneLine_of_unbroken fun _ => isLineBreak_of_mem_lastLine

/-! ## The position of a cut -/

theorem positionIn_cons {l : Text} {ls : List Text} (hls : ls ≠ []) (offset : Nat) :
    positionIn (l :: ls) (l.bytes + offset) = ⟨(positionIn ls offset).line + 1, (positionIn ls offset).character⟩ := by
  cases ls with
  | nil => exact absurd rfl hls
  | cons m ls =>
    have hlt : ¬l.bytes + offset < l.bytes := by omega
    rw [positionIn, if_neg hlt, Nat.add_sub_cancel_left]
    simp

theorem positionIn_append (ls : List Text) {ms : List Text} (hms : ms ≠ []) (offset : Nat) :
    positionIn (ls ++ ms) (Text.bytes ls.flatten + offset) =
      ⟨ls.length + (positionIn ms offset).line, (positionIn ms offset).character⟩ := by
  induction ls with
  | nil => simp
  | cons l ls ih =>
    have hne : ls ++ ms ≠ [] := by simp [hms]
    rw [List.flatten_cons, bytes, extent_append, Nat.add_assoc, List.cons_append]
    rw [positionIn_cons hne, ih]
    simp only [List.length_cons, Position.mk.injEq, and_true]
    omega

theorem offsetIn_append (ls ms : List Text) (n column : Nat) :
    offsetIn (ls ++ ms) (ls.length + n) column = (offsetIn ms n column).map (Text.bytes ls.flatten + ·) := by
  induction ls with
  | nil => simp
  | cons l ls ih =>
    rw [List.length_cons, Nat.add_right_comm, List.cons_append, offsetIn, ih, Option.map_map]
    congr 1
    funext o
    simp only [Function.comp_apply, List.flatten_cons, bytes, extent_append, Nat.add_assoc]

theorem columnIn_bytes {w : Text} (h : OnOneLine w) (rest : Text) : columnIn (w ++ rest) w.bytes = w.units := by
  rw [columnIn, lineContent_append h, upTo_bytes_append]

theorem positionIn_linesBehind (w : Text) (hw : OnOneLine w) (t : Text) :
    positionIn (linesBehind w t) w.bytes = ⟨0, w.units⟩ := by
  unfold linesBehind
  cases hlines : lines t with
  | nil => exact absurd hlines (lines_ne_nil t)
  | cons l ls =>
    rw [List.modifyHead_cons]
    cases ls with
    | nil => rw [positionIn, columnIn_bytes hw]
    | cons m ls =>
      have hpos := bytes_pos (head_ne_nil_of_lines hlines)
      have hlt : w.bytes < Text.bytes (w ++ l) := by
        simp only [bytes, extent_append] at hpos ⊢
        omega
      rw [positionIn, if_pos hlt, columnIn_bytes hw]
      simp

theorem linesBehind_ne_nil (w t : Text) : linesBehind w t ≠ [] := by
  obtain ⟨rest, ls, h⟩ := exists_linesBehind w t
  simp [h]

theorem bytes_eq_of_lines (t : Text) : t.bytes = Text.bytes t.lines.dropLast.flatten + t.lastLine.bytes := by
  conv_lhs => rw [← flatten_dropLast_append_lastLine t]
  rw [bytes, extent_append]

/-- The position of a cut is the one behind what comes before it. -/
theorem positionAt_append {u v : Text} (h : cutsBreak u v = false) :
    Text.positionAt (u ++ v) u.bytes = u.positionBehind := by
  rw [positionAt, lines_append h, bytes_eq_of_lines u, positionIn_append _ (linesBehind_ne_nil _ _),
    positionIn_linesBehind _ (onOneLine_lastLine u)]
  simp [positionBehind]

/-- The position behind a text leads behind it. -/
theorem offsetAt?_positionBehind {u v : Text} (h : cutsBreak u v = false) :
    Text.offsetAt? (u ++ v) u.positionBehind = some u.bytes := by
  have hlength : u.lines.length - 1 = u.lines.dropLast.length + 0 := by simp
  obtain ⟨rest, ls, hlines⟩ := exists_linesBehind u.lastLine v
  simp only [offsetAt?, positionBehind]
  rw [lines_append h, hlength, offsetIn_append, hlines, offsetIn, offsetInLine_units (onOneLine_lastLine u),
    Option.map_some, ← bytes_eq_of_lines]

/-- The range of characters that end no line reaches from the cut before them to the cut behind. -/
theorem rangeOf_append {x : Text} (hne : x ≠ []) (hx : ∀ c ∈ x, isLineBreak c = false) (u v : Text) :
    rangeOf (u ++ x ++ v) ⟨u.bytes, u.bytes + x.bytes⟩ = ⟨u.positionBehind, positionBehind (u ++ x)⟩ := by
  have hbytes : u.bytes + x.bytes = Text.bytes (u ++ x) := (extent_append u x).symm
  rw [rangeOf, hbytes, positionAt_append (cutsBreak_of_unbroken_left hne hx u v), List.append_assoc,
    positionAt_append (cutsBreak_of_unbroken_right hne hx u v)]

/-! ## The order of cuts -/

theorem units_pos {t : Text} (h : t ≠ []) : 0 < t.units := by
  obtain ⟨c, t, rfl⟩ := List.exists_cons_of_ne_nil h
  have := utf16Size_pos c
  simp only [units, extent_cons]
  omega

/-- Characters that end no line move the position along its line. -/
theorem positionBehind_append {u x : Text} (hx : ∀ c ∈ x, isLineBreak c = false) :
    positionBehind (u ++ x) = ⟨u.positionBehind.line, u.positionBehind.character + x.units⟩ := by
  have hcut : cutsBreak u x = false := by
    by_cases hne : x = []
    · simp [cutsBreak, hne]
    · simpa using cutsBreak_of_unbroken_right hne hx u []
  have hlines : lines (u ++ x) = u.lines.dropLast ++ [u.lastLine ++ x] := by
    rw [lines_append hcut, linesBehind, lines_of_unbroken hx]
    rfl
  simp only [positionBehind, lastLine, hlines]
  simp [units]

/-- A later cut has a later position. -/
theorem before_positionBehind_append {u x : Text} (h : cutsBreak u x = false) (hx : x ≠ []) :
    u.positionBehind.Before (positionBehind (u ++ x)) := by
  have hlines := lines_append h
  obtain ⟨l, ls, hl⟩ := List.exists_cons_of_ne_nil (lines_ne_nil x)
  rw [linesBehind, hl, List.modifyHead_cons] at hlines
  have hlength : u.lines.length - 1 = u.lines.dropLast.length := by simp
  cases ls with
  | nil =>
    obtain rfl := eq_singleton_of_lines hl
    have hpos := units_pos hx
    refine .inr ⟨?_, ?_⟩
    · simp only [positionBehind, hlines, hlength]
      simp
    · simp only [positionBehind, lastLine, hlines]
      simp only [List.getLastD_concat, units, extent_append] at hpos ⊢
      omega
  | cons m ls =>
    refine .inl ?_
    simp only [positionBehind, hlines, hlength]
    simp

end Text
end GibianeEditor
