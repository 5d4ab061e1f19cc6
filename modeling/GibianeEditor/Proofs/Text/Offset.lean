/-
Byte offsets sent through positions. Only some offsets come back as they are: those that part two
characters, but not a carriage return from its line feed (`Cut`). Every offset has the position of the
last of them that is not behind it (`settle`, `positionAt_eq`), so it comes back as that one, and a
later offset never gets an earlier position (`positionAt_le`). A position, whatever its line and
column, leads to no other offsets (`cut_of_offsetAt?`). The numbers of a position are no larger than the
text is long, so the protocol's 32 bits hold them for every text of less than 2^32 bytes
(`toPosition_wire_positionAt`).
-/
import Mathlib.Data.List.TakeWhile
import GibianeEditor.Proofs.Text.Word
import GibianeEditor.Text.Wire

namespace GibianeEditor

/-- Order of positions, equal ones included. -/
def Position.UpTo (a b : Position) : Prop := a = b ∨ a.Before b

instance (a b : Position) : Decidable (a.UpTo b) := inferInstanceAs (Decidable (a = b ∨ a.Before b))

theorem Position.UpTo.not_before {a b : Position} (h : a.UpTo b) : ¬b.Before a := by
  rcases h with rfl | h
  · exact fun h => h.ne rfl
  · exact fun h' => (h.trans h').ne rfl

namespace Text

/-- Whether an offset lies between two characters of a text or at an end of it, and not between a
carriage return and its line feed. -/
def Cut (t : Text) (offset : Nat) : Prop := ∃ u v, t = u ++ v ∧ offset = u.bytes ∧ cutsBreak u v = false

/-- Where an offset settles: at the end of the text if it lies behind, else at the start of the
character it lies in, and in front of the carriage return if that start is between one and its line
feed. -/
def settle (t : Text) (offset : Nat) : Nat :=
  let before : Text := t.upTo Char.utf8Size offset
  if cutsBreak before (t.past Char.utf8Size offset) then Text.bytes before.dropLast else before.bytes

/-! ## Beginnings of a text -/

theorem upTo_append_of_le {x : Text} (y : Text) {n : Nat} (h : x.bytes ≤ n) :
    (x ++ y).upTo Char.utf8Size n = x ++ y.upTo Char.utf8Size (n - x.bytes) := by
  induction x generalizing n with
  | nil => rfl
  | cons c x ih =>
    simp only [bytes, extent_cons] at h ih ⊢
    have hc : c.utf8Size ≤ n := by omega
    rw [List.cons_append, upTo, if_pos hc, ih (by omega), Nat.sub_sub]
    rfl

/-- A beginning is cut where the whole text is. -/
theorem upTo_bytes_upTo (x y : Text) (n : Nat) :
    x.upTo Char.utf8Size (Text.bytes ((x ++ y).upTo Char.utf8Size n)) = x.upTo Char.utf8Size n := by
  induction x generalizing n with
  | nil => rfl
  | cons c x ih =>
    by_cases hc : c.utf8Size ≤ n
    · simp [upTo, hc, ih]
    · have hpos : ¬c.utf8Size ≤ 0 := Nat.not_le.2 c.utf8Size_pos
      simp [upTo, hc, hpos]

/-! ## Offsets that settle -/

/-- Where a break is cut, a carriage return is on one side and its line feed on the other. -/
theorem exists_of_cutsBreak {u v : Text} (h : cutsBreak u v = true) :
    ∃ u' v', u = u' ++ ['\r'] ∧ v = '\n' :: v' := by
  simp only [cutsBreak, Bool.and_eq_true, beq_iff_eq] at h
  obtain ⟨u', rfl⟩ := List.getLast?_eq_some_iff.1 h.1
  obtain ⟨v', rfl⟩ := List.head?_eq_some_iff.1 h.2
  exact ⟨u', v', rfl, rfl⟩

/-- In front of a carriage return no break is cut. -/
theorem cutsBreak_carriageReturn (u v : Text) : cutsBreak u ('\r' :: v) = false := by
  simp [cutsBreak]

theorem cut_settle (t : Text) (offset : Nat) : t.Cut (t.settle offset) := by
  have hcut : t.upTo Char.utf8Size offset ++ t.past Char.utf8Size offset = t := upTo_append_past offset t
  rw [settle]
  split
  · rename_i h
    obtain ⟨u, v, hu, hv⟩ := exists_of_cutsBreak h
    rw [hu, hv] at hcut
    exact ⟨u, '\r' :: '\n' :: v, by simp [← hcut], by simp [hu], cutsBreak_carriageReturn _ _⟩
  · rename_i h
    exact ⟨_, _, hcut.symm, rfl, by simpa using h⟩

theorem settle_le (t : Text) (offset : Nat) : t.settle offset ≤ offset := by
  have hle : Text.bytes (t.upTo Char.utf8Size offset) ≤ offset := extent_upTo_le offset t
  rw [settle]
  split
  · rename_i h
    obtain ⟨u, v, hu, _⟩ := exists_of_cutsBreak h
    rw [hu] at hle
    simp only [hu, List.dropLast_concat, bytes, extent_append] at hle ⊢
    omega
  · exact hle

/-- An offset settles at the last cut that is not behind it. -/
theorem Cut.le_settle {t : Text} {cut offset : Nat} (h : t.Cut cut) (hle : cut ≤ offset) : cut ≤ t.settle offset := by
  obtain ⟨u, v, rfl, rfl, hkeeps⟩ := h
  have hbefore := upTo_append_of_le v hle
  have hcut : (u ++ v).upTo Char.utf8Size offset ++ (u ++ v).past Char.utf8Size offset = u ++ v :=
    upTo_append_past offset (u ++ v)
  rw [hbefore, List.append_assoc, List.append_cancel_left_eq] at hcut
  rw [settle, hbefore]
  split
  · rename_i h
    obtain ⟨u', v', hu, hv⟩ := exists_of_cutsBreak h
    rcases List.eq_nil_or_concat' (v.upTo Char.utf8Size (offset - u.bytes)) with hnil | ⟨w, c, hw⟩
    · -- The break would be cut at the cut itself.
      rw [hnil, List.nil_append] at hcut
      rw [hnil, List.append_nil, hcut, hkeeps] at h
      cases h
    · rw [hw, ← List.append_assoc, List.dropLast_concat]
      simp [bytes]
  · simp [bytes]

theorem settle_eq_self_iff (t : Text) (offset : Nat) : t.settle offset = offset ↔ t.Cut offset :=
  ⟨fun h => h ▸ t.cut_settle offset,
    fun h => Nat.le_antisymm (t.settle_le offset) (h.le_settle (Nat.le_refl _))⟩

theorem settle_mono (t : Text) {offset offset' : Nat} (h : offset ≤ offset') : t.settle offset ≤ t.settle offset' :=
  (t.cut_settle offset).le_settle (Nat.le_trans (t.settle_le offset) h)

/-! ## The position of an offset -/

theorem columnIn_bytes_upTo (line rest : Text) (offset : Nat) :
    columnIn line (Text.bytes ((line ++ rest).upTo Char.utf8Size offset)) = columnIn line offset := by
  have hline : lineContent line ++ line.dropWhile (fun c => c != '\n' && c != '\r') = line :=
    List.takeWhile_append_dropWhile
  have hfloor := upTo_bytes_upTo (lineContent line) (line.dropWhile (fun c => c != '\n' && c != '\r') ++ rest) offset
  rw [← List.append_assoc, hline] at hfloor
  rw [columnIn, hfloor, columnIn]

theorem positionIn_of_lt {line : Text} {offset : Nat} (h : offset < line.bytes) (ls : List Text) :
    positionIn (line :: ls) offset = ⟨0, columnIn line offset⟩ := by
  cases ls with
  | nil => rfl
  | cons next ls =>
    rw [positionIn, if_pos h]
    simp

/-- An offset inside a character has the position of the character's start. -/
theorem positionIn_bytes_upTo (ls : List Text) (offset : Nat) :
    positionIn ls (Text.bytes (upTo Char.utf8Size offset ls.flatten)) = positionIn ls offset := by
  induction ls generalizing offset with
  | nil => rfl
  | cons line ls ih =>
    cases ls with
    | nil => rw [positionIn, positionIn, List.flatten_cons, columnIn_bytes_upTo]
    | cons next ls =>
      rw [List.flatten_cons]
      by_cases hlt : offset < line.bytes
      · have hle : Text.bytes (upTo Char.utf8Size offset (line ++ (next :: ls).flatten)) ≤ offset := extent_upTo_le _ _
        rw [positionIn_of_lt hlt, positionIn_of_lt (Nat.lt_of_le_of_lt hle hlt), columnIn_bytes_upTo]
      · have hle := Nat.le_of_not_lt hlt
        have hnext : next :: ls ≠ [] := by simp
        obtain ⟨rest, rfl⟩ := Nat.exists_eq_add_of_le hle
        rw [upTo_append_of_le _ hle, Nat.add_sub_cancel_left, bytes, extent_append, positionIn_cons hnext, ih,
          positionIn_cons hnext]

theorem positionAt_bytes_upTo (t : Text) (offset : Nat) :
    t.positionAt (Text.bytes (t.upTo Char.utf8Size offset)) = t.positionAt offset := by
  have h := positionIn_bytes_upTo t.lines offset
  rwa [flatten_lines] at h

/-- Between a carriage return and its line feed the position is that of the carriage return. -/
theorem positionAt_of_cutsBreak (u v : Text) :
    Text.positionAt (u ++ '\r' :: '\n' :: v) (u.bytes + 1) = u.positionBehind := by
  have hlines : lines (u ++ '\r' :: '\n' :: v) = u.lines.dropLast ++ ((u.lastLine ++ ['\r', '\n']) :: lines v) := by
    rw [lines_append (cutsBreak_carriageReturn u _), linesBehind_crlf, linesBehind_nil]
  have hlast := onOneLine_lastLine u
  have hcontent : lineContent (u.lastLine ++ ['\r', '\n']) = u.lastLine := by
    rw [lineContent_append hlast]
    simp [lineContent]
  have hlt : u.lastLine.bytes + 1 < Text.bytes (u.lastLine ++ ['\r', '\n']) := by
    have hreturn : Char.utf8Size '\r' = 1 := rfl
    have hfeed : Char.utf8Size '\n' = 1 := rfl
    simp [bytes, hreturn, hfeed]
  have hcolumn : columnIn (u.lastLine ++ ['\r', '\n']) (u.lastLine.bytes + 1) = u.lastLine.units := by
    have hall := upTo_append_of_le (x := u.lastLine) [] (Nat.le_succ u.lastLine.bytes)
    rw [List.append_nil] at hall
    rw [columnIn, hcontent, hall]
    simp [upTo]
  rw [positionAt, hlines, bytes_eq_of_lines u, Nat.add_assoc, positionIn_append _ (by simp), positionIn_of_lt hlt,
    hcolumn, positionBehind, List.length_dropLast]
  rfl

/-- An offset has the position of the cut where it settles. -/
theorem positionAt_eq (t : Text) (offset : Nat) :
    ∃ u v, t = u ++ v ∧ cutsBreak u v = false ∧ t.settle offset = u.bytes ∧ t.positionAt offset = u.positionBehind := by
  have hcut : t.upTo Char.utf8Size offset ++ t.past Char.utf8Size offset = t := upTo_append_past offset t
  have hposition := positionAt_bytes_upTo t offset
  rw [settle]
  cases hbreak : cutsBreak (t.upTo Char.utf8Size offset) (t.past Char.utf8Size offset) with
  | false =>
    refine ⟨_, _, hcut.symm, hbreak, rfl, ?_⟩
    rw [← hposition, ← positionAt_append hbreak, hcut]
  | true =>
    obtain ⟨u, v, hu, hv⟩ := exists_of_cutsBreak hbreak
    have hbytes : Text.bytes (u ++ ['\r']) = u.bytes + 1 := extent_append u ['\r']
    rw [hu, hv, List.append_assoc, List.singleton_append] at hcut
    refine ⟨u, '\r' :: '\n' :: v, hcut.symm, cutsBreak_carriageReturn u _, by simp [hu], ?_⟩
    rw [← hposition, hu, hbytes, ← hcut, positionAt_of_cutsBreak]

theorem cutsBreak_of_append {u x v : Text} (h : cutsBreak u (x ++ v) = false) : cutsBreak u x = false := by
  cases x with
  | nil => simp [cutsBreak]
  | cons c x => exact h

/-- A later offset has no earlier position. -/
theorem positionAt_le (t : Text) {offset offset' : Nat} (h : offset ≤ offset') :
    (t.positionAt offset).UpTo (t.positionAt offset') := by
  have hle := t.settle_mono h
  obtain ⟨u, v, hcut, hbreak, hsettle, hposition⟩ := t.positionAt_eq offset
  obtain ⟨u', v', hcut', _, hsettle', hposition'⟩ := t.positionAt_eq offset'
  rw [hsettle, hsettle'] at hle
  obtain ⟨x, rfl, rfl⟩ := exists_append_of_bytes_le (hcut.symm.trans hcut') hle
  rw [hposition, hposition']
  by_cases hx : x = []
  · exact .inl (by rw [hx, List.append_nil])
  · exact .inr (before_positionBehind_append (cutsBreak_of_append hbreak) hx)

/-! ## How large positions are -/

/-- No break is cut between two lines. -/
theorem cutsBreak_of_lines {t : Text} {ls ms : List Text} (h : t.lines = ls ++ ms) (hms : ms ≠ []) :
    cutsBreak ls.flatten ms.flatten = false := by
  induction t generalizing ls with
  | nil =>
    cases ls with
    | nil => rfl
    | cons l ls =>
      rw [lines, List.cons_append, List.cons.injEq] at h
      exact absurd (List.append_eq_nil_iff.1 h.2.symm).2 hms
  | cons c t ih =>
    cases ls with
    | nil => rfl
    | cons l ls =>
      rw [List.cons_append] at h
      rcases cases_of_lines_cons h with ⟨hends, rfl, hlines⟩ | ⟨_, m, rfl, hlines⟩
      · have hrest := ih hlines
        have hflat : ls.flatten ++ ms.flatten = t := by rw [← List.flatten_append, ← hlines, flatten_lines]
        rw [List.flatten_cons, List.singleton_append]
        cases hls : ls.flatten with
        | nil =>
          -- A carriage return that ends a line has no line feed behind it.
          rw [hls, List.nil_append] at hflat
          rw [hflat]
          simp only [endsLine, Bool.and_eq_true, Bool.not_eq_true'] at hends
          simpa [cutsBreak] using hends.2
        | cons d u =>
          rw [hls] at hrest
          simpa [cutsBreak] using hrest
      · have hrest := @ih (m :: ls) hlines
        have hne : m ≠ [] := by
          obtain ⟨next, more, hmore⟩ := List.exists_cons_of_ne_nil (List.append_ne_nil_of_right_ne_nil ls hms)
          rw [hmore] at hlines
          exact head_ne_nil_of_lines hlines
        obtain ⟨d, u, rfl⟩ := List.exists_cons_of_ne_nil hne
        simpa [cutsBreak] using hrest

/-- The line that a position names, and where its column leads on it. -/
theorem exists_line_of_offsetIn {ls : List Text} {n column offset : Nat} (h : offsetIn ls n column = some offset) :
    ∃ above line below, ls = above ++ line :: below ∧ above.length = n ∧
      offset = Text.bytes above.flatten + offsetInLine line column := by
  induction ls generalizing n offset with
  | nil => cases h
  | cons line ls ih =>
    cases n with
    | zero =>
      rw [offsetIn, Option.some.injEq] at h
      exact ⟨[], line, ls, rfl, rfl, by simp [h]⟩
    | succ n =>
      rw [offsetIn] at h
      obtain ⟨rest, hrest, rfl⟩ := Option.map_eq_some_iff.1 h
      obtain ⟨above, named, below, rfl, rfl, rfl⟩ := ih hrest
      refine ⟨line :: above, named, below, rfl, rfl, ?_⟩
      simp only [List.flatten_cons, bytes, extent_append, Nat.add_assoc]

/-- A column leads to a cut of what the line holds in front of its line feed or carriage return. -/
theorem exists_cut_lineContent (line : Text) (column : Nat) :
    ∃ u v, line = u ++ v ∧ offsetInLine line column = u.bytes ∧ OnOneLine u := by
  have hcontent : lineContent line ++ line.dropWhile (fun c => c != '\n' && c != '\r') = line :=
    List.takeWhile_append_dropWhile
  have hcut : (lineContent line).upTo utf16Size column ++ (lineContent line).past utf16Size column = lineContent line :=
    upTo_append_past column _
  refine ⟨(lineContent line).upTo utf16Size column, (lineContent line).past utf16Size column ++
    line.dropWhile (fun c => c != '\n' && c != '\r'), ?_, rfl, fun c hc => ?_⟩
  · rw [← List.append_assoc, hcut, hcontent]
  · have hmem : c ∈ lineContent line := by
      rw [← hcut]
      exact List.mem_append_left _ hc
    simpa using List.mem_takeWhile_imp hmem

/-- The offset that a position leads to lies behind the lines above and what the line has in front of
its column. -/
theorem exists_line_of_offsetAt? {t : Text} {p : Position} {offset : Nat} (h : t.offsetAt? p = some offset) :
    ∃ above u v below, t.lines = above ++ (u ++ v) :: below ∧ above.length = p.line ∧ OnOneLine u ∧
      offsetInLine (u ++ v) p.character = u.bytes ∧ t = (above.flatten ++ u) ++ (v ++ below.flatten) ∧
      offset = Text.bytes (above.flatten ++ u) := by
  obtain ⟨above, line, below, hlines, hlength, rfl⟩ := exists_line_of_offsetIn h
  obtain ⟨u, v, rfl, hu, hcontent⟩ := exists_cut_lineContent line p.character
  refine ⟨above, u, v, below, hlines, hlength, hcontent, hu, ?_, ?_⟩
  · have hflat : t = (above ++ (u ++ v) :: below).flatten := by rw [← hlines, flatten_lines]
    rw [hflat, List.flatten_append, List.flatten_cons]
    simp only [List.append_assoc]
  · rw [hu]
    exact (extent_append _ _).symm

/-- Whatever position it is asked for, an offset that is given settles where it is. -/
theorem cut_of_offsetAt? {t : Text} {p : Position} {offset : Nat} (h : t.offsetAt? p = some offset) : t.Cut offset := by
  obtain ⟨above, u, v, below, hlines, _, hcontent, _, htext, hoffset⟩ := exists_line_of_offsetAt? h
  refine ⟨above.flatten ++ u, v ++ below.flatten, htext, hoffset, ?_⟩
  rcases List.eq_nil_or_concat' u with rfl | ⟨w, c, rfl⟩
  · have hbreak := cutsBreak_of_lines hlines (by simp)
    simpa using hbreak
  · have hc : c ≠ '\r' := (hcontent c (by simp)).2
    simp [cutsBreak, ← List.append_assoc, hc]

/-- **Byte offsets survive the trip through positions.** An offset comes back as the one where it
settles, a later offset has no earlier position, and every offset that a position leads to settles
where it is. -/
theorem offsets_survive_positions (t : Text) :
    (∀ offset, t.offsetAt? (t.positionAt offset) = some (t.settle offset)) ∧
    (∀ offset offset', offset ≤ offset' → (t.positionAt offset).UpTo (t.positionAt offset')) ∧
    ∀ p offset, t.offsetAt? p = some offset → t.settle offset = offset := by
  refine ⟨fun offset => ?_, fun _ _ => t.positionAt_le, fun p offset h => ?_⟩
  · obtain ⟨u, v, hcut, hbreak, hsettle, hposition⟩ := t.positionAt_eq offset
    rw [hsettle, hposition, hcut, offsetAt?_positionBehind hbreak]
  · exact (t.settle_eq_self_iff offset).2 (cut_of_offsetAt? h)

/-- Offsets inside a character, inside a break and behind the text settle, and the offset behind a
vertical tab stays although its line has ended. -/
theorem offsets_survive_among_breaks :
    let t : Text := "é\r\n😀\x0b".toList
    t.offsetAt? (t.positionAt 1) = some 0 ∧ t.offsetAt? (t.positionAt 3) = some 2 ∧
      t.offsetAt? (t.positionAt 6) = some 4 ∧ t.offsetAt? (t.positionAt 99) = some 9 ∧
      (t.positionAt 3).UpTo (t.positionAt 6) ∧ t.offsetAt? ⟨1, 8⟩ = some 9 ∧ t.settle 9 = 9 := by
  intro t
  obtain ⟨hback, hmono, hfixed⟩ := offsets_survive_positions t
  have hcolumn : t.offsetAt? ⟨1, 8⟩ = some 9 := by decide +kernel
  refine ⟨(hback 1).trans ?_, (hback 3).trans ?_, (hback 6).trans ?_, (hback 99).trans ?_, hmono 3 6 (by decide),
    hcolumn, hfixed _ 9 hcolumn⟩
  all_goals decide +kernel

end Text
end GibianeEditor
