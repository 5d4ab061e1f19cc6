/-
Positions sent through byte offsets. A column settles on its line: at the end of the line if it lies
behind, else at the start of the character it lies in (`settleColumn`). The position of the offset that a
position leads to is on the same line and at that column, with one exception: a line that ends neither
with a line feed nor with a carriage return keeps its break among its columns, so a column behind the end
leads onto the next line (`positions_stay_on_line_iff`).
-/
import GibianeEditor.Proofs.Text.Offset

namespace GibianeEditor.Text

/-- A line without the break that ends it, whichever that is. -/
def unbroken (line : Text) : Text := line.takeWhile fun c => !isLineBreak c

/-- Where a column settles on a line. -/
def settleColumn (line : Text) (column : Nat) : Nat :=
  ((unbroken line).upTo utf16Size (min column (unbroken line).units)).units

/-- Whether what ends a line is no line feed and no carriage return. -/
def EndsOddly (line : Text) : Prop := ∃ c ∈ line.getLast?, isOddBreak c = true

/-- Whether a column lies behind the end of a line whose break is among its columns. -/
def Overruns (line : Text) (column : Nat) : Prop := EndsOddly line ∧ (unbroken line).units < column

instance (line : Text) : Decidable (EndsOddly line) :=
  decidable_of_iff (line.getLast?.any isOddBreak = true) (by simp [EndsOddly, Option.any_eq_true])

instance (line : Text) (column : Nat) : Decidable (Overruns line column) :=
  inferInstanceAs (Decidable (EndsOddly line ∧ (unbroken line).units < column))

/-! ## How a line ends -/

theorem unbroken_append {w : Text} (hw : ∀ c ∈ w, isLineBreak c = false) (rest : Text) :
    unbroken (w ++ rest) = w ++ unbroken rest :=
  List.takeWhile_append_of_pos fun c hc => by simp [hw c hc]

theorem unbroken_cons_break {c : Char} (hc : isLineBreak c = true) (rest : Text) : unbroken (c :: rest) = [] :=
  List.takeWhile_cons_of_neg (by simp [hc])

theorem isLineBreak_of_editorBreak {c : Char} (hc : c = '\n' ∨ c = '\r') : isLineBreak c = true := by
  rcases hc with rfl | rfl <;> rfl

theorem isLineBreak_of_isOddBreak {c : Char} (hc : isOddBreak c = true) : isLineBreak c = true := by
  simp only [isOddBreak, Bool.and_eq_true] at hc
  exact hc.1.1

theorem isOddBreak_of_isLineBreak {c : Char} (hc : isLineBreak c = true) (hodd : ¬(c = '\n' ∨ c = '\r')) :
    isOddBreak c = true := by
  simpa [isOddBreak, hc] using hodd

/-- How a line of a text ends, with the lines below it: `last` where it has no break, `plain` where it
ends as an editor's does, `odd` where it ends at another break. -/
inductive Ending (below : List Text) : Text → Prop where
  | last {w : Text} (hw : ∀ c ∈ w, isLineBreak c = false) (hbelow : below = []) : Ending below w
  | plain {w : Text} {c : Char} {rest : Text} (hw : ∀ d ∈ w, isLineBreak d = false) (hc : c = '\n' ∨ c = '\r')
      (hrest : ∀ d ∈ rest, d = '\n') : Ending below (w ++ c :: rest)
  | odd {w : Text} {c : Char} (hw : ∀ d ∈ w, isLineBreak d = false) (hc : isOddBreak c = true)
      (hbelow : below ≠ []) : Ending below (w ++ [c])

theorem Ending.cons {below : List Text} {line : Text} (h : Ending below line) {c : Char}
    (hc : isLineBreak c = false) : Ending below (c :: line) := by
  have hcons : ∀ {w : Text}, (∀ d ∈ w, isLineBreak d = false) → ∀ d ∈ c :: w, isLineBreak d = false := by
    intro w hw d hd
    rcases List.mem_cons.1 hd with rfl | hd
    · exact hc
    · exact hw d hd
  cases h with
  | last hw hbelow => exact .last (hcons hw) hbelow
  | plain hw hbreak hrest => exact .plain (hcons hw) hbreak hrest
  | odd hw hodd hbelow => exact .odd (hcons hw) hodd hbelow

theorem ending_of_lines {t : Text} {above below : List Text} {line : Text} (h : t.lines = above ++ line :: below) :
    Ending below line := by
  induction t generalizing above line with
  | nil =>
    cases above with
    | nil =>
      obtain ⟨rfl, rfl⟩ : [] = line ∧ [] = below := by simpa [lines] using h
      exact .last (by simp) rfl
    | cons l above => simp [lines] at h
  | cons c t ih =>
    cases above with
    | cons l above =>
      rw [List.cons_append] at h
      rcases cases_of_lines_cons h with ⟨_, _, hlines⟩ | ⟨_, m, _, hlines⟩
      · exact ih hlines
      · exact @ih (m :: above) line hlines
    | nil =>
      rcases cases_of_lines_cons h with ⟨hends, rfl, rfl⟩ | ⟨hkept, l, rfl, hlines⟩
      · have hbreak : isLineBreak c = true := by
          simp only [endsLine, Bool.and_eq_true] at hends
          exact hends.1
        by_cases hc : c = '\n' ∨ c = '\r'
        · exact .plain (w := []) (by simp) hc (by simp)
        · exact .odd (w := []) (by simp) (isOddBreak_of_isLineBreak hbreak hc) (lines_ne_nil t)
      · have hrest := @ih [] l hlines
        cases hbreak : isLineBreak c with
        | false => exact hrest.cons hbreak
        | true =>
          -- Only a carriage return is kept, and its line feed ends the line.
          obtain ⟨rfl, u, rfl⟩ := exists_of_kept_break hbreak hkept
          rw [lines_break (by rfl), List.cons.injEq] at hlines
          obtain ⟨rfl, _⟩ := hlines
          exact .plain (w := []) (by simp) (.inr rfl) (by simp)

/-! ## Columns of a line -/

theorem upTo_append_of_le_units {x : Text} (y : Text) {n : Nat} (h : n ≤ x.units) :
    (x ++ y).upTo utf16Size n = x.upTo utf16Size n := by
  induction x generalizing n with
  | nil =>
    obtain rfl : n = 0 := Nat.le_zero.1 h
    exact upTo_extent_append [] y fun c _ => utf16Size_pos c
  | cons c x ih =>
    simp only [units, extent_cons] at h ih
    by_cases hc : utf16Size c ≤ n
    · rw [List.cons_append, upTo, if_pos hc, upTo, if_pos hc, ih (by omega)]
    · rw [List.cons_append, upTo, if_neg hc, upTo, if_neg hc]

theorem upTo_of_units_le {x : Text} {n : Nat} (h : x.units ≤ n) : x.upTo utf16Size n = x := by
  induction x generalizing n with
  | nil => rfl
  | cons c x ih =>
    simp only [units, extent_cons] at h ih
    rw [upTo, if_pos (by omega), ih (by omega)]

theorem upTo_min_units (x : Text) (n : Nat) : x.upTo utf16Size (min n x.units) = x.upTo utf16Size n := by
  rcases Nat.le_total n x.units with h | h
  · rw [Nat.min_eq_left h]
  · rw [Nat.min_eq_right h, upTo_of_units_le h, upTo_of_units_le (Nat.le_refl _)]

/-- A column and the offset it leads to are those of the same characters. -/
theorem columnIn_offsetInLine (line : Text) (column : Nat) :
    columnIn line (offsetInLine line column) = ((lineContent line).upTo utf16Size column).units := by
  have hcut : (lineContent line).upTo utf16Size column ++ (lineContent line).past utf16Size column = lineContent line :=
    upTo_append_past column _
  have hbefore := upTo_bytes_append ((lineContent line).upTo utf16Size column) ((lineContent line).past utf16Size column)
  rw [hcut] at hbefore
  rw [columnIn, offsetInLine, hbefore]

theorem utf16Size_of_isOddBreak {c : Char} (hc : isOddBreak c = true) : utf16Size c = 1 := by
  have hmem := isLineBreak_of_isOddBreak hc
  rw [isLineBreak, List.contains_iff_mem] at hmem
  exact of_decide_eq_true (List.all_eq_true (p := fun c => decide (utf16Size c = 1)).1 (by decide) c hmem)

/-- What a line without an odd break at its end holds for an editor is all but its break. -/
theorem Ending.of_not_endsOddly {below : List Text} {line : Text} (h : Ending below line) (hodd : ¬EndsOddly line) :
    lineContent line = unbroken line ∧ (below = [] ∨ (unbroken line).bytes < line.bytes) := by
  cases h with
  | last hw hbelow =>
    have hcontent := lineContent_append (onOneLine_of_unbroken hw) []
    have hunbroken := unbroken_append hw []
    rw [List.append_nil] at hcontent hunbroken
    rw [hcontent, hunbroken]
    exact ⟨rfl, .inl hbelow⟩
  | @plain w c rest hw hc hrest =>
    have hend : lineContent (c :: rest) = [] := List.takeWhile_cons_of_neg (by rcases hc with rfl | rfl <;> simp)
    rw [lineContent_append (onOneLine_of_unbroken hw), hend, unbroken_append hw,
      unbroken_cons_break (isLineBreak_of_editorBreak hc), List.append_nil]
    have hpos := c.utf8Size_pos
    refine ⟨rfl, .inr ?_⟩
    simp only [bytes, extent_append, extent_cons]
    omega
  | @odd w c hw hc => exact absurd ⟨c, by simp, hc⟩ hodd

theorem Ending.of_endsOddly {below : List Text} {line : Text} (h : Ending below line) (hodd : EndsOddly line) :
    below ≠ [] ∧ lineContent line = line ∧ ∃ c, isOddBreak c = true ∧ line = unbroken line ++ [c] := by
  obtain ⟨d, hd, hdodd⟩ := hodd
  cases h with
  | last hw =>
    have hd := hw d (List.mem_of_getLast? hd)
    rw [isLineBreak_of_isOddBreak hdodd] at hd
    cases hd
  | @plain w c rest hw hc hrest =>
    have hbreak : d = '\n' ∨ d = '\r' := by
      rcases List.eq_nil_or_concat' rest with rfl | ⟨rest, e, rfl⟩
      · obtain rfl : c = d := by simpa using hd
        exact hc
      · rw [← List.cons_append, ← List.append_assoc, List.getLast?_concat] at hd
        obtain rfl : e = d := by simpa using hd
        exact .inl (hrest e (by simp))
    exact absurd hbreak (ne_of_isOddBreak hdodd)
  | @odd w c hw hc hbelow =>
    have hunbroken : unbroken (w ++ [c]) = w := by
      rw [unbroken_append hw, unbroken_cons_break (isLineBreak_of_isOddBreak hc), List.append_nil]
    have hcontent := lineContent_append ((onOneLine_of_unbroken hw).snoc (ne_of_isOddBreak hc)) []
    rw [List.append_nil] at hcontent
    exact ⟨hbelow, by rw [hcontent]; exact List.append_nil _, c, hc, by rw [hunbroken]⟩

/-! ## The position of the offset -/

/-- The lines below a line are those of the text below it. -/
theorem lines_below {t : Text} {above below : List Text} (h : t.lines = above ++ below) (hbelow : below ≠ []) :
    lines below.flatten = below := by
  induction t generalizing above with
  | nil =>
    cases above with
    | nil =>
      rw [List.nil_append] at h
      rw [← h, flatten_lines]
    | cons l above =>
      rw [lines, List.cons_append, List.cons.injEq] at h
      exact absurd (List.append_eq_nil_iff.1 h.2.symm).2 hbelow
  | cons c t ih =>
    cases above with
    | nil =>
      rw [List.nil_append] at h
      rw [← h, flatten_lines]
    | cons l above =>
      rw [List.cons_append] at h
      rcases cases_of_lines_cons h with ⟨_, _, hlines⟩ | ⟨_, m, _, hlines⟩
      · exact ih hlines
      · exact @ih (m :: above) hlines

theorem positionIn_zero_lines (t : Text) : positionIn (lines t) 0 = ⟨0, 0⟩ := by
  have h := positionIn_linesBehind [] onOneLine_nil t
  rwa [linesBehind_nil] at h

section

variable {below : List Text} {line : Text} {column : Nat}

/-- A column that does not overrun its line stays on it. -/
theorem Ending.positionIn_eq (h : Ending below line) (hstays : ¬Overruns line column) :
    positionIn (line :: below) (offsetInLine line column) = ⟨0, settleColumn line column⟩ := by
  have hoffset : offsetInLine line column ≤ (lineContent line).bytes := offsetInLine_le line column
  by_cases hodd : EndsOddly line
  · obtain ⟨_, hcontent, c, hc, hline⟩ := h.of_endsOddly hodd
    have hle : column ≤ (unbroken line).units := Nat.le_of_not_lt fun hlt => hstays ⟨hodd, hlt⟩
    have hbefore : (lineContent line).upTo utf16Size column = (unbroken line).upTo utf16Size column := by
      rw [hcontent]
      conv_lhs => rw [hline, upTo_append_of_le_units [c] hle]
    have hlt : offsetInLine line column < line.bytes := by
      have hupTo : Text.bytes ((unbroken line).upTo utf16Size column ++ (unbroken line).past utf16Size column) =
          (unbroken line).bytes := congrArg bytes (upTo_append_past column _)
      have hbytes := congrArg bytes hline
      have hpos := c.utf8Size_pos
      rw [offsetInLine, hbefore]
      simp only [bytes, extent_append, extent_cons, extent_nil] at hupTo hbytes ⊢
      omega
    rw [positionIn_of_lt hlt, columnIn_offsetInLine, hbefore, settleColumn, upTo_min_units]
  · obtain ⟨hcontent, hbelow⟩ := h.of_not_endsOddly hodd
    have hcolumn : columnIn line (offsetInLine line column) = settleColumn line column := by
      rw [columnIn_offsetInLine, hcontent, settleColumn, upTo_min_units]
    rcases hbelow with rfl | hlt
    · rw [positionIn, hcolumn]
    · rw [hcontent] at hoffset
      rw [positionIn_of_lt (Nat.lt_of_le_of_lt hoffset hlt), hcolumn]

/-- A column that overruns its line leads to the start of the next one. -/
theorem Ending.positionIn_of_overruns (h : Ending below line) (hbelow : lines below.flatten = below)
    (hover : Overruns line column) : positionIn (line :: below) (offsetInLine line column) = ⟨1, 0⟩ := by
  obtain ⟨hne, hcontent, c, hc, hline⟩ := h.of_endsOddly hover.1
  have hunits : line.units ≤ column := by
    have hlt := hover.2
    have hsize := utf16Size_of_isOddBreak hc
    have hsum := congrArg units hline
    simp only [units, extent_append, extent_cons, extent_nil] at hlt hsum ⊢
    omega
  have hoffset : offsetInLine line column = line.bytes + 0 := by
    rw [offsetInLine, hcontent, upTo_of_units_le hunits, Nat.add_zero]
  rw [hoffset, positionIn_cons hne, ← hbelow, positionIn_zero_lines]

end

/-- **A position stays on its line, unless it lies behind a break that is among the line's columns.** The
position of the offset that a position leads to is the column settled on the same line, exactly when the
line ends with a line feed, a carriage return or no break at all, or the column is not behind its end.
Otherwise it is the start of the next line. -/
theorem positions_stay_on_line_iff {t line : Text} {p : Position} (h : t.lines[p.line]? = some line) :
    ∃ offset, t.offsetAt? p = some offset ∧
      (t.positionAt offset = ⟨p.line, settleColumn line p.character⟩ ↔ ¬Overruns line p.character) ∧
      (Overruns line p.character → t.positionAt offset = ⟨p.line + 1, 0⟩) := by
  obtain ⟨hlt, hline⟩ := List.getElem?_eq_some_iff.1 h
  obtain ⟨above, below, hlines, hlength⟩ : ∃ above below, t.lines = above ++ line :: below ∧ above.length = p.line :=
    ⟨t.lines.take p.line, t.lines.drop (p.line + 1), by rw [← hline, ← List.drop_eq_getElem_cons hlt, List.take_append_drop],
      List.length_take_of_le (Nat.le_of_lt hlt)⟩
  have hending := ending_of_lines hlines
  have hfound : t.offsetAt? p = some (Text.bytes above.flatten + offsetInLine line p.character) := by
    rw [offsetAt?, hlines, ← hlength, ← Nat.add_zero above.length, offsetIn_append, offsetIn, Option.map_some]
  have hposition : t.positionAt (Text.bytes above.flatten + offsetInLine line p.character) =
      ⟨p.line + (positionIn (line :: below) (offsetInLine line p.character)).line,
        (positionIn (line :: below) (offsetInLine line p.character)).character⟩ := by
    rw [positionAt, hlines, positionIn_append above (by simp), hlength]
  have hover : Overruns line p.character →
      t.positionAt (Text.bytes above.flatten + offsetInLine line p.character) = ⟨p.line + 1, 0⟩ := by
    intro hover
    have hne := (hending.of_endsOddly hover.1).1
    have hbelow := @lines_below t (above ++ [line]) below (by rw [hlines]; simp) hne
    rw [hposition, hending.positionIn_of_overruns hbelow hover]
  refine ⟨_, hfound, ⟨fun hstays hbehind => ?_, fun hstays => ?_⟩, hover⟩
  · rw [hover hbehind, Position.mk.injEq] at hstays
    exact absurd hstays.1 (Nat.succ_ne_self _)
  · rw [hposition, hending.positionIn_eq hstays]
    rfl

/-- On a line that a vertical tab ends, a column inside a character of two code units and one behind the
end of the line. -/
theorem positions_stay_inside_pair :
    let t : Text := "é\r\n😀\x0bc".toList
    let line : Text := "😀\x0b".toList
    t.lines[1]? = some line ∧
      (∃ offset, t.offsetAt? ⟨1, 1⟩ = some offset ∧ t.positionAt offset = ⟨1, 0⟩) ∧
      ∃ offset, t.offsetAt? ⟨1, 7⟩ = some offset ∧ t.positionAt offset = ⟨2, 0⟩ := by
  intro t line
  have hline : t.lines[1]? = some line := by decide +kernel
  obtain ⟨inside, hinside, hstays, _⟩ := @positions_stay_on_line_iff t line ⟨1, 1⟩ hline
  obtain ⟨behind, hbehind, _, hover⟩ := @positions_stay_on_line_iff t line ⟨1, 7⟩ hline
  refine ⟨hline, ⟨inside, hinside, ?_⟩, behind, hbehind, hover (by decide +kernel)⟩
  exact (hstays.2 (by decide +kernel)).trans (by decide +kernel)

/-- The line `a` ends at a vertical tab. Column 5 of it should settle at its end, behind `a`, but leads
behind the tab, and that is on the next line. -/
theorem position_behind_vertical_tab :
    let t : Text := "a\x0bb".toList
    let line : Text := "a\x0b".toList
    t.lines[0]? = some line ∧ settleColumn line 5 = 1 ∧ t.offsetAt? ⟨0, 5⟩ = some 2 ∧ t.positionAt 2 = ⟨1, 0⟩ := by
  decide +kernel

end GibianeEditor.Text
