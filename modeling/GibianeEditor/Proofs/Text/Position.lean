/-
Where the position behind a beginning of a text leads. An editor counts lines that end at line feeds
and carriage returns (`endPosition`). The position leads back to the end of the beginning as long as
none of the other breaks stands in it before its last character, and to an earlier place otherwise
(`offsetAt?_endPosition`).
-/
import Mathlib.Data.List.Basic
import GibianeEditor.Proofs.Text.Slice
import GibianeEditor.Text.Position

namespace GibianeEditor.Text

/-! ## Positions of an editor -/

/-- The position behind a text that goes on a line at a column. Lines end at a line feed, at a
carriage return, or at both of them in this order. -/
def endPosition : Nat → Text → Position
  | column, [] => ⟨0, column⟩
  | _, '\r' :: '\n' :: t => ⟨(endPosition 0 t).line + 1, (endPosition 0 t).character⟩
  | column, c :: t =>
    if c = '\n' ∨ c = '\r' then ⟨(endPosition 0 t).line + 1, (endPosition 0 t).character⟩
    else endPosition (column + utf16Size c) t

/-- Whether a cut between two texts parts a line feed from its carriage return. -/
def cutsBreak (u v : Text) : Bool := u.getLast? == some '\r' && v.head? == some '\n'

/-- The breaks at which only the text's own lines end. -/
def isOddBreak (c : Char) : Bool := isLineBreak c && c != '\n' && c != '\r'

/-- Whether no break but line feeds and carriage returns is in a text, save at its end. -/
def Plain (u : Text) : Prop := ∀ c ∈ u.dropLast, isOddBreak c = false

instance (u : Text) : Decidable (Plain u) :=
  decidable_of_iff ((u.dropLast.all fun c => !isOddBreak c) = true) (by simp [Plain])

theorem cutsBreak_of_cons {c : Char} {u v : Text} (h : cutsBreak (c :: u) v = false) : cutsBreak u v = false := by
  cases u with
  | nil => rfl
  | cons d u => simpa [cutsBreak] using h

/-- What comes before a text and holds no odd break does not make it less plain. -/
theorem plain_append_iff {w u : Text} (hw : ∀ c ∈ w, isOddBreak c = false) : Plain (w ++ u) ↔ Plain u := by
  cases u with
  | nil =>
    rw [List.append_nil]
    exact ⟨fun _ => by simp [Plain], fun _ c hc => hw c (List.dropLast_subset w hc)⟩
  | cons d u =>
    simp only [Plain, List.dropLast_append_cons, List.mem_append]
    exact ⟨fun h c hc => h c (.inr hc), fun h c hc => hc.elim (hw c) (h c)⟩

theorem Plain.of_isPrefix {u v : Text} (h : Plain v) (hpre : u <+: v) : Plain u := by
  obtain ⟨w, rfl⟩ := hpre
  cases w with
  | nil => rwa [List.append_nil] at h
  | cons d w =>
    rw [Plain, List.dropLast_append_cons] at h
    exact fun c hc => h c (List.mem_append_left _ (List.dropLast_subset u hc))

theorem eq_nil_of_plain_cons {c : Char} {u : Text} (hc : isOddBreak c = true) (h : Plain (c :: u)) : u = [] := by
  cases u with
  | nil => rfl
  | cons d u => simp [h c (by simp)] at hc

theorem ne_of_isOddBreak {c : Char} (h : isOddBreak c = true) : ¬(c = '\n' ∨ c = '\r') := by
  rintro (rfl | rfl) <;> simp [isOddBreak] at h

theorem utf16Size_pos (c : Char) : 0 < utf16Size c := by
  unfold utf16Size
  split <;> omega

/-! ## Lines behind the beginning of a line -/

/-- The lines of a text that goes on a line. -/
def linesBehind (line t : Text) : List Text := (lines t).modifyHead (line ++ ·)

theorem linesBehind_nil (t : Text) : linesBehind [] t = lines t := by
  unfold linesBehind
  cases lines t <;> rfl

theorem linesBehind_keep {c : Char} {t : Text} (line : Text) (h : endsLine c t = false) :
    linesBehind line (c :: t) = linesBehind (line ++ [c]) t := by
  unfold linesBehind
  rw [lines, h]
  cases lines t <;> simp

theorem linesBehind_break {c : Char} {t : Text} (line : Text) (h : endsLine c t = true) :
    linesBehind line (c :: t) = (line ++ [c]) :: linesBehind [] t := by
  rw [linesBehind_nil]
  unfold linesBehind
  rw [lines, h]
  rfl

theorem exists_linesBehind (line t : Text) : ∃ rest ls, linesBehind line t = (line ++ rest) :: ls := by
  unfold linesBehind
  cases h : lines t with
  | nil => exact absurd h (lines_ne_nil t)
  | cons l ls => exact ⟨l, ls, rfl⟩

theorem linesBehind_crlf (line t : Text) :
    linesBehind line ('\r' :: '\n' :: t) = (line ++ ['\r', '\n']) :: linesBehind [] t := by
  rw [linesBehind_keep line (by rfl), linesBehind_break _ (by rfl), List.append_assoc]
  rfl

/-! ## Columns -/

/-- Whether nothing in a text ends what a line holds. -/
def OnOneLine (w : Text) : Prop := ∀ c ∈ w, c ≠ '\n' ∧ c ≠ '\r'

theorem onOneLine_nil : OnOneLine [] := by simp [OnOneLine]

theorem OnOneLine.snoc {w : Text} (h : OnOneLine w) {c : Char} (hc : ¬(c = '\n' ∨ c = '\r')) :
    OnOneLine (w ++ [c]) := by
  intro d hd
  rcases List.mem_append.1 hd with hd | hd
  · exact h d hd
  · rw [List.mem_singleton.1 hd]
    exact not_or.1 hc

theorem lineContent_append {w : Text} (h : OnOneLine w) (rest : Text) :
    lineContent (w ++ rest) = w ++ lineContent rest :=
  List.takeWhile_append_of_pos fun c hc => by simpa using h c hc

/-- The column behind a beginning of a line is where it ends. -/
theorem offsetInLine_units {w : Text} (h : OnOneLine w) (rest : Text) : offsetInLine (w ++ rest) w.units = w.bytes := by
  rw [offsetInLine, lineContent_append h, upTo_extent_append _ _ fun c _ => utf16Size_pos c]

theorem offsetInLine_le (line : Text) (column : Nat) : offsetInLine line column ≤ (lineContent line).bytes := by
  have h : ((lineContent line).upTo utf16Size column ++ (lineContent line).past utf16Size column).bytes =
      (lineContent line).bytes := congrArg bytes (upTo_append_past column _)
  simp only [bytes, extent_append] at h
  simp only [offsetInLine, bytes]
  omega

theorem bytes_lineContent_le (line : Text) : (lineContent line).bytes ≤ line.bytes := by
  have h := congrArg bytes (List.takeWhile_append_dropWhile (p := fun c => c != '\n' && c != '\r') (l := line))
  simp only [bytes, extent_append] at h
  simp only [lineContent, bytes]
  omega

/-- A column of a line that ends like an editor's lies before that end. -/
theorem offsetInLine_break_le {w : Text} (h : OnOneLine w) {c : Char} (hc : c = '\n' ∨ c = '\r') (rest : Text)
    (column : Nat) : offsetInLine (w ++ c :: rest) column ≤ w.bytes := by
  have hcontent : lineContent (w ++ c :: rest) = w := by
    rw [lineContent_append h]
    rcases hc with rfl | rfl <;> simp [lineContent]
  have hle := offsetInLine_le (w ++ c :: rest) column
  rwa [hcontent] at hle

/-! ## Line by line -/

/-- How a text with no break cut at its end is read: `ends` where both an editor and the text end a
line, `odd` where the text alone does, `keep` where neither does. -/
inductive LineByLine (v : Text) : Text → Prop where
  | nil : LineByLine v []
  | ends {c : Char} {more u : Text} (hc : c = '\n' ∨ c = '\r') (hbreak : ∀ d ∈ c :: more, isOddBreak d = false)
      (hposition : ∀ column, endPosition column (c :: more ++ u) =
        ⟨(endPosition 0 u).line + 1, (endPosition 0 u).character⟩)
      (hlines : ∀ line, linesBehind line (c :: more ++ u ++ v) = (line ++ c :: more) :: linesBehind [] (u ++ v))
      (rest : LineByLine v u) : LineByLine v (c :: more ++ u)
  | odd {c : Char} {u : Text} (hc : isOddBreak c = true)
      (hposition : ∀ column, endPosition column (c :: u) = endPosition (column + utf16Size c) u)
      (hlines : ∀ line, linesBehind line (c :: u ++ v) = (line ++ [c]) :: linesBehind [] (u ++ v))
      (rest : LineByLine v u) : LineByLine v (c :: u)
  | keep {c : Char} {u : Text} (hc : ¬(c = '\n' ∨ c = '\r')) (hbreak : isOddBreak c = false)
      (hposition : ∀ column, endPosition column (c :: u) = endPosition (column + utf16Size c) u)
      (hlines : ∀ line, linesBehind line (c :: u ++ v) = linesBehind (line ++ [c]) (u ++ v))
      (rest : LineByLine v u) : LineByLine v (c :: u)

/-- A carriage return ends a line unless its line feed follows. -/
theorem endsLine_of_lone {c : Char} {u v : Text} (hc : c = '\n' ∨ c = '\r')
    (hlone : ∀ t, c = '\r' → u = '\n' :: t → False) (hcut : cutsBreak (c :: u) v = false) :
    endsLine c (u ++ v) = true := by
  rcases hc with rfl | rfl
  · rfl
  · have hhead : (u ++ v).head? ≠ some '\n' := by
      cases u with
      | nil => simpa [cutsBreak] using hcut
      | cons d u =>
        rintro h
        obtain rfl : d = '\n' := by simpa using h
        exact hlone u rfl rfl
    simpa [endsLine, isLineBreak] using hhead

theorem lineByLine {u v : Text} (hcut : cutsBreak u v = false) : LineByLine v u := by
  suffices h : ∀ column, LineByLine v u from h 0
  intro column
  fun_induction endPosition column u with
  | case1 => exact .nil
  | case2 column t ih =>
    have hrest := ih (cutsBreak_of_cons (cutsBreak_of_cons hcut))
    exact @LineByLine.ends v '\r' ['\n'] t (.inr rfl) (by simp [isOddBreak]) (fun _ => rfl)
      (fun line => linesBehind_crlf line (t ++ v)) hrest
  | case3 column c t hlone hc ih =>
    have hrest := ih (cutsBreak_of_cons hcut)
    have hends := endsLine_of_lone hc hlone hcut
    have hbreak : isOddBreak c = false := by rcases hc with rfl | rfl <;> rfl
    refine @LineByLine.ends v c [] t hc (by simpa using hbreak) (fun column => ?_)
      (fun line => linesBehind_break line hends) hrest
    change endPosition column (c :: t) = _
    rw [endPosition, if_pos hc]
    exact hlone
  | case4 column c t hlone hc ih =>
    have hrest := ih (cutsBreak_of_cons hcut)
    have hposition : ∀ column, endPosition column (c :: t) = endPosition (column + utf16Size c) t := by
      intro column
      rw [endPosition, if_neg hc]
      exact hlone
    obtain ⟨hfeed, hreturn⟩ := not_or.1 hc
    cases hodd : isOddBreak c with
    | true =>
      have hends : endsLine c (t ++ v) = true := by
        simp only [isOddBreak, Bool.and_eq_true] at hodd
        simp [endsLine, hodd.1.1, hreturn]
      exact .odd hodd hposition (fun line => linesBehind_break line hends) hrest
    | false =>
      have hkeeps : endsLine c (t ++ v) = false := by
        have hbreak : isLineBreak c = false := by simpa [isOddBreak, hfeed, hreturn] using hodd
        simp [endsLine, hbreak]
      exact .keep hc hodd hposition (fun line => linesBehind_keep line hkeeps) hrest

/-! ## The offset of a position -/

/-- A line without what follows it in the text ends before that. -/
theorem offsetInLine_lt (line : Text) {u : Text} (hu : u ≠ []) (column : Nat) :
    offsetInLine line column < Text.bytes (line ++ u) := by
  have hline := Nat.le_trans (offsetInLine_le line column) (bytes_lineContent_le line)
  have hpos := bytes_pos hu
  simp only [bytes, extent_append] at hline hpos ⊢
  omega

theorem exists_offsetIn_cons_lt {ls : List Text} {n column : Nat} {u : Text} (line : Text)
    (h : ∃ o < u.bytes, offsetIn ls n column = some o) :
    ∃ o < Text.bytes (line ++ u), offsetIn (line :: ls) (n + 1) column = some o := by
  obtain ⟨o, ho, hfound⟩ := h
  refine ⟨line.bytes + o, ?_, by rw [offsetIn, hfound]; rfl⟩
  simp only [bytes, extent_append] at ho ⊢
  omega

section Offsets

variable {u v w : Text}

/-- The position behind a plain text leads behind it. -/
theorem LineByLine.offsetIn_eq (h : LineByLine v u) (hw : OnOneLine w) (hplain : Plain u) :
    offsetIn (linesBehind w (u ++ v)) (endPosition w.units u).line (endPosition w.units u).character =
      some (Text.bytes (w ++ u)) := by
  induction h generalizing w with
  | nil =>
    obtain ⟨rest, ls, hlines⟩ := exists_linesBehind w v
    rw [List.nil_append, hlines, List.append_nil]
    simp only [endPosition, offsetIn, offsetInLine_units hw]
  | @ends c more u hc hbreak hposition hlines _ ih =>
    have hrest := ih onOneLine_nil ((plain_append_iff hbreak).1 hplain)
    rw [units, extent_nil] at hrest
    rw [hposition, hlines, offsetIn, hrest, ← List.append_assoc, List.nil_append, Option.map_some]
    rw [bytes, bytes, bytes, ← extent_append]
  | @odd c u hc hposition hlines _ ih =>
    obtain rfl := eq_nil_of_plain_cons hc hplain
    have hline := offsetInLine_units (hw.snoc (ne_of_isOddBreak hc)) []
    rw [hposition, hlines]
    simpa [endPosition, offsetIn] using hline
  | @keep c u hc hbreak hposition hlines _ ih =>
    have hplain := (plain_append_iff (w := [c]) (by simpa using hbreak)).1 hplain
    have hrest := ih (hw.snoc hc) hplain
    rw [hposition, hlines, List.append_cons]
    simpa using hrest

/-- A line that an editor sees end in a text ends there, whatever the column. -/
theorem LineByLine.offsetIn_lt_of_line_lt (h : LineByLine v u) (hw : OnOneLine w) {start line : Nat}
    (hline : line < (endPosition start u).line) (column : Nat) :
    ∃ o < Text.bytes (w ++ u), offsetIn (linesBehind w (u ++ v)) line column = some o := by
  induction h generalizing w start line with
  | nil => simp [endPosition] at hline
  | @ends c more u hc hbreak hposition hlines _ ih =>
    rw [hposition] at hline
    rw [hlines]
    cases line with
    | zero =>
      have hpos := c.utf8Size_pos
      have hle := offsetInLine_break_le hw hc more column
      refine ⟨_, ?_, rfl⟩
      simp only [bytes, extent_append, extent_cons, List.cons_append] at hle ⊢
      omega
    | succ line =>
      rw [← List.append_assoc]
      exact exists_offsetIn_cons_lt _ (ih onOneLine_nil (Nat.lt_of_succ_lt_succ hline))
  | @odd c u hc hposition hlines _ ih =>
    rw [hposition] at hline
    rw [hlines, List.append_cons]
    cases line with
    | zero =>
      have hne : u ≠ [] := by
        rintro rfl
        simp [endPosition] at hline
      exact ⟨_, offsetInLine_lt _ hne column, rfl⟩
    | succ line => exact exists_offsetIn_cons_lt _ (ih onOneLine_nil (Nat.lt_of_succ_lt hline))
  | @keep c u hc hbreak hposition hlines _ ih =>
    rw [hposition] at hline
    rw [hlines, List.append_cons]
    exact ih (hw.snoc hc) hline

/-- The position behind a text that is not plain leads to a place before. -/
theorem LineByLine.offsetIn_lt (h : LineByLine v u) (hw : OnOneLine w) (hplain : ¬Plain u) :
    ∃ o < Text.bytes (w ++ u),
      offsetIn (linesBehind w (u ++ v)) (endPosition w.units u).line (endPosition w.units u).character = some o := by
  induction h generalizing w with
  | nil => exact absurd (by simp [Plain]) hplain
  | @ends c more u hc hbreak hposition hlines _ ih =>
    have hrest := ih onOneLine_nil (mt (plain_append_iff hbreak).2 hplain)
    rw [hposition, hlines, ← List.append_assoc]
    exact exists_offsetIn_cons_lt _ hrest
  | @odd c u hc hposition hlines hrest ih =>
    -- The text's line ends here and the editor's goes on, so the position names a line too early.
    have hne : u ≠ [] := by
      rintro rfl
      exact hplain (by simp [Plain])
    rw [hposition, hlines, List.append_cons]
    cases hline : (endPosition (w.units + utf16Size c) u).line with
    | zero => exact ⟨_, offsetInLine_lt _ hne _, rfl⟩
    | succ line =>
      have hlt : line < (endPosition (w.units + utf16Size c) u).line := by omega
      exact exists_offsetIn_cons_lt _ (hrest.offsetIn_lt_of_line_lt onOneLine_nil hlt _)
  | @keep c u hc hbreak hposition hlines _ ih =>
    have hplain := mt (plain_append_iff (w := [c]) (by simpa using hbreak)).2 hplain
    have hrest := ih (hw.snoc hc) hplain
    rw [hposition, hlines, List.append_cons]
    simpa using hrest

end Offsets

/-- The position behind a beginning of a text leads there if the beginning is plain, else to a place
before. -/
theorem offsetAt?_endPosition {u v : Text} (hcut : cutsBreak u v = false) :
    ∃ o ≤ u.bytes, (u ++ v).offsetAt? (endPosition 0 u) = some o ∧ (o = u.bytes ↔ Plain u) := by
  have hlines : linesBehind [] (u ++ v) = (u ++ v).lines := linesBehind_nil (u ++ v)
  by_cases hplain : Plain u
  · have h := (lineByLine hcut).offsetIn_eq onOneLine_nil hplain
    rw [hlines] at h
    exact ⟨u.bytes, Nat.le_refl _, h, by simp [hplain]⟩
  · obtain ⟨o, ho, h⟩ := (lineByLine hcut).offsetIn_lt onOneLine_nil hplain
    rw [hlines] at h
    exact ⟨o, Nat.le_of_lt ho, h, by simp only [hplain, iff_false]; exact Nat.ne_of_lt ho⟩

end GibianeEditor.Text
