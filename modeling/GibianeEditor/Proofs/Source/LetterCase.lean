/-
Scanning does not see the case of code. No class of characters and no upper case tells the capitals of
ASCII from their small letters (`alike_toLower`), so the lexemes of a line in small letters are those of
the line, in small letters (`lexemes_map_toLower`), and its tokens are the same (`tokensFrom_map_toLower`).
Hence documents that differ only in the case of code have the same lines (`linesFrom_eq_of_map_toLower`).
-/
import GibianeEditor.Proofs.Source.Opaque

namespace GibianeEditor.Source

/-! ## Characters -/

/-- The capital letters of ASCII. -/
def capitals : Text := (List.range 26).map fun n => Char.ofNat (65 + n)

theorem toLower_eq_or_mem_capitals (c : Char) : c.toLower = c ∨ c ∈ capitals := by
  by_cases hc : 65 ≤ c.toNat ∧ c.toNat ≤ 90
  · refine .inr (List.mem_map.2 ⟨c.toNat - 65, List.mem_range.2 (by omega), ?_⟩)
    rw [Nat.add_sub_cancel' hc.1, Char.ofNat_toNat]
  · refine .inl ?_
    have hval : ¬(c.val ≥ 'A'.val ∧ c.val ≤ 'Z'.val) := hc
    exact dif_neg hval

/-- Characters that scanning does not tell apart. -/
structure Alike (c d : Char) : Prop where
  kind : kindOf c = kindOf d
  inName : isWordChar c = isWordChar d
  inNumber : isNumberPart c = isNumberPart d
  upper : Unicode.upper c = Unicode.upper d
  bytes : c.utf8Size = d.utf8Size
  quote : c = '\'' ↔ d = '\''
  lineFeed : c = '\n' ↔ d = '\n'
  star : c = '*' ↔ d = '*'

instance (c d : Char) : Decidable (Alike c d) :=
  decidable_of_iff (kindOf c = kindOf d ∧ isWordChar c = isWordChar d ∧ isNumberPart c = isNumberPart d ∧
      Unicode.upper c = Unicode.upper d ∧ c.utf8Size = d.utf8Size ∧
      (c = '\'' ↔ d = '\'') ∧ (c = '\n' ↔ d = '\n') ∧ (c = '*' ↔ d = '*'))
    ⟨fun ⟨h1, h2, h3, h4, h5, h6, h7, h8⟩ => ⟨h1, h2, h3, h4, h5, h6, h7, h8⟩,
      fun ⟨h1, h2, h3, h4, h5, h6, h7, h8⟩ => ⟨h1, h2, h3, h4, h5, h6, h7, h8⟩⟩

theorem alike_toLower (c : Char) : Alike c.toLower c := by
  have hcapitals : (capitals.all fun c => Alike c.toLower c) = true := by decide +kernel
  rcases toLower_eq_or_mem_capitals c with hc | hc
  · rw [hc]
    exact ⟨rfl, rfl, rfl, rfl, rfl, .rfl, .rfl, .rfl⟩
  · exact of_decide_eq_true (List.all_eq_true.1 hcapitals c hc)

@[simp] theorem kindOf_toLower (c : Char) : kindOf c.toLower = kindOf c := (alike_toLower c).kind

@[simp] theorem isWordChar_toLower (c : Char) : isWordChar c.toLower = isWordChar c := (alike_toLower c).inName

@[simp] theorem isNumberPart_toLower (c : Char) : isNumberPart c.toLower = isNumberPart c := (alike_toLower c).inNumber

/-! ## Lexemes and tokens -/

@[simp] theorem bytes_map_toLower (t : Text) : Text.bytes (t.map Char.toLower) = t.bytes := by
  induction t with
  | nil => rfl
  | cons c t ih => simp only [List.map_cons, Text.extent_cons, (alike_toLower c).bytes, ih]

@[simp] theorem of_map_toLower (word : Text) : Name.of (word.map Char.toLower) = Name.of word := by
  rw [Name.of_eq_of_iff, Text.upper, Text.upper, List.flatMap_map]
  exact List.flatMap_congr fun c _ => (alike_toLower c).upper

theorem cutQuoted_map_toLower (t : Text) :
    cutQuoted (t.map Char.toLower) = ((cutQuoted t).1.map Char.toLower, (cutQuoted t).2.map Char.toLower) := by
  induction t with
  | nil => rfl
  | cons c t ih =>
    by_cases hc : c = '\''
    · simp [cutQuoted, hc]
    · simp [cutQuoted, mt (alike_toLower c).quote.1 hc, hc, ih]

theorem extend_map_toLower (kind : Kind) (t : Text) :
    extend kind (t.map Char.toLower) = ((extend kind t).1.map Char.toLower, (extend kind t).2.map Char.toLower) := by
  cases kind with
  | name => simp [extend, List.takeWhile_map, List.dropWhile_map, Function.comp_def]
  | number => simp [extend, List.takeWhile_map, List.dropWhile_map, Function.comp_def]
  | quoted => exact cutQuoted_map_toLower t
  | blank | assign | dot | stop | mark => rfl

/-- A line in small letters has the lexemes of the line, in small letters. -/
theorem lexemes_map_toLower (t : Text) :
    lexemes (t.map Char.toLower) = (lexemes t).map fun l => ⟨l.kind, l.text.map Char.toLower⟩ := by
  fun_induction lexemes t with
  | case1 => simp [lexemes]
  | case2 c t ih => simp only [List.map_cons, lexemes, kindOf_toLower, extend_map_toLower, ih]

theorem tokensFrom_map_toLower (offset : Nat) (ls : List Lexeme) :
    tokensFrom offset (ls.map fun l => ⟨l.kind, l.text.map Char.toLower⟩) = tokensFrom offset ls := by
  induction ls generalizing offset with
  | nil => rfl
  | cons l ls ih => simp only [List.map_cons, tokensFrom, bytes_map_toLower, of_map_toLower, ih]

/-! ## Lines -/

theorem rawLines_map_toLower (t : Text) : rawLines (t.map Char.toLower) = (rawLines t).map (List.map Char.toLower) := by
  induction t with
  | nil => rfl
  | cons c t ih =>
    by_cases hc : c = '\n'
    · simp [rawLines, hc, ih]
    · simp only [List.map_cons, rawLines, mt (alike_toLower c).lineFeed.1 hc, hc, if_false, ih]
      cases rawLines t with
      | nil => rfl
      | cons line ls => rfl

theorem isComment_map_toLower (line : Text) : isComment (line.map Char.toLower) = isComment line := by
  cases line with
  | nil => rfl
  | cons c line => exact decide_eq_decide.2 (by simp [(alike_toLower c).star])

/-- Lines of the same letters, comments the same in case too, say the same. -/
theorem read_eq_of_map_toLower {l m : Text} (h : l.map Char.toLower = m.map Char.toLower)
    (hcomment : isComment l = true → l = m) (offset : Nat) :
    Line.read offset (rawContent l) = Line.read offset (rawContent m) := by
  by_cases hl : isComment l = true
  · rw [hcomment hl]
  · have hm : ¬isComment m = true := by rwa [← isComment_map_toLower, ← h, isComment_map_toLower]
    have htokens : tokensFrom offset (lexemes l) = tokensFrom offset (lexemes m) := by
      rw [← tokensFrom_map_toLower, ← lexemes_map_toLower, h, lexemes_map_toLower, tokensFrom_map_toLower]
    simp only [isComment, beq_iff_eq] at hl hm
    rw [read_rawContent, read_rawContent, if_neg hl, if_neg hm, htokens]

theorem linesFrom_eq_of_map_toLower {ls ms : List Text} (h : ls.map (List.map Char.toLower) = ms.map (List.map Char.toLower))
    (hcomments : ls.filter isComment = ms.filter isComment) (offset : Nat) : linesFrom offset ls = linesFrom offset ms := by
  induction ls generalizing ms offset with
  | nil =>
    obtain rfl : ms = [] := List.map_eq_nil_iff.1 h.symm
    rfl
  | cons l ls ih =>
    obtain ⟨m, ms, rfl, hline, hrest⟩ := List.map_eq_cons_iff.1 h.symm
    have hsame : isComment m = isComment l := by rw [← isComment_map_toLower, hline, isComment_map_toLower]
    have hbytes : Text.bytes m = Text.bytes l := by rw [← bytes_map_toLower, hline, bytes_map_toLower]
    -- If one of the lines is a comment the other is the same one, and what is left agrees as well.
    have hboth : (isComment l = true → l = m) ∧ ls.filter isComment = ms.filter isComment := by
      simp only [List.filter_cons, hsame] at hcomments
      cases hl : isComment l with
      | true => simpa [hl] using hcomments
      | false => simpa [hl] using hcomments
    rw [linesFrom, linesFrom, read_eq_of_map_toLower hline.symm hboth.1, hbytes, ih hrest.symm hboth.2]

/-- **Scanning ignores the case of code.** Two texts that differ only in the case of ASCII letters, and not in
comments, declare the same: the same names with the same descriptions, places and uses. -/
theorem scan_ignores_case_of_code {t u : Text} (hletters : t.map Char.toLower = u.map Char.toLower)
    (hcomments : (rawLines t).filter isComment = (rawLines u).filter isComment) : scan t = scan u := by
  have hlines : lines t = lines u := by
    refine linesFrom_eq_of_map_toLower ?_ hcomments 0
    rw [← rawLines_map_toLower, ← rawLines_map_toLower, hletters]
  rw [scan, scan, hlines]

/-- A procedure with its operator in mixed case, a number with an exponent and a string. -/
theorem scan_ignores_case_of_procedure :
    let t := "* Area of s\nDEBProc aire S;\nS = 1.5E3 'x';\nfinp Aire;\n".toList
    let u := "* Area of s\ndebpROC AirE s;\ns = 1.5e3 'X';\nFINP aIRE;\n".toList
    t.map Char.toLower = u.map Char.toLower ∧ (rawLines t).filter isComment = (rawLines u).filter isComment ∧
      scan t = scan u ∧
      scan t = [⟨.of "AIRE".toList, "Area of s".toList, ⟨20, 24⟩, [⟨48, 52⟩]⟩,
        ⟨.of "S".toList, [], ⟨28, 29⟩, [⟨25, 26⟩]⟩] := by
  intro t u
  have hletters : t.map Char.toLower = u.map Char.toLower := by decide +kernel
  have hcomments : (rawLines t).filter isComment = (rawLines u).filter isComment := by decide +kernel
  exact ⟨hletters, hcomments, scan_ignores_case_of_code hletters hcomments, by decide +kernel⟩

end GibianeEditor.Source
