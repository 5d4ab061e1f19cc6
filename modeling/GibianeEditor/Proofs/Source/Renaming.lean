/-
A document with one of its names written anew. The new name is read where the old one stood and
nothing else is read in another way (`lexemes_renamed`, `read_contentRenamed`), so the lines of the
new document are those of the old with the new name and with the places moved (`lines_renamed`).
-/
import GibianeEditor.Proofs.Source.RawLine
import GibianeEditor.Proofs.Source.Relocation
import GibianeEditor.Proofs.Text.Substitution

namespace GibianeEditor.Source

/-- A text that is read as one name. -/
def IsIdentifier (word : Text) : Prop :=
  ∃ c body, word = c :: body ∧ isNameStart c = true ∧ ∀ d ∈ body, isWordChar d = true

/-- What may be written for a name: an identifier that may stand behind a number where the name
may, which takes an underscore in front. -/
structure Replaces (new : Text) (old : Name) : Prop where
  identifier : IsIdentifier new
  underscore : old.letters.head? = some '_' → new.head? = some '_'

/-- The names with the old one replaced. -/
def renamedName (old : Name) (new : Text) (name : Name) : Name := if name = old then Name.of new else name

/-- The lexeme with another text, if it is the old name. -/
def Lexeme.renamed (old : Name) (new : Text) (l : Lexeme) : Lexeme :=
  if l.kind = .name ∧ Name.of l.text = old then ⟨.name, new⟩ else l

variable {old : Name} {new : Text}

@[simp] theorem Lexeme.kind_renamed (l : Lexeme) : (l.renamed old new).kind = l.kind := by
  unfold Lexeme.renamed
  split
  · rename_i h
    exact h.1.symm
  · rfl

theorem Lexeme.renamed_of_ne {l : Lexeme} (h : l.kind ≠ .name) : l.renamed old new = l := by
  simp [Lexeme.renamed, h]

theorem Lexeme.text_renamed_cases (old : Name) (new : Text) (l : Lexeme) :
    (l.renamed old new).text = l.text ∨
      ((l.kind = .name ∧ Name.of l.text = old) ∧ (l.renamed old new).text = new) := by
  unfold Lexeme.renamed
  split
  · rename_i h
    exact .inr ⟨h, rfl⟩
  · exact .inl rfl

theorem Lexeme.name_renamed {l : Lexeme} (h : l.kind = .name) :
    Name.of (l.renamed old new).text = renamedName old new (Name.of l.text) := by
  by_cases hname : Name.of l.text = old <;> simp [Lexeme.renamed, renamedName, h, hname]

theorem head?_upper_underscore (t : Text) : (Name.of ('_' :: t)).letters.head? = some '_' := by
  have h : Unicode.upper '_' = ['_'] := by decide +kernel
  simp [Text.upper, h]

namespace IsIdentifier

theorem isWordChar {word : Text} (h : IsIdentifier word) : ∀ c ∈ word, isWordChar c = true := by
  obtain ⟨c, body, rfl, hc, hbody⟩ := h
  intro d hd
  rcases List.mem_cons.1 hd with rfl | hd
  · exact isWordChar_of_isNameStart hc
  · exact hbody d hd

theorem not_lineEnd {word : Text} (h : IsIdentifier word) {c : Char} (hc : c ∈ word) : c ≠ '\n' ∧ c ≠ '\r' := by
  have hword := h.isWordChar c hc
  constructor <;>
    · rintro rfl
      rw [isWordChar_eq_false_of_isLineBreak (by decide)] at hword
      cases hword

end IsIdentifier

/-! ## Lexemes -/

/-- Renaming changes the first character of a row at most from a name's to that of the new name. -/
theorem head?_glue_renamed (hnew : Replaces new old) {ls : List Lexeme} (h : Separated ls) {c : Char}
    (hc : c ∈ (glue (ls.map (Lexeme.renamed old new))).head?) :
    c ∈ (glue ls).head? ∨
      ∃ d ∈ (glue ls).head?, isNameStart d = true ∧ isNameStart c = true ∧ (d = '_' → c = '_') := by
  cases ls with
  | nil => exact .inl hc
  | cons l ls =>
    obtain ⟨⟨d, body, rfl, _⟩, _⟩ := h
    rw [List.map_cons, glue_cons] at hc
    rcases Lexeme.text_renamed_cases old new ⟨kindOf d, d :: body⟩ with htext | ⟨⟨hkind, hname⟩, htext⟩
    · rw [htext] at hc
      exact .inl hc
    · obtain ⟨e, rest, rfl, he, _⟩ := hnew.identifier
      rw [htext] at hc
      obtain rfl : e = c := by simpa using hc
      refine .inr ⟨d, rfl, (kindOf_eq_name_iff d).1 hkind, he, ?_⟩
      rintro rfl
      have hunder := hnew.underscore (by rw [← hname]; exact head?_upper_underscore body)
      simpa using hunder

/-- What may not come behind a name still does not. -/
theorem isWordChar_head?_glue_renamed (hnew : Replaces new old) {ls : List Lexeme} (hls : Separated ls)
    (h : ∀ d ∈ (glue ls).head?, isWordChar d = false) :
    ∀ d ∈ (glue (ls.map (Lexeme.renamed old new))).head?, isWordChar d = false := by
  intro d hd
  rcases head?_glue_renamed hnew hls hd with hd | ⟨e, he, hstart, _, _⟩
  · exact h d hd
  · have hword := h e he
    rw [isWordChar_of_isNameStart hstart] at hword
    cases hword

/-- What may not come behind a number still does not. -/
theorem isNumberPart_head?_glue_renamed (hnew : Replaces new old) {ls : List Lexeme} (hls : Separated ls)
    (h : ∀ d ∈ (glue ls).head?, isNumberPart d = false) :
    ∀ d ∈ (glue (ls.map (Lexeme.renamed old new))).head?, isNumberPart d = false := by
  intro d hd
  rcases head?_glue_renamed hnew hls hd with hd | ⟨e, he, hstart, _, hunder⟩
  · exact h d hd
  · rw [hunder (eq_underscore_of_isNameStart hstart (h e he))]
    exact isNumberPart_underscore

theorem Separated.eq_nil_of_glue {ls : List Lexeme} (hls : Separated ls) (h : glue ls = []) : ls = [] := by
  cases ls with
  | nil => rfl
  | cons l ls =>
    obtain ⟨⟨c, body, rfl, _⟩, _⟩ := hls
    simp at h

/-- Lexemes stay apart when a name among them is written anew. -/
theorem Separated.renamed (hnew : Replaces new old) :
    ∀ {ls : List Lexeme}, Separated ls → Separated (ls.map (Lexeme.renamed old new))
  | [], _ => trivial
  | l :: ls, ⟨⟨c, body, hl, hext⟩, hls⟩ => by
    refine ⟨?_, Separated.renamed hnew hls⟩
    change extend (kindOf c) (body ++ glue ls) = (body, glue ls) at hext
    change ∃ d rest, l.renamed old new = ⟨kindOf d, d :: rest⟩ ∧
      extend (kindOf d) (rest ++ glue (ls.map (Lexeme.renamed old new))) =
        (rest, glue (ls.map (Lexeme.renamed old new)))
    by_cases hold : l.kind = .name ∧ Name.of l.text = old
    · obtain ⟨d, rest, rfl, hd, hrest⟩ := hnew.identifier
      have hkind : kindOf c = .name := by rw [← hold.1, hl]
      rw [hkind] at hext
      obtain ⟨_, hends⟩ := takeWhile_dropWhile_eq_iff.1 hext
      refine ⟨d, rest, by simp [Lexeme.renamed, hold, (kindOf_eq_name_iff d).2 hd], ?_⟩
      rw [(kindOf_eq_name_iff d).2 hd]
      exact takeWhile_dropWhile_eq_iff.2 ⟨hrest, isWordChar_head?_glue_renamed hnew hls hends⟩
    · refine ⟨c, body, by rw [Lexeme.renamed, if_neg hold, hl], extend_congr hext ?_ ?_ ?_⟩
      · intro hnil
        rw [hls.eq_nil_of_glue hnil]
        rfl
      · intro hkind
        rw [hkind] at hext
        exact isWordChar_head?_glue_renamed hnew hls (takeWhile_dropWhile_eq_iff.1 hext).2
      · intro hkind
        rw [hkind] at hext
        exact isNumberPart_head?_glue_renamed hnew hls (takeWhile_dropWhile_eq_iff.1 hext).2

/-- The new name is read where the old one stood, and all else as before. -/
theorem lexemes_renamed (hnew : Replaces new old) (content : Text) :
    lexemes (glue ((lexemes content).map (Lexeme.renamed old new))) = (lexemes content).map (Lexeme.renamed old new) :=
  lexemes_flatMap_text ((separated_lexemes content).renamed hnew)

theorem mem_glue_renamed {ls : List Lexeme} {c : Char} (hc : c ∈ glue (ls.map (Lexeme.renamed old new))) :
    c ∈ glue ls ∨ c ∈ new := by
  obtain ⟨m, hm, hc⟩ := List.mem_flatMap.1 hc
  obtain ⟨l, hl, rfl⟩ := List.mem_map.1 hm
  rcases Lexeme.text_renamed_cases old new l with htext | ⟨_, htext⟩
  · rw [htext] at hc
    exact .inl (List.mem_flatMap_of_mem hl hc)
  · rw [htext] at hc
    exact .inr hc

theorem glue_renamed_eq_nil (hnew : IsIdentifier new) {ls : List Lexeme}
    (h : glue (ls.map (Lexeme.renamed old new)) = []) : glue ls = [] := by
  induction ls with
  | nil => rfl
  | cons l ls ih =>
    rw [List.map_cons, glue_cons, List.append_eq_nil_iff] at h
    rcases Lexeme.text_renamed_cases old new l with htext | ⟨_, htext⟩
    · rw [glue_cons, ← htext, h.1, ih h.2]
      rfl
    · obtain ⟨c, body, rfl, _⟩ := hnew
      rw [htext] at h
      simp at h

theorem trimmed_glue_renamed (hnew : IsIdentifier new) {ls : List Lexeme} (h : Trimmed (glue ls)) :
    Trimmed (glue (ls.map (Lexeme.renamed old new))) := by
  induction ls with
  | nil => exact h
  | cons l ls ih =>
    intro c hc
    rw [List.map_cons, glue_cons, List.getLast?_append] at hc
    cases hrest : (glue (ls.map (Lexeme.renamed old new))).getLast? with
    | some d =>
      have htail : Trimmed (glue ls) := by
        intro e he
        exact h e (by rw [glue_cons, List.getLast?_append, Option.mem_def.1 he]; rfl)
      exact ih htail c (by simpa [hrest] using hc)
    | none =>
      have hnil := glue_renamed_eq_nil hnew (List.getLast?_eq_none_iff.1 hrest)
      have hlast : c ∈ (l.renamed old new).text.getLast? := by simpa [hrest] using hc
      rcases Lexeme.text_renamed_cases old new l with htext | ⟨_, htext⟩
      · rw [htext] at hlast
        exact h c (by simpa [hnil] using hlast)
      · rw [htext] at hlast
        exact hnew.not_lineEnd (List.mem_of_getLast? hlast)

/-! ## Lines -/

/-- A content with the old name replaced. -/
def contentRenamed (old : Name) (new content : Text) : Text :=
  glue ((contentLayout content).map (Lexeme.renamed old new))

theorem contentRenamed_comment {content : Text} (h : content.head? = some '*') :
    contentRenamed old new content = content := by
  simp [contentRenamed, contentLayout, h, Lexeme.renamed]

theorem contentRenamed_code {content : Text} (h : content.head? ≠ some '*') :
    contentRenamed old new content = glue ((lexemes content).map (Lexeme.renamed old new)) := by
  simp [contentRenamed, contentLayout, h]

theorem trimmed_contentRenamed (old : Name) (hnew : IsIdentifier new) {content : Text} (h : Trimmed content) :
    Trimmed (contentRenamed old new content) :=
  trimmed_glue_renamed hnew (by rwa [glue_contentLayout])

theorem contentRenamed_eq_nil (hnew : IsIdentifier new) {content : Text} (h : contentRenamed old new content = []) :
    content = [] := by
  rw [← glue_contentLayout content]
  exact glue_renamed_eq_nil hnew h

theorem lineFeed_not_mem_contentRenamed (hnew : IsIdentifier new) {content : Text} (h : '\n' ∉ content) :
    '\n' ∉ contentRenamed old new content := by
  intro hc
  rcases mem_glue_renamed hc with hc | hc
  · rw [glue_contentLayout] at hc
    exact h hc
  · exact (hnew.not_lineEnd hc).1 rfl

/-- A line of code does not become a comment. -/
theorem head?_contentRenamed (hnew : Replaces new old) {content : Text} (h : content.head? ≠ some '*') :
    (contentRenamed old new content).head? ≠ some '*' := by
  rw [contentRenamed_code h]
  intro hc
  rcases head?_glue_renamed hnew (separated_lexemes content) hc with hc | ⟨d, _, _, hstar, _⟩
  · rw [glue_lexemes] at hc
    exact h hc
  · rw [← kindOf_eq_name_iff, kindOf_star] at hstar
    cases hstar

/-- A line of code is blank exactly when it was. -/
theorem all_isWhiteSpace_contentRenamed (old : Name) (hnew : IsIdentifier new) {content : Text}
    (h : content.head? ≠ some '*') :
    (contentRenamed old new content).all Unicode.isWhiteSpace = content.all Unicode.isWhiteSpace := by
  rw [contentRenamed_code h]
  cases hblank : content.all Unicode.isWhiteSpace with
  | true =>
    have hkeep : (lexemes content).map (Lexeme.renamed old new) = lexemes content := by
      refine (List.map_congr_left fun l hl => ?_).trans (List.map_id _)
      exact Lexeme.renamed_of_ne (by simp [kind_eq_blank_of_all_isWhiteSpace hblank hl])
    rw [hkeep, glue_lexemes, hblank]
  | false =>
    obtain ⟨c, hc, hwhite⟩ := List.all_eq_false.1 hblank
    rw [← flatMap_text_lexemes content] at hc
    obtain ⟨l, hl, hc⟩ := List.mem_flatMap.1 hc
    have hmem := List.mem_map_of_mem (f := Lexeme.renamed old new) hl
    refine List.all_eq_false.2 ?_
    rcases Lexeme.text_renamed_cases old new l with htext | ⟨_, htext⟩
    · exact ⟨c, List.mem_flatMap_of_mem hmem (by rwa [htext]), hwhite⟩
    · obtain ⟨d, body, rfl, hd, _⟩ := hnew
      refine ⟨d, List.mem_flatMap_of_mem hmem (by simp [htext]), ?_⟩
      simp [isWhiteSpace_eq_false_of_isNameStart hd]

/-! ## Places -/

/-- Whether a map of offsets takes every gap between lexemes that start at one offset to where it
is between the renamed lexemes that start at another. -/
def Moves (g : Nat → Nat) (old : Name) (new : Text) (offset offset' : Nat) (ls : List Lexeme) : Prop :=
  ∀ before after, ls = before ++ after →
    g (offset + (glue before).bytes) = offset' + (glue (before.map (Lexeme.renamed old new))).bytes

variable {g : Nat → Nat} {offset offset' : Nat}

theorem Moves.left {ls ms : List Lexeme} (h : Moves g old new offset offset' (ls ++ ms)) :
    Moves g old new offset offset' ls :=
  fun before after hls => h before (after ++ ms) (by rw [hls, List.append_assoc])

theorem Moves.right {ls ms : List Lexeme} (h : Moves g old new offset offset' (ls ++ ms)) :
    Moves g old new (offset + (glue ls).bytes) (offset' + (glue (ls.map (Lexeme.renamed old new))).bytes) ms := by
  intro before after hms
  have := h (ls ++ before) after (by rw [hms, List.append_assoc])
  simpa only [glue_append, List.map_append, Text.bytes, Text.extent_append, ← Nat.add_assoc] using this

/-- A span between two moved offsets. -/
def movedSpan (g : Nat → Nat) (span : Span) : Span := ⟨g span.start, g span.stop⟩

theorem tokensFrom_renamed {ls : List Lexeme} (h : Moves g old new offset offset' ls) :
    tokensFrom offset' (ls.map (Lexeme.renamed old new)) =
      (tokensFrom offset ls).map (Token.relocate (renamedName old new) (movedSpan g)) := by
  induction ls generalizing offset offset' with
  | nil => rfl
  | cons l ls ih =>
    have hstart : g offset = offset' := by simpa using h [] (l :: ls) rfl
    have hstop : g (offset + l.text.bytes) = offset' + (l.renamed old new).text.bytes := by
      simpa using h [l] ls rfl
    have hrest := ih (Moves.right (show Moves g old new offset offset' ([l] ++ ls) from h))
    simp only [List.map_cons, List.map_nil, glue_cons, glue_nil, List.append_nil] at hrest
    have hkind : (l.renamed old new).kind = l.kind := l.kind_renamed
    cases hk : l.kind with
    | name =>
      rw [hk] at hkind
      simp only [List.map_cons, tokensFrom, hk, hkind, hrest, Token.relocate, Site.relocate, movedSpan, hstart, hstop,
        Lexeme.name_renamed hk]
    | blank | number | quoted | assign | dot | stop | mark =>
      rw [hk] at hkind
      simp only [List.map_cons, tokensFrom, hk, hkind, hrest, Token.relocate]

theorem read_contentRenamed (hnew : Replaces new old) {content : Text}
    (h : Moves g old new offset offset' (contentLayout content)) :
    Line.read offset' (contentRenamed old new content) =
      (Line.read offset content).relocate (renamedName old new) (movedSpan g) := by
  by_cases hstar : content.head? = some '*'
  · simp [contentRenamed_comment hstar, Line.read, hstar, Line.relocate]
  · have hcode : contentLayout content = lexemes content := by simp [contentLayout, hstar]
    rw [hcode] at h
    have hstar' := head?_contentRenamed hnew hstar
    have hblank := all_isWhiteSpace_contentRenamed old hnew.identifier hstar
    simp only [Line.read, hstar, hstar', if_false, hblank]
    split
    · rfl
    · rw [contentRenamed_code hstar, lexemes_renamed hnew, tokensFrom_renamed h]
      rfl

/-- The document with the old name replaced. -/
def textRenamed (old : Name) (new t : Text) : Text := glue ((layout t).map (Lexeme.renamed old new))

theorem glue_lineLayout_renamed (line : Text) :
    glue ((lineLayout line).map (Lexeme.renamed old new)) = withContent (contentRenamed old new) line := by
  simp [lineLayout, withContent, contentRenamed, Lexeme.renamed]

theorem linesFrom_renamed (hnew : Replaces new old) {ls : List Text}
    (h : Moves g old new offset offset' (ls.flatMap lineLayout)) :
    linesFrom offset' (ls.map (withContent (contentRenamed old new))) =
      (linesFrom offset ls).map (Line.relocate (renamedName old new) (movedSpan g)) := by
  induction ls generalizing offset offset' with
  | nil => rfl
  | cons line ls ih =>
    rw [List.flatMap_cons] at h
    have hrest := ih h.right
    rw [glue_lineLayout, glue_lineLayout_renamed] at hrest
    have hline := read_contentRenamed hnew (Moves.left (Moves.left h))
    have htrimmed := trimmed_contentRenamed old hnew.identifier (trimmed_rawContent line)
    simp only [List.map_cons, linesFrom, rawContent_withContent htrimmed, hline, hrest]

/-- The lines of the new document say what those of the old one say, in other words for one name. -/
theorem lines_renamed (hnew : Replaces new old) {t : Text} (h : Moves g old new 0 0 (layout t)) :
    lines (textRenamed old new t) = (lines t).map (Line.relocate (renamedName old new) (movedSpan g)) := by
  have htext : textRenamed old new t = (rawLines t).flatMap (withContent (contentRenamed old new)) := by
    simp only [textRenamed, layout, glue, List.map_flatMap, List.flatMap_assoc]
    exact List.flatMap_congr fun line _ => glue_lineLayout_renamed line
  rw [lines, htext, rawLines_flatMap_withContent
    (fun content => lineFeed_not_mem_contentRenamed hnew.identifier)
    (fun content => contentRenamed_eq_nil hnew.identifier)]
  exact linesFrom_renamed hnew h

end GibianeEditor.Source
