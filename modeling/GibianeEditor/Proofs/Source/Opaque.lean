/-
What the scanner does not see. Two texts that differ in comments, or strictly inside strings, are cut into
lines that differ so (`sameLines_rawLines`), and a string is one token whatever it holds
(`SameCode.tokensFrom_eq`). So lines of two such texts have the same tokens at the same places, and the
texts declare the same (`comments_and_strings_are_opaque`).
-/
import GibianeEditor.Proofs.Source.Description

namespace GibianeEditor.Source

/-! ## Rewritten texts -/

/-- Whether a text is another but for hidden characters, each rewritten as one of its length in bytes. What
hides a character is the part of its line in front of it. -/
def RewrittenFrom (hidden : Text → Char → Prop) : Text → Text → Text → Prop
  | _, [], [] => True
  | line, c :: t, d :: u =>
    (c = d ∨ c.utf8Size = d.utf8Size ∧ hidden line c ∧ hidden line d) ∧
      RewrittenFrom hidden (if c = '\n' then [] else line ++ [c]) t u
  | _, _, _ => False

/-- Whether a character stands behind the first star of a comment. -/
def InComment (line : Text) (c : Char) : Prop := line.head? = some '*' ∧ c ≠ '\n'

/-- Whether a character stands strictly inside a string: behind a quote that opens it, and it is neither the
quote nor the line feed that ends it. -/
def InString (line : Text) (c : Char) : Prop :=
  line.head? ≠ some '*' ∧ line.count '\'' % 2 = 1 ∧ c ≠ '\'' ∧ c ≠ '\n'

instance (line : Text) (c : Char) : Decidable (InComment line c) := inferInstanceAs (Decidable (_ ∧ _))

instance (line : Text) (c : Char) : Decidable (InString line c) := inferInstanceAs (Decidable (_ ∧ _ ∧ _ ∧ _))

instance RewrittenFrom.decidable {hidden : Text → Char → Prop} [∀ line c, Decidable (hidden line c)] :
    (line t u : Text) → Decidable (RewrittenFrom hidden line t u)
  | _, [], [] => isTrue trivial
  | _, [], _ :: _ => isFalse id
  | _, _ :: _, [] => isFalse id
  | line, c :: t, _ :: u =>
    have : Decidable (RewrittenFrom hidden (if c = '\n' then [] else line ++ [c]) t u) := decidable _ t u
    inferInstanceAs (Decidable (_ ∧ _))

/-! ## Lines -/

/-- Whether two parts of a line of code differ only strictly inside strings. They start inside a string or not. -/
inductive SameCode : Bool → Text → Text → Prop
  | nil (inString : Bool) : SameCode inString [] []
  | cons {inString : Bool} {c d : Char} {t u : Text}
    (same : c = d ∨ inString = true ∧ c.utf8Size = d.utf8Size ∧ c ≠ '\'' ∧ d ≠ '\'')
    (rest : SameCode (inString ^^ c == '\'') t u) : SameCode inString (c :: t) (d :: u)

/-- Whether the part of a line ends inside a string. -/
def endsInString (line : Text) : Bool := line.count '\'' % 2 == 1

theorem endsInString_concat (line : Text) (c : Char) :
    endsInString (line ++ [c]) = (endsInString line ^^ c == '\'') := by
  rw [endsInString, endsInString, List.count_append, List.count_singleton]
  rcases Nat.mod_two_eq_zero_or_one (line.count '\'') with h | h <;> cases hc : c == '\'' <;> simp [Nat.add_mod, h]

/-- Whether two rests of a line, behind a part of it, differ only where something is hidden. -/
structure SameLine (hidden : Text → Char → Prop) (line t u : Text) : Prop where
  head : (line ++ t).head? = (line ++ u).head?
  bytes : t.bytes = u.bytes
  comment : (line ++ t).head? = some '*' → (∀ line c, hidden line c → line.head? ≠ some '*') → t = u
  code : (line ++ t).head? ≠ some '*' → SameCode (endsInString line) t u

theorem SameLine.nil (hidden : Text → Char → Prop) (line : Text) : SameLine hidden line [] [] :=
  ⟨rfl, rfl, fun _ _ => rfl, fun _ => .nil _⟩

/-- Whether the lines of two texts, the first ones behind a part of them, differ only where something is
hidden. -/
inductive SameLines (hidden : Text → Char → Prop) (line : Text) : List Text → List Text → Prop
  | nil : SameLines hidden line [] []
  | cons {l m : Text} {ls ms : List Text} (first : SameLine hidden line l m)
    (rest : List.Forall₂ (SameLine hidden []) ls ms) : SameLines hidden line (l :: ls) (m :: ms)

theorem SameLines.forall₂ {hidden : Text → Char → Prop} {ls ms : List Text} (h : SameLines hidden [] ls ms) :
    List.Forall₂ (SameLine hidden []) ls ms := by
  cases h with
  | nil => exact .nil
  | cons first rest => exact .cons first rest

section

variable {hidden : Text → Char → Prop} (hhidden : ∀ line c, hidden line c → InComment line c ∨ InString line c)
include hhidden

theorem ne_lineFeed_of_hidden {line : Text} {c : Char} (h : hidden line c) : c ≠ '\n' := by
  rcases hhidden line c h with h | h
  · exact h.2
  · exact h.2.2.2

/-- Where a line starts nothing is hidden. -/
theorem ne_nil_of_hidden {line : Text} {c : Char} (h : hidden line c) : line ≠ [] := by
  rintro rfl
  rcases hhidden [] c h with ⟨h, _⟩ | ⟨_, h, _⟩
  · cases h
  · cases h

/-- **Step.** A character more in front. -/
theorem SameLine.cons {line t u : Text} {c d : Char}
    (hsame : c = d ∨ c.utf8Size = d.utf8Size ∧ hidden line c ∧ hidden line d)
    (h : SameLine hidden (line ++ [c]) t u) : SameLine hidden line (c :: t) (d :: u) := by
  rcases hsame with rfl | ⟨hsize, hc, hd⟩
  · obtain ⟨hhead, hbytes, hcomment, hcode⟩ := h
    simp only [← List.append_cons] at hhead hcomment hcode
    refine ⟨hhead, by simp [hbytes], fun hstar hnone => by rw [hcomment hstar hnone], fun hstar => .cons (.inl rfl) ?_⟩
    rw [← endsInString_concat]
    exact hcode hstar
  · obtain ⟨b, line, rfl⟩ := List.exists_cons_of_ne_nil (ne_nil_of_hidden hhidden hc)
    refine ⟨rfl, by simp [h.bytes, hsize], fun hstar hnone => (hnone _ _ hc hstar).elim, fun hstar => ?_⟩
    have hstring : ∀ {c}, hidden (b :: line) c → InString (b :: line) c := fun h =>
      (hhidden _ _ h).resolve_left fun hcomment => hstar hcomment.1
    obtain ⟨_, hcount, hcquote, _⟩ := hstring hc
    refine .cons (.inr ⟨beq_iff_eq.2 hcount, hsize, hcquote, (hstring hd).2.2.1⟩) ?_
    rw [← endsInString_concat]
    exact h.code hstar

/-- Rewritten texts have lines that differ only where something is hidden. -/
theorem sameLines_rawLines {line t u : Text} (h : RewrittenFrom hidden line t u) :
    SameLines hidden line (rawLines t) (rawLines u) := by
  induction t generalizing line u with
  | nil =>
    cases u with
    | nil => exact .nil
    | cons d u => exact h.elim
  | cons c t ih =>
    cases u with
    | nil => exact h.elim
    | cons d u =>
      obtain ⟨hsame, hrest⟩ := h
      have ih := ih hrest
      by_cases hc : c = '\n'
      · obtain rfl : c = d := hsame.resolve_right fun h => ne_lineFeed_of_hidden hhidden h.2.1 hc
        simp only [rawLines, hc, if_true] at ih ⊢
        exact .cons (SameLine.cons hhidden (.inl rfl) (.nil hidden _)) ih.forall₂
      · have hd : d ≠ '\n' := by
          rcases hsame with rfl | ⟨_, _, hd⟩
          · exact hc
          · exact ne_lineFeed_of_hidden hhidden hd
        -- The character goes to the front of the first line, or is a line of its own.
        simp only [rawLines, hc, hd, if_false] at ih ⊢
        generalize rawLines t = ls at ih ⊢
        generalize rawLines u = ms at ih ⊢
        cases ih with
        | nil => exact .cons (SameLine.cons hhidden hsame (.nil hidden _)) .nil
        | cons first rest => exact .cons (SameLine.cons hhidden hsame first) rest

end

/-! ## Lexemes -/

namespace SameCode

/-- What stands up to a quote is the same. -/
theorem takeWhile {p : Char → Bool} (hp : p '\'' = false) {t u : Text} (h : SameCode false t u) :
    t.takeWhile p = u.takeWhile p ∧ SameCode false (t.dropWhile p) (u.dropWhile p) := by
  induction t generalizing u with
  | nil =>
    cases h
    exact ⟨rfl, .nil _⟩
  | cons c t ih =>
    cases h with
    | @cons _ _ d _ u same rest =>
      obtain rfl : c = d := same.resolve_right fun h => absurd h.1 Bool.false_ne_true
      cases hc : p c with
      | true =>
        have hquote : (c == '\'') = false := by
          rw [beq_eq_false_iff_ne]
          rintro rfl
          rw [hp] at hc
          cases hc
        obtain ⟨htake, hdrop⟩ := ih (by simpa [hquote] using rest)
        simp only [List.takeWhile_cons, List.dropWhile_cons, hc, if_true]
        exact ⟨by rw [htake], hdrop⟩
      | false =>
        simp only [List.takeWhile_cons, List.dropWhile_cons, hc, Bool.false_eq_true, if_false, true_and]
        exact .cons same rest

/-- The rest of a string has the same length. -/
theorem cutQuoted {t u : Text} (h : SameCode true t u) :
    Text.bytes (Source.cutQuoted t).1 = Text.bytes (Source.cutQuoted u).1 ∧
      SameCode false (Source.cutQuoted t).2 (Source.cutQuoted u).2 := by
  induction t generalizing u with
  | nil =>
    cases h
    exact ⟨rfl, .nil _⟩
  | cons c t ih =>
    cases h with
    | @cons _ _ d _ u same rest =>
      by_cases hc : c = '\''
      · obtain rfl : c = d := same.resolve_right fun h => h.2.2.1 hc
        simp only [Source.cutQuoted, hc, if_true, true_and]
        simpa [hc] using rest
      · have hd : d ≠ '\'' ∧ c.utf8Size = d.utf8Size := by
          rcases same with rfl | ⟨_, hsize, _, hd⟩
          · exact ⟨hc, rfl⟩
          · exact ⟨hd, hsize⟩
        obtain ⟨hbytes, hcode⟩ := ih (by simpa [beq_eq_false_iff_ne.2 hc] using rest)
        simp only [Source.cutQuoted, hc, hd.1, if_false]
        exact ⟨by simp [hbytes, hd.2], hcode⟩

/-- A lexeme that starts the same has the same length, and is the same if it is a name. -/
theorem extend {c : Char} {t u : Text} (h : SameCode (c == '\'') t u) :
    Text.bytes (Source.extend (kindOf c) t).1 = Text.bytes (Source.extend (kindOf c) u).1 ∧
      (kindOf c = .name → (Source.extend (kindOf c) t).1 = (Source.extend (kindOf c) u).1) ∧
      SameCode false (Source.extend (kindOf c) t).2 (Source.extend (kindOf c) u).2 := by
  by_cases hquote : c = '\''
  · obtain ⟨hbytes, hcode⟩ := cutQuoted (by simpa [hquote] using h)
    rw [(kindOf_eq_quoted_iff c).2 hquote]
    exact ⟨hbytes, by simp, hcode⟩
  · rw [beq_eq_false_iff_ne.2 hquote] at h
    cases hkind : kindOf c with
    | name =>
      obtain ⟨htake, hdrop⟩ := h.takeWhile (p := isWordChar) (by decide +kernel)
      exact ⟨by simp only [Source.extend, htake], fun _ => htake, hdrop⟩
    | number =>
      obtain ⟨htake, hdrop⟩ := h.takeWhile (p := isNumberPart) (by decide +kernel)
      exact ⟨by simp only [Source.extend, htake], by simp, hdrop⟩
    | quoted => exact absurd ((kindOf_eq_quoted_iff c).1 hkind) hquote
    | blank | assign | dot | stop | mark => exact ⟨rfl, fun _ => rfl, h⟩

/-- The tokens are the same, and stand at the same places. -/
theorem tokensFrom_eq {t u : Text} (h : SameCode false t u) (offset : Nat) :
    tokensFrom offset (lexemes t) = tokensFrom offset (lexemes u) := by
  fun_induction lexemes t generalizing u offset with
  | case1 =>
    cases h
    rw [lexemes]
  | case2 c t ih =>
    cases h with
    | @cons _ _ d _ u same rest =>
      obtain rfl : c = d := same.resolve_right fun h => absurd h.1 Bool.false_ne_true
      obtain ⟨hbytes, hname, hrest⟩ := extend (by simpa using rest)
      rw [lexemes]
      cases hkind : kindOf c with
      | name =>
        rw [hkind] at hname hrest ih
        simp only [tokensFrom, Text.extent_cons, hname rfl, ih hrest]
      | blank | number | quoted | assign | dot | stop | mark =>
        rw [hkind] at hbytes hrest ih
        simp only [tokensFrom, Text.extent_cons, hbytes, ih hrest]

end SameCode

/-! ## The end of a line -/

theorem cutQuoted_append_eq (t ending : Text) :
    cutQuoted (t ++ ending) = ((cutQuoted t).1, (cutQuoted t).2 ++ ending) ∨
      (cutQuoted t).2 = [] ∧ (cutQuoted (t ++ ending)).2 = (cutQuoted ending).2 := by
  induction t with
  | nil => exact .inr ⟨rfl, rfl⟩
  | cons c t ih =>
    by_cases hc : c = '\''
    · exact .inl (by simp [cutQuoted, hc])
    · rcases ih with h | ⟨h, hending⟩
      · exact .inl (by simp [cutQuoted, hc, h])
      · exact .inr ⟨by simp [cutQuoted, hc, h], by simp [cutQuoted, hc, hending]⟩

section

variable {ending : Text} (hending : ∀ c ∈ ending, c = '\n' ∨ c = '\r')
include hending

theorem cutQuoted_ending : (cutQuoted ending).2 = [] := by
  induction ending with
  | nil => rfl
  | cons c ending ih =>
    have hc : c ≠ '\'' := by
      rcases hending c List.mem_cons_self with rfl | rfl <;> decide
    rw [cutQuoted, if_neg hc]
    exact ih fun d hd => hending d (List.mem_cons_of_mem _ hd)

/-- Only a string that is not closed takes up the end of the line. -/
theorem extend_append_ending (kind : Kind) (t : Text) :
    extend kind (t ++ ending) = ((extend kind t).1, (extend kind t).2 ++ ending) ∨
      kind = .quoted ∧ (extend kind t).2 = [] ∧ (extend kind (t ++ ending)).2 = [] := by
  have hstop : ∀ p : Char → Bool, p '\n' = false → p '\r' = false → ∀ c ∈ ending, p c = false := by
    intro p hfeed hreturn c hc
    rcases hending c hc with rfl | rfl
    · exact hfeed
    · exact hreturn
  cases kind with
  | name => exact .inl (takeWhile_dropWhile_append (hstop isWordChar (by decide +kernel) (by decide +kernel)) t)
  | number => exact .inl (takeWhile_dropWhile_append (hstop isNumberPart (by decide +kernel) (by decide +kernel)) t)
  | quoted =>
    rcases cutQuoted_append_eq t ending with h | ⟨h, hrest⟩
    · exact .inl h
    · exact .inr ⟨rfl, h, hrest.trans (cutQuoted_ending hending)⟩
  | blank | assign | dot | stop | mark => exact .inl rfl

theorem tokensFrom_append_ending (t : Text) (offset : Nat) :
    tokensFrom offset (lexemes (t ++ ending)) = tokensFrom offset (lexemes t) := by
  fun_induction lexemes t generalizing offset with
  | case1 =>
    refine tokensFrom_eq_nil fun l => kind_eq_blank_of_all_isWhiteSpace (List.all_eq_true.2 fun c hc => ?_)
    rcases hending c hc with rfl | rfl <;> rfl
  | case2 c t ih =>
    rw [List.cons_append, lexemes]
    rcases extend_append_ending hending (kindOf c) t with h | ⟨hkind, hrest, hnil⟩
    · rw [h]
      cases hkind : kindOf c <;> rw [hkind] at ih <;> simp only [tokensFrom, ih]
    · rw [hrest, hnil, lexemes, hkind]
      rfl

end

/-- What a line says, told from the line with its end. -/
theorem read_rawContent (offset : Nat) (line : Text) :
    Line.read offset (rawContent line) =
      if line.head? = some '*' then .comment (remark line)
      else if tokensFrom offset (lexemes line) = [] then .blank
      else .code (tokensFrom offset (lexemes line)) := by
  have htokens := tokensFrom_append_ending (fun c => @eq_of_mem_rawEnding line c) (rawContent line) offset
  rw [rawContent_append_rawEnding] at htokens
  have hblank : (rawContent line).all Unicode.isWhiteSpace = true ↔ tokensFrom offset (lexemes (rawContent line)) = [] := by
    constructor
    · exact fun h => tokensFrom_eq_nil fun l => kind_eq_blank_of_all_isWhiteSpace h
    · intro h
      cases hall : (rawContent line).all Unicode.isWhiteSpace with
      | true => rfl
      | false => exact absurd h (tokensFrom_lexemes_ne_nil hall)
  simp only [Line.read, head?_rawContent_eq_star_iff, isComment, beq_iff_eq, trim_rawContent, hblank, htokens]

/-- Two lines that differ only where something is hidden say the same, unless they are comments. -/
theorem SameLine.comments_or_read_eq {hidden : Text → Char → Prop} {l m : Text} (h : SameLine hidden [] l m)
    (offset : Nat) :
    l.head? = some '*' ∧ m.head? = some '*' ∨
      Line.read offset (rawContent l) = Line.read offset (rawContent m) := by
  have hhead : l.head? = m.head? := h.head
  by_cases hstar : l.head? = some '*'
  · exact .inl ⟨hstar, hhead ▸ hstar⟩
  · rw [read_rawContent, read_rawContent, ← hhead, (h.code hstar).tokensFrom_eq]
    simp only [if_neg hstar, or_true]

/-! ## Documents -/

section

variable {hidden : Text → Char → Prop} {ls ms : List Text} (h : List.Forall₂ (SameLine hidden []) ls ms)
include h

theorem flatMap_tokens_linesFrom_eq (offset : Nat) :
    (linesFrom offset ls).flatMap Line.tokens = (linesFrom offset ms).flatMap Line.tokens := by
  induction h generalizing offset with
  | nil => rfl
  | @cons l m ls ms hline _ ih =>
    simp only [linesFrom, List.flatMap_cons, hline.bytes, ih]
    congr 1
    rcases hline.comments_or_read_eq offset with ⟨hl, hm⟩ | hread
    · rw [read_rawContent, read_rawContent, if_pos hl, if_pos hm]
      rfl
    · rw [hread]

theorem linesFrom_eq (hstrings : ∀ line c, hidden line c → line.head? ≠ some '*') (offset : Nat) :
    linesFrom offset ls = linesFrom offset ms := by
  induction h generalizing offset with
  | nil => rfl
  | @cons l m ls ms hline _ ih =>
    rw [linesFrom, linesFrom, hline.bytes, ih]
    rcases hline.comments_or_read_eq offset with ⟨hl, _⟩ | hread
    · rw [hline.comment hl hstrings]
    · rw [hread]

end

theorem map_site_firstOfEach_eq {ds es : List Declaring} (h : ds.map Declaring.site = es.map Declaring.site) :
    (firstOfEach ds).map Declaring.site = (firstOfEach es).map Declaring.site := by
  induction ds generalizing es with
  | nil =>
    obtain rfl : es = [] := List.map_eq_nil_iff.1 h.symm
    rfl
  | cons d ds ih =>
    obtain ⟨e, es, rfl, hsite, hrest⟩ := List.map_eq_cons_iff.1 h.symm
    have hfilter : ∀ fs : List Declaring, (fs.filter fun f => f.site.name ≠ d.site.name).map Declaring.site =
        (fs.map Declaring.site).filter fun s => s.name ≠ d.site.name := fun fs => by
      rw [List.filter_map]
      rfl
    simp only [firstOfEach, List.map_cons, hsite, hfilter, ih hrest.symm]

/-- The tokens of a document settle what it declares, descriptions apart. -/
theorem scan_eq_of_tokens_eq {t u : Text} (h : tokens t = tokens u) :
    (scan t).map (fun d => (d.name, d.span, d.uses)) = (scan u).map fun d => (d.name, d.span, d.uses) := by
  have hsites : sites t = sites u := by rw [← namesOf_tokens, h, namesOf_tokens]
  have hdeclarings : (declarings (.between []) (lines t)).map Declaring.site =
      (declarings (.between []) (lines u)).map Declaring.site := by
    rw [map_site_declarings, map_site_declarings, statements, statements, h]
  have hscan : ∀ t, (scan t).map (fun d => (d.name, d.span, d.uses)) =
      ((firstOfEach (declarings (.between []) (lines t))).map Declaring.site).map fun s =>
        (s.name, s.span, usesOf s (sites t)) := fun t => by
    rw [List.map_map, scan, List.map_map]
    rfl
  rw [hscan, hscan, map_site_firstOfEach_eq hdeclarings, hsites]

/-- **Comments and strings are opaque.** A text whose characters behind the star of comments and strictly
inside strings are rewritten, each as one of its length, declares the same names in the same order, at the
same places and with the same uses. If only strings are rewritten, the descriptions are the same too. -/
theorem comments_and_strings_are_opaque {t u : Text} :
    (RewrittenFrom (fun line c => InComment line c ∨ InString line c) [] t u →
      (scan t).map (fun d => (d.name, d.span, d.uses)) = (scan u).map fun d => (d.name, d.span, d.uses)) ∧
    (RewrittenFrom InString [] t u → scan t = scan u) := by
  constructor
  · intro h
    have hlines := (sameLines_rawLines (fun _ _ => id) h).forall₂
    refine scan_eq_of_tokens_eq ?_
    rw [tokens_eq, tokens_eq]
    exact flatMap_tokens_linesFrom_eq hlines 0
  · intro h
    have hlines := (sameLines_rawLines (fun _ _ => .inr) h).forall₂
    have heq : lines t = lines u := linesFrom_eq hlines (fun _ _ h => h.1) 0
    rw [scan, scan, heq]

/-- A string and a comment rewritten with what declares names where it is code. The comment changes the
description. -/
theorem opaque_to_declarations_in_prose :
    let t := "* note\nA = 'B - 1.' C;\n".toList
    let u := "* note\nA = '; X = ' C;\n".toList
    let v := "* X=1;\nA = '; X = ' C;\n".toList
    RewrittenFrom InString [] t u ∧ RewrittenFrom (fun line c => InComment line c ∨ InString line c) [] t v ∧
      scan t = scan u ∧
      (scan t).map (fun d => (d.name, d.span, d.uses)) = (scan v).map (fun d => (d.name, d.span, d.uses)) ∧
      scan t ≠ scan v := by
  intro t u v
  have hu : RewrittenFrom InString [] t u := by decide +kernel
  have hv : RewrittenFrom (fun line c => InComment line c ∨ InString line c) [] t v := by decide +kernel
  exact ⟨hu, hv, comments_and_strings_are_opaque.2 hu, comments_and_strings_are_opaque.1 hv, by decide +kernel⟩

end GibianeEditor.Source
