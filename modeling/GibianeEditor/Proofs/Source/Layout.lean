/-
A document as one row of lexemes, comments and the ends of lines among them as blanks. Put in a row
they are the document (`flatMap_text_layout`), and its sites are the names in the row
(`sites_eq_sitesFrom`). So a site is a slice of the document (`slice?_of_mem_sites`), and sites
come in the order of the text and never meet (`pairwise_sites`).
-/
import GibianeEditor.Proofs.Source.Separation
import GibianeEditor.Proofs.Text.Slice
import GibianeEditor.Source.Line

namespace GibianeEditor.Source

/-- The places of names in the code of a document. -/
def sites (t : Text) : List Site := (lines t).flatMap Line.sites

/-- Lines without their ends, each with the byte offset where it starts. -/
def contentsFrom : Nat → List Text → List (Nat × Text)
  | _, [] => []
  | offset, line :: rest => (offset, rawContent line) :: contentsFrom (offset + line.bytes) rest

/-- The lines of a document without their ends, each with its byte offset. -/
def contents (t : Text) : List (Nat × Text) := contentsFrom 0 (rawLines t)

/-- Where names stand among lexemes that start at a byte offset. -/
def sitesFrom : Nat → List Lexeme → List Site
  | _, [] => []
  | offset, l :: ls =>
    if l.kind = .name then
      ⟨Name.of l.text, ⟨offset, offset + Text.bytes l.text⟩⟩ :: sitesFrom (offset + Text.bytes l.text) ls
    else sitesFrom (offset + Text.bytes l.text) ls

/-- The line feeds and carriage returns at the end of a line. -/
def rawEnding (line : Text) : Text := (line.reverse.takeWhile fun c => c == '\n' || c == '\r').reverse

/-- What a line holds, a comment as one blank. -/
def contentLayout (content : Text) : List Lexeme :=
  if content.head? = some '*' then [⟨.blank, content⟩] else lexemes content

def lineLayout (line : Text) : List Lexeme := contentLayout (rawContent line) ++ [⟨.blank, rawEnding line⟩]

/-- A document in lexemes, what is no code as blanks. -/
def layout (t : Text) : List Lexeme := (rawLines t).flatMap lineLayout

/-- The characters of lexemes in a row. -/
def glue (ls : List Lexeme) : Text := ls.flatMap Lexeme.text

@[simp] theorem glue_nil : glue [] = [] := rfl

@[simp] theorem glue_cons (l : Lexeme) (ls : List Lexeme) : glue (l :: ls) = l.text ++ glue ls := rfl

@[simp] theorem glue_append (ls ms : List Lexeme) : glue (ls ++ ms) = glue ls ++ glue ms := List.flatMap_append

@[simp] theorem glue_lexemes (t : Text) : glue (lexemes t) = t := flatMap_text_lexemes t

@[simp] theorem rawContent_append_rawEnding (line : Text) : rawContent line ++ rawEnding line = line := by
  rw [rawContent, rawEnding, ← List.reverse_append, List.takeWhile_append_dropWhile, List.reverse_reverse]

@[simp] theorem glue_contentLayout (content : Text) : glue (contentLayout content) = content := by
  unfold contentLayout
  split <;> simp

@[simp] theorem glue_lineLayout (line : Text) : glue (lineLayout line) = line := by simp [lineLayout]

theorem flatMap_text_layout (t : Text) : glue (layout t) = t := by
  have h : ∀ ls : List Text, glue (ls.flatMap lineLayout) = ls.flatten := by
    intro ls
    induction ls with
    | nil => rfl
    | cons line ls ih => simp [ih]
  rw [layout, h, flatten_rawLines]

/-! ## The sites of a row of lexemes -/

theorem sitesFrom_append (offset : Nat) (ls ms : List Lexeme) :
    sitesFrom offset (ls ++ ms) = sitesFrom offset ls ++ sitesFrom (offset + (glue ls).bytes) ms := by
  induction ls generalizing offset with
  | nil => simp [sitesFrom]
  | cons l ls ih =>
    simp only [List.cons_append, sitesFrom, ih, glue_cons, Text.bytes, Text.extent_append, Nat.add_assoc]
    split <;> rfl

theorem sites_code_tokensFrom (offset : Nat) (ls : List Lexeme) :
    (Line.code (tokensFrom offset ls)).sites = sitesFrom offset ls := by
  induction ls generalizing offset with
  | nil => rfl
  | cons l ls ih =>
    have hstep := ih (offset + Text.bytes l.text)
    obtain ⟨kind, text⟩ := l
    simp only [Line.sites] at hstep
    cases kind <;> simp [Line.sites, tokensFrom, sitesFrom, hstep]

/-- Where a site of a row comes from: a name with what stands before and behind it. -/
theorem exists_of_mem_sitesFrom {offset : Nat} {ls : List Lexeme} {s : Site} (hs : s ∈ sitesFrom offset ls) :
    ∃ before l after, ls = before ++ l :: after ∧ l.kind = .name ∧
      s = ⟨Name.of l.text, ⟨offset + (glue before).bytes, offset + (glue before).bytes + Text.bytes l.text⟩⟩ := by
  induction ls generalizing offset with
  | nil => simp [sitesFrom] at hs
  | cons l ls ih =>
    have hlater : s ∈ sitesFrom (offset + Text.bytes l.text) ls → ∃ before m after, l :: ls = before ++ m :: after ∧
        m.kind = .name ∧
        s = ⟨Name.of m.text, ⟨offset + (glue before).bytes, offset + (glue before).bytes + Text.bytes m.text⟩⟩ := by
      intro hs
      obtain ⟨before, m, after, rfl, hm, rfl⟩ := ih hs
      exact ⟨l :: before, m, after, rfl, hm, by simp [Nat.add_assoc]⟩
    simp only [sitesFrom] at hs
    split at hs
    · rename_i hname
      rcases List.mem_cons.1 hs with rfl | hs
      · exact ⟨[], l, ls, rfl, hname, by simp⟩
      · exact hlater hs
    · exact hlater hs

theorem le_start_of_mem_sitesFrom {offset : Nat} {ls : List Lexeme} {s : Site} (hs : s ∈ sitesFrom offset ls) :
    offset ≤ s.span.start := by
  obtain ⟨before, l, after, _, _, rfl⟩ := exists_of_mem_sitesFrom hs
  exact Nat.le_add_right _ _

theorem pairwise_sitesFrom (offset : Nat) (ls : List Lexeme) :
    (sitesFrom offset ls).Pairwise fun a b => a.span.stop ≤ b.span.start := by
  induction ls generalizing offset with
  | nil => exact .nil
  | cons l ls ih =>
    simp only [sitesFrom]
    split
    · exact .cons (fun s hs => le_start_of_mem_sitesFrom hs) (ih _)
    · exact ih _

/-! ## The sites of a document -/

theorem kind_eq_blank_of_all_isWhiteSpace {content : Text} (h : content.all Unicode.isWhiteSpace = true)
    {l : Lexeme} (hl : l ∈ lexemes content) : l.kind = .blank := by
  obtain ⟨c, body, _, rfl, _⟩ := (separated_lexemes content).of_mem hl
  have hc : c ∈ content := by
    rw [← flatMap_text_lexemes content]
    exact List.mem_flatMap_of_mem hl (by simp)
  exact (kindOf_eq_blank_iff c).2 (List.all_eq_true.1 h c hc)

theorem sitesFrom_eq_nil {offset : Nat} {ls : List Lexeme} (h : ∀ l ∈ ls, l.kind ≠ .name) :
    sitesFrom offset ls = [] := by
  rw [List.eq_nil_iff_forall_not_mem]
  intro s hs
  obtain ⟨before, l, after, rfl, hl, _⟩ := exists_of_mem_sitesFrom hs
  exact h l (by simp) hl

theorem sites_read (offset : Nat) (content : Text) :
    (Line.read offset content).sites = sitesFrom offset (contentLayout content) := by
  unfold Line.read contentLayout
  split
  · rfl
  · split
    · rename_i hblank
      rw [sitesFrom_eq_nil fun l hl => by simp [kind_eq_blank_of_all_isWhiteSpace hblank hl]]
      rfl
    · exact sites_code_tokensFrom offset (lexemes content)

theorem sitesFrom_lineLayout (offset : Nat) (line : Text) :
    sitesFrom offset (lineLayout line) = (Line.read offset (rawContent line)).sites := by
  simp [lineLayout, sitesFrom_append, sitesFrom, sites_read]

theorem sites_eq_sitesFrom (t : Text) : sites t = sitesFrom 0 (layout t) := by
  have h : ∀ (ls : List Text) offset, (linesFrom offset ls).flatMap Line.sites = sitesFrom offset (ls.flatMap lineLayout) := by
    intro ls
    induction ls with
    | nil => exact fun _ => rfl
    | cons line ls ih =>
      intro offset
      simp only [linesFrom, List.flatMap_cons, sitesFrom_append, sitesFrom_lineLayout, glue_lineLayout, ih]
  exact h _ _

theorem lines_eq_map_contents (t : Text) : lines t = (contents t).map fun line => Line.read line.1 line.2 := by
  have h : ∀ (ls : List Text) offset, linesFrom offset ls = (contentsFrom offset ls).map fun line => Line.read line.1 line.2 := by
    intro ls
    induction ls with
    | nil => exact fun _ => rfl
    | cons line ls ih => exact fun offset => by simp [linesFrom, contentsFrom, ih]
  exact h _ _

/-- A name in a layout is a lexeme of a line of code. -/
theorem exists_lexemes_of_mem_layout {t : Text} {l : Lexeme} (hl : l ∈ layout t) (hk : l.kind = .name) :
    ∃ content, l ∈ lexemes content := by
  obtain ⟨line, _, hl⟩ := List.mem_flatMap.1 hl
  simp only [lineLayout, contentLayout, List.mem_append, List.mem_singleton] at hl
  rcases hl with hl | rfl
  · split at hl
    · simp only [List.mem_singleton] at hl
      subst hl
      simp at hk
    · exact ⟨_, hl⟩
  · simp at hk

theorem pairwise_sites (t : Text) : (sites t).Pairwise fun a b => a.span.stop ≤ b.span.start := by
  rw [sites_eq_sitesFrom]
  exact pairwise_sitesFrom 0 _

theorem start_lt_stop_of_mem_sites {t : Text} {s : Site} (hs : s ∈ sites t) : s.span.start < s.span.stop := by
  rw [sites_eq_sitesFrom] at hs
  obtain ⟨before, l, after, hsplit, hk, rfl⟩ := exists_of_mem_sitesFrom hs
  obtain ⟨content, hl⟩ := exists_lexemes_of_mem_layout (by rw [hsplit]; simp) hk
  have := Text.bytes_pos (text_ne_nil_of_mem_lexemes hl)
  simp only
  omega

/-- A site of a row is the slice of the row's characters there, and that slice spells its name. -/
theorem slice?_of_mem_sitesFrom {offset : Nat} {ls : List Lexeme} {s : Site} (hs : s ∈ sitesFrom offset ls) :
    ∃ word, (glue ls).slice? ⟨s.span.start - offset, s.span.stop - offset⟩ = some word ∧ Name.of word = s.name := by
  obtain ⟨before, l, after, rfl, _, rfl⟩ := exists_of_mem_sitesFrom hs
  refine ⟨l.text, ?_, rfl⟩
  rw [show glue (before ++ l :: after) = glue before ++ l.text ++ glue after by simp]
  simp only [show offset + (glue before).bytes - offset = (glue before).bytes by omega,
    show offset + (glue before).bytes + l.text.bytes - offset = (glue before).bytes + l.text.bytes by omega]
  exact Text.slice?_append _ _ _

theorem slice?_of_mem_sites {t : Text} {s : Site} (hs : s ∈ sites t) :
    ∃ word, t.slice? s.span = some word ∧ Name.of word = s.name := by
  rw [sites_eq_sitesFrom] at hs
  have h := slice?_of_mem_sitesFrom hs
  rwa [flatMap_text_layout] at h

end GibianeEditor.Source
