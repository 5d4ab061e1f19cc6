/-
Scanning a document with carriage returns before its line feeds. The scanner's lines end at line feeds
and lose the carriage returns before them, so they hold what they held (`rawContent_crlf`) and lie
further on by a byte for each line above (`lines_crlf`). The document declares the same, at these
places (`scan_crlf`).
-/
import GibianeEditor.Proofs.Source.RawLine
import GibianeEditor.Proofs.Source.Relocation
import GibianeEditor.Proofs.Text.LineEnding

namespace GibianeEditor.Source

open Text (crlf_append crlf_of_not_mem crlfOffset_append)

/-! ## Lines -/

theorem rawLines_crlf (t : Text) : rawLines t.crlf = (rawLines t).map Text.crlf := by
  induction t with
  | nil => rfl
  | cons c t ih =>
    by_cases hc : c = '\n'
    · rw [hc, Text.crlf_lineFeed]
      simp [rawLines, ih]
    · rw [Text.crlf_cons hc]
      cases hlines : rawLines t with
      | nil =>
        rw [hlines, List.map_nil] at ih
        simp [rawLines, hc, ih, hlines, Text.crlf_cons hc]
      | cons line ls =>
        rw [hlines, List.map_cons] at ih
        rw [rawLines_cons hc ih, rawLines_cons hc hlines, List.map_cons, Text.crlf_cons hc]

theorem rawContent_crlf {body ending : Text} (h : '\n' ∉ body) (hending : ending = ['\n'] ∨ ending = []) :
    rawContent (Text.crlf (body ++ ending)) = rawContent (body ++ ending) := by
  rw [crlf_append, crlf_of_not_mem h]
  rcases hending with rfl | rfl
  · simp [rawContent]
  · rfl

theorem lineFeed_not_mem_rawContent {body ending : Text} (h : '\n' ∉ body) (hending : ending = ['\n'] ∨ ending = []) :
    '\n' ∉ rawContent (body ++ ending) := by
  have hcontent : rawContent (body ++ ending) = rawContent body := by
    rcases hending with rfl | rfl
    · exact rawContent_append_lineFeed body
    · rw [List.append_nil]
  rw [hcontent]
  intro hmem
  refine h ?_
  rw [← rawContent_append_rawEnding body]
  exact List.mem_append_left _ hmem

/-! ## Places -/

theorem tokensFrom_crlf {u v : Text} {ls : List Lexeme} (h : '\n' ∉ glue ls) :
    tokensFrom u.crlf.bytes ls = (tokensFrom u.bytes ls).map (Token.relocate id (u ++ glue ls ++ v).crlfSpan) := by
  induction ls generalizing u with
  | nil => rfl
  | cons l ls ih =>
    rw [glue_cons, List.mem_append, not_or] at h
    have hrest := @ih (u ++ l.text) h.2
    have htext : u ++ l.text ++ glue ls ++ v = u ++ glue (l :: ls) ++ v := by simp
    have hbytes : Text.bytes (u ++ l.text) = u.bytes + l.text.bytes := Text.extent_append u l.text
    have hcrlf : Text.bytes (u ++ l.text).crlf = u.crlf.bytes + l.text.bytes := by
      rw [crlf_append, crlf_of_not_mem h.1]
      exact Text.extent_append u.crlf l.text
    have hstart : (u ++ glue (l :: ls) ++ v).crlfOffset u.bytes = u.crlf.bytes := by
      rw [List.append_assoc, crlfOffset_append]
    have hstop : (u ++ glue (l :: ls) ++ v).crlfOffset (u.bytes + l.text.bytes) = u.crlf.bytes + l.text.bytes := by
      rw [← htext, List.append_assoc, ← hbytes, crlfOffset_append, hcrlf]
    rw [htext, hbytes, hcrlf] at hrest
    cases hk : l.kind with
    | name =>
      simp only [tokensFrom, hk, hrest, List.map_cons, Token.relocate, Site.relocate, Text.crlfSpan, hstart, hstop, id]
    | blank | number | quoted | assign | dot | stop | mark =>
      simp only [tokensFrom, hk, hrest, List.map_cons, Token.relocate]

theorem read_crlf {u v content : Text} (h : '\n' ∉ content) :
    Line.read u.crlf.bytes content = (Line.read u.bytes content).relocate id (u ++ content ++ v).crlfSpan := by
  unfold Line.read
  split
  · rfl
  split
  · rfl
  · have htokens := @tokensFrom_crlf u v (lexemes content) (by rwa [glue_lexemes])
    rw [glue_lexemes] at htokens
    rw [htokens]
    rfl

theorem linesFrom_crlf {u : Text} {ls : List Text} (h : Broken ls) :
    linesFrom u.crlf.bytes (ls.map Text.crlf) =
      (linesFrom u.bytes ls).map (Line.relocate id (u ++ ls.flatten).crlfSpan) := by
  induction ls generalizing u with
  | nil => rfl
  | cons line ls ih =>
    obtain ⟨⟨body, hbody, hline⟩, hls⟩ := h
    have hending : ∃ ending, line = body ++ ending ∧ (ending = ['\n'] ∨ ending = []) := by
      rcases hline with rfl | ⟨rfl, _, _⟩
      · exact ⟨['\n'], rfl, .inl rfl⟩
      · exact ⟨[], by simp, .inr rfl⟩
    obtain ⟨ending, rfl, hending⟩ := hending
    have hsplit := rawContent_append_rawEnding (body ++ ending)
    have hread := @read_crlf u (rawEnding (body ++ ending) ++ ls.flatten) _ (lineFeed_not_mem_rawContent hbody hending)
    have hrest := @ih (u ++ (body ++ ending)) hls
    have htext : u ++ rawContent (body ++ ending) ++ (rawEnding (body ++ ending) ++ ls.flatten) =
        u ++ ((body ++ ending) :: ls).flatten := by
      rw [List.flatten_cons, List.append_assoc u, ← List.append_assoc (rawContent _), hsplit]
    have hflat : u ++ (body ++ ending) ++ ls.flatten = u ++ ((body ++ ending) :: ls).flatten := by simp
    have hbytes : Text.bytes (u ++ (body ++ ending)) = u.bytes + Text.bytes (body ++ ending) := Text.extent_append _ _
    have hcrlf : Text.bytes (u ++ (body ++ ending)).crlf = u.crlf.bytes + Text.bytes (Text.crlf (body ++ ending)) := by
      rw [crlf_append u]
      exact Text.extent_append _ _
    rw [htext] at hread
    rw [hflat, hbytes, hcrlf] at hrest
    simp only [List.map_cons, linesFrom, rawContent_crlf hbody hending, hread, hrest]

/-- The lines of the document say the same, at the places further on. -/
theorem lines_crlf (t : Text) : lines t.crlf = (lines t).map (Line.relocate id t.crlfSpan) := by
  have h := @linesFrom_crlf [] (rawLines t) (broken_rawLines t)
  rw [List.nil_append, flatten_rawLines, ← rawLines_crlf] at h
  exact h

/-- **A document declares the same with carriage returns before its line feeds**, each place as many
bytes further as there are line feeds before it. -/
theorem scan_crlf (t : Text) : scan t.crlf = (scan t).map (Declaration.relocate id t.crlfSpan) :=
  scan_relocate (lines_crlf t) (fun _ => rfl) fun _ _ _ _ h => h

end GibianeEditor.Source
