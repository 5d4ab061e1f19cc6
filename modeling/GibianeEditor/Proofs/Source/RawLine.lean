/-
The lines of a document taken apart and put together. A document is its lines in a row, and a row of
lines, each with one line feed at its end or without any as the last, is read as these lines
(`rawLines_flatten`). So lines whose contents change stay lines (`rawLines_flatMap_withContent`).
-/
import Mathlib.Data.List.Basic
import GibianeEditor.Proofs.Source.Layout

namespace GibianeEditor.Source

/-- Lines as they stand in a document. Only the last one may lack its line feed, and no line is
without any character. -/
def Broken : List Text → Prop
  | [] => True
  | line :: ls =>
    (∃ body, '\n' ∉ body ∧ (line = body ++ ['\n'] ∨ line = body ∧ body ≠ [] ∧ ls = [])) ∧ Broken ls

theorem rawLines_cons {c : Char} (hc : c ≠ '\n') {t line : Text} {ls : List Text} (h : rawLines t = line :: ls) :
    rawLines (c :: t) = (c :: line) :: ls := by
  rw [rawLines, if_neg hc, h]

theorem rawLines_append_lineFeed {body : Text} (h : '\n' ∉ body) (t : Text) :
    rawLines (body ++ '\n' :: t) = (body ++ ['\n']) :: rawLines t := by
  induction body with
  | nil => simp [rawLines]
  | cons c body ih =>
    obtain ⟨hc, hbody⟩ := List.ne_and_not_mem_of_not_mem_cons h
    exact rawLines_cons (Ne.symm hc) (ih hbody)

theorem rawLines_of_not_mem {body : Text} (h : '\n' ∉ body) (hne : body ≠ []) : rawLines body = [body] := by
  induction body with
  | nil => exact absurd rfl hne
  | cons c body ih =>
    obtain ⟨hc, hbody⟩ := List.ne_and_not_mem_of_not_mem_cons h
    cases body with
    | nil => simp [rawLines, Ne.symm hc]
    | cons d body => exact rawLines_cons (Ne.symm hc) (ih hbody (by simp))

theorem rawLines_flatten : ∀ {ls : List Text}, Broken ls → rawLines ls.flatten = ls
  | [], _ => rfl
  | line :: ls, ⟨⟨body, hbody, hline⟩, hls⟩ => by
    rcases hline with rfl | ⟨rfl, hne, rfl⟩
    · simp only [List.flatten_cons, List.append_assoc, List.singleton_append]
      rw [rawLines_append_lineFeed hbody, rawLines_flatten hls]
    · simpa using rawLines_of_not_mem hbody hne

theorem broken_rawLines (t : Text) : Broken (rawLines t) := by
  induction t with
  | nil => trivial
  | cons c t ih =>
    by_cases hc : c = '\n'
    · rw [rawLines, if_pos hc]
      exact ⟨⟨[], by simp, .inl (by simp [hc])⟩, ih⟩
    · cases hls : rawLines t with
      | nil =>
        rw [rawLines, if_neg hc, hls]
        exact ⟨⟨[c], by simpa using Ne.symm hc, .inr (by simp)⟩, trivial⟩
      | cons line ls =>
        rw [rawLines_cons hc hls]
        rw [hls] at ih
        obtain ⟨⟨body, hbody, hline⟩, hrest⟩ := ih
        refine ⟨⟨c :: body, List.not_mem_cons_of_ne_of_not_mem (Ne.symm hc) hbody, ?_⟩, hrest⟩
        rcases hline with rfl | ⟨rfl, _, hnil⟩
        · exact .inl rfl
        · exact .inr ⟨rfl, by simp, hnil⟩

/-! ## Content and end of a line -/

/-- Whether a content stops in front of its line's end: it does not go on with a part of it. -/
def Trimmed (content : Text) : Prop := ∀ c ∈ content.getLast?, c ≠ '\n' ∧ c ≠ '\r'

theorem trimmed_rawContent (line : Text) : Trimmed (rawContent line) := by
  intro c hc
  have h := List.head?_dropWhile_not (fun c => c == '\n' || c == '\r') line.reverse
  rw [rawContent, List.getLast?_reverse] at hc
  rw [Option.mem_def.1 hc] at h
  simpa [not_or] using h

theorem eq_of_mem_rawEnding {line : Text} {c : Char} (hc : c ∈ rawEnding line) : c = '\n' ∨ c = '\r' := by
  rw [rawEnding, List.mem_reverse] at hc
  simpa using List.mem_takeWhile_imp hc

theorem rawContent_append {content ending : Text} (hcontent : Trimmed content)
    (hending : ∀ c ∈ ending, c = '\n' ∨ c = '\r') : rawContent (content ++ ending) = content := by
  rw [rawContent, List.reverse_append, List.dropWhile_append_of_pos (by simpa using hending)]
  have hstop : (content.reverse.dropWhile fun c => c == '\n' || c == '\r') = content.reverse := by
    rw [Trimmed, ← List.head?_reverse] at hcontent
    cases h : content.reverse with
    | nil => rfl
    | cons c cs =>
      have hc := hcontent c (by simp [h])
      simp [hc]
  rw [hstop, List.reverse_reverse]

theorem rawContent_append_lineFeed (body : Text) : rawContent (body ++ ['\n']) = rawContent body := by
  simp [rawContent]

theorem rawEnding_append_lineFeed (body : Text) : rawEnding (body ++ ['\n']) = rawEnding body ++ ['\n'] := by
  simp [rawEnding]

/-- The line with another content and the same end. -/
def withContent (f : Text → Text) (line : Text) : Text := f (rawContent line) ++ rawEnding line

section

variable {f : Text → Text}

theorem rawContent_withContent {line : Text} (htrimmed : Trimmed (f (rawContent line))) :
    rawContent (withContent f line) = f (rawContent line) :=
  rawContent_append htrimmed fun _ => eq_of_mem_rawEnding

variable (hfeed : ∀ content, '\n' ∉ content → '\n' ∉ f content) (hnil : ∀ content, f content = [] → content = [])
include hfeed

theorem lineFeed_not_mem_withContent {body : Text} (h : '\n' ∉ body) : '\n' ∉ withContent f body := by
  have hsplit := rawContent_append_rawEnding body
  rw [← hsplit, List.mem_append, not_or] at h
  rw [withContent, List.mem_append, not_or]
  exact ⟨hfeed _ h.1, h.2⟩

include hnil

theorem broken_map_withContent : ∀ {ls : List Text}, Broken ls → Broken (ls.map (withContent f))
  | [], _ => trivial
  | line :: ls, ⟨⟨body, hbody, hline⟩, hls⟩ => by
    refine ⟨⟨withContent f body, lineFeed_not_mem_withContent hfeed hbody, ?_⟩, broken_map_withContent hls⟩
    rcases hline with rfl | ⟨rfl, hne, rfl⟩
    · exact .inl (by simp [withContent, rawContent_append_lineFeed, rawEnding_append_lineFeed])
    · refine .inr ⟨rfl, fun h => hne ?_, rfl⟩
      obtain ⟨hcontent, hending⟩ := List.append_eq_nil_iff.1 h
      rw [← rawContent_append_rawEnding line, hnil _ hcontent, hending]
      rfl

/-- Lines whose contents change are the lines of the changed document. -/
theorem rawLines_flatMap_withContent (t : Text) :
    rawLines ((rawLines t).flatMap (withContent f)) = (rawLines t).map (withContent f) := by
  rw [List.flatMap_def]
  exact rawLines_flatten (broken_map_withContent hfeed hnil (broken_rawLines t))

end

end GibianeEditor.Source
