/-
When lexemes stay apart: put in a row they are read back as the same lexemes
(`lexemes_flatMap_text`), and so are those of every line (`separated_lexemes`). Whether a lexeme
ends where it does depends only on the character behind it (`extend_congr`).
-/
import Mathlib.Data.List.TakeWhile
import GibianeEditor.Proofs.Source.Characters

namespace GibianeEditor.Source

/-- Each lexeme is what its first character starts in front of all that follow. -/
def Separated : List Lexeme → Prop
  | [] => True
  | l :: ls =>
    (∃ c body, l = ⟨kindOf c, c :: body⟩ ∧
      extend (kindOf c) (body ++ ls.flatMap Lexeme.text) = (body, ls.flatMap Lexeme.text)) ∧ Separated ls

theorem separated_lexemes (t : Text) : Separated (lexemes t) := by
  fun_induction lexemes t with
  | case1 => trivial
  | case2 c t ih =>
    refine ⟨⟨c, (extend (kindOf c) t).1, rfl, ?_⟩, ih⟩
    rw [flatMap_text_lexemes, extend_append]

theorem lexemes_flatMap_text : ∀ {ls : List Lexeme}, Separated ls → lexemes (ls.flatMap Lexeme.text) = ls
  | [], _ => by simp [lexemes]
  | l :: ls, h => by
    obtain ⟨⟨c, body, rfl, hext⟩, hls⟩ := h
    have ih := lexemes_flatMap_text hls
    simp only [List.flatMap_cons, List.cons_append, lexemes, hext, ih]

/-! ## Where a lexeme ends -/

theorem takeWhile_dropWhile_eq_iff {p : Char → Bool} {body rest : Text} :
    ((body ++ rest).takeWhile p, (body ++ rest).dropWhile p) = (body, rest) ↔
      (∀ c ∈ body, p c = true) ∧ ∀ c ∈ rest.head?, p c = false := by
  constructor
  · intro h
    obtain ⟨htake, hdrop⟩ := Prod.mk.inj h
    refine ⟨fun c hc => ?_, fun c hc => ?_⟩
    · rw [← htake] at hc
      exact List.mem_takeWhile_imp hc
    · have hnot := List.head?_dropWhile_not p (body ++ rest)
      rw [hdrop, Option.mem_def.1 hc] at hnot
      simpa using hnot
  · rintro ⟨hbody, hrest⟩
    rw [List.takeWhile_append_of_pos hbody, List.dropWhile_append_of_pos hbody]
    cases rest with
    | nil => simp
    | cons c rest => simp [hrest c rfl]

theorem takeWhile_dropWhile_append {p : Char → Bool} {ending : Text} (hstop : ∀ c ∈ ending, p c = false) (t : Text) :
    ((t ++ ending).takeWhile p, (t ++ ending).dropWhile p) = (t.takeWhile p, t.dropWhile p ++ ending) := by
  have hsplit : t ++ ending = t.takeWhile p ++ (t.dropWhile p ++ ending) := by
    rw [← List.append_assoc, List.takeWhile_append_dropWhile]
  rw [hsplit, takeWhile_dropWhile_eq_iff]
  refine ⟨fun c => List.mem_takeWhile_imp, fun c hc => ?_⟩
  have hnot := List.head?_dropWhile_not p t
  cases hdrop : t.dropWhile p with
  | nil =>
    rw [hdrop, List.nil_append] at hc
    exact hstop c (List.mem_of_mem_head? hc)
  | cons d rest =>
    rw [hdrop] at hc hnot
    obtain rfl : d = c := Option.some.inj hc
    simpa using hnot

theorem cutQuoted_congr {body rest rest' : Text} (h : cutQuoted (body ++ rest) = (body, rest))
    (hnil : rest = [] → rest' = []) : cutQuoted (body ++ rest') = (body, rest') := by
  induction body with
  | nil =>
    cases rest with
    | nil => simp [hnil rfl, cutQuoted]
    | cons c rest =>
      simp only [List.nil_append, cutQuoted] at h
      split at h <;> simp at h
  | cons c body ih =>
    simp only [List.cons_append, cutQuoted] at h ⊢
    split at h
    · rename_i hc
      obtain ⟨hbody, _⟩ := Prod.mk.inj h
      obtain rfl : body = [] := by simpa using hbody.symm
      simp [hc]
    · rename_i hc
      obtain ⟨hbody, hrest⟩ := Prod.mk.inj h
      have := ih (Prod.ext (List.cons.inj hbody).2 hrest)
      simp [hc, this]

theorem eq_nil_of_extend {k : Kind} {body rest : Text} (hname : k ≠ .name) (hnumber : k ≠ .number)
    (hquoted : k ≠ .quoted) (h : extend k (body ++ rest) = (body, rest)) : body = [] := by
  cases k <;> simp_all [extend]

/-- A lexeme ends in front of another text as well, if its kind cannot go on with the first
character there. -/
theorem extend_congr {k : Kind} {body rest rest' : Text} (h : extend k (body ++ rest) = (body, rest))
    (hnil : rest = [] → rest' = [])
    (hname : k = .name → ∀ c ∈ rest'.head?, isWordChar c = false)
    (hnumber : k = .number → ∀ c ∈ rest'.head?, isNumberPart c = false) :
    extend k (body ++ rest') = (body, rest') := by
  cases k with
  | name => exact takeWhile_dropWhile_eq_iff.2 ⟨(takeWhile_dropWhile_eq_iff.1 h).1, hname rfl⟩
  | number => exact takeWhile_dropWhile_eq_iff.2 ⟨(takeWhile_dropWhile_eq_iff.1 h).1, hnumber rfl⟩
  | quoted => exact cutQuoted_congr h hnil
  | blank | assign | dot | stop | mark =>
    obtain rfl := eq_nil_of_extend (by simp) (by simp) (by simp) h
    rfl

/-! ## What a lexeme holds -/

theorem Separated.tail {l : Lexeme} {ls : List Lexeme} (h : Separated (l :: ls)) : Separated ls := h.2

theorem Separated.of_mem {ls : List Lexeme} (h : Separated ls) {l : Lexeme} (hl : l ∈ ls) :
    ∃ c body rest, l = ⟨kindOf c, c :: body⟩ ∧ extend (kindOf c) (body ++ rest) = (body, rest) := by
  induction ls with
  | nil => simp at hl
  | cons m ls ih =>
    rcases List.mem_cons.1 hl with rfl | hl
    · obtain ⟨⟨c, body, hc, hext⟩, _⟩ := h
      exact ⟨c, body, _, hc, hext⟩
    · exact ih h.tail hl

theorem text_ne_nil_of_mem_lexemes {t : Text} {l : Lexeme} (hl : l ∈ lexemes t) : l.text ≠ [] := by
  obtain ⟨c, body, _, rfl, _⟩ := (separated_lexemes t).of_mem hl
  simp

end GibianeEditor.Source
