/-
Edits of a text that are made all at once. A text cut into pieces, some with a replacement, becomes
the row of the replaced pieces (`substitute_eq`), and what stood between two pieces stands behind
the replaced pieces before it (`shift_eq`).
-/
import Mathlib.Algebra.GroupWithZero.Nat
import Mathlib.Data.List.Basic
import GibianeEditor.Proofs.Text.Slice
import GibianeEditor.Symbol.Query

namespace GibianeEditor

namespace Text

/-- The text behind a byte offset with edits made: the characters of a span go, and the new text
comes where the span starts. The spans hold at least one character each and do not meet. -/
def substituteFrom (edits : List TextEdit) : Nat → Text → Text
  | _, [] => []
  | offset, c :: t =>
    let rest := substituteFrom edits (offset + c.utf8Size) t
    match edits.find? fun e => e.span.start ≤ offset ∧ offset < e.span.stop with
    | none => c :: rest
    | some e => if e.span.start = offset then e.newText ++ rest else rest

/-- The text with edits made, all of them placed in the text as it is. -/
def substitute (edits : List TextEdit) (t : Text) : Text := substituteFrom edits 0 t

/-- Where a byte offset goes when edits are made: every edit before it adds the length of its new
text and takes that of its span. -/
def shift (edits : List TextEdit) (offset : Nat) : Nat :=
  let before := edits.filter fun e => e.span.stop ≤ offset
  offset + (before.map fun e => e.newText.bytes).sum - (before.map fun e => e.span.stop - e.span.start).sum

end Text

/-- Where a span goes when edits are made. -/
def Span.shift (edits : List TextEdit) (span : Span) : Span :=
  ⟨Text.shift edits span.start, Text.shift edits span.stop⟩

/-- A stretch of a text, and what takes its place, if anything does. -/
structure Piece where
  old : Text
  new? : Option Text

namespace Piece

/-- What stands in the piece's place. -/
def new (p : Piece) : Text := p.new?.getD p.old

/-- The text that pieces are cut from. -/
def before (ps : List Piece) : Text := ps.flatMap old

/-- The text that they become. -/
def after (ps : List Piece) : Text := ps.flatMap new

/-- The edits of pieces that start at a byte offset. -/
def editsFrom : Nat → List Piece → List TextEdit
  | _, [] => []
  | offset, p :: ps =>
    match p.new? with
    | none => editsFrom (offset + p.old.bytes) ps
    | some text => ⟨⟨offset, offset + p.old.bytes⟩, text⟩ :: editsFrom (offset + p.old.bytes) ps

/-- Whether only characters are replaced, not the gaps between them. -/
def Solid (ps : List Piece) : Prop := ∀ p ∈ ps, p.new?.isSome → p.old ≠ []

theorem Solid.tail {p : Piece} {ps : List Piece} (h : Solid (p :: ps)) : Solid ps :=
  fun q hq => h q (List.mem_cons_of_mem _ hq)

theorem le_start_of_mem_editsFrom {offset : Nat} {ps : List Piece} {e : TextEdit} (he : e ∈ editsFrom offset ps) :
    offset ≤ e.span.start := by
  induction ps generalizing offset with
  | nil => simp [editsFrom] at he
  | cons p ps ih =>
    simp only [editsFrom] at he
    split at he
    · exact Nat.le_trans (Nat.le_add_right _ _) (ih he)
    · rcases List.mem_cons.1 he with rfl | he
      · exact Nat.le_refl _
      · exact Nat.le_trans (Nat.le_add_right _ _) (ih he)

theorem start_lt_stop_of_mem_editsFrom {offset : Nat} {ps : List Piece} (hsolid : Solid ps) {e : TextEdit}
    (he : e ∈ editsFrom offset ps) : e.span.start < e.span.stop := by
  induction ps generalizing offset with
  | nil => simp [editsFrom] at he
  | cons p ps ih =>
    simp only [editsFrom] at he
    split at he
    · exact ih hsolid.tail he
    · rename_i text htext
      rcases List.mem_cons.1 he with rfl | he
      · have := Text.bytes_pos (hsolid p (by simp) (by simp [htext]))
        simpa using this
      · exact ih hsolid.tail he

theorem stop_le_of_mem_editsFrom {offset : Nat} {ps : List Piece} {e : TextEdit} (he : e ∈ editsFrom offset ps) :
    e.span.stop ≤ offset + (before ps).bytes := by
  induction ps generalizing offset with
  | nil => simp [editsFrom] at he
  | cons p ps ih =>
    have hbytes : (before (p :: ps)).bytes = p.old.bytes + (before ps).bytes := by simp [before]
    simp only [editsFrom] at he
    split at he
    · have := ih he
      omega
    · rcases List.mem_cons.1 he with rfl | he
      · simp only
        omega
      · have := ih he
        omega

theorem editsFrom_append (offset : Nat) (ps qs : List Piece) :
    editsFrom offset (ps ++ qs) = editsFrom offset ps ++ editsFrom (offset + (before ps).bytes) qs := by
  induction ps generalizing offset with
  | nil => simp [editsFrom, before]
  | cons p ps ih =>
    have hbytes : (before (p :: ps)).bytes = p.old.bytes + (before ps).bytes := by simp [before]
    simp only [List.cons_append, editsFrom, ih, hbytes, Nat.add_assoc]
    split <;> rfl

end Piece

/-! ## The edited text -/

namespace Text

/-- The one edit that covers an offset is found there. -/
theorem find?_covering {edits : List TextEdit} (offset : Nat) {e : TextEdit} (he : e ∈ edits)
    (hcovers : e.span.start ≤ offset ∧ offset < e.span.stop)
    (honly : ∀ f ∈ edits, f.span.start ≤ offset ∧ offset < f.span.stop → f = e) :
    (edits.find? fun e => e.span.start ≤ offset ∧ offset < e.span.stop) = some e := by
  cases hf : edits.find? fun e => decide (e.span.start ≤ offset ∧ offset < e.span.stop) with
  | none => exact absurd hcovers (by simpa using List.find?_eq_none.1 hf e he)
  | some f =>
    have hcover := List.find?_some hf
    rw [honly f (List.mem_of_find?_eq_some hf) (by simpa using hcover)]

theorem substituteFrom_kept {edits : List TextEdit} (offset : Nat) {u : Text} (v : Text)
    (hclear : ∀ e ∈ edits, e.span.stop ≤ offset ∨ offset + u.bytes ≤ e.span.start) :
    substituteFrom edits offset (u ++ v) = u ++ substituteFrom edits (offset + u.bytes) v := by
  induction u generalizing offset with
  | nil => rfl
  | cons c u ih =>
    have hpos := c.utf8Size_pos
    have hbytes : bytes (c :: u) = c.utf8Size + bytes u := rfl
    have hnone : (edits.find? fun e => decide (e.span.start ≤ offset ∧ offset < e.span.stop)) = none := by
      refine List.find?_eq_none.2 fun e he => ?_
      have := hclear e he
      simp only [decide_eq_true_eq]
      omega
    have hrest := ih (offset + c.utf8Size) fun e he => by
      have := hclear e he
      omega
    simp only [List.cons_append, substituteFrom, hnone, hrest, hbytes, Nat.add_assoc]

theorem substituteFrom_dropped {edits : List TextEdit} (offset : Nat) (u v : Text) {e : TextEdit}
    (he : e ∈ edits) (hstart : e.span.start < offset) (hstop : offset + u.bytes ≤ e.span.stop)
    (honly : ∀ f ∈ edits, f.span.start < e.span.stop → e.span.start < f.span.stop → f = e) :
    substituteFrom edits offset (u ++ v) = substituteFrom edits (offset + u.bytes) v := by
  induction u generalizing offset with
  | nil => rfl
  | cons c u ih =>
    have hpos := c.utf8Size_pos
    have hbytes : bytes (c :: u) = c.utf8Size + bytes u := rfl
    have hfound := find?_covering offset he (by omega) fun f hf hcovers =>
      honly f hf (by omega) (by omega)
    have hrest := ih (offset + c.utf8Size) (by omega) (by omega)
    have hne : ¬e.span.start = offset := by omega
    simp only [List.cons_append, substituteFrom, hfound, hne, if_false, hrest, hbytes, Nat.add_assoc]

/-- An edit puts its text in the place of what stands at its span, if no other edit reaches into it. -/
theorem substituteFrom_put {edits : List TextEdit} {offset : Nat} {old text : Text} (hne : old ≠ [])
    (he : ⟨⟨offset, offset + old.bytes⟩, text⟩ ∈ edits)
    (honly : ∀ f ∈ edits, f.span.start < offset + old.bytes → offset < f.span.stop →
      f = ⟨⟨offset, offset + old.bytes⟩, text⟩) (rest : Text) :
    substituteFrom edits offset (old ++ rest) = text ++ substituteFrom edits (offset + old.bytes) rest := by
  obtain ⟨c, u, hold⟩ := List.exists_cons_of_ne_nil hne
  have hpos := c.utf8Size_pos
  have hbytes : old.bytes = c.utf8Size + bytes u := by rw [hold]; rfl
  have hfound := find?_covering offset he (by simp only; omega) fun f hf hcovers =>
    honly f hf (by omega) (by omega)
  have hdrop := substituteFrom_dropped (offset + c.utf8Size) u rest he (by simp only; omega) (by simp only; omega) honly
  rw [Nat.add_assoc, ← hbytes] at hdrop
  rw [hold, List.cons_append, ← hold]
  simp only [substituteFrom, hfound, hdrop, if_true]

theorem substituteFrom_before {edits : List TextEdit} {offset : Nat} {ps : List Piece} (hsolid : Piece.Solid ps)
    (hpast : ∀ e ∈ edits, e.span.stop ≤ offset ∨ e ∈ Piece.editsFrom offset ps)
    (hthere : ∀ e ∈ Piece.editsFrom offset ps, e ∈ edits) :
    substituteFrom edits offset (Piece.before ps) = Piece.after ps := by
  induction ps generalizing offset with
  | nil => rfl
  | cons p ps ih =>
    have hbefore : Piece.before (p :: ps) = p.old ++ Piece.before ps := rfl
    have hafter : Piece.after (p :: ps) = p.new ++ Piece.after ps := rfl
    simp only [Piece.editsFrom] at hpast hthere
    rw [hbefore, hafter]
    cases hnew : p.new? with
    | none =>
      rw [hnew] at hpast hthere
      have hkeep : p.new = p.old := by simp [Piece.new, hnew]
      rw [hkeep, substituteFrom_kept, ih hsolid.tail ?_ hthere]
      · intro e he
        rcases hpast e he with h | h
        · exact .inl (by omega)
        · exact .inr h
      · intro e he
        rcases hpast e he with h | h
        · exact .inl h
        · exact .inr (Piece.le_start_of_mem_editsFrom h)
    | some text =>
      rw [hnew] at hpast hthere
      have honly : ∀ f ∈ edits, f.span.start < offset + p.old.bytes → offset < f.span.stop →
          f = ⟨⟨offset, offset + p.old.bytes⟩, text⟩ := by
        intro f hf hlt hgt
        rcases hpast f hf with h | h
        · omega
        · rcases List.mem_cons.1 h with rfl | h
          · rfl
          · have := Piece.le_start_of_mem_editsFrom h
            omega
      have hrest : substituteFrom edits (offset + p.old.bytes) (Piece.before ps) = Piece.after ps := by
        refine ih hsolid.tail (fun f hf => ?_) fun f hf => hthere f (List.mem_cons_of_mem _ hf)
        rcases hpast f hf with h | h
        · exact .inl (by omega)
        · rcases List.mem_cons.1 h with rfl | h
          · exact .inl (Nat.le_refl _)
          · exact .inr h
      have hput : p.new = text := by simp [Piece.new, hnew]
      rw [substituteFrom_put (hsolid p (by simp) (by simp [hnew])) (hthere _ List.mem_cons_self) honly, hrest, hput]

/-- The edits of the pieces of a text, in any order, put the replaced pieces in a row. -/
theorem substitute_eq {edits : List TextEdit} {ps : List Piece} (hsolid : Piece.Solid ps)
    (hperm : edits.Perm (Piece.editsFrom 0 ps)) : substitute edits (Piece.before ps) = Piece.after ps :=
  substituteFrom_before hsolid (fun _ he => .inr (hperm.subset he)) fun _ he => hperm.symm.subset he

/-! ## Where offsets go -/

theorem bytes_after_editsFrom (offset : Nat) (ps : List Piece) :
    (Piece.before ps).bytes + ((Piece.editsFrom offset ps).map fun e => e.newText.bytes).sum =
      (Piece.after ps).bytes + ((Piece.editsFrom offset ps).map fun e => e.span.stop - e.span.start).sum := by
  induction ps generalizing offset with
  | nil => rfl
  | cons p ps ih =>
    have hbefore : (Piece.before (p :: ps)).bytes = p.old.bytes + (Piece.before ps).bytes := by simp [Piece.before]
    have hafter : (Piece.after (p :: ps)).bytes = p.new.bytes + (Piece.after ps).bytes := by simp [Piece.after]
    have hrest := ih (offset + p.old.bytes)
    rw [hbefore, hafter]
    simp only [Piece.editsFrom]
    cases hnew : p.new? with
    | none =>
      have hkeep : p.new = p.old := by simp [Piece.new, hnew]
      simp only [hkeep]
      omega
    | some text =>
      have hput : p.new = text := by simp [Piece.new, hnew]
      simp only [List.map_cons, List.sum_cons, hput]
      omega

/-- What stands between two pieces goes behind all that the pieces before it become. -/
theorem shift_eq {edits : List TextEdit} {ps qs : List Piece} (hsolid : Piece.Solid (ps ++ qs))
    (hperm : edits.Perm (Piece.editsFrom 0 (ps ++ qs))) :
    shift edits (Piece.before ps).bytes = (Piece.after ps).bytes := by
  have hfilter : (edits.filter fun e => e.span.stop ≤ (Piece.before ps).bytes).Perm (Piece.editsFrom 0 ps) := by
    refine (hperm.filter _).trans (List.Perm.of_eq ?_)
    rw [Piece.editsFrom_append, List.filter_append]
    have hfirst : ((Piece.editsFrom 0 ps).filter fun e => e.span.stop ≤ (Piece.before ps).bytes) =
        Piece.editsFrom 0 ps := by
      refine List.filter_eq_self.2 fun e he => ?_
      have := Piece.stop_le_of_mem_editsFrom he
      simpa using this
    have hlater : ((Piece.editsFrom (0 + (Piece.before ps).bytes) qs).filter
        fun e => e.span.stop ≤ (Piece.before ps).bytes) = [] := by
      refine List.filter_eq_nil_iff.2 fun e he => ?_
      have hstart := Piece.le_start_of_mem_editsFrom he
      have hlt := Piece.start_lt_stop_of_mem_editsFrom
        (fun p hp => hsolid p (List.mem_append_right _ hp)) he
      simp only [decide_eq_true_eq]
      omega
    rw [hfirst, hlater, List.append_nil]
  have hnew := (hfilter.map fun e => e.newText.bytes).sum_nat
  have hold := (hfilter.map fun e => e.span.stop - e.span.start).sum_nat
  have hsum := bytes_after_editsFrom 0 ps
  simp only [shift, hnew, hold]
  omega

end Text
end GibianeEditor
