/-
The edits of a rename, sent back to the session as changes. All ranges are told in the text that was
asked about. Made from the last to the first they still fit, since a change leaves what stands before
it (`apply?_placed`), so together they make the text with all edits made at once
(`applyChanges_editsFrom`, `rename_edits_come_back`).
-/
import Mathlib.Data.List.Induction
import GibianeEditor.Proofs.Session.Reply
import GibianeEditor.Proofs.Session.Sync
import GibianeEditor.Proofs.Source.Word
import GibianeEditor.Proofs.Symbol.Rename

namespace GibianeEditor

open Protocol (Message Place RangeEdit)
open Source (Declaration scan named pieces)

/-- A span of a text with new text for it, as it is told. -/
def TextEdit.placed (t : Text) (e : TextEdit) : RangeEdit := ⟨t.rangeOf e.span, e.newText⟩

/-- The change that makes an edit. -/
def Protocol.RangeEdit.change (e : RangeEdit) : Change := ⟨some e.range, e.newText⟩

/-- Whether characters that end no line are all that is replaced. -/
def Piece.Unbroken (ps : List Piece) : Prop :=
  ∀ p ∈ ps, p.new?.isSome → p.old ≠ [] ∧ ∀ c ∈ p.old, Text.isLineBreak c = false

/-- The range of a word in one text is that of the word in every text that begins as that one. -/
theorem TextEdit.apply?_placed {x : Text} (hne : x ≠ []) (hx : ∀ c ∈ x, Text.isLineBreak c = false)
    (u v w inserted : Text) :
    Change.apply? (placed (u ++ x ++ v) ⟨⟨u.bytes, u.bytes + x.bytes⟩, inserted⟩).change (u ++ x ++ w) =
      some (u ++ inserted ++ w) := by
  have hstart : Text.offsetAt? (u ++ x ++ w) u.positionBehind = some u.bytes := by
    rw [List.append_assoc, Text.offsetAt?_positionBehind (Text.cutsBreak_of_unbroken_right hne hx u w)]
  have hstop : Text.offsetAt? (u ++ x ++ w) (Text.positionBehind (u ++ x)) = some (Text.bytes (u ++ x)) :=
    Text.offsetAt?_positionBehind (Text.cutsBreak_of_unbroken_left hne hx u w)
  have hmax : max u.bytes (Text.bytes (u ++ x)) = Text.bytes (u ++ x) := by
    simp only [Text.bytes, Text.extent_append]
    omega
  simp only [placed, RangeEdit.change, Text.rangeOf_append hne hx, Change.apply?, hstart, hstop, hmax, Text.replace]
  rw [Text.past_bytes_append, List.append_assoc u x w, Text.upTo_bytes_append]

namespace Session

theorem applyChanges_cons (uri : Uri) {change : Change} {t u : Text} (h : change.apply? t = some u)
    (rest : List Change) : applyChanges uri t (change :: rest) = applyChanges uri u rest := by
  simp only [applyChanges, h]

/-- The edits of pieces, made from the last to the first, put the replaced pieces in a row. -/
theorem applyChanges_editsFrom (uri : Uri) {ps : List Piece} (h : Piece.Unbroken ps) (v w : Text) :
    applyChanges uri (Piece.before ps ++ w)
        ((Piece.editsFrom 0 ps).reverse.map fun e => (e.placed (Piece.before ps ++ v)).change) =
      (Piece.after ps ++ w, []) := by
  induction ps using List.reverseRecOn generalizing v w with
  | nil => rfl
  | append_singleton ps p ih =>
    have ih := ih fun q hq => h q (List.mem_append_left _ hq)
    have hbefore : Piece.before (ps ++ [p]) = Piece.before ps ++ p.old := by simp [Piece.before]
    have hafter : Piece.after (ps ++ [p]) = Piece.after ps ++ p.new := by simp [Piece.after]
    rw [Piece.editsFrom_append, Nat.zero_add, List.reverse_append, List.map_append, hbefore, hafter]
    cases hnew : p.new? with
    | none =>
      have hkeep : p.new = p.old := by simp [Piece.new, hnew]
      have hedits : Piece.editsFrom (Piece.before ps).bytes [p] = [] := by simp [Piece.editsFrom, hnew]
      rw [hedits, hkeep, List.append_assoc, List.append_assoc, List.append_assoc]
      exact ih (p.old ++ v) (p.old ++ w)
    | some text =>
      have hput : p.new = text := by simp [Piece.new, hnew]
      obtain ⟨hne, hunbroken⟩ := h p (by simp) (by simp [hnew])
      have hedits : Piece.editsFrom (Piece.before ps).bytes [p] =
          [⟨⟨(Piece.before ps).bytes, (Piece.before ps).bytes + p.old.bytes⟩, text⟩] := by simp [Piece.editsFrom, hnew]
      have happly := TextEdit.apply?_placed hne hunbroken (Piece.before ps) v w text
      rw [hedits, hput, List.reverse_singleton, List.map_singleton, List.singleton_append, applyChanges_cons uri happly]
      -- What the last piece becomes is behind all changes that remain.
      rw [List.append_assoc, List.append_assoc, List.append_assoc]
      exact ih (p.old ++ v) (text ++ w)

end Session

/-! ## The edits of a rename -/

/-- There is one way to go through edits at different positions from the last to the first. -/
theorem Protocol.RangeEdit.eq_reverse {edits sorted : List RangeEdit}
    (h : edits.Pairwise fun a b => a.range.start.Before b.range.start) (hperm : sorted.Perm edits)
    (hsorted : sorted.Pairwise fun a b => ¬a.range.start.Before b.range.start) : sorted = edits.reverse := by
  have hreverse : edits.reverse.Pairwise fun a b => ¬a.range.start.Before b.range.start := by
    rw [List.pairwise_reverse]
    exact h.imp fun hab hba => (hab.trans hba).ne rfl
  refine (hperm.trans edits.reverse_perm.symm).eq_of_pairwise (fun a b ha hb hab hba => ?_) hsorted hreverse
  by_contra hne
  let Apart (a b : RangeEdit) : Prop := a.range.start.Before b.range.start ∨ b.range.start.Before a.range.start
  have hsymm : Std.Symm Apart := ⟨fun _ _ => Or.symm⟩
  have hapart : edits.Pairwise Apart := h.imp .inl
  rcases hapart.forall (hperm.subset ha) (List.mem_reverse.1 hb) hne with hbefore | hbefore
  · exact hab hbefore
  · exact hba hbefore

namespace Source

theorem unbroken_pieces (old : Name) (new t : Text) : Piece.Unbroken (pieces old new t) := by
  intro p hp hnew
  refine ⟨solid_pieces t p hp hnew, ?_⟩
  obtain ⟨l, hl, rfl⟩ := List.mem_map.1 hp
  by_cases hold : l.kind = .name ∧ Name.of l.text = old
  · obtain ⟨before, after, hsplit⟩ := List.append_of_mem hl
    exact Text.unbroken_of_isWordChar (name_ends (broken_rawLines t) hsplit hold.1).1
  · simp [Lexeme.piece, hold] at hnew

end Source

namespace Session

/-- The ranges of the edits of a variable, in document order. -/
theorem perm_placed {t : Text} {d : Declaration} (hd : d ∈ scan t) (newName : Text) :
    ((d.span :: d.uses).map fun span => TextEdit.placed t ⟨span, newName⟩).Perm
      ((Piece.editsFrom 0 (pieces d.name newName t)).map (TextEdit.placed t)) := by
  rw [Source.editsFrom_pieces, List.map_map]
  exact (Source.perm_named hd).map _

theorem before_placed (name : Name) (newName t : Text) :
    ((Piece.editsFrom 0 (pieces name newName t)).map (TextEdit.placed t)).Pairwise
      fun a b => a.range.start.Before b.range.start := by
  rw [Source.editsFrom_pieces, List.map_map, List.pairwise_map]
  refine Text.pairwise_start_before_start (fun span hspan => ?_) ?_
  · obtain ⟨s, hs, rfl⟩ := List.mem_map.1 hspan
    obtain ⟨before, word, after, hword, _⟩ := Source.exists_wordAt_of_mem_sites (List.mem_filter.1 hs).1
    exact ⟨before, word, after, hword⟩
  · rw [named, List.pairwise_map]
    exact (Source.pairwise_sites t).sublist List.filter_sublist

theorem note_changed {s : Session} {uri : Uri} {document : Document}
    (hfind : s.documents.find? uri.text = some document) {changes : List Change} {text : Text}
    (happly : applyChanges uri document.text changes = (text, [])) :
    (s.note (.changed uri changes)).1.textOf uri = some text ∧
      (s.note (.changed uri changes)).2 = [.indexed uri (.ofText text document.path)] := by
  simp [note, hfind, happly, store, textOf]

/-- **The edits of a rename come back as they are meant.** Where a server answers a rename with edits,
they are those of a declaration that the word at the place names. Sent back in one notice, from the
last position to the first, they are all accepted and leave the text with the new name, whatever it
is, at the spans of the declaration. -/
theorem rename_edits_come_back (stage : Stage) (ms : List Message) {place : Place} {newName : Text} {uri : Uri}
    {edits : List RangeEdit}
    (hrename : ((Server.receiveAll ⟨stage, .empty⟩ ms).1.session.reply (.rename place newName)).1 = .edits uri edits) :
    let s := (Server.receiveAll ⟨stage, .empty⟩ ms).1.session
    ∃ document word span, s.wordAt? place = some (document, word, span) ∧ uri = place.uri ∧
      ∃ d ∈ scan document.text, d.name = Name.of word ∧
        edits = ((d.span :: d.uses).map fun span => TextEdit.placed document.text ⟨span, newName⟩) ∧
        ∀ sorted : List RangeEdit, sorted.Perm edits →
          sorted.Pairwise (fun a b => ¬a.range.start.Before b.range.start) →
            let renamed := document.text.substitute ((d.span :: d.uses).map fun span => ⟨span, newName⟩)
            let (after, events) := s.note (.changed uri (sorted.map RangeEdit.change))
            after.textOf uri = some renamed ∧ events = [.indexed uri (.ofText renamed document.path)] := by
  intro s
  have hagrees : s.Agrees := Server.agrees_receiveAll stage ms
  obtain ⟨document, word, span, hword, rfl, d, hd, hname, rfl⟩ := hagrees.exists_of_rename hrename
  refine ⟨document, word, span, hword, rfl, d, hd, hname, rfl, fun sorted hperm hsorted => ?_⟩
  obtain ⟨_, hfind, _, _⟩ := wordAt?_eq_some_iff.1 hword
  have horder := RangeEdit.eq_reverse (before_placed d.name newName document.text)
    (hperm.trans (perm_placed hd newName)) hsorted
  have hrenamed : document.text.substitute ((d.span :: d.uses).map fun span => ⟨span, newName⟩) =
      Piece.after (pieces d.name newName document.text) := by
    have h := Text.substitute_eq (Source.solid_pieces document.text)
      (Source.perm_editsFrom_pieces hd document.path newName)
    rwa [Source.before_pieces] at h
  have happly := applyChanges_editsFrom place.uri (Source.unbroken_pieces d.name newName document.text) [] []
  rw [List.append_nil, List.append_nil, Source.before_pieces, ← hrenamed] at happly
  refine note_changed hfind ?_
  rw [horder, ← List.map_reverse, List.map_map]
  exact happly

/-- A new name that ends in a carriage return joins the line feed behind the last place. -/
theorem rename_edits_with_carriage_return :
    let uri : Uri := ⟨"file:///a", "/a"⟩
    let s := (Server.receiveAll .ready [.notification (Protocol.opening uri "A=1;MESS A A\nA;".toList)]).1.session
    let edits : List RangeEdit :=
      [⟨⟨⟨0, 0⟩, ⟨0, 1⟩⟩, "x\r".toList⟩, ⟨⟨⟨0, 9⟩, ⟨0, 10⟩⟩, "x\r".toList⟩, ⟨⟨⟨0, 11⟩, ⟨0, 12⟩⟩, "x\r".toList⟩,
        ⟨⟨⟨1, 0⟩, ⟨1, 1⟩⟩, "x\r".toList⟩]
    (s.reply (.rename ⟨uri, ⟨0, 10⟩⟩ "x\r".toList)).1 = .edits uri edits ∧
      (s.note (.changed uri (edits.reverse.map RangeEdit.change))).1.textOf uri =
        some "x\r=1;MESS x\r x\r\nx\r;".toList := by
  intro uri s edits
  have hrename : (s.reply (.rename ⟨uri, ⟨0, 10⟩⟩ "x\r".toList)).1 = .edits uri edits := by decide +kernel
  have hscan : scan "A=1;MESS A A\nA;".toList = [⟨Name.of "A".toList, [], ⟨0, 1⟩, [⟨9, 10⟩, ⟨11, 12⟩, ⟨13, 14⟩]⟩] := by
    decide +kernel
  obtain ⟨document, word, span, hword, _, d, hd, _, _, hback⟩ := rename_edits_come_back .serving _ hrename
  have hdocument : (s.wordAt? ⟨uri, ⟨0, 10⟩⟩).map (fun found => found.1.text) = some "A=1;MESS A A\nA;".toList := by
    decide +kernel
  change s.wordAt? _ = _ at hword
  rw [hword, Option.map_some, Option.some.injEq] at hdocument
  rw [hdocument, hscan, List.mem_singleton] at hd
  obtain ⟨htext, _⟩ := hback edits.reverse edits.reverse_perm (by decide +kernel)
  refine ⟨hrename, htext.trans ?_⟩
  rw [hdocument, hd]
  decide +kernel

end Session
end GibianeEditor
