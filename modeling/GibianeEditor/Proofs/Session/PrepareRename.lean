/-
What is offered for a rename and what a rename does. Both questions are answered from the variable that
the word at the place spells, so either both have an answer or neither has (`Agrees.rename_cases`). The
word is offered wherever it stands, and rewritten where it is an identifier of the code: one in a
comment, a string or a number only tells the variable (`prepareRename_agrees_with_rename`).
-/
import GibianeEditor.Proofs.Session.Reply
import GibianeEditor.Proofs.Source.Word
import GibianeEditor.Proofs.Text.LineEnding
import GibianeEditor.Proofs.Text.Offset

namespace GibianeEditor

open Protocol (Message Place RangeEdit)
open Source (Declaration identifiers scan)

namespace Session

/-- The word at a place stands in the document. -/
theorem exists_wordAt_of_wordAt? {s : Session} {place : Place} {document : Document} {word : Text} {span : Span}
    (h : s.wordAt? place = some (document, word, span)) :
    ∃ before after, document.text.WordAt span before word after := by
  obtain ⟨offset, _, hoffset, hword⟩ := wordAt?_eq_some_iff.1 h
  obtain ⟨u, v, htext, rfl, _⟩ := Text.cut_of_offsetAt? hoffset
  rw [htext] at hword ⊢
  exact Text.exists_wordAt_of_wordAt? hword

/-- Where a word spells a declared name, the word is offered and the places of the name are rewritten;
elsewhere nothing is, whatever the new name. -/
theorem Agrees.rename_cases {s : Session} (h : s.Agrees) (place : Place) :
    (∃ document word span, s.wordAt? place = some (document, word, span) ∧
      ∃ d ∈ scan document.text, Name.of word = d.name ∧
        (s.reply (.prepareRename place)).1 = .renameRange (document.text.rangeOf span) d.name ∧
        ∀ newName, (s.reply (.rename place newName)).1 =
          .edits place.uri ((d.span :: d.uses).map fun span => ⟨document.text.rangeOf span, newName⟩)) ∨
    (s.reply (.prepareRename place)).1 = .nothing ∧ ∀ newName, (s.reply (.rename place newName)).1 = .nothing := by
  cases hword : s.wordAt? place with
  | none => exact .inr ⟨by simp [reply, aboutWord, hword], fun newName => by simp [reply, aboutWord, hword]⟩
  | some found =>
    obtain ⟨document, word, span⟩ := found
    cases hvariable : document.table.variableOf word with
    | none =>
      refine .inr ⟨?_, fun newName => ?_⟩
      · rw [reply, h.aboutWord_eq hword, SymbolTable.prepareRename, hvariable]
        rfl
      · rw [reply, h.aboutWord_eq hword, SymbolTable.rename, hvariable]
        rfl
    | some v =>
      obtain ⟨d, hd, hname, _⟩ := SymbolTable.exists_of_variableOf_ofText hvariable
      refine .inl ⟨document, word, span, rfl, d, hd, hname.symm, ?_, (h.finds hword hd hname.symm).rename⟩
      rw [reply, h.aboutWord_eq hword, Document.table, SymbolTable.prepareRename_ofText hd _ hname.symm]

/-- **What is offered for a rename and what a rename does agree.** A range is offered just when a
rename gives edits, whatever the new name. The name that is offered is the word at the place in upper
case, and the range is that of the word. The word is itself rewritten if it is an identifier of the code;
it is not if no identifier reaches into it, as in a comment, a string or a number. -/
theorem prepareRename_agrees_with_rename (stage : Stage) (ms : List Message) (place : Place) :
    let s := (Server.receiveAll ⟨stage, .empty⟩ ms).1.session
    (∀ newName, (∃ range name, (s.reply (.prepareRename place)).1 = .renameRange range name) ↔
      ∃ uri edits, (s.reply (.rename place newName)).1 = .edits uri edits) ∧
    ∀ range name, (s.reply (.prepareRename place)).1 = .renameRange range name →
      ∃ document word span, s.wordAt? place = some (document, word, span) ∧
        name.letters = word.upper ∧ range = document.text.rangeOf span ∧
        ∀ newName uri edits, (s.reply (.rename place newName)).1 = .edits uri edits →
          (span ∈ identifiers document.text → range ∈ edits.map RangeEdit.range) ∧
          ((∀ other ∈ identifiers document.text, other.Apart span) → range ∉ edits.map RangeEdit.range) := by
  intro s
  have hagrees : s.Agrees := Server.agrees_receiveAll stage ms
  rcases hagrees.rename_cases place with ⟨document, word, span, hword, d, hd, hname, hoffers, hedits⟩ | ⟨hnone, hnothing⟩
  · refine ⟨fun newName => ⟨fun _ => ⟨_, _, hedits newName⟩, fun _ => ⟨_, _, hoffers⟩⟩, ?_⟩
    intro range name hrange
    rw [hoffers, Protocol.Answer.renameRange.injEq] at hrange
    obtain ⟨rfl, rfl⟩ := hrange
    refine ⟨document, word, span, hword, by rw [← hname, Name.letters_of], rfl, ?_⟩
    intro newName uri edits hrename
    rw [hedits, Protocol.Answer.edits.injEq] at hrename
    obtain ⟨_, rfl⟩ := hrename
    obtain ⟨before, after, hat⟩ := exists_wordAt_of_wordAt? hword
    have hranges : ((d.span :: d.uses).map fun span => (⟨document.text.rangeOf span, newName⟩ : RangeEdit)).map
        RangeEdit.range = (d.span :: d.uses).map document.text.rangeOf := by
      rw [List.map_map]
      rfl
    rw [hranges]
    constructor
    · intro hidentifier
      exact List.mem_map_of_mem ((Source.mem_spans_iff hat hd hname).2 hidentifier)
    · intro hapart hmem
      obtain ⟨place, hplace, hrange⟩ := List.mem_map.1 hmem
      obtain ⟨_, _, _, hrecorded, _⟩ := Source.exists_wordAt_of_mem_spans hd hplace
      -- Two words of one range are the same, and a word is not apart from itself.
      obtain rfl := hrecorded.rangeOf_inj hat hrange
      have hlt := hat.start_lt_stop
      have hself := hapart place ((Source.mem_spans_iff hat hd hname).1 hplace)
      unfold Span.Apart at hself
      omega
  · refine ⟨fun newName => ?_, fun range name hrange => ?_⟩
    · rw [hnone, hnothing]
      simp
    · rw [hnone] at hrange
      cases hrange

/-- The second `A` of the code is offered and rewritten, and so is its declaration. -/
theorem prepareRename_agrees_at_use :
    let uri : Uri := ⟨"file:///a", "/a"⟩
    let s := (Server.receiveAll .ready [.notification (Protocol.opening uri "a = 1;\n* A\nB = 2.A + A;".toList)]).1.session
    let edits : List RangeEdit := [⟨⟨⟨0, 0⟩, ⟨0, 1⟩⟩, "C".toList⟩, ⟨⟨⟨2, 10⟩, ⟨2, 11⟩⟩, "C".toList⟩]
    (s.reply (.prepareRename ⟨uri, ⟨2, 11⟩⟩)).1 = .renameRange ⟨⟨2, 10⟩, ⟨2, 11⟩⟩ (Name.of "A".toList) ∧
      (s.reply (.rename ⟨uri, ⟨2, 11⟩⟩ "C".toList)).1 = .edits uri edits ∧
      (⟨⟨2, 10⟩, ⟨2, 11⟩⟩ : Range) ∈ edits.map RangeEdit.range := by
  intro uri s edits
  have hoffers : (s.reply (.prepareRename ⟨uri, ⟨2, 11⟩⟩)).1 = .renameRange ⟨⟨2, 10⟩, ⟨2, 11⟩⟩ (Name.of "A".toList) := by
    decide +kernel
  have hrename : (s.reply (.rename ⟨uri, ⟨2, 11⟩⟩ "C".toList)).1 = .edits uri edits := by decide +kernel
  obtain ⟨_, hagree⟩ := prepareRename_agrees_with_rename .serving
    [.notification (Protocol.opening uri "a = 1;\n* A\nB = 2.A + A;".toList)] ⟨uri, ⟨2, 11⟩⟩
  obtain ⟨document, word, span, hword, _, _, hedits⟩ := hagree _ _ hoffers
  refine ⟨hoffers, hrename, (hedits _ _ _ hrename).1 ?_⟩
  have hfound : s.wordAt? ⟨uri, ⟨2, 11⟩⟩ =
      some (⟨"a = 1;\n* A\nB = 2.A + A;".toList, "/a"⟩, "A".toList, ⟨21, 22⟩) := by decide +kernel
  have hsame := hword.symm.trans hfound
  rw [Option.some.injEq, Prod.mk.injEq, Prod.mk.injEq] at hsame
  obtain ⟨rfl, rfl, rfl⟩ := hsame
  decide +kernel

/-- The `A` of a comment is offered for a rename, which rewrites the one of the code and leaves the
comment as it is. -/
theorem prepareRename_offers_word_of_comment :
    let uri : Uri := ⟨"file:///a", "/a"⟩
    let s := (Server.receiveAll .ready [.notification (Protocol.opening uri "A = 1;\n* A\n".toList)]).1.session
    let offered : Range := ⟨⟨1, 2⟩, ⟨1, 3⟩⟩
    let edits : List RangeEdit := [⟨⟨⟨0, 0⟩, ⟨0, 1⟩⟩, "B".toList⟩]
    (s.reply (.prepareRename ⟨uri, ⟨1, 2⟩⟩)).1 = .renameRange offered (Name.of "A".toList) ∧
      (s.reply (.rename ⟨uri, ⟨1, 2⟩⟩ "B".toList)).1 = .edits uri edits ∧ offered ∉ edits.map RangeEdit.range := by
  decide +kernel

end Session
end GibianeEditor
