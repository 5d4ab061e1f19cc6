/-
What an editor is told to highlight. The recorded spans of a document follow one another without
meeting, each on one line (`pairwise_recorded`), so none of them is left out as one that crosses lines
or as a repetition, and reading the tokens back gives their ranges (`highlights_are_recorded_spans`).
-/
import GibianeEditor.Proofs.Session.Reply
import GibianeEditor.Proofs.Source.Word
import GibianeEditor.Proofs.Text.Highlight

namespace GibianeEditor

open Protocol (Message)
open Source (scan)

/-- The declarations and uses of a document, in document order. -/
def Source.recorded (t : Text) : List Span := ((scan t).flatMap fun d => d.span :: d.uses).mergeSort Span.before

/-- Whether a highlighted place is a span of a text: it has the range of the span and is as long as
what stands there. -/
def Highlight.Marks (t : Text) (h : Highlight) (span : Span) : Prop :=
  h.range = t.rangeOf span ∧ ∃ word, t.slice? span = some word ∧ h.length = word.units ∧ 0 < h.length

section

variable {t before word after : Text} {span : Span} (h : t.WordAt span before word after)
include h

theorem Text.WordAt.marks : (Highlight.ofRange (t.rangeOf span)).Marks t span := by
  have hpos := Text.units_pos h.nonempty
  rw [Highlight.Marks, h.rangeOf_eq]
  refine ⟨Highlight.range_ofRange _ _, word, h.slice?, ?_⟩
  simpa only [Highlight.ofRange, Nat.add_sub_cancel_left, true_and] using hpos

/-- A place that is told where a word ends or behind that comes behind the word's. -/
theorem Text.WordAt.precedes {range : Range}
    (hreaches : (t.rangeOf span).stop = range.start ∨ (t.rangeOf span).stop.Before range.start) :
    (Highlight.ofRange (t.rangeOf span)).Precedes (Highlight.ofRange range) := by
  rw [h.rangeOf_eq] at hreaches ⊢
  simp only [Highlight.Precedes, Highlight.ofRange, Nat.add_sub_cancel_left]
  rcases hreaches with heq | hline | ⟨hline, hlt⟩
  · rw [← heq]
    exact .inr ⟨rfl, Nat.le_refl _⟩
  · exact .inl hline
  · exact .inr ⟨hline, Nat.le_of_lt hlt⟩

end

open Source (recorded)

namespace Source

theorem perm_recorded (t : Text) : (recorded t).Perm ((scan t).flatMap fun d => d.span :: d.uses) :=
  List.mergeSort_perm _ _

theorem exists_wordAt_of_mem_recorded {t : Text} {span : Span} (h : span ∈ recorded t) :
    ∃ before word after, t.WordAt span before word after := by
  obtain ⟨d, hd, hspan⟩ := List.mem_flatMap.1 ((perm_recorded t).subset h)
  obtain ⟨before, word, after, hword, _⟩ := exists_wordAt_of_mem_spans hd hspan
  exact ⟨before, word, after, hword⟩

/-- Each recorded span ends before the next one starts. -/
theorem pairwise_recorded (t : Text) : (recorded t).Pairwise fun a b => a.stop ≤ b.start := by
  have hsorted : (recorded t).Pairwise fun a b => a.before b = true :=
    List.pairwise_mergeSort Span.before_trans Span.before_total _
  have hapart : (recorded t).Pairwise Span.Apart :=
    ((perm_recorded t).pairwise_iff fun {_ _} => Or.symm).2 (apart_spans_scan t)
  refine (hsorted.and hapart).imp_of_mem fun {a b} ha hb h => ?_
  obtain ⟨_, _, _, hword⟩ := exists_wordAt_of_mem_recorded ha
  obtain ⟨_, _, _, hother⟩ := exists_wordAt_of_mem_recorded hb
  have hlt := hword.start_lt_stop
  have hlt' := hother.start_lt_stop
  rcases h with ⟨hbefore, hle | hle⟩
  · exact hle
  · simp only [Span.before, Bool.or_eq_true, Bool.and_eq_true, decide_eq_true_eq, beq_iff_eq] at hbefore
    omega

theorem precedes_recorded (t : Text) : (recorded t).Pairwise Span.Precedes := by
  refine (pairwise_recorded t).imp_of_mem fun {a b} ha _ hle => ?_
  obtain ⟨_, _, _, hword⟩ := exists_wordAt_of_mem_recorded ha
  exact .of_stop_le hword.start_lt_stop hle

end Source

/-- The recorded spans are put in document order, in whatever order they come. -/
theorem HighlightToken.inOrder_eq {t : Text} {spans : List Span}
    (hperm : spans.Perm ((scan t).flatMap fun d => d.span :: d.uses)) : inOrder spans = recorded t :=
  inOrder_eq_of_mem_iff (Source.precedes_recorded t) fun _ => ((Source.perm_recorded t).trans hperm.symm).mem_iff

/-- Reading the tokens of the recorded spans, in whatever order they come, gives them back. -/
theorem HighlightToken.decode_encode {t : Text} {spans : List Span}
    (hperm : spans.Perm ((scan t).flatMap fun d => d.span :: d.uses)) :
    decode (encode t spans) = (recorded t).map fun span => Highlight.ofRange (t.rangeOf span) := by
  have hranges : inlineRanges t spans = (recorded t).map t.rangeOf := by
    rw [inlineRanges, inOrder_eq hperm, List.filter_eq_self]
    intro range hrange
    obtain ⟨span, hspan, rfl⟩ := List.mem_map.1 hrange
    obtain ⟨_, _, _, hword⟩ := Source.exists_wordAt_of_mem_recorded hspan
    simp [hword.rangeOf_eq]
  rw [decode_encode_eq, hranges, List.map_map]
  rfl

namespace Session

/-- **Highlighting loses and invents nothing.** What a client reads from the tokens of an open document
are the declarations and uses of its text, each once and in order; each is on one line and as long as
the name that stands there; and each ends before the next one starts. -/
theorem highlights_are_recorded_spans (stage : Stage) (ms : List Message) {uri : Uri} {document : Document}
    (hopen : (Server.receiveAll ⟨stage, .empty⟩ ms).1.session.documents.find? uri.text = some document) :
    ∃ tokens,
      ((Server.receiveAll ⟨stage, .empty⟩ ms).1.session.reply (.semanticTokens uri)).1 = .semanticTokens tokens ∧
      List.Forall₂ (Highlight.Marks document.text) (HighlightToken.decode tokens) (recorded document.text) ∧
      (HighlightToken.decode tokens).Pairwise Highlight.Precedes := by
  have hagrees := Server.agrees_receiveAll stage ms
  have hread := HighlightToken.decode_encode (SymbolTable.perm_highlights document.text document.path)
  refine ⟨HighlightToken.encode document.text document.table.highlights, ?_, ?_, ?_⟩
  · rw [reply, hagrees.aboutDocument_eq hopen]
  · rw [Document.table, hread, List.forall₂_map_left_iff, List.forall₂_same]
    intro span hspan
    obtain ⟨_, word, _, hword⟩ := Source.exists_wordAt_of_mem_recorded hspan
    exact hword.marks
  · rw [Document.table, hread, List.pairwise_map]
    refine (Text.pairwise_stop_reaches (fun _ => Source.exists_wordAt_of_mem_recorded)
      (Source.pairwise_recorded document.text)).imp_of_mem fun {a b} ha _ hab => ?_
    obtain ⟨_, word, _, hword⟩ := Source.exists_wordAt_of_mem_recorded ha
    exact hword.precedes hab

/-- A variable in place of an operator comes first in the table, and its places come in between. -/
theorem highlights_of_shadowed_operator :
    let uri : Uri := ⟨"file:///a", "/a"⟩
    let s := (Server.receiveAll .ready [.notification (Protocol.opening uri "B=1;\nSI=B;B=SI;".toList)]).1.session
    ∃ tokens, (s.reply (.semanticTokens uri)).1 = .semanticTokens tokens ∧
      (HighlightToken.decode tokens).map Highlight.range =
        [⟨⟨0, 0⟩, ⟨0, 1⟩⟩, ⟨⟨1, 0⟩, ⟨1, 2⟩⟩, ⟨⟨1, 3⟩, ⟨1, 4⟩⟩, ⟨⟨1, 5⟩, ⟨1, 6⟩⟩, ⟨⟨1, 7⟩, ⟨1, 9⟩⟩] := by
  intro uri s
  have hopen : s.documents.find? uri.text = some ⟨"B=1;\nSI=B;B=SI;".toList, "/a"⟩ := by decide +kernel
  obtain ⟨tokens, hreply, hmarks, _⟩ := highlights_are_recorded_spans .serving _ hopen
  refine ⟨tokens, hreply, ?_⟩
  have hranges : (HighlightToken.decode tokens).map Highlight.range =
      (recorded "B=1;\nSI=B;B=SI;".toList).map (Text.rangeOf "B=1;\nSI=B;B=SI;".toList) := by
    rw [← List.forall₂_eq_eq_eq, List.forall₂_map_left_iff, List.forall₂_map_right_iff]
    exact hmarks.imp fun _ _ h => h.1
  have hrecorded : recorded "B=1;\nSI=B;B=SI;".toList = [⟨0, 1⟩, ⟨5, 7⟩, ⟨8, 9⟩, ⟨10, 11⟩, ⟨12, 14⟩] :=
    Span.mergeSort_eq (by decide +kernel) (by simp [Span.Precedes, Span.before])
  rw [hranges, hrecorded]
  decide +kernel

end Session
end GibianeEditor
