/-
From where a variable is found. A cursor that touches a recorded span has a position that leads back
to it, and the word there is what stands at the span with the end of another word in front of it, if
one ends right before the span. So hover, definition, references and rename find the variable from
there exactly when none does (`finds_iff_detached`).
-/
import GibianeEditor.Proofs.Session.Reply
import GibianeEditor.Proofs.Session.Sync
import GibianeEditor.Proofs.Source.Word
import GibianeEditor.Proofs.Symbol.Query

namespace GibianeEditor

open Protocol (Message Place)
open Source (Declaration scan)

/-- The letters, digits and underscores that end right before a span. -/
def Text.front (t : Text) (span : Span) : Text := Text.wordEnd (t.upTo Char.utf8Size span.start)

/-- Whether no letter, digit or underscore stands right before a span. -/
def Text.Detached (t : Text) (span : Span) : Prop :=
  ∀ c ∈ (t.upTo Char.utf8Size span.start).getLast?, isWordChar c = false

theorem Text.detached_iff (t : Text) (span : Span) : t.Detached span ↔ t.front span = [] :=
  (Text.wordEnd_eq_nil_iff _).symm

instance (t : Text) (span : Span) : Decidable (t.Detached span) := decidable_of_iff _ (t.detached_iff span).symm

namespace Session

variable {t : Text} {d : Declaration}

/-- The range of a declaration tells its name. -/
theorem name_eq_of_rangeOf_eq {e : Declaration} (hd : d ∈ scan t) (he : e ∈ scan t)
    (hrange : t.rangeOf d.span = t.rangeOf e.span) : d.name = e.name := by
  obtain ⟨_, word, _, hword, hname⟩ := Source.exists_wordAt_of_mem_spans hd List.mem_cons_self
  obtain ⟨_, other, _, hother, hothername⟩ := Source.exists_wordAt_of_mem_spans he List.mem_cons_self
  have hslice := hword.slice?
  rw [hword.rangeOf_inj hother hrange, hother.slice?, Option.some.injEq] at hslice
  rw [← hname, ← hothername, hslice]

/-- The word at a place from which a variable is found spells its name. -/
theorem Agrees.name_of_finds {s : Session} (h : s.Agrees) {place : Place} {document : Document} {word : Text}
    {found span : Span} (hword : s.wordAt? place = some (document, word, found)) (hd : d ∈ scan document.text)
    (hfinds : s.Finds place document.text span d) : Name.of word = d.name := by
  -- A rename tells the variable, since its edits are placed where the variable is.
  obtain ⟨document', word', found', hword', _, e, he, hname, hedits⟩ := h.exists_of_rename (hfinds.rename [])
  rw [hword, Option.some.injEq] at hword'
  obtain ⟨rfl, rfl, rfl⟩ : document = document' ∧ word = word' ∧ found = found' := by simpa using hword'
  have hrange : document.text.rangeOf d.span = document.text.rangeOf e.span := by
    have hhead := congrArg (fun edits => edits.head?.map Protocol.RangeEdit.range) hedits
    simpa using hhead
  rw [← hname, name_eq_of_rangeOf_eq hd he hrange]

/-- **A recorded place leads to its variable exactly when no word runs into it.** A cursor that touches
a recorded span has a position that leads back to it. The word there is what stands at the span, with
what ends right before it, so it is the span's exactly when nothing does; and in no other case do the
questions about the place find the variable, in whatever server has the text open. -/
theorem finds_iff_detached (hd : d ∈ scan t) {span : Span} (hspan : span ∈ d.span :: d.uses) {offset : Nat}
    (hboundary : t.Boundary offset) (hstart : span.start ≤ offset) (hstop : offset ≤ span.stop) :
    t.offsetAt? (t.positionAt offset) = some offset ∧
    (∃ word, t.slice? span = some word ∧ Name.of word = d.name ∧
      t.wordAt? offset = some (t.front span ++ word, ⟨span.start - Text.bytes (t.front span), span.stop⟩) ∧
      (t.wordAt? offset = some (word, span) ↔ t.Detached span)) ∧
    ∀ (stage : Stage) (ms : List Message) (place : Place) (path : String),
      let s := (Server.receiveAll ⟨stage, .empty⟩ ms).1.session
      s.documents.find? place.uri.text = some ⟨t, path⟩ → t.offsetAt? place.position = some offset →
        (s.Finds place t span d ↔ t.Detached span) := by
  obtain ⟨before, word, after, h, hname⟩ := Source.exists_wordAt_of_mem_spans hd hspan
  have hfound := h.wordAt?_eq hboundary hstart hstop
  have hfront : t.front span = before.wordEnd := by rw [Text.front, h.upTo_start]
  have hdetached : t.Detached span ↔ before.wordEnd = [] := by rw [Text.detached_iff, hfront]
  refine ⟨h.offsetAt?_positionAt hboundary hstart hstop, ⟨word, h.slice?, hname, ?_, ?_⟩, ?_⟩
  · rwa [hfront]
  · rw [hdetached, hfound]
    constructor
    · intro hsame
      simpa using congrArg (Option.map Prod.fst) hsame
    · intro hnil
      rw [hnil]
      rfl
  · intro stage ms place path s hfind hoffset
    have hagrees : s.Agrees := Server.agrees_receiveAll stage ms
    have hword := wordAt?_eq_some_iff.2 ⟨offset, hfind, hoffset, hfound⟩
    rw [hdetached]
    constructor
    · intro hfinds
      rw [← Name.of_append_eq_of_iff before.wordEnd word, hname]
      exact hagrees.name_of_finds hword hd hfinds
    · intro hnil
      rw [hnil] at hword
      exact hagrees.finds hword hd hname

/-- Of the two places of `_B` one stands behind a semicolon and one behind the number `2.A`. -/
theorem finds_at_line_but_not_behind_number :
    let uri : Uri := ⟨"file:///a", "/a"⟩
    let t := "A_B=1;_B=2.A_B;".toList
    let d : Declaration := ⟨Name.of "_B".toList, [], ⟨6, 8⟩, [⟨12, 14⟩]⟩
    let s := (Server.receiveAll .ready [.notification (Protocol.opening uri t)]).1.session
    s.Finds ⟨uri, ⟨0, 7⟩⟩ t ⟨6, 8⟩ d ∧ ¬s.Finds ⟨uri, ⟨0, 13⟩⟩ t ⟨12, 14⟩ d := by
  intro uri t d s
  have hd : d ∈ scan t := by decide +kernel
  have hfind : s.documents.find? uri.text = some ⟨t, "/a"⟩ := by decide +kernel
  obtain ⟨_, _, hfinds⟩ :=
    @finds_iff_detached t d hd ⟨6, 8⟩ (by simp [d]) 7 (by decide +kernel) (by decide) (by decide)
  obtain ⟨_, _, hmisses⟩ :=
    @finds_iff_detached t d hd ⟨12, 14⟩ (by simp [d]) 13 (by decide +kernel) (by decide) (by decide)
  exact ⟨(hfinds .serving _ ⟨uri, ⟨0, 7⟩⟩ "/a" hfind (by decide +kernel)).2 (by decide +kernel),
    fun h => absurd ((hmisses .serving _ ⟨uri, ⟨0, 13⟩⟩ "/a" hfind (by decide +kernel)).1 h) (by decide +kernel)⟩

/-- The declaration of `_A` in `1_A = 1;` is no word: the one there takes in the number, and a rename
asked for in it gives nothing. -/
theorem wordAt?_behind_number :
    let uri : Uri := ⟨"file:///a", "/a"⟩
    let t := "1_A = 1;".toList
    let s := (Server.receiveAll .ready [.notification (Protocol.opening uri t)]).1.session
    scan t = [⟨Name.of "_A".toList, [], ⟨1, 3⟩, []⟩] ∧ Text.slice? t ⟨1, 3⟩ = some "_A".toList ∧
      Text.wordAt? t 1 = some ("1_A".toList, ⟨0, 3⟩) ∧
      s.textOf uri = some t ∧ (s.reply (.rename ⟨uri, ⟨0, 1⟩⟩ "_B".toList)).1 = .nothing := by
  decide +kernel

end Session
end GibianeEditor
