/-
A client cannot tell whether the lines of a document end at line feeds or have carriage returns before
them. At each position is the same word (`wordAt?_crlf`), the table tells the same of it, and all places
that it tells have the same ranges (`rangeOf_crlf`); so every question has the same answer
(`reply_crlf`), and servers whose sessions answer alike send the same (`receiveAll_requests`).
-/
import GibianeEditor.Proofs.Session.Highlight
import GibianeEditor.Proofs.Session.Isolation
import GibianeEditor.Proofs.Source.LineEnding
import GibianeEditor.Proofs.Symbol.Place

namespace GibianeEditor

open Log (Event)
open Protocol (Answer Message Notice Place Query Request)
open Source (recorded scan)

/-! ## Ranges and highlighted places -/

/-- Every place of a variable has the same range. -/
theorem SymbolTable.rangeOf_crlf {t : Text} (h : '\r' ∉ t) {path : String} {span : Span}
    (hspan : (ofText t path).HasPlace span) : t.crlf.rangeOf (t.crlfSpan span) = t.rangeOf span := by
  obtain ⟨v, hv, hspan⟩ := hspan
  obtain ⟨d, hd, rfl⟩ := mem_declaredVariables_ofText_iff.1 hv
  obtain ⟨before, word, after, hword, _⟩ := Source.exists_wordAt_of_mem_spans hd hspan
  exact hword.rangeOf_crlf h

theorem Source.flatMap_spans_crlf (t : Text) :
    ((scan t.crlf).flatMap fun d => d.span :: d.uses) =
      ((scan t).flatMap fun d => d.span :: d.uses).map t.crlfSpan := by
  rw [scan_crlf, List.flatMap_map, List.map_flatMap]
  rfl

theorem Source.recorded_crlf (t : Text) : recorded t.crlf = (recorded t).map t.crlfSpan := by
  refine Span.mergeSort_eq ?_ ?_
  · rw [flatMap_spans_crlf]
    exact (perm_recorded t).symm.map _
  · rw [List.pairwise_map]
    refine (pairwise_recorded t).imp_of_mem ?_
    intro a b ha _ hle
    obtain ⟨_, _, _, hword⟩ := exists_wordAt_of_mem_recorded ha
    exact .of_stop_le hword.crlf.start_lt_stop (t.crlfOffset_le hle)

theorem HighlightToken.encode_crlf {t : Text} (h : '\r' ∉ t) {spans : List Span}
    (hperm : spans.Perm ((scan t).flatMap fun d => d.span :: d.uses)) :
    encode t.crlf (spans.map t.crlfSpan) = encode t spans := by
  have horder : inOrder (spans.map t.crlfSpan) = recorded t.crlf := by
    refine inOrder_eq ?_
    rw [Source.flatMap_spans_crlf]
    exact hperm.map _
  have hranges : ((recorded t).map t.crlfSpan).map t.crlf.rangeOf = (recorded t).map t.rangeOf := by
    rw [List.map_map]
    refine List.map_congr_left fun span hspan => ?_
    obtain ⟨_, _, _, hword⟩ := Source.exists_wordAt_of_mem_recorded hspan
    exact hword.rangeOf_crlf h
  rw [encode, horder, Source.recorded_crlf, hranges, encode, inOrder_eq hperm]

namespace Session

/-! ## Answers -/

section

variable {s s' : Session} (hs : s.Agrees) (hs' : s'.Agrees) {t : Text} (h : '\r' ∉ t) {path : String}

section

variable {uri : Uri} (hopen : s.documents.find? uri.text = some ⟨t, path⟩)
  (hopen' : s'.documents.find? uri.text = some ⟨t.crlf, path⟩)
include hs hs' hopen hopen'

theorem fromTable_crlf {α : Type} (question : SymbolTable → α) (answer answer' : α → Answer × List Event)
    (hanswer : answer' (question ((SymbolTable.ofText t path).moved t.crlfSpan)) = answer (question (.ofText t path))) :
    s'.fromTable uri question answer' = s.fromTable uri question answer := by
  have htable := SymbolTable.ofText_moved t.crlfSpan (Source.scan_crlf t) path
  rw [hs.fromTable_eq hopen, hs'.fromTable_eq hopen', Document.table, Document.table, htable]
  exact hanswer

end

section Word

variable {place : Place} (hopen : s.documents.find? place.uri.text = some ⟨t, path⟩)
  (hopen' : s'.documents.find? place.uri.text = some ⟨t.crlf, path⟩)
include h hopen hopen'

/-- The same word is at a position, at a place further on. -/
theorem wordAt?_crlf :
    s.wordAt? place = none ∧ s'.wordAt? place = none ∨
      ∃ word span before after, t.WordAt span before word after ∧ s.wordAt? place = some (⟨t, path⟩, word, span) ∧
        s'.wordAt? place = some (⟨t.crlf, path⟩, word, t.crlfSpan span) := by
  have hoffset := Text.offsetAt?_crlf h place.position
  cases hfound : t.offsetAt? place.position with
  | none =>
    rw [hfound, Option.map_none] at hoffset
    left
    simp [wordAt?, hopen, hopen', hfound, hoffset]
  | some offset =>
    obtain ⟨u, v, rfl, rfl, hcut⟩ := Text.exists_cut_of_offsetAt? h hfound
    have hword := Text.wordAt?_crlf u v
    cases hat : (u ++ v).wordAt? u.bytes with
    | none =>
      rw [hat, Option.map_none] at hword
      left
      simp [wordAt?, hopen, hopen', hfound, hcut, hat, hword]
    | some found =>
      obtain ⟨word, span⟩ := found
      obtain ⟨before, after, hplace⟩ := Text.exists_wordAt_of_wordAt? hat
      rw [hat, Option.map_some] at hword
      right
      refine ⟨word, span, before, after, hplace, ?_, ?_⟩
      · simp [wordAt?, hopen, hfound, hat]
      · simp [wordAt?, hopen', hcut, hword]

include hs hs'

/-- Questions about a word have the same answer if the answer is made of the same ranges. -/
theorem aboutWord_crlf {α : Type} (question : SymbolTable → Text → α)
    (answer : Text → Text → Span → α → Answer × List Event)
    (hanswer : ∀ word span, t.crlf.rangeOf (t.crlfSpan span) = t.rangeOf span →
      answer t.crlf word (t.crlfSpan span) (question ((SymbolTable.ofText t path).moved t.crlfSpan) word) =
        answer t word span (question (.ofText t path) word)) :
    s'.aboutWord place question answer = s.aboutWord place question answer := by
  rcases wordAt?_crlf h hopen hopen' with ⟨hnone, hnone'⟩ | ⟨word, span, before, after, hword, hat, hat'⟩
  · simp only [aboutWord, hnone, hnone']
  · simp only [aboutWord, hat, hat']
    exact fromTable_crlf hs hs' hopen hopen' _ _ _ (hanswer word span (hword.rangeOf_crlf h))

theorem reply_hover_crlf : s'.reply (.hover place) = s.reply (.hover place) := by
  rw [reply, reply]
  refine aboutWord_crlf hs hs' h hopen hopen' _ _ ?_
  intro word span hrange
  rw [SymbolTable.hover_moved, hrange]

theorem reply_definition_crlf : s'.reply (.definition place) = s.reply (.definition place) := by
  rw [reply, reply]
  refine aboutWord_crlf hs hs' h hopen hopen' _ _ ?_
  intro word span hrange
  have htargets : ∀ target ∈ (SymbolTable.ofText t path).definition word,
      t.crlf.rangeOf (t.crlfSpan target.span) = t.rangeOf target.span :=
    fun target htarget => SymbolTable.rangeOf_crlf h (SymbolTable.hasPlace_of_mem_definition htarget)
  have hlinks : (((SymbolTable.ofText t path).moved t.crlfSpan).definition word).map
      (fun target => (⟨t.crlf.rangeOf (t.crlfSpan span), place.uri, t.crlf.rangeOf target.span⟩ : Protocol.Link)) =
      ((SymbolTable.ofText t path).definition word).map fun target =>
        ⟨t.rangeOf span, place.uri, t.rangeOf target.span⟩ := by
    rw [SymbolTable.definition_moved, List.map_map]
    refine List.map_congr_left fun target htarget => ?_
    simp only [Function.comp_apply, hrange, htargets target htarget]
  simp only [hlinks]

theorem reply_references_crlf (withDeclaration : Bool) :
    s'.reply (.references place withDeclaration) = s.reply (.references place withDeclaration) := by
  rw [reply, reply]
  refine aboutWord_crlf hs hs' h hopen hopen' _ _ ?_
  intro word span _
  have hranges : (((SymbolTable.ofText t path).moved t.crlfSpan).references word withDeclaration).map t.crlf.rangeOf =
      ((SymbolTable.ofText t path).references word withDeclaration).map t.rangeOf := by
    rw [SymbolTable.references_moved, List.map_map]
    refine List.map_congr_left fun span hspan => ?_
    exact SymbolTable.rangeOf_crlf h (SymbolTable.hasPlace_of_mem_references hspan)
  have hlength := congrArg List.length hranges
  rw [List.length_map, List.length_map] at hlength
  simp only [hranges, hlength]

theorem reply_prepareRename_crlf : s'.reply (.prepareRename place) = s.reply (.prepareRename place) := by
  rw [reply, reply]
  refine aboutWord_crlf hs hs' h hopen hopen' _ _ ?_
  intro word span hrange
  rw [SymbolTable.prepareRename_moved, hrange]

theorem reply_rename_crlf (newName : Text) : s'.reply (.rename place newName) = s.reply (.rename place newName) := by
  rw [reply, reply]
  refine aboutWord_crlf hs hs' h hopen hopen' _ _ ?_
  intro word span _
  rw [SymbolTable.rename_moved]
  cases hrename : (SymbolTable.ofText t path).rename word newName with
  | none => rfl
  | some edits =>
    have hedits : (edits.map fun e => (⟨t.crlfSpan e.span, e.newText⟩ : TextEdit)).map
        (fun e => (⟨t.crlf.rangeOf e.span, e.newText⟩ : Protocol.RangeEdit)) =
        edits.map fun e => ⟨t.rangeOf e.span, e.newText⟩ := by
      rw [List.map_map]
      refine List.map_congr_left fun e he => ?_
      simp only [Function.comp_apply, SymbolTable.rangeOf_crlf h (SymbolTable.hasPlace_of_mem_rename hrename he)]
    simp only [Option.map_some, hedits, List.length_map]

end Word

section Document

variable {uri : Uri} (hopen : s.documents.find? uri.text = some ⟨t, path⟩)
  (hopen' : s'.documents.find? uri.text = some ⟨t.crlf, path⟩)
include hs hs' hopen hopen'

theorem reply_completion_crlf (position : Position) :
    s'.reply (.completion ⟨uri, position⟩) = s.reply (.completion ⟨uri, position⟩) := by
  rw [reply, reply]
  refine fromTable_crlf hs hs' hopen hopen' _ _ _ ?_
  rw [SymbolTable.completion_moved]

include h

theorem reply_documentSymbols_crlf : s'.reply (.documentSymbols uri) = s.reply (.documentSymbols uri) := by
  have hsymbols : ((SymbolTable.ofText t path).moved t.crlfSpan).outline.map
      (fun e => (⟨e.name, e.kind, t.crlf.rangeOf e.span⟩ : Protocol.DocumentSymbol)) =
      (SymbolTable.ofText t path).outline.map fun e => ⟨e.name, e.kind, t.rangeOf e.span⟩ := by
    rw [SymbolTable.outline_moved, List.map_map]
    refine List.map_congr_left fun e he => ?_
    simp only [Function.comp_apply, SymbolTable.rangeOf_crlf h (SymbolTable.hasPlace_of_mem_outline he)]
  have hlength := congrArg List.length hsymbols
  rw [List.length_map, List.length_map] at hlength
  simp only [reply, aboutDocument, hopen, hopen']
  refine fromTable_crlf hs hs' hopen hopen' _ _ _ ?_
  simp only [hsymbols, hlength]

theorem reply_semanticTokens_crlf : s'.reply (.semanticTokens uri) = s.reply (.semanticTokens uri) := by
  have htokens := HighlightToken.encode_crlf h (SymbolTable.perm_highlights t path)
  simp only [reply, aboutDocument, hopen, hopen']
  refine fromTable_crlf hs hs' hopen hopen' _ _ _ ?_
  simp only [SymbolTable.highlights_moved, htokens]

end Document

include hs hs' h

/-- Every question about the document has the same answer. -/
theorem reply_crlf {query : Query} (hopen : s.documents.find? query.uri.text = some ⟨t, path⟩)
    (hopen' : s'.documents.find? query.uri.text = some ⟨t.crlf, path⟩) : s'.reply query = s.reply query := by
  cases query with
  | hover place => exact reply_hover_crlf hs hs' h hopen hopen'
  | definition place => exact reply_definition_crlf hs hs' h hopen hopen'
  | references place withDeclaration => exact reply_references_crlf hs hs' h hopen hopen' withDeclaration
  | prepareRename place => exact reply_prepareRename_crlf hs hs' h hopen hopen'
  | rename place newName => exact reply_rename_crlf hs hs' h hopen hopen' newName
  | completion place => exact reply_completion_crlf hs hs' hopen hopen' place.position
  | documentSymbols uri => exact reply_documentSymbols_crlf hs hs' h hopen hopen'
  | semanticTokens uri => exact reply_semanticTokens_crlf hs hs' h hopen hopen'

end

/-- Whether two sessions answer every question alike. -/
def AnswersAlike (s s' : Session) : Prop := ∀ query, s'.reply query = s.reply query

theorem Agrees.answersAlike_opened {s : Session} (hs : s.Agrees) (uri : Uri) {t : Text} (h : '\r' ∉ t) :
    AnswersAlike (s.note (.opened uri t)).1 (s.note (.opened uri t.crlf)).1 := by
  intro query
  by_cases hquery : query.uri.text = uri.text
  · have hopen : ∀ text, (s.note (.opened uri text)).1.documents.find? query.uri.text = some ⟨text, uri.path⟩ := by
      intro text
      rw [hquery]
      exact OrderedMap.find?_insert_self _ _ _
    exact reply_crlf (hs.note (.opened uri t)) (hs.note (.opened uri t.crlf)) h (hopen t) (hopen t.crlf)
  · have hother : ∀ text, SameAt query.uri.text (s.note (.opened uri text)).1 s :=
      fun text => sameAt_note_other s hquery
    exact ((hother t.crlf).trans (hother t).symm).reply

end Session

/-! ## Requests -/

namespace Server

theorem exists_receive_opening (s : Session) (uri : Uri) :
    (∀ text, (receive ⟨.serving, s⟩ (.notification (Protocol.opening uri text))).1 = ⟨.serving, s⟩) ∨
      ∃ u, ∀ text, (receive ⟨.serving, s⟩ (.notification (Protocol.opening uri text))).1 =
        ⟨.serving, (s.note (.opened u text)).1⟩ := by
  cases hparse : Uri.parse? uri.text with
  | none =>
    left
    intro text
    simp [receive, serve, Protocol.read?_opening_eq, hparse]
  | some u =>
    right
    refine ⟨u, fun text => ?_⟩
    simp [receive, serve, Protocol.read?_opening_eq, hparse]

section

variable {s s' : Session} (h : s.AnswersAlike s')
include h

theorem respond_alike (r : Request) : respond s' r = respond s r := by
  unfold respond
  cases Query.read? r.method r.params with
  | none => rfl
  | some query => simp only [h query]

/-- **Step.** A request gets the same from both, and leaves both as they are. -/
theorem exists_receive_request (stage : Stage) (r : Request) :
    ∃ next emissions, receive ⟨stage, s⟩ (.request r) = (⟨next, s⟩, emissions) ∧
      receive ⟨stage, s'⟩ (.request r) = (⟨next, s'⟩, emissions) := by
  cases stage with
  | waiting =>
    simp only [receive, greet]
    split
    · exact ⟨_, _, rfl, rfl⟩
    · exact ⟨_, _, rfl, rfl⟩
  | greeted params => exact ⟨_, _, rfl, rfl⟩
  | serving =>
    simp only [receive, serve, respond_alike h]
    split
    · exact ⟨_, _, rfl, rfl⟩
    · exact ⟨_, _, rfl, rfl⟩
  | closing => exact ⟨_, _, rfl, rfl⟩
  | ended ending => exact ⟨_, _, rfl, rfl⟩

/-- **Run.** Requests get the same from both, whatever they are. -/
theorem receiveAll_requests (stage : Stage) (rs : List Request) :
    (receiveAll ⟨stage, s'⟩ (rs.map .request)).2 = (receiveAll ⟨stage, s⟩ (rs.map .request)).2 := by
  induction rs generalizing stage with
  | nil => rfl
  | cons r rs ih =>
    obtain ⟨next, emissions, hreceive, hreceive'⟩ := exists_receive_request h stage r
    simp only [List.map_cons, receiveAll, hreceive, hreceive', ih next]

end

/-- **Documents with line feeds and with carriage returns before them are indistinguishable.** A server
that has opened the one and a server that has opened the other send the same on every run of requests.
What they hold is different: each place of a variable lies further on by a byte for each line feed
before it. -/
theorem line_endings_are_indistinguishable (uri : Uri) {t : Text} (h : '\r' ∉ t) :
    (∀ rs : List Request,
      ((ready.receive (.notification (Protocol.opening uri t.crlf))).1.receiveAll (rs.map .request)).2 =
        ((ready.receive (.notification (Protocol.opening uri t))).1.receiveAll (rs.map .request)).2) ∧
    scan t.crlf = (scan t).map (Source.Declaration.relocate id t.crlfSpan) ∧
    ∀ d ∈ scan t, ∀ span ∈ d.span :: d.uses,
      let feeds := (t.upTo Char.utf8Size span.start).count '\n'
      t.crlfSpan span = ⟨span.start + feeds, span.stop + feeds⟩ := by
  refine ⟨fun rs => ?_, Source.scan_crlf t, fun d hd span hspan => ?_⟩
  · rcases exists_receive_opening .empty uri with hnone | ⟨u, hsome⟩
    · rw [ready, hnone, hnone]
    · rw [ready, hsome, hsome]
      exact receiveAll_requests (Session.agrees_empty.answersAlike_opened u h) .serving rs
  · obtain ⟨before, word, after, hword, _⟩ := Source.exists_wordAt_of_mem_spans hd hspan
    have hcrlf := hword.crlf.span
    rw [Text.bytes_crlf] at hcrlf
    intro feeds
    have hfeeds : feeds = before.count '\n' := congrArg (List.count '\n') hword.upTo_start
    rw [hcrlf, hfeeds, hword.span]
    exact congrArg (Span.mk _) (Nat.add_right_comm ..)

/-- The place on the second line is one byte further on, and is told the same. -/
theorem line_endings_of_two_lines :
    let uri : Uri := ⟨"file:///a", "/a"⟩
    let t : Text := "A=1;\nB=A;".toList
    let r : Request := ⟨.number 1, "textDocument/references", .obj [("textDocument", .obj [("uri", .str uri.text)]),
      ("position", .obj [("line", .nat 1), ("character", .nat 2)]),
      ("context", .obj [("includeDeclaration", .bool true)])]⟩
    let opened (text : Text) : Server := (ready.receive (.notification (Protocol.opening uri text))).1
    ((opened t.crlf).receiveAll [.request r]).2 = ((opened t).receiveAll [.request r]).2 ∧
      ((opened t).session.reply (.references ⟨uri, ⟨1, 2⟩⟩ true)).1 =
        .locations uri [⟨⟨0, 0⟩, ⟨0, 1⟩⟩, ⟨⟨1, 2⟩, ⟨1, 3⟩⟩] ∧
      (scan t).map (fun d => d.uses) = [[⟨7, 8⟩], []] ∧ (scan t.crlf).map (fun d => d.uses) = [[⟨8, 9⟩], []] := by
  intro uri t r opened
  obtain ⟨hsame, hscan, _⟩ := @line_endings_are_indistinguishable uri t (by decide)
  refine ⟨hsame [r], by decide +kernel, by decide +kernel, ?_⟩
  rw [hscan]
  decide +kernel

end Server
end GibianeEditor
