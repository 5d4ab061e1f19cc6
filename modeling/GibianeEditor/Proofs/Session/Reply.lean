/-
Answers of a session where the index agrees with the documents, as it does in a server at all times
(`agrees_receiveAll`). What is asked about an open document is answered from the table of its text
(`Agrees.aboutWord_eq`, `Agrees.aboutDocument_eq`), so a word that spells a declared name finds its
variable (`Agrees.finds`), and only such a word is renamed (`Agrees.exists_of_rename`). What a client
sends to open a document opens it (`receive_opening`).
-/
import GibianeEditor.Proofs.Session.Agreement
import GibianeEditor.Proofs.Symbol.Query
import GibianeEditor.Session.Reply

namespace GibianeEditor

open Log (Event)
open Protocol (Answer Message Notice Place RangeEdit)
open Source (Declaration scan)

namespace Protocol

/-- What a client sends to open a document. -/
def opening (uri : Uri) (text : Text) : Notification :=
  ⟨"textDocument/didOpen", .obj [("textDocument", .obj [("uri", .str uri.text), ("languageId", .str hoverLanguage),
    ("version", .nat 1), ("text", .text text)])]⟩

theorem read?_opening_eq (uri : Uri) (text : Text) :
    Notice.read? (opening uri text).method (opening uri text).params = (Uri.parse? uri.text).map (.opened · text) := by
  cases h : Uri.parse? uri.text <;>
    simp [opening, Notice.read?, Notice.readItem?, Json.record?, Json.field?, Json.find?, Json.str?, Json.int32?,
      Json.intWithin?, Json.nat, Json.text, readUri?, readText?, h]

theorem read?_opening {uri : Uri} (h : Uri.parse? uri.text = some uri) (text : Text) :
    Notice.read? (opening uri text).method (opening uri text).params = some (.opened uri text) := by
  rw [read?_opening_eq, h]
  rfl

end Protocol

namespace Session

/-! ## An open document -/

theorem wordAt?_eq_some_iff {s : Session} {place : Place} {document : Document} {word : Text} {span : Span} :
    s.wordAt? place = some (document, word, span) ↔
      ∃ offset, s.documents.find? place.uri.text = some document ∧
        document.text.offsetAt? place.position = some offset ∧ document.text.wordAt? offset = some (word, span) := by
  simp only [wordAt?, Option.bind_eq_bind, Option.bind_eq_some_iff, Option.some.injEq]
  constructor
  · rintro ⟨_, hfind, offset, hoffset, ⟨_, _⟩, hword, h⟩
    simp only [Prod.mk.injEq] at h
    obtain ⟨rfl, rfl, rfl⟩ := h
    exact ⟨offset, hfind, hoffset, hword⟩
  · rintro ⟨offset, hfind, hoffset, hword⟩
    exact ⟨document, hfind, offset, hoffset, (word, span), hword, rfl⟩

section

variable {s : Session} (h : s.Agrees) {α : Type} {document : Document}
include h

theorem Agrees.fromTable_eq {uri : Uri} (hfind : s.documents.find? uri.text = some document)
    (question : SymbolTable → α) (answer : α → Answer × List Event) :
    s.fromTable uri question answer = answer (question document.table) := by
  simp [fromTable, SymbolIndex.ask, h.table_eq hfind, Except.map]

theorem Agrees.aboutWord_eq {place : Place} {word : Text} {span : Span}
    (hword : s.wordAt? place = some (document, word, span)) (question : SymbolTable → Text → α)
    (answer : Text → Text → Span → α → Answer × List Event) :
    s.aboutWord place question answer = answer document.text word span (question document.table word) := by
  obtain ⟨_, hfind, _, _⟩ := wordAt?_eq_some_iff.1 hword
  simp only [aboutWord, hword, h.fromTable_eq hfind]

theorem Agrees.aboutDocument_eq {uri : Uri} (hfind : s.documents.find? uri.text = some document)
    (question : SymbolTable → α) (answer : Text → α → Answer × List Event) :
    s.aboutDocument uri question answer = answer document.text (question document.table) := by
  simp only [aboutDocument, hfind, h.fromTable_eq hfind]

end

/-! ## A declared variable -/

/-- Whether the questions about a place of a document with a text find a declared variable, from a
span that the place is in. -/
structure Finds (s : Session) (place : Place) (t : Text) (span : Span) (d : Declaration) : Prop where
  hover : (s.reply (.hover place)).1 =
    if d.description.isEmpty then .nothing else .hover d.description (t.rangeOf span)
  definition : (s.reply (.definition place)).1 = .links [⟨t.rangeOf span, place.uri, t.rangeOf d.span⟩]
  references : ∀ withDeclaration, (s.reply (.references place withDeclaration)).1 =
    .locations place.uri ((if withDeclaration then d.span :: d.uses else d.uses).map t.rangeOf)
  rename : ∀ newName, (s.reply (.rename place newName)).1 =
    .edits place.uri ((d.span :: d.uses).map fun span => ⟨t.rangeOf span, newName⟩)

variable {s : Session} {place : Place} {document : Document} {word : Text} {span : Span}

/-- A word that spells a declared name finds its variable. -/
theorem Agrees.finds (h : s.Agrees) (hword : s.wordAt? place = some (document, word, span)) {d : Declaration}
    (hd : d ∈ scan document.text) (hname : Name.of word = d.name) : s.Finds place document.text span d where
  hover := by
    rw [reply, h.aboutWord_eq hword, Document.table, SymbolTable.hover_ofText hd _ hname]
    cases d.description.isEmpty <;> rfl
  definition := by
    rw [reply, h.aboutWord_eq hword, Document.table, SymbolTable.definition_ofText hd _ hname]
    rfl
  references withDeclaration := by
    rw [reply, h.aboutWord_eq hword, Document.table, SymbolTable.references_ofText hd _ hname]
  rename newName := by
    rw [reply, h.aboutWord_eq hword, Document.table, SymbolTable.rename_ofText hd _ hname]
    simp only [List.map_map]
    rfl

/-- Where a rename gives edits, the word spells a declared name, and the edits are those of its
variable. -/
theorem Agrees.exists_of_rename (h : s.Agrees) {newName : Text} {uri : Uri} {edits : List RangeEdit}
    (hrename : (s.reply (.rename place newName)).1 = .edits uri edits) :
    ∃ document word span, s.wordAt? place = some (document, word, span) ∧ uri = place.uri ∧
      ∃ d ∈ scan document.text, d.name = Name.of word ∧
        edits = (d.span :: d.uses).map fun span => ⟨document.text.rangeOf span, newName⟩ := by
  cases hword : s.wordAt? place with
  | none => simp [reply, aboutWord, hword] at hrename
  | some found =>
    obtain ⟨document, word, span⟩ := found
    refine ⟨document, word, span, rfl, ?_⟩
    have hanswer := hrename
    simp only [reply, h.aboutWord_eq hword, Document.table] at hanswer
    cases hvariable : (SymbolTable.ofText document.text document.path).variableOf word with
    | none => simp [SymbolTable.rename, hvariable] at hanswer
    | some v =>
      obtain ⟨d, hd, hname, _⟩ := SymbolTable.exists_of_variableOf_ofText hvariable
      rw [(h.finds hword hd hname.symm).rename newName] at hrename
      simp only [Protocol.Answer.edits.injEq] at hrename
      exact ⟨hrename.1.symm, d, hd, hname, hrename.2.symm⟩

end Session

namespace Server

theorem receive_opening (s : Session) {uri : Uri} (h : Uri.parse? uri.text = some uri) (text : Text) :
    (receive ⟨.serving, s⟩ (.notification (Protocol.opening uri text))).1 =
      ⟨.serving, (s.note (.opened uri text)).1⟩ := by
  simp [receive, serve, Protocol.read?_opening h]

/-- Whatever a server without documents has received, its index agrees with its documents. -/
theorem agrees_receiveAll (stage : Stage) (ms : List Message) :
    (receiveAll ⟨stage, .empty⟩ ms).1.session.Agrees :=
  receiveAll_session (fun _ notice h => h.note notice) Session.agrees_empty ms

end Server
end GibianeEditor
