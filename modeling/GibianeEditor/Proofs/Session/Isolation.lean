/-
Documents do not see one another. A message about one document leaves the others as they are
(`sameAt_note_other`), and what it does to its own depends on nothing else (`SameAt.note`,
`SameAt.respond`). So a run is for one document what it is without the messages about others
(`run_filter`), and two runs with the same messages about a document are the same for it. What
is answered does not depend on how a text came to be open either, since the text and the URI settle
all that is stored (`sameAt_of_textOf_eq`).
-/
import GibianeEditor.Proofs.Protocol.Naming
import GibianeEditor.Proofs.Session.Reply
import GibianeEditor.Proofs.Session.Sync

namespace GibianeEditor

open Log (Event)
open Protocol (Answer Message Notice Place Query Request namedUri?)

namespace Session

/-- Whether two sessions hold the same for a URI. -/
structure SameAt (uri : String) (s s' : Session) : Prop where
  document : s.documents.find? uri = s'.documents.find? uri
  table : s.index.tables.find? uri = s'.index.tables.find? uri

theorem SameAt.trans {uri : String} {s s' s'' : Session} (h : SameAt uri s s') (h' : SameAt uri s' s'') :
    SameAt uri s s'' := ⟨h.document.trans h'.document, h.table.trans h'.table⟩

theorem SameAt.symm {uri : String} {s s' : Session} (h : SameAt uri s s') : SameAt uri s' s :=
  ⟨h.document.symm, h.table.symm⟩

/-! ## Notices -/

theorem sameAt_store_other (s : Session) {uri : Uri} (document : Document) {other : String} (h : other ≠ uri.text) :
    SameAt other (s.store uri document).1 s :=
  ⟨OrderedMap.find?_insert_other _ _ h, OrderedMap.find?_insert_other _ _ h⟩

theorem sameAt_store (s s' : Session) (uri : Uri) (document : Document) :
    SameAt uri.text (s.store uri document).1 (s'.store uri document).1 := by
  constructor <;> simp [store, SymbolIndex.indexDocument, SymbolIndex.replace]

/-- A notice leaves the other documents as they are. -/
theorem sameAt_note_other (s : Session) {notice : Notice} {other : String} (h : other ≠ notice.uri.text) :
    SameAt other (s.note notice).1 s := by
  cases notice with
  | opened uri text => exact sameAt_store_other s _ h
  | changed uri changes =>
    simp only [note]
    split
    · exact ⟨rfl, rfl⟩
    · exact sameAt_store_other s _ h
  | closed uri => exact ⟨OrderedMap.find?_erase_other _ h, OrderedMap.find?_erase_other _ h⟩

/-- A notice does the same wherever its document is the same. -/
theorem SameAt.note {s s' : Session} {notice : Notice} (h : SameAt notice.uri.text s s') :
    SameAt notice.uri.text (s.note notice).1 (s'.note notice).1 ∧ (s.note notice).2 = (s'.note notice).2 := by
  cases notice with
  | opened uri text => exact ⟨sameAt_store s s' uri _, rfl⟩
  | changed uri changes =>
    have hdocument : s.documents.find? uri.text = s'.documents.find? uri.text := h.document
    simp only [Session.note, hdocument]
    cases s'.documents.find? uri.text with
    | none => exact ⟨h, rfl⟩
    | some document => exact ⟨sameAt_store s s' uri _, rfl⟩
  | closed uri =>
    refine ⟨⟨?_, ?_⟩, rfl⟩
    · exact (OrderedMap.find?_erase_self _ _).trans (OrderedMap.find?_erase_self _ _).symm
    · exact (OrderedMap.find?_erase_self _ _).trans (OrderedMap.find?_erase_self _ _).symm

/-! ## Answers -/

section

variable {s s' : Session} {α : Type}

theorem SameAt.fromTable {uri : Uri} (h : SameAt uri.text s s') (question : SymbolTable → α)
    (answer : α → Answer × List Event) : s.fromTable uri question answer = s'.fromTable uri question answer := by
  simp only [Session.fromTable, SymbolIndex.ask, SymbolIndex.table, h.table]

theorem SameAt.aboutWord {place : Place} (h : SameAt place.uri.text s s') (question : SymbolTable → Text → α)
    (answer : Text → Text → Span → α → Answer × List Event) :
    s.aboutWord place question answer = s'.aboutWord place question answer := by
  have hword : s.wordAt? place = s'.wordAt? place := by simp only [wordAt?, h.document]
  simp only [Session.aboutWord, hword, h.fromTable]

theorem SameAt.aboutDocument {uri : Uri} (h : SameAt uri.text s s') (question : SymbolTable → α)
    (answer : Text → α → Answer × List Event) :
    s.aboutDocument uri question answer = s'.aboutDocument uri question answer := by
  simp only [Session.aboutDocument, h.document, h.fromTable]

/-- An answer depends on the document it is about only. -/
theorem SameAt.reply {query : Query} (h : SameAt query.uri.text s s') : s.reply query = s'.reply query := by
  cases query with
  | hover place | definition place | references place | prepareRename place | rename place =>
    have hplace : SameAt place.uri.text s s' := h
    simp only [Session.reply, hplace.aboutWord]
  | completion place => exact h.fromTable _ _
  | documentSymbols uri | semanticTokens uri =>
    have huri : SameAt uri.text s s' := h
    simp only [Session.reply, huri.aboutDocument]

/-- And so does the response to a request, readable or not. -/
theorem SameAt.respond {uri : String} (h : SameAt uri s s') {r : Request} (hnames : namedUri? r.params = some uri) :
    Server.respond s r = Server.respond s' r := by
  cases hread : Query.read? r.method r.params with
  | none => simp only [Server.respond, hread]
  | some query =>
    have hnamed := (Protocol.namedBy_of_read_query hread).1
    rw [hnames, Option.some.injEq] at hnamed
    rw [hnamed] at h
    simp only [Server.respond, hread, h.reply]

end

end Session

/-! ## Runs -/

namespace Server

/-- Whether a server that serves goes on serving after a message. -/
def Continues : Message → Prop
  | .request r => r.method ≠ "shutdown"
  | _ => True

/-- What a server brings forth for each of the messages that name a URI. -/
def emissionsOn (uri : String) : Server → List Message → List (List Emission)
  | _, [] => []
  | server, m :: rest =>
    let (server, first) := server.receive m
    if m.names uri then first :: emissionsOn uri server rest else emissionsOn uri server rest

theorem serve_continues (s : Session) {m : Message} (h : Continues m) :
    (serve s m).1 = ⟨.serving, (serve s m).1.session⟩ := by
  cases m with
  | request r => simp [serve, show r.method ≠ "shutdown" from h]
  | response r => rfl
  | notification n =>
    simp only [serve]
    split <;> rfl

/-- A message about another document leaves this one as it is. -/
theorem sameAt_serve_other (s : Session) {uri : String} {m : Message} (h : m.names uri = false) :
    Session.SameAt uri (serve s m).1.session s := by
  rcases receive_session ⟨.serving, s⟩ m with hsame | ⟨n, notice, rfl, _, hread, hnoted⟩
  · change (serve s m).1.session = s at hsame
    rw [hsame]
    exact ⟨rfl, rfl⟩
  · change (serve s (.notification n)).1.session = _ at hnoted
    rw [hnoted]
    refine Session.sameAt_note_other s ?_
    rintro rfl
    simp [Message.names, (Protocol.namedBy_of_read_notice hread).1] at h

/-- A message about a document does the same wherever the document is the same. -/
theorem sameAt_serve {s s' : Session} {uri : String} (h : Session.SameAt uri s s') {m : Message}
    (hnames : m.names uri = true) (hcontinues : Continues m) :
    Session.SameAt uri (serve s m).1.session (serve s' m).1.session ∧ (serve s m).2 = (serve s' m).2 := by
  cases m with
  | request r =>
    have hr : namedUri? r.params = some uri := by simpa [Message.names] using hnames
    simp only [serve, if_neg (show r.method ≠ "shutdown" from hcontinues)]
    exact ⟨h, h.respond hr⟩
  | response r => cases hnames
  | notification n =>
    cases hread : Notice.read? n.method n.params with
    | none => simpa [serve, hread] using h
    | some notice =>
      have hn : namedUri? n.params = some uri := by simpa [Message.names] using hnames
      obtain rfl : notice.uri.text = uri := by
        rw [(Protocol.namedBy_of_read_notice hread).1, Option.some.injEq] at hn
        exact hn
      obtain ⟨hsame, hevents⟩ := h.note
      simp only [serve, hread]
      exact ⟨hsame, by rw [hevents]⟩

/-- For a document a run is what it is without the messages about others. -/
theorem run_filter {uri : String} {s s' : Session} (h : Session.SameAt uri s s') {ms : List Message}
    (hms : ∀ m ∈ ms, Continues m) :
    emissionsOn uri ⟨.serving, s⟩ ms = emissionsOn uri ⟨.serving, s'⟩ (ms.filter (Message.names uri)) ∧
      Session.SameAt uri (receiveAll ⟨.serving, s⟩ ms).1.session
        (receiveAll ⟨.serving, s'⟩ (ms.filter (Message.names uri))).1.session := by
  induction ms generalizing s s' with
  | nil => exact ⟨rfl, h⟩
  | cons m ms ih =>
    have hrest := fun m hm => hms m (List.mem_cons_of_mem _ hm)
    have hm := hms m List.mem_cons_self
    have hserve := serve_continues s hm
    cases hnames : m.names uri with
    | true =>
      obtain ⟨hsame, hemissions⟩ := sameAt_serve h hnames hm
      have hserve' := serve_continues s' hm
      have ih := ih hsame hrest
      rw [← hserve, ← hserve'] at ih
      rw [List.filter_cons_of_pos hnames]
      simp only [emissionsOn, receiveAll, receive, hnames, if_true, hemissions]
      exact ⟨congrArg _ ih.1, ih.2⟩
    | false =>
      have ih := ih ((sameAt_serve_other s hnames).trans h) hrest
      rw [← hserve] at ih
      rw [List.filter_cons_of_neg (by simp [hnames])]
      simp only [emissionsOn, receiveAll, receive, hnames]
      exact ih

end Server

/-! ## What is stored -/

namespace Session

/-- Whether every open document has the path of its URI. -/
def Placed (s : Session) : Prop :=
  ∀ key document, s.documents.find? key = some document → ∃ uri, Uri.parse? key = some uri ∧ document.path = uri.path

theorem placed_empty : empty.Placed := fun _ _ h => by cases h

theorem Placed.store {s : Session} (h : s.Placed) {uri parsed : Uri} {document : Document}
    (hparse : Uri.parse? uri.text = some parsed) (hpath : document.path = parsed.path) :
    (s.store uri document).1.Placed := by
  intro key stored hfind
  simp only [Session.store] at hfind
  by_cases hkey : key = uri.text
  · rw [hkey, OrderedMap.find?_insert_self, Option.some.injEq] at hfind
    rw [hkey, ← hfind]
    exact ⟨parsed, hparse, hpath⟩
  · rw [OrderedMap.find?_insert_other _ _ hkey] at hfind
    exact h key stored hfind

theorem Placed.note {s : Session} (h : s.Placed) {notice : Notice}
    (hparse : Uri.parse? notice.uri.text = some notice.uri) : (s.note notice).1.Placed := by
  cases notice with
  | opened uri text => exact h.store hparse rfl
  | changed uri changes =>
    simp only [Session.note]
    split
    · exact h
    · rename_i document hfind
      obtain ⟨parsed, hparsed, hpath⟩ := h _ document hfind
      exact h.store hparsed hpath
  | closed uri =>
    intro key document hfind
    simp only [Session.note] at hfind
    by_cases hkey : key = uri.text
    · rw [hkey, OrderedMap.find?_erase_self] at hfind
      cases hfind
    · rw [OrderedMap.find?_erase_other _ hkey] at hfind
      exact h key document hfind

/-- The text settles what is stored under a URI. -/
theorem sameAt_of_textOf_eq {s s' : Session} (h : s.Agrees) (h' : s'.Agrees) (hplaced : s.Placed)
    (hplaced' : s'.Placed) {uri : Uri} (htext : s.textOf uri = s'.textOf uri) : SameAt uri.text s s' := by
  have hdocument : s.documents.find? uri.text = s'.documents.find? uri.text := by
    simp only [textOf] at htext
    cases hfind : s.documents.find? uri.text with
    | none =>
      rw [hfind] at htext
      exact (Option.map_eq_none_iff.1 htext.symm).symm
    | some document =>
      rw [hfind, Option.map_some] at htext
      obtain ⟨document', hfind', htext'⟩ := Option.map_eq_some_iff.1 htext.symm
      obtain ⟨parsed, hparse, hpath⟩ := hplaced _ _ hfind
      obtain ⟨parsed', hparse', hpath'⟩ := hplaced' _ _ hfind'
      rw [hparse, Option.some.injEq] at hparse'
      have hpaths : document'.path = document.path := by rw [hpath, hpath', hparse']
      rw [hfind', Option.some.injEq]
      obtain ⟨text, path⟩ := document
      obtain ⟨text', path'⟩ := document'
      exact congrArg₂ Document.mk htext'.symm hpaths.symm
  exact ⟨hdocument, by rw [h uri.text, h' uri.text, hdocument]⟩

end Session

namespace Server

theorem placed_receiveAll (stage : Stage) (ms : List Message) :
    (receiveAll ⟨stage, .empty⟩ ms).1.session.Placed :=
  receiveAll_session_of_read (fun _ _ _ hread h => h.note (Protocol.namedBy_of_read_notice hread).2)
    Session.placed_empty ms

/-- Servers that have the same text open under a URI respond the same to requests about it. -/
theorem respond_eq_of_textOf_eq (stage stage' : Stage) (ms ms' : List Message) {uri : Uri} {r : Request}
    (hnames : namedUri? r.params = some uri.text)
    (htext : (receiveAll ⟨stage, .empty⟩ ms).1.session.textOf uri =
      (receiveAll ⟨stage', .empty⟩ ms').1.session.textOf uri) :
    respond (receiveAll ⟨stage, .empty⟩ ms).1.session r = respond (receiveAll ⟨stage', .empty⟩ ms').1.session r :=
  (Session.sameAt_of_textOf_eq (agrees_receiveAll stage ms) (agrees_receiveAll stage' ms')
    (placed_receiveAll stage ms) (placed_receiveAll stage' ms') htext).respond hnames

/-- **Documents are isolated, and answers have no history.** Two runs of a server that starts without
documents and is not shut down, with the same messages about a URI, bring forth the same for these and
hold the same for the URI. The response to a request about a URI depends on nothing but the request
and the text that is open there; so it is that of a server that has just opened the text. -/
theorem documents_are_isolated :
    (∀ (uri : String) (ms ms' : List Message), (∀ m ∈ ms, Continues m) → (∀ m ∈ ms', Continues m) →
      ms.filter (Message.names uri) = ms'.filter (Message.names uri) →
        emissionsOn uri ready ms = emissionsOn uri ready ms' ∧
          Session.SameAt uri (ready.receiveAll ms).1.session (ready.receiveAll ms').1.session) ∧
    (∀ (stage stage' : Stage) (ms ms' : List Message) (uri : Uri) (r : Request), namedUri? r.params = some uri.text →
      let s := (receiveAll ⟨stage, .empty⟩ ms).1.session
      let s' := (receiveAll ⟨stage', .empty⟩ ms').1.session
      s.textOf uri = s'.textOf uri → respond s r = respond s' r) ∧
    ∀ (stage : Stage) (ms : List Message) (uri : Uri) (text : Text) (r : Request), Uri.parse? uri.text = some uri →
      namedUri? r.params = some uri.text →
        let s := (receiveAll ⟨stage, .empty⟩ ms).1.session
        s.textOf uri = some text →
          respond s r = respond (ready.receive (.notification (Protocol.opening uri text))).1.session r := by
  refine ⟨fun uri ms ms' hms hms' hfilter => ?_, fun stage stage' ms ms' uri r hnames =>
    respond_eq_of_textOf_eq stage stage' ms ms' hnames, fun stage ms uri text r hparse hnames htext => ?_⟩
  · obtain ⟨hemissions, hsame⟩ := @run_filter uri .empty .empty ⟨rfl, rfl⟩ ms hms
    obtain ⟨hemissions', hsame'⟩ := @run_filter uri .empty .empty ⟨rfl, rfl⟩ ms' hms'
    rw [hfilter] at hemissions hsame
    exact ⟨hemissions.trans hemissions'.symm, hsame.trans hsame'.symm⟩
  · refine respond_eq_of_textOf_eq stage .serving ms [.notification (Protocol.opening uri text)] hnames (htext.trans ?_)
    have hopened := congrArg Server.session (receive_opening .empty hparse text)
    change _ = (receive ⟨.serving, .empty⟩ (.notification (Protocol.opening uri text))).1.session.textOf uri
    rw [hopened]
    exact (Session.textOf_note_opened .empty uri text).symm

/-- A document of the same path that declares the same name makes no difference. -/
theorem isolated_from_document_of_same_path :
    let uri : Uri := ⟨"file:///x", "/x"⟩
    let other : Uri := ⟨"untitled:/x", "/x"⟩
    let opened : Message := .notification (Protocol.opening uri "A=1;".toList)
    let r : Request := ⟨.number 1, "textDocument/definition", .obj [("textDocument", .obj [("uri", .str uri.text)]),
      ("position", .obj [("line", .nat 0), ("character", .nat 0)])]⟩
    emissionsOn uri.text ready [opened, .notification (Protocol.opening other "B=1;A=2;".toList), .request r] =
        emissionsOn uri.text ready [opened, .request r] ∧
      respond (ready.receiveAll [.notification (Protocol.opening other "B=1;A=2;".toList), opened]).1.session r =
        respond (ready.receive opened).1.session r := by
  intro uri other opened r
  obtain ⟨hruns, _, hopened⟩ := documents_are_isolated
  have hparse : Uri.parse? uri.text = some uri := by decide +kernel
  refine ⟨(hruns uri.text _ _ ?_ ?_ ?_).1, hopened .serving _ uri "A=1;".toList r hparse ?_ ?_⟩
  · simp [Continues, opened, r]
  · simp [Continues, opened, r]
  · rfl
  · rfl
  · decide +kernel

end Server
end GibianeEditor
