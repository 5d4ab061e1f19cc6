/-
The open documents and the index hold the same documents, and the table of each is that of its text.
A message leaves the session as it is or is a notice that changes it (`receive_session`), a notice
keeps the two together (`Agrees.note`), and so does every run of messages
(`receiveAll_documents_agree`).
-/
import GibianeEditor.Proofs.Symbol.Table
import GibianeEditor.Session.Server

namespace GibianeEditor

open Protocol (Message Notice)

/-- The table of a document's text. -/
def Document.table (document : Document) : SymbolTable := .ofText document.text document.path

namespace Session

/-- Whether the index holds the table of every open document and nothing else. -/
def Agrees (s : Session) : Prop :=
  ∀ uri, s.index.tables.find? uri = (s.documents.find? uri).map Document.table

theorem agrees_empty : empty.Agrees := fun _ => rfl

theorem Agrees.store {s : Session} (h : s.Agrees) (uri : Uri) (document : Document) :
    (s.store uri document).1.Agrees := by
  intro other
  by_cases he : other = uri.text
  · subst he
    simp [Session.store, SymbolIndex.indexDocument, SymbolIndex.replace, Document.table]
  · simp only [Session.store, SymbolIndex.indexDocument, SymbolIndex.replace]
    rw [OrderedMap.find?_insert_other _ _ he, OrderedMap.find?_insert_other _ _ he, h other]

theorem Agrees.note {s : Session} (h : s.Agrees) (notice : Notice) : (s.note notice).1.Agrees := by
  cases notice with
  | opened uri text => exact h.store uri _
  | changed uri changes =>
    simp only [Session.note]
    split
    · exact h
    · exact h.store uri _
  | closed uri =>
    intro other
    by_cases he : other = uri.text
    · subst he
      simp only [Session.note, SymbolIndex.remove, OrderedMap.find?_erase_self]
      rfl
    · simp only [Session.note, SymbolIndex.remove]
      rw [OrderedMap.find?_erase_other _ he, OrderedMap.find?_erase_other _ he, h other]

theorem Agrees.mem_keys_iff {s : Session} (h : s.Agrees) (uri : String) :
    uri ∈ s.documents.keys ↔ uri ∈ s.index.tables.keys := by
  rw [OrderedMap.mem_keys_iff, OrderedMap.mem_keys_iff, h uri, Option.isSome_map]

theorem Agrees.table_eq {s : Session} (h : s.Agrees) {uri : String} {document : Document}
    (hfind : s.documents.find? uri = some document) : s.index.table uri = .ok document.table := by
  have htable := h uri
  rw [hfind] at htable
  simp [SymbolIndex.table, htable]

end Session

namespace Server

/-! ## One message -/

theorem greet_session (s : Session) (m : Message) : (greet s m).1.session = s := by
  cases m with
  | request r =>
    simp only [greet]
    split <;> rfl
  | response r => rfl
  | notification n =>
    simp only [greet]
    split <;> rfl

theorem setUp_session (s : Session) (params : Json) (m : Message) : (setUp s params m).1.session = s := by
  cases m with
  | request r => rfl
  | response r => rfl
  | notification n =>
    simp only [setUp]
    split
    · split <;> rfl
    · rfl

/-- A server that serves leaves the session as it is, or is given a notice. -/
theorem serve_session_cases (s : Session) (m : Message) :
    (serve s m).1.session = s ∨
      ∃ n notice, m = .notification n ∧ Notice.read? n.method n.params = some notice ∧
        (serve s m).1.session = (s.note notice).1 := by
  cases m with
  | request r =>
    left
    simp only [serve]
    split <;> rfl
  | response r => exact .inl rfl
  | notification n =>
    cases hread : Notice.read? n.method n.params with
    | none => exact .inl (by simp [serve, hread])
    | some notice => exact .inr ⟨n, notice, rfl, hread, by simp [serve, hread]⟩

theorem exists_close_eq (s : Session) (m : Message) : ∃ ending, close s m = ⟨.ended ending, s⟩ := by
  cases m with
  | request r => exact ⟨_, rfl⟩
  | response r => exact ⟨_, rfl⟩
  | notification n =>
    by_cases hn : n.method = "exit"
    · exact ⟨.shutdown, if_pos hn⟩
    · exact ⟨.unexpectedAfterShutdown (.notification n), if_neg hn⟩

/-- The next message leaves the session as it is, or is a notice to a server that serves. -/
theorem receive_session (server : Server) (m : Message) :
    (server.receive m).1.session = server.session ∨
      ∃ n notice, m = .notification n ∧ server.stage = .serving ∧ Notice.read? n.method n.params = some notice ∧
        (server.receive m).1.session = (server.session.note notice).1 := by
  obtain ⟨stage, s⟩ := server
  cases stage with
  | waiting => exact .inl (greet_session s m)
  | greeted params => exact .inl (setUp_session s params m)
  | serving =>
    rcases serve_session_cases s m with hsame | ⟨n, notice, hm, hread, hnoted⟩
    · exact .inl hsame
    · exact .inr ⟨n, notice, hm, rfl, hread, hnoted⟩
  | closing =>
    obtain ⟨ending, hclose⟩ := exists_close_eq s m
    have hsame : (close s m).session = s := by rw [hclose]
    exact .inl hsame
  | ended ending => exact .inl rfl

/-! ## Runs -/

/-- What every notice that can be read keeps holds after all messages. -/
theorem receiveAll_session_of_read {I : Session → Prop}
    (hnote : ∀ s (n : Protocol.Notification) notice, Notice.read? n.method n.params = some notice →
      I s → I (s.note notice).1)
    {server : Server} (h : I server.session) (ms : List Message) : I (server.receiveAll ms).1.session := by
  induction ms generalizing server with
  | nil => exact h
  | cons m ms ih =>
    have hstep : I (server.receive m).1.session := by
      rcases receive_session server m with hsame | ⟨n, notice, _, _, hread, hnoted⟩
      · rwa [hsame]
      · rw [hnoted]
        exact hnote _ n notice hread h
    exact ih hstep

/-- What every notice keeps holds after all messages. -/
theorem receiveAll_session {I : Session → Prop} (hnote : ∀ s notice, I s → I (s.note notice).1)
    {server : Server} (h : I server.session) (ms : List Message) : I (server.receiveAll ms).1.session :=
  receiveAll_session_of_read (fun s _ notice _ => hnote s notice) h ms

/-- **The open documents and the index never drift apart.** Whatever a server without documents has
received, at whatever stage it was, the documents that are open are those that are indexed; and the
table of each is that of its text, which has under a name what the text declares by it, else the
built-in operator. -/
theorem receiveAll_documents_agree (stage : Stage) (ms : List Message) :
    let s := (receiveAll ⟨stage, .empty⟩ ms).1.session
    (∀ uri, uri ∈ s.documents.keys ↔ uri ∈ s.index.tables.keys) ∧
      ∀ uri document, s.documents.find? uri = some document →
        ∃ table, s.index.table uri = .ok table ∧ table = .ofText document.text document.path ∧
          ∀ name, OrderedMap.find? table name =
            (((Source.scan document.text).find? fun d => d.name = name).map fun d =>
              .variable (d.toVariable document.path)).or
              ((catalog.find? fun op => op.name = name).map .operator) := by
  intro s
  have h : s.Agrees := receiveAll_session (fun _ notice h => h.note notice) Session.agrees_empty ms
  exact ⟨h.mem_keys_iff, fun uri document hfind =>
    ⟨document.table, h.table_eq hfind, rfl, SymbolTable.find?_ofText document.text document.path⟩⟩

end Server
end GibianeEditor
