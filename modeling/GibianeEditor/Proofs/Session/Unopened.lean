/-
Questions about a document that is not open. All have the answer null and leave the server as it is. The
document map is asked before the index by all but completion, and only the index warns; so at the level of
warnings the client is told of a completion that there is no document, and of another question nothing
(`unopened_warns_iff`).
-/
import GibianeEditor.Proofs.Session.Responses

namespace GibianeEditor

open Log (Event Forwarding)
open Protocol (Message Query Request)

namespace Protocol

theorem Query.method_ne_shutdown (query : Query) : query.method ≠ "shutdown" := by
  cases query <;> simp [method]

end Protocol

namespace Session

/-- The events of an answer about a document that is not open: only completion asks the index, which warns. -/
def unopenedEvents : Query → List Event
  | .completion place => [.unindexed (.notIndexed place.uri.text)]
  | _ => []

/-- A question about a document that is not open has no answer, and a completion is warned of. -/
theorem Agrees.reply_of_not_mem {s : Session} (h : s.Agrees) {query : Query}
    (hnot : query.uri.text ∉ s.documents.keys) : s.reply query = (.nothing, unopenedEvents query) := by
  have hdocument : s.documents.find? query.uri.text = none := by
    rw [OrderedMap.mem_keys_iff] at hnot
    simpa using hnot
  have htable : s.index.tables.find? query.uri.text = none := by
    rw [h, hdocument, Option.map_none]
  cases query with
  | hover place | definition place | references place | prepareRename place | rename place =>
    change s.documents.find? place.uri.text = none at hdocument
    simp [reply, aboutWord, wordAt?, hdocument, unopenedEvents]
  | completion place =>
    change s.index.tables.find? place.uri.text = none at htable
    simp [reply, fromTable, SymbolIndex.ask, SymbolIndex.table, htable, unopenedEvents, Except.map]
  | documentSymbols uri | semanticTokens uri =>
    change s.documents.find? uri.text = none at hdocument
    simp [reply, aboutDocument, hdocument, unopenedEvents]

end Session

/-! ## What reaches the client -/

/-- The warning of a question about a document that is not indexed. -/
def unindexedWarning (uri : Uri) : Message :=
  .notification ⟨"window/logMessage",
    .obj [("message", .str ("Query on unindexed document err=document is not indexed: " ++ uri.text)),
      ("type", .nat 2)]⟩

namespace Log.Event

theorem clientText_of_message {e : Event} (h : e.message.isEmpty = false) :
    e.clientText = e.message ++ showFields Value.plain e.fields := by
  rw [clientText, h, if_neg Bool.false_ne_true]

theorem notification_unindexed (uri : Uri) :
    .notification (unindexed (.notIndexed uri.text)).notification = unindexedWarning uri := by
  have hmessage : "Query on unindexed document".isEmpty = false := by decide +kernel
  have hhead : "Query on unindexed document" ++ (" " ++ "err" ++ "=" ++ "document is not indexed: ") =
      "Query on unindexed document err=document is not indexed: " := by decide +kernel
  have htext : (unindexed (.notIndexed uri.text)).clientText =
      "Query on unindexed document err=document is not indexed: " ++ uri.text := by
    rw [clientText_of_message hmessage, showFields, ← hhead, String.append_assoc, String.append_assoc]
    rfl
  rw [notification, htext]
  rfl

end Log.Event

/-- That a question has come in is less severe than a warning. -/
theorem outbox_unopened (method : String) (query : Query) :
    outbox ⟨.warn, true⟩ ((.received method :: .asked query :: Session.unopenedEvents query).map .event) =
      if query.method = "textDocument/completion" then [unindexedWarning query.uri] else [] := by
  cases query with
  | completion place => exact congrArg (· :: []) (Event.notification_unindexed place.uri)
  | _ => rfl

namespace Server

section

variable {server : Server} (hserving : server.stage = .serving) {r : Request} {query : Query}
  (hread : Query.read? r.method r.params = some query)
include hserving hread

/-- A question leaves a server as it is. -/
theorem receive_query : server.receive (.request r) = (server, respond server.session r) := by
  obtain ⟨stage, s⟩ := server
  obtain rfl := hserving
  have hmethod : r.method ≠ "shutdown" := by
    rw [← Query.method_of_read? hread]
    exact query.method_ne_shutdown
  simp only [receive, serve, if_neg hmethod]

/-- What the client gets that asks about a document that is not open. -/
theorem outbox_receive_of_not_mem (hagrees : server.session.Agrees)
    (hnot : query.uri.text ∉ server.session.documents.keys) :
    outbox ⟨.warn, true⟩ (server.receive (.request r)).2 =
      (if query.method = "textDocument/completion" then [unindexedWarning query.uri] else []) ++ [.ok r.id .null] := by
  rw [receive_query hserving hread, respond_of_read _ hread, hagrees.reply_of_not_mem hnot, outbox_append,
    outbox_unopened]
  rfl

end

/-- **Only completion warns of a document that is not open.** A server without documents at the start, whatever
it has received, answers a question about a document that is not open with null and stays as it is. At the
level of warnings the client gets a warning with the error before the answer exactly if the question is a
completion, and else the answer alone. -/
theorem unopened_warns_iff (stage : Stage) (ms : List Message) {r : Request} {query : Query}
    (hread : Query.read? r.method r.params = some query)
    (hserving : (receiveAll ⟨stage, .empty⟩ ms).1.stage = .serving)
    (hnot : query.uri.text ∉ (receiveAll ⟨stage, .empty⟩ ms).1.session.documents.keys) :
    let server := (receiveAll ⟨stage, .empty⟩ ms).1
    let sent := outbox ⟨.warn, true⟩ (server.receive (.request r)).2
    (server.receive (.request r)).1 = server ∧
    (sent = [unindexedWarning query.uri, .ok r.id .null] ↔ r.method = "textDocument/completion") ∧
    (sent = [.ok r.id .null] ↔ r.method ≠ "textDocument/completion") := by
  intro server sent
  have hsent : sent = (if r.method = "textDocument/completion" then [unindexedWarning query.uri] else []) ++
      [.ok r.id .null] := by
    rw [← Query.method_of_read? hread]
    exact outbox_receive_of_not_mem hserving hread (agrees_receiveAll stage ms) hnot
  refine ⟨by simp only [server, receive_query hserving hread], ?_⟩
  rw [hsent]
  by_cases hmethod : r.method = "textDocument/completion"
  · simp [hmethod]
  · simp [hmethod]

/-- A completion where the document was closed again. -/
theorem completion_warns_behind_close :
    let uri : Uri := ⟨"file:///a", "/a"⟩
    let document : String × Json := ("textDocument", .obj [("uri", .str uri.text)])
    let closed : Message := .notification ⟨"textDocument/didClose", .obj [document]⟩
    let r : Request := ⟨.number 1, "textDocument/completion",
      .obj [document, ("position", .obj [("line", .nat 0), ("character", .nat 0)])]⟩
    let server := (receiveAll ready [.notification (Protocol.opening uri "A = 1;".toList), closed]).1
    Query.read? r.method r.params = some (.completion ⟨uri, ⟨0, 0⟩⟩) ∧ uri.text ∉ server.session.documents.keys ∧
      (server.receive (.request r)).1 = server ∧
      outbox ⟨.warn, true⟩ (server.receive (.request r)).2 = [unindexedWarning uri, .ok r.id .null] := by
  intro uri document closed r server
  have hread : Query.read? r.method r.params = some (.completion ⟨uri, ⟨0, 0⟩⟩) := by decide +kernel
  have hserving : server.stage = .serving :=
    congrArg Server.stage (receiveAll_serving ⟨.warn, true⟩ .empty (by simp [Continues, closed])).1
  have hnot : uri.text ∉ server.session.documents.keys := by decide +kernel
  obtain ⟨hserver, hwarns, _⟩ := unopened_warns_iff .serving
    [.notification (Protocol.opening uri "A = 1;".toList), closed] hread hserving hnot
  exact ⟨hread, hnot, hserver, hwarns.2 rfl⟩

/-- A hover on a document that was never open is answered, and the client is not warned. -/
theorem hover_gives_no_warning :
    let uri : Uri := ⟨"file:///a", "/a"⟩
    let r : Request := ⟨.number 1, "textDocument/hover", .obj [("textDocument", .obj [("uri", .str uri.text)]),
      ("position", .obj [("line", .nat 0), ("character", .nat 0)])]⟩
    let sent := outbox ⟨.warn, true⟩ (ready.receive (.request r)).2
    Query.read? r.method r.params = some (.hover ⟨uri, ⟨0, 0⟩⟩) ∧ uri.text ∉ ready.session.documents.keys ∧
      sent = [.ok r.id .null] ∧ sent ≠ [unindexedWarning uri, .ok r.id .null] := by
  intro uri r sent
  have hread : Query.read? r.method r.params = some (.hover ⟨uri, ⟨0, 0⟩⟩) := by decide +kernel
  have hnot : uri.text ∉ ready.session.documents.keys := List.not_mem_nil
  have hsent : sent = [.ok r.id .null] := outbox_receive_of_not_mem rfl hread Session.agrees_empty hnot
  exact ⟨hread, hnot, hsent, by simp [hsent]⟩

end Server
end GibianeEditor
