/-
What a server sends back. A message to a server that serves leaves the session as it is unless it is a
notice, and is answered exactly if it is a request (`serve_session`, `serve_responses`). A run is made
of such steps up to the first request to shut down, which is the last one answered; the message behind
it ends the run, well or badly, and what comes behind that is not looked at
(`requests_answered_in_order`).
-/
import GibianeEditor.Proofs.Session.Isolation
import GibianeEditor.Session.Outbox

namespace GibianeEditor

open Log (Forwarding)
open Protocol (Message Notice Query Request Response)

namespace Protocol

/-! ## Sorts of messages -/

def Message.request? : Message → Option Request
  | .request r => some r
  | _ => none

def Message.response? : Message → Option Response
  | .response r => some r
  | _ => none

/-- The notice that a message gives. -/
def Message.notice? : Message → Option Notice
  | .notification n => Notice.read? n.method n.params
  | _ => none

/-- The methods of the questions. -/
def Query.methods : List String :=
  ["textDocument/hover", "textDocument/definition", "textDocument/references", "textDocument/prepareRename",
    "textDocument/rename", "textDocument/completion", "textDocument/documentSymbol",
    "textDocument/semanticTokens/full"]

/-- The method that asks a question. -/
def Query.method : Query → String
  | .hover _ => "textDocument/hover"
  | .definition _ => "textDocument/definition"
  | .references _ _ => "textDocument/references"
  | .prepareRename _ => "textDocument/prepareRename"
  | .rename _ _ => "textDocument/rename"
  | .completion _ => "textDocument/completion"
  | .documentSymbols _ => "textDocument/documentSymbol"
  | .semanticTokens _ => "textDocument/semanticTokens/full"

theorem Query.method_of_read? {method : String} {params : Json} {query : Query}
    (h : read? method params = some query) : query.method = method := by
  unfold Query.read? at h
  split at h <;> simp only [Option.bind_eq_bind, Option.bind_eq_some_iff, Option.some.injEq, reduceCtorEq] at h
  all_goals grind [Query.method]

theorem Query.method_mem_methods (query : Query) : query.method ∈ methods := by
  cases query <;> simp [method, methods]

theorem Query.read?_of_unknown {method : String} (h : method ∉ methods) (params : Json) :
    read? method params = none := by
  cases hread : read? method params with
  | none => rfl
  | some query =>
    rw [← method_of_read? hread] at h
    exact absurd query.method_mem_methods h

/-- Whether a response answers a request: it has the identifier of the request; it gives a result if the
request is a question, and an error if the method is that of no question or the parameters cannot be
read. -/
structure Answers (r : Request) (response : Response) : Prop where
  id : response.id = r.id
  result : ∀ query, Query.read? r.method r.params = some query →
    response.error = none ∧ ∃ result, response.result = some result
  error : r.method ∉ Query.methods ∨ Query.read? r.method r.params = none →
    response.result = none ∧ response.error = some ⟨-32601, "unhandled method: " ++ r.method, none⟩

end Protocol

open Protocol (Answers)

/-- The responses among what the client gets. -/
def responses (forwarding : Forwarding) (emissions : List Emission) : List Response :=
  (outbox forwarding emissions).filterMap Message.response?

section

variable (forwarding : Forwarding)

theorem outbox_append (es fs : List Emission) :
    outbox forwarding (es ++ fs) = outbox forwarding es ++ outbox forwarding fs :=
  List.filterMap_append

theorem responses_append (es fs : List Emission) :
    responses forwarding (es ++ fs) = responses forwarding es ++ responses forwarding fs := by
  rw [responses, outbox_append, List.filterMap_append, responses, responses]

/-- What is logged is no response, whether it is forwarded or not. -/
theorem responses_events (events : List Log.Event) : responses forwarding (events.map .event) = [] := by
  induction events with
  | nil => rfl
  | cons e events ih =>
    rw [List.map_cons, ← List.singleton_append, responses_append, ih, List.append_nil]
    simp only [responses, outbox, Emission.toClient?, List.filterMap_cons, List.filterMap_nil]
    cases forwarding.forward e with
    | none => rfl
    | some n => rfl

end

namespace Server

/-! ## One message -/

/-- What is logged comes before the response. -/
theorem respond_of_read (s : Session) {r : Request} {query : Query} (h : Query.read? r.method r.params = some query) :
    respond s r = (Log.Event.received r.method :: .asked query :: (s.reply query).2).map .event ++
      [.message (.ok r.id (s.reply query).1.toJson)] := by
  simp only [respond, h]
  rfl

/-- A request has one response, which answers it. -/
theorem answers_respond (forwarding : Forwarding) (s : Session) (r : Request) :
    ∃ response, responses forwarding (respond s r) = [response] ∧ Answers r response := by
  cases hread : Query.read? r.method r.params with
  | some query =>
    refine ⟨⟨r.id, some (s.reply query).1.toJson, none⟩, ?_, rfl, fun _ _ => ⟨rfl, _, rfl⟩, fun h => ?_⟩
    · rw [respond_of_read s hread, responses_append, responses_events]
      rfl
    · rcases h with h | h
      · rw [Query.read?_of_unknown h] at hread
        cases hread
      · rw [hread] at h
        cases h
  | none =>
    refine ⟨⟨r.id, none, some ⟨methodNotFound, "unhandled method: " ++ r.method, none⟩⟩, ?_, rfl, fun _ h => ?_,
      fun _ => ⟨rfl, rfl⟩⟩
    · have hevents : respond s r = [Log.Event.received r.method, .unhandled r.method].map .event ++
          [.message (.failed r.id methodNotFound ("unhandled method: " ++ r.method))] := by
        simp only [respond, hread]
        rfl
      rw [hevents, responses_append, responses_events]
      rfl
    · rw [hread] at h
      cases h

instance : DecidablePred Continues := fun m =>
  match m with
  | .request r => inferInstanceAs (Decidable (r.method ≠ "shutdown"))
  | .response _ | .notification _ => inferInstanceAs (Decidable True)

variable {m : Message}

theorem serve_session (s : Session) (h : Continues m) :
    (serve s m).1 = ⟨.serving, s.noteAll m.notice?.toList⟩ := by
  rw [serve_continues s h]
  congr 1
  cases m with
  | request r => simp only [serve, if_neg (show r.method ≠ "shutdown" from h)]; rfl
  | response r => rfl
  | notification n =>
    simp only [serve, Message.notice?]
    cases Notice.read? n.method n.params with
    | none => rfl
    | some notice => rfl

theorem serve_responses (forwarding : Forwarding) (s : Session) (h : Continues m) :
    List.Forall₂ Answers m.request?.toList (responses forwarding (serve s m).2) := by
  cases m with
  | request r =>
    obtain ⟨response, hone, hanswers⟩ := answers_respond forwarding s r
    simp only [serve, if_neg (show r.method ≠ "shutdown" from h), hone]
    exact .cons hanswers .nil
  | response r => exact .nil
  | notification n =>
    have hnone : responses forwarding (serve s (.notification n)).2 = [] := by
      simp only [serve]
      cases Notice.read? n.method n.params with
      | none => rfl
      | some notice => exact responses_events forwarding _
    rw [hnone]
    exact .nil

/-! ## Runs -/

theorem receiveAll_append (server : Server) (ms ns : List Message) :
    server.receiveAll (ms ++ ns) =
      (((server.receiveAll ms).1.receiveAll ns).1,
        (server.receiveAll ms).2 ++ ((server.receiveAll ms).1.receiveAll ns).2) := by
  induction ms generalizing server with
  | nil => rfl
  | cons m ms ih => simp only [List.cons_append, receiveAll, ih, List.append_assoc]

theorem receiveAll_ended (ending : Ending) (s : Session) (ms : List Message) :
    receiveAll ⟨.ended ending, s⟩ ms = (⟨.ended ending, s⟩, []) := by
  induction ms with
  | nil => rfl
  | cons m ms ih => simp only [receiveAll, receive, ih, List.append_nil]

/-- As long as it is not shut down a server serves, its session is what the notices make of it, and it
answers the requests. -/
theorem receiveAll_serving (forwarding : Forwarding) (s : Session) {ms : List Message} (h : ∀ m ∈ ms, Continues m) :
    (receiveAll ⟨.serving, s⟩ ms).1 = ⟨.serving, s.noteAll (ms.filterMap Message.notice?)⟩ ∧
      List.Forall₂ Answers (ms.filterMap Message.request?) (responses forwarding (receiveAll ⟨.serving, s⟩ ms).2) := by
  induction ms generalizing s with
  | nil => exact ⟨rfl, .nil⟩
  | cons m ms ih =>
    have hm : Continues m := h m List.mem_cons_self
    obtain ⟨hserver, hanswers⟩ := ih (s.noteAll m.notice?.toList) fun m hm => h m (List.mem_cons_of_mem _ hm)
    have hstep : (receive ⟨.serving, s⟩ m).1 = ⟨.serving, s.noteAll m.notice?.toList⟩ := serve_session s hm
    have hfirst : List.Forall₂ Answers m.request?.toList (responses forwarding (receive ⟨.serving, s⟩ m).2) :=
      serve_responses forwarding s hm
    simp only [receiveAll, hstep, hserver, responses_append]
    constructor
    · cases hnotice : m.notice? with
      | none => rw [List.filterMap_cons_none hnotice]; rfl
      | some notice => rw [List.filterMap_cons_some hnotice]; rfl
    · have hboth := List.rel_append hfirst hanswers
      cases hrequest : m.request? with
      | none => rw [List.filterMap_cons_none hrequest]; rwa [hrequest] at hboth
      | some r => rw [List.filterMap_cons_some hrequest]; rwa [hrequest] at hboth

/-- The messages before the first request to shut down. -/
def beforeShutdown (ms : List Message) : List Message := ms.takeWhile (Continues ·)

/-- The first request to shut down with what comes behind it. -/
def fromShutdown (ms : List Message) : List Message := ms.dropWhile (Continues ·)

theorem beforeShutdown_append_fromShutdown (ms : List Message) : beforeShutdown ms ++ fromShutdown ms = ms :=
  List.takeWhile_append_dropWhile

theorem continues_of_mem_beforeShutdown {ms : List Message} (h : m ∈ beforeShutdown ms) : Continues m := by
  simpa using List.mem_takeWhile_imp h

theorem fromShutdown_cases (ms : List Message) :
    fromShutdown ms = [] ∨ ∃ r rest, fromShutdown ms = .request r :: rest ∧ r.method = "shutdown" := by
  have hstop := List.head?_dropWhile_not (fun m => decide (Continues m)) ms
  rw [← fromShutdown] at hstop
  cases hms : fromShutdown ms with
  | nil => exact .inl rfl
  | cons m rest =>
    rw [hms] at hstop
    have hm : ¬Continues m := by simpa using hstop
    cases m with
    | request r => exact .inr ⟨r, rest, rfl, by simpa [Continues] using hm⟩
    | response r => exact absurd trivial hm
    | notification n => exact absurd trivial hm

/-- Only what comes before a request to shut down is settled by the messages it is cut from. -/
theorem beforeShutdown_append {before : List Message} (h : ∀ m ∈ before, Continues m) {r : Request}
    (hr : r.method = "shutdown") (rest : List Message) :
    beforeShutdown (before ++ .request r :: rest) = before ∧
      fromShutdown (before ++ .request r :: rest) = .request r :: rest := by
  let continues (m : Message) : Bool := decide (Continues m)
  have hkeep : ∀ m ∈ before, continues m = true := fun m hm => decide_eq_true (h m hm)
  have hstop : ¬continues (.request r) = true := by simp [continues, Continues, hr]
  constructor
  · change (before ++ .request r :: rest).takeWhile continues = before
    rw [List.takeWhile_append_of_pos hkeep, List.takeWhile_cons_of_neg hstop, List.append_nil]
  · change (before ++ .request r :: rest).dropWhile continues = .request r :: rest
    rw [List.dropWhile_append_of_pos hkeep, List.dropWhile_cons_of_neg hstop]

/-- A request to shut down is answered with nothing, and of what follows only the first message counts. -/
theorem receiveAll_shutdown (s : Session) {r : Request} (h : r.method = "shutdown") (rest : List Message) :
    receiveAll ⟨.serving, s⟩ (.request r :: rest) =
      (match rest with
        | [] => ⟨.closing, s⟩
        | m :: _ => close s m, [.message (.ok r.id .null)]) := by
  have hr : receive ⟨.serving, s⟩ (.request r) = (⟨.closing, s⟩, [.message (.ok r.id .null)]) := by
    simp only [receive, serve, if_pos h]
  cases rest with
  | nil => simp only [receiveAll, hr, List.append_nil]
  | cons m rest =>
    obtain ⟨ending, hclose⟩ := exists_close_eq s m
    have hm : receive ⟨.closing, s⟩ m = (⟨.ended ending, s⟩, []) := by rw [← hclose]; rfl
    simp only [receiveAll, hr, hm, receiveAll_ended, hclose, List.append_nil]

/-- Shutting down leaves the session as it is. -/
theorem receiveAll_fromShutdown_session (s : Session) (ms : List Message) :
    (receiveAll ⟨.serving, s⟩ (fromShutdown ms)).1.session = s := by
  rcases fromShutdown_cases ms with hnil | ⟨r, rest, hfrom, hr⟩
  · rw [hnil]
    rfl
  · rw [hfrom, receiveAll_shutdown s hr]
    cases rest with
    | nil => rfl
    | cons m rest =>
      obtain ⟨ending, hclose⟩ := exists_close_eq s m
      simp only [hclose]

/-- What is served leaves the session that its notices make, and the rest goes on from there. -/
theorem receiveAll_beforeShutdown_append (ms rest : List Message) :
    let s := Session.noteAll .empty ((beforeShutdown ms).filterMap Message.notice?)
    ready.receiveAll (beforeShutdown ms ++ rest) =
      ((receiveAll ⟨.serving, s⟩ rest).1,
        (ready.receiveAll (beforeShutdown ms)).2 ++ (receiveAll ⟨.serving, s⟩ rest).2) := by
  intro s
  have hs : (ready.receiveAll (beforeShutdown ms)).1 = ⟨.serving, s⟩ :=
    (receiveAll_serving ⟨.error, false⟩ .empty fun _ => continues_of_mem_beforeShutdown).1
  rw [receiveAll_append, hs]

theorem receiveAll_ready (ms : List Message) :
    let s := Session.noteAll .empty ((beforeShutdown ms).filterMap Message.notice?)
    ready.receiveAll ms =
      ((receiveAll ⟨.serving, s⟩ (fromShutdown ms)).1,
        (ready.receiveAll (beforeShutdown ms)).2 ++ (receiveAll ⟨.serving, s⟩ (fromShutdown ms)).2) := by
  intro s
  have hsplit := receiveAll_beforeShutdown_append ms (fromShutdown ms)
  rwa [beforeShutdown_append_fromShutdown] at hsplit

theorem receive_request_session (server : Server) (r : Request) :
    (server.receive (.request r)).1.session = server.session := by
  rcases receive_session server (.request r) with hsame | ⟨n, notice, hm, _⟩
  · exact hsame
  · cases hm

/-- A run ends well exactly if `exit` comes right behind the first request to shut down. -/
theorem error?_ending_eq_none_iff (ms : List Message) :
    (ready.receiveAll ms).1.ending.error? = none ↔
      ∃ before r n rest, ms = before ++ .request r :: .notification n :: rest ∧ (∀ m ∈ before, Continues m) ∧
        r.method = "shutdown" ∧ n.method = "exit" := by
  rw [receiveAll_ready ms]
  constructor
  · intro h
    have hms := beforeShutdown_append_fromShutdown ms
    rcases fromShutdown_cases ms with hnil | ⟨r, rest, hfrom, hr⟩
    · rw [hnil] at h
      cases h
    · rw [hfrom, receiveAll_shutdown _ hr] at h
      rw [hfrom] at hms
      cases rest with
      | nil => cases h
      | cons m rest =>
        cases m with
        | request r' => cases h
        | response r' => cases h
        | notification n =>
          refine ⟨beforeShutdown ms, r, n, rest, hms.symm, fun m => continues_of_mem_beforeShutdown, hr, ?_⟩
          by_contra hn
          simp only [close, if_neg hn] at h
          cases h
  · rintro ⟨before, r, n, rest, rfl, hbefore, hr, hn⟩
    rw [(beforeShutdown_append hbefore hr _).2, receiveAll_shutdown _ hr]
    simp only [close, if_pos hn]
    rfl

/-- **Every request has one response, and only notices change the session.** Of the messages that a
server receives it serves those before the first request to shut down. It answers the requests among
them in their order, then the one to shut down, and nothing else; its session is what the notices
among them make of an empty one. Of what comes behind that request only the first message counts, and
the run ends well exactly if that is `exit`. -/
theorem requests_answered_in_order (forwarding : Forwarding) (ms : List Message) :
    let run := ready.receiveAll ms
    let served := beforeShutdown ms
    (∃ answers, List.Forall₂ Answers (served.filterMap Message.request?) answers ∧
      responses forwarding run.2 =
        answers ++ ((fromShutdown ms).head?.bind Message.request?).toList.map fun r => ⟨r.id, some .null, none⟩) ∧
    (∀ (server : Server) (r : Request), (server.receive (.request r)).1.session = server.session) ∧
    run.1.session = Session.noteAll .empty (served.filterMap Message.notice?) ∧
    run = ready.receiveAll (served ++ (fromShutdown ms).take 2) ∧
    (run.1.ending.error? = none ↔
      ∃ before r n rest, ms = before ++ .request r :: .notification n :: rest ∧ (∀ m ∈ before, Continues m) ∧
        r.method = "shutdown" ∧ n.method = "exit") := by
  intro run served
  have hrun : run = _ := receiveAll_ready ms
  have hcontinues : ∀ m ∈ served, Continues m := fun _ => continues_of_mem_beforeShutdown
  have hanswers := (receiveAll_serving forwarding .empty hcontinues).2
  refine ⟨⟨_, hanswers, ?_⟩, receive_request_session, ?_, ?_, error?_ending_eq_none_iff ms⟩
  · rw [hrun, responses_append]
    rcases fromShutdown_cases ms with hnil | ⟨r, rest, hfrom, hr⟩
    · rw [hnil]
      rfl
    · rw [hfrom, receiveAll_shutdown _ hr]
      rfl
  · rw [hrun]
    exact receiveAll_fromShutdown_session _ ms
  · rw [hrun, receiveAll_beforeShutdown_append ms]
    rcases fromShutdown_cases ms with hnil | ⟨r, rest, hfrom, hr⟩
    · rw [hnil]
      rfl
    · rw [hfrom, List.take_succ_cons, receiveAll_shutdown _ hr, receiveAll_shutdown _ hr]
      cases rest with
      | nil => rfl
      | cons m rest => rfl

end Server
end GibianeEditor
