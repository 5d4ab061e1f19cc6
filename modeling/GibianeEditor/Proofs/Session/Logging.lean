/-
What is logged leaves the protocol alone. A server brings forth responses and events, none of which are
finer than for debugging (`regular_receive`), and what it does with a message does not hang on what is
forwarded. So a level less forwards what the level above does without the less severe log messages
(`outbox_of_rank_le`), and without the log messages the client gets the same under every forwarding
(`logging_leaves_protocol_alone`). The same holds of a service, whatever its filter shows
(`Service.receiveAll_withoutLog`).
-/
import GibianeEditor.Proofs.Session.Responses
import GibianeEditor.Session.Service

namespace GibianeEditor

open Log (Event Forwarding Level)
open Protocol (Message Notice Place Query Request)

namespace Protocol

/-- Whether a message tells the client what is logged. -/
def Message.isLog : Message → Bool
  | .notification n => n.method == "window/logMessage"
  | _ => false

/-- The number of the type of a log message. -/
def Message.logType? : Message → Option Nat
  | .notification n => if n.method = "window/logMessage" then
      n.params.members?.bind fun members => Json.field? members "type" Json.nat32? else none
  | _ => none

/-- Whether a message is kept where log messages less severe than a level are left out. -/
def Message.upTo (max : Level) (m : Message) : Bool := !m.isLog || m.logType?.any (· ≤ max.messageType)

end Protocol

/-! ## Levels -/

theorem Log.Level.messageType_le_iff {level : Level} (h : level ≠ .trace) (max : Level) :
    level.messageType ≤ max.messageType ↔ level.rank ≤ max.rank := by
  cases level with
  | trace => exact absurd rfl h
  | error | warn | info | debug => cases max <;> decide

theorem Log.Event.isLog_notification (e : Event) : (Message.notification e.notification).isLog = true := rfl

theorem Log.Event.logType?_notification (e : Event) :
    (Message.notification e.notification).logType? = some e.level.messageType := by
  obtain ⟨level, target, message, fields⟩ := e
  cases level <;> rfl

theorem Log.Event.upTo_notification {e : Event} (h : e.level ≠ .trace) (max : Level) :
    (Message.notification e.notification).upTo max = decide (e.level.rank ≤ max.rank) := by
  simp [Message.upTo, isLog_notification, logType?_notification, Log.Level.messageType_le_iff h]

/-! ## What a server brings forth -/

/-- Whether an emission is a response, or an event that is not finer than for debugging. -/
def Emission.Regular : Emission → Prop
  | .message m => m.response?.isSome
  | .event e => e.level ≠ .trace

/-- Whether no event is finer than for debugging. -/
def NoTrace (events : List Event) : Prop := ∀ e ∈ events, e.level ≠ .trace

theorem regular_events {events : List Event} (h : NoTrace events) :
    ∀ emission ∈ events.map Emission.event, emission.Regular := by
  intro emission hmem
  obtain ⟨e, he, rfl⟩ := List.mem_map.1 hmem
  exact h e he

theorem level_asked_ne_trace (query : Query) : (Event.asked query).level ≠ .trace := by
  cases query <;> simp [Event.asked, Event.ofServer]

namespace Session

variable {α : Type} {s : Session}

theorem noTrace_fromTable {uri : Uri} {question : SymbolTable → α} {answer : α → Protocol.Answer × List Event}
    (h : ∀ a, NoTrace (answer a).2) : NoTrace (s.fromTable uri question answer).2 := by
  unfold fromTable
  cases s.index.ask uri.text question with
  | ok a => exact h a
  | error e => simp [NoTrace, Event.unindexed, Event.ofServer]

theorem noTrace_aboutWord {place : Place} {question : SymbolTable → Text → α}
    {answer : Text → Text → Span → α → Protocol.Answer × List Event}
    (h : ∀ text word span a, NoTrace (answer text word span a).2) :
    NoTrace (s.aboutWord place question answer).2 := by
  unfold aboutWord
  cases s.wordAt? place with
  | none => simp [NoTrace]
  | some found => exact noTrace_fromTable (h found.1.text found.2.1 found.2.2)

theorem noTrace_aboutDocument {uri : Uri} {question : SymbolTable → α}
    {answer : Text → α → Protocol.Answer × List Event} (h : ∀ text a, NoTrace (answer text a).2) :
    NoTrace (s.aboutDocument uri question answer).2 := by
  unfold aboutDocument
  cases s.documents.find? uri.text with
  | none => simp [NoTrace]
  | some document => exact noTrace_fromTable (h document.text)

theorem noTrace_reply (query : Query) : NoTrace (s.reply query).2 := by
  cases query with
  | hover place =>
    refine noTrace_aboutWord fun text word span value => ?_
    cases value <;> simp [NoTrace, Event.foundHover, Event.ofServer]
  | definition place =>
    exact noTrace_aboutWord fun text word span targets => by simp [NoTrace, Event.foundDefinitions, Event.ofServer]
  | references place withDeclaration =>
    exact noTrace_aboutWord fun text word span spans => by simp [NoTrace, Event.foundReferences, Event.ofServer]
  | prepareRename place =>
    refine noTrace_aboutWord fun text word span name => ?_
    cases name <;> simp [NoTrace]
  | rename place newName =>
    refine noTrace_aboutWord fun text word span edits => ?_
    cases edits <;> simp [NoTrace, Event.computedEdits, Event.ofServer]
  | completion place =>
    exact noTrace_fromTable fun entries => by simp [NoTrace, Event.completed, Event.ofServer]
  | documentSymbols uri =>
    exact noTrace_aboutDocument fun text entries => by simp [NoTrace, Event.foundSymbols, Event.ofServer]
  | semanticTokens uri =>
    exact noTrace_aboutDocument fun text spans => by simp [NoTrace, Event.highlighted, Event.ofServer]

theorem noTrace_applyChanges (uri : Uri) (t : Text) (changes : List Change) :
    NoTrace (applyChanges uri t changes).2 := by
  induction changes generalizing t with
  | nil => simp [NoTrace, applyChanges]
  | cons change changes ih =>
    unfold applyChanges
    cases change.apply? t with
    | some next => exact ih next
    | none => exact List.forall_mem_cons.2 ⟨by simp [Event.invalidRange, Event.ofServer], ih t⟩

theorem noTrace_note (notice : Notice) : NoTrace (s.note notice).2 := by
  cases notice with
  | opened uri text => simp [NoTrace, note, store, Event.opened, Event.indexed, Event.ofServer]
  | closed uri => simp [NoTrace, note, Event.closed, Event.ofServer]
  | changed uri changes =>
    simp only [note]
    cases s.documents.find? uri.text with
    | none => simp [NoTrace, Event.notOpen, Event.ofServer]
    | some document =>
      refine List.forall_mem_append.2 ⟨noTrace_applyChanges uri document.text changes, ?_⟩
      simp [store, Event.indexed]

end Session

namespace Server

theorem regular_respond (s : Session) (r : Request) : ∀ emission ∈ respond s r, emission.Regular := by
  have hreceived : (Event.received r.method).level ≠ .trace := by simp [Event.received, Event.ofServer]
  cases hread : Query.read? r.method r.params with
  | some query =>
    rw [respond_of_read s hread]
    refine List.forall_mem_append.2 ⟨regular_events ?_, by simp [Emission.Regular, Message.ok, Message.response?]⟩
    exact List.forall_mem_cons.2 ⟨hreceived, List.forall_mem_cons.2 ⟨level_asked_ne_trace query, s.noTrace_reply query⟩⟩
  | none =>
    simp [respond, hread, Emission.Regular, Event.received, Event.unhandled, Event.ofServer, Message.failed,
      Message.response?]

theorem regular_greet (s : Session) (m : Message) : ∀ emission ∈ (greet s m).2, emission.Regular := by
  cases m with
  | request r =>
    simp only [greet]
    split <;> simp [Emission.Regular, Message.ok, Message.failed, Message.response?]
  | response r => simp [greet]
  | notification n =>
    simp only [greet]
    split <;> simp

theorem regular_setUp (s : Session) (params : Json) (m : Message) :
    ∀ emission ∈ (setUp s params m).2, emission.Regular := by
  cases m with
  | request r => simp [setUp]
  | response r => simp [setUp]
  | notification n =>
    simp only [setUp]
    split
    · split <;> simp [Emission.Regular, Event.initialized, Event.ofServer]
    · simp

theorem regular_serve (s : Session) (m : Message) : ∀ emission ∈ (serve s m).2, emission.Regular := by
  cases m with
  | request r =>
    simp only [serve]
    split
    · simp [Emission.Regular, Message.ok, Message.response?]
    · exact regular_respond s r
  | response r => simp [serve]
  | notification n =>
    simp only [serve]
    cases Notice.read? n.method n.params with
    | none => simp
    | some notice => exact regular_events (s.noTrace_note notice)

/-- **Step.** Whatever a server receives, it brings forth responses and events that are not finer than for
debugging. -/
theorem regular_receive (server : Server) (m : Message) : ∀ emission ∈ (server.receive m).2, emission.Regular := by
  obtain ⟨stage, s⟩ := server
  cases stage with
  | waiting => exact regular_greet s m
  | greeted params => exact regular_setUp s params m
  | serving => exact regular_serve s m
  | closing => simp [receive]
  | ended ending => simp [receive]

end Server

/-! ## What the client gets -/

/-- The message that an emission is. -/
def Emission.message? : Emission → Option Message
  | .message m => some m
  | .event _ => none

theorem Emission.isLog_of_regular {m : Message} (h : (Emission.message m).Regular) : m.isLog = false := by
  cases m with
  | response r => rfl
  | request r => cases h
  | notification n => cases h

theorem outbox_message (forwarding : Forwarding) (m : Message) (emissions : List Emission) :
    outbox forwarding (.message m :: emissions) = m :: outbox forwarding emissions := rfl

theorem outbox_event (forwarding : Forwarding) (e : Event) (emissions : List Emission) :
    outbox forwarding (.event e :: emissions) =
      if forwarding.passes e then .notification e.notification :: outbox forwarding emissions
      else outbox forwarding emissions := by
  rw [outbox, List.filterMap_cons, Emission.toClient?, Forwarding.forward]
  cases forwarding.passes e with
  | true => rfl
  | false => rfl

section

variable {emissions : List Emission} (h : ∀ emission ∈ emissions, emission.Regular)
include h

theorem outbox_withoutLog (forwarding : Forwarding) :
    (outbox forwarding emissions).filter (!·.isLog) = emissions.filterMap Emission.message? := by
  induction emissions with
  | nil => rfl
  | cons emission emissions ih =>
    obtain ⟨hfirst, hrest⟩ := List.forall_mem_cons.1 h
    cases emission with
    | message m =>
      rw [outbox_message, List.filter_cons_of_pos (by simp [Emission.isLog_of_regular hfirst]), ih hrest]
      exact (List.filterMap_cons_some (f := Emission.message?) rfl).symm
    | event e =>
      rw [outbox_event, List.filterMap_cons_none rfl, ← ih hrest]
      split
      · exact List.filter_cons_of_neg (by simp [Log.Event.isLog_notification])
      · rfl

theorem outbox_of_off {forwarding : Forwarding} (hoff : forwarding.on = false) :
    outbox forwarding emissions = (outbox forwarding emissions).filter (!·.isLog) := by
  rw [outbox_withoutLog h]
  refine List.filterMap_congr fun emission _ => ?_
  cases emission with
  | message m => rfl
  | event e => simp [Emission.toClient?, Emission.message?, Forwarding.forward, Forwarding.passes, hoff]

/-- At a less verbose level the client gets what it gets at a more verbose one, without the log messages that
are less severe. -/
theorem outbox_of_rank_le {max upper : Level} (hle : max.rank ≤ upper.rank) :
    outbox ⟨max, true⟩ emissions = (outbox ⟨upper, true⟩ emissions).filter (·.upTo max) := by
  induction emissions with
  | nil => rfl
  | cons emission emissions ih =>
    obtain ⟨hfirst, hrest⟩ := List.forall_mem_cons.1 h
    have ih := ih hrest
    cases emission with
    | message m =>
      rw [outbox_message, outbox_message, ih,
        List.filter_cons_of_pos (by simp [Message.upTo, Emission.isLog_of_regular hfirst])]
    | event e =>
      have hkept := Log.Event.upTo_notification hfirst max
      rw [outbox_event, outbox_event, ih]
      by_cases hmax : e.level.rank ≤ max.rank
      · have hupper : e.level.rank ≤ upper.rank := by omega
        simp [Forwarding.passes, hmax, hupper, hkept]
      · by_cases hupper : e.level.rank ≤ upper.rank
        · simp [Forwarding.passes, hmax, hupper, hkept]
        · simp [Forwarding.passes, hmax, hupper]

end

/-! ## Runs -/

/-- What a message leads to: the session behind it, and what the client gets. -/
structure Step where
  session : Session
  toClient : List Message

/-- A step without its log messages. -/
def Step.withoutLog (step : Step) : Step := { step with toClient := step.toClient.filter (!·.isLog) }

/-- A step without the log messages that are less severe than a level. -/
def Step.upTo (max : Level) (step : Step) : Step := { step with toClient := step.toClient.filter (·.upTo max) }

namespace Server

/-- The steps of a server under a forwarding, message by message. -/
def steps (forwarding : Forwarding) : Server → List Message → List Step
  | _, [] => []
  | server, m :: ms =>
    ⟨(server.receive m).1.session, outbox forwarding (server.receive m).2⟩ :: steps forwarding (server.receive m).1 ms

/-- What the client gets step by step is what it gets of the run. -/
theorem flatMap_toClient_steps (forwarding : Forwarding) (server : Server) (ms : List Message) :
    (server.steps forwarding ms).flatMap Step.toClient = outbox forwarding (server.receiveAll ms).2 := by
  induction ms generalizing server with
  | nil => rfl
  | cons m ms ih => simp only [steps, List.flatMap_cons, ih, receiveAll, outbox_append]

/-- Steps that agree on every list of regular emissions agree on every run. -/
theorem map_steps_eq {β : Type} {f g : Forwarding} {φ ψ : Step → β}
    (h : ∀ session emissions, (∀ emission ∈ emissions, emission.Regular) →
      φ ⟨session, outbox f emissions⟩ = ψ ⟨session, outbox g emissions⟩) (server : Server) (ms : List Message) :
    (server.steps f ms).map φ = (server.steps g ms).map ψ := by
  induction ms generalizing server with
  | nil => rfl
  | cons m ms ih => simp only [steps, List.map_cons, ih, h _ _ (server.regular_receive m)]

/-- **Logging does not influence the protocol.** Step by step, under any two forwardings every message leads to
the same session, and to the same messages for the client but for the log messages. Where nothing is forwarded
there is no log message; and at a level the client gets what it gets at a more verbose one, in the same order,
without the log messages that are less severe than the level. -/
theorem logging_leaves_protocol_alone (server : Server) (ms : List Message) :
    (∀ f : Forwarding, (server.steps f ms).flatMap Step.toClient = outbox f (server.receiveAll ms).2) ∧
    (∀ f g : Forwarding, (server.steps f ms).map Step.withoutLog = (server.steps g ms).map Step.withoutLog) ∧
    (∀ f : Forwarding, f.on = false → ∀ step ∈ server.steps f ms, ∀ m ∈ step.toClient, m.isLog = false) ∧
    (∀ max upper : Level, max.rank ≤ upper.rank →
      server.steps ⟨max, true⟩ ms = (server.steps ⟨upper, true⟩ ms).map (Step.upTo max)) := by
  refine ⟨fun f => flatMap_toClient_steps f server ms, fun f g => map_steps_eq (fun session emissions h => ?_) server ms,
    fun f hoff step hstep m hm => ?_, fun max upper hle => ?_⟩
  · rw [Step.withoutLog, Step.withoutLog, outbox_withoutLog h f, outbox_withoutLog h g]
  · have hsame := map_steps_eq (f := f) (g := f) (φ := id) (ψ := Step.withoutLog)
      (fun session emissions h => by rw [Step.withoutLog, ← outbox_of_off h hoff]; rfl) server ms
    rw [List.map_id] at hsame
    rw [hsame] at hstep
    obtain ⟨whole, _, rfl⟩ := List.mem_map.1 hstep
    simpa using List.of_mem_filter hm
  · have hless := map_steps_eq (f := ⟨max, true⟩) (g := ⟨upper, true⟩) (φ := id) (ψ := Step.upTo max)
      (fun session emissions h => by rw [Step.upTo, ← outbox_of_rank_le h hle]; rfl) server ms
    rwa [List.map_id] at hless

/-- A document that is opened, and a question about one that is not, with what is logged of them for debugging,
at the level of warnings, and not at all. -/
theorem logging_of_two_documents :
    let opened : Message := .notification (Protocol.opening ⟨"file:///a", "/a"⟩ "A = 1;".toList)
    let asked : Message := .request ⟨.number 1, "textDocument/completion",
      .obj [("textDocument", .obj [("uri", .str "file:///b")]),
        ("position", .obj [("line", .nat 0), ("character", .nat 0)])]⟩
    let types := fun f => (ready.steps f [opened, asked]).map fun step => step.toClient.map Message.logType?
    types ⟨.debug, true⟩ = [[some 3, some 4], [some 4, some 4, some 2, none]] ∧
      types ⟨.warn, true⟩ = [[], [some 2, none]] ∧ types ⟨.warn, false⟩ = [[], [none]] ∧
      (ready.steps ⟨.debug, true⟩ [opened, asked]).map Step.withoutLog =
        (ready.steps ⟨.warn, false⟩ [opened, asked]).map Step.withoutLog ∧
      (∀ step ∈ ready.steps ⟨.warn, false⟩ [opened, asked], ∀ m ∈ step.toClient, m.isLog = false) ∧
      ready.steps ⟨.warn, true⟩ [opened, asked] =
        (ready.steps ⟨.debug, true⟩ [opened, asked]).map (Step.upTo .warn) := by
  intro opened asked types
  obtain ⟨_, hprotocol, hoff, hlevel⟩ := logging_leaves_protocol_alone ready [opened, asked]
  exact ⟨by decide +kernel, by decide +kernel, by decide +kernel, hprotocol _ _, hoff _ rfl,
    hlevel .warn .debug (by decide)⟩

end Server

/-! ## Services -/

namespace Service

theorem messages_deliver {emission : Emission} (h : emission.Regular) (service : Service) :
    (Delivery.messages (service.deliver emission)).filter (!·.isLog) = emission.message?.toList := by
  cases emission with
  | message m => simp [deliver, Delivery.messages, Emission.message?, Emission.isLog_of_regular h]
  | event e =>
    simp only [deliver, Forwarding.forward]
    split
    · split
      · simp [Delivery.messages, Emission.message?, Log.Event.isLog_notification]
      · rfl
    · rfl

theorem messages_flatMap_deliver {emissions : List Emission} (h : ∀ emission ∈ emissions, emission.Regular)
    (service : Service) :
    (Delivery.messages (emissions.flatMap service.deliver)).filter (!·.isLog) = emissions.filterMap Emission.message? := by
  induction emissions with
  | nil => rfl
  | cons emission emissions ih =>
    obtain ⟨hfirst, hrest⟩ := List.forall_mem_cons.1 h
    have hone := messages_deliver hfirst service
    have hmore := ih hrest
    simp only [Delivery.messages] at hone hmore ⊢
    rw [List.flatMap_cons, List.filterMap_append, List.filter_append, hone, hmore]
    cases emission <;> rfl

/-- **What a service filters leaves the protocol alone.** Under every filter for the console and the client, the
server of a service goes through the messages as it does by itself, and the client gets the messages that the
server brings forth, but for log messages. -/
theorem receiveAll_withoutLog (service : Service) (ms : List Message) :
    (service.receiveAll ms).1 = { service with server := (service.server.receiveAll ms).1 } ∧
      (Delivery.messages (service.receiveAll ms).2).filter (!·.isLog) =
        (service.server.receiveAll ms).2.filterMap Emission.message? := by
  induction ms generalizing service with
  | nil => exact ⟨rfl, rfl⟩
  | cons m ms ih =>
    obtain ⟨hend, hmore⟩ := ih (service.receive m).1
    have hfirst := messages_flatMap_deliver (service.server.regular_receive m) service
    refine ⟨hend, ?_⟩
    simp only [Delivery.messages] at hfirst hmore
    simp only [receiveAll, Server.receiveAll, Delivery.messages, List.filterMap_append, List.filter_append]
    exact congrArg₂ (· ++ ·) hfirst hmore

end Service
end GibianeEditor
