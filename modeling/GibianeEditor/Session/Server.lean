/-
A server from its first message to its last. It waits for `initialize`, answers it and waits for
`initialized`; then it serves, until `shutdown` is asked for, after which `exit` has to come. What it
sends and what it logs come out in one sequence, in the order in which they happen.
-/
import GibianeEditor.Session.Reply

namespace GibianeEditor

open Log (Event)
open Protocol (Message Notice Query Request Response)

/-- What a server brings forth. -/
inductive Emission where
  | event (event : Event)
  | message (message : Message)

/-- How a server ends. -/
inductive Ending where
  /-- As asked for. -/
  | shutdown
  /-- There was no message any more before the session was set up. -/
  | disconnected
  /-- There was no message any more while serving. -/
  | inputEnded
  /-- There was no message any more where `exit` had to come. -/
  | noExit
  | expectedInitialize (got : Message)
  | expectedInitialized (got : Message)
  | badParameters (error : Protocol.InitializeError)
  | unexpectedAfterShutdown (got : Message)

/-- The text of an ending that was not asked for. -/
def Ending.error? : Ending → Option String
  | .shutdown => none
  | .disconnected => some "disconnected channel"
  | .inputEnded => some "receiving on an empty and disconnected channel"
  | .noExit => some "channel disconnected waiting for exit notification"
  | .expectedInitialize got => some ("expected initialize request, got " ++ got.describe)
  | .expectedInitialized got => some ("expected initialized notification, got: " ++ got.describe)
  | .badParameters error => some error.message
  | .unexpectedAfterShutdown got => some ("unexpected message during shutdown: " ++ got.describe)

/-- Where a server stands. -/
inductive Stage where
  /-- Before `initialize`. -/
  | waiting
  /-- Before `initialized`; the parameters of `initialize` are read only then. -/
  | greeted (params : Json)
  | serving
  /-- Before `exit`. -/
  | closing
  | ended (ending : Ending)

/-- How a server ends whose messages run out. -/
def Stage.atEnd : Stage → Ending
  | .waiting | .greeted _ => .disconnected
  | .serving => .inputEnded
  | .closing => .noExit
  | .ended ending => ending

/-- Whether the session is set up. -/
def Stage.isSetUp : Stage → Bool
  | .serving | .closing => true
  | _ => false

structure Server where
  stage : Stage
  session : Session

namespace Server

/-- A server that has received nothing. -/
def new : Server := ⟨.waiting, .empty⟩

/-- A server with a session that is set up and has no documents. -/
def ready : Server := ⟨.serving, .empty⟩

/-- The code of a request before `initialize`. -/
def notInitialized : Int := -32002

/-- The code of a request that is unknown or unreadable. -/
def methodNotFound : Int := -32601

/-- The response to a request, with what is logged before it is sent. -/
def respond (s : Session) (r : Request) : List Emission :=
  .event (.received r.method) ::
    match Query.read? r.method r.params with
    | some query =>
      let (answer, events) := s.reply query
      (.asked query :: events).map .event ++ [.message (.ok r.id answer.toJson)]
    | none =>
      [.event (.unhandled r.method),
        .message (.failed r.id methodNotFound ("unhandled method: " ++ r.method))]

/-- A server that serves, with the next message. -/
def serve (s : Session) : Message → Server × List Emission
  | .request r =>
    if r.method = "shutdown" then (⟨.closing, s⟩, [.message (.ok r.id .null)])
    else (⟨.serving, s⟩, respond s r)
  | .response _ => (⟨.serving, s⟩, [])
  | .notification n =>
    match Notice.read? n.method n.params with
    | some notice =>
      let (s, events) := s.note notice
      (⟨.serving, s⟩, events.map .event)
    | none => (⟨.serving, s⟩, [])

/-- A server that waits for `initialize`, with the next message. -/
def greet (s : Session) : Message → Server × List Emission
  | .request r =>
    if r.method = "initialize" then
      (⟨.greeted r.params, s⟩, [.message (.ok r.id (.obj [("capabilities", Protocol.capabilities)]))])
    else
      (⟨.waiting, s⟩,
        [.message (.failed r.id notInitialized ("expected initialize request, got " ++ r.describe))])
  | .notification n =>
    if n.method = "exit" then (⟨.ended (.expectedInitialize (.notification n)), s⟩, []) else (⟨.waiting, s⟩, [])
  | m => (⟨.ended (.expectedInitialize m), s⟩, [])

/-- A server that waits for `initialized`, with the next message. -/
def setUp (s : Session) (params : Json) : Message → Server × List Emission
  | .notification n =>
    if n.method = "initialized" then
      match Protocol.readInitialize params with
      | .ok none => (⟨.serving, s⟩, [])
      | .ok (some client) => (⟨.serving, s⟩, [.event (.initialized client)])
      | .error e => (⟨.ended (.badParameters e), s⟩, [])
    else (⟨.ended (.expectedInitialized (.notification n)), s⟩, [])
  | m => (⟨.ended (.expectedInitialized m), s⟩, [])

/-- A server that waits for `exit`, with the next message. -/
def close (s : Session) : Message → Server
  | .notification n =>
    if n.method = "exit" then ⟨.ended .shutdown, s⟩
    else ⟨.ended (.unexpectedAfterShutdown (.notification n)), s⟩
  | m => ⟨.ended (.unexpectedAfterShutdown m), s⟩

/-- The next message. One that comes behind the end means nothing. -/
def receive (server : Server) (m : Message) : Server × List Emission :=
  match server.stage with
  | .waiting => greet server.session m
  | .greeted params => setUp server.session params m
  | .serving => serve server.session m
  | .closing => (close server.session m, [])
  | .ended _ => (server, [])

/-- The next messages. -/
def receiveAll : Server → List Message → Server × List Emission
  | server, [] => (server, [])
  | server, m :: rest =>
    let (server, first) := server.receive m
    let (server, more) := server.receiveAll rest
    (server, first ++ more)

/-- How a server ends after its last message. -/
def ending (server : Server) : Ending := server.stage.atEnd

end Server
end GibianeEditor
