/-
A server at work, with a client on one side and a console on the other. What it logs goes through a
filter; what passes is written on the console, and warnings and errors reach the client as well once
the session is set up.
-/
import GibianeEditor.Log.Filter
import GibianeEditor.Session.Outbox

namespace GibianeEditor

open Log (Filter Forwarding)
open Protocol (Message)

structure Service where
  filter : Filter
  server : Server

/-- What leaves a service. -/
inductive Delivery where
  | toClient (message : Message)
  | toConsole (line : String)

namespace Service

/-- A service that has received nothing. -/
def new (filter : Filter) : Service := ⟨filter, .new⟩

/-- What is forwarded to the client. -/
def forwarding (service : Service) : Forwarding := ⟨.warn, service.server.stage.isSetUp⟩

/-- What comes of an emission. -/
def deliver (service : Service) : Emission → List Delivery
  | .message m => [.toClient m]
  | .event e =>
    if service.filter.shows e then
      .toConsole e.consoleText ::
        ((service.forwarding.forward e).map fun n => Delivery.toClient (.notification n)).toList
    else []

/-- The next message. Whether its events reach the client is settled before it. -/
def receive (service : Service) (m : Message) : Service × List Delivery :=
  let (server, emissions) := service.server.receive m
  ({ service with server }, emissions.flatMap service.deliver)

/-- The next messages. -/
def receiveAll : Service → List Message → Service × List Delivery
  | service, [] => (service, [])
  | service, m :: rest =>
    let (service, first) := service.receive m
    let (service, more) := service.receiveAll rest
    (service, first ++ more)

end Service

/-- The messages among deliveries. -/
def Delivery.messages (deliveries : List Delivery) : List Message :=
  deliveries.filterMap fun
    | .toClient m => some m
    | .toConsole _ => none

/-- The console lines among deliveries. -/
def Delivery.lines (deliveries : List Delivery) : List String :=
  deliveries.filterMap fun
    | .toClient _ => none
    | .toConsole line => some line

end GibianeEditor
