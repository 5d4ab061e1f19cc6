/-
What reaches the client: the messages of a server, and between them the events that are forwarded.
-/
import GibianeEditor.Log.Forwarding
import GibianeEditor.Session.Server

namespace GibianeEditor

open Log (Forwarding)
open Protocol (Message)

/-- What the client gets of an emission. -/
def Emission.toClient? (forwarding : Forwarding) : Emission → Option Message
  | .message m => some m
  | .event e => (forwarding.forward e).map .notification

/-- What the client gets of emissions, in order. -/
def outbox (forwarding : Forwarding) (emissions : List Emission) : List Message :=
  emissions.filterMap (Emission.toClient? forwarding)

end GibianeEditor
