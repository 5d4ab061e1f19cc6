/-
Events on their way to the client. They are held back until the session is set up, and so are those
less severe than the level asked for.
-/
import GibianeEditor.Log.Event
import GibianeEditor.Protocol.Message

namespace GibianeEditor.Log

/-- What is forwarded: nothing before it is switched on, then everything up to a level. -/
structure Forwarding where
  max : Level
  on : Bool
  deriving DecidableEq

/-- The number of a level among the types of log messages. Below information all is the same. -/
def Level.messageType : Level → Nat
  | .error => 1
  | .warn => 2
  | .info => 3
  | .debug => 4
  | .trace => 4

/-- An event as the client gets it. -/
def Event.notification (e : Event) : Protocol.Notification :=
  ⟨"window/logMessage", .obj [("message", .str e.clientText), ("type", .nat e.level.messageType)]⟩

/-- Whether an event reaches the client. -/
def Forwarding.passes (forwarding : Forwarding) (e : Event) : Bool :=
  forwarding.on && e.level.rank ≤ forwarding.max.rank

/-- What the client gets of an event. -/
def Forwarding.forward (forwarding : Forwarding) (e : Event) : Option Protocol.Notification :=
  if forwarding.passes e then some e.notification else none

end GibianeEditor.Log
