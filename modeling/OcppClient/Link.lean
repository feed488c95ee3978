import OcppClient.Lib.Duplex
import OcppClient.Pair

/-!
# Two clients over a transport of events

As in `Pair`, but the transport carries pings and pongs as well as frames, as the in-memory
transport of the tests does: what one end is given by `send`, `ping` or `pong` the other receives as
an event, once and in order, and `close` carries nothing. The end of a stream comes at any time.
-/

namespace OcppClient

open Transition

variable {E R : Type}

/-- What the peer receives of an operation. -/
def SinkOp.event : SinkOp → Option TransportEvent
  | .send frame => some (.frame frame)
  | .ping payload => some (.ping payload)
  | .pong payload => some (.pong payload)
  | .close => none

def Event.outgoing : Event E → Option TransportEvent
  | .issued _ _ op => op.event
  | _ => none

/-- What a step hands to the sink. -/
def handedEvents (s s' : State E R) : List TransportEvent :=
  (s'.hist.drop s.hist.length).filterMap Event.outgoing

/-- The event a step receives. -/
def Act.heard : Act E → List TransportEvent
  | .recv (some e) => [e]
  | _ => []

abbrev Link (E R : Type) := Duplex (State E R) TransportEvent

def link [ProtocolError E] (env : Env R) (draw : Bool → ℕ → Uuid) (cfg : Bool → ClientConfig) :
    Machine (Link E R) (Bool × Act E) :=
  Duplex.machine (fun x => client (sideEnv env draw x) (cfg x)) Act.heard handedEvents

end OcppClient
