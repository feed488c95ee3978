import OcppClient.Link

/-!
# The WebSocket transport

`WebSocketSink` and `WebSocketSource`, the two halves of a `tokio-tungstenite` stream: an operation
of the sink is one message, and `recv` skips the messages that are no events. Then a client on such
transports, of which it reads one after the other, and two clients that one connection joins. The
read loop drops the future of `recv` when its wake signal is set, at whatever message that stands.
-/

namespace OcppClient

open Transition

/-- `tungstenite::Message`. -/
inductive Message
  | text (text : String)
  | binary (payload : List UInt8)
  | ping (payload : List UInt8)
  | pong (payload : List UInt8)
  | close
  | frame
  deriving DecidableEq

/-- What `WebSocketSink` hands on: `close` ends the stream with a close message. -/
def SinkOp.message : SinkOp → Message
  | .send frame => .text frame
  | .ping payload => .ping payload
  | .pong payload => .pong payload
  | .close => .close

namespace WebSocketSource

variable {ε : Type}

/-- One turn of the loop of `recv`, on what `next` came to. `none` is the turn that reads on. -/
def turn : Option (Except ε Message) → Option (Except ε (Option TransportEvent))
  | none => some (.ok none)
  | some (.error err) => some (.error err)
  | some (.ok (.text text)) => some (.ok (some (.frame text)))
  | some (.ok (.ping payload)) => some (.ok (some (.ping payload)))
  | some (.ok (.pong payload)) => some (.ok (some (.pong payload)))
  | some (.ok .close) => some (.ok none)
  | some (.ok _) => none

/-- `recv`, where the stream yields `items` and then `None`, and what it yields after. -/
def recv : List (Except ε Message) →
    Except ε (Option TransportEvent) × List (Except ε Message)
  | [] => (.ok none, [])
  | item :: items =>
    match turn (some item) with
    | some r => (r, items)
    | none => recv items

end WebSocketSource

/-- An event, or the end of the stream, as the read loop takes it. -/
def yielded {ε : Type} : Except ε (Option TransportEvent) → Option TransportEvent
  | .ok e => e
  | .error _ => none

variable {E R ε : Type} [ProtocolError E] (env : Env R) (cfg : ClientConfig)

/-- A step of the client, or the end of the `await` in `recv` with what `next` came to. -/
inductive SocketAct (E ε : Type)
  | act (a : Act E)
  | next (item : Option (Except ε Message))

/-- The `await` in `recv` ends: the call returns to the read loop, or its loop goes on. -/
def socketNext (s : State E R) (item : Option (Except ε Message)) : Option (State E R) :=
  match WebSocketSource.turn item with
  | some r => readRecv env cfg s (yielded r)
  | none =>
    match s.read with
    | .recv => some s
    | _ => none

/-- A client that reads messages. -/
def socketStep (s : State E R) : SocketAct E ε → Option (State E R)
  | .act (.recv _) => none
  | .act a => step env cfg s a
  | .next item => socketNext env cfg s item

/-! ## One client, from one connection to the next -/

/-- A client, and what the stream of each connection has still to yield. -/
structure Connected (E R ε : Type) where
  client : State E R
  sources : SinkId → List (Except ε Message)

/-- A step of the client, or the end of the `await` in the `recv` of the connection it reads. -/
inductive ConnectedAct (E : Type)
  | act (a : Act E)
  | next

/-- The stream that the read loop reads is one message further on. -/
def Connected.read (c : Connected E R ε) : SinkId → List (Except ε Message) :=
  Function.update c.sources c.client.stream (c.sources c.client.stream).tail

def Connected.step (c : Connected E R ε) : ConnectedAct E → Option (Connected E R ε)
  | .act a =>
    (socketStep env cfg c.client (.act a : SocketAct E ε)).map fun s => { c with client := s }
  | .next =>
    (socketNext env cfg c.client (c.sources c.client.stream).head?).map fun s => ⟨s, c.read⟩

/-- A client whose `k`-th connection yields `sources k`. -/
def connected (sources : SinkId → List (Except ε Message)) :
    Machine (Connected E R ε) (ConnectedAct E) where
  init := ⟨.new cfg, sources⟩
  step := Connected.step env cfg

/-! ## Two clients on one connection -/

def Event.message : Event E → Option Message
  | .issued _ _ op => some op.message
  | _ => none

/-- The message a step takes in. -/
def SocketAct.takes : SocketAct E ε → List Message
  | .next (some (.ok m)) => [m]
  | _ => []

end OcppClient
