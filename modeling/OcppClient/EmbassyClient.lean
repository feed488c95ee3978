import OcppClient.EmbassyTransport
import OcppClient.WebSocketTransport

/-!
# A client on embassy-net connections

The read loop makes a future of `EmbassyWsStream::recv`, polls it together with its wake signal,
and drops it where the signal is first. The future goes on one `await` at a time, as in `Receiving`;
the connections are read one after the other. The codec's reading side is its own here: what the
sink does with the codec is left out.
-/

namespace OcppClient

open Transition WebSocket

/-- A client, and the stream of each connection with the future on it. -/
structure NetClient (E R S ε : Type) where
  client : State E R
  receiving : SinkId → Receiving S ε

/-- A step of the client, or of the future that its read loop polls. -/
inductive NetAct (E : Type)
  | act (a : Act E)
  | call
  | start
  | ready

section NetClient

variable {E R S ε : Type} [ProtocolError E] (env : Env R) (cfg : ClientConfig)
  (read : S → List UInt8 → Except ε ReadResult × S)

/-- The wake signal ends the race with `recv`. -/
def dropsRecv : ReadPc E → Act E → Bool
  | .recv, .poll .read _ => true
  | _, _ => false

/-- The future, if there is one, is dropped. -/
def Receiving.dropped (r : Receiving S ε) : Receiving S ε := { r with pc := .idle }

/-- The stream that the read loop reads, changed. -/
def NetClient.set (c : NetClient E R S ε) (r : Receiving S ε) : SinkId → Receiving S ε :=
  Function.update c.receiving c.client.stream r

/-- A step of the future: it goes on, or returns to the read loop. -/
def NetClient.poll (c : NetClient E R S ε) (a : RecvAct S) : Option (NetClient E R S ε) :=
  match c.client.read with
  | .recv =>
    (Receiving.step read (c.receiving c.client.stream) a).bind fun r =>
      match r.results.drop (c.receiving c.client.stream).results.length with
      | [] => some { c with receiving := c.set r }
      | result :: _ =>
        (readRecv env cfg c.client (yielded result)).map fun s => ⟨s, c.set r⟩
  | _ => none

def NetClient.step (c : NetClient E R S ε) : NetAct E → Option (NetClient E R S ε)
  | .act (.recv _) => none
  | .act a =>
    (OcppClient.step env cfg c.client a).map fun s =>
      ⟨s, if dropsRecv c.client.read a then
        c.set (c.receiving c.client.stream).dropped else c.receiving⟩
  | .call => c.poll env cfg read .call
  | .start => c.poll env cfg read .start
  | .ready => c.poll env cfg read .ready

/-- A client whose `k`-th connection is the stream `streams k`. -/
def netClient (streams : SinkId → EmbassyWsStream S) :
    Machine (NetClient E R S ε) (NetAct E) where
  init := ⟨.new cfg, fun k => ⟨streams k, .idle, [], []⟩⟩
  step := NetClient.step env cfg read

end NetClient

end OcppClient
