import OcppClient.Lib.Transition
import OcppClient.Lib.WebSocket
import OcppClient.State

/-!
# The embassy-net transport

`EmbassyWsSink` and `EmbassyWsStream` of `ocpp-transport-embassy-net`. The WebSocket codec and the
TCP socket are outside the repository. The codec is `Encoder` and a `read` function: what it writes
into `tx_scratch`, or reports of the bytes it is given, with `frame_buf` as large as its setting
asks for, and the codec afterwards. Of the socket a turn says how it serves one call:
`TcpWriter::write` takes a non-empty part of its buffer, `TcpReader::read` returns one chunk of the
peer's bytes.
-/

namespace OcppClient

open Transition WebSocket

abbrev TcpError := String

/-! ## The sink -/

inductive SendMessageType
  | text
  | ping
  | pong
  deriving DecidableEq

inductive CloseStatusCode
  | normalClosure
  deriving DecidableEq

/-- `WebSocketClient::write` and `WebSocketClient::close`: the frame they put at the front of a
buffer of the length given, or an error, and the codec afterwards. -/
structure Encoder (W ε : Type) where
  write : W → SendMessageType → Bool → List UInt8 → ℕ → Except ε (List UInt8) × W
  close : W → CloseStatusCode → Option String → ℕ → Except ε (List UInt8) × W

inductive SinkError (ε : Type)
  | codec (e : ε)
  | tcp (e : TcpError)

structure EmbassyWsSink (W : Type) where
  outgoing : List UInt8
  ws : W
  txScratch : List UInt8

/-- How the socket serves a call: the bytes that `write` takes beside the first, as far as there are
that many, and how `flush` ends. -/
structure TcpTurn where
  write : Except TcpError ℕ
  flush : Except TcpError Unit

namespace EmbassyWsSink

variable {W ε : Type} (enc : Encoder W ε)

/-- `TcpWriter::write`, then `TcpWriter::flush`, of the first `len` bytes of `tx_scratch`. -/
def writeScratch (s : EmbassyWsSink W) (len : ℕ) (tcp : TcpTurn) :
    Except (SinkError ε) Unit × EmbassyWsSink W :=
  match tcp.write with
  | .error e => (.error (.tcp e), s)
  | .ok n =>
    let s := { s with outgoing := s.outgoing ++ (s.txScratch.take len).take (n + 1) }
    (tcp.flush.mapError .tcp, s)

/-- The end that all four calls share, from what the codec made of the call on. -/
def transmit (s : EmbassyWsSink W) (encoded : Except ε (List UInt8) × W) (tcp : TcpTurn) :
    Except (SinkError ε) Unit × EmbassyWsSink W :=
  let s := { s with ws := encoded.2 }
  match encoded.1 with
  | .error e => (.error (.codec e), s)
  | .ok frame =>
    let s := { s with txScratch := frame ++ s.txScratch.drop frame.length }
    s.writeScratch frame.length tcp

def send (s : EmbassyWsSink W) (frame : String) (tcp : TcpTurn) :
    Except (SinkError ε) Unit × EmbassyWsSink W :=
  s.transmit (enc.write s.ws .text true frame.toUTF8.toList s.txScratch.length) tcp

def ping (s : EmbassyWsSink W) (payload : List UInt8) (tcp : TcpTurn) :
    Except (SinkError ε) Unit × EmbassyWsSink W :=
  s.transmit (enc.write s.ws .ping true payload s.txScratch.length) tcp

def pong (s : EmbassyWsSink W) (payload : List UInt8) (tcp : TcpTurn) :
    Except (SinkError ε) Unit × EmbassyWsSink W :=
  s.transmit (enc.write s.ws .pong true payload s.txScratch.length) tcp

def close (s : EmbassyWsSink W) (tcp : TcpTurn) : Except (SinkError ε) Unit × EmbassyWsSink W :=
  s.transmit (enc.close s.ws .normalClosure none s.txScratch.length) tcp

/-- The operations of the client on its sink, as this transport performs them. -/
def call (s : EmbassyWsSink W) (op : SinkOp) (tcp : TcpTurn) :
    Except (SinkError ε) Unit × EmbassyWsSink W :=
  match op with
  | .send frame => s.send enc frame tcp
  | .ping payload => s.ping enc payload tcp
  | .pong payload => s.pong enc payload tcp
  | .close => s.close enc tcp

/-- A sequence of calls. -/
def run (s : EmbassyWsSink W) : List (SinkOp × TcpTurn) → EmbassyWsSink W
  | [] => s
  | (op, tcp) :: calls => (s.call enc op tcp).2.run calls

end EmbassyWsSink

/-! ## The stream -/

inductive RecvError (ε : Type)
  | tcp (e : TcpError)
  | codec (e : ε)
  | utf8

/-- The stream, with the reads that `TcpReader` has still to serve and how it ends after them: with
`Ok(0)`, or with an error. -/
structure EmbassyWsStream (S : Type) where
  reads : List (List UInt8)
  eof : Except TcpError Unit
  ws : S
  pending : List UInt8
  accumulated : List UInt8

/-- `String::from_utf8`. -/
def fromUtf8 (bytes : List UInt8) : Option String := String.fromUTF8? ⟨bytes.toArray⟩

/-- One turn of the loop of `recv`: it goes on, or returns. -/
inductive RecvTurn (S ε : Type)
  | again (s : EmbassyWsStream S)
  | returned (r : Except (RecvError ε) (Option TransportEvent)) (s : EmbassyWsStream S)

namespace EmbassyWsStream

variable {S ε : Type} (read : S → List UInt8 → Except ε ReadResult × S)

/-- What the loop does with a part of a message. -/
def handleResult (s : EmbassyWsStream S) (r : ReadResult) : RecvTurn S ε :=
  match r.messageType with
  | .text =>
    let accumulated := s.accumulated ++ r.payload
    if r.endOfMessage then
      match fromUtf8 accumulated with
      | some text => .returned (.ok (some (.frame text))) { s with accumulated := [] }
      | none => .returned (.error .utf8) { s with accumulated := [] }
    else .again { s with accumulated := accumulated }
  | .binary => .again { s with accumulated := [] }
  | .ping => .returned (.ok (some (.ping r.payload))) s
  | .pong => .returned (.ok (some (.pong r.payload))) s
  | .closeMustReply => .returned (.ok none) s
  | .closeCompleted => .returned (.ok none) s

/-- The turn once `pending` holds something. -/
def decode (s : EmbassyWsStream S) : RecvTurn S ε :=
  let (result, ws) := read s.ws s.pending
  let s := { s with ws := ws }
  match result with
  | .error e => .returned (.error (.codec e)) s
  | .ok r => handleResult { s with pending := s.pending.drop r.lenFrom } r

def turn (s : EmbassyWsStream S) : RecvTurn S ε :=
  if s.pending.isEmpty then
    match s.reads with
    | [] => .returned (s.eof.mapError .tcp |>.map fun _ => none) s
    | chunk :: reads =>
      if chunk.isEmpty then .returned (.ok none) { s with reads := reads }
      else decode read { s with reads := reads, pending := chunk }
  else decode read s

/-- `recv`, for at most `n` turns of its loop. -/
def recv : ℕ → EmbassyWsStream S →
    Option (Except (RecvError ε) (Option TransportEvent) × EmbassyWsStream S)
  | 0, _ => none
  | n + 1, s =>
    match turn read s with
    | .again s' => recv n s'
    | .returned r s' => some (r, s')

end EmbassyWsStream

/-! ## The future of `recv`

`recv` again, one `await` at a time, for a caller that may drop its future at any of them. -/

/-- Where the future stands: there is none, it was made and not polled, or it is at one of its two
`await`s. -/
inductive RecvPc
  | idle
  | created
  | reading
  | locking
  deriving DecidableEq

/-- `ready` is the end of the `await` the future stands at. The codec is shared with the sink, which
uses it under the lock, and so never while the future does. -/
inductive RecvAct (S : Type)
  | call
  | start
  | ready
  | drop
  | sink (f : S → S)

/-- The stream and the future on it, the bytes that were taken out of `pending` for the codec, and
what the calls that completed returned. -/
structure Receiving (S ε : Type) where
  stream : EmbassyWsStream S
  pc : RecvPc
  decoded : List UInt8
  results : List (Except (RecvError ε) (Option TransportEvent))

namespace Receiving

variable {S ε : Type} (read : S → List UInt8 → Except ε ReadResult × S)

/-- The `await` that the top of the loop comes to. -/
def loopTop (s : EmbassyWsStream S) : RecvPc := if s.pending.isEmpty then .reading else .locking

/-- The end of a turn. -/
def finish (s : Receiving S ε) : RecvTurn S ε → Receiving S ε
  | .again stream => { s with stream := stream, pc := loopTop stream }
  | .returned r stream => { s with stream := stream, pc := .idle, results := s.results ++ [r] }

/-- `TcpReader::read` has returned. -/
def socketRead (s : Receiving S ε) : Receiving S ε :=
  match s.stream.reads with
  | [] => s.finish (.returned (s.stream.eof.mapError .tcp |>.map fun _ => none) s.stream)
  | chunk :: reads =>
    if chunk.isEmpty then s.finish (.returned (.ok none) { s.stream with reads := reads })
    else
      { s with
        stream := { s.stream with reads := reads, pending := s.stream.pending ++ chunk }
        pc := .locking }

/-- The bytes that one call of the codec takes. -/
def taken (s : EmbassyWsStream S) : List UInt8 :=
  match (read s.ws s.pending).1 with
  | .error _ => []
  | .ok r => s.pending.take r.lenFrom

def step (s : Receiving S ε) : RecvAct S → Option (Receiving S ε)
  | .call => if s.pc = .idle then some { s with pc := .created } else none
  | .start => if s.pc = .created then some { s with pc := loopTop s.stream } else none
  | .ready =>
    match s.pc with
    | .reading => some s.socketRead
    | .locking =>
      some ({ s with decoded := s.decoded ++ taken read s.stream }.finish
        (s.stream.decode read))
    | .idle | .created => none
  | .drop => if s.pc = .idle then none else some { s with pc := .idle }
  | .sink f => some { s with stream := { s.stream with ws := f s.stream.ws } }

end Receiving

/-- The calls of `recv` on a stream. -/
def receiving {S ε : Type} (read : S → List UInt8 → Except ε ReadResult × S)
    (s : EmbassyWsStream S) : Machine (Receiving S ε) (RecvAct S) where
  init := ⟨s, .idle, [], []⟩
  step := Receiving.step read

end OcppClient
