import OcppClient.EmbassyTransport

/-!
# Dialling over embassy-net

`connect` of `ocpp-transport-embassy-net`: the socket and its buffers, the opening handshake, and
the two halves of the transport. The handshake's part of the codec is `OpeningCodec`. The socket
serves the peer's bytes in `reads`, of which one read takes as much as it has room for; an empty one
is the peer's end of the connection.
-/

namespace OcppClient

/-- `embedded_websocket::Error`, as far as `connect` tells it apart. -/
inductive AcceptError (ε : Type)
  | httpHeaderIncomplete
  | other (e : ε)

structure WebSocketOptions where
  path : String
  host : String
  origin : String
  subProtocols : Option (List String)
  additionalHeaders : Option (List String)

/-- `client_connect`, with the length of the buffer it writes the request to, and `client_accept`,
which says how long the response's header is. Both leave the codec changed. -/
structure OpeningCodec (W K ε : Type) where
  clientConnect : W → WebSocketOptions → ℕ → Except ε (List UInt8 × K) × W
  clientAccept : W → K → List UInt8 → Except (AcceptError ε) (ℕ × Option String) × W

structure ConnectConfig where
  host : String
  path : String
  subProtocol : String
  handshakeBufferSize : ℕ
  frameBufferSize : ℕ

/-- The errors `connect` returns, with its own two texts. -/
inductive ConnectError (ε : Type)
  | tcpConnect (e : TcpError)
  | tcp (e : TcpError)
  | codec (e : ε)
  | accept (e : ε)
  | text (s : String)

/-! ## The response -/

/-- The response loop: the socket, the codec, and the part of `response_buf` that is filled. `rooms`
records how much room each read had. -/
structure Opening (W : Type) where
  reads : List (List UInt8)
  eof : Except TcpError Unit
  ws : W
  response : List UInt8
  rooms : List ℕ

/-- One turn of the loop: it goes on, or leaves `pending` or an error. -/
inductive OpeningTurn (W ε : Type)
  | again (s : Opening W)
  | returned (r : Except (ConnectError ε) (List UInt8)) (s : Opening W)

namespace Opening

variable {W K ε : Type} (codec : OpeningCodec W K ε) (key : K) (size : ℕ)

/-- What a read leaves of the reads to come. -/
def unread (room : ℕ) (chunk : List UInt8) (reads : List (List UInt8)) : List (List UInt8) :=
  if chunk.length ≤ room then reads else chunk.drop room :: reads

/-- The turn once something was read: the codec is given the response so far. -/
def accept (s : Opening W) : OpeningTurn W ε :=
  let (result, ws) := codec.clientAccept s.ws key s.response
  let s := { s with ws := ws }
  match result with
  | .ok (consumed, _) => .returned (.ok (s.response.drop consumed)) s
  | .error .httpHeaderIncomplete =>
    if s.response.length = size then
      .returned (.error (.text "opening handshake response exceeds handshake_buffer_size")) s
    else .again s
  | .error (.other e) => .returned (.error (.accept e)) s

def turn (s : Opening W) : OpeningTurn W ε :=
  let room := size - s.response.length
  let s := { s with rooms := s.rooms ++ [room] }
  match s.reads with
  | [] =>
    match s.eof with
    | .error e => .returned (.error (.tcp e)) s
    | .ok _ => .returned (.error (.text "connection closed during opening handshake")) s
  | chunk :: reads =>
    let s := { s with reads := unread room chunk reads }
    if (chunk.take room).isEmpty then
      .returned (.error (.text "connection closed during opening handshake")) s
    else accept codec key size { s with response := s.response ++ chunk.take room }

variable {codec key size}

theorem accept_again {s s' : Opening W} (h : accept codec key size s = .again s') :
    s'.response = s.response := by
  unfold accept at h
  simp only [] at h
  split at h
  · cases h
  · split_ifs at h
    cases h
    rfl
  · cases h

/-- A turn after which the loop goes on has read something. -/
theorem turn_again {s s' : Opening W} (h : turn codec key size s = .again s') :
    s.response.length < s'.response.length ∧ s.response.length < size := by
  unfold turn at h
  simp only [] at h
  split at h
  · split at h <;> cases h
  · split_ifs at h with hc
    rw [accept_again h]
    simp only [List.isEmpty_iff, List.take_eq_nil_iff, not_or] at hc
    have := List.length_pos_iff.2 hc.2
    simp only [List.length_append, List.length_take]
    omega

variable (codec key size)

def run (s : Opening W) : Except (ConnectError ε) (List UInt8) × Opening W :=
  match _h : turn codec key size s with
  | .again s' => run s'
  | .returned r s' => (r, s')
termination_by size - s.response.length
decreasing_by
  have := turn_again _h
  omega

end Opening

/-! ## `connect` -/

/-- What `connect` leaves in the network stack for good. -/
structure NetStack where
  sockets : ℕ
  bufferPairs : ℕ

/-- `Box::leak` of the two buffers and of the `TcpSocket` over them. -/
def NetStack.leak (n : NetStack) : NetStack := ⟨n.sockets + 1, n.bufferPairs + 1⟩

/-- What a call meets: the socket's dial, a codec over a fresh random number generator, how many
bytes of the request `write` takes beside the first, and the bytes of the peer. -/
structure Dial (W : Type) where
  connect : Except TcpError Unit
  client : W
  write : Except TcpError ℕ
  flush : Except TcpError Unit
  reads : List (List UInt8)
  eof : Except TcpError Unit

section Connect

variable {W K ε : Type} (codec : OpeningCodec W K ε) (cfg : ConnectConfig)

def ConnectConfig.options : WebSocketOptions :=
  ⟨cfg.path, cfg.host, "", some [cfg.subProtocol], none⟩

/-- `connect` from the socket's dial on. -/
def negotiate (d : Dial W) : Except (ConnectError ε) (EmbassyWsSink W × EmbassyWsStream W) := do
  let _ ← d.connect.mapError .tcpConnect
  let (request, ws) := codec.clientConnect d.client cfg.options cfg.handshakeBufferSize
  let (request, key) ← request.mapError .codec
  let n ← d.write.mapError .tcp
  let _ ← d.flush.mapError .tcp
  let (response, s) := Opening.run codec key cfg.handshakeBufferSize ⟨d.reads, d.eof, ws, [], []⟩
  let pending ← response
  return (⟨request.take (n + 1), s.ws, List.replicate cfg.frameBufferSize 0⟩,
    ⟨s.reads, s.eof, s.ws, pending, []⟩)

def connect (n : NetStack) (d : Dial W) :
    Except (ConnectError ε) (EmbassyWsSink W × EmbassyWsStream W) × NetStack :=
  (negotiate codec cfg d, n.leak)

/-- A sequence of calls, each with its result. -/
def connects (n : NetStack) : List (Dial W) →
    List (Except (ConnectError ε) (EmbassyWsSink W × EmbassyWsStream W)) × NetStack
  | [] => ([], n)
  | d :: ds =>
    let (r, n) := connect codec cfg n d
    let (rs, n) := connects n ds
    (r :: rs, n)

end Connect

end OcppClient
