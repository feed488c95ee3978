import OcppClient.Frame
import OcppClient.Sync

/-!
# The state of a client

`State` holds the fields of `Client`, the one-shot slots and channels they point to, and for each
task the `await` it stands at. A task runs from one `await` to the next in one step, so the mutexes
around the tables, whose guards do not live across an `await`, are free between steps; the sink's
is not, since a guard of it lives across the transport's operation, and `holder` says who has it.

Futures are told apart by number: the `c`-th `call`, the `n`-th `send_ping`. A `OneShot` is the slot
of the request that made it, and the channel of a registration is named after the registration.
`hist` records what happened and is read by no step.
-/

namespace OcppClient

abbrev SinkId := ℕ

abbrev Token := UInt64

/-- `u64::to_be_bytes`. -/
def toBeBytes (t : Token) : List UInt8 :=
  (List.range 8).map fun i => UInt8.ofNat (t.toNat / 256 ^ (7 - i))

/-- The token a pong carries: its payload read as a big-endian `u64`, when it is 8 bytes long. -/
def fromBeBytes (payload : List UInt8) : Option Token :=
  if payload.length = 8 then
    some (UInt64.ofNat (payload.foldl (fun n b => n * 256 + b.toNat) 0))
  else none

inductive TransportEvent
  | frame (f : String)
  | ping (payload : List UInt8)
  | pong (payload : List UInt8)
  deriving DecidableEq

inductive SinkOp
  | send (frame : String)
  | ping (payload : List UInt8)
  | pong (payload : List UInt8)
  | close
  deriving DecidableEq

inductive LoopExit
  | eof
  | forced
  | shutdown
  deriving DecidableEq

/-- A ping the user sent, or the `n`-th that `keepalive_loop` began. -/
inductive PingId
  | user (n : ℕ)
  | keepalive (n : ℕ)
  deriving DecidableEq

/-- The channel of an `on`, or of a `wait_for`. -/
inductive ChanId
  | on (o : ℕ)
  | waitFor (w : ℕ)
  deriving DecidableEq

/-- The futures of a client. `ping (.keepalive n)` is `keepalive_loop` inside its `n`-th ping. -/
inductive Task
  | read
  | keepalive
  | call (c : ℕ)
  | ping (p : PingId)
  | notification (n : ℕ)
  | disconnect (d : ℕ)
  | on (o : ℕ)
  | handler (o : ℕ)
  | waitFor (w : ℕ)
  | onNotification (o : ℕ)
  | notificationHandler (o : ℕ)
  | subscriber (i : ℕ)
  deriving DecidableEq

inductive ReadPc (E : Type)
  | recv
  | lockRequestSenders (messageId action : String) (payload : Value)
  | pushRequest (ch : ChanId) (messageId : String) (payload : Value)
  | lockNotImplemented (frame : String)
  | sendNotImplemented
  | lockNotificationSenders (action : String) (payload : Value)
  | pushNotification (ch : ℕ) (payload : Value)
  | lockPending (id : Uuid) (result : Except E Value)
  | notifyPing (payload : List UInt8)
  | lockPong (payload : List UInt8)
  | sendPong
  | lockWaiters (token : Option Token)
  | clearShutdown
  | lockClose
  | sendClose
  | clearWaiters
  | backoff (delay : Duration)
  | dial (pended : Bool)
  | lockSwap (sink : SinkId)
  | notifyReconnect
  | exited

inductive CallPc (E R : Type)
  | idle
  | lockPending (id : Uuid) (action frame : String)
  | lockSink (id : Uuid) (action frame : String)
  | sending (id : Uuid) (action : String)
  | waiting (id : Uuid) (action : String)
  | forget (id : Uuid) (e : ClientError E)
  | returned (r : Except (ClientError E) R)
  | dropped
  deriving DecidableEq

/-- `send_ping_with_timeout`, with the timeout it was given. -/
inductive PingPc (E : Type)
  | idle
  | lockWaiters (timeout : Duration)
  | lockSink (token : Token) (timeout : Duration)
  | sending (token : Token) (timeout : Duration)
  | waiting (token : Token) (timeout : Duration)
  | forget (token : Token) (e : ClientError E)
  | returned (r : Except (ClientError E) Unit)
  | dropped

inductive KeepalivePc
  | start
  | parked
  | waiting (interval : Duration)
  | pinging (n : ℕ)
  | exited
  deriving DecidableEq

inductive NotificationPc (E : Type)
  | idle
  | lockSink (frame : String)
  | sending
  | returned (r : Except (ClientError E) Unit)

/-- `disconnect`; `alreadyClosed` is the return of a call that found the flag set. -/
inductive DisconnectPc (E : Type)
  | idle
  | lockSink
  | closing
  | returned (r : Except (ClientError E) Unit)
  | alreadyClosed

inductive OnPc
  | idle
  | lock (action : String)
  | registered (action : String)

/-- The loop of a handler that `on` spawned. -/
inductive HandlerPc
  | absent
  | recv
  | wait
  | callback (messageId : String)
  | lockSink (frame : String)
  | sending
  | exited

inductive NotificationHandlerPc
  | absent
  | recv
  | wait
  | callback
  | exited

/-- `wait_for`, with the action and, past its callback, what it will return. -/
inductive WaitForPc (E : Type)
  | idle
  | lock (action : String)
  | recv (action : String)
  | wait (action : String)
  | callback (action messageId : String) (payload : Value)
  | lockSink (action : String) (outcome : Except (ClientError E) Value) (frame : String)
  | sending (action : String) (outcome : Except (ClientError E) Value)
  | unregister (action : String) (outcome : Except (ClientError E) Value)
  | returned (outcome : Except (ClientError E) Value)

/-- The two `BroadcastRegistry`s. -/
inductive Broadcast
  | ping
  | reconnect
  deriving DecidableEq

inductive SubscriberPc
  | idle
  | subscribe (b : Broadcast)
  | wait
  | callback

/-! ## History -/

inductive CallEvent (E : Type)
  | registered (c : ℕ) (id : Uuid) (action : String)
  | handled (id : Uuid) (result : Except E Value)
  | forgot (c : ℕ) (id : Uuid)
  | took (c : ℕ) (result : Except E Value)
  deriving DecidableEq

/-- What the read loop and its wake signal did. `raised` is a `force_reconnect` that set the signal,
with the sink installed then, and `woken` a wait on the signal that ended without leaving the
transport. -/
inductive LoopEvent
  | received (e : TransportEvent)
  | raised (sink : SinkId)
  | woken
  | exit (reason : LoopExit) (sink : SinkId)
  | dialing
  | swapped (sink : SinkId)
  | reconnected
  | closed
  deriving DecidableEq

/-- What became of the pings: written to a sink, answered or not, and `keepalive_loop`'s
`force_reconnect` after its `n`-th, with the sink installed then. -/
inductive PingEvent
  | written (p : PingId) (sink : SinkId)
  | answered (p : PingId)
  | missed (p : PingId)
  | escalated (n : ℕ) (sink : SinkId)
  deriving DecidableEq

inductive Event (E : Type)
  | call (e : CallEvent E)
  | loop (e : LoopEvent)
  | ping (e : PingEvent)
  | issued (t : Task) (sink : SinkId) (op : SinkOp)
  deriving DecidableEq

/-- The frame received. -/
def Event.frame {E : Type} : Event E → Option String
  | .loop (.received (.frame f)) => some f
  | _ => none

/-- The frame handed to a sink. -/
def Event.sent {E : Type} : Event E → Option String
  | .issued _ _ (.send frame) => some frame
  | _ => none

/-! ## State -/

structure State (E R : Type) where
  closed : Bool
  wake : Bool
  changed : Bool
  intervalMillis : ℕ
  sink : SinkId
  holder : Option Task
  pended : Bool
  pendingResponses : Uuid → Option ℕ
  responses : ℕ → Option (Except E Value)
  requests : Registry ChanId (String × Value)
  notifications : Registry ℕ Value
  nextToken : Token
  waiters : Token → Option PingId
  pongs : PingId → Bool
  subscribers : Broadcast → List ℕ
  signals : ℕ → Bool
  draws : ℕ
  read : ReadPc E
  attempt : ℕ
  stream : SinkId
  nextSink : SinkId
  keepalive : KeepalivePc
  keepalivePings : ℕ
  missed : ℕ
  calls : ℕ → CallPc E R
  pings : PingId → PingPc E
  sends : ℕ → NotificationPc E
  disconnects : ℕ → DisconnectPc E
  ons : ℕ → OnPc
  handlers : ℕ → HandlerPc
  waitFors : ℕ → WaitForPc E
  onNotifications : ℕ → OnPc
  notificationHandlers : ℕ → NotificationHandlerPc
  subs : ℕ → SubscriberPc
  hist : List (Event E)

/-- `from_transport_with_config`: the two background tasks are spawned and nothing has run. -/
def State.new {E R : Type} (cfg : ClientConfig) : State E R where
  closed := false
  wake := false
  changed := false
  intervalMillis := storedMillis cfg.keepalive.initialInterval
  sink := 0
  holder := none
  pended := false
  pendingResponses := fun _ => none
  responses := fun _ => none
  requests := .new
  notifications := .new
  nextToken := 0
  waiters := fun _ => none
  pongs := fun _ => false
  subscribers := fun _ => []
  signals := fun _ => false
  draws := 0
  read := .recv
  attempt := 0
  stream := 0
  nextSink := 1
  keepalive := .start
  keepalivePings := 0
  missed := 0
  calls := fun _ => .idle
  pings := fun _ => .idle
  sends := fun _ => .idle
  disconnects := fun _ => .idle
  ons := fun _ => .idle
  handlers := fun _ => .absent
  waitFors := fun _ => .idle
  onNotifications := fun _ => .idle
  notificationHandlers := fun _ => .absent
  subs := fun _ => .idle
  hist := []

/-- How the `await` a task stands at came out: it was ready, a transport operation or a dial
returned `Pending` or ended, or the timer it is raced against fired. -/
inductive Poll
  | ready
  | pend
  | done (r : Except TransportError Unit)
  | timer

namespace State

variable {E R : Type}

/-- Taking the sink's mutex, where it is free, and calling `op` on the sink it guards. -/
def issue (s : State E R) (t : Task) (op : SinkOp) : Option (State E R) :=
  if s.holder = none then
    some { s with holder := some t, pended := false, hist := s.hist ++ [.issued t s.sink op] }
  else none

/-- The operation on the sink returned `Pending`. -/
def pend (s : State E R) : Option (State E R) :=
  if s.pended then none else some { s with pended := true }

/-- Dropping the guard of the sink's mutex. -/
def release (s : State E R) : State E R := { s with holder := none, pended := false }

/-- `Notify::notify` on `force_reconnect`, as `Client::force_reconnect` does it. -/
def forceReconnect (s : State E R) : State E R :=
  if s.closed then s
  else { s with wake := true, hist := s.hist ++ [.loop (.raised s.sink)] }

/-- `BroadcastRegistry::notify_all`. -/
def notifyAll (s : State E R) (b : Broadcast) : State E R :=
  { s with signals := fun i => s.signals i || (s.subscribers b).contains i }

end State

end OcppClient
