import OcppClient.State

/-!
# The read loop

The task `from_transport_with_config` spawns to read the transport: `recv` raced against the wake
signal, the dispatch of one event, the way out of a transport, the backoff and the dial. `readRecv`
is the `recv` of the race coming ready, which is polled first and so wins over a set signal;
`readPoll` is every other `await`.
-/

namespace OcppClient

variable {E R : Type} [ProtocolError E] (env : Env R) (cfg : ClientConfig)

/-- `handle_frame` up to its first lock. -/
def handleFrame (s : State E R) (frame : String) : State E R :=
  { s with
    read := match (dispatch env frame : Dispatch E) with
      | .ignore => .recv
      | .call messageId action payload => .lockRequestSenders messageId action payload
      | .response id result => .lockPending id result
      | .send action payload => .lockNotificationSenders action payload }

/-- An inbound event: it resets the backoff, and its handling is begun. -/
def handleEvent (s : State E R) (e : TransportEvent) : State E R :=
  let s := { s with attempt := 0, hist := s.hist ++ [.loop (.received e)] }
  match e with
  | .frame f => handleFrame env s f
  | .ping payload => { s with read := .notifyPing payload }
  | .pong payload => { s with read := .lockWaiters (fromBeBytes payload) }

/-- The code after the inner loop, up to its next `await`. -/
def leave (s : State E R) (reason : LoopExit) : State E R :=
  { s with
    read :=
      if reason = .shutdown ∨ s.closed then .clearShutdown
      else if cfg.reconnector then (if reason = .forced then .lockClose else .clearWaiters)
      else .exited
    hist := s.hist ++ [.loop (.exit reason s.stream)] }

/-- The top of the dial loop: the delay is computed, with a UUID drawn for its jitter, and
counted. -/
def beginBackoff (s : State E R) : State E R :=
  { s with
    read := .backoff (cfg.reconnectPolicy.jitteredDelayFor s.attempt (env.newV4 s.draws))
    attempt := saturatingSucc s.attempt
    draws := if cfg.reconnectPolicy.jitter then s.draws + 1 else s.draws }

/-- After the backoff: the flag is read, and the dial begins. -/
def beginDial (s : State E R) : State E R :=
  if s.closed then { s with read := .exited }
  else { s with read := .dial false, hist := s.hist ++ [.loop .dialing] }

/-- The wake signal ending the race with `recv`. -/
def readWoken (s : State E R) : Option (State E R) :=
  if s.wake then
    if s.closed then some (leave cfg { s with wake := false } .shutdown)
    else if cfg.reconnector then some (leave cfg { s with wake := false } .forced)
    else some { s with wake := false, hist := s.hist ++ [.loop .woken] }
  else none

/-- The CALL arm of `handle_frame` under the lock of `request_senders`. -/
def lookupRequest (s : State E R) (messageId action : String) (payload : Value) : State E R :=
  { s with
    read := match s.requests.senders action with
      | some ch => .pushRequest ch messageId payload
      | none =>
        match errorFrame env messageId
            (ProtocolError.notImplemented s!"Action '{action}' is not implemented" : E) with
        | .ok frame => .lockNotImplemented frame
        | .error _ => .recv }

/-- The CALLRESULT and CALLERROR arms under the lock of `pending_responses`. -/
def resolvePending (s : State E R) (id : Uuid) (result : Except E Value) : State E R :=
  { s with
    read := .recv
    pendingResponses := Function.update s.pendingResponses id none
    responses := match s.pendingResponses id with
      | some c => Function.update s.responses c (some result)
      | none => s.responses
    hist := s.hist ++ [.call (.handled id result)] }

/-- The Pong arm under the lock of `pong_waiters`. -/
def resolvePong (s : State E R) (token : Option Token) : State E R :=
  match token with
  | none => { s with read := .recv }
  | some t =>
    match s.waiters t with
    | none => { s with read := .recv }
    | some p =>
      { s with
        read := .recv
        waiters := Function.update s.waiters t none
        pongs := Function.update s.pongs p true }

/-- The new transport taking the place of the old one, under the sink's lock. -/
def swapIn (s : State E R) (sink : SinkId) : Option (State E R) :=
  if s.holder = none then
    some
      { s with
        sink := sink
        stream := sink
        read := .notifyReconnect
        hist := s.hist ++ [.loop (.swapped sink)] }
  else none

/-- `recv` of the race coming ready, with an event or, as `none`, with `Ok(None)` or `Err(_)`. -/
def readRecv (s : State E R) (e : Option TransportEvent) : Option (State E R) :=
  match s.read with
  | .recv =>
    match e with
    | some e => some (handleEvent env s e)
    | none => some (leave cfg s .eof)
  | _ => none

def readPoll (s : State E R) (p : Poll) : Option (State E R) :=
  match s.read, p with
  | .recv, .ready => readWoken cfg s
  | .lockRequestSenders messageId action payload, .ready =>
    some (lookupRequest env s messageId action payload)
  | .pushRequest ch messageId payload, .ready =>
    some
      { s with
        read := .recv
        requests := s.requests.modify ch fun c => c.send (messageId, payload) }
  | .lockNotImplemented frame, .ready =>
    (s.issue .read (.send frame)).map fun s => { s with read := .sendNotImplemented }
  | .sendNotImplemented, .pend => s.pend
  | .sendNotImplemented, .done _ => some { s.release with read := .recv }
  | .lockNotificationSenders action payload, .ready =>
    match s.notifications.senders action with
    | some ch => some { s with read := .pushNotification ch payload }
    | none => some { s with read := .recv }
  | .pushNotification ch payload, .ready =>
    some
      { s with
        read := .recv
        notifications := s.notifications.modify ch fun c => c.send payload }
  | .lockPending id result, .ready => some (resolvePending s id result)
  | .notifyPing payload, .ready => some { s.notifyAll .ping with read := .lockPong payload }
  | .lockPong payload, .ready =>
    (s.issue .read (.pong payload)).map fun s => { s with read := .sendPong }
  | .sendPong, .pend => s.pend
  | .sendPong, .done _ => some { s.release with read := .recv }
  | .lockWaiters token, .ready => some (resolvePong s token)
  | .clearShutdown, .ready => some { s with waiters := fun _ => none, read := .exited }
  | .lockClose, .ready => (s.issue .read .close).map fun s => { s with read := .sendClose }
  | .sendClose, .pend => s.pend
  | .sendClose, .done _ => some { s.release with read := .clearWaiters }
  | .sendClose, .timer => some { s.release with read := .clearWaiters }
  | .clearWaiters, .ready => some (beginBackoff env cfg { s with waiters := fun _ => none })
  | .backoff _, .timer => some (beginDial s)
  | .backoff _, .ready =>
    if s.wake then some (beginDial { s with wake := false, hist := s.hist ++ [.loop .woken] })
    else none
  | .dial false, .pend => some { s with read := .dial true }
  | .dial _, .done (.ok _) =>
    some { s with read := .lockSwap s.nextSink, nextSink := s.nextSink + 1 }
  | .dial _, .done (.error _) => some (beginBackoff env cfg s)
  | .lockSwap sink, .ready => swapIn s sink
  | .notifyReconnect, .ready =>
    some
      { s.notifyAll .reconnect with read := .recv, hist := s.hist ++ [.loop .reconnected] }
  | _, _ => none

end OcppClient
