import OcppClient.State

/-!
# Requests, pings, notifications and shutdown

The futures a caller holds: `do_send_request`, `send_ping_with_timeout`, `send_notification` and
`disconnect`. The first function of each is its code up to the first `await`, and its `Poll`
function every later one. A future can be dropped at any `await`; the guard it holds is dropped with
it.
-/

namespace OcppClient

variable {E R : Type} (env : Env R) (cfg : ClientConfig)

def State.setCall (s : State E R) (c : ℕ) (pc : CallPc E R) : State E R :=
  { s with calls := Function.update s.calls c pc }

def State.setPing (s : State E R) (p : PingId) (pc : PingPc E) : State E R :=
  { s with pings := Function.update s.pings p pc }

def State.setSend (s : State E R) (n : ℕ) (pc : NotificationPc E) : State E R :=
  { s with sends := Function.update s.sends n pc }

def State.setDisconnect (s : State E R) (d : ℕ) (pc : DisconnectPc E) : State E R :=
  { s with disconnects := Function.update s.disconnects d pc }

/-! ## Calls -/

/-- `do_send_request` up to the lock of `pending_responses`, for a request that `to_value` makes
`payload`. -/
def doSendRequest (s : State E R) (c : ℕ) (action : String) (payload : Except JsonError Value) :
    Option (State E R) :=
  match s.calls c with
  | .idle =>
    if s.closed then some (s.setCall c (.returned (.error .closed)))
    else
      let id := env.newV4 s.draws
      let s := { s with draws := s.draws + 1 }
      match requestFrame env messageTypeCall id action payload with
      | .ok frame => some (s.setCall c (.lockPending id action frame))
      | .error e => some (s.setCall c (.returned (.error (.decode e))))
  | _ => none

/-- The waiter's slot, polled before the timer it is raced against. -/
def takeResponse (s : State E R) (c : ℕ) (action : String) : Option (State E R) :=
  match s.responses c with
  | some r =>
    some
      { s with
        responses := Function.update s.responses c none
        calls := Function.update s.calls c (.returned (outcome env action r))
        hist := s.hist ++ [.call (.took c r)] }
  | none => none

def callPoll (s : State E R) (c : ℕ) (p : Poll) : Option (State E R) :=
  match s.calls c, p with
  | .lockPending id action frame, .ready =>
    some
      { s with
        pendingResponses := Function.update s.pendingResponses id (some c)
        calls := Function.update s.calls c (.lockSink id action frame)
        hist := s.hist ++ [.call (.registered c id action)] }
  | .lockSink id action frame, .ready =>
    (s.issue (.call c) (.send frame)).map fun s => s.setCall c (.sending id action)
  | .sending _ _, .pend => s.pend
  | .sending id action, .done (.ok _) => some (s.release.setCall c (.waiting id action))
  | .sending id _, .done (.error e) => some (s.release.setCall c (.forget id (.transport e)))
  | .waiting _ action, .ready => takeResponse env s c action
  | .waiting id _, .timer =>
    if (s.responses c).isNone then some (s.setCall c (.forget id .timeout)) else none
  | .forget id e, .ready =>
    some
      { s with
        pendingResponses := Function.update s.pendingResponses id none
        calls := Function.update s.calls c (.returned (.error e))
        hist := s.hist ++ [.call (.forgot c id)] }
  | _, _ => none

/-- The caller drops the future at the `await` it stands at. -/
def callDrop (s : State E R) (c : ℕ) : Option (State E R) :=
  match s.calls c with
  | .idle => none
  | .returned _ => none
  | .dropped => none
  | .sending _ _ => some (s.release.setCall c .dropped)
  | _ => some (s.setCall c .dropped)

/-! ## Pings -/

/-- `send_ping_with_timeout` up to the lock of `pong_waiters`. -/
def sendPingWithTimeout (s : State E R) (p : PingId) (timeout : Duration) : State E R :=
  if s.closed then s.setPing p (.returned (.error .closed))
  else s.setPing p (.lockWaiters timeout)

/-- `send_ping`. -/
def sendPing (s : State E R) (n : ℕ) : Option (State E R) :=
  match s.pings (.user n) with
  | .idle => some (sendPingWithTimeout s (.user n) cfg.timeout)
  | _ => none

def pingPoll (s : State E R) (p : PingId) (poll : Poll) : Option (State E R) :=
  match s.pings p, poll with
  | .lockWaiters timeout, .ready =>
    some
      { s with
        nextToken := s.nextToken + 1
        waiters := Function.update s.waiters s.nextToken (some p)
        pings := Function.update s.pings p (.lockSink s.nextToken timeout) }
  | .lockSink token timeout, .ready =>
    (s.issue (.ping p) (.ping (toBeBytes token))).map fun s => s.setPing p (.sending token timeout)
  | .sending _ _, .pend => s.pend
  | .sending token timeout, .done (.ok _) =>
    some
      { s.release with
        pings := Function.update s.pings p (.waiting token timeout)
        hist := s.hist ++ [.ping (.written p s.sink)] }
  | .sending token _, .done (.error e) => some (s.release.setPing p (.forget token (.transport e)))
  | .waiting _ _, .ready =>
    if s.pongs p then
      some
        { s with
          pongs := Function.update s.pongs p false
          pings := Function.update s.pings p (.returned (.ok ()))
          hist := s.hist ++ [.ping (.answered p)] }
    else none
  | .waiting token _, .timer =>
    if s.pongs p then none else some (s.setPing p (.forget token .timeout))
  | .forget token e, .ready =>
    some
      { s with
        waiters := Function.update s.waiters token none
        pings := Function.update s.pings p (.returned (.error e))
        hist := s.hist ++ [.ping (.missed p)] }
  | _, _ => none

/-- The caller drops the future of a `send_ping` at the `await` it stands at. -/
def pingDrop (s : State E R) (n : ℕ) : Option (State E R) :=
  match s.pings (.user n) with
  | .idle => none
  | .returned _ => none
  | .dropped => none
  | .sending _ _ => some (s.release.setPing (.user n) .dropped)
  | _ => some (s.setPing (.user n) .dropped)

/-! ## Notifications and shutdown -/

def sendNotification (s : State E R) (n : ℕ) (action : String) (payload : Except JsonError Value) :
    Option (State E R) :=
  match s.sends n with
  | .idle =>
    if s.closed then some (s.setSend n (.returned (.error .closed)))
    else
      let id := env.newV4 s.draws
      let s := { s with draws := s.draws + 1 }
      match requestFrame env messageTypeSend id action payload with
      | .ok frame => some (s.setSend n (.lockSink frame))
      | .error e => some (s.setSend n (.returned (.error (.decode e))))
  | _ => none

def notificationPoll (s : State E R) (n : ℕ) (p : Poll) : Option (State E R) :=
  match s.sends n, p with
  | .lockSink frame, .ready =>
    (s.issue (.notification n) (.send frame)).map fun s => s.setSend n .sending
  | .sending, .pend => s.pend
  | .sending, .done r => some (s.release.setSend n (.returned (r.mapError .transport)))
  | _, _ => none

/-- `disconnect` up to the lock of the sink: the flag first, then both wake-ups. -/
def disconnect (s : State E R) (d : ℕ) : Option (State E R) :=
  match s.disconnects d with
  | .idle =>
    if s.closed then some (s.setDisconnect d .alreadyClosed)
    else
      some
        { s with
          closed := true
          wake := true
          changed := true
          disconnects := Function.update s.disconnects d .lockSink
          hist := s.hist ++ [.loop .closed] }
  | _ => none

def disconnectPoll (s : State E R) (d : ℕ) (p : Poll) : Option (State E R) :=
  match s.disconnects d, p with
  | .lockSink, .ready => (s.issue (.disconnect d) .close).map fun s => s.setDisconnect d .closing
  | .closing, .pend => s.pend
  | .closing, .done r => some (s.release.setDisconnect d (.returned (r.mapError .transport)))
  | _, _ => none

end OcppClient
