import OcppClient.Requests

/-!
# The keepalive loop

`keepalive_loop`: the wait for the interval or for its change, then a ping, whose future it polls
itself, and the count of the pings missed in a row. `keepalivePings` numbers the pings it began.
-/

namespace OcppClient

variable {E R : Type} (cfg : ClientConfig)

/-- The top of the loop, up to one of its two waits. -/
def keepaliveTop (s : State E R) : State E R :=
  { s with
    keepalive :=
      if s.closed then .exited
      else match storedInterval s.intervalMillis with
        | none => .parked
        | some interval => .waiting interval }

/-- A ping that failed: counted, and at the last one allowed the connection is given up. -/
def countMiss (s : State E R) (n : ℕ) : State E R :=
  let missed := saturatingSucc s.missed
  if cfg.keepalive.policy.missesAllowed ≤ missed then
    State.forceReconnect
      { s with missed := 0, hist := s.hist ++ [.ping (.escalated n s.sink)] }
  else { s with missed := missed }

/-- The loop after its `n`-th ping has returned; before that it stays inside it. -/
def afterPing (s : State E R) (n : ℕ) : State E R :=
  match s.pings (.keepalive n) with
  | .returned (.ok _) => keepaliveTop { s with missed := 0 }
  | .returned (.error _) => keepaliveTop (countMiss cfg s n)
  | _ => s

/-- The interval ran out: the flag and the interval are read again before the ping. -/
def beginPing (s : State E R) : State E R :=
  if s.closed then { s with keepalive := .exited }
  else if (storedInterval s.intervalMillis).isNone then keepaliveTop s
  else
    let n := s.keepalivePings
    afterPing cfg
      (sendPingWithTimeout { s with keepalivePings := n + 1, keepalive := .pinging n }
        (.keepalive n) cfg.pingTimeout) n

def keepalivePoll (s : State E R) (p : Poll) : Option (State E R) :=
  match s.keepalive, p with
  | .start, .ready => some (keepaliveTop s)
  | .parked, .ready =>
    if s.changed then some (keepaliveTop { s with changed := false, missed := 0 }) else none
  | .waiting _, .ready =>
    if s.changed then some (keepaliveTop { s with changed := false, missed := 0 }) else none
  | .waiting _, .timer => if s.changed then none else some (beginPing cfg s)
  | _, _ => none

/-- A poll of the loop inside its `n`-th ping. -/
def keepalivePingPoll (s : State E R) (n : ℕ) (p : Poll) : Option (State E R) :=
  match s.keepalive with
  | .pinging m =>
    if m = n then (pingPoll s (.keepalive n) p).map fun s => afterPing cfg s n else none
  | _ => none

/-- `set_ping_interval`. -/
def setPingInterval (s : State E R) (interval : Option Duration) : State E R :=
  { s with
    intervalMillis := storedMillis (interval.filter fun d => !d.isZero)
    changed := true }

/-- `ping_interval`. -/
def pingInterval (s : State E R) : Option Duration := storedInterval s.intervalMillis

end OcppClient
