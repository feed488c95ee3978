import OcppClient.Lib.Transition
import OcppClient.State

/-!
# Shutdown, one shared access at a time

The closed flag, the two `Notify`s and the stored interval are shared without a lock, so on a
runtime with threads a `disconnect` can come between any two accesses of the loops to them. Here
every access is a step of its own: a load or the swap of the flag, a `notify`, a `wait` that comes
ready, a load or a store of the interval. What a loop does between two of them changes none of the
four and is left open: events, dials and pings come out as they like, and a timer can fire even
though the signal it is raced against was set meanwhile. The count of the pings missed is the
keepalive loop's own and goes with its accesses.

`shared` reads this state off a client between two steps of `client`.
-/

namespace OcppClient.Handshake

open Transition

/-- `disconnect`: past the swap of the flag, the first `notify` and the second. -/
inductive DisconnectAt
  | idle
  | flagged
  | woke
  | notified
  | alreadyClosed
  deriving DecidableEq

/-- The read loop: in one of its two races, past a signal that ended it, or elsewhere. -/
inductive ReadAt
  | recv
  | woken
  | handling
  | left (reason : LoopExit)
  | closing
  | backoff
  | wokenBackoff
  | beforeDial
  | dial
  | installing
  | exited
  deriving DecidableEq

/-- `keepalive_loop`: before its loads of the flag (`top`, `expired`, and `givingUp` inside
`force_reconnect`) and of the interval (`interval`, `recheck`), in one of its two waits, in a
ping, or before the `notify` of `force_reconnect`. -/
inductive KeepaliveAt
  | top
  | interval
  | parked
  | waiting
  | expired
  | recheck
  | pinging
  | givingUp
  | raising
  | exited
  deriving DecidableEq

/-- What is shared, and where the tasks stand. `raising` counts the `force_reconnect`s between
their load of the flag and their `notify`, `setting` the `set_ping_interval`s between their store
and theirs; `missed` is `keepalive_loop`'s. -/
structure Shared where
  closed : Bool
  wake : Bool
  changed : Bool
  intervalMillis : ℕ
  disconnects : ℕ → DisconnectAt
  raising : ℕ
  setting : ℕ
  read : ReadAt
  keepalive : KeepaliveAt
  missed : ℕ

def Shared.new (cfg : ClientConfig) : Shared where
  closed := false
  wake := false
  changed := false
  intervalMillis := storedMillis cfg.keepalive.initialInterval
  disconnects := fun _ => .idle
  raising := 0
  setting := 0
  read := .recv
  keepalive := .top
  missed := 0

/-- How a loop goes on: by itself, with the signal it waits for, with its timer, with a dial or a
ping that failed, or with the end of the stream. -/
inductive Turn
  | next
  | take
  | timer
  | fail
  | eof
  deriving DecidableEq

inductive Access
  | disconnect (d : ℕ)
  | forceReconnect
  | notifyForceReconnect
  | setInterval (millis : ℕ)
  | notifyChanged
  | read (t : Turn)
  | keepalive (t : Turn)
  deriving DecidableEq

variable (cfg : ClientConfig)

def disconnectStep (s : Shared) (d : ℕ) : Option Shared :=
  match s.disconnects d with
  | .idle =>
    if s.closed then some { s with disconnects := Function.update s.disconnects d .alreadyClosed }
    else some { s with closed := true, disconnects := Function.update s.disconnects d .flagged }
  | .flagged =>
    some { s with wake := true, disconnects := Function.update s.disconnects d .woke }
  | .woke =>
    some { s with changed := true, disconnects := Function.update s.disconnects d .notified }
  | _ => none

def readStep (s : Shared) (t : Turn) : Option Shared :=
  match s.read, t with
  | .recv, .next => some { s with read := .handling }
  | .recv, .eof => some { s with read := .left .eof }
  | .recv, .take => if s.wake then some { s with wake := false, read := .woken } else none
  | .woken, .next =>
    some
      { s with
        read :=
          if s.closed then .left .shutdown
          else if cfg.reconnector then .left .forced
          else .recv }
  | .handling, .next => some { s with read := .recv }
  | .left reason, .next =>
    some
      { s with
        read :=
          if reason = .shutdown ∨ s.closed then .exited
          else if cfg.reconnector then .closing
          else .exited }
  | .closing, .next => some { s with read := .backoff }
  | .backoff, .timer => some { s with read := .beforeDial }
  | .backoff, .take => if s.wake then some { s with wake := false, read := .wokenBackoff } else none
  | .wokenBackoff, .next => some { s with read := if s.closed then .exited else .beforeDial }
  | .beforeDial, .next => some { s with read := if s.closed then .exited else .dial }
  | .dial, .next => some { s with read := .installing }
  | .dial, .fail => some { s with read := .backoff }
  | .installing, .next => some { s with read := .recv }
  | _, _ => none

def keepaliveStep (s : Shared) (t : Turn) : Option Shared :=
  match s.keepalive, t with
  | .top, .next => some { s with keepalive := if s.closed then .exited else .interval }
  | .interval, .next =>
    some
      { s with
        keepalive := if (storedInterval s.intervalMillis).isNone then .parked else .waiting }
  | .parked, .take =>
    if s.changed then some { s with changed := false, keepalive := .top, missed := 0 } else none
  | .waiting, .take =>
    if s.changed then some { s with changed := false, keepalive := .top, missed := 0 } else none
  | .waiting, .timer => some { s with keepalive := .expired }
  | .expired, .next => some { s with keepalive := if s.closed then .exited else .recheck }
  | .recheck, .next =>
    some
      { s with
        keepalive := if (storedInterval s.intervalMillis).isNone then .top else .pinging }
  | .pinging, .next => some { s with keepalive := .top, missed := 0 }
  | .pinging, .fail =>
    let missed := saturatingSucc s.missed
    if cfg.keepalive.policy.missesAllowed ≤ missed then
      some { s with keepalive := .givingUp, missed := 0 }
    else some { s with keepalive := .top, missed := missed }
  | .givingUp, .next => some { s with keepalive := if s.closed then .top else .raising }
  | .raising, .next => some { s with wake := true, keepalive := .top }
  | _, _ => none

def step (s : Shared) : Access → Option Shared
  | .disconnect d => disconnectStep s d
  | .forceReconnect => some (if s.closed then s else { s with raising := s.raising + 1 })
  | .notifyForceReconnect =>
    if s.raising = 0 then none else some { s with raising := s.raising - 1, wake := true }
  | .setInterval millis => some { s with intervalMillis := millis, setting := s.setting + 1 }
  | .notifyChanged =>
    if s.setting = 0 then none else some { s with setting := s.setting - 1, changed := true }
  | .read t => readStep cfg s t
  | .keepalive t => keepaliveStep cfg s t

def machine : Machine Shared Access where
  init := .new cfg
  step := step cfg

/-! ## The shared state of a client -/

variable {E R : Type}

def readAt : ReadPc E → ReadAt
  | .recv => .recv
  | .clearShutdown => .exited
  | .lockClose => .closing
  | .sendClose => .closing
  | .clearWaiters => .closing
  | .backoff _ => .backoff
  | .dial _ => .dial
  | .lockSwap _ => .installing
  | .notifyReconnect => .installing
  | .exited => .exited
  | _ => .handling

def keepaliveAt : KeepalivePc → KeepaliveAt
  | .start => .top
  | .parked => .parked
  | .waiting _ => .waiting
  | .pinging _ => .pinging
  | .exited => .exited

/-- A `disconnect` of `client` runs from its swap to the lock of the sink in one step. -/
def disconnectAt : DisconnectPc E → DisconnectAt
  | .idle => .idle
  | .alreadyClosed => .alreadyClosed
  | _ => .notified

def shared (s : State E R) : Shared where
  closed := s.closed
  wake := s.wake
  changed := s.changed
  intervalMillis := s.intervalMillis
  disconnects := fun d => disconnectAt (s.disconnects d)
  raising := 0
  setting := 0
  read := readAt s.read
  keepalive := keepaliveAt s.keepalive
  missed := s.missed

end OcppClient.Handshake
