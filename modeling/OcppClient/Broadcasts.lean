import OcppClient.Lib.Transition
import OcppClient.State

/-!
# A broadcast registry, one shared access at a time

`BroadcastRegistry` of `sync.rs` with its subscribers and its notifiers. `subscribe` pushes a signal
of the subscriber's own under the lock, and `notify_all` sets the signals of the list one after the
other under it. The loop that `on_ping` and `on_reconnect` spawn takes its signal and runs its
callback to the end, however long that is, before it waits again. Each access is a step of its own:
the lock and its release, the push, every signal set, and the `wait` that takes one.

`view` reads this state off a client between two of its steps. Its read loop is the only notifier of
both registries: it calls `notify_all` for a ping it received, and for a transport it swapped in.
-/

namespace OcppClient.Broadcasts

open Transition

/-- A subscriber: `subscribe` before the lock, past it and past the push, and then the loop. -/
inductive SubAt
  | idle
  | lock
  | locked
  | pushed
  | waiting
  | callback
  deriving DecidableEq

/-- `notify_all` before the lock, or with the signals it has still to set. -/
inductive NotifyAt
  | idle
  | lock
  | signalling (rest : List ℕ)
  deriving DecidableEq

/-- Who can hold the lock of the list. -/
inductive Party
  | subscriber (i : ℕ)
  | notifier (n : ℕ)
  deriving DecidableEq

structure Shared where
  subscribers : List ℕ
  signals : ℕ → Bool
  holder : Option Party
  subs : ℕ → SubAt
  notifies : ℕ → NotifyAt

/-- A call of `subscribe` or of `notify_all`, or the next access of a subscriber or a notifier. -/
inductive Access
  | subscribe (i : ℕ)
  | sub (i : ℕ)
  | call (n : ℕ)
  | notify (n : ℕ)
  deriving DecidableEq

namespace Shared

def new : Shared := ⟨[], fun _ => false, none, fun _ => .idle, fun _ => .idle⟩

def setSub (s : Shared) (i : ℕ) (pc : SubAt) : Shared :=
  { s with subs := Function.update s.subs i pc }

def setNotify (s : Shared) (n : ℕ) (pc : NotifyAt) : Shared :=
  { s with notifies := Function.update s.notifies n pc }

end Shared

def subStep (s : Shared) (i : ℕ) : Option Shared :=
  match s.subs i with
  | .idle => none
  | .lock =>
    if s.holder = none then some ({ s with holder := some (.subscriber i) }.setSub i .locked)
    else none
  | .locked => some ({ s with subscribers := s.subscribers ++ [i] }.setSub i .pushed)
  | .pushed => some ({ s with holder := none }.setSub i .waiting)
  | .waiting =>
    if s.signals i then
      some ({ s with signals := Function.update s.signals i false }.setSub i .callback)
    else none
  | .callback => some (s.setSub i .waiting)

def notifyStep (s : Shared) (n : ℕ) : Option Shared :=
  match s.notifies n with
  | .idle => none
  | .lock =>
    if s.holder = none then
      some ({ s with holder := some (.notifier n) }.setNotify n (.signalling s.subscribers))
    else none
  | .signalling (i :: rest) =>
    some ({ s with signals := Function.update s.signals i true }.setNotify n (.signalling rest))
  | .signalling [] => some ({ s with holder := none }.setNotify n .idle)

def step (s : Shared) : Access → Option Shared
  | .subscribe i =>
    match s.subs i with
    | .idle => some (s.setSub i .lock)
    | _ => none
  | .sub i => subStep s i
  | .call n =>
    match s.notifies n with
    | .idle => some (s.setNotify n .lock)
    | _ => none
  | .notify n => notifyStep s n

def machine : Machine Shared Access where
  init := .new
  step := step

/-! ## The registries of a client -/

variable {E R : Type}

/-- A task of the client that is not in the list of `b` is not yet a subscriber of it. -/
def subAt (b : Broadcast) (listed : Bool) : SubscriberPc → SubAt
  | .idle => .idle
  | .subscribe b' => if b' = b then .lock else .idle
  | .wait => if listed then .waiting else .idle
  | .callback => if listed then .callback else .idle

/-- The read loop is about to notify the subscribers of `b`. -/
def notifying (b : Broadcast) : ReadPc E → Bool
  | .notifyPing _ => b = .ping
  | .notifyReconnect => b = .reconnect
  | _ => false

def view (b : Broadcast) (s : State E R) : Shared where
  subscribers := s.subscribers b
  signals := fun i => s.signals i && (s.subscribers b).contains i
  holder := none
  subs := fun i => subAt b ((s.subscribers b).contains i) (s.subs i)
  notifies := fun n => if n = 0 ∧ notifying b s.read then .lock else .idle

end OcppClient.Broadcasts
