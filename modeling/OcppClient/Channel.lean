import OcppClient.Lib.Transition
import OcppClient.State

/-!
# A channel, one shared access at a time

`Chan` of `Sync` has each operation whole. On a runtime with threads the senders, the `close`s and
the receiver come between each other's accesses, so here each of these is a step of its own: the
lock of the queue, the push or the pop under it and its release, the store and the load of the
flag, the set of the signal and the `wait` that takes it. Any number of senders send as often as
they like; the one receiver calls `recv` again and again, and may drop the call where it waits.

`view` reads this state off a `Chan` of the client between two of its steps.
-/

namespace OcppClient.Channel

open Transition

variable {T : Type}

/-- `send`: before the lock, past it, past the push and past the release. -/
inductive SendAt (T : Type)
  | idle
  | lock (v : T)
  | locked (v : T)
  | pushed
  | unlocked

/-- `close`: past the store of the flag, before the signal. -/
inductive CloseAt
  | idle
  | flagged
  deriving DecidableEq

/-- `recv`: before the lock and past it; with a value popped, with the queue found empty, and then
with the flag found set (`ended`) or not (`parking`), all of them under the lock; or in the wait. -/
inductive RecvAt (T : Type)
  | away
  | lock
  | locked
  | popped (v : T)
  | empty
  | ended
  | parking
  | waiting

/-- Who can hold the lock of the queue. -/
inductive Party
  | sender (i : ℕ)
  | receiver
  deriving DecidableEq

structure Shared (T : Type) where
  queue : List T
  signal : Bool
  closed : Bool
  holder : Option Party
  sends : ℕ → SendAt T
  closes : ℕ → CloseAt
  recv : RecvAt T

/-- A call of `send`, the next access of a `send`, a `close` or the `recv`, or the drop of the
`recv`. -/
inductive Access (T : Type)
  | call (i : ℕ) (v : T)
  | send (i : ℕ)
  | close (i : ℕ)
  | recv
  | drop

namespace Shared

def setSend (s : Shared T) (i : ℕ) (pc : SendAt T) : Shared T :=
  { s with sends := Function.update s.sends i pc }

def setClose (s : Shared T) (i : ℕ) (pc : CloseAt) : Shared T :=
  { s with closes := Function.update s.closes i pc }

end Shared

def sendStep (s : Shared T) (i : ℕ) : Option (Shared T) :=
  match s.sends i with
  | .idle => none
  | .lock v =>
    if s.holder = none then some ({ s with holder := some (.sender i) }.setSend i (.locked v))
    else none
  | .locked v => some ({ s with queue := s.queue ++ [v] }.setSend i .pushed)
  | .pushed => some ({ s with holder := none }.setSend i .unlocked)
  | .unlocked => some ({ s with signal := true }.setSend i .idle)

def closeStep (s : Shared T) (i : ℕ) : Shared T :=
  match s.closes i with
  | .idle => { s with closed := true }.setClose i .flagged
  | .flagged => { s with signal := true }.setClose i .idle

def recvStep (s : Shared T) : Option (Shared T) :=
  match s.recv with
  | .away => some { s with recv := .lock }
  | .lock =>
    if s.holder = none then some { s with holder := some .receiver, recv := .locked } else none
  | .locked =>
    match s.queue with
    | v :: queue => some { s with queue, recv := .popped v }
    | [] => some { s with recv := .empty }
  | .empty => some { s with recv := if s.closed then .ended else .parking }
  | .popped _ => some { s with holder := none, recv := .away }
  | .ended => some { s with holder := none, recv := .away }
  | .parking => some { s with holder := none, recv := .waiting }
  | .waiting => if s.signal then some { s with signal := false, recv := .lock } else none

def step (s : Shared T) : Access T → Option (Shared T)
  | .call i v =>
    match s.sends i with
    | .idle => some (s.setSend i (.lock v))
    | _ => none
  | .send i => sendStep s i
  | .close i => some (closeStep s i)
  | .recv => recvStep s
  | .drop =>
    match s.recv with
    | .lock => some { s with recv := .away }
    | .waiting => some { s with recv := .away }
    | _ => none

/-- A channel whose `recv` stands at `pc`, with nobody inside another operation. -/
def view (c : Chan T) (pc : RecvAt T) : Shared T where
  queue := c.queue
  signal := c.signal
  closed := c.closed
  holder := none
  sends := fun _ => .idle
  closes := fun _ => .idle
  recv := pc

def machine (T : Type) : Machine (Shared T) (Access T) where
  init := view .new .away
  step := step

/-! ## The channels of a client -/

variable {E R : Type}

def handlerAt : HandlerPc → RecvAt T
  | .recv => .lock
  | .wait => .waiting
  | _ => .away

def notificationHandlerAt : NotificationHandlerPc → RecvAt T
  | .recv => .lock
  | .wait => .waiting
  | _ => .away

def waitForAt : WaitForPc E → RecvAt T
  | .recv _ => .lock
  | .wait _ => .waiting
  | _ => .away

def requestAt (s : State E R) : ChanId → RecvAt (String × Value)
  | .on o => handlerAt (s.handlers o)
  | .waitFor w => waitForAt (s.waitFors w)

def notificationAt (s : State E R) (o : ℕ) : RecvAt Value :=
  notificationHandlerAt (s.notificationHandlers o)

def requestView (s : State E R) (ch : ChanId) : Shared (String × Value) :=
  view (s.requests.chans ch) (requestAt s ch)

def notificationView (s : State E R) (o : ℕ) : Shared Value :=
  view (s.notifications.chans o) (notificationAt s o)

end OcppClient.Channel
