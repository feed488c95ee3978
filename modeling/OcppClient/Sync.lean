import Mathlib.Logic.Function.Basic
import Mathlib.Tactic.Common

/-!
# Channels

`Chan` of `sync.rs`, and a table of handlers over it: the action an inbound message names leads to
the channel its handler reads. Each operation here is what the source does under one lock, with the
signal it then sets; a `Signal` is a latch that a `wait` empties.
-/

namespace OcppClient

structure Chan (T : Type) where
  queue : List T
  signal : Bool
  closed : Bool

namespace Chan

variable {T : Type}

def new : Chan T := ⟨[], false, false⟩

def send (c : Chan T) (v : T) : Chan T := { c with queue := c.queue ++ [v], signal := true }

def close (c : Chan T) : Chan T := { c with closed := true, signal := true }

/-- One turn of the loop of `recv`, under the queue's lock: a value, `none` from a closed channel
that is drained, or the wait for the signal. -/
inductive Turn (T : Type)
  | value (v : T) (rest : Chan T)
  | none
  | wait

def recv (c : Chan T) : Turn T :=
  match c.queue with
  | v :: queue => .value v { c with queue }
  | [] => if c.closed then .none else .wait

/-- The latch after the `wait` that it ended. -/
def take (c : Chan T) : Chan T := { c with signal := false }

end Chan

/-- `request_senders` or `notification_senders`, and the channels in it. -/
structure Registry (κ T : Type) where
  senders : String → Option κ
  chans : κ → Chan T

namespace Registry

variable {κ T : Type} [DecidableEq κ]

def new : Registry κ T := ⟨fun _ => none, fun _ => .new⟩

def modify (r : Registry κ T) (ch : κ) (f : Chan T → Chan T) : Registry κ T :=
  { r with chans := Function.update r.chans ch (f (r.chans ch)) }

/-- Inserting a channel for an action, which closes the one it replaces. -/
def insert (r : Registry κ T) (action : String) (ch : κ) : Registry κ T :=
  let r' := match r.senders action with
    | some previous => r.modify previous .close
    | none => r
  { r' with senders := Function.update r.senders action (some ch) }

/-- Taking the entry of an action out if it is still `ch`. -/
def removeOwn (r : Registry κ T) (action : String) (ch : κ) : Registry κ T :=
  if r.senders action = some ch then
    { r with senders := Function.update r.senders action none }
  else r

end Registry

end OcppClient
