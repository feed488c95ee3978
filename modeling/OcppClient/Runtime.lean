import OcppClient.Client
import OcppClient.Lib.Polling

/-!
# A client on an executor

`client` polls any task at any time. An executor polls a task only once it was woken, and a pending
poll has to leave a waker behind wherever the task may have to go on. Here this is followed where
the tasks of a client wait for a `Signal`, alone or in one of the races of `with_timeout` and
`with_cancel`: a signal, a timer and `recv` each keep the waker of the last pending poll, and wake
it when they come ready. At its other `await`s a task goes on as in `client`. `wait_for` is among
those, since it races all of `Chan::recv` against its timer.
-/

namespace OcppClient

open Transition Polling

variable {E R : Type}

/-! ## Races -/

/-- The error of `with_timeout`. -/
inductive Elapsed
  | elapsed

/-- The error of `with_cancel`. -/
inductive Cancelled
  | cancelled

/-- `with_cancel`. -/
def withCancel {W α : Type} (fut : Future W α) (cancel : Future W Unit) :
    Future W (Except Cancelled α) :=
  race .cancelled fut cancel

/-- `with_timeout`, given `timer.delay(duration)`. -/
def withTimeout {W α : Type} (delay : Future W Unit) (fut : Future W α) :
    Future W (Except Elapsed α) :=
  race .elapsed fut delay

/-- The `await`s on a `Signal`: `wait` alone, `with_timeout` of it, and `with_cancel` by it of
`recv` and of the backoff's delay. -/
inductive Race
  | wait
  | timeout
  | recv
  | backoff
  deriving DecidableEq

/-- One of the two futures is a timer's. -/
def Race.timed : Race → Bool
  | .timeout | .backoff => true
  | _ => false

namespace State

/-- The `await` on a signal that a task stands at. -/
def race (s : State E R) : Task → Option Race
  | .read =>
    match s.read with
    | .recv => some .recv
    | .backoff _ => some .backoff
    | _ => none
  | .keepalive =>
    match s.keepalive with
    | .parked => some .wait
    | .waiting _ => some .timeout
    | _ => none
  | .call c =>
    match s.calls c with
    | .waiting _ _ => some .timeout
    | _ => none
  | .ping p =>
    match s.pings p with
    | .waiting _ _ => some .timeout
    | _ => none
  | .handler o =>
    match s.handlers o with
    | .wait => some .wait
    | _ => none
  | .notificationHandler o =>
    match s.notificationHandlers o with
    | .wait => some .wait
    | _ => none
  | .subscriber i =>
    match s.subs i with
    | .wait => some .wait
    | _ => none
  | _ => none

/-- The signal that a task waits for is set. -/
def signalled (s : State E R) : Task → Bool
  | .read => s.wake
  | .keepalive => s.changed
  | .call c => (s.responses c).isSome
  | .ping p => s.pongs p
  | .handler o => (s.requests.chans (.on o)).signal
  | .notificationHandler o => (s.notifications.chans o).signal
  | .subscriber i => s.signals i
  | _ => false

end State

/-! ## Wakers -/

/-- A future of the runtime or of the transport: new, with the waker of a pending poll, or ready. -/
inductive Rival (α : Type)
  | unpolled
  | polled
  | ready (v : α)

def Rival.isPolled {α : Type} : Rival α → Bool
  | .polled => true
  | _ => false

/-- A client, the tasks that are to be polled, and where their wakers are: in the signal a task
waits for (`parked`), in its timer, and in `recv`. -/
structure Scheduled (E R : Type) where
  client : State E R
  woken : Task → Bool
  parked : Task → Bool
  timers : Task → Rival Unit
  inbox : Rival (Option TransportEvent)

namespace Scheduled

/-- `Signal::wait`. What a ready signal holds is taken by the step of the client that follows. -/
def wait (t : Task) : Future (Scheduled E R) Unit := fun w =>
  if w.client.signalled t then (.ready (), w)
  else (.pending, { w with parked := Function.update w.parked t true })

/-- `Timer::delay`. -/
def delay (t : Task) : Future (Scheduled E R) Unit := fun w =>
  match w.timers t with
  | .ready _ => (.ready (), w)
  | _ => (.pending, { w with timers := Function.update w.timers t .polled })

/-- `TransportStream::recv`, with `none` for the end of the stream. -/
def recv : Future (Scheduled E R) (Option TransportEvent) := fun w =>
  match w.inbox with
  | .ready e => (.ready e, { w with inbox := .unpolled })
  | _ => (.pending, { w with inbox := .polled })

/-- The poll of a task at a race, and the step with which the client goes on from there. -/
def poll (t : Task) : Race → Future (Scheduled E R) (Act E)
  | .wait => (wait t).map fun _ => .poll t .ready
  | .timeout =>
    (withTimeout (delay t) (wait t)).map fun
      | .ok _ => .poll t .ready
      | .error _ => .poll t .timer
  | .recv =>
    (withCancel recv (wait t)).map fun
      | .ok e => .recv e
      | .error _ => .poll t .ready
  | .backoff =>
    (withCancel (delay t) (wait t)).map fun
      | .ok _ => .poll t .timer
      | .error _ => .poll t .ready

/-- The client has taken a step to `s`: the signals it set have woken who waits for them, and a task
that has come to another `await` is running. -/
def moved (w : Scheduled E R) (s : State E R) : Scheduled E R :=
  { w with
    client := s
    woken := fun u => w.woken u || w.parked u && s.signalled u || s.race u ≠ w.client.race u
    parked := fun u => w.parked u && !s.signalled u }

/-- The task goes on past its race; the next one has a timer of its own. -/
def running (w : Scheduled E R) (t : Task) : Scheduled E R :=
  { w with
    woken := Function.update w.woken t true
    timers := Function.update w.timers t .unpolled }

end Scheduled

/-! ## The executor -/

/-- A step of the client elsewhere than at a race, the poll of a task at its race, a timer that runs
out, or something for `recv` to return. -/
inductive ScheduledAct (E : Type)
  | act (a : Act E)
  | poll (t : Task)
  | fire (t : Task)
  | arrive (e : Option TransportEvent)

/-- The step ends a race. -/
def Act.atRace (s : State E R) : Act E → Bool
  | .poll t _ => (s.race t).isSome
  | .recv _ => true
  | _ => false

section Step

variable [ProtocolError E] (env : Env R) (cfg : ClientConfig)

def Scheduled.pollTask (w : Scheduled E R) (t : Task) (r : Race) : Option (Scheduled E R) :=
  match Scheduled.poll t r { w with woken := Function.update w.woken t false } with
  | (.pending, w') => some w'
  | (.ready a, w') => (OcppClient.step env cfg w'.client a).map fun s => (w'.moved s).running t

def Scheduled.step (w : Scheduled E R) : ScheduledAct E → Option (Scheduled E R)
  | .act a =>
    if a.atRace w.client then none else (OcppClient.step env cfg w.client a).map w.moved
  | .poll t =>
    match w.client.race t with
    | some r => if w.woken t then w.pollTask env cfg t r else none
    | none => none
  | .fire t =>
    if (w.client.race t).any Race.timed then
      some
        { w with
          timers := Function.update w.timers t (.ready ())
          woken := Function.update w.woken t (w.woken t || (w.timers t).isPolled) }
    else none
  | .arrive e =>
    match w.client.race .read, w.inbox with
    | some .recv, .unpolled => some { w with inbox := .ready e }
    | some .recv, .polled =>
      some { w with inbox := .ready e, woken := Function.update w.woken .read true }
    | _, _ => none

/-- A client whose executor polls a task at a race once it was woken. -/
def scheduled : Machine (Scheduled E R) (ScheduledAct E) where
  init := ⟨.new cfg, fun _ => true, fun _ => false, fun _ => .unpolled, .unpolled⟩
  step := Scheduled.step env cfg

end Step

end OcppClient
