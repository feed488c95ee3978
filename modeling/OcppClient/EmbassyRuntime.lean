import OcppClient.Client

/-!
# A client on `EmbassyExecutor`

`EmbassyExecutor::spawn` puts a boxed future into one of the slots of `run_boxed_future`. A slot is
free again when its future has finished; while all of them are taken `run_boxed_future` fails, and
`spawn` logs that and drops the future. The client does not learn of it: `on` has entered its
channel by then, and closed the one it replaced.
-/

namespace OcppClient

open Transition

/-- `POOL_SIZE`, and the `pool_size` of `run_boxed_future`. -/
def poolSize : ℕ := 8

/-- The futures in the slots of `run_boxed_future`. -/
structure TaskPool where
  tasks : List Task
  fits : tasks.length ≤ poolSize

namespace TaskPool

def empty : TaskPool := ⟨[], Nat.zero_le _⟩

/-- `EmbassyExecutor::spawn`. -/
def spawn (p : TaskPool) (t : Task) : TaskPool :=
  if h : p.tasks.length < poolSize then ⟨p.tasks ++ [t], by rw [List.length_append]; exact h⟩
  else p

/-- The slots of the finished futures are freed. -/
def reap (p : TaskPool) (finished : Task → Bool) : TaskPool :=
  ⟨p.tasks.filter fun t => !finished t, Nat.le_trans (List.length_filter_le _ _) p.fits⟩

end TaskPool

variable {E R : Type}

namespace State

/-- The spawned futures that have finished. Those of `on_ping` and `on_reconnect` never do. -/
def finished (s : State E R) : Task → Bool
  | .read =>
    match s.read with
    | .exited => true
    | _ => false
  | .keepalive => s.keepalive = .exited
  | .handler o =>
    match s.handlers o with
    | .exited => true
    | _ => false
  | .notificationHandler o =>
    match s.notificationHandlers o with
    | .exited => true
    | _ => false
  | _ => false

/-- The future a step spawns. -/
def spawns (s : State E R) : Act E → Option Task
  | .poll (.on o) .ready =>
    match s.ons o with
    | .lock _ => some (.handler o)
    | _ => none
  | .poll (.onNotification o) .ready =>
    match s.onNotifications o with
    | .lock _ => some (.notificationHandler o)
    | _ => none
  | .poll (.subscriber i) .ready =>
    match s.subs i with
    | .subscribe _ => some (.subscriber i)
    | _ => none
  | _ => none

/-- The spawned future that takes a step. The calls of the application run in its own tasks. -/
def runner (s : State E R) : Act E → Option Task
  | .poll .read _ | .recv _ => some .read
  | .poll .keepalive _ | .poll (.ping (.keepalive _)) _ => some .keepalive
  | .poll (.handler o) _ | .respond o _ => some (.handler o)
  | .poll (.notificationHandler o) _ => some (.notificationHandler o)
  | .poll (.subscriber i) _ =>
    match s.subs i with
    | .subscribe _ => none
    | _ => some (.subscriber i)
  | _ => none

end State

/-- A client and the pool its tasks were spawned into. -/
structure Embedded (E R : Type) where
  state : State E R
  pool : TaskPool

variable [ProtocolError E] (env : Env R) (cfg : ClientConfig)

/-- A spawned future runs while it has a slot. -/
def Embedded.step (s : Embedded E R) (a : Act E) : Option (Embedded E R) :=
  if ∀ t ∈ s.state.runner a, t ∈ s.pool.tasks then
    (OcppClient.step env cfg s.state a).map fun s' =>
      ⟨s', ((s.state.spawns a).elim s.pool s.pool.spawn).reap s'.finished⟩
  else none

/-- `from_transport_with_config` on an executor whose slots are all free. -/
def embedded : Machine (Embedded E R) (Act E) where
  init := ⟨.new cfg, (TaskPool.empty.spawn .read).spawn .keepalive⟩
  step := Embedded.step env cfg

end OcppClient
