import OcppClient.Lib.AsyncProgress
import OcppClient.Proofs.LockRuns

/-!
# The lock discipline of the client

No task waits for a mutex while it holds another, the only thing awaited under one is an operation
on the sink under the sink's, and none is held while a callback runs. So no wait is cyclic, and what
a handler awaits inside its callback keeps the read loop from nothing.
-/

namespace OcppClient.Locks

open Async Transition Machine

/-- The mutex under which the transport is awaited. -/
def AllowsTransport (m : MutexId) : Prop := m = .sink

/-! ## The code is disciplined -/

theorem sinkOp_disciplined : sinkOp.Disciplined AllowsTransport := rfl

theorem writeOnce_disciplined : writeOnce.Disciplined AllowsTransport :=
  Code.disciplined_either.2 ⟨trivial, sinkOp_disciplined⟩

theorem exchange_disciplined (table : MutexId) : (exchange table).Disciplined AllowsTransport := by
  have hforget : (Code.either .skip (.guarded table .skip)).Disciplined AllowsTransport :=
    Code.disciplined_either.2 ⟨trivial, trivial⟩
  refine Code.disciplined_either.2 ⟨trivial, trivial, sinkOp_disciplined, ?_⟩
  exact Code.disciplined_either.2 ⟨trivial, trivial, hforget⟩

theorem chanRecv_disciplined (queue : MutexId) : (chanRecv queue).Disciplined AllowsTransport :=
  ⟨trivial, Code.disciplined_either.2 ⟨trivial, trivial⟩⟩

theorem handleEvent_disciplined : handleEvent.Disciplined AllowsTransport := by
  have hcall : handleCall.Disciplined AllowsTransport := by
    refine ⟨trivial, fun n => ?_⟩
    rcases n with _ | _ | n
    · exact writeOnce_disciplined
    · exact fun _ => trivial
    · exact fun _ => trivial
  have hsend : handleSend.Disciplined AllowsTransport :=
    ⟨trivial, Code.disciplined_either.2 ⟨trivial, fun _ => trivial⟩⟩
  intro n
  rcases n with _ | _ | n
  · intro n
    rcases n with _ | _ | _ | n
    · trivial
    · exact hcall
    · trivial
    · exact hsend
  · exact ⟨trivial, sinkOp_disciplined⟩
  · trivial

theorem readLoop_disciplined : readLoop.Disciplined AllowsTransport := by
  have hdial : dialLoop.Disciplined AllowsTransport := by
    refine ⟨trivial, Code.disciplined_either.2 ⟨trivial, trivial, ?_⟩⟩
    exact Code.disciplined_either.2 ⟨trivial, trivial, trivial⟩
  have hclose : (Code.guarded .sink (.timed .transport)).Disciplined AllowsTransport := rfl
  refine ⟨⟨trivial, Code.disciplined_either.2 ⟨trivial, handleEvent_disciplined⟩⟩, fun n => ?_⟩
  rcases n with _ | _ | n
  · trivial
  · trivial
  · exact ⟨Code.disciplined_either.2 ⟨trivial, hclose⟩, trivial, hdial⟩

theorem keepaliveLoop_disciplined : keepaliveLoop.Disciplined AllowsTransport := by
  intro n
  rcases n with _ | _ | n
  · trivial
  · trivial
  · exact ⟨trivial, Code.disciplined_either.2 ⟨trivial, exchange_disciplined _⟩⟩

theorem Method.disciplined {c : Code MutexId} (h : Method c) : c.Disciplined AllowsTransport := by
  cases h with
  | call => exact exchange_disciplined _
  | on o =>
    refine ⟨trivial, chanRecv_disciplined _, fun n => ?_⟩
    rcases n with _ | _ | n
    · trivial
    · exact ⟨trivial, writeOnce_disciplined⟩
    · exact writeOnce_disciplined
  | waitFor w =>
    refine ⟨trivial, chanRecv_disciplined _, ?_, trivial⟩
    exact Code.disciplined_either.2 ⟨trivial, trivial, writeOnce_disciplined⟩
  | sendNotification => exact writeOnce_disciplined
  | onNotification o =>
    exact ⟨trivial, chanRecv_disciplined _, Code.disciplined_either.2 ⟨trivial, trivial⟩⟩
  | sendPing => exact exchange_disciplined _
  | onBroadcast b => exact ⟨trivial, trivial, trivial⟩
  | disconnect => exact writeOnce_disciplined
  | pendingRequestCount => trivial
  | pendingPingCount => trivial
  | immediate => trivial

theorem inv_of_locks {n : System Name MutexId} (h : Reach locks (Uses Method) n) :
    Inv AllowsTransport n := by
  refine inv_of_reach (fun t => ?_) (fun _ => rfl) (fun _ hc => hc.disciplined) h
  unfold init
  dsimp only
  split
  · simpa [Item.Free] using readLoop_disciplined
  · simpa [Item.Free] using keepaliveLoop_disciplined
  · exact free_nil

/-! ## The handling of an event -/

/-- The read loop handles an event without any `await` but of mutexes and of the sink. -/
theorem handleEvent_prompt : handleEvent.Prompt := by
  have hcall : handleCall.Prompt := by
    refine ⟨trivial, fun n => ?_⟩
    rcases n with _ | _ | n
    · exact Code.prompt_either.2 ⟨trivial, trivial⟩
    · exact fun _ => trivial
    · exact fun _ => trivial
  have hsend : handleSend.Prompt :=
    ⟨trivial, Code.prompt_either.2 ⟨trivial, fun _ => trivial⟩⟩
  intro n
  rcases n with _ | _ | n
  · intro n
    rcases n with _ | _ | _ | n
    · trivial
    · exact hcall
    · trivial
    · exact hsend
  · exact ⟨trivial, trivial⟩
  · trivial

/-- Wherever the read loop stands in the handling of an event, it gets to its end without a move of
any task that is parked in a callback or at an `await` of its own. -/
theorem getsTo_of_handleEvent {n : System Name MutexId} (hI : Inv AllowsTransport n)
    {σ k : List (Item MutexId)} (hσ : Rest handleEvent σ)
    (hk : n.stack (.spawned .read) = σ ++ k) :
    Attains (fun u => ¬n.Parked u) (fun n' => n'.stack (.spawned .read) = k) n := by
  have hp := hσ.prompt handleEvent_prompt
  rcases σ with _ | ⟨i, σ⟩
  · exact .now hk
  have hread : ¬n.Parked (.spawned .read) := by
    rintro ⟨k', hk' | hk'⟩
    all_goals
      rw [hk] at hk'
      have hi := hp i (List.mem_cons_self ..)
      rw [(List.cons.inj hk').1] at hi
      exact hi
  have hsleep : Asleep AllowsTransport n.Parked n := ⟨hI, fun _ => id⟩
  exact (hsleep.getsTo hread hp hk).bind fun n' h => .now h.2

/-! ## The discipline -/

structure KeepsLocks (n : System Name MutexId) : Prop where
  /-- Who waits for a mutex holds none. -/
  waits : ∀ t m m', n.Waits t m → n.owner m' ≠ some t
  /-- Who is suspended while it holds one is in an operation on the sink, under the sink's mutex. -/
  suspends : ∀ t m, n.Suspended t → n.owner m = some t →
    m = .sink ∧ ∃ k, n.stack t = .run .transport :: k
  /-- No guard waits below a callback to be dropped, and while the callback is at its own code its
  task holds none at all. -/
  callbacks : ∀ t σ k, n.stack t = σ ++ .run .callback :: k →
    (∀ m, .release m ∉ k) ∧ (σ = [] → ∀ m, n.owner m ≠ some t)
  acyclic : ∀ t, ¬Relation.TransGen n.WaitsFor t t
  /-- As operations on the sink end, a mutex is freed by its holder alone. -/
  frees : ∀ m u, n.owner m = some u → Attains (· = u) (fun n' => n'.owner m = none) n
  /-- The read loop handles its event whatever the parked tasks wait for. -/
  handles : ∀ σ k, Rest handleEvent σ → n.stack (.spawned .read) = σ ++ k →
    Attains (fun u => ¬n.Parked u) (fun n' => n'.stack (.spawned .read) = k) n

theorem keepsLocks_of_inv {n : System Name MutexId} (hI : Inv AllowsTransport n) :
    KeepsLocks n where
  waits _ _ _ h := hI.waits h
  suspends _ _ h ho := hI.suspended h ho
  callbacks t σ k hk := by
    refine ⟨fun m hm => (hk ▸ hI.sound t).below_callback _ hm, ?_⟩
    rintro rfl m
    exact hI.parked ⟨k, .inr hk⟩
  acyclic := hI.acyclic
  frees _ _ ho := (hI.frees ho).bind fun _ h => .now h.2.1
  handles _ _ hσ hk := getsTo_of_handleEvent hI hσ hk

/-- Wherever the tasks stand, inside a critical section or at an `await`, they keep the discipline;
and where the client stands its tasks do. -/
theorem keepsLocks_of_reach {E R : Type} [ProtocolError E] (env : Env R) (cfg : ClientConfig) :
    (∀ n, Reach locks (Uses Method) n → KeepsLocks n)
      ∧ ∀ s : State E R, Reach (client env cfg) Any s → Reach locks (Uses Method) (lockView s) :=
  ⟨fun _ h => keepsLocks_of_inv (inv_of_locks h), fun _ h => reach_lockView env cfg h⟩

/-- A handler is registered, gets a request, and in its callback makes a call of its own up to the
wait for the answer; meanwhile the read loop has received it. -/
def answeredInHandler : List (Name × Move Name MutexId) :=
  [(.app (.on 0), [.start, .method (on 0), .go, .go, .go, .go, .spawn (.spawned (.handler 0))]),
    (.spawned (.handler 0),
      [.again, .go, .again, .go, .go, .go, .go, .choose 0, .go, .go, .choose 1, .go,
        .method doSendRequest, .choose 1, .go, .go, .go, .go, .go, .go, .go, .go, .choose 1, .go,
        .go]),
    (.spawned .read,
      [.again, .go, .again, .go, .go, .go, .go, .choose 1, .choose 0, .choose 2])].flatMap
    fun (t, mvs) => mvs.map (t, ·)

/-- The same at the client's own steps, with the call still inside its write. -/
def answeredInWrite : List (Act WireError) :=
  [.on 0 "A", .poll (.on 0) .ready, .recv (some (.frame callFrame)), .poll .read .ready,
    .poll .read .ready, .poll (.handler 0) .ready, .call 0 "A" (.ok .null), .poll (.call 0) .ready,
    .poll (.call 0) .ready, .recv (some (.frame resultFrame))]

theorem keepsLocks_of_answeredInHandler :
    (∃ n, locks.run locks.init answeredInHandler = some n
      ∧ n.stack (.spawned (.handler 0))
        = [.run .wait, .expiry, .run (.either .skip (.guarded .pendingResponses .skip)),
          .run .callback, .run doSendResponse, .run (handlerTask 0)]
      ∧ n.stack (.spawned .read) = .run handleResponse :: receiving ∧ KeepsLocks n)
    ∧ ∃ s, scenario.run scenario.init answeredInWrite = some s ∧ s.holder = some (.call 0)
      ∧ (lockView s).stack (.spawned .read) = .run handleResponse :: receiving
      ∧ KeepsLocks (lockView s) := by
  obtain ⟨hlocks, hview⟩ := keepsLocks_of_reach (E := WireError) scenarioEnv scenarioConfig
  have huses : locks.Meets (Uses Method) locks.init answeredInHandler := by
    refine meets_of_forall (P := Uses Method locks.init) _ _ ?_
    simp [answeredInHandler, Uses, Method.on, Method.call]
  refine ⟨⟨_, rfl, rfl, rfl, hlocks _ (reach_of_run answeredInHandler .init huses rfl)⟩, ?_⟩
  exact ⟨_, rfl, rfl, rfl, hlocks _ (hview _ (reach_any_of_run answeredInWrite rfl))⟩

end OcppClient.Locks
