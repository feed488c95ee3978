import OcppClient.Proofs.Calls
import OcppClient.Proofs.PingSteps

/-!
# Requests dropped by their callers

A `call` and a `send_ping` each take their entry out of a table after an `await`, and dropping the
future at one skips that. The entry stays unless the future is dropped before it has filed it, or
after the read loop has taken it out.
-/

namespace OcppClient

open Transition Correlation

variable {E R : Type}

/-- No task can go on before the peer, the transport, a timer or a caller does something. -/
def Parked [ProtocolError E] (env : Env R) (cfg : ClientConfig) (s : State E R) : Prop :=
  s.holder = none ∧ ∀ t, pollTask env cfg s t .ready = none

/-- Neither table has an entry of a request that its caller dropped. -/
structure NoLeftovers (s : State E R) : Prop where
  calls : ∀ c, s.calls c = .dropped → ∀ id, s.pendingResponses id ≠ some c
  pings : ∀ n, s.pings (.user n) = .dropped → ∀ token, s.waiters token ≠ some (.user n)

/-- A request is dropped while its table has no entry of it. -/
def DropsUnfiled (s : State E R) : Act E → Prop
  | .dropCall c => ∀ id, s.pendingResponses id ≠ some c
  | .dropPing n => ∀ token, s.waiters token ≠ some (.user n)
  | _ => True

/-- Where a call may stand whose entry is in `pending_responses`. -/
def CallPc.MayBeFiled : CallPc E R → Prop
  | .idle | .lockPending _ _ _ | .dropped => False
  | _ => True

/-- Where a ping may stand whose entry is in `PongState.waiters`. -/
def PingPc.MayBeFiled : PingPc E → Prop
  | .idle | .lockWaiters _ | .dropped => False
  | _ => True

structure FiledInv (s : State E R) : Prop where
  calls : Tracked CallPc.MayBeFiled s.pendingResponses s.calls
  pings : Tracked PingPc.MayBeFiled s.waiters s.pings

theorem FiledInv.noLeftovers {s : State E R} (h : FiledInv s) : NoLeftovers s := by
  refine ⟨fun c hc => h.calls.not_mem ?_, fun n hn => h.pings.not_mem ?_⟩
  · rw [hc]
    exact id
  · rw [hn]
    exact id

variable [ProtocolError E] (env : Env R) (cfg : ClientConfig) {s s' : State E R}

omit [ProtocolError E] in
theorem CallMove.tracked {c : ℕ} (h : CallMove env c s s')
    (hI : Tracked CallPc.MayBeFiled s.pendingResponses s.calls) :
    Tracked CallPc.MayBeFiled s'.pendingResponses s'.calls := by
  cases h with
  | register hc h =>
    subst h
    exact hI.file trivial
  | go hp hr hc hd hg hpc =>
    rw [hp, hc]
    refine hI.move (.inl ?_)
    rcases hpc with ⟨_, _, _, -, rfl⟩ | ⟨_, _, -, rfl | rfl | ⟨_, rfl⟩⟩ | ⟨_, _, -, rfl⟩ <;> trivial
  | take hc hv h =>
    subst h
    exact hI.move (.inl trivial)
  | forget hc h =>
    subst h
    exact (hI.erase _).move (.inl trivial)

theorem tracked_calls {a : Act E} (hP : DropsUnfiled s a) (hs : step env cfg s a = some s')
    (hI : Tracked CallPc.MayBeFiled s.pendingResponses s.calls) :
    Tracked CallPc.MayBeFiled s'.pendingResponses s'.calls := by
  cases call_cases env cfg hs with
  | frame h =>
    rw [h.pending, h.calls]
    exact hI
  | handle hr h =>
    subst h
    unfold resolvePending
    split <;> exact hI.erase _
  | begin h =>
    obtain ⟨hc, pc, hpc⟩ := doSendRequest_calls env h
    obtain ⟨_, _, rfl, -⟩ := doSendRequest_footprint env h
    rw [hpc]
    refine hI.move (.inr (hI.not_mem ?_))
    rw [hc]
    exact id
  | poll h => exact (callPoll_moves env h).tracked env hI
  | drop h =>
    have hpc := callDrop_calls h
    obtain ⟨_, _, _, rfl⟩ := callDrop_footprint h
    rw [hpc]
    exact hI.move (.inr hP)

omit [ProtocolError E] in
theorem PingMove.tracked {p : PingId} {poll : Poll} (h : PingMove p s s' poll)
    (hI : Tracked PingPc.MayBeFiled s.waiters s.pings) :
    Tracked PingPc.MayBeFiled s'.waiters s'.pings := by
  cases h with
  | register _ h => subst h; exact hI.file trivial
  | acquire _ _ h => subst h; exact hI.move (.inl trivial)
  | pend _ _ h => subst h; exact hI
  | written _ h => subst h; exact hI.move (.inl trivial)
  | failed _ h => subst h; exact hI.move (.inl trivial)
  | answered _ _ h => subst h; exact hI.move (.inl trivial)
  | expired _ _ h => subst h; exact hI.move (.inl trivial)
  | missed _ h => subst h; exact (hI.erase _).move (.inl trivial)

omit [ProtocolError E] in
/-- A ping that has not begun is in no table. -/
theorem tracked_begin_ping (hI : Tracked PingPc.MayBeFiled s.waiters s.pings) {p : PingId}
    (hp : s.pings p = .idle) (pc : PingPc E) :
    Tracked PingPc.MayBeFiled s.waiters (Function.update s.pings p pc) := by
  refine hI.move (.inr (hI.not_mem ?_))
  rw [hp]
  exact id

theorem tracked_pings {a : Act E} (hN : Numbered s) (hP : DropsUnfiled s a)
    (hs : step env cfg s a = some s') (hI : Tracked PingPc.MayBeFiled s.waiters s.pings) :
    Tracked PingPc.MayBeFiled s'.waiters s'.pings := by
  cases ping_cases env cfg hs with
  | recv h =>
    have hf := readRecv_frame env cfg h
    rw [hf.pings]
    exact hI.shrink hf.waiters
  | read h =>
    have hf := readPoll_frame env cfg h
    rw [hf.pings]
    exact hI.shrink hf.waiters
  | begin h =>
    obtain ⟨pc, hi, rfl, -⟩ := sendPing_pings cfg h
    exact tracked_begin_ping hI hi pc
  | poll h => exact h.tracked hI
  | drop h =>
    have hpc := pingDrop_pings h
    obtain ⟨_, _, _, rfl⟩ := pingDrop_footprint h
    rw [hpc]
    exact hI.move (.inr hP)
  | keepalive h =>
    cases h with
    | top _ _ _ h =>
      subst h
      exact hI
    | ping _ _ h =>
      subst h
      exact tracked_begin_ping hI (hN.idle _ (Nat.le_refl _)) _
  | keepalivePing hk hm ha =>
    obtain ⟨hp, hw, -⟩ := ha.frame
    rw [hp, hw]
    exact hm.tracked hI
  | other hf hw _ _ _ =>
    rw [hw, hf.pings]
    exact hI

theorem filedInv_of_reach (h : Machine.Reach (client env cfg) DropsUnfiled s) : FiledInv s := by
  refine h.invariant ⟨nofun, nofun⟩ fun s a s' hr hP hs hI => ?_
  exact ⟨tracked_calls env cfg hP hs hI.calls,
    tracked_pings env cfg (numbered_of_reach env cfg hr) hP hs hI.pings⟩

/-- In every run in which a request is dropped only before it has filed its entry or after the read
loop took that out, dropped requests leave nothing behind, whether or not the client is parked. -/
theorem noLeftovers_of_dropsUnfiled (h : Machine.Reach (client env cfg) DropsUnfiled s) :
    NoLeftovers s :=
  (filedInv_of_reach env cfg h).noLeftovers

/-- A call answered before its write has returned, and dropped then; and a ping dropped before it
has filed its entry. -/
def droppedUnfiled : List (Act WireError) :=
  [.call 0 "A" (.ok .null), .poll (.call 0) .ready, .poll (.call 0) .ready,
    .recv (some (.frame resultFrame)), .poll .read .ready, .dropCall 0, .ping 0, .dropPing 0]

theorem noLeftovers_of_droppedUnfiled :
    ∃ s, scenario.run scenario.init droppedUnfiled = some s ∧ s.calls 0 = .dropped
      ∧ s.pings (.user 0) = .dropped ∧ NoLeftovers s := by
  refine ⟨_, rfl, rfl, rfl, noLeftovers_of_dropsUnfiled scenarioEnv scenarioConfig
    (Machine.reach_of_run (M := scenario) droppedUnfiled .init
      ⟨trivial, trivial, trivial, trivial, trivial, ?_, trivial, nofun, trivial⟩ rfl)⟩
  intro id
  change Function.update (Function.update (fun _ => none) (uuidV4 0) (some 0)) (uuidV4 0) none id
    ≠ some 0
  simp [Function.update_apply]

/-- A call and a ping that the peer does not answer, each dropped while it waits. -/
def droppedWaiting : List (Act WireError) :=
  [.poll .keepalive .ready, .call 0 "A" (.ok .null), .poll (.call 0) .ready,
    .poll (.call 0) .ready, .poll (.call 0) (.done (.ok ())), .dropCall 0, .ping 0,
    .poll (.ping (.user 0)) .ready, .poll (.ping (.user 0)) .ready,
    .poll (.ping (.user 0)) (.done (.ok ())), .dropPing 0]

theorem dropped_while_waiting :
    ∃ s, Machine.Reach scenario Machine.Any s ∧ Parked scenarioEnv scenarioConfig s
      ∧ (s.calls 0 = .dropped ∧ s.pendingResponses (uuidV4 0) = some 0)
      ∧ (s.pings (.user 0) = .dropped ∧ s.waiters 0 = some (.user 0)) ∧ ¬ NoLeftovers s := by
  refine ⟨_, Machine.reach_any_of_run droppedWaiting rfl, ⟨rfl, fun t => ?_⟩, ⟨rfl, rfl⟩,
    ⟨rfl, rfl⟩, fun h => h.calls 0 rfl (uuidV4 0) rfl⟩
  match t with
  | .read | .keepalive | .call 0 | .call (_ + 1) | .ping (.user 0) | .ping (.user (_ + 1))
  | .ping (.keepalive _) | .notification _ | .disconnect _ | .on _ | .handler _ | .waitFor _
  | .onNotification _ | .notificationHandler _ | .subscriber _ => rfl

end OcppClient
