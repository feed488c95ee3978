import OcppClient.Proofs.Endings

/-!
# Who can be left waiting

A transport operation may stay pending for ever, and its task keeps the sink's mutex meanwhile. The
read loop can then be parked where its wake signal does not reach it, and a request where its
timeout is not armed yet: the timer of a request starts once its write is done. Both hold in the
runs in which the tasks concerned find the sink free and their own writes do not stay pending.
-/

namespace OcppClient

open Transition

variable {E R : Type}

section Suspension

variable [ProtocolError E] (env : Env R) (cfg : ClientConfig) {s s' : State E R}

/-- The task is under way, and stands at an `await` that was polled and is not ready: nothing it
waits for has come, and no operation of its own is about to be polled for the first time. -/
structure Suspended (s : State E R) (t : Task) : Prop where
  unsettled : ¬ Settled s t
  unready : step env cfg s (.poll t .ready) = none
  pended : step env cfg s (.poll t .pend) = none

/-! ## The read loop -/

/-- With the wake signal set, the read loop is suspended only where a timer ends the wait. Where the
signal itself does, the loop is not suspended. -/
def Wakeable (s : State E R) : Prop :=
  s.wake = true → Suspended env cfg s .read →
    (step env cfg s (.poll .read .timer)).isSome = true

/-- No write of the read loop but the courtesy close stays pending, and no dial does with the signal
set, or has it set while it is pending; the loop finds the sink free when it comes to its mutex, and
no other task takes it while the loop waits there. -/
structure LoopUnblocked (s : State E R) (a : Act E) : Prop where
  pend : a = .poll .read .pend → s.read = .sendClose ∨ s.read = .dial false ∧ s.wake = false
  raise : ∀ s', step env cfg s a = some s' → s.read = .dial true → s'.wake = false
  free : ∀ s', step env cfg s a = some s' → s'.read.sink = .lock →
    s.read.sink = .lock ∨ s.holder = none
  wait : ∀ t, t ≠ .read → a = .poll t .ready → sinkPc s t = .lock → s.read.sink ≠ .lock

/-- A dial that stays pending did so at a poll of the loop. -/
theorem readPoll_dial {p : Poll} (hs : readPoll env cfg s p = some s') (hd : s'.read = .dial true) :
    p = .pend ∧ s.read = .dial false ∧ s'.wake = s.wake := by
  cases (readPoll_moves env cfg hs).leads env cfg with
  | dialPend hr _ =>
    simp only [readPoll, hr, Option.some.injEq] at hs
    exact ⟨rfl, hr, by rw [← hs]⟩
  | rest h => rw [hd] at h; exact h.elim
  | operation h => rw [hd] at h; exact h.elim
  | lookup _ h => cases hd.symm.trans h
  | installing h => rw [hd] at h; exact h.elim

theorem readRecv_dial {e : Option TransportEvent} (h : readRecv env cfg s e = some s') :
    s'.read ≠ .dial true := by
  intro hd
  rcases (readRecv_leads env cfg h).2 with hl | ⟨_, _, hl⟩
  · rw [hd] at hl
    exact hl
  · cases hd.symm.trans hl

/-- While a dial is pending the signal is clear. -/
theorem wake_of_pending_dial (h : Machine.Reach (client env cfg) (LoopUnblocked env cfg) s) :
    s.read = .dial true → s.wake = false := by
  refine h.invariant (I := fun s => s.read = .dial true → s.wake = false)
    (by simp [client, State.new]) fun s a s' _ hP hs _ hd => ?_
  cases loop_cases env cfg hs with
  | recv h => exact absurd hd (readRecv_dial env cfg h)
  | read h =>
    obtain ⟨rfl, hr, hw⟩ := readPoll_dial env cfg h hd
    rcases hP.pend rfl with hc | ⟨-, hclear⟩
    · cases hr.symm.trans hc
    · exact hw.trans hclear
  | disconnect h =>
    obtain ⟨_, _, _, _, _, rfl, -⟩ := disconnect_footprint h
    exact hP.raise _ hs hd
  | disconnectPoll h =>
    obtain ⟨_, _, _, _, rfl, -⟩ := disconnectPoll_footprint h
    exact hP.raise _ hs hd
  | other hf => exact hP.raise _ hs (hf.read.symm.trans hd)

omit [ProtocolError E] in
/-- An operation of the mutex says where its task stood before and stands after it. -/
theorem sinkPc_of_move {t : Task} {x : Mutex.Pc}
    (h : Mutex.step (sinkLock s) (.move t x) = some (sinkLock s')) : sinkPc s' t = x := by
  simp only [Mutex.step] at h
  split_ifs at h
  have hpc := congrArg (fun l => l.pc t) (Option.some.inj h)
  simpa [sinkLock] using hpc.symm

omit [ProtocolError E] in
theorem sinkPc_of_acquire {t : Task} {b : Bool}
    (h : Mutex.step (sinkLock s) (.acquire t b) = some (sinkLock s')) : sinkPc s t = .lock := by
  simp only [Mutex.step] at h
  split_ifs at h with hl
  exact hl.1

theorem loop_unblocked (h : Machine.Reach (client env cfg) (LoopUnblocked env cfg) s) :
    Mutex.Unblocked (· = Task.read) (sinkLock s) := by
  refine Mutex.unblocked (reach_sinkLock env cfg (fun s a s' b hP hs hb hstep => ?_) h)
  cases b with
  | move t x =>
    rintro rfl rfl
    exact hP.free s' hs (sinkPc_of_move hstep)
  | acquire t b =>
    rintro u rfl hne
    exact hP.wait t hne.symm hb (sinkPc_of_acquire hstep)
  | pend t =>
    rintro rfl hop
    rcases hP.pend hb with h | ⟨h, -⟩ <;> simp only [sinkLock, sinkPc, h] at hop <;> cases hop
  | release t => trivial

/-- Where the loop is not suspended without a timer. -/
theorem readPoll_timer (hlock : s.read.sink = .lock → s.holder = none)
    (hop : s.read.sink = .op false → s.pended = false) (hd : s.read ≠ .dial true)
    (hw : s.wake = true) (h : Suspended env cfg s .read) :
    (step env cfg s (.poll .read .timer)).isSome = true := by
  obtain ⟨hn, hr, hp⟩ := h
  simp only [step, pollTask] at hr hp ⊢
  cases hpc : s.read with
  | exited => exact absurd hpc hn
  | sendClose | backoff => simp [readPoll, hpc]
  | recv =>
    exfalso
    simp only [readPoll, hpc, readWoken, hw, if_true] at hr
    split_ifs at hr
  | lockNotImplemented | lockPong | lockClose =>
    simp [readPoll, hpc, State.issue, hlock (by rw [hpc]; rfl)] at hr
  | lockSwap => simp [readPoll, hpc, swapIn, hlock (by rw [hpc]; rfl)] at hr
  | sendNotImplemented | sendPong =>
    simp [readPoll, hpc, State.pend, hop (by rw [hpc]; rfl)] at hp
  | dial b =>
    cases b with
    | false => simp [readPoll, hpc] at hp
    | true => exact absurd hpc hd
  | lockNotificationSenders action payload =>
    cases hs : s.notifications.senders action <;> simp [readPoll, hpc, hs] at hr
  | _ => simp [readPoll, hpc] at hr

/-- In every run in which the read loop finds the sink free and nothing it waits for stays pending
with the signal set, the loop can be woken wherever it is. -/
theorem wakeable_of_loopUnblocked
    (h : Machine.Reach (client env cfg) (LoopUnblocked env cfg) s) : Wakeable env cfg s := by
  intro hw
  have hb := loop_unblocked env cfg h
  refine readPoll_timer env cfg (hb.lock .read rfl) (hb.op .read rfl) (fun hd => ?_) hw
  cases hw.symm.trans (wake_of_pending_dial env cfg h hd)

/-- A ping of the peer is answered, and then `force_reconnect` is called. -/
def answeredPing : List (Act WireError) :=
  [.recv (some (.ping [1])), .poll .read .ready, .poll .read .ready, .poll .read (.done (.ok ())),
    .forceReconnect]

theorem wakeable_of_answeredPing :
    ∃ s, scenario.run scenario.init answeredPing = some s ∧ s.wake = true
      ∧ s.hist = [.loop (.received (.ping [1])), .issued .read 0 (.pong [1]), .loop (.raised 0)]
      ∧ Wakeable scenarioEnv scenarioConfig s := by
  -- With the sink free, a step of the read loop that does not stay pending meets the condition.
  have hfree : ∀ (s : State WireError Unit) (a : Act WireError), s.holder = none →
      s.read ≠ .dial true → a ≠ .poll .read .pend → (∀ t, t ≠ .read → a ≠ .poll t .ready) →
      LoopUnblocked scenarioEnv scenarioConfig s a := fun s a hn hd hp ht =>
    ⟨fun h => absurd h hp, fun _ _ h => absurd h hd, fun _ _ _ => .inr hn,
      fun t hr h => absurd h (ht t hr)⟩
  refine ⟨_, rfl, rfl, rfl, wakeable_of_loopUnblocked scenarioEnv scenarioConfig
    (Machine.reach_of_run (M := scenario) answeredPing .init
      ⟨hfree _ _ rfl nofun nofun nofun, hfree _ _ rfl nofun nofun fun t ht h => ht ?_,
        hfree _ _ rfl nofun nofun fun t ht h => ht ?_,
        ⟨nofun, fun _ _ h => (nomatch h), fun s' hs hl => ?_, nofun⟩,
        hfree _ _ rfl nofun nofun nofun, trivial⟩ rfl)⟩
  · cases h
    rfl
  · cases h
    rfl
  · cases hs
    cases hl

/-- The answer to a ping of the peer stays pending, and `force_reconnect` is called. -/
def stuckPong : List (Act WireError) :=
  [.recv (some (.ping [1])), .poll .read .ready, .poll .read .ready, .poll .read .pend,
    .forceReconnect]

theorem stuck_pong :
    ∃ s, Machine.Reach scenario Machine.Any s ∧ s.wake = true ∧ s.read = .sendPong
      ∧ s.holder = some .read ∧ s.pended = true ∧ ¬ Wakeable scenarioEnv scenarioConfig s :=
  ⟨_, Machine.reach_any_of_run stuckPong rfl, rfl, rfl, rfl, rfl,
    fun h => nomatch h rfl ⟨nofun, rfl, rfl⟩⟩

/-! ## Requests and pings -/

/-- The futures that are bounded by a timeout. -/
def Request : Task → Prop
  | .call _ => True
  | .ping _ => True
  | _ => False

/-- The duration that `with_timeout` was given where a request or a ping waits for its answer. -/
def armedTimer (s : State E R) : Task → Option Duration
  | .call c => match s.calls c with
    | .waiting _ _ => some cfg.timeout
    | _ => none
  | .ping p => match s.pings p with
    | .waiting _ timeout => some timeout
    | _ => none
  | _ => none

/-- The timeout a request or a ping is to keep: the client's, or that of `KeepalivePolicy`. -/
def ownTimeout : Task → Duration
  | .ping (.keepalive _) => cfg.pingTimeout
  | _ => cfg.timeout

/-- A request or a ping is suspended only where a timer with its own timeout takes it on. -/
def Bounded (s : State E R) : Prop :=
  ∀ t, Request t → Suspended env cfg s t →
    (step env cfg s (.poll t .timer)).isSome = true
      ∧ armedTimer cfg s t = some (ownTimeout cfg t)

/-- No write of a request stays pending; a request finds the sink free when it comes to its mutex,
and no task takes the sink while another one's request waits there. -/
structure RequestsUnblocked (s : State E R) (a : Act E) : Prop where
  pend : ∀ t, Request t → a ≠ .poll t .pend
  free : ∀ t s', Request t → step env cfg s a = some s' → sinkPc s' t = .lock →
    sinkPc s t = .lock ∨ s.holder = none
  wait : ∀ t u, a = .poll t .ready → sinkPc s t = .lock → Request u → u ≠ t → sinkPc s u ≠ .lock

theorem requests_unblocked (h : Machine.Reach (client env cfg) (RequestsUnblocked env cfg) s) :
    Mutex.Unblocked Request (sinkLock s) := by
  refine Mutex.unblocked (reach_sinkLock env cfg (fun s a s' b hP hs hb hstep => ?_) h)
  cases b with
  | move t x =>
    rintro ht rfl
    exact hP.free t s' ht hs (sinkPc_of_move hstep)
  | acquire t b => exact fun u hu hne => hP.wait t u hb (sinkPc_of_acquire hstep) hu hne
  | pend t => exact fun ht => absurd hb (hP.pend t ht)
  | release t => trivial

/-- The deadline a ping carries. -/
def PingPc.timeout : PingPc E → Option Duration
  | .lockWaiters timeout => some timeout
  | .lockSink _ timeout => some timeout
  | .sending _ timeout => some timeout
  | .waiting _ timeout => some timeout
  | _ => none

def OwnTimeouts (s : State E R) : Prop :=
  ∀ p t, (s.pings p).timeout = some t → t = ownTimeout cfg (.ping p)

omit [ProtocolError E] in
theorem OwnTimeouts.set (hI : OwnTimeouts cfg s) {p : PingId} {pc : PingPc E}
    (h : s'.pings = Function.update s.pings p pc)
    (hpc : ∀ t, pc.timeout = some t → t = ownTimeout cfg (.ping p)) : OwnTimeouts cfg s' := by
  intro q t ht
  rw [h] at ht
  rcases eq_or_ne q p with rfl | hne
  · rw [Function.update_self] at ht
    exact hpc t ht
  · rw [Function.update_of_ne hne] at ht
    exact hI q t ht

omit [ProtocolError E] in
theorem OwnTimeouts.move (hI : OwnTimeouts cfg s) {p : PingId} {poll : Poll}
    (h : PingMove p s s' poll) : OwnTimeouts cfg s' := by
  have hown := hI p
  cases h with
  | register hp h => subst h; rw [hp] at hown; exact hI.set cfg rfl hown
  | acquire hp _ h => subst h; rw [hp] at hown; exact hI.set cfg rfl hown
  | pend hp _ h => subst h; exact hI
  | written hp h => subst h; rw [hp] at hown; exact hI.set cfg rfl hown
  | failed hp h => subst h; exact hI.set cfg rfl nofun
  | answered hp _ h => subst h; exact hI.set cfg rfl nofun
  | expired hp _ h => subst h; exact hI.set cfg rfl nofun
  | missed hp h => subst h; exact hI.set cfg rfl nofun

theorem ownTimeouts_of_reach {P : State E R → Act E → Prop}
    (h : Machine.Reach (client env cfg) P s) : OwnTimeouts cfg s := by
  refine h.invariant (fun _ _ h => by simp [client, State.new, PingPc.timeout] at h)
    fun s a s' _ _ hs hI => ?_
  have hframe : PingFrame s s' → OwnTimeouts cfg s' := fun hf => by
    unfold OwnTimeouts
    rw [hf.pings]
    exact hI
  cases ping_cases env cfg hs with
  | recv h => exact hframe (readRecv_frame env cfg h).pingFrame
  | read h => exact hframe (readPoll_frame env cfg h).pingFrame
  | begin h =>
    obtain ⟨pc, -, rfl, hpc⟩ := sendPing_pings cfg h
    refine hI.set cfg rfl fun t ht => ?_
    rcases hpc with rfl | rfl
    · cases ht
    · exact (Option.some.inj ht).symm
  | poll h => exact hI.move cfg h
  | drop h => exact hI.set cfg (pingDrop_pings h) (by simp [PingPc.timeout])
  | keepalive h =>
    cases h with
    | top _ _ _ h => subst h; exact hI
    | ping _ _ h =>
      subst h
      exact hI.set cfg rfl fun t ht => (Option.some.inj ht).symm
  | keepalivePing _ hm ha =>
    have hI' := hI.move cfg hm
    unfold OwnTimeouts at hI' ⊢
    rwa [ha.frame.1]
  | other hf _ _ _ _ => exact hframe hf

/-- A call that finds the sink free and whose write does not stay pending is suspended only in the
wait for its response. -/
theorem call_waits {c : ℕ} (hlock : (s.calls c).sink = .lock → s.holder = none)
    (hop : (s.calls c).sink = .op false → s.pended = false)
    (h : Suspended env cfg s (.call c)) :
    (∃ id action, s.calls c = .waiting id action) ∧ s.responses c = none := by
  obtain ⟨hn, hr, hp⟩ := h
  simp only [step, pollTask] at hr hp
  cases hc : s.calls c with
  | idle | returned | dropped => exact absurd (by simp [Settled, hc, CallPc.Settled]) hn
  | lockPending | forget => simp [callPoll, hc] at hr
  | lockSink => simp [callPoll, hc, State.issue, hlock (by rw [hc]; rfl)] at hr
  | sending => simp [callPoll, hc, State.pend, hop (by rw [hc]; rfl)] at hp
  | waiting id action =>
    refine ⟨⟨id, action, rfl⟩, ?_⟩
    -- the slot is polled before the timer
    cases hv : s.responses c with
    | none => rfl
    | some v => simp [callPoll, hc, takeResponse, hv] at hr

omit [ProtocolError E] in
theorem ping_waits {p : PingId} (hlock : (s.pings p).sink = .lock → s.holder = none)
    (hop : (s.pings p).sink = .op false → s.pended = false) (hn : ¬ (s.pings p).Settled)
    (hr : pingPoll s p .ready = none) (hp : pingPoll s p .pend = none) :
    (∃ token timeout, s.pings p = .waiting token timeout) ∧ s.pongs p = false := by
  cases hc : s.pings p with
  | idle | returned | dropped => exact absurd (by simp [hc, PingPc.Settled]) hn
  | lockWaiters | forget => simp [pingPoll, hc] at hr
  | lockSink => simp [pingPoll, hc, State.issue, hlock (by rw [hc]; rfl)] at hr
  | sending => simp [pingPoll, hc, State.pend, hop (by rw [hc]; rfl)] at hp
  | waiting token timeout =>
    refine ⟨⟨token, timeout, rfl⟩, ?_⟩
    cases hv : s.pongs p with
    | false => rfl
    | true => simp [pingPoll, hc, hv] at hr

/-- The keepalive loop is in a ping of its own that is under way, and polls it. -/
theorem pollPing_eq_none (hI : Inside s) {p : PingId} (hn : ¬ (s.pings p).Settled) {o : Poll} :
    step env cfg s (.poll (.ping p) o) = none ↔ pingPoll s p o = none := by
  cases p with
  | user n => exact Iff.rfl
  | keepalive n =>
    have hk : s.keepalive = .pinging n := by
      rcases hI n with h | h | ⟨r, h⟩
      · exact h
      · exact absurd (by simp [h, PingPc.Settled]) hn
      · exact absurd (by simp [h, PingPc.Settled]) hn
    simp [step, pollTask, keepalivePingPoll, hk]

/-- In every run in which requests find the sink free and their writes do not stay pending, every
request and every ping that is suspended has its own timeout armed. -/
theorem bounded_of_requestsUnblocked
    (h : Machine.Reach (client env cfg) (RequestsUnblocked env cfg) s) : Bounded env cfg s := by
  have hb := requests_unblocked env cfg h
  have hI := inside_of_reach env cfg h
  intro t ht hs
  cases t with
  | call c =>
    obtain ⟨⟨id, action, hc⟩, hv⟩ :=
      call_waits env cfg (hb.lock (.call c) ht) (hb.op (.call c) ht) hs
    exact ⟨by simp [step, pollTask, callPoll, hc, hv], by simp [armedTimer, hc, ownTimeout]⟩
  | ping p =>
    have hr := (pollPing_eq_none env cfg hI hs.unsettled).1 hs.unready
    have hp := (pollPing_eq_none env cfg hI hs.unsettled).1 hs.pended
    obtain ⟨⟨token, timeout, hc⟩, hv⟩ :=
      ping_waits (hb.lock (.ping p) ht) (hb.op (.ping p) ht) hs.unsettled hr hp
    have hown := ownTimeouts_of_reach env cfg h p timeout (by rw [hc]; rfl)
    refine ⟨?_, by simp [armedTimer, hc, hown]⟩
    rw [← Option.ne_none_iff_isSome, Ne, pollPing_eq_none env cfg hI hs.unsettled]
    simp [pingPoll, hc, hv]
  | _ => exact ht.elim

/-- A call is written and waits for its answer. -/
def waitingCall : List (Act WireError) :=
  [.call 0 "A" (.ok .null), .poll (.call 0) .ready, .poll (.call 0) .ready,
    .poll (.call 0) (.done (.ok ()))]

theorem bounded_of_waitingCall :
    ∃ s, scenario.run scenario.init waitingCall = some s
      ∧ Suspended scenarioEnv scenarioConfig s (.call 0)
      ∧ Bounded scenarioEnv scenarioConfig s := by
  refine ⟨_, rfl, ⟨id, rfl, rfl⟩,
    bounded_of_requestsUnblocked scenarioEnv scenarioConfig
      (Machine.reach_of_run (M := scenario) waitingCall .init
        ⟨⟨nofun, fun _ _ _ _ _ => .inr rfl, nofun⟩, ⟨nofun, fun _ _ _ _ _ => .inr rfl, ?_⟩,
          ⟨nofun, fun _ _ _ _ _ => .inr rfl, ?_⟩, ⟨nofun, ?_, nofun⟩, trivial⟩ rfl)⟩
  · intro t u h hl
    cases h
    cases hl
  · intro t u h _ hu hne hl
    cases h
    rcases u with _ | _ | c | p | _ | _ | _ | _ | _ | _ | _ | _
    case call =>
      cases c with
      | zero => exact hne rfl
      | succ c => cases hl
    case ping => cases hl
    all_goals exact hu
  · intro t s' ht hs hl
    cases hs
    rcases t with _ | _ | c | p | _ | _ | _ | _ | _ | _ | _ | _
    case call => cases c <;> cases hl
    case ping => cases hl
    all_goals exact ht.elim

/-- A `notify` is stuck in its write, and a call waits for the sink behind it. -/
def stuckWrite : List (Act WireError) :=
  [.notify 0 "A" (.ok .null), .poll (.notification 0) .ready, .poll (.notification 0) .pend,
    .call 0 "A" (.ok .null), .poll (.call 0) .ready]

theorem stuck_behind_a_write :
    ∃ s, Machine.Reach scenario Machine.Any s ∧ s.holder = some (.notification 0)
      ∧ s.pended = true ∧ Suspended scenarioEnv scenarioConfig s (.call 0)
      ∧ step scenarioEnv scenarioConfig s (.poll (.call 0) .timer) = none
      ∧ ¬ Bounded scenarioEnv scenarioConfig s :=
  ⟨_, Machine.reach_any_of_run stuckWrite rfl, rfl, rfl, ⟨id, rfl, rfl⟩, rfl,
    fun h => nomatch (h (.call 0) trivial ⟨id, rfl, rfl⟩).1⟩

end Suspension

end OcppClient
