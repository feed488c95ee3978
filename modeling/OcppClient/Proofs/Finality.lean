import OcppClient.Proofs.Redial
import OcppClient.Proofs.Wakeups

/-!
# Shutdown is final

Once the flag is set nothing clears it, and both loops read it before what they would begin: the
read loop before a dial, the keepalive loop before a ping. So whatever else a run does, no transport
is dialled and no keepalive ping is begun any more.

Events are another matter. The race polls `recv` before the signal, and the loop reads the flag only
when the signal wins or the stream ends, so a stream that has events ready keeps it handling them.
It stops at the first race that finds no event ready.
-/

namespace OcppClient

open Transition History

variable {E R : Type} {s s' t : State E R}

/-- From `s` on to `t` the client is closed, and no dial and no keepalive ping is begun. -/
structure StaysShut (s t : State E R) : Prop where
  closed : t.closed = true
  dials : dials t.hist = dials s.hist
  keepalivePings : t.keepalivePings = s.keepalivePings

theorem Grows.dials_le {ks : List Kind} {h h' : List (Event E)} (hg : Grows ks h h') :
    OcppClient.dials h ≤ OcppClient.dials h' := by
  obtain ⟨evs, rfl, -⟩ := hg
  rw [OcppClient.dials, OcppClient.dials, List.countP_append]
  exact Nat.le_add_right _ _

theorem disconnect_closed {d : ℕ} (h : disconnect s d = some s') : s'.closed = true := by
  unfold disconnect at h
  split at h
  · split_ifs at h with hc <;> cases h
    · exact hc
    · rfl
  · cases h

theorem keepalivePoll_closed {cfg : ClientConfig} {p : Poll} (hc : s.closed = true)
    (h : keepalivePoll cfg s p = some s') : s'.keepalivePings = s.keepalivePings := by
  unfold keepalivePoll at h
  split at h
  · cases h; rfl
  · split_ifs at h
    cases h; rfl
  · split_ifs at h
    cases h; rfl
  · split_ifs at h
    cases h
    rw [beginPing, if_pos hc]
  · cases h

variable [ProtocolError E] (env : Env R) (cfg : ClientConfig)

theorem closed_of_step {a : Act E} (hs : step env cfg s a = some s') (hc : s.closed = true) :
    s'.closed = true := by
  cases loop_cases env cfg hs with
  | recv h => rw [(readRecv_frame env cfg h).closed, hc]
  | read h => rw [(readPoll_frame env cfg h).closed, hc]
  | disconnect h => exact disconnect_closed h
  | disconnectPoll h =>
    obtain ⟨_, _, _, _, rfl, -⟩ := disconnectPoll_footprint h
    exact hc
  | other hf => rw [hf.closed, hc]

theorem dials_of_step {a : Act E} (hs : step env cfg s a = some s') (hc : s.closed = true) :
    dials s'.hist = dials s.hist := by
  have hle : dials s.hist ≤ dials s'.hist :=
    (loop_cases env cfg hs).elim env cfg (fun _ h => (readRecv_frame env cfg h).grows.dials_le)
      (fun _ h => (readPoll_frame env cfg h).grows.dials_le) fun ho => ho.grows.dials_le
  by_cases hlt : dials s.hist < dials s'.hist
  · obtain ⟨-, -, hc'⟩ := backoff_of_dial env cfg hs hlt
    rw [hc] at hc'
    cases hc'
  · omega

theorem keepalivePings_of_step {a : Act E} (hs : step env cfg s a = some s')
    (hc : s.closed = true) : s'.keepalivePings = s.keepalivePings := by
  cases ping_cases env cfg hs with
  | recv h => exact (readRecv_frame env cfg h).keepalivePings
  | read h => exact (readPoll_frame env cfg h).keepalivePings
  | begin h =>
    obtain ⟨pc, -, rfl, -⟩ := sendPing_pings cfg h
    rfl
  | poll h =>
    obtain ⟨-, -, hn, -⟩ := h.frame
    exact hn
  | drop h =>
    obtain ⟨_, _, _, rfl⟩ := pingDrop_footprint h
    rfl
  | keepalive h => exact keepalivePoll_closed hc hs
  | keepalivePing _ hm ha =>
    obtain ⟨-, -, hn, -⟩ := hm.frame
    obtain ⟨-, -, hn', -⟩ := ha.frame
    rw [hn', hn]
  | other hf _ _ _ _ => exact hf.keepalivePings

/-- After the step in which a `disconnect` finds or sets the flag, whatever else happens. -/
theorem staysShut_of_disconnect {d : ℕ} {s₀ : State E R}
    (hd : step env cfg s₀ (.disconnect d) = some s) {as : List (Act E)}
    (h : (client env cfg).run s as = some t) : StaysShut s t := by
  refine Machine.run_invariant (I := StaysShut s) (fun u a u' hs hI => ?_) as
    ⟨disconnect_closed hd, rfl, rfl⟩ h
  exact ⟨closed_of_step env cfg hs hI.closed, (dials_of_step env cfg hs hI.closed).trans hI.dials,
    (keepalivePings_of_step env cfg hs hI.closed).trans hI.keepalivePings⟩

/-- The client on its way to a `disconnect`: the read loop waits before its second dial, and the
keepalive loop before its first ping. -/
def waitingTwice : List (Act WireError) :=
  [.poll .keepalive .ready, .recv none, .poll .read .ready, .poll .read .timer,
    .poll .read (.done (.error "refused"))]

/-- The signal is raised once more and the interval changed after it. -/
def wokenTwice : List (Act WireError) :=
  [.forceReconnect, .setPingInterval none, .poll .read .timer, .poll .keepalive .ready]

theorem staysShut_of_wokenTwice :
    ∃ s₀ s t, scenario.run scenario.init waitingTwice = some s₀
      ∧ scenario.step s₀ (.disconnect 0) = some s ∧ scenario.run s wokenTwice = some t
      ∧ t.read = .exited ∧ t.keepalive = .exited ∧ dials t.hist = 1 ∧ StaysShut s t := by
  have hrun : ∃ s₀ s t, scenario.run scenario.init waitingTwice = some s₀
      ∧ scenario.step s₀ (.disconnect 0) = some s ∧ scenario.run s wokenTwice = some t
      ∧ t.read = .exited ∧ t.keepalive = .exited ∧ dials t.hist = 1 :=
    ⟨_, _, _, rfl, rfl, rfl, rfl, rfl, rfl⟩
  obtain ⟨s₀, s, t, h₀, hd, h, hr, hk, hn⟩ := hrun
  exact ⟨s₀, s, t, h₀, hd, h, hr, hk, hn, staysShut_of_disconnect scenarioEnv scenarioConfig hd h⟩

/-! ## Events after shutdown -/

/-- No event is received after the step in which a `disconnect` set the flag and the signal. -/
def NoLateEvent (s : State E R) : Prop :=
  Always (fun pre e => ∀ ev, e = .loop (.received ev) → .loop .closed ∉ pre) s.hist

/-- `recv` has no event ready in a race whose signal a `disconnect` has set. -/
def StreamYields (s : State E R) : Act E → Prop
  | .recv (some _) => s.wake = true → s.closed = false
  | _ => True

structure LateInv (s : State E R) : Prop where
  closed : .loop .closed ∈ s.hist → s.closed = true
  late : NoLateEvent s

omit [ProtocolError E] in
theorem LateInv.keep (hI : LateInv s) {ks : List Kind} (hc : s.closed = true → s'.closed = true)
    (hg : Grows ks s.hist s'.hist) (hcl : .closed ∉ ks) (hl : .loop ∉ ks) : LateInv s' := by
  refine ⟨fun h => hc (hI.closed (hg.of_mem h hcl)), hg.always hI.late fun e he pre ev hev => ?_⟩
  subst hev
  exact absurd he hl

theorem LateInv.read (hI : LateInv s) {p : Poll} (hs : readPoll env cfg s p = some s') :
    LateInv s' := by
  have hc : s.closed = true → s'.closed = true := by
    rw [(readPoll_frame env cfg hs).closed]
    exact id
  cases readPoll_redial env cfg hs with
  | wait _ _ _ _ _ hh =>
    have hg : Grows [] s.hist s'.hist := by rw [hh]; exact .refl _ _
    exact hI.keep hc hg (by simp) (by simp)
  | dial _ _ h =>
    subst h
    exact ⟨fun h => hI.closed (by simpa using h), hI.late.snoc (by simp)⟩
  | wokenDial _ _ _ h =>
    subst h
    exact ⟨fun h => hI.closed (by simpa using h), (hI.late.snoc (by simp)).snoc (by simp)⟩
  | stay _ _ _ _ _ hg => exact hI.keep hc hg (by simp) (by simp)

theorem LateInv.recv (hI : LateInv s) {e : Option TransportEvent}
    (hs : readRecv env cfg s e = some s') (hc : ∀ ev, e = some ev → s.closed = false) :
    LateInv s' := by
  have hr := (readRecv_leads env cfg hs).1
  unfold readRecv at hs
  rw [hr] at hs
  cases e with
  | none =>
    cases hs
    exact ⟨fun h => hI.closed (by simpa [leave] using h), hI.late.snoc (by simp)⟩
  | some ev =>
    cases hs
    obtain ⟨rd, he⟩ := handleEvent_footprint env s ev
    rw [he]
    refine ⟨fun h => hI.closed (by simpa using h), hI.late.snoc fun ev' _ hcl => ?_⟩
    have := hI.closed hcl
    rw [hc ev rfl] at this
    cases this

theorem lateInv_of_reach (h : Machine.Reach (client env cfg) StreamYields s) : LateInv s := by
  refine h.invariant ⟨by simp [client, State.new], .nil⟩ fun s a s' hr hP hs hI => ?_
  cases loop_cases env cfg hs with
  | recv h =>
    have hrecv := (readRecv_leads env cfg h).1
    refine hI.recv env cfg h fun ev hev => ?_
    -- the flag at `recv` means the signal is set, and then no event is ready
    subst hev
    by_contra hc
    rw [Bool.not_eq_false] at hc
    have := hP (Handshake.wake_of_closed hr hc (.inl hrecv))
    rw [hc] at this
    cases this
  | read h => exact hI.read env cfg h
  | disconnect h =>
    have hc := disconnect_closed h
    obtain ⟨_, _, _, _, _, rfl, hg⟩ := disconnect_footprint h
    refine ⟨fun _ => hc, hg.always hI.late fun e he pre ev hev => ?_⟩
    subst hev
    simp at he
  | disconnectPoll h =>
    obtain ⟨_, _, _, _, rfl, hg⟩ := disconnectPoll_footprint h
    exact hI.keep id hg (by simp) (by simp)
  | other hf =>
    have hg : Grows [.call, .raised, .ping, .escalated, .issued] s.hist s'.hist := by
      rcases hf.wake with ⟨-, hg⟩ | hr
      · exact hg.mono (by simp)
      · exact hr.grows.mono (by simp)
    exact hI.keep (by rw [hf.closed]; exact id) hg (by simp) (by simp)

/-- In every run whose stream has no event ready once a `disconnect` has set the signal, nothing is
dispatched after shutdown. -/
theorem noLateEvent_of_streamYields (h : Machine.Reach (client env cfg) StreamYields s) :
    NoLateEvent s :=
  (lateInv_of_reach env cfg h).late

/-- A `disconnect` while a frame is handled; the loop then finds the signal. -/
def yieldingStream : List (Act WireError) :=
  [.recv (some (.frame callFrame)), .disconnect 0, .poll .read .ready, .poll .read .ready,
    .poll .read (.done (.ok ())), .poll .read .ready, .poll .read .ready]

theorem noLateEvent_of_yieldingStream :
    ∃ s, scenario.run scenario.init yieldingStream = some s ∧ s.read = .exited
      ∧ s.hist = [.loop (.received (.frame callFrame)), .loop .closed,
        .issued .read 0 (.send callErrorFrame), .loop (.exit .shutdown 0)]
      ∧ NoLateEvent s :=
  ⟨_, rfl, rfl, by decide +kernel, noLateEvent_of_streamYields scenarioEnv scenarioConfig
    (Machine.reach_of_run (M := scenario) yieldingStream .init
      ⟨fun _ => rfl, trivial, trivial, trivial, trivial, trivial, trivial, trivial⟩ rfl)⟩

/-- A stream that has another event ready whenever `recv` is polled. -/
def eagerStream : List (Act WireError) :=
  [.disconnect 0, .recv (some (.frame callFrame)), .poll .read .ready, .poll .read .ready,
    .poll .read (.done (.ok ())), .recv (some (.ping [])), .poll .read .ready, .poll .read .ready,
    .poll .read (.done (.ok ())), .recv (some (.pong []))]

theorem eager_stream_dispatched :
    ∃ s, Machine.Reach scenario Machine.Any s ∧ s.wake = true ∧ s.read = .lockWaiters none
      ∧ s.hist = [.loop .closed, .loop (.received (.frame callFrame)),
        .issued .read 0 (.send callErrorFrame), .loop (.received (.ping [])),
        .issued .read 0 (.pong []), .loop (.received (.pong []))]
      ∧ ¬ NoLateEvent s := by
  refine ⟨_, Machine.reach_any_of_run eagerStream rfl, rfl, rfl, by decide +kernel, fun h => ?_⟩
  exact h [.loop .closed] _ _ rfl (.frame callFrame) rfl (by simp)

end OcppClient
