import OcppClient.Proofs.Footprint
import OcppClient.Proofs.Muted

/-!
# `force_reconnect` without a reconnector

With nothing to redial with, a `force_reconnect` restarts the `recv` of the read loop and does
nothing else. Runs that differ in their calls of it come to the same state, but for the signal: what
they do otherwise leads a muted client from start to end, and that is the same in both.
-/

namespace OcppClient

open Transition History

variable {E R : Type}

/-! ## Runs with and without the calls -/

/-- The steps that call `force_reconnect`, or may: the application's call, and the end of a ping of
`keepalive_loop`. -/
def Act.forces : Act E → Bool
  | .forceReconnect | .poll (.ping (.keepalive _)) _ => true
  | _ => false

section Machine

variable [ProtocolError E] (env : Env R) (cfg : ClientConfig)

/-- The client, where a label says of its step whether the `force_reconnect` in it is called or left
out. -/
def optionallyForced : Machine (State E R) (Act E × Bool) where
  init := .new cfg
  step s a := (step env cfg s a.1).map fun s' =>
    if a.1.forces && !a.2 then { s' with wake := s.wake } else s'

omit [ProtocolError E] in
/-- What is left of a step without the calls of `force_reconnect`, and without the wake-ups of the
read loop that they cause. -/
def shown (s : State E R) (a : Act E × Bool) : List (Act E) :=
  match a.1, s.read, s.closed with
  | .forceReconnect, _, _ => []
  | .poll .read .ready, .recv, false => []
  | act, _, _ => [act]

variable {env cfg} in
/-- The runs of the client are those in which every call is made. -/
theorem reach_optionallyForced {P : State E R → Act E → Prop} {s : State E R}
    (h : Machine.Reach (client env cfg) P s) :
    Machine.Reach (optionallyForced env cfg) Machine.Any s := by
  refine Machine.Reach.simulation (M := client env cfg) (N := optionallyForced env cfg) id rfl
    (fun s a s' _ _ _ hs => .inr ⟨(a, true), trivial, ?_⟩) h
  replace hs : step env cfg s a = some s' := hs
  simp [optionallyForced, hs]

end Machine

/-! ## The read loop without a reconnector -/

/-- The loop waits for an event or is handling one. -/
def ReadPc.Handles : ReadPc E → Prop
  | .recv | .lockRequestSenders _ _ _ | .pushRequest _ _ _ | .lockNotImplemented _
  | .sendNotImplemented | .lockNotificationSenders _ _ | .pushNotification _ _
  | .lockPending _ _ | .notifyPing _ | .lockPong _ | .sendPong | .lockWaiters _ => True
  | _ => False

/-- The loop has left its transport for good. -/
def ReadPc.Leaves : ReadPc E → Prop
  | .clearShutdown | .exited => True
  | _ => False

/-- The loop leaves at the end of the stream, or after a `disconnect`. -/
def LeavesOwn (pre : List (Event E)) (e : Event E) : Prop :=
  ∀ reason k, e = .loop (.exit reason k) →
    reason = .eof ∨ reason = .shutdown ∧ .loop .closed ∈ pre

structure LoopInv (s : State E R) : Prop where
  place : s.read.Handles ∨ s.read.Leaves
  left : s.read.Leaves ↔ ∃ reason k, .loop (.exit reason k) ∈ s.hist
  noted : s.closed = true → .loop .closed ∈ s.hist
  exits : Always LeavesOwn s.hist

variable {s s' : State E R}

theorem ReadPc.Handles.not_leaves {pc : ReadPc E} (h : pc.Handles) : ¬ pc.Leaves := by
  intro hl
  cases pc <;> first | exact h | exact hl

/-- The history goes on with events that are not exits, and the loop stays on its side. -/
theorem LoopInv.grow (hI : LoopInv s) (ks : List Kind) (hg : Grows ks s.hist s'.hist)
    (hks : Kind.loop ∉ ks ∧ Kind.passage ∉ ks)
    (hr : s.read.Handles ∧ s'.read.Handles ∨ s.read.Leaves ∧ s'.read.Leaves)
    (hc : s'.closed = true → s.closed = true ∨ .loop .closed ∈ s'.hist) : LoopInv s' := by
  have hkind : ∀ reason k, (Event.loop (.exit reason k) : Event E).kind ∉ ks := by
    rintro (_ | _ | _) k
    · exact hks.1
    · exact hks.2
    · exact hks.2
  have hexit : (∃ reason k, .loop (.exit reason k) ∈ s'.hist)
      ↔ ∃ reason k, .loop (.exit reason k) ∈ s.hist := by
    refine exists_congr fun reason => exists_congr fun k => ⟨fun hm => ?_, hg.mem⟩
    exact hg.of_mem hm (hkind reason k)
  refine ⟨hr.imp And.right And.right, ?_, fun h => ?_, ?_⟩
  · rw [hexit, ← hI.left]
    rcases hr with ⟨h₀, h₁⟩ | ⟨h₀, h₁⟩
    · exact iff_of_false h₁.not_leaves h₀.not_leaves
    · exact iff_of_true h₁ h₀
  · exact (hc h).elim (fun h => hg.mem (hI.noted h)) id
  · refine hg.always hI.exits fun e he pre reason k hk => ?_
    subst hk
    exact absurd he (hkind reason k)

/-- A step of another task. -/
theorem LoopInv.other (hI : LoopInv s) (hf : OtherFrame s s')
    (hc : s'.closed = true → s.closed = true ∨ .loop .closed ∈ s'.hist) : LoopInv s' := by
  refine hI.grow _ hf.grows (by simp) ?_ hc
  rw [hf.read]
  exact hI.place.imp (fun h => ⟨h, h⟩) fun h => ⟨h, h⟩

/-- The loop leaves. -/
theorem LoopInv.leave (hI : LoopInv s) {cfg : ClientConfig} (hcfg : cfg.reconnector = false)
    (wake : Bool) {reason : LoopExit}
    (hreason : reason = .eof ∨ reason = .shutdown ∧ s.closed = true) :
    LoopInv (leave cfg { s with wake := wake } reason) := by
  have hl : (OcppClient.leave cfg { s with wake := wake } reason).read.Leaves := by
    simp only [OcppClient.leave, hcfg, Bool.false_eq_true, if_false]
    split_ifs
    · trivial
    · trivial
  refine ⟨.inr hl, iff_of_true hl ⟨reason, s.stream, by simp [OcppClient.leave]⟩,
    fun h => List.mem_append_left _ (hI.noted h), hI.exits.snoc fun r k he => ?_⟩
  cases he
  exact hreason.imp_right fun h => ⟨h.1, hI.noted h.2⟩

variable [ProtocolError E] {env : Env R} {cfg : ClientConfig}

theorem handleEvent_handles (env : Env R) (s : State E R) (e : TransportEvent) :
    (handleEvent env s e).read.Handles := by
  unfold handleEvent handleFrame
  cases e with
  | frame f =>
    simp only []
    split <;> trivial
  | ping => trivial
  | pong => trivial

theorem LoopInv.recv (hI : LoopInv s) (hcfg : cfg.reconnector = false) {e : Option TransportEvent}
    (h : readRecv env cfg s e = some s') : LoopInv s' := by
  unfold readRecv at h
  split at h
  case h_2 => cases h
  case h_1 hr =>
    split at h <;> cases h
    · next ev =>
      obtain ⟨rd, hrd⟩ := handleEvent_footprint env s ev
      have hh := handleEvent_handles env s ev
      have hhist : (handleEvent env s ev).hist = s.hist ++ [.loop (.received ev)] := by rw [hrd]
      have hl : ¬ s.read.Leaves := by
        rw [hr]
        exact id
      refine ⟨.inl hh, iff_of_false hh.not_leaves ?_, fun hc => ?_, ?_⟩
      · rintro ⟨reason, k, hm⟩
        rw [hhist] at hm
        exact hl (hI.left.2 ⟨reason, k, by simpa using hm⟩)
      · rw [hrd] at hc ⊢
        exact List.mem_append_left _ (hI.noted hc)
      · rw [hhist]
        exact hI.exits.snoc (by simp [LeavesOwn])
    · exact hI.leave hcfg s.wake (.inl rfl)

omit [ProtocolError E] in
theorem LoopInv.nowhere (hI : LoopInv s) {pc : ReadPc E} (hr : s.read = pc) (h₁ : ¬ pc.Handles)
    (h₂ : ¬ pc.Leaves) : LoopInv s' := by
  subst hr
  exact (hI.place.elim h₁ h₂).elim

omit [ProtocolError E] in
/-- The loop is woken by a `force_reconnect` and goes back to `recv`. -/
theorem LoopInv.woken (hI : LoopInv s) :
    LoopInv { s with wake := false, hist := s.hist ++ [.loop .woken] } := by
  refine ⟨hI.place, hI.left.trans ?_, fun h => List.mem_append_left _ (hI.noted h),
    hI.exits.snoc (by simp [LeavesOwn])⟩
  simp

theorem LoopInv.poll (hI : LoopInv s) (hcfg : cfg.reconnector = false) {p : Poll}
    (hs : readPoll env cfg s p = some s') : LoopInv s' := by
  have hc : s'.closed = s.closed := (readPoll_frame env cfg hs).closed
  have within : ∀ ks, Grows ks s.hist s'.hist → Kind.loop ∉ ks ∧ Kind.passage ∉ ks →
      s.read.Handles → s'.read.Handles → LoopInv s' := fun ks hg hks h₀ h₁ =>
    hI.grow ks hg hks (.inl ⟨h₀, h₁⟩) fun h => .inl (hc ▸ h)
  have same : s'.hist = s.hist → s.read.Handles → s'.read.Handles → LoopInv s' := fun hh h₀ h₁ =>
    within [] (hh ▸ .refl _ _) (by simp) h₀ h₁
  cases readPoll_moves env cfg hs with
  | wake hr h =>
    unfold readWoken at h
    split_ifs at h with hw hclosed hrec
    · cases h
      exact hI.leave hcfg false (.inr ⟨rfl, hclosed⟩)
    · rw [hcfg] at hrec
      cases hrec
    · cases h
      exact hI.woken
  | clear hr h =>
    subst h
    refine hI.grow [] (.refl _ _) (by simp) (.inr ⟨?_, trivial⟩) .inl
    rw [hr]
    trivial
  | @acquire op _ hr _ h =>
    subst h
    have hg : Grows [.issued] s.hist (s.hist ++ [.issued .read s.sink op]) := .snoc (by simp)
    generalize hread : s.read = pc at hr
    cases hr with
    | notImplemented => exact within _ hg (by simp) (by rw [hread]; trivial) trivial
    | pong => exact within _ hg (by simp) (by rw [hread]; trivial) trivial
    | close => exact hI.nowhere hread id id
  | release hr h =>
    subst h
    generalize hread : s.read = pc at hr
    cases hr with
    | notImplemented => exact same rfl (by rw [hread]; trivial) trivial
    | pong => exact same rfl (by rw [hread]; trivial) trivial
    | close => exact hI.nowhere hread id id
  | pend hr _ h =>
    subst h
    exact hI.grow [] (.refl _ _) (by simp) (hI.place.imp (fun h => ⟨h, h⟩) fun h => ⟨h, h⟩)
      .inl
  | go hr h =>
    subst h
    generalize hread : s.read = pc at hr
    cases hr <;> exact same rfl (by rw [hread]; trivial) trivial
  | pong hr h =>
    obtain ⟨rd, ws, po, hp, -⟩ := resolvePong_footprint s _
    have hr' : s'.read = .recv := h ▸ resolvePong_read s _
    exact same (by rw [h, hp]) (by rw [hr]; trivial) (by rw [hr']; trivial)
  | resolve hr h =>
    subst h
    exact within [.handled] (.snoc (by simp)) (by simp) (by rw [hr]; trivial) trivial
  | lookup hr _ h | push hr h | notify hr h =>
    subst h
    exact same rfl (by rw [hr]; trivial) trivial
  | backoff hr | redial hr | dial hr | wokenDial hr | dialPend hr | dialled hr | swap hr
  | broadcast hr => exact hI.nowhere hr id id

theorem LoopInv.step (hI : LoopInv s) (hcfg : cfg.reconnector = false) {a : Act E}
    (hs : step env cfg s a = some s') : LoopInv s' := by
  cases loop_cases env cfg hs with
  | recv h => exact hI.recv hcfg h
  | read h => exact hI.poll hcfg h
  | disconnect h =>
    have hf : OtherFrame s s' := by
      obtain ⟨_, _, _, _, _, rfl, hg⟩ := disconnect_footprint h
      exact ⟨rfl, rfl, rfl, hg.mono (by simp)⟩
    refine hI.other hf fun hc => ?_
    unfold disconnect at h
    split at h
    · split_ifs at h with hclosed <;> cases h
      · exact .inl hclosed
      · exact .inr (by simp)
    · cases h
  | disconnectPoll h =>
    obtain ⟨_, _, _, _, rfl, hg⟩ := disconnectPoll_footprint h
    exact hI.other ⟨rfl, rfl, rfl, hg.mono (by simp)⟩ .inl
  | other h => exact hI.other h.toOtherFrame fun hc => .inl (h.closed ▸ hc)

/-! ## One step, with the call or without it -/

theorem raises_of_forces {a : Act E} (ha : a.forces = true) (hs : step env cfg s a = some s') :
    s'.closed = s.closed ∧ Raises s s'.wake s'.hist := by
  unfold Act.forces at ha
  split at ha
  · obtain ⟨_, _, he, hr⟩ := forceReconnect_footprint s
    cases hs
    rw [he]
    exact ⟨rfl, hr⟩
  · obtain ⟨_, _, _, _, _, _, _, _, _, _, rfl, hr⟩ := keepalivePingPoll_footprint cfg hs
    exact ⟨rfl, hr⟩
  · cases ha

theorem optionallyForced_step {a : Act E × Bool}
    (h : (optionallyForced env cfg).step s a = some s') :
    ∃ s₁ wake, step env cfg s a.1 = some s₁ ∧ s' = { s₁ with wake := wake }
      ∧ s'.muted = s₁.muted := by
  obtain ⟨s₁, hs, rfl⟩ := Option.map_eq_some_iff.1 h
  refine ⟨s₁, if a.1.forces && !a.2 then s.wake else s₁.wake, hs, ?_, ?_⟩
  · split_ifs <;> rfl
  · split_ifs with hf
    · obtain ⟨hc, hr⟩ := raises_of_forces (by simp_all) hs
      -- on a closed client the call does nothing
      have hw : (s.wake && s₁.closed) = (s₁.wake && s₁.closed) := by
        rcases hr with ⟨hw, -⟩ | ⟨hopen, -⟩
        · rw [hw]
        · rw [hc, hopen, Bool.and_false, Bool.and_false]
      simp only [State.muted, hw]
    · rfl

variable (env cfg) in
/-- The client without the signal of `force_reconnect`. -/
def mutedClient : Machine (State E R) (Act E) where
  init := .new cfg
  step s a := (step env cfg s a).map State.muted

theorem run_shown (hcfg : cfg.reconnector = false) (hI : LoopInv s) {a : Act E × Bool}
    (h : (optionallyForced env cfg).step s a = some s') :
    (mutedClient env cfg).run s.muted (shown s a) = some s'.muted := by
  obtain ⟨s₁, wake, hs, -, hm⟩ := optionallyForced_step h
  rw [hm]
  unfold shown
  split
  · next ha =>
    rw [ha] at hs
    cases hs
    rw [forceReconnect_muted]
    rfl
  · next ha hread hopen =>
    rw [ha] at hs
    replace hs : readPoll env cfg s .ready = some s₁ := hs
    unfold readPoll at hs
    simp only [hread, readWoken, hopen, hcfg, Bool.false_eq_true, if_false] at hs
    split_ifs at hs
    cases hs
    have hdeaf : (s.hist ++ [Event.loop .woken]).filter Event.audible
        = s.hist.filter Event.audible := by
      simp [Event.audible]
    simp only [Machine.run, State.muted, hopen, hread, hdeaf, Bool.and_false]
  · next hforce hwait =>
    have hstep := step_muted env cfg s a.1 (fun d hr => ?_) (fun hr ha => ?_)
    · simp only [Machine.run, mutedClient, hstep, hs, Option.map_some, Option.bind_some]
    · rcases hI.place with h | h <;> rw [hr] at h <;> exact h
    · cases hc : s.closed with
      | true => rfl
      | false => exact (hwait ha hr hc).elim

/-! ## Two runs -/

omit [ProtocolError E] in
def Event.received : Event E → Option TransportEvent
  | .loop (.received e) => some e
  | _ => none

omit [ProtocolError E] in
/-- The inbound events that the read loop took up, in order. -/
def received (h : List (Event E)) : List TransportEvent := h.filterMap Event.received

omit [ProtocolError E] in
theorem received_audible (h : List (Event E)) :
    received (h.filter Event.audible) = received h := by
  unfold received
  rw [List.filterMap_filter]
  refine List.filterMap_congr fun e _ => ?_
  unfold Event.audible
  split <;> rfl

omit [ProtocolError E] in
/-- The loop took up the same events and brought them to the same places: the states differ in the
signal at most. It left in one if it did in the other, at the end of the stream or after a
`disconnect`. -/
structure Inert (s t : State E R) : Prop where
  received : OcppClient.received s.hist = OcppClient.received t.hist
  places : s.muted = t.muted
  exits : ∀ reason k, .loop (.exit reason k) ∈ s.hist ↔ .loop (.exit reason k) ∈ t.hist
  exited : s.read = .exited ↔ t.read = .exited
  left : s.read.Leaves ↔ ∃ reason k, .loop (.exit reason k) ∈ s.hist
  reasons : Always LeavesOwn s.hist

theorem loopInv_of_reach (hcfg : cfg.reconnector = false)
    {P : State E R × List (Act E) → Act E × Bool → Prop} {s : State E R × List (Act E)}
    (h : Machine.Reach ((optionallyForced env cfg).observed shown) P s) : LoopInv s.1 := by
  refine h.invariant (I := fun s => LoopInv s.1) ?_ fun s a s' _ _ hs hI => ?_
  · exact ⟨.inl trivial, iff_of_false id (by simp [optionallyForced, Machine.observed, State.new]),
      nofun, .nil⟩
  · obtain ⟨s₁, wake, hst, he, -⟩ := optionallyForced_step (Machine.observed_step hs).1
    have hI₁ := hI.step hcfg hst
    rw [he]
    exact ⟨hI₁.place, hI₁.left, hI₁.noted, hI₁.exits⟩

variable (env cfg)

/-- Any two runs that do the same but for calls of `force_reconnect`, made or left out anywhere. -/
theorem inert_of_sameActs (hcfg : cfg.reconnector = false) {s t : State E R × List (Act E)}
    (hs : Machine.Reach ((optionallyForced env cfg).observed shown) Machine.Any s)
    (ht : Machine.Reach ((optionallyForced env cfg).observed shown) Machine.Any t)
    (h : s.2 = t.2) : Inert s.1 t.1 := by
  have run : ∀ {s : State E R × List (Act E)},
      Machine.Reach ((optionallyForced env cfg).observed shown) Machine.Any s →
      (mutedClient env cfg).run (mutedClient env cfg).init s.2 = some s.1.muted := fun hs =>
    hs.run_log State.muted rfl fun s a s' hr hst => run_shown hcfg (loopInv_of_reach hcfg hr) hst
  have hm : s.1.muted = t.1.muted := by
    have hs' := run hs
    rw [h, run ht] at hs'
    exact (Option.some.inj hs').symm
  have hh : s.1.hist.filter Event.audible = t.1.hist.filter Event.audible := congrArg State.hist hm
  have hI := loopInv_of_reach hcfg hs
  refine ⟨?_, hm, fun reason k => ?_, ?_, hI.left, hI.exits⟩
  · rw [← received_audible, hh, received_audible]
  · have hmem : ∀ h : List (Event E), .loop (.exit reason k) ∈ h
        ↔ .loop (.exit reason k) ∈ h.filter Event.audible := fun h => by
      simp [List.mem_filter, Event.audible]
    rw [hmem, hmem t.1.hist, hh]
  · have hr : s.1.muted.read = t.1.muted.read := congrArg State.read hm
    rw [State.muted_read, State.muted_read] at hr
    rw [hr]

/-- An event comes, then the end of the stream. -/
def readOne : List (Act WireError × Bool) :=
  [(.recv (some (.pong [])), true), (.poll .read .ready, true), (.recv none, true)]

/-- The same with two calls: one wakes the loop before the event, the other comes while the event is
handled, and the loop takes it up afterwards. -/
def readOneForced : List (Act WireError × Bool) :=
  [(.forceReconnect, true), (.poll .read .ready, true), (.recv (some (.pong [])), true),
    (.forceReconnect, true), (.poll .read .ready, true), (.poll .read .ready, true),
    (.recv none, true)]

/-- The concrete client, with no reconnector. -/
def unreconnected : Machine (State WireError Unit × List (Act WireError)) (Act WireError × Bool) :=
  (optionallyForced scenarioEnv { scenarioConfig with reconnector := false }).observed shown

theorem inert_of_readOneForced :
    ∃ s t, unreconnected.run unreconnected.init readOne = some s
      ∧ unreconnected.run unreconnected.init readOneForced = some t
      ∧ s.1.read = .exited ∧ t.1.hist = [.loop (.raised 0), .loop .woken,
        .loop (.received (.pong [])), .loop (.raised 0), .loop .woken, .loop (.exit .eof 0)]
      ∧ Inert s.1 t.1 :=
  ⟨_, _, rfl, rfl, rfl, rfl, inert_of_sameActs scenarioEnv
    { scenarioConfig with reconnector := false } rfl
    (Machine.reach_any_of_run (M := unreconnected) readOne rfl)
    (Machine.reach_any_of_run (M := unreconnected) readOneForced rfl) rfl⟩

end OcppClient
