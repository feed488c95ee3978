import OcppClient.Handshake
import OcppClient.Proofs.PingSteps

/-!
# No shutdown is slept through

A `disconnect` sets the flag before either signal, and each loop reads the flag after it has taken
its signal and before it waits again. So once both signals were set, a loop that waits has one
pending: it cannot have taken it and come back. The argument is about single accesses; the client
of the other modules, whose steps run from one `await` to the next, takes several of them at once.
-/

namespace OcppClient.Handshake

open Transition

/-- The `disconnect` has set the flag. -/
def DisconnectAt.Begun : DisconnectAt → Prop
  | .flagged | .woke | .notified => True
  | _ => False

/-- The `disconnect` has set the read loop's signal. -/
def DisconnectAt.Woke : DisconnectAt → Prop
  | .woke | .notified => True
  | _ => False

theorem DisconnectAt.Woke.begun {d : DisconnectAt} (h : d.Woke) : d.Begun := by
  cases d <;> trivial

/-- The loop reads the flag before it waits again, or it is gone. -/
def ReadAt.Alert : ReadAt → Prop
  | .woken | .wokenBackoff | .left .shutdown | .exited => True
  | _ => False

def KeepaliveAt.Alert : KeepaliveAt → Prop
  | .top | .exited => True
  | _ => False

variable {cfg : ClientConfig} {s s' : Shared}

/-- The read loop takes its signal only to read the flag. -/
theorem readStep_alert {t : Turn} (h : readStep cfg s t = some s') :
    ∃ wa rd, s' = { s with wake := wa, read := rd }
      ∧ (s.closed = true → s.wake = true ∨ s.read.Alert → wa = true ∨ rd.Alert) := by
  unfold readStep at h
  split at h
  case h_3 | h_9 =>
    split_ifs at h
    cases h
    exact ⟨_, _, rfl, fun _ _ => .inr trivial⟩
  case h_4 | h_10 =>
    cases h
    refine ⟨_, _, rfl, fun hc _ => .inr ?_⟩
    rw [if_pos hc]
    trivial
  case h_6 reason hr =>
    cases h
    refine ⟨_, _, rfl, fun hc _ => .inr ?_⟩
    rw [if_pos (.inr hc)]
    trivial
  case h_15 => cases h
  all_goals
    rename_i hr
    cases h
    exact ⟨_, _, rfl, fun _ ha => ha.elim .inl fun ha => by rw [hr] at ha; exact ha.elim⟩

/-- The keepalive loop takes its signal only to read the flag, and never the other's. -/
theorem keepaliveStep_alert {t : Turn} (h : keepaliveStep cfg s t = some s') :
    ∃ wa ch k m, s' = { s with wake := wa, changed := ch, keepalive := k, missed := m }
      ∧ (s.wake = true → wa = true)
      ∧ (s.closed = true → s.changed = true ∨ s.keepalive.Alert → ch = true ∨ k.Alert) := by
  unfold keepaliveStep at h
  split at h
  case h_3 | h_4 =>
    split_ifs at h
    cases h
    exact ⟨_, _, _, _, rfl, id, fun _ _ => .inr trivial⟩
  case h_1 =>
    cases h
    refine ⟨_, _, _, _, rfl, id, fun hc _ => .inr ?_⟩
    rw [if_pos hc]
    trivial
  case h_9 hk =>
    have ha : s.changed = true ∨ s.keepalive.Alert → s.changed = true :=
      fun ha => ha.resolve_right fun ha => by rw [hk] at ha; exact ha
    simp only [] at h
    split_ifs at h <;> cases h
    · exact ⟨_, _, _, _, rfl, id, fun _ h => .inl (ha h)⟩
    · exact ⟨_, _, _, _, rfl, id, fun _ h => .inl (ha h)⟩
  case h_11 =>
    cases h
    exact ⟨_, _, _, _, rfl, fun _ => rfl, fun _ _ => .inr trivial⟩
  case h_12 => cases h
  all_goals
    rename_i hk
    cases h
    exact ⟨_, _, _, _, rfl, id, fun _ ha => ha.elim .inl fun ha => by rw [hk] at ha; exact ha.elim⟩

structure HandshakeInv (s : Shared) : Prop where
  flag : ∀ d, (s.disconnects d).Begun → s.closed = true
  begun : s.closed = true → ∃ d, (s.disconnects d).Begun
  wake : ∀ d, (s.disconnects d).Woke → s.wake = true ∨ s.read.Alert
  changed : ∀ d, s.disconnects d = .notified → s.changed = true ∨ s.keepalive.Alert

/-- A property of the moved `disconnect` is one of where it moved to. -/
theorem update_disconnect {f : ℕ → DisconnectAt} {d d' : ℕ} {pc : DisconnectAt}
    {Q : DisconnectAt → Prop} (h : Q (Function.update f d pc d')) : Q pc ∨ Q (f d') := by
  by_cases hd : d' = d
  · subst hd
    rw [Function.update_self] at h
    exact .inl h
  · rw [Function.update_of_ne hd] at h
    exact .inr h

theorem HandshakeInv.disconnect (hI : HandshakeInv s) {d : ℕ} (h : disconnectStep s d = some s') :
    HandshakeInv s' := by
  unfold disconnectStep at h
  split at h
  case h_1 hd =>
    split_ifs at h with hc <;> cases h
    · refine ⟨fun _ _ => hc, fun _ => ?_, fun d' h => ?_, fun d' h => ?_⟩
      · obtain ⟨d₀, h₀⟩ := hI.begun hc
        have hne : d₀ ≠ d := by
          rintro rfl
          rw [hd] at h₀
          exact h₀
        exact ⟨d₀, by simpa [Function.update_of_ne hne] using h₀⟩
      · exact hI.wake d' ((update_disconnect h).resolve_left id)
      · exact hI.changed d' ((update_disconnect (Q := (· = .notified)) h).resolve_left nofun)
    · refine ⟨fun _ _ => rfl, fun _ => ⟨d, by simp [DisconnectAt.Begun]⟩, fun d' h => ?_,
        fun d' h => ?_⟩
      · exact hI.wake d' ((update_disconnect h).resolve_left id)
      · exact hI.changed d' ((update_disconnect (Q := (· = .notified)) h).resolve_left nofun)
  case h_2 hd =>
    cases h
    have hc := hI.flag d (by rw [hd]; trivial)
    refine ⟨fun _ _ => hc, fun _ => ⟨d, by simp [DisconnectAt.Begun]⟩, fun _ _ => .inl rfl,
      fun d' h => hI.changed d' ((update_disconnect (Q := (· = .notified)) h).resolve_left nofun)⟩
  case h_3 hd =>
    cases h
    have hc := hI.flag d (by rw [hd]; trivial)
    have hw := hI.wake d (by rw [hd]; trivial)
    exact ⟨fun _ _ => hc, fun _ => ⟨d, by simp [DisconnectAt.Begun]⟩, fun _ _ => hw,
      fun _ _ => .inl rfl⟩
  case h_4 => cases h

theorem handshakeInv_of_reach (h : Machine.Reach (machine cfg) Machine.Any s) :
    HandshakeInv s := by
  refine h.invariant (I := HandshakeInv) ⟨fun _ => False.elim, by simp [machine, Shared.new],
    fun _ => False.elim, by simp [machine, Shared.new]⟩
    fun s a s' _ _ hs hI => ?_
  cases a with
  | disconnect d => exact hI.disconnect hs
  | read t =>
    obtain ⟨wa, rd, rfl, ha⟩ := readStep_alert hs
    exact ⟨hI.flag, hI.begun, fun d hd => ha (hI.flag d hd.begun) (hI.wake d hd), hI.changed⟩
  | keepalive t =>
    obtain ⟨wa, ch, k, m, rfl, hw, ha⟩ := keepaliveStep_alert hs
    refine ⟨hI.flag, hI.begun, fun d hd => (hI.wake d hd).imp_left hw, fun d hd => ?_⟩
    exact ha (hI.flag d (by rw [hd]; trivial)) (hI.changed d hd)
  | forceReconnect =>
    simp only [machine, step, Option.some.injEq] at hs
    split_ifs at hs <;> subst hs
    · exact hI
    · exact ⟨hI.flag, hI.begun, hI.wake, hI.changed⟩
  | notifyForceReconnect =>
    simp only [machine, step] at hs
    split_ifs at hs
    cases hs
    exact ⟨hI.flag, hI.begun, fun _ _ => .inl rfl, hI.changed⟩
  | setInterval millis =>
    cases hs
    exact ⟨hI.flag, hI.begun, hI.wake, hI.changed⟩
  | notifyChanged =>
    simp only [machine, step] at hs
    split_ifs at hs
    cases hs
    exact ⟨hI.flag, hI.begun, hI.wake, fun _ _ => .inl rfl⟩

/-- Once a `disconnect` is past both its `notify`s, a loop that waits has its signal pending. -/
def NoLostWake (s : Shared) : Prop :=
  ∀ d, s.disconnects d = .notified →
    (s.read = .recv ∨ s.read = .backoff → s.wake = true)
      ∧ (s.keepalive = .parked ∨ s.keepalive = .waiting → s.changed = true)

theorem HandshakeInv.noLostWake (hI : HandshakeInv s) : NoLostWake s := by
  intro d hd
  refine ⟨fun hr => ?_, fun hk => ?_⟩
  · refine (hI.wake d (by rw [hd]; trivial)).resolve_right fun ha => ?_
    rcases hr with hr | hr <;> rw [hr] at ha <;> exact ha
  · refine (hI.changed d hd).resolve_right fun ha => ?_
    rcases hk with hk | hk <;> rw [hk] at ha <;> exact ha

theorem noLostWake_of_reach (h : Machine.Reach (machine cfg) Machine.Any s) : NoLostWake s :=
  (handshakeInv_of_reach h).noLostWake

/-- A `force_reconnect` whose `notify` comes between the swap of a `disconnect` and its first: the
loop takes the signal and reads the flag, so that the second `notify` finds it on its way out. -/
def overtaken : List Access :=
  [.keepalive .next, .keepalive .next, .forceReconnect, .disconnect 0, .notifyForceReconnect,
    .read .take, .disconnect 0, .read .next, .disconnect 0]

theorem noLostWake_of_overtaken :
    ∃ s, (machine scenarioConfig).run (machine scenarioConfig).init overtaken = some s
      ∧ s.disconnects 0 = .notified ∧ s.read = .left .shutdown ∧ s.keepalive = .waiting
      ∧ s.changed = true ∧ NoLostWake s :=
  ⟨_, rfl, rfl, rfl, rfl, rfl, noLostWake_of_reach
    (Machine.reach_any_of_run (M := machine scenarioConfig) overtaken rfl)⟩

/-! ## The client takes these accesses -/

variable {E R : Type}

/-- The accesses `as` lead from one shared state to another. -/
def Leads (cfg : ClientConfig) (s s' : Shared) : Prop := ∃ as, (machine cfg).run s as = some s'

theorem Leads.refl (s : Shared) : Leads cfg s s := ⟨[], rfl⟩

theorem Leads.trans {s s' s'' : Shared} (h₁ : Leads cfg s s') (h₂ : Leads cfg s' s'') :
    Leads cfg s s'' := by
  obtain ⟨as, h₁⟩ := h₁
  obtain ⟨bs, h₂⟩ := h₂
  exact ⟨as ++ bs, Machine.run_append h₁ h₂⟩

theorem Leads.reach (h : Leads cfg s s') (hs : Machine.Reach (machine cfg) Machine.Any s) :
    Machine.Reach (machine cfg) Machine.Any s' := by
  obtain ⟨as, h⟩ := h
  exact Machine.reach_of_run as hs (Machine.meets_any as s) h

variable {u u' : State E R}

theorem readWoken_leads (hr : u.read = .recv) (h : readWoken cfg u = some u') :
    Leads cfg (shared u) (shared u') := by
  unfold readWoken at h
  split_ifs at h with hw hc hrec <;> cases h
  · refine ⟨[.read .take, .read .next, .read .next], ?_⟩
    simp [Machine.run, machine, step, readStep, shared, readAt, hr, hw, hc, leave]
  · refine ⟨[.read .take, .read .next, .read .next], ?_⟩
    simp [Machine.run, machine, step, readStep, shared, readAt, hr, hw, hc, leave, hrec]
  · refine ⟨[.read .take, .read .next], ?_⟩
    simp [Machine.run, machine, step, readStep, shared, readAt, hr, hw, hc, hrec]

theorem Leads.of_eq (h : s' = s) : Leads cfg s s' := by
  subst h
  exact .refl _

/-- One access, or one turn of a loop, after which the rest is as it was. -/
theorem Leads.one {a : Access} (h : step cfg s a = some s') : Leads cfg s s' :=
  ⟨[a], by simp [Machine.run, machine, h]⟩

theorem Acquires.readAt {pc pc' : ReadPc E} {op : SinkOp} (h : Acquires pc op pc') :
    Handshake.readAt pc' = Handshake.readAt pc := by
  cases h <;> rfl

theorem Releases.leads {pc : ReadPc E} (h : Releases u.read pc) :
    Leads cfg (shared u) { shared u with read := readAt pc } := by
  generalize hr : u.read = pc₀ at h
  cases h with
  | notImplemented => exact .one (a := .read .next) (by simp [step, readStep, shared, readAt, hr])
  | pong => exact .one (a := .read .next) (by simp [step, readStep, shared, readAt, hr])
  | close => exact .of_eq (by simp [shared, readAt, hr])

theorem Steers.leads {pc : ReadPc E} (h : Steers u.read pc) :
    Leads cfg (shared u) { shared u with read := readAt pc } := by
  generalize hr : u.read = pc₀ at h
  cases h with
  | refused => exact .of_eq (by simp [shared, readAt, hr])
  | notification => exact .of_eq (by simp [shared, readAt, hr])
  | unanswered => exact .one (a := .read .next) (by simp [step, readStep, shared, readAt, hr])
  | unheard => exact .one (a := .read .next) (by simp [step, readStep, shared, readAt, hr])
  | pushed => exact .one (a := .read .next) (by simp [step, readStep, shared, readAt, hr])

theorem ReadMove.leadsShared {env : Env R} {p : Poll} (h : ReadMove env cfg u u' p) :
    Leads cfg (shared u) (shared u') := by
  cases h with
  | wake hr h => exact readWoken_leads hr h
  | acquire hr _ h => exact .of_eq (by simp [h, shared, Acquires.readAt hr])
  | release hr h => exact h ▸ Releases.leads hr
  | go hr h => exact h ▸ Steers.leads hr
  | pend _ _ h => exact .of_eq (by simp [h, shared])
  | lookup hr _ h => exact .of_eq (by simp [h, shared, readAt, hr])
  | notify hr h => exact .of_eq (by simp [h, shared, readAt, hr, State.notifyAll])
  | clear hr h => exact .of_eq (by simp [h, shared, readAt, hr])
  | dialPend hr h => exact .of_eq (by simp [h, shared, readAt, hr])
  | swap hr _ h => exact .of_eq (by simp [h, shared, readAt, hr])
  | push hr h => exact .one (a := .read .next) (by simp [step, readStep, h, shared, readAt, hr])
  | resolve hr h =>
    exact .one (a := .read .next) (by simp [step, readStep, h, resolvePending, shared, readAt, hr])
  | @pong token hr h =>
    obtain ⟨rd, ws, po, hp, -⟩ := resolvePong_footprint u token
    have hrd : rd = .recv := by rw [← resolvePong_read u token, hp]
    exact .one (a := .read .next) (by simp [step, readStep, h, hp, hrd, shared, readAt, hr])
  | backoff hr h =>
    exact .one (a := .read .next) (by simp [step, readStep, h, beginBackoff, shared, readAt, hr])
  | redial hr h =>
    exact .one (a := .read .fail) (by simp [step, readStep, h, beginBackoff, shared, readAt, hr])
  | dialled hr h => exact .one (a := .read .next) (by simp [step, readStep, h, shared, readAt, hr])
  | broadcast hr h =>
    exact .one (a := .read .next)
      (by simp [step, readStep, h, shared, readAt, hr, State.notifyAll])
  | dial hr h =>
    refine ⟨[.read .timer, .read .next], ?_⟩
    unfold beginDial at h
    split_ifs at h with hc <;>
      simp [Machine.run, machine, step, readStep, h, shared, readAt, hr, hc]
  | wokenDial hr hw h =>
    by_cases hc : u.closed = true
    · rw [beginDial, if_pos hc] at h
      refine ⟨[.read .take, .read .next], ?_⟩
      simp [Machine.run, machine, step, readStep, h, shared, readAt, hr, hw, hc]
    · rw [beginDial, if_neg hc] at h
      refine ⟨[.read .take, .read .next, .read .next], ?_⟩
      simp [Machine.run, machine, step, readStep, h, shared, readAt, hr, hw, hc]

theorem readAt_recv : readAt (.recv : ReadPc E) = .recv := rfl

theorem handleEvent_readAt [ProtocolError E] (env : Env R) (u : State E R) (e : TransportEvent) :
    readAt (handleEvent env u e).read = .recv ∨ readAt (handleEvent env u e).read = .handling := by
  unfold handleEvent handleFrame
  cases e with
  | frame f =>
    simp only []
    split <;> simp [readAt]
  | ping => exact .inr rfl
  | pong => exact .inr rfl

theorem readRecv_leadsShared [ProtocolError E] {env : Env R} {e : Option TransportEvent}
    (h : readRecv env cfg u e = some u') : Leads cfg (shared u) (shared u') := by
  have hr := (readRecv_leads env cfg h).1
  unfold readRecv at h
  rw [hr] at h
  cases e with
  | none =>
    cases h
    refine ⟨[.read .eof, .read .next], ?_⟩
    by_cases hc : u.closed = true
    · simp [Machine.run, machine, step, readStep, leave, shared, readAt, hr, hc]
    · by_cases hrec : cfg.reconnector = true
      · simp [Machine.run, machine, step, readStep, leave, shared, readAt, hr, hc, hrec]
      · simp [Machine.run, machine, step, readStep, leave, shared, readAt, hr, hc, hrec]
  | some e =>
    cases h
    have hrd := handleEvent_readAt env u e
    obtain ⟨rd, he⟩ := handleEvent_footprint env u e
    rw [he] at hrd ⊢
    rcases hrd with hrd | hrd
    · refine ⟨[.read .next, .read .next], ?_⟩
      simp [Machine.run, machine, step, readStep, shared, hrd, hr, readAt_recv]
    · refine ⟨[.read .next], ?_⟩
      simp [Machine.run, machine, step, readStep, shared, hrd, hr, readAt_recv]

/-! ### The keepalive loop -/

/-- From the top of the loop to one of its waits, or out. -/
theorem keepaliveTop_leads (u : State E R) :
    Leads cfg { shared u with keepalive := .top } (shared (keepaliveTop u)) := by
  by_cases hc : u.closed = true
  · exact .one (a := .keepalive .next) (by simp [step, keepaliveStep, keepaliveTop, shared, hc,
      keepaliveAt])
  · refine ⟨[.keepalive .next, .keepalive .next], ?_⟩
    rcases hi : storedInterval u.intervalMillis with _ | i <;>
      simp [Machine.run, machine, step, keepaliveStep, keepaliveTop, shared, hc, hi, keepaliveAt]

/-- The interval ran out. -/
theorem beginPing_leads {i : Duration} (hk : u.keepalive = .waiting i) :
    Leads cfg (shared u) (shared (beginPing cfg u)) := by
  by_cases hc : u.closed = true
  · refine ⟨[.keepalive .timer, .keepalive .next], ?_⟩
    simp [Machine.run, machine, step, keepaliveStep, beginPing, shared, hc, hk, keepaliveAt]
  · rcases hi : storedInterval u.intervalMillis with _ | j
    · have hb : beginPing cfg u = keepaliveTop u := by simp [beginPing, hc, hi]
      rw [hb]
      refine .trans ⟨[.keepalive .timer, .keepalive .next, .keepalive .next], ?_⟩
        (keepaliveTop_leads u)
      simp [Machine.run, machine, step, keepaliveStep, shared, hc, hi, hk, keepaliveAt]
    · refine ⟨[.keepalive .timer, .keepalive .next, .keepalive .next], ?_⟩
      simp [Machine.run, machine, step, keepaliveStep, beginPing, sendPingWithTimeout, afterPing,
        State.setPing, shared, hc, hi, hk, keepaliveAt]

theorem keepalivePoll_leads {p : Poll} (h : keepalivePoll cfg u p = some u') :
    Leads cfg (shared u) (shared u') := by
  unfold keepalivePoll at h
  split at h
  case h_1 hk =>
    cases h
    have hu : shared u = { shared u with keepalive := .top } := by simp [shared, hk, keepaliveAt]
    rw [hu]
    exact keepaliveTop_leads u
  case h_2 hk | h_3 hk =>
    split_ifs at h with hch
    cases h
    refine .trans (.one (a := .keepalive .take) ?_)
      (keepaliveTop_leads { u with changed := false, missed := 0 })
    simp [step, keepaliveStep, shared, hk, hch, keepaliveAt]
  case h_4 hk =>
    split_ifs at h
    cases h
    exact beginPing_leads hk
  case h_5 => cases h

/-- A miss that is counted, and the last one allowed, which forces a reconnect. -/
theorem countMiss_leads {n m : ℕ} (hk : u.keepalive = .pinging m) :
    Leads cfg (shared u) { shared (countMiss cfg u n) with keepalive := .top } := by
  unfold countMiss State.forceReconnect
  simp only []
  split_ifs with hm hc
  · refine ⟨[.keepalive .fail, .keepalive .next], ?_⟩
    simp [Machine.run, machine, step, keepaliveStep, shared, hk, hm, hc, keepaliveAt]
  · refine ⟨[.keepalive .fail, .keepalive .next, .keepalive .next], ?_⟩
    simp [Machine.run, machine, step, keepaliveStep, shared, hk, hm, hc, keepaliveAt]
  · exact .one (a := .keepalive .fail)
      (by simp [step, keepaliveStep, shared, hk, hm, keepaliveAt])

theorem keepalivePingPoll_leads {n : ℕ} {p : Poll} (h : keepalivePingPoll cfg u n p = some u') :
    Leads cfg (shared u) (shared u') := by
  unfold keepalivePingPoll at h
  split at h
  case h_2 => cases h
  case h_1 m hk =>
    split_ifs at h
    obtain ⟨t, ht, rfl⟩ := Option.map_eq_some_iff.1 h
    obtain ⟨_, _, _, _, _, _, _, ht, -⟩ := pingPoll_footprint ht
    have hkt : t.keepalive = .pinging m := by rw [ht, hk]
    have hut : shared u = shared t := by rw [ht]; rfl
    rw [hut]
    unfold afterPing
    split
    · refine .trans (.one (a := .keepalive .next) ?_) (keepaliveTop_leads { t with missed := 0 })
      simp [step, keepaliveStep, shared, hkt, keepaliveAt]
    · exact .trans (countMiss_leads hkt) (keepaliveTop_leads _)
    · exact .refl _

/-! ### Every step -/

theorem disconnectAt_update (f : ℕ → DisconnectPc E) (d : ℕ) (pc : DisconnectPc E) :
    (fun d' => disconnectAt (Function.update f d pc d'))
      = Function.update (fun d' => disconnectAt (f d')) d (disconnectAt pc) := by
  funext d'
  exact Function.apply_update (fun _ => disconnectAt) f d pc d'

theorem disconnect_leads {d : ℕ} (h : disconnect u d = some u') :
    Leads cfg (shared u) (shared u') := by
  unfold disconnect at h
  split at h
  case h_2 => cases h
  case h_1 hd =>
    have hd' : disconnectAt (u.disconnects d) = .idle := by rw [hd]; rfl
    split_ifs at h with hc <;> cases h
    · have hd'' : disconnectAt (.alreadyClosed : DisconnectPc E) = .alreadyClosed := rfl
      refine .one (a := .disconnect d) ?_
      simp [step, disconnectStep, shared, State.setDisconnect, hd', hd'', hc, disconnectAt_update]
    · have hd'' : disconnectAt (.lockSink : DisconnectPc E) = .notified := rfl
      refine ⟨[.disconnect d, .disconnect d, .disconnect d], ?_⟩
      simp [Machine.run, machine, step, disconnectStep, shared, hd', hd'', hc, disconnectAt_update]

/-- Past its two `notify`s a `disconnect` shares nothing but the sink. -/
theorem disconnectPoll_shared {d : ℕ} {p : Poll} (h : disconnectPoll u d p = some u') :
    shared u' = shared u := by
  have hup : ∀ pc : DisconnectPc E, disconnectAt (u.disconnects d) = .notified →
      disconnectAt pc = .notified → (fun d' => disconnectAt (Function.update u.disconnects d pc d'))
        = fun d' => disconnectAt (u.disconnects d') := by
    intro pc h₁ h₂
    rw [disconnectAt_update, h₂, ← h₁]
    exact Function.update_eq_self d fun d' => disconnectAt (u.disconnects d')
  unfold disconnectPoll at h
  split at h
  case h_1 hd =>
    obtain ⟨-, rfl⟩ := issue_map h
    simp only [shared, State.setDisconnect, hup .closing (by rw [hd]; rfl) rfl]
  case h_2 =>
    obtain ⟨-, rfl⟩ := pend_eq h
    rfl
  case h_3 r hd =>
    cases h
    simp only [shared, State.setDisconnect, State.release, hup (.returned _) (by rw [hd]; rfl) rfl]
  case h_4 => cases h

theorem forceReconnect_leads (u : State E R) : Leads cfg (shared u) (shared u.forceReconnect) := by
  unfold State.forceReconnect
  split_ifs with hc
  · exact .refl _
  · refine ⟨[.forceReconnect, .notifyForceReconnect], ?_⟩
    simp [Machine.run, machine, step, shared, hc]

theorem setPingInterval_leads (u : State E R) (i : Option Duration) :
    Leads cfg (shared u) (shared (setPingInterval u i)) :=
  ⟨[.setInterval (storedMillis (i.filter fun d => !d.isZero)), .notifyChanged], rfl⟩

variable [ProtocolError E] {env : Env R}

theorem step_leads {a : Act E} (hs : OcppClient.step env cfg u a = some u') :
    Leads cfg (shared u) (shared u') := by
  cases step_cases env cfg hs with
  | recv h => exact readRecv_leadsShared h
  | read h => exact ReadMove.leadsShared (readPoll_moves env cfg h)
  | keepalive h => exact keepalivePoll_leads h
  | keepalivePing h => exact keepalivePingPoll_leads h
  | disconnect h => exact disconnect_leads h
  | disconnectPoll h => exact .of_eq (disconnectPoll_shared h)
  | forceReconnect h => exact h ▸ forceReconnect_leads u
  | setPingInterval h => exact h ▸ setPingInterval_leads u _
  | callPoll h =>
    obtain ⟨_, _, _, _, _, _, rfl, -⟩ := callPoll_footprint env h
    exact .refl _
  | pingPoll h =>
    obtain ⟨_, _, _, _, _, _, _, rfl, -⟩ := pingPoll_footprint h
    exact .refl _
  | notificationPoll h =>
    obtain ⟨_, _, _, _, rfl, -⟩ := notificationPoll_footprint h
    exact .refl _
  | call h =>
    obtain ⟨_, _, rfl, -⟩ := doSendRequest_footprint env h
    exact .refl _
  | dropCall h =>
    obtain ⟨_, _, _, rfl⟩ := callDrop_footprint h
    exact .refl _
  | ping h =>
    obtain ⟨_, rfl⟩ := sendPing_footprint cfg h
    exact .refl _
  | dropPing h =>
    obtain ⟨_, _, _, rfl⟩ := pingDrop_footprint h
    exact .refl _
  | notify h =>
    obtain ⟨_, _, rfl, -⟩ := sendNotification_footprint env h
    exact .refl _
  | handlers h =>
    obtain ⟨_, _, _, _, _, _, _, rfl, -⟩ := h.footprint
    exact .refl _
  | background h =>
    obtain ⟨_, _, _, _, _, _, rfl⟩ := h
    exact .refl _

/-- The shared state of a client is one the accesses can lead to. -/
theorem reach_shared {P : State E R → Act E → Prop}
    (h : Machine.Reach (client env cfg) P u) :
    Machine.Reach (machine cfg) Machine.Any (shared u) :=
  h.invariant (I := fun u => Machine.Reach (machine cfg) Machine.Any (shared u)) .init
    fun _ _ _ _ _ hs hI => (step_leads hs).reach hI

/-- A client is closed by a `disconnect` that is past both its `notify`s, so a loop that waits has
its signal set. -/
theorem woken_of_closed {P : State E R → Act E → Prop} (h : Machine.Reach (client env cfg) P u)
    (hc : u.closed = true) :
    (readAt u.read = .recv ∨ readAt u.read = .backoff → u.wake = true)
      ∧ (keepaliveAt u.keepalive = .parked ∨ keepaliveAt u.keepalive = .waiting →
        u.changed = true) := by
  have hI := handshakeInv_of_reach (reach_shared h)
  obtain ⟨d, hd⟩ := hI.begun hc
  refine hI.noLostWake d ?_
  revert hd
  simp only [shared]
  cases u.disconnects d <;> simp [disconnectAt, DisconnectAt.Begun]

/-- A closed client whose read loop waits has the loop's signal set. -/
theorem wake_of_closed {P : State E R → Act E → Prop} (h : Machine.Reach (client env cfg) P u)
    (hc : u.closed = true) (hr : u.read = .recv ∨ ∃ d, u.read = .backoff d) : u.wake = true := by
  refine (woken_of_closed h hc).1 ?_
  rcases hr with hr | ⟨d, hr⟩ <;> simp [hr, readAt]

end OcppClient.Handshake
