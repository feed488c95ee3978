import OcppClient.Proofs.Footprint

/-!
# The steps of pings

What a ping does at each of its `await`s, what the keepalive loop does between its pings, and that
the loop's pings are numbered in order.
-/

namespace OcppClient

open Transition

variable {E R : Type} {s s' : State E R}

inductive PingMove (p : PingId) (s s' : State E R) : Poll → Prop
  | register {timeout : Duration} (hp : s.pings p = .lockWaiters timeout)
    (h : s' = { s with
      nextToken := s.nextToken + 1
      waiters := Function.update s.waiters s.nextToken (some p)
      pings := Function.update s.pings p (.lockSink s.nextToken timeout) }) : PingMove p s s' .ready
  | acquire {token : Token} {timeout : Duration} (hp : s.pings p = .lockSink token timeout)
    (hn : s.holder = none)
    (h : s' = { s with
      holder := some (.ping p)
      pended := false
      pings := Function.update s.pings p (.sending token timeout)
      hist := s.hist ++ [.issued (.ping p) s.sink (.ping (toBeBytes token))] }) :
    PingMove p s s' .ready
  | pend {token : Token} {timeout : Duration} (hp : s.pings p = .sending token timeout)
    (hn : s.pended = false) (h : s' = { s with pended := true }) : PingMove p s s' .pend
  | written {token : Token} {timeout : Duration} {r : Unit}
    (hp : s.pings p = .sending token timeout)
    (h : s' = { s.release with
      pings := Function.update s.pings p (.waiting token timeout)
      hist := s.hist ++ [.ping (.written p s.sink)] }) : PingMove p s s' (.done (.ok r))
  | failed {token : Token} {timeout : Duration} {e : TransportError}
    (hp : s.pings p = .sending token timeout)
    (h : s' = s.release.setPing p (.forget token (.transport e))) :
    PingMove p s s' (.done (.error e))
  | answered {token : Token} {timeout : Duration} (hp : s.pings p = .waiting token timeout)
    (hn : s.pongs p = true)
    (h : s' = { s with
      pongs := Function.update s.pongs p false
      pings := Function.update s.pings p (.returned (.ok ()))
      hist := s.hist ++ [.ping (.answered p)] }) : PingMove p s s' .ready
  | expired {token : Token} {timeout : Duration} (hp : s.pings p = .waiting token timeout)
    (hn : s.pongs p = false) (h : s' = s.setPing p (.forget token .timeout)) :
    PingMove p s s' .timer
  | missed {token : Token} {e : ClientError E} (hp : s.pings p = .forget token e)
    (h : s' = { s with
      waiters := Function.update s.waiters token none
      pings := Function.update s.pings p (.returned (.error e))
      hist := s.hist ++ [.ping (.missed p)] }) : PingMove p s s' .ready

theorem pingPoll_moves {p : PingId} {poll : Poll} (h : pingPoll s p poll = some s') :
    PingMove p s s' poll := by
  unfold pingPoll at h
  split at h
  case h_1 hp =>
    cases h
    exact .register hp rfl
  case h_2 hp =>
    obtain ⟨hn, rfl⟩ := issue_map h
    exact .acquire hp hn rfl
  case h_3 hp =>
    obtain ⟨hn, rfl⟩ := pend_eq h
    exact .pend hp hn rfl
  case h_4 hp =>
    cases h
    exact .written hp rfl
  case h_5 hp =>
    cases h
    exact .failed hp rfl
  case h_6 hp =>
    split_ifs at h with hn
    cases h
    exact .answered hp hn rfl
  case h_7 hp =>
    split_ifs at h with hn
    cases h
    exact .expired hp (by simpa using hn) rfl
  case h_8 hp =>
    cases h
    exact .missed hp rfl
  case h_9 => cases h

/-- The keepalive loop between its pings: to one of its waits or out, or into the next ping. -/
inductive KeepaliveMove (cfg : ClientConfig) (s s' : State E R) : Prop
  | top {k : KeepalivePc} {m : ℕ} {ch : Bool} (hs : ∀ n, s.keepalive ≠ .pinging n)
    (hk : ∀ n, k ≠ .pinging n) (hm : m = s.missed ∨ m = 0)
    (h : s' = { s with keepalive := k, missed := m, changed := ch })
  | ping (hs : ∀ n, s.keepalive ≠ .pinging n) (hc : s.closed = false)
    (h : s' = { s with
      keepalivePings := s.keepalivePings + 1
      keepalive := .pinging s.keepalivePings
      pings := Function.update s.pings (.keepalive s.keepalivePings)
        (.lockWaiters cfg.pingTimeout) })

theorem keepaliveTop_ne (s : State E R) (n : ℕ) : (keepaliveTop s).keepalive ≠ .pinging n := by
  unfold keepaliveTop
  simp only []
  split_ifs
  · simp
  · split <;> simp

theorem keepalivePoll_moves {cfg : ClientConfig} {p : Poll} (h : keepalivePoll cfg s p = some s') :
    KeepaliveMove cfg s s' := by
  unfold keepalivePoll at h
  split at h
  case h_1 hk =>
    cases h
    exact .top (by simp [hk]) (keepaliveTop_ne s) (.inl rfl) rfl
  case h_2 hk =>
    split_ifs at h
    cases h
    exact .top (by simp [hk]) (keepaliveTop_ne _) (.inr rfl) rfl
  case h_3 hk =>
    split_ifs at h
    cases h
    exact .top (by simp [hk]) (keepaliveTop_ne _) (.inr rfl) rfl
  case h_4 hk =>
    split_ifs at h
    cases h
    unfold beginPing
    split_ifs with hc hi
    · exact .top (by simp [hk]) (by simp) (.inl rfl) rfl
    · exact .top (by simp [hk]) (keepaliveTop_ne s) (.inl rfl) rfl
    · refine .ping (by simp [hk]) (by simpa using hc) ?_
      unfold sendPingWithTimeout afterPing
      simp [hc, State.setPing]
  case h_5 => cases h

/-- A ping moves one future, and leaves the keepalive loop and the transport alone. -/
theorem PingMove.frame {p : PingId} {poll : Poll} (h : PingMove p s s' poll) :
    (∃ pc, s'.pings = Function.update s.pings p pc) ∧ s'.keepalive = s.keepalive
      ∧ s'.keepalivePings = s.keepalivePings ∧ s'.missed = s.missed ∧ s'.sink = s.sink
      ∧ s'.closed = s.closed := by
  cases h with
  | register _ h => subst h; exact ⟨⟨_, rfl⟩, rfl, rfl, rfl, rfl, rfl⟩
  | acquire _ _ h => subst h; exact ⟨⟨_, rfl⟩, rfl, rfl, rfl, rfl, rfl⟩
  | pend _ _ h => subst h; exact ⟨⟨s.pings p, by simp⟩, rfl, rfl, rfl, rfl, rfl⟩
  | written _ h => subst h; exact ⟨⟨_, rfl⟩, rfl, rfl, rfl, rfl, rfl⟩
  | failed _ h => subst h; exact ⟨⟨_, rfl⟩, rfl, rfl, rfl, rfl, rfl⟩
  | answered _ _ h => subst h; exact ⟨⟨_, rfl⟩, rfl, rfl, rfl, rfl, rfl⟩
  | expired _ _ h => subst h; exact ⟨⟨_, rfl⟩, rfl, rfl, rfl, rfl, rfl⟩
  | missed _ h => subst h; exact ⟨⟨_, rfl⟩, rfl, rfl, rfl, rfl, rfl⟩

theorem PingMove.grows {p : PingId} {poll : Poll} (h : PingMove p s s' poll) :
    Grows [.ping, .issued] s.hist s'.hist := by
  cases h with
  | register _ h => subst h; exact .refl _ _
  | acquire _ _ h => subst h; exact .snoc (by simp)
  | pend _ _ h => subst h; exact .refl _ _
  | written _ h => subst h; exact .snoc (by simp)
  | failed _ h => subst h; exact .refl _ _
  | answered _ _ h => subst h; exact .snoc (by simp)
  | expired _ _ h => subst h; exact .refl _ _
  | missed _ h => subst h; exact .snoc (by simp)

/-- The keepalive loop once its `n`-th ping has been polled. -/
inductive AfterPing (cfg : ClientConfig) (n : ℕ) (s s' : State E R) : Prop
  | inside (hp : ∀ r, s.pings (.keepalive n) ≠ .returned r) (h : s' = s)
  | answered {r : Unit} {k : KeepalivePc} (hp : s.pings (.keepalive n) = .returned (.ok r))
    (hk : ∀ n, k ≠ .pinging n) (h : s' = { s with keepalive := k, missed := 0 })
  | missed {e : ClientError E} {k : KeepalivePc}
    (hp : s.pings (.keepalive n) = .returned (.error e)) (hk : ∀ n, k ≠ .pinging n)
    (h : s' = { countMiss cfg s n with keepalive := k })

theorem afterPing_cases (cfg : ClientConfig) (s : State E R) (n : ℕ) :
    AfterPing cfg n s (afterPing cfg s n) := by
  unfold afterPing
  split
  case h_1 hp => exact .answered hp (keepaliveTop_ne _) rfl
  case h_2 hp => exact .missed hp (keepaliveTop_ne _) rfl
  case h_3 h₁ h₂ =>
    refine .inside (fun r hp => ?_) rfl
    cases r with
    | ok r => exact h₁ r hp
    | error e => exact h₂ e hp

theorem keepalivePingPoll_moves {cfg : ClientConfig} {n : ℕ} {p : Poll}
    (h : keepalivePingPoll cfg s n p = some s') :
    s.keepalive = .pinging n ∧ ∃ t, PingMove (.keepalive n) s t p ∧ AfterPing cfg n t s' := by
  unfold keepalivePingPoll at h
  split at h
  case h_2 => cases h
  case h_1 m hk =>
    split_ifs at h with hm
    subst hm
    obtain ⟨t, ht, rfl⟩ := Option.map_eq_some_iff.1 h
    exact ⟨hk, t, pingPoll_moves ht, afterPing_cases cfg t _⟩

/-! ## One step of the client -/

/-- A step that does not concern the pings. -/
structure PingFrame (s s' : State E R) : Prop where
  pings : s'.pings = s.pings
  keepalive : s'.keepalive = s.keepalive
  keepalivePings : s'.keepalivePings = s.keepalivePings
  missed : s'.missed = s.missed
  nextToken : s'.nextToken = s.nextToken

inductive PingCase (env : Env R) (cfg : ClientConfig) [ProtocolError E] (s s' : State E R) :
    Act E → Prop
  | recv {e : Option TransportEvent} (h : readRecv env cfg s e = some s') :
    PingCase env cfg s s' (.recv e)
  | read {p : Poll} (h : readPoll env cfg s p = some s') : PingCase env cfg s s' (.poll .read p)
  | begin {n : ℕ} (h : sendPing cfg s n = some s') : PingCase env cfg s s' (.ping n)
  | poll {n : ℕ} {p : Poll} (h : PingMove (.user n) s s' p) :
    PingCase env cfg s s' (.poll (.ping (.user n)) p)
  | drop {n : ℕ} (h : pingDrop s n = some s') : PingCase env cfg s s' (.dropPing n)
  | keepalive {p : Poll} (h : KeepaliveMove cfg s s') :
    PingCase env cfg s s' (.poll .keepalive p)
  | keepalivePing {n : ℕ} {p : Poll} {t : State E R} (hk : s.keepalive = .pinging n)
    (hm : PingMove (.keepalive n) s t p) (ha : AfterPing cfg n t s') :
    PingCase env cfg s s' (.poll (.ping (.keepalive n)) p)
  | other {a : Act E} (hf : PingFrame s s') (hw : s'.waiters = s.waiters)
    (hp : s'.pongs = s.pongs) (hk : s'.sink = s.sink)
    (hg : Grows [.call, .raised, .closed, .issued] s.hist s'.hist) : PingCase env cfg s s' a

variable [ProtocolError E] (env : Env R) (cfg : ClientConfig)

theorem ping_cases {a : Act E} (hs : step env cfg s a = some s') : PingCase env cfg s s' a := by
  cases step_cases env cfg hs with
  | recv h => exact .recv h
  | read h => exact .read h
  | keepalive h => exact .keepalive (keepalivePoll_moves h)
  | keepalivePing h =>
    obtain ⟨hk, t, hm, ha⟩ := keepalivePingPoll_moves h
    exact .keepalivePing hk hm ha
  | pingPoll h => exact .poll (pingPoll_moves h)
  | ping h => exact .begin h
  | dropPing h => exact .drop h
  | callPoll h =>
    obtain ⟨_, _, _, _, _, _, rfl, hg⟩ := callPoll_footprint env h
    exact .other ⟨rfl, rfl, rfl, rfl, rfl⟩ rfl rfl rfl (hg.mono (by simp))
  | notificationPoll h =>
    obtain ⟨_, _, _, _, rfl, hg⟩ := notificationPoll_footprint h
    exact .other ⟨rfl, rfl, rfl, rfl, rfl⟩ rfl rfl rfl (hg.mono (by simp))
  | disconnectPoll h =>
    obtain ⟨_, _, _, _, rfl, hg⟩ := disconnectPoll_footprint h
    exact .other ⟨rfl, rfl, rfl, rfl, rfl⟩ rfl rfl rfl (hg.mono (by simp))
  | call h =>
    obtain ⟨_, _, rfl, -⟩ := doSendRequest_footprint env h
    exact .other ⟨rfl, rfl, rfl, rfl, rfl⟩ rfl rfl rfl (.refl _ _)
  | dropCall h =>
    obtain ⟨_, _, _, rfl⟩ := callDrop_footprint h
    exact .other ⟨rfl, rfl, rfl, rfl, rfl⟩ rfl rfl rfl (.refl _ _)
  | notify h =>
    obtain ⟨_, _, rfl, -⟩ := sendNotification_footprint env h
    exact .other ⟨rfl, rfl, rfl, rfl, rfl⟩ rfl rfl rfl (.refl _ _)
  | disconnect h =>
    obtain ⟨_, _, _, _, _, rfl, hg⟩ := disconnect_footprint h
    exact .other ⟨rfl, rfl, rfl, rfl, rfl⟩ rfl rfl rfl (hg.mono (by simp))
  | forceReconnect h =>
    subst h
    unfold State.forceReconnect
    split_ifs
    · exact .other ⟨rfl, rfl, rfl, rfl, rfl⟩ rfl rfl rfl (.refl _ _)
    · exact .other ⟨rfl, rfl, rfl, rfl, rfl⟩ rfl rfl rfl (.snoc (by simp))
  | setPingInterval h =>
    subst h
    exact .other ⟨rfl, rfl, rfl, rfl, rfl⟩ rfl rfl rfl (.refl _ _)
  | handlers h =>
    obtain ⟨_, _, _, _, _, _, _, rfl, hg⟩ := h.footprint
    exact .other ⟨rfl, rfl, rfl, rfl, rfl⟩ rfl rfl rfl (hg.mono (by simp))
  | background h =>
    obtain ⟨_, _, _, _, _, _, rfl⟩ := h
    exact .other ⟨rfl, rfl, rfl, rfl, rfl⟩ rfl rfl rfl (.refl _ _)

omit [ProtocolError E] in
theorem ReadFrame.pingFrame (h : ReadFrame s s') : PingFrame s s' :=
  ⟨h.pings, h.keepalive, h.keepalivePings, h.missed, h.nextToken⟩

/-! ## The loop's pings are numbered in order -/

structure Numbered (s : State E R) : Prop where
  idle : ∀ n, s.keepalivePings ≤ n → s.pings (.keepalive n) = .idle
  pinging : ∀ n, s.keepalive = .pinging n → n < s.keepalivePings

omit [ProtocolError E] in
theorem Numbered.frame (hI : Numbered s) (hf : PingFrame s s') : Numbered s' :=
  ⟨by rw [hf.pings, hf.keepalivePings]; exact hI.idle,
    by rw [hf.keepalive, hf.keepalivePings]; exact hI.pinging⟩

omit [ProtocolError E] in
/-- A ping that is a user's, or was begun, moves. -/
theorem Numbered.set (hI : Numbered s) {p : PingId} {pc : PingPc E}
    (hp : ∀ n, p = .keepalive n → n < s.keepalivePings)
    (h₁ : s'.pings = Function.update s.pings p pc) (h₂ : s'.keepalivePings = s.keepalivePings)
    (h₃ : s'.keepalive = s.keepalive ∨ ∀ n, s'.keepalive ≠ .pinging n) : Numbered s' := by
  refine ⟨fun n hn => ?_, fun n hn => ?_⟩
  · rw [h₂] at hn
    have hne : PingId.keepalive n ≠ p := fun he => absurd (hp n he.symm) (Nat.not_lt.2 hn)
    rw [h₁, Function.update_of_ne hne]
    exact hI.idle n hn
  · rw [h₂]
    rcases h₃ with h₃ | h₃
    · exact hI.pinging n (h₃ ▸ hn)
    · exact absurd hn (h₃ n)

omit [ProtocolError E] in
theorem AfterPing.frame {n : ℕ} (h : AfterPing cfg n s s') :
    s'.pings = s.pings ∧ s'.waiters = s.waiters ∧ s'.keepalivePings = s.keepalivePings
      ∧ s'.sink = s.sink ∧ (s'.keepalive = s.keepalive ∨ ∀ n, s'.keepalive ≠ .pinging n) := by
  cases h with
  | inside _ h => subst h; exact ⟨rfl, rfl, rfl, rfl, .inl rfl⟩
  | answered _ hk h => subst h; exact ⟨rfl, rfl, rfl, rfl, .inr hk⟩
  | missed _ hk h =>
    subst h
    obtain ⟨m, wa, h', hc, -⟩ := countMiss_footprint cfg s n
    rw [hc]
    exact ⟨rfl, rfl, rfl, rfl, .inr hk⟩

omit [ProtocolError E] in
theorem sendPing_pings {n : ℕ} (h : sendPing cfg s n = some s') :
    ∃ pc, s.pings (.user n) = .idle ∧ s' = s.setPing (.user n) pc
      ∧ (pc = .returned (.error .closed) ∨ pc = .lockWaiters cfg.timeout) := by
  unfold sendPing sendPingWithTimeout at h
  split at h
  · next hi =>
    split_ifs at h <;> cases h
    · exact ⟨_, hi, rfl, .inl rfl⟩
    · exact ⟨_, hi, rfl, .inr rfl⟩
  · cases h

omit [ProtocolError E] in
theorem pingDrop_pings {n : ℕ} (h : pingDrop s n = some s') :
    s'.pings = Function.update s.pings (.user n) .dropped := by
  unfold pingDrop at h
  split at h <;> cases h <;> rfl

theorem numbered_of_reach {P : State E R → Act E → Prop}
    (h : Machine.Reach (client env cfg) P s) : Numbered s := by
  refine h.invariant ⟨fun _ _ => rfl, by simp [client, State.new]⟩ fun s a s' _ _ hs hI => ?_
  cases ping_cases env cfg hs with
  | recv h => exact hI.frame (readRecv_frame env cfg h).pingFrame
  | read h => exact hI.frame (readPoll_frame env cfg h).pingFrame
  | begin h =>
    obtain ⟨pc, -, rfl, -⟩ := sendPing_pings cfg h
    exact hI.set (by simp) rfl rfl (.inl rfl)
  | poll h =>
    obtain ⟨⟨pc, hp⟩, hk, hn, -⟩ := h.frame
    exact hI.set (by simp) hp hn (.inl hk)
  | drop h =>
    obtain ⟨ps, ho, pe, hs'⟩ := pingDrop_footprint h
    exact hI.set (by simp) (pingDrop_pings h) (by rw [hs']) (.inl (by rw [hs']))
  | keepalive h =>
    cases h with
    | top _ hk _ h =>
      subst h
      exact ⟨hI.idle, fun n hn => absurd hn (hk n)⟩
    | ping _ _ h =>
      subst h
      refine ⟨fun n hn => ?_, fun n hn => ?_⟩
      · have hne : PingId.keepalive n ≠ .keepalive s.keepalivePings := by
          simpa using (Nat.ne_of_gt hn)
        simp only [Function.update_of_ne hne]
        exact hI.idle n (Nat.le_of_succ_le hn)
      · simp only [KeepalivePc.pinging.injEq] at hn
        exact hn ▸ Nat.lt_succ_self _
  | keepalivePing hk hm ha =>
    obtain ⟨⟨pc, hp⟩, hk', hn, -⟩ := hm.frame
    obtain ⟨hp', -, hn', -, hk''⟩ := ha.frame
    refine hI.set (fun n he => ?_) (hp'.trans hp) (hn'.trans hn)
      (hk''.imp_left fun h => h.trans hk')
    cases he
    exact hI.pinging _ hk
  | other hf _ _ _ _ => exact hI.frame hf

/-- The loop is inside every ping of its own that is under way. -/
def Inside (s : State E R) : Prop :=
  ∀ n, s.keepalive = .pinging n ∨ s.pings (.keepalive n) = .idle
    ∨ ∃ r, s.pings (.keepalive n) = .returned r

theorem inside_of_reach {P : State E R → Act E → Prop}
    (h : Machine.Reach (client env cfg) P s) : Inside s := by
  refine h.invariant (fun _ => .inr (.inl rfl)) fun s a s' _ _ hs hI => ?_
  have frame : ∀ {s'}, PingFrame s s' → Inside s' := fun hf n => by
    rw [hf.keepalive, hf.pings]
    exact hI n
  -- a user's ping moves
  have user : ∀ {s' : State E R} m pc, s'.pings = Function.update s.pings (.user m) pc →
      s'.keepalive = s.keepalive → Inside s' := fun m pc hp hk n => by
    rw [hp, hk, Function.update_of_ne (by simp)]
    exact hI n
  cases ping_cases env cfg hs with
  | recv h => exact frame (readRecv_frame env cfg h).pingFrame
  | read h => exact frame (readPoll_frame env cfg h).pingFrame
  | begin h =>
    obtain ⟨pc, -, rfl, -⟩ := sendPing_pings cfg h
    exact user _ pc rfl rfl
  | poll h =>
    obtain ⟨⟨pc, hp⟩, hk, -⟩ := h.frame
    exact user _ pc hp hk
  | drop h =>
    obtain ⟨_, _, _, hs'⟩ := pingDrop_footprint h
    exact user _ _ (pingDrop_pings h) (by rw [hs'])
  | keepalive h =>
    cases h with
    | top hk _ _ h =>
      subst h
      exact fun n => .inr ((hI n).resolve_left (hk n))
    | ping hk _ h =>
      subst h
      intro n
      by_cases hn : n = s.keepalivePings
      · exact .inl (by rw [hn])
      · have hne : PingId.keepalive n ≠ .keepalive s.keepalivePings := by simpa using hn
        simp only [Function.update_of_ne hne]
        exact .inr ((hI n).resolve_left (hk n))
  | @keepalivePing m _ t hk hm ha =>
    obtain ⟨⟨pc, hp⟩, hk', -⟩ := hm.frame
    intro n
    by_cases hn : n = m
    · subst hn
      cases ha with
      | inside _ h => exact .inl (by rw [h, hk', hk])
      | answered hr _ h => exact .inr (.inr ⟨_, by rw [h]; exact hr⟩)
      | missed hr _ h =>
        obtain ⟨_, _, _, hc, -⟩ := countMiss_footprint cfg t n
        exact .inr (.inr ⟨_, by rw [h, hc]; exact hr⟩)
    · have hne : PingId.keepalive n ≠ .keepalive m := by simpa using hn
      rw [ha.frame.1, hp, Function.update_of_ne hne]
      refine .inr ((hI n).resolve_left ?_)
      rw [hk]
      simpa using Ne.symm hn
  | other hf _ _ _ _ => exact frame hf

end OcppClient
