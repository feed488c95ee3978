import OcppClient.Proofs.Passage
import OcppClient.Proofs.PingSteps

/-!
# Which pings make the keepalive loop give up

The loop counts the pings missed in a row and is not told of a redial, so a miss on the transport
before counts against the one after, and so does a ping whose write failed. While neither happens,
the pings the count stands for were the last ones begun, and all of them were written to the
transport that is installed.
-/

namespace OcppClient

open Transition History

variable {E R : Type}

/-- The `j`-th ping of the keepalive loop was written to `k` and went unanswered. -/
def Lost (h : List (Event E)) (k : SinkId) (j : ℕ) : Prop :=
  .ping (.written (.keepalive j) k) ∈ h ∧ .ping (.missed (.keepalive j)) ∈ h

/-- When the loop gives up after its `n`-th ping, the last `misses_allowed()` were all lost on the
transport installed then. -/
def EscalatesOwn (cfg : ClientConfig) (pre : List (Event E)) (e : Event E) : Prop :=
  ∀ n k, e = .ping (.escalated n k) → cfg.keepalive.policy.missesAllowed ≤ n + 1
    ∧ ∀ j ≤ n, n < j + cfg.keepalive.policy.missesAllowed → Lost pre k j

def MissesOwn (cfg : ClientConfig) (s : State E R) : Prop := Always (EscalatesOwn cfg) s.hist

/-- The ping stands before its write. -/
def PingPc.Unwritten : PingPc E → Prop
  | .lockWaiters _ | .lockSink _ _ => True
  | _ => False

/-- A transport is swapped in only while no miss is counted and no keepalive ping has been written
that may still be missed, and no write of a keepalive ping fails. -/
def SwapsUncounted (s : State E R) : Act E → Prop
  | .poll .read .ready => ∀ k, s.read = .lockSwap k →
      s.missed = 0 ∧ ∀ n, s.keepalive = .pinging n → (s.pings (.keepalive n)).Unwritten
  | .poll (.ping (.keepalive _)) (.done (.error _)) => False
  | _ => True

/-! ## The count -/

section Count

/-- How many keepalive pings have returned. -/
def finished (s : State E R) : ℕ :=
  match s.keepalive with
  | .pinging n => n
  | _ => s.keepalivePings

/-- What the history says of the `n`-th ping while the loop is inside it. -/
def Sent (h : List (Event E)) (k : SinkId) (n : ℕ) : PingPc E → Prop
  | .waiting _ _ | .forget _ _ => .ping (.written (.keepalive n) k) ∈ h
  | .returned (.error _) => Lost h k n
  | _ => True

structure MissInv (cfg : ClientConfig) (s : State E R) : Prop where
  bound : s.missed < cfg.keepalive.policy.missesAllowed
  counted : s.missed ≤ finished s
  lost : ∀ j < finished s, finished s ≤ j + s.missed → Lost s.hist s.sink j
  last : ∀ n, s.keepalive = .pinging n → s.keepalivePings = n + 1
  sent : ∀ n, s.keepalive = .pinging n → Sent s.hist s.sink n (s.pings (.keepalive n))
  own : Always (EscalatesOwn cfg) s.hist

variable {s s' : State E R} {cfg : ClientConfig}

theorem finished_of_pinging {n : ℕ} (h : s.keepalive = .pinging n) : finished s = n := by
  simp [finished, h]

theorem finished_of_not_pinging (h : ∀ n, s.keepalive ≠ .pinging n) :
    finished s = s.keepalivePings := by
  unfold finished
  split
  · next n hn => exact absurd hn (h n)
  · rfl

theorem missesAllowed_pos (p : KeepalivePolicy) : 0 < p.missesAllowed := by
  unfold KeepalivePolicy.missesAllowed
  omega

theorem missesAllowed_le (p : KeepalivePolicy) : p.missesAllowed ≤ u32Max := by
  have := p.maxMissed.toNat_lt
  unfold KeepalivePolicy.missesAllowed u32Max
  omega

/-- The counter does not saturate below the number of misses allowed. -/
theorem saturatingSucc_of_lt {m : ℕ} {p : KeepalivePolicy} (h : m < p.missesAllowed) :
    saturatingSucc m = m + 1 := by
  have := missesAllowed_le p
  unfold saturatingSucc
  omega

theorem Grows.lost {ks : List Kind} {h h' : List (Event E)} (hg : Grows ks h h') {k : SinkId}
    {j : ℕ} (hl : Lost h k j) : Lost h' k j :=
  ⟨hg.mem hl.1, hg.mem hl.2⟩

theorem Grows.sent {ks : List Kind} {h h' : List (Event E)} (hg : Grows ks h h') {k : SinkId}
    {n : ℕ} {pc : PingPc E} (hs : Sent h k n pc) : Sent h' k n pc := by
  unfold Sent at hs ⊢
  split at hs
  · exact hg.mem hs
  · exact hg.mem hs
  · exact hg.lost hs
  · trivial

theorem Grows.escalatesOwn {ks : List Kind} {h h' : List (Event E)} (hg : Grows ks h h')
    (he : .escalated ∉ ks) (ha : Always (EscalatesOwn cfg) h) : Always (EscalatesOwn cfg) h' := by
  refine hg.always ha fun e hk pre n k heq => ?_
  subst heq
  exact absurd hk he

/-! ## One step -/

/-- The transport stays, the loop stays where it is, and its ping, if it is inside one, may move. -/
theorem MissInv.keep (hI : MissInv cfg s) {ks : List Kind} (hk : s'.keepalive = s.keepalive)
    (hn : s'.keepalivePings = s.keepalivePings) (hm : s'.missed = s.missed)
    (hs : s'.sink = s.sink) (hg : Grows ks s.hist s'.hist) (he : .escalated ∉ ks)
    (hp : ∀ n, s.keepalive = .pinging n → Sent s'.hist s.sink n (s'.pings (.keepalive n))) :
    MissInv cfg s' := by
  have hf : finished s' = finished s := by unfold finished; rw [hk, hn]
  refine ⟨hm ▸ hI.bound, ?_, ?_, ?_, ?_, hg.escalatesOwn he hI.own⟩
  · rw [hf, hm]
    exact hI.counted
  · rw [hf, hm, hs]
    exact fun j hj hc => hg.lost (hI.lost j hj hc)
  · rw [hk, hn]
    exact hI.last
  · rw [hk, hs]
    exact hp

/-- A step that does not concern the keepalive pings. -/
theorem MissInv.frame (hI : MissInv cfg s) {ks : List Kind} (hk : s'.keepalive = s.keepalive)
    (hn : s'.keepalivePings = s.keepalivePings) (hm : s'.missed = s.missed)
    (hs : s'.sink = s.sink) (hg : Grows ks s.hist s'.hist) (he : .escalated ∉ ks)
    (hp : ∀ n, s'.pings (.keepalive n) = s.pings (.keepalive n)) : MissInv cfg s' := by
  refine hI.keep hk hn hm hs hg he fun n h => ?_
  rw [hp]
  exact hg.sent (hI.sent n h)

/-- The loop is outside its pings with nothing counted. -/
theorem MissInv.reset (hk : ∀ n, s.keepalive ≠ .pinging n) (hm : s.missed = 0)
    {h : List (Event E)} (ho : Always (EscalatesOwn cfg) h) (hg : Grows [.raised] h s.hist) :
    MissInv cfg s := by
  refine ⟨hm ▸ missesAllowed_pos _, hm ▸ Nat.zero_le _, fun j hj hc => ?_,
    fun n hn => absurd hn (hk n), fun n hn => absurd hn (hk n), hg.escalatesOwn (by simp) ho⟩
  omega

/-- A transport is swapped in with nothing counted and nothing written. -/
theorem MissInv.swap (hI : MissInv cfg s) {k : SinkId} {rd : ReadPc E} {e : Event E}
    (he : EscalatesOwn cfg s.hist e) (hm : s.missed = 0)
    (hu : ∀ n, s.keepalive = .pinging n → (s.pings (.keepalive n)).Unwritten) :
    MissInv cfg { s with sink := k, stream := k, read := rd, hist := s.hist ++ [e] } := by
  refine ⟨hI.bound, hI.counted, fun j hj hc => ?_, hI.last, fun n hn => ?_, hI.own.snoc he⟩
  · change j < finished s at hj
    change finished s ≤ j + s.missed at hc
    omega
  · have h := hu n hn
    change Sent _ k n (s.pings (.keepalive n))
    revert h
    cases s.pings (.keepalive n) <;> simp [PingPc.Unwritten, Sent]

/-- The loop is inside its `n`-th ping and stays there. -/
theorem MissInv.inside (hI : MissInv cfg s) {n : ℕ} (h : s.keepalive = .pinging n)
    (hk : s'.keepalive = s.keepalive) (hn : s'.keepalivePings = s.keepalivePings)
    (hm : s'.missed = s.missed) (hs : s'.sink = s.sink)
    (hg : Grows [.ping, .issued] s.hist s'.hist)
    (hp : Sent s'.hist s.sink n (s'.pings (.keepalive n))) : MissInv cfg s' := by
  refine hI.keep hk hn hm hs hg (by simp) fun m hm => ?_
  rw [h, KeepalivePc.pinging.injEq] at hm
  exact hm ▸ hp

/-- A poll of the loop inside its ping, up to what the loop does with the outcome. -/
theorem MissInv.move (hI : MissInv cfg s) {n : ℕ} {p : Poll} (hk : s.keepalive = .pinging n)
    (hm : PingMove (.keepalive n) s s' p) (hp : ∀ e, p ≠ .done (.error e)) : MissInv cfg s' := by
  have hs := hI.sent n hk
  cases hm with
  | register _ h =>
    subst h
    exact hI.inside hk rfl rfl rfl rfl (.refl _ _) (by simp [Sent])
  | acquire _ _ h =>
    subst h
    exact hI.inside hk rfl rfl rfl rfl (.snoc (by simp)) (by simp [Sent])
  | pend _ _ h =>
    subst h
    exact hI.inside hk rfl rfl rfl rfl (.refl _ _) hs
  | written _ h =>
    subst h
    exact hI.inside hk rfl rfl rfl rfl (.snoc (by simp)) (by simp [Sent])
  | failed => exact absurd rfl (hp _)
  | answered _ _ h =>
    subst h
    exact hI.inside hk rfl rfl rfl rfl (.snoc (by simp)) (by simp [Sent])
  | expired hw _ h =>
    subst h
    rw [hw] at hs
    exact hI.inside hk rfl rfl rfl rfl (.refl _ _) (by simpa [Sent, State.setPing] using hs)
  | missed hw h =>
    subst h
    rw [hw] at hs
    exact hI.inside hk rfl rfl rfl rfl (.snoc (by simp)) (by simpa [Sent, Lost] using hs)

/-- The ping the loop was inside went unanswered. -/
theorem MissInv.miss (hI : MissInv cfg s) {n : ℕ} (hk : s.keepalive = .pinging n)
    (hl : Lost s.hist s.sink n) {k : KeepalivePc} (hk' : ∀ n, k ≠ .pinging n) :
    MissInv cfg { countMiss cfg s n with keepalive := k } := by
  have hb := hI.bound
  have hc := hI.counted
  have hlost := hI.lost
  rw [finished_of_pinging hk] at hc hlost
  have hall : ∀ j ≤ n, n ≤ j + s.missed → Lost s.hist s.sink j := fun j hj hjm => by
    rcases Nat.lt_or_eq_of_le hj with hlt | rfl
    · exact hlost j hlt hjm
    · exact hl
  unfold countMiss
  rw [saturatingSucc_of_lt hb]
  simp only []
  split_ifs with hge
  · have ho : Always (EscalatesOwn cfg) (s.hist ++ [.ping (.escalated n s.sink)]) := by
      refine hI.own.snoc fun n' k' he => ?_
      simp only [Event.ping.injEq, PingEvent.escalated.injEq] at he
      obtain ⟨rfl, rfl⟩ := he
      exact ⟨by omega, fun j hj hjn => hall j hj (by omega)⟩
    unfold State.forceReconnect
    split_ifs
    · exact .reset hk' rfl ho (.refl _ _)
    · exact .reset hk' rfl ho (.snoc (by simp))
  · have hf : finished { s with missed := s.missed + 1, keepalive := k } = n + 1 :=
      (finished_of_not_pinging hk').trans (hI.last n hk)
    refine ⟨by simpa using hge, ?_, ?_, fun m hm => absurd hm (hk' m),
      fun m hm => absurd hm (hk' m), hI.own⟩
    · rw [hf]
      exact Nat.succ_le_succ hc
    · rw [hf]
      intro j hj hjm
      exact hall j (Nat.le_of_lt_succ hj) (by simp only [] at hjm; omega)

theorem MissInv.afterPing (hI : MissInv cfg s) {n : ℕ} (hk : s.keepalive = .pinging n)
    (h : AfterPing cfg n s s') : MissInv cfg s' := by
  cases h with
  | inside _ h => exact h ▸ hI
  | answered _ hk' h =>
    subst h
    exact .reset hk' rfl hI.own (.refl _ _)
  | missed hp hk' h =>
    subst h
    have hs := hI.sent n hk
    rw [hp] at hs
    exact hI.miss hk hs hk'

theorem MissInv.keepalive (hI : MissInv cfg s) (h : KeepaliveMove cfg s s') : MissInv cfg s' := by
  cases h with
  | @top k m ch hs hk hm h =>
    subst h
    rcases hm with rfl | rfl
    · have hf : finished { s with keepalive := k, changed := ch } = finished s :=
        (finished_of_not_pinging hk).trans (finished_of_not_pinging hs).symm
      exact ⟨hI.bound, hf ▸ hI.counted, hf ▸ hI.lost, fun n hn => absurd hn (hk n),
        fun n hn => absurd hn (hk n), hI.own⟩
    · exact .reset hk rfl hI.own (.refl _ _)
  | ping hs _ h =>
    subst h
    have hc := hI.counted
    have hl := hI.lost
    rw [finished_of_not_pinging hs] at hc hl
    refine ⟨hI.bound, hc, hl, fun n hn => ?_, fun n hn => ?_, hI.own⟩
    · simpa using hn
    · simp only [KeepalivePc.pinging.injEq] at hn
      simp [hn, Sent]

end Count

variable [ProtocolError E] (env : Env R) (cfg : ClientConfig) {s : State E R}

theorem missInv_of_reach (h : Machine.Reach (client env cfg) SwapsUncounted s) :
    MissInv cfg s := by
  refine h.invariant ?_ fun s a s' _ hP hs hI => ?_
  · exact .reset nofun rfl .nil (.refl _ _)
  cases ping_cases env cfg hs with
  | recv h =>
    have hf := readRecv_frame env cfg h
    obtain ⟨hk, -⟩ := readRecv_passage env cfg h
    exact hI.frame hf.keepalive hf.keepalivePings hf.missed hk hf.grows (by simp)
      fun n => by rw [hf.pings]
  | read h =>
    have hf := readPoll_frame env cfg h
    rcases (readPoll_passage env cfg h).sink_or_swap with hk | ⟨rfl, k, hr, rfl⟩
    · exact hI.frame hf.keepalive hf.keepalivePings hf.missed hk hf.grows (by simp)
        fun n => by rw [hf.pings]
    · obtain ⟨hm, hu⟩ := hP k hr
      exact hI.swap (by simp [EscalatesOwn]) hm hu
  | begin h =>
    obtain ⟨pc, -, rfl, -⟩ := sendPing_pings cfg h
    exact hI.frame rfl rfl rfl rfl (.refl [] _) (by simp) fun n => by simp [State.setPing]
  | poll h =>
    obtain ⟨⟨pc, hp⟩, hk, hn, hm, hs, -⟩ := h.frame
    exact hI.frame hk hn hm hs h.grows (by simp) fun n => by simp [hp]
  | drop h =>
    have hp := pingDrop_pings h
    obtain ⟨_, _, _, rfl⟩ := pingDrop_footprint h
    exact hI.frame rfl rfl rfl rfl (.refl [] _) (by simp) fun n => by rw [hp]; simp
  | keepalive h => exact hI.keepalive h
  | keepalivePing hk hm ha =>
    have hI' := hI.move hk hm fun e he => by subst he; exact hP
    exact hI'.afterPing (hm.frame.2.1.trans hk) ha
  | other hf _ _ hk hg =>
    exact hI.frame hf.keepalive hf.keepalivePings hf.missed hk hg (by simp)
      fun n => by rw [hf.pings]

/-- In every run in which no transport is swapped in with a miss counted or a ping out, and no write
of a keepalive ping fails, the loop gives a transport up only for the pings it lost on it. -/
theorem missesOwn_of_swapsUncounted (h : Machine.Reach (client env cfg) SwapsUncounted s) :
    MissesOwn cfg s :=
  (missInv_of_reach env cfg h).own

/-- A keepalive ping that is written and goes unanswered. -/
def missedPing (n : ℕ) : List (Act WireError) :=
  [.poll .keepalive .timer, .poll (.ping (.keepalive n)) .ready,
    .poll (.ping (.keepalive n)) .ready, .poll (.ping (.keepalive n)) (.done (.ok ())),
    .poll (.ping (.keepalive n)) .timer, .poll (.ping (.keepalive n)) .ready]

/-- Two pings in a row missed on one transport. -/
def missedTwice : List (Act WireError) :=
  .poll .keepalive .ready :: missedPing 0 ++ missedPing 1

theorem missesOwn_of_missedTwice :
    ∃ s, scenario.run scenario.init missedTwice = some s
      ∧ s.hist.getLast? = some (.loop (.raised 0)) ∧ MissesOwn scenarioConfig s := by
  refine ⟨_, rfl, rfl, missesOwn_of_swapsUncounted scenarioEnv scenarioConfig
    (Machine.reach_of_run (M := scenario) missedTwice .init ?_ rfl)⟩
  exact ⟨trivial, trivial, trivial, trivial, trivial, trivial, trivial, trivial, trivial, trivial,
    trivial, trivial, trivial, trivial⟩

/-- One ping missed on a transport that the peer then closes, and one on the next. -/
def missedAcrossSwap : List (Act WireError) :=
  .poll .keepalive .ready :: missedPing 0
    ++ [.recv none, .poll .read .ready, .poll .read .timer, .poll .read (.done (.ok ())),
      .poll .read .ready, .poll .read .ready] ++ missedPing 1

/-- Two misses are allowed, and the new transport is given up after one. -/
theorem missed_across_swap :
    ∃ s, Machine.Reach scenario Machine.Any s
      ∧ s.hist = [.issued (.ping (.keepalive 0)) 0 (.ping (toBeBytes 0)),
        .ping (.written (.keepalive 0) 0), .ping (.missed (.keepalive 0)), .loop (.exit .eof 0),
        .loop .dialing, .loop (.swapped 1), .loop .reconnected,
        .issued (.ping (.keepalive 1)) 1 (.ping (toBeBytes 1)), .ping (.written (.keepalive 1) 1),
        .ping (.missed (.keepalive 1)), .ping (.escalated 1 1), .loop (.raised 1)]
      ∧ ¬ MissesOwn scenarioConfig s := by
  refine ⟨_, Machine.reach_any_of_run missedAcrossSwap rfl, rfl, fun h => ?_⟩
  have hl := (h [.issued (.ping (.keepalive 0)) 0 (.ping (toBeBytes 0)),
    .ping (.written (.keepalive 0) 0), .ping (.missed (.keepalive 0)), .loop (.exit .eof 0),
    .loop .dialing, .loop (.swapped 1), .loop .reconnected,
    .issued (.ping (.keepalive 1)) 1 (.ping (toBeBytes 1)), .ping (.written (.keepalive 1) 1),
    .ping (.missed (.keepalive 1))] _ [.loop (.raised 1)] rfl 1 1 rfl).2 0 (by decide) (by decide)
  simpa [Lost] using hl.1

end OcppClient
