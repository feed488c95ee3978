import OcppClient.Proofs.PingCorrelation

/-!
# Pings across a redial

The table of waiters is cleared when the loop leaves a transport, but the sink of that transport
stays installed until the swap, and a ping registers before it has the sink. So a ping written to
the dead sink during the backoff is still in the table when the next one is installed; and a ping
that registered before the clear and got the sink after the swap has lost its waiter, so that the
pong to it finds nobody. Neither can happen in the runs described here.
-/

namespace OcppClient

open Transition History

variable {E R : Type} {v v' : PingView E} {log notes : List PingNote}

/-! ## No stale waiters -/

/-- Right after a swap, no waiter in the table is of a ping written to an earlier sink. -/
def NoStaleWaiters (s : State E R) (log : List PingNote) : Prop :=
  s.read = .notifyReconnect → ∀ t p k, s.waiters t = some p → .written p k ∈ log → k = s.sink

/-- Between two transports no ping is written whose waiter is in the table. -/
def NoDeadWrite (v : PingView E) (notes : List PingNote) : Prop :=
  ∀ p k, .written p k ∈ notes → v.zone = .between → ∀ t, v.waiters t ≠ some p

structure StaleInv (v : PingView E) (log : List PingNote) : Prop where
  current : ∀ t p k, v.waiters t = some p → .written p k ∈ log → k = v.sink
  between : v.zone = .between → ∀ t p k, v.waiters t = some p → .written p k ∉ log

/-- The table may have lost waiters, and nothing was written. -/
theorem StaleInv.shrink (hI : StaleInv v log)
    (hw : ∀ t p, v'.waiters t = some p → v.waiters t = some p)
    (hn : ∀ p k, .written p k ∉ notes) (hk : v'.sink = v.sink)
    (hz : v'.zone = .between → v.zone = .between) : StaleInv v' (log ++ notes) := by
  have hm : ∀ {p k}, .written p k ∈ log ++ notes → .written p k ∈ log := fun h =>
    (List.mem_append.1 h).resolve_right (hn _ _)
  refine ⟨fun t p k ht h => ?_, fun h t p k ht hwr => hI.between (hz h) t p k (hw t p ht) (hm hwr)⟩
  rw [hk]
  exact hI.current t p k (hw t p ht) (hm h)

/-- A ping at one of its first three places has not been written. -/
theorem Told.unwritten (hT : Told v log) {p : PingId}
    (hp : (∃ d, v.pings p = .lockWaiters d) ∨ ∃ t d, v.pings p = .sending t d) (k : SinkId) :
    .written p k ∉ log := by
  intro h
  have hs := hT p
  have hm := mem_ownNotes h rfl
  generalize ownNotes p log = own at hs hm
  rcases hp with ⟨d, hp⟩ | ⟨t, d, hp⟩ <;> rw [hp] at hs <;> cases hs <;> simp at hm

theorem update_none_some {f : Token → Option PingId} {t t' : Token} {p : PingId}
    (h : Function.update f t none t' = some p) : f t' = some p := by
  by_cases ht : t' = t
  · subst ht
    simp at h
  · rwa [Function.update_of_ne ht] at h

theorem staleInv_step (h : PingStep v v' notes) (hT : Told v log) (hP : NoDeadWrite v notes)
    (hI : StaleInv v log) : StaleInv v' (log ++ notes) := by
  cases h with
  | @register p d hp =>
    have hnew := hT.unwritten (.inl ⟨d, hp⟩)
    refine ⟨fun t q k ht hwr => ?_, fun hz t q k ht hwr => ?_⟩ <;>
    · simp only [List.mem_append, List.mem_singleton, reduceCtorEq, or_false] at hwr
      by_cases htn : t = v.nextToken
      · subst htn
        simp only [Function.update_self, Option.some.injEq] at ht
        subst ht
        exact absurd hwr (hnew k)
      · simp only [Function.update_of_ne htn] at ht
        first
          | exact hI.current t q k ht hwr
          | exact hI.between hz t q k ht hwr
  | @write p t d hp =>
    have hnew := hT.unwritten (.inr ⟨t, d, hp⟩)
    refine ⟨fun t' q k ht hwr => ?_, fun hz t' q k ht hwr => ?_⟩
    · simp only [List.mem_append, List.mem_singleton, PingNote.written.injEq] at hwr
      rcases hwr with hwr | ⟨-, rfl⟩
      · exact hI.current t' q k ht hwr
      · rfl
    · simp only [List.mem_append, List.mem_singleton, PingNote.written.injEq] at hwr
      rcases hwr with hwr | ⟨rfl, rfl⟩
      · exact hI.between hz t' q k ht hwr
      · exact hP q v.sink (by simp) hz t' ht
  | swap hz _ _ =>
    refine ⟨fun t p k ht hwr => ?_, nofun⟩
    rw [List.append_nil] at hwr
    exact absurd hwr (hI.between hz t p k ht)
  | clear _ _ => exact ⟨nofun, fun _ => nofun⟩
  | forget _ => exact hI.shrink (fun _ _ => update_none_some) (by simp) rfl id
  | handle _ => exact hI.shrink (fun _ _ => update_none_some) (by simp) rfl (by simp)
  | receive _ _ => exact hI.shrink (fun _ _ => id) (by simp) rfl (by simp)
  | ignore _ => exact hI.shrink (fun _ _ => id) (by simp) rfl (by simp)
  | loop hz =>
    refine hI.shrink (fun _ _ => id) (by simp) rfl fun h => ?_
    rcases hz with rfl | ⟨-, rfl⟩
    · exact h
    · cases h
  | refuse _ | begin _ _ | issue _ | fail _ _ | answer _ _ | expire _ _ | drop _ _ =>
    exact hI.shrink (fun _ _ => id) (by simp) rfl id

section

variable [ProtocolError E] (env : Env R) (cfg : ClientConfig)

/-- In every run in which no ping that waits in the table is written between two transports. -/
theorem noStaleWaiters_of_noDeadWrite {s : State E R × List PingNote}
    (h : Machine.Reach (pingClient env cfg)
      (fun s a => NoDeadWrite s.1.pingView (pingNotes s.1 a)) s) : NoStaleWaiters s.1 s.2 := by
  have hI : PingInv s.1.pingView s.2 ∧ StaleInv s.1.pingView s.2 :=
    ping_invariant env cfg (I := fun v log => PingInv v log ∧ StaleInv v log) (fun _ _ hP => hP)
      ⟨pingInv_new cfg, by simp, by simp⟩
      (fun _ _ _ _ h hP hI => ⟨pingInv_step h hI.1, staleInv_step h hI.1.told hP hI.2⟩) h
  exact fun _ => hI.2.current

end

/-- The transport ends while a ping is being written, and another ping is begun in the backoff. -/
def pingAcrossSwap : List (Act WireError) :=
  [.ping 0, .poll (.ping (.user 0)) .ready, .poll (.ping (.user 0)) .ready, .recv none,
    .poll .read .ready, .poll (.ping (.user 0)) (.done (.ok ())), .ping 1,
    .poll (.ping (.user 1)) .ready, .poll .read .timer, .poll .read (.done (.ok ())),
    .poll .read .ready]

theorem noStaleWaiters_of_pingAcrossSwap :
    ∃ s, (scenario.observed pingNotes).run (scenario.observed pingNotes).init pingAcrossSwap
        = some s
      ∧ s.1.read = .notifyReconnect ∧ s.1.sink = 1 ∧ s.1.waiters 1 = some (.user 1)
      ∧ .written (.user 0) 0 ∈ s.2 ∧ NoStaleWaiters s.1 s.2 := by
  refine ⟨_, rfl, rfl, rfl, rfl, ?_, noStaleWaiters_of_noDeadWrite scenarioEnv scenarioConfig
    (Machine.reach_of_run (M := scenario.observed pingNotes) pingAcrossSwap .init ?_ rfl)⟩
  · decide
  · exact ⟨nofun, nofun, nofun, nofun, nofun, fun _ _ _ _ _ => nofun, nofun, nofun, nofun, nofun,
      nofun, trivial⟩

/-- The transport ends, and a ping is begun and written to its sink during the backoff. -/
def pingInBackoff : List (Act WireError) :=
  [.recv none, .poll .read .ready, .ping 0, .poll (.ping (.user 0)) .ready,
    .poll (.ping (.user 0)) .ready, .poll (.ping (.user 0)) (.done (.ok ())), .poll .read .timer,
    .poll .read (.done (.ok ())), .poll .read .ready]

theorem pingInBackoff_stale :
    ∃ s, (scenario.observed pingNotes).run (scenario.observed pingNotes).init pingInBackoff = some s
      ∧ ¬ NoStaleWaiters s.1 s.2 := by
  refine ⟨_, rfl, fun h => ?_⟩
  have h := h rfl 0 (.user 0) 0 rfl (by decide)
  cases h

/-! ## No false miss -/

/-- From the stream of `k` a pong with the bytes of `token` was received, when `p` had been issued
on the sink of `k` under that token and its deadline had not won. -/
def Echoed (log : List PingNote) (p : PingId) (k : SinkId) (token : Token) : Prop :=
  ∃ pre post, log = pre ++ .received k (toBeBytes token) :: post ∧ .registered p token ∈ pre
    ∧ .issued p k ∈ pre ∧ .expired p ∉ pre

/-- A ping has been issued and is under way. -/
def PingPc.Issued (t : Token) : PingPc E → Prop
  | .sending t' _ | .waiting t' _ => t' = t
  | _ => False

theorem PingPc.Issued.token {pc : PingPc E} {t : Token} (h : pc.Issued t) : pc.token = some t := by
  cases pc <;> simp_all [PingPc.Issued, PingPc.token]

/-- What a redial must not do to lose a ping, and two rarer ways: the table is cleared for the next
transport while no ping that registered waits for the sink, no deadline wins against a pong the loop
has in hand, and no token of a ping under way is drawn again. -/
structure Careful (v : PingView E) (notes : List PingNote) : Prop where
  clear : .cleared .between ∈ notes → ∀ p t d, v.pings p ≠ .lockSink t d
  deadline : ∀ p t, .expired p ∈ notes → (v.pings p).token = some t → v.zone ≠ .pong (some t)
  token : ∀ p q t, .registered p t ∈ notes → (v.pings q).token ≠ some t

/-- The waiter of `p` is in the table, or its slot is filled. -/
def Held (v : PingView E) (p : PingId) (t : Token) : Prop :=
  v.waiters t = some p ∨ v.pongs p = true

def Distinct (v : PingView E) : Prop :=
  ∀ p q t, (v.pings p).token = some t → (v.pings q).token = some t → p = q

/-- The ping that moves keeps its token, or has none after the step. -/
theorem Distinct.set (hD : Distinct v) {p : PingId} {pc : PingPc E}
    (hv : v'.pings = Function.update v.pings p pc)
    (hpc : pc.token = (v.pings p).token ∨ pc.token = none) : Distinct v' := by
  have hle : ∀ q t, (v'.pings q).token = some t → (v.pings q).token = some t := by
    intro q t h
    rw [hv] at h
    by_cases hq : q = p
    · subst hq
      rw [Function.update_self] at h
      rcases hpc with hpc | hpc
      · exact hpc ▸ h
      · rw [hpc] at h
        cases h
    · rwa [Function.update_of_ne hq] at h
  exact fun q r t hq hr => hD q r t (hle q t hq) (hle r t hr)

theorem distinct_step (h : PingStep v v' notes) (hC : Careful v notes) (hD : Distinct v) :
    Distinct v' := by
  cases h with
  | @register p d hp =>
    have hnew := hC.token p
    intro q r t hq hr
    by_cases hqp : q = p <;> by_cases hrp : r = p
    · rw [hqp, hrp]
    · subst hqp
      simp only [Function.update_self, PingPc.token, Option.some.injEq] at hq
      simp only [Function.update_of_ne hrp] at hr
      exact absurd hr (hnew r t (by simp [hq]))
    · subst hrp
      simp only [Function.update_self, PingPc.token, Option.some.injEq] at hr
      simp only [Function.update_of_ne hqp] at hq
      exact absurd hq (hnew q t (by simp [hr]))
    · simp only [Function.update_of_ne hqp] at hq
      simp only [Function.update_of_ne hrp] at hr
      exact hD q r t hq hr
  | refuse hp => exact hD.set rfl (.inr rfl)
  | begin d hp => exact hD.set rfl (.inr rfl)
  | issue hp => exact hD.set rfl (.inl (by rw [hp]; rfl))
  | write hp => exact hD.set rfl (.inl (by rw [hp]; rfl))
  | fail e hp => exact hD.set rfl (.inl (by rw [hp]; rfl))
  | answer hp _ => exact hD.set rfl (.inr rfl)
  | expire hp _ => exact hD.set rfl (.inl (by rw [hp]; rfl))
  | forget hp => exact hD.set rfl (.inr rfl)
  | drop _ _ => exact hD.set rfl (.inr rfl)
  | receive _ _ | ignore _ | handle _ | clear _ _ | swap _ _ _ | loop _ => exact hD

/-- A ping that is under way before and after a step stays in the table or has its slot filled,
unless the table is cleared. -/
theorem held_step (h : PingStep v v' notes) (hC : Careful v notes) (hD : Distinct v) {p : PingId}
    {t : Token} (hp : (v.pings p).token = some t) (hp' : (v'.pings p).token = some t)
    (hc : ∀ z, .cleared z ∉ notes) (hH : Held v p t) : Held v' p t := by
  cases h with
  | @register q d hq =>
    have ht : t ≠ v.nextToken := fun he => hC.token q p t (by simp [he]) hp
    exact hH.imp_left fun h => by simpa only [Function.update_of_ne ht] using h
  | @answer q t' d hq hn =>
    have hne : p ≠ q := by
      rintro rfl
      simp [PingPc.token] at hp'
    exact hH.imp_right fun h => by simpa only [Function.update_of_ne hne] using h
  | @forget q t' e hq =>
    have ht : t ≠ t' := by
      rintro rfl
      have he := hD p q t hp (by rw [hq]; rfl)
      subst he
      simp [PingPc.token] at hp'
    exact hH.imp_left fun h => by simpa only [Function.update_of_ne ht] using h
  | @handle t' hz =>
    by_cases ht : t = t'
    · subst ht
      refine .inr ?_
      rcases hH with hw | hn
      · simp [hw, fillPong]
      · exact fillPong_of_true hn _
    · exact hH.imp (fun h => by simpa only [Function.update_of_ne ht] using h)
        (fillPong_of_true · _)
  | clear _ _ => exact absurd (List.mem_singleton_self _) (hc _)
  | refuse _ | begin _ _ | issue _ | write _ | fail _ _ | expire _ _ | drop _ _ | receive _ _
  | ignore _ | swap _ _ _ | loop _ => exact hH

/-- A ping issued at the transport in use, and one that waits for the sink, is held. -/
structure Kept (v : PingView E) (log : List PingNote) : Prop where
  lock : v.zone ≠ .gone → ∀ p t d, v.pings p = .lockSink t d → Held v p t
  live : v.zone ≠ .between → v.zone ≠ .gone → ∀ p t, .issued p v.sink ∈ log →
    (v.pings p).Issued t → Held v p t
  issued : ∀ p k, .issued p k ∈ log → k ≤ v.sink

/-- A step that neither registers nor issues a ping, clears the table or installs a sink. -/
theorem Kept.keep (hK : Kept v log) (hk : v'.sink = v.sink) (hn : ∀ p k, .issued p k ∉ notes)
    (hz : v'.zone ≠ .gone → v.zone ≠ .gone ∧ (v.zone = .between → v'.zone = .between))
    (hl : ∀ p t d, v'.pings p = .lockSink t d → v.pings p = .lockSink t d)
    (hi : ∀ p t, (v'.pings p).Issued t → (v.pings p).Issued t)
    (hh : ∀ p t, (v.pings p).token = some t → (v'.pings p).token = some t → Held v p t →
      Held v' p t) : Kept v' (log ++ notes) := by
  have hm : ∀ {p k}, .issued p k ∈ log ++ notes → .issued p k ∈ log := fun h =>
    (List.mem_append.1 h).resolve_right (hn _ _)
  refine ⟨fun hg p t d hp => ?_, fun hb hg p t him hp => ?_, fun p k h => hk ▸ hK.issued p k (hm h)⟩
  · have hp₀ := hl p t d hp
    exact hh p t (by rw [hp₀]; rfl) (by rw [hp]; rfl) (hK.lock (hz hg).1 p t d hp₀)
  · have hp₀ := hi p t hp
    exact hh p t hp₀.token hp.token
      (hK.live (fun h => hb ((hz hg).2 h)) (hz hg).1 p t (hk ▸ hm him) hp₀)

/-- So does a step in which one ping moves. -/
theorem Kept.move (hK : Kept v log) (hk : v'.sink = v.sink) (hz : v'.zone = v.zone)
    (hn : ∀ p k, .issued p k ∉ notes) {q : PingId} {pc : PingPc E}
    (hv : v'.pings = Function.update v.pings q pc) (hl : ∀ t d, pc ≠ .lockSink t d)
    (hi : ∀ t, pc.Issued t → (v.pings q).Issued t)
    (hh : ∀ p t, (v.pings p).token = some t → (v'.pings p).token = some t → Held v p t →
      Held v' p t) : Kept v' (log ++ notes) := by
  refine hK.keep hk hn (fun h => ⟨hz ▸ h, fun h' => hz.trans h'⟩) (fun p t d hp => ?_)
    (fun p t hp => ?_) hh <;>
  · rw [hv] at hp
    by_cases hq : p = q
    · subst hq
      rw [Function.update_self] at hp
      first
        | exact absurd hp (hl t d)
        | exact hi t hp
    · rwa [Function.update_of_ne hq] at hp

theorem kept_step (h : PingStep v v' notes) (hC : Careful v notes) (hD : Distinct v)
    (hK : Kept v log) : Kept v' (log ++ notes) := by
  have hh : (∀ z, .cleared z ∉ notes) → ∀ p t, (v.pings p).token = some t →
      (v'.pings p).token = some t → Held v p t → Held v' p t :=
    fun hc p t hp hp' => held_step h hC hD hp hp' hc
  cases h with
  | @register q d hq =>
    refine ⟨fun hg p t d' hp => ?_, fun hb hg p t him hp => ?_, fun p k h => ?_⟩
    · by_cases hpq : p = q
      · subst hpq
        simp only [Function.update_self, PingPc.lockSink.injEq] at hp
        exact .inl (by simp [hp.1])
      · have hp₀ := hp
        simp only [Function.update_of_ne hpq] at hp₀
        exact hh (by simp) p t (by rw [hp₀]; rfl) (by rw [hp]; rfl) (hK.lock hg p t d' hp₀)
    · have hpq : p ≠ q := by
        rintro rfl
        simp [PingPc.Issued] at hp
      simp only [Function.update_of_ne hpq] at hp
      have ht := hp.token
      refine hh (by simp) p t ht ?_ (hK.live hb hg p t (by simpa using him) hp)
      simpa only [Function.update_of_ne hpq] using ht
    · exact hK.issued p k (by simpa using h)
  | @issue q t d hq =>
    refine ⟨fun hg p t' d' hp => ?_, fun hb hg p t' him hp => ?_, fun p k h => ?_⟩
    · have hpq : p ≠ q := by
        rintro rfl
        simp [PingView.set] at hp
      simp only [PingView.set, Function.update_of_ne hpq] at hp
      exact hK.lock hg p t' d' hp
    · by_cases hpq : p = q
      · subst hpq
        simp only [PingView.set, Function.update_self, PingPc.Issued] at hp
        exact hp ▸ hK.lock hg p t d hq
      · simp only [PingView.set, Function.update_of_ne hpq] at hp
        exact hK.live hb hg p t' (by simpa [PingView.set, hpq] using him) hp
    · simp only [List.mem_append, List.mem_singleton, PingNote.issued.injEq] at h
      rcases h with h | ⟨-, rfl⟩
      · exact hK.issued p k h
      · exact Nat.le_refl _
  | clear hz hz' =>
    refine ⟨fun hg p t d hp => ?_, fun hb hg => ?_, fun p k h => hK.issued p k (by simpa using h)⟩
    · rcases hz' with rfl | rfl
      · exact absurd hp (hC.clear (by simp) p t d)
      · exact absurd rfl hg
    · rcases hz' with rfl | rfl
      · exact absurd rfl hb
      · exact absurd rfl hg
  | @swap k hz hk hs =>
    rw [List.append_nil]
    refine ⟨fun _ p t d hp => hK.lock (by simp [hz]) p t d hp, fun _ _ p t him _ => ?_,
      fun p j h => Nat.le_trans (hK.issued p j h) (Nat.le_of_lt hk)⟩
    exact absurd (hK.issued p k him) (Nat.not_le.2 hk)
  | refuse | begin | fail | answer | expire | forget | drop =>
    exact hK.move rfl rfl (by simp) rfl (by simp) (by simp [PingPc.Issued]) (hh (by simp))
  | write hp =>
    exact hK.move rfl rfl (by simp) rfl (by simp) (fun t h => by rw [hp]; exact h) (hh (by simp))
  | receive _ hz | ignore hz | handle hz =>
    exact hK.keep rfl (by simp) (fun _ => ⟨by simp [hz], by simp [hz]⟩) (fun _ _ _ => id)
      (fun _ _ => id) (hh (by simp))
  | loop hz =>
    refine hK.keep rfl (by simp) (fun hg => ?_) (fun _ _ _ => id) (fun _ _ => id) (hh (by simp))
    rcases hz with rfl | ⟨-, rfl⟩
    · exact ⟨hg, id⟩
    · exact absurd rfl hg

/-- Where a ping whose pong was received stands. -/
inductive Echo (v : PingView E) (log : List PingNote) (p : PingId) (t : Token) : Prop
  | filled (h : v.pongs p = true)
  | answered (h : .answered p ∈ log)
  | failed (e : TransportError) (h : .failed p e ∈ log)
  | dropped (h : v.pings p = .dropped)
  | inHand (hz : v.zone = .pong (some t)) (hw : v.waiters t = some p)

/-- A ping whose pong was received does not expire. -/
def EchoInv (v : PingView E) (log : List PingNote) : Prop :=
  ∀ p k t, Echoed log p k t → Echo v log p t ∧ .expired p ∉ log

theorem Echoed.of_append {p : PingId} {k : SinkId} {t : Token} (h : Echoed (log ++ notes) p k t)
    (hn : ∀ k' payload, .received k' payload ∉ notes) : Echoed log p k t := by
  obtain ⟨pre, post, he, hr⟩ := h
  rcases List.append_eq_append_iff.1 he with ⟨as, rfl, hn'⟩ | ⟨bs, rfl, hb⟩
  · exact absurd (by simp [hn']) (hn k (toBeBytes t))
  · cases bs with
    | nil =>
      rw [List.nil_append] at hb
      exact absurd (by simp [← hb]) (hn k (toBeBytes t))
    | cons b bs =>
      rw [List.cons_append, List.cons.injEq] at hb
      exact ⟨pre, bs, by rw [hb.1], hr⟩

theorem PingStep.dropped (h : PingStep v v' notes) {p : PingId} (hp : v.pings p = .dropped) :
    v'.pings p = .dropped := by
  have set : ∀ {q pc}, v.pings q ≠ .dropped → Function.update v.pings q pc p = .dropped := by
    intro q pc hq
    rw [Function.update_of_ne]
    · exact hp
    · rintro rfl
      exact hq hp
  cases h with
  | refuse hq | begin _ hq | register hq | issue hq | write hq | fail _ hq | answer hq _
  | expire hq _ | forget hq => exact set (by simp [hq])
  | @drop q _ _ =>
    by_cases hq : p = q
    · simp [PingView.set, hq]
    · simpa only [PingView.set, Function.update_of_ne hq] using hp
  | receive _ _ | ignore _ | handle _ | clear _ _ | swap _ _ _ | loop _ => exact hp

theorem PingStep.filled (h : PingStep v v' notes) {p : PingId} (hp : v.pongs p = true) :
    v'.pongs p = true ∨ .answered p ∈ notes := by
  cases h with
  | @answer q _ _ _ _ =>
    by_cases hq : p = q
    · exact .inr (by simp [hq])
    · exact .inl (by simpa only [Function.update_of_ne hq] using hp)
  | handle _ => exact .inl (fillPong_of_true hp _)
  | refuse _ | begin _ _ | register _ | issue _ | write _ | fail _ _ | expire _ _ | forget _
  | drop _ _ | receive _ _ | ignore _ | clear _ _ | swap _ _ _ | loop _ => exact .inl hp

/-- A pong in hand whose ping is in the table gets to it. -/
theorem echo_of_inHand (h : PingStep v v' notes) (hC : Careful v notes) (hD : Distinct v)
    (hT : Told v log) {p : PingId} {t : Token} (hp : (v.pings p).token = some t)
    (hz : v.zone = .pong (some t)) (hw : v.waiters t = some p) (he : .expired p ∉ log) :
    Echo v' (log ++ notes) p t := by
  cases h with
  | @register q d hq =>
    have ht : t ≠ v.nextToken := fun he => hC.token q p t (by simp [he]) hp
    exact .inHand hz (by simpa only [Function.update_of_ne ht] using hw)
  | @forget q t' e hq =>
    by_cases ht : t = t'
    · subst ht
      obtain rfl := hD p q t hp (by rw [hq]; rfl)
      have hs := hT p
      have ha : ∀ n, n ∈ ownNotes p log → n ∈ log := fun n => mem_of_ownNotes
      rw [hq] at hs
      generalize ownNotes p log = own at hs ha
      cases hs with
      | failing _ e j => exact .failed e (List.mem_append_left _ (ha _ (by simp)))
      | expiring _ j => exact absurd (ha _ (by simp)) he
    · exact .inHand hz (by simpa only [Function.update_of_ne ht] using hw)
  | @handle t' hz' =>
    rw [hz] at hz'
    cases hz'
    exact .filled (by simp [hw, fillPong])
  | receive _ hz' | ignore hz' | clear hz' _ | swap hz' _ _ =>
    rw [hz] at hz'
    cases hz'
  | loop hz' =>
    refine .inHand ?_ hw
    rcases hz' with rfl | ⟨hz' | hz', -⟩
    · exact hz
    · simp [hz] at hz'
    · simp [hz] at hz'
  | refuse _ | begin _ _ | issue _ | write _ | fail _ _ | answer _ _ | expire _ _ | drop _ _ =>
    exact .inHand hz hw

theorem echo_step (h : PingStep v v' notes) (hC : Careful v notes) (hD : Distinct v)
    (hT : Told v log) (hF : Filing v) {p : PingId} {t : Token} (hE : Echo v log p t)
    (he : .expired p ∉ log) : Echo v' (log ++ notes) p t := by
  cases hE with
  | filled hp =>
    rcases h.filled hp with hp | hp
    · exact .filled hp
    · exact .answered (List.mem_append_right _ hp)
  | answered hp => exact .answered (List.mem_append_left _ hp)
  | failed e hp => exact .failed e (List.mem_append_left _ hp)
  | dropped hp => exact .dropped (h.dropped hp)
  | inHand hz hw =>
    rcases hF.entry t p hw with hp | ⟨hp, -⟩
    · exact .dropped (h.dropped hp)
    · exact echo_of_inHand h hC hD hT hp hz hw he

/-- The deadline wins over no ping whose pong was received. -/
theorem Echo.not_waiting {p : PingId} {t t' : Token} {d : Duration} (hE : Echo v log p t)
    (hT : Told v log) (hF : Filing v) (hp : v.pings p = .waiting t' d) (hn : v.pongs p = false) :
    v.zone = .pong (some t') := by
  have hs := hT p
  have hm : ∀ n, n ∈ log → n.about = some p → n ∈ ownNotes p log := fun n => mem_ownNotes
  rw [hp] at hs
  generalize ownNotes p log = own at hs hm
  cases hs
  cases hE with
  | filled h => simp [hn] at h
  | answered h => simpa using hm _ h rfl
  | failed e h => simpa using hm _ h rfl
  | dropped h => simp [hp] at h
  | inHand hz hw =>
    rcases hF.entry t p hw with h | ⟨h, -⟩
    · simp [hp] at h
    · rw [hp] at h
      rw [hz, ← h]
      rfl

/-- The pong comes while its ping is held. -/
theorem echo_of_received (hK : Kept v log) (hT : Told v log) (hz : v.zone = .reading) {p : PingId}
    {t : Token} (hr : .registered p t ∈ log) (hi : .issued p v.sink ∈ log) (he : .expired p ∉ log) :
    Echo { v with zone := .pong (some t) } (log ++ notes) p t := by
  have hs := hT p
  have hm := mem_ownNotes hr rfl
  have hmi := mem_ownNotes hi rfl
  have ha : ∀ n, n ∈ ownNotes p log → n ∈ log := fun n => mem_of_ownNotes
  have ha' : ∀ n, n ∈ ownNotes p log → n ∈ log ++ notes := fun n h =>
    List.mem_append_left _ (ha n h)
  have live : ∀ t, (v.pings p).Issued t → Held v p t := fun t =>
    hK.live (by simp [hz]) (by simp [hz]) p t hi
  generalize hpc : v.pings p = pc at hs live
  generalize ownNotes p log = own at hs hm hmi ha ha'
  have held : pc.Issued t → Echo { v with zone := .pong (some t) } (log ++ notes) p t := fun h => by
    rcases live t h with h | h
    · exact .inHand rfl h
    · exact .filled h
  cases hs with
  | idle | lockWaiters | closed => simp at hm
  | lockSink => simp at hmi
  | sending t' d => exact held (by simpa [PingPc.Issued, eq_comm] using hm)
  | waiting t' d j => exact held (by simpa [PingPc.Issued, eq_comm] using hm)
  | failing t' e j => exact .failed e (ha' _ (by simp))
  | failed t' e j => exact .failed e (ha' _ (by simp))
  | answered t' j => exact .answered (ha' _ (by simp))
  | expiring t' j => exact absurd (ha _ (by simp)) he
  | expired t' j => exact absurd (ha _ (by simp)) he
  | dropped => exact .dropped hpc

theorem echoInv_step (h : PingStep v v' notes) (hC : Careful v notes) (hD : Distinct v)
    (hK : Kept v log) (hT : Told v log) (hF : Filing v) (hE : EchoInv v log) :
    EchoInv v' (log ++ notes) := by
  have old : ∀ {p k t}, Echoed log p k t → (.expired p ∉ notes) →
      Echo v' (log ++ notes) p t ∧ .expired p ∉ log ++ notes := by
    intro p k t h₁ hn
    obtain ⟨hE, he⟩ := hE p k t h₁
    exact ⟨echo_step h hC hD hT hF hE he, by simp [he, hn]⟩
  cases h with
  | receive payload hz =>
    intro p k t h₁
    obtain ⟨pre, post, he, hr, hi, hx⟩ := h₁
    rcases split_snoc he with ⟨rfl, hn, -⟩ | ⟨post', -, rfl⟩
    · rw [PingNote.received.injEq] at hn
      obtain ⟨rfl, rfl⟩ := hn
      rw [fromBeBytes_toBeBytes]
      exact ⟨echo_of_received hK hT hz hr hi hx, by simpa using hx⟩
    · exact old ⟨pre, post', rfl, hr, hi, hx⟩ (by simp)
  | @expire q t d hq hn =>
    intro p k t' h₁
    have h₁ := h₁.of_append (by simp)
    refine old h₁ ?_
    rw [List.mem_singleton]
    intro he
    cases he
    exact hC.deadline q t (by simp) (by rw [hq]; rfl)
      ((hE q k t' h₁).1.not_waiting hT hF hq hn)
  | refuse _ | begin _ _ | register _ | issue _ | write _ | fail _ _ | answer _ _ | forget _
  | drop _ _ | ignore _ | handle _ | clear _ _ | swap _ _ _ | loop _ =>
    exact fun p k t h₁ => old (h₁.of_append (by simp)) (by simp)

theorem ReadPc.eq_of_zone {pc : ReadPc E} {t : Token} (h : pc.zone = .pong (some t)) :
    pc = .lockWaiters (some t) := by
  cases pc <;> simp_all [ReadPc.zone]

section

variable [ProtocolError E] (env : Env R) (cfg : ClientConfig) {s : State E R}

/-- A ping that was written and whose pong was received has returned `Ok`, or was dropped by its
caller, or returns `Ok` at its next poll, before which the loop handles the pong if it has not. -/
def NoFalseMiss (s : State E R) (log : List PingNote) : Prop :=
  ∀ p k t, .written p k ∈ log → Echoed log p k t →
    s.pings p = .returned (.ok ()) ∨ s.pings p = .dropped
      ∨ ∃ as s', (as = [.poll (.ping p) .ready] ∨ as = [.poll .read .ready, .poll (.ping p) .ready])
        ∧ (client env cfg).run s as = some s' ∧ s'.pings p = .returned (.ok ())

theorem step_of_filled (hI : Inside s) {p : PingId} {t : Token} {d : Duration}
    (hp : s.pings p = .waiting t d) (hn : s.pongs p = true) :
    ∃ s', (client env cfg).step s (.poll (.ping p) .ready) = some s'
      ∧ s'.pings p = .returned (.ok ()) := by
  have hpoll : ∃ u, pingPoll s p .ready = some u ∧ u.pings p = .returned (.ok ()) := by
    refine ⟨_, (by simp only [pingPoll, hp, hn, if_true]; rfl), ?_⟩
    simp
  obtain ⟨u, hu, hr⟩ := hpoll
  cases p with
  | user n => exact ⟨u, hu, hr⟩
  | keepalive n =>
    have hk : s.keepalive = .pinging n := by
      rcases hI n with h | h | ⟨r, h⟩
      · exact h
      · simp [hp] at h
      · simp [hp] at h
    refine ⟨afterPing cfg u n, ?_, by rw [(afterPing_cases cfg u n).frame.1, hr]⟩
    change keepalivePingPoll cfg s n .ready = _
    simp only [keepalivePingPoll, hk, if_true, hu, Option.map_some]

theorem run_of_filled (hI : Inside s) {p : PingId} {t : Token} {d : Duration}
    (hp : s.pings p = .waiting t d) (hn : s.pongs p = true) :
    ∃ s', (client env cfg).run s [.poll (.ping p) .ready] = some s'
      ∧ s'.pings p = .returned (.ok ()) := by
  obtain ⟨s', hs, hr⟩ := step_of_filled env cfg hI hp hn
  exact ⟨s', Machine.run_cons hs [], hr⟩

theorem run_of_inHand (hI : Inside s) {p : PingId} {t t' : Token} {d : Duration}
    (hp : s.pings p = .waiting t' d) (hz : s.read = .lockWaiters (some t))
    (hw : s.waiters t = some p) :
    ∃ s', (client env cfg).run s [.poll .read .ready, .poll (.ping p) .ready] = some s'
      ∧ s'.pings p = .returned (.ok ()) := by
  have hs : (client env cfg).step s (.poll .read .ready) = some (resolvePong s (some t)) := by
    change readPoll env cfg s .ready = _
    unfold readPoll
    rw [hz]
  have hu : resolvePong s (some t)
      = { s with
          read := .recv
          waiters := Function.update s.waiters t none
          pongs := Function.update s.pongs p true } := by
    simp only [resolvePong, hw]
  obtain ⟨s', hs', hr⟩ := run_of_filled env cfg (s := resolvePong s (some t)) (p := p) (t := t')
    (d := d) (by rw [hu]; exact hI) (by rw [hu]; exact hp) (by rw [hu]; simp)
  exact ⟨s', (Machine.run_cons hs _).trans hs', hr⟩

/-- In every run of careful steps, no ping is missed whose pong came in time. -/
theorem noFalseMiss_of_careful {s : State E R × List PingNote}
    (h : Machine.Reach (pingClient env cfg)
      (fun s a => Careful s.1.pingView (pingNotes s.1 a)) s) : NoFalseMiss env cfg s.1 s.2 := by
  have hI : PingInv s.1.pingView s.2 ∧ Distinct s.1.pingView ∧ Kept s.1.pingView s.2
      ∧ EchoInv s.1.pingView s.2 := by
    refine ping_invariant env cfg
      (I := fun v log => PingInv v log ∧ Distinct v ∧ Kept v log ∧ EchoInv v log)
      (fun _ _ hP => hP)
      ⟨pingInv_new cfg, by simp [Distinct, State.pingView, State.new, PingPc.token],
        ⟨by simp [State.pingView, State.new], by simp, by simp⟩, fun p k t h => ?_⟩
      (fun _ _ _ _ h hC ⟨hI, hD, hK, hE⟩ => ⟨pingInv_step h hI, distinct_step h hC hD,
        kept_step h hC hD hK, echoInv_step h hC hD hK hI.told hI.filing hE⟩) h
    obtain ⟨pre, post, he, -⟩ := h
    simp at he
  obtain ⟨hP, -, -, hE⟩ := hI
  have hr : Machine.Reach (client env cfg) Machine.Any s.1 := h.unobserved fun _ _ _ => trivial
  have hin := inside_of_reach env cfg hr
  intro p k t hw he
  obtain ⟨hE, hx⟩ := hE p k t he
  have hs := hP.told p
  have hm := mem_ownNotes hw rfl
  have ha : ∀ n, n ∈ ownNotes p s.2 → n ∈ s.2 := fun n => mem_of_ownNotes
  have hm' : ∀ n, n ∈ s.2 → n.about = some p → n ∈ ownNotes p s.2 := fun n => mem_ownNotes
  change Story _ p (s.1.pings p) _ at hs
  generalize hpc : s.1.pings p = pc at hs
  generalize ownNotes p s.2 = own at hs hm ha hm'
  cases hs with
  | idle | lockWaiters | closed | lockSink | sending | failing | failed => simp at hm
  | expiring t' j => exact absurd (ha _ (by simp)) hx
  | expired t' j => exact absurd (ha _ (by simp)) hx
  | answered t' j => exact .inl rfl
  | dropped => exact .inr (.inl rfl)
  | waiting t' d j =>
    refine .inr (.inr ?_)
    cases hE with
    | filled h =>
      obtain ⟨s', hs', hr⟩ := run_of_filled env cfg hin hpc h
      exact ⟨_, s', .inl rfl, hs', hr⟩
    | inHand hz hw =>
      obtain ⟨s', hs', hr⟩ := run_of_inHand env cfg hin hpc (ReadPc.eq_of_zone hz) hw
      exact ⟨_, s', .inr rfl, hs', hr⟩
    | answered h => simpa using hm' _ h rfl
    | failed e h => simpa using hm' _ h rfl
    | dropped h => exact absurd (hpc.symm.trans h) (by simp)

end

/-- A ping registers between two transports, is written to the second one, and its pong is in the
loop's hands. -/
def pingAfterClear : List (Act WireError) :=
  [.recv none, .poll .read .ready, .ping 0, .poll (.ping (.user 0)) .ready, .poll .read .timer,
    .poll .read (.done (.ok ())), .poll .read .ready, .poll .read .ready,
    .poll (.ping (.user 0)) .ready, .poll (.ping (.user 0)) (.done (.ok ())),
    .recv (some (.pong [0, 0, 0, 0, 0, 0, 0, 0]))]

theorem Careful.nil : Careful v [] := ⟨nofun, nofun, nofun⟩

theorem noFalseMiss_of_pingAfterClear :
    ∃ s, (scenario.observed pingNotes).run (scenario.observed pingNotes).init pingAfterClear
        = some s
      ∧ s.1.pings (.user 0) = .waiting 0 scenarioConfig.timeout ∧ .written (.user 0) 1 ∈ s.2
      ∧ Echoed s.2 (.user 0) 1 0 ∧ NoFalseMiss scenarioEnv scenarioConfig s.1 s.2 := by
  -- no ping has drawn a token when the one that registers does
  have hreg : ∀ q, (Function.update (fun _ => (PingPc.idle : PingPc WireError)) (PingId.user 0)
      (.lockWaiters scenarioConfig.timeout) q).token = none := by
    intro q
    by_cases hq : q = .user 0
    · rw [hq, Function.update_self]
      rfl
    · rw [Function.update_of_ne hq]
      rfl
  refine ⟨_, rfl, rfl, by decide, ⟨[.cleared .between, .registered (.user 0) 0, .issued (.user 0) 1,
    .written (.user 0) 1], [], rfl, by decide, by decide, by decide⟩,
    noFalseMiss_of_careful scenarioEnv scenarioConfig
    (Machine.reach_of_run (M := scenario.observed pingNotes) pingAfterClear .init ?_ rfl)⟩
  exact ⟨.nil, ⟨fun _ _ _ _ => nofun, nofun, nofun⟩, .nil,
    ⟨nofun, nofun, fun _ q _ _ h => nomatch (hreg q).symm.trans h⟩, .nil, .nil, .nil, .nil,
    ⟨nofun, nofun, nofun⟩, ⟨nofun, nofun, nofun⟩, ⟨nofun, nofun, nofun⟩, trivial⟩

/-- A ping registers, the transport ends and the table is cleared, and the ping gets the sink of the
next one. -/
def pingBeforeClear : List (Act WireError) :=
  [.ping 0, .poll (.ping (.user 0)) .ready, .recv none, .poll .read .ready, .poll .read .timer,
    .poll .read (.done (.ok ())), .poll .read .ready, .poll .read .ready,
    .poll (.ping (.user 0)) .ready, .poll (.ping (.user 0)) (.done (.ok ())),
    .recv (some (.pong [0, 0, 0, 0, 0, 0, 0, 0])), .poll .read .ready,
    .poll (.ping (.user 0)) .timer, .poll (.ping (.user 0)) .ready]

theorem pingBeforeClear_missed :
    ∃ s, (scenario.observed pingNotes).run (scenario.observed pingNotes).init pingBeforeClear
        = some s
      ∧ s.1.pings (.user 0) = .returned (.error .timeout)
      ∧ ¬ NoFalseMiss scenarioEnv scenarioConfig s.1 s.2 := by
  refine ⟨_, rfl, rfl, fun h => ?_⟩
  have he := h (.user 0) 1 0 (by decide)
    ⟨[.registered (.user 0) 0, .cleared .between, .issued (.user 0) 1, .written (.user 0) 1],
      [.handled (some 0), .expired (.user 0), .forgot (.user 0) 0], rfl, by decide, by decide,
      by decide⟩
  rcases he with he | he | ⟨as, s', rfl | rfl, hs, -⟩
  · cases he
  · cases he
  · cases hs
  · cases hs

end OcppClient
