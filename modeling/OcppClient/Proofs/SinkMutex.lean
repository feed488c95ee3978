import OcppClient.Lib.Mutex
import OcppClient.Proofs.HandlerQueues
import OcppClient.Proofs.PingSteps

/-!
# The sink's mutex

Every task that writes takes the mutex of the sink and keeps it over its write, so the client
simulates a mutex held across operations. Only the read loop's courtesy close races a timer.
-/

namespace OcppClient

open Transition

variable {E R : Type}

def ReadPc.sink : ReadPc E → Mutex.Pc
  | .lockNotImplemented _ | .lockPong _ | .lockClose | .lockSwap _ => .lock
  | .sendNotImplemented | .sendPong => .op false
  | .sendClose => .op true
  | _ => .away

def CallPc.sink : CallPc E R → Mutex.Pc
  | .lockSink _ _ _ => .lock
  | .sending _ _ => .op false
  | _ => .away

def PingPc.sink : PingPc E → Mutex.Pc
  | .lockSink _ _ => .lock
  | .sending _ _ => .op false
  | _ => .away

def NotificationPc.sink : NotificationPc E → Mutex.Pc
  | .lockSink _ => .lock
  | .sending => .op false
  | _ => .away

def DisconnectPc.sink : DisconnectPc E → Mutex.Pc
  | .lockSink => .lock
  | .closing => .op false
  | _ => .away

def HandlerPc.sink : HandlerPc → Mutex.Pc
  | .lockSink _ => .lock
  | .sending => .op false
  | _ => .away

def WaitForPc.sink : WaitForPc E → Mutex.Pc
  | .lockSink _ _ _ => .lock
  | .sending _ _ => .op false
  | _ => .away

/-- Where a task stands with respect to the sink: away from it, waiting for its mutex, or inside an
operation on it. -/
def sinkPc (s : State E R) : Task → Mutex.Pc
  | .read => s.read.sink
  | .call c => (s.calls c).sink
  | .ping p => (s.pings p).sink
  | .notification n => (s.sends n).sink
  | .disconnect d => (s.disconnects d).sink
  | .handler o => (s.handlers o).sink
  | .waitFor w => (s.waitFors w).sink
  | _ => .away

def sinkLock (s : State E R) : Mutex.Lock Task := ⟨s.holder, s.pended, sinkPc s⟩

/-! ## One task moves -/

section Moves

variable {s s' : State E R}

theorem sinkPc_read (s : State E R) (pc : ReadPc E) :
    sinkPc { s with read := pc } = Function.update (sinkPc s) .read pc.sink := by
  funext t
  cases t <;> simp [sinkPc]

theorem sinkPc_call (s : State E R) (c : ℕ) (pc : CallPc E R) :
    sinkPc { s with calls := Function.update s.calls c pc }
      = Function.update (sinkPc s) (.call c) pc.sink := by
  funext t
  cases t <;> simp [sinkPc, Function.update_apply, apply_ite CallPc.sink]

theorem sinkPc_ping (s : State E R) (p : PingId) (pc : PingPc E) :
    sinkPc { s with pings := Function.update s.pings p pc }
      = Function.update (sinkPc s) (.ping p) pc.sink := by
  funext t
  cases t <;> simp [sinkPc, Function.update_apply, apply_ite PingPc.sink]

theorem sinkPc_notification (s : State E R) (n : ℕ) (pc : NotificationPc E) :
    sinkPc { s with sends := Function.update s.sends n pc }
      = Function.update (sinkPc s) (.notification n) pc.sink := by
  funext t
  cases t <;> simp [sinkPc, Function.update_apply, apply_ite NotificationPc.sink]

theorem sinkPc_disconnect (s : State E R) (d : ℕ) (pc : DisconnectPc E) :
    sinkPc { s with disconnects := Function.update s.disconnects d pc }
      = Function.update (sinkPc s) (.disconnect d) pc.sink := by
  funext t
  cases t <;> simp [sinkPc, Function.update_apply, apply_ite DisconnectPc.sink]

theorem sinkPc_handler (s : State E R) (o : ℕ) (pc : HandlerPc) :
    sinkPc { s with handlers := Function.update s.handlers o pc }
      = Function.update (sinkPc s) (.handler o) pc.sink := by
  funext t
  cases t <;> simp [sinkPc, Function.update_apply, apply_ite HandlerPc.sink]

theorem sinkPc_waitFor (s : State E R) (w : ℕ) (pc : WaitForPc E) :
    sinkPc { s with waitFors := Function.update s.waitFors w pc }
      = Function.update (sinkPc s) (.waitFor w) pc.sink := by
  funext t
  cases t <;> simp [sinkPc, Function.update_apply, apply_ite WaitForPc.sink]

/-- Which act an operation on the mutex comes from. -/
def Caused (a : Act E) : Mutex.Label Task → Prop
  | .acquire t _ => a = .poll t .ready
  | .pend t => a = .poll t .pend
  | _ => True

/-- A step of the client is one operation on the mutex. -/
def SinkStep (s s' : State E R) (a : Act E) : Prop :=
  ∃ b, Caused a b ∧ Mutex.step (sinkLock s) b = some (sinkLock s')

theorem SinkStep.move {a : Act E} (t : Task) (x : Mutex.Pc) (ht : (sinkPc s t).isOp = false)
    (hx : x.isOp = false) (hh : s'.holder = s.holder) (hp : s'.pended = s.pended)
    (hs : sinkPc s' = Function.update (sinkPc s) t x) : SinkStep s s' a :=
  ⟨.move t x, trivial, by simp [Mutex.step, sinkLock, ht, hx, hh, hp, hs]⟩

theorem SinkStep.frame {a : Act E} (hh : s'.holder = s.holder) (hp : s'.pended = s.pended)
    (hs : sinkPc s' = sinkPc s) : SinkStep s s' a := by
  refine .move .keepalive .away rfl rfl hh hp ?_
  rw [hs]
  exact (Function.update_eq_self (f := sinkPc s) Task.keepalive).symm

theorem SinkStep.acquire (t : Task) (b : Bool) (ht : sinkPc s t = .lock) (hn : s.holder = none)
    (hh : s'.holder = some t) (hp : s'.pended = false)
    (hs : sinkPc s' = Function.update (sinkPc s) t (.op b)) :
    SinkStep s s' (.poll t .ready : Act E) :=
  ⟨.acquire t b, rfl, by simp [Mutex.step, sinkLock, ht, hn, hh, hp, hs]⟩

theorem SinkStep.pend (t : Task) (ht : (sinkPc s t).isOp = true) (hn : s.pended = false)
    (h : s' = { s with pended := true }) : SinkStep s s' (.poll t .pend : Act E) := by
  subst h
  exact ⟨.pend t, rfl, by simp [Mutex.step, sinkLock, ht, hn]; rfl⟩

theorem SinkStep.release {a : Act E} (t : Task) (ht : (sinkPc s t).isOp = true)
    (hh : s'.holder = none) (hp : s'.pended = false)
    (hs : sinkPc s' = Function.update (sinkPc s) t .away) : SinkStep s s' a :=
  ⟨.release t, trivial, by simp [Mutex.step, sinkLock, ht, hh, hp, hs]⟩

end Moves

/-! ## The steps of each task -/

section Steps

variable {s s' : State E R} (env : Env R) (cfg : ClientConfig)

theorem callPoll_sink {c : ℕ} {p : Poll} (h : callPoll env s c p = some s') :
    SinkStep s s' (.poll (.call c) p : Act E) := by
  have hpc : ∀ {pc}, s.calls c = pc → sinkPc s (.call c) = pc.sink := fun h =>
    congrArg CallPc.sink h
  unfold callPoll at h
  split at h
  case h_1 hc =>
    cases h
    exact .move (.call c) .lock (by rw [hpc hc]; rfl) rfl rfl rfl (sinkPc_call s c _)
  case h_2 hc =>
    obtain ⟨hn, rfl⟩ := issue_map h
    exact .acquire (.call c) false (hpc hc) hn rfl rfl (sinkPc_call s c _)
  case h_3 hc =>
    obtain ⟨hn, hs'⟩ := pend_eq h
    exact .pend (.call c) (by rw [hpc hc]; rfl) hn hs'
  case h_4 hc | h_5 hc =>
    cases h
    exact .release (.call c) (by rw [hpc hc]; rfl) rfl rfl (sinkPc_call s c _)
  case h_6 hc =>
    unfold takeResponse at h
    split at h
    · cases h
      exact .move (.call c) .away (by rw [hpc hc]; rfl) rfl rfl rfl (sinkPc_call s c _)
    · cases h
  case h_7 hc =>
    split_ifs at h
    cases h
    exact .move (.call c) .away (by rw [hpc hc]; rfl) rfl rfl rfl (sinkPc_call s c _)
  case h_8 hc =>
    cases h
    exact .move (.call c) .away (by rw [hpc hc]; rfl) rfl rfl rfl (sinkPc_call s c _)
  case h_9 => cases h

theorem doSendRequest_sink {a : Act E} {c : ℕ} {action : String} {payload : Except JsonError Value}
    (h : doSendRequest env s c action payload = some s') : SinkStep s s' a := by
  unfold doSendRequest at h
  split at h
  case h_2 => cases h
  case h_1 hc =>
    have ht : (sinkPc s (.call c)).isOp = false := by simp only [sinkPc, hc]; rfl
    split_ifs at h
    · cases h
      exact .move (.call c) .away ht rfl rfl rfl (sinkPc_call s c _)
    · simp only [] at h
      split at h <;> cases h
      · exact .move (.call c) .away ht rfl rfl rfl (sinkPc_call s c _)
      · exact .move (.call c) .away ht rfl rfl rfl (sinkPc_call s c _)

theorem callDrop_sink {a : Act E} {c : ℕ} (h : callDrop s c = some s') : SinkStep s s' a := by
  unfold callDrop at h
  split at h
  case h_4 hc =>
    cases h
    exact .release (.call c) (by simp only [sinkPc, hc]; rfl) rfl rfl (sinkPc_call s c _)
  case h_5 h₁ h₂ h₃ h₄ =>
    cases h
    refine .move (.call c) .away ?_ rfl rfl rfl (sinkPc_call s c _)
    rcases hc : s.calls c with _ | _ | _ | _ | _ | _ | _ | _
    case sending id action => exact absurd hc (h₄ _ _)
    all_goals simp only [sinkPc, hc]; rfl
  all_goals cases h

theorem PingMove.sinkStep {p : PingId} {poll : Poll} (h : PingMove p s s' poll) :
    SinkStep s s' (.poll (.ping p) poll : Act E) := by
  have hpc : ∀ {pc}, s.pings p = pc → sinkPc s (.ping p) = pc.sink := fun h =>
    congrArg PingPc.sink h
  cases h with
  | register hp h =>
    subst h
    exact .move (.ping p) .lock (by rw [hpc hp]; rfl) rfl rfl rfl (sinkPc_ping s p _)
  | acquire hp hn h =>
    subst h
    exact .acquire (.ping p) false (hpc hp) hn rfl rfl (sinkPc_ping s p _)
  | pend hp hn h => exact .pend (.ping p) (by rw [hpc hp]; rfl) hn h
  | written hp h =>
    subst h
    exact .release (.ping p) (by rw [hpc hp]; rfl) rfl rfl (sinkPc_ping s p _)
  | failed hp h =>
    subst h
    exact .release (.ping p) (by rw [hpc hp]; rfl) rfl rfl (sinkPc_ping s p _)
  | answered hp hn h =>
    subst h
    exact .move (.ping p) .away (by rw [hpc hp]; rfl) rfl rfl rfl (sinkPc_ping s p _)
  | expired hp hn h =>
    subst h
    exact .move (.ping p) .away (by rw [hpc hp]; rfl) rfl rfl rfl (sinkPc_ping s p _)
  | missed hp h =>
    subst h
    exact .move (.ping p) .away (by rw [hpc hp]; rfl) rfl rfl rfl (sinkPc_ping s p _)

theorem sendPing_sink {a : Act E} {n : ℕ} (h : sendPing cfg s n = some s') : SinkStep s s' a := by
  obtain ⟨pc, -, rfl, hpc⟩ := sendPing_pings cfg h
  unfold sendPing at h
  split at h
  case h_2 => cases h
  case h_1 hp =>
    refine .move (.ping (.user n)) pc.sink ?_ ?_ rfl rfl (sinkPc_ping s _ _)
    · simp only [sinkPc, hp]
      rfl
    · rcases hpc with rfl | rfl <;> rfl

theorem pingDrop_sink {a : Act E} {n : ℕ} (h : pingDrop s n = some s') : SinkStep s s' a := by
  unfold pingDrop at h
  split at h
  case h_4 hp =>
    cases h
    exact .release (.ping (.user n)) (by simp only [sinkPc, hp]; rfl) rfl rfl (sinkPc_ping s _ _)
  case h_5 h₁ h₂ h₃ h₄ =>
    cases h
    refine .move (.ping (.user n)) .away ?_ rfl rfl rfl (sinkPc_ping s _ _)
    rcases hp : s.pings (.user n) with _ | _ | _ | _ | _ | _ | _ | _
    case sending token timeout => exact absurd hp (h₄ _ _)
    all_goals simp only [sinkPc, hp]; rfl
  all_goals cases h

/-- After a poll of a keepalive ping the loop does not touch the sink. -/
theorem AfterPing.sinkLock {n : ℕ} (h : AfterPing cfg n s s') :
    OcppClient.sinkLock s' = OcppClient.sinkLock s := by
  cases h with
  | inside _ h => rw [h]
  | answered _ _ h => subst h; rfl
  | missed _ _ h =>
    subst h
    obtain ⟨m, wa, h', hc, -⟩ := countMiss_footprint cfg s n
    rw [hc]
    rfl

theorem KeepaliveMove.sinkStep {a : Act E} (hN : Numbered s) (h : KeepaliveMove cfg s s') :
    SinkStep s s' a := by
  cases h with
  | top _ _ _ h => subst h; exact .frame rfl rfl rfl
  | ping _ _ h =>
    subst h
    refine .move (.ping (.keepalive s.keepalivePings)) .away ?_ rfl rfl rfl (sinkPc_ping s _ _)
    simp only [sinkPc, hN.idle _ (Nat.le_refl _)]
    rfl

theorem notificationPoll_sink {n : ℕ} {p : Poll} (h : notificationPoll s n p = some s') :
    SinkStep s s' (.poll (.notification n) p : Act E) := by
  unfold notificationPoll at h
  split at h
  case h_1 hp =>
    obtain ⟨hn, rfl⟩ := issue_map h
    exact .acquire (.notification n) false (by simp only [sinkPc, hp]; rfl) hn rfl rfl
      (sinkPc_notification s n _)
  case h_2 hp =>
    obtain ⟨hn, hs'⟩ := pend_eq h
    exact .pend (.notification n) (by simp only [sinkPc, hp]; rfl) hn hs'
  case h_3 hp =>
    cases h
    exact .release (.notification n) (by simp only [sinkPc, hp]; rfl) rfl rfl
      (sinkPc_notification s n _)
  case h_4 => cases h

theorem sendNotification_sink {a : Act E} {n : ℕ} {action : String}
    {payload : Except JsonError Value} (h : sendNotification env s n action payload = some s') :
    SinkStep s s' a := by
  unfold sendNotification at h
  split at h
  case h_2 => cases h
  case h_1 hp =>
    have ht : (sinkPc s (.notification n)).isOp = false := by simp only [sinkPc, hp]; rfl
    split_ifs at h
    · cases h
      exact .move (.notification n) .away ht rfl rfl rfl (sinkPc_notification s n _)
    · simp only [] at h
      split at h <;> cases h
      · exact .move (.notification n) .lock ht rfl rfl rfl (sinkPc_notification s n _)
      · exact .move (.notification n) .away ht rfl rfl rfl (sinkPc_notification s n _)

theorem disconnect_sink {a : Act E} {d : ℕ} (h : disconnect s d = some s') : SinkStep s s' a := by
  unfold disconnect at h
  split at h
  case h_2 => cases h
  case h_1 hp =>
    have ht : (sinkPc s (.disconnect d)).isOp = false := by simp only [sinkPc, hp]; rfl
    split_ifs at h <;> cases h
    · exact .move (.disconnect d) .away ht rfl rfl rfl (sinkPc_disconnect s d _)
    · exact .move (.disconnect d) .lock ht rfl rfl rfl (sinkPc_disconnect s d _)

theorem disconnectPoll_sink {d : ℕ} {p : Poll} (h : disconnectPoll s d p = some s') :
    SinkStep s s' (.poll (.disconnect d) p : Act E) := by
  unfold disconnectPoll at h
  split at h
  case h_1 hp =>
    obtain ⟨hn, rfl⟩ := issue_map h
    exact .acquire (.disconnect d) false (by simp only [sinkPc, hp]; rfl) hn rfl rfl
      (sinkPc_disconnect s d _)
  case h_2 hp =>
    obtain ⟨hn, hs'⟩ := pend_eq h
    exact .pend (.disconnect d) (by simp only [sinkPc, hp]; rfl) hn hs'
  case h_3 hp =>
    cases h
    exact .release (.disconnect d) (by simp only [sinkPc, hp]; rfl) rfl rfl
      (sinkPc_disconnect s d _)
  case h_4 => cases h

variable [ProtocolError E]

theorem handlerPoll_sink {o : ℕ} {p : Poll} (h : handlerPoll env s o p = some s') :
    SinkStep s s' (.poll (.handler o) p : Act E) := by
  have hpc : ∀ {pc}, s.handlers o = pc → sinkPc s (.handler o) = pc.sink := fun h =>
    congrArg HandlerPc.sink h
  unfold handlerPoll at h
  split at h
  case h_1 action hp hon =>
    cases h
    unfold handlerRecv
    split
    · refine .move (.handler o) (handleCall (E := E) env action _ _).sink (by rw [hpc hp]; rfl) ?_
        rfl rfl (sinkPc_handler s o _)
      unfold handleCall
      split
      · rfl
      · unfold respondPc
        split <;> rfl
    · exact .move (.handler o) .away (by rw [hpc hp]; rfl) rfl rfl rfl (sinkPc_handler s o _)
    · exact .move (.handler o) .away (by rw [hpc hp]; rfl) rfl rfl rfl (sinkPc_handler s o _)
  case h_2 hp =>
    split_ifs at h
    cases h
    exact .move (.handler o) .away (by rw [hpc hp]; rfl) rfl rfl rfl (sinkPc_handler s o _)
  case h_3 hp =>
    obtain ⟨hn, rfl⟩ := issue_map h
    exact .acquire (.handler o) false (hpc hp) hn rfl rfl (sinkPc_handler s o _)
  case h_4 hp =>
    obtain ⟨hn, hs'⟩ := pend_eq h
    exact .pend (.handler o) (by rw [hpc hp]; rfl) hn hs'
  case h_5 hp =>
    cases h
    exact .release (.handler o) (by rw [hpc hp]; rfl) rfl rfl (sinkPc_handler s o _)
  case h_6 => cases h

theorem handlerRespond_sink {a : Act E} {o : ℕ} {r : Except E (Except JsonError Value)}
    (h : handlerRespond env s o r = some s') : SinkStep s s' a := by
  unfold handlerRespond at h
  split at h
  case h_2 => cases h
  case h_1 messageId hp =>
    cases h
    refine .move (.handler o) (respondPc (responseFrame env messageId r)).sink
      (by simp only [sinkPc, hp]; rfl) ?_ rfl rfl (sinkPc_handler s o _)
    unfold respondPc
    split <;> rfl

omit [ProtocolError E] in
theorem waitForPoll_sink {w : ℕ} {p : Poll} (h : waitForPoll env s w p = some s') :
    SinkStep s s' (.poll (.waitFor w) p : Act E) := by
  have hpc : ∀ {pc}, s.waitFors w = pc → sinkPc s (.waitFor w) = pc.sink := fun h =>
    congrArg WaitForPc.sink h
  unfold waitForPoll at h
  split at h
  case h_1 hp =>
    cases h
    exact .move (.waitFor w) .away (by rw [hpc hp]; rfl) rfl rfl rfl (sinkPc_waitFor s w _)
  case h_2 action hp =>
    cases h
    unfold waitForRecv
    split
    · refine .move (.waitFor w) .away (by rw [hpc hp]; rfl) rfl rfl rfl
        ((sinkPc_waitFor s w _).trans ?_)
      split <;> rfl
    · exact .move (.waitFor w) .away (by rw [hpc hp]; rfl) rfl rfl rfl (sinkPc_waitFor s w _)
    · exact .move (.waitFor w) .away (by rw [hpc hp]; rfl) rfl rfl rfl (sinkPc_waitFor s w _)
  case h_3 hp | h_4 hp =>
    split_ifs at h
    cases h
    exact .move (.waitFor w) .away (by rw [hpc hp]; rfl) rfl rfl rfl (sinkPc_waitFor s w _)
  case h_5 hp =>
    obtain ⟨hn, rfl⟩ := issue_map h
    exact .acquire (.waitFor w) false (hpc hp) hn rfl rfl (sinkPc_waitFor s w _)
  case h_6 hp =>
    obtain ⟨hn, hs'⟩ := pend_eq h
    exact .pend (.waitFor w) (by rw [hpc hp]; rfl) hn hs'
  case h_7 hp =>
    cases h
    exact .release (.waitFor w) (by rw [hpc hp]; rfl) rfl rfl (sinkPc_waitFor s w _)
  case h_8 hp =>
    cases h
    exact .move (.waitFor w) .away (by rw [hpc hp]; rfl) rfl rfl rfl (sinkPc_waitFor s w _)
  case h_9 => cases h

theorem waitForRespond_sink {a : Act E} {w : ℕ} {r : Except E (Except JsonError Value)}
    (h : waitForRespond env s w r = some s') : SinkStep s s' a := by
  unfold waitForRespond at h
  split at h
  case h_2 => cases h
  case h_1 hp =>
    have ht : (sinkPc s (.waitFor w)).isOp = false := by simp only [sinkPc, hp]; rfl
    split at h <;> cases h
    · exact .move (.waitFor w) .lock ht rfl rfl rfl (sinkPc_waitFor s w _)
    · exact .move (.waitFor w) .away ht rfl rfl rfl (sinkPc_waitFor s w _)

theorem handlerRecv_handlers (s : State E R) (o : ℕ) (action : String) :
    ∃ pc, (handlerRecv env s o action).handlers = Function.update s.handlers o pc
      ∧ (handlerRecv env s o action).ons = s.ons := by
  unfold handlerRecv
  split <;> exact ⟨_, rfl, rfl⟩

/-- A handler runs only once its `on` has registered. -/
def Spawned (s : State E R) : Prop :=
  ∀ o, (∀ action, s.ons o ≠ .registered action) → s.handlers o = .absent

theorem HandlerCase.sinkStep {a : Act E} (hS : Spawned s) (h : HandlerCase env s s' a) :
    SinkStep s s' a := by
  cases h with
  | on h =>
    obtain ⟨_, rfl⟩ := on_footprint h
    exact .frame rfl rfl rfl
  | @onPoll o p h =>
    unfold OcppClient.onPoll at h
    split at h
    case h_2 => cases h
    case h_1 hon =>
      cases h
      refine .move (.handler o) .away ?_ rfl rfl rfl (sinkPc_handler s o _)
      simp only [sinkPc, hS o (by simp [hon])]
      rfl
  | handlerPoll h => exact handlerPoll_sink env h
  | respond h => exact handlerRespond_sink env h
  | @waitFor w action h =>
    unfold OcppClient.waitFor at h
    split at h
    case h_2 => cases h
    case h_1 hp =>
      cases h
      exact .move (.waitFor w) .away (by simp only [sinkPc, hp]; rfl) rfl rfl rfl
        (sinkPc_waitFor s w _)
  | waitForPoll h => exact waitForPoll_sink env h
  | waitForRespond h => exact waitForRespond_sink env h

theorem Spawned.handlers {a : Act E} (hS : Spawned s) (h : HandlerCase env s s' a) :
    Spawned s' := by
  -- A handler that moves was there, so its `on` has registered.
  have hset : ∀ {o pc}, s.handlers o ≠ .absent → s'.ons = s.ons →
      s'.handlers = Function.update s.handlers o pc → Spawned s' := by
    intro o pc hne hons hh o' hn
    rw [hons] at hn
    have hoo : o' ≠ o := by rintro rfl; exact hne (hS _ hn)
    rw [hh, Function.update_of_ne hoo]
    exact hS o' hn
  cases h with
  | @on o action h =>
    unfold on at h
    split at h <;> cases h
    next hon =>
    intro o' hn
    rcases eq_or_ne o' o with rfl | hne
    · exact hS o' (by simp [hon])
    · simp only [Function.update_of_ne hne] at hn
      exact hS o' hn
  | @onPoll o p h =>
    unfold onPoll at h
    split at h <;> cases h
    intro o' hn
    have hne : o' ≠ o := by
      rintro rfl
      simp at hn
    simp only [Function.update_of_ne hne] at hn ⊢
    exact hS o' hn
  | @handlerPoll o p h =>
    unfold handlerPoll at h
    split at h
    case h_1 hp _ =>
      cases h
      have hne : s.handlers o ≠ .absent := by simp [hp]
      obtain ⟨pc, hh, hons⟩ := handlerRecv_handlers env s o _
      exact hset hne hons hh
    case h_2 hp =>
      split_ifs at h
      cases h
      exact hset (by simp [hp]) rfl rfl
    case h_3 hp =>
      obtain ⟨-, rfl⟩ := issue_map h
      exact hset (by simp [hp]) rfl rfl
    case h_4 hp =>
      obtain ⟨-, rfl⟩ := pend_eq h
      exact hS
    case h_5 hp =>
      cases h
      exact hset (by simp [hp]) rfl rfl
    case h_6 => cases h
  | @respond o r h =>
    unfold handlerRespond at h
    split at h <;> cases h
    next hp => exact hset (by simp [hp]) rfl rfl
  | waitFor h =>
    obtain ⟨_, rfl⟩ := waitFor_footprint h
    exact hS
  | waitForPoll h =>
    obtain ⟨_, _, _, _, _, rfl, -⟩ := waitForPoll_footprint env h
    exact hS
  | waitForRespond h =>
    obtain ⟨_, rfl⟩ := waitForRespond_footprint env h
    exact hS

theorem spawned_of_reach {P : State E R → Act E → Prop}
    (h : Machine.Reach (client env cfg) P s) : Spawned s := by
  refine h.invariant (fun _ _ => rfl) fun s a s' _ _ hs hS => ?_
  cases queue_cases env cfg hs with
  | handlers h => exact hS.handlers env h
  | read h =>
    have hf : s'.ons = s.ons ∧ s'.handlers = s.handlers := by
      cases h with
      | frame hf _ => exact ⟨hf.ons, hf.handlers⟩
      | lookup hf _ _ => exact ⟨hf.ons, hf.handlers⟩
      | push _ h => subst h; exact ⟨rfl, rfl⟩
    unfold Spawned
    rw [hf.1, hf.2]
    exact hS

omit [ProtocolError E] in
/-- A step of the read loop moves no other task. -/
theorem ReadFrame.sinkPc (h : ReadFrame s s') :
    OcppClient.sinkPc s' = Function.update (OcppClient.sinkPc s) .read s'.read.sink := by
  rw [← sinkPc_read s s'.read]
  funext t
  cases t <;> simp [OcppClient.sinkPc, h.calls, h.pings, h.sends, h.disconnects, h.handlers,
    h.waitFors]

omit [ProtocolError E] in
theorem ReadPc.Resting.isOp_sink {pc : ReadPc E} (h : pc.Resting) : pc.sink.isOp = false := by
  unfold ReadPc.sink
  split
  case h_5 | h_6 | h_7 => exact h.elim
  all_goals rfl

omit [ProtocolError E] in
theorem ReadPc.Operating.isOp_sink {pc : ReadPc E} (h : pc.Operating) : pc.sink.isOp = true := by
  unfold ReadPc.Operating at h
  split at h
  case h_4 => exact h.elim
  all_goals rfl

omit [ProtocolError E] in
theorem Acquires.sink {pc pc' : ReadPc E} {op : SinkOp} (h : Acquires pc op pc') :
    ∃ b, pc.sink = .lock ∧ pc'.sink = .op b := by
  cases h
  · exact ⟨false, rfl, rfl⟩
  · exact ⟨false, rfl, rfl⟩
  · exact ⟨true, rfl, rfl⟩

omit [ProtocolError E] in
/-- The read loop moves, from outside an operation to outside one. -/
theorem SinkStep.read {a : Act E} (hf : ReadFrame s s') (hr : s.read.sink.isOp = false)
    (hr' : s'.read.sink.isOp = false) (hh : s'.holder = s.holder) (hp : s'.pended = s.pended) :
    SinkStep s s' a :=
  .move .read s'.read.sink hr hr' hh hp hf.sinkPc

theorem readRecv_sink {a : Act E} {e : Option TransportEvent} (h : readRecv env cfg s e = some s') :
    SinkStep s s' a := by
  have hf := readRecv_frame env cfg h
  obtain ⟨hr, hl⟩ := readRecv_leads env cfg h
  obtain ⟨rd, n, h', hs', -⟩ := readRecv_footprint env cfg h
  refine .read hf (by rw [hr]; rfl) ?_ (by rw [hs']) (by rw [hs'])
  rcases hl with hl | ⟨_, _, hl⟩
  · exact hl.isOp_sink
  · rw [hl]
    rfl

theorem readPoll_sink {p : Poll} (hs : readPoll env cfg s p = some s') :
    SinkStep s s' (.poll .read p : Act E) := by
  have hf := readPoll_frame env cfg hs
  cases readPoll_moves env cfg hs with
  | acquire hr hn h =>
    subst h
    obtain ⟨b, hl, hop⟩ := hr.sink
    exact .acquire .read b hl hn rfl rfl (by rw [hf.sinkPc, ← hop])
  | pend hr hn h => exact .pend .read hr.isOp_sink hn h
  | release hr h =>
    subst h
    refine .release .read hr.operating.isOp_sink rfl rfl (hf.sinkPc.trans ?_)
    rcases hr.target with rfl | rfl <;> rfl
  | wake hr h =>
    have hrest := readWoken_resting cfg h hr
    obtain ⟨rd, h', hs', -⟩ := readWoken_footprint cfg h
    exact .read hf (by rw [hr]; rfl) hrest.isOp_sink (by rw [hs']) (by rw [hs'])
  | @pong token hr h =>
    obtain ⟨rd, ws, po, hp, -⟩ := resolvePong_footprint s token
    refine .read hf (by rw [hr]; rfl) ?_ (by rw [h, hp]) (by rw [h, hp])
    rw [h, resolvePong_read]
    rfl
  | go hr h =>
    subst h
    exact .read hf hr.resting.1.isOp_sink hr.resting.2.isOp_sink rfl rfl
  | dial hr h =>
    have hrest := beginDial_resting s
    obtain ⟨rd, h', hb, -⟩ := beginDial_footprint s
    subst h
    exact .read hf (by rw [hr]; rfl) hrest.isOp_sink (by rw [hb]) (by rw [hb])
  | wokenDial hr _ h =>
    subst h
    have hrest := beginDial_resting { s with wake := false, hist := s.hist ++ [.loop .woken] }
    obtain ⟨rd, h', hb, -⟩ :=
      beginDial_footprint { s with wake := false, hist := s.hist ++ [.loop .woken] }
    exact .read hf (by rw [hr]; rfl) hrest.isOp_sink (by rw [hb]) (by rw [hb])
  | lookup hr _ h => subst h; exact .read hf (by rw [hr]; rfl) rfl rfl rfl
  | push hr h => subst h; exact .read hf (by rw [hr]; rfl) rfl rfl rfl
  | resolve hr h => subst h; exact .read hf (by rw [hr]; rfl) rfl rfl rfl
  | notify hr h => subst h; exact .read hf (by rw [hr]; rfl) rfl rfl rfl
  | clear hr h => subst h; exact .read hf (by rw [hr]; rfl) rfl rfl rfl
  | backoff hr h => subst h; exact .read hf (by rw [hr]; rfl) rfl rfl rfl
  | redial hr h => subst h; exact .read hf (by rw [hr]; rfl) rfl rfl rfl
  | dialPend hr h => subst h; exact .read hf (by rw [hr]; rfl) rfl rfl rfl
  | dialled hr h => subst h; exact .read hf (by rw [hr]; rfl) rfl rfl rfl
  | swap hr _ h => subst h; exact .read hf (by rw [hr]; rfl) rfl rfl rfl
  | broadcast hr h => subst h; exact .read hf (by rw [hr]; rfl) rfl rfl rfl

theorem sinkStep_of_step {a : Act E} (hN : Numbered s) (hS : Spawned s)
    (hs : step env cfg s a = some s') : SinkStep s s' a := by
  cases step_cases env cfg hs with
  | recv h => exact readRecv_sink env cfg h
  | read h => exact readPoll_sink env cfg h
  | keepalive h => exact (keepalivePoll_moves h).sinkStep cfg hN
  | keepalivePing h =>
    obtain ⟨-, t, hm, ha⟩ := keepalivePingPoll_moves h
    obtain ⟨b, hb, hstep⟩ := hm.sinkStep
    exact ⟨b, hb, by rw [ha.sinkLock]; exact hstep⟩
  | callPoll h => exact callPoll_sink env h
  | pingPoll h => exact (pingPoll_moves h).sinkStep
  | notificationPoll h => exact notificationPoll_sink h
  | disconnectPoll h => exact disconnectPoll_sink h
  | call h => exact doSendRequest_sink env h
  | dropCall h => exact callDrop_sink h
  | ping h => exact sendPing_sink cfg h
  | dropPing h => exact pingDrop_sink h
  | notify h => exact sendNotification_sink env h
  | disconnect h => exact disconnect_sink h
  | forceReconnect h =>
    obtain ⟨_, _, he, -⟩ := forceReconnect_footprint s
    subst h
    rw [he]
    exact .frame rfl rfl rfl
  | setPingInterval h =>
    subst h
    exact .frame rfl rfl rfl
  | handlers h => exact h.sinkStep env hS
  | background h =>
    obtain ⟨_, _, _, _, _, _, rfl⟩ := h
    exact .frame rfl rfl rfl

/-- The client simulates the mutex, under whatever its runs say of the operations on it. -/
theorem reach_sinkLock {P : State E R → Act E → Prop}
    {Q : Mutex.Lock Task → Mutex.Label Task → Prop}
    (hPQ : ∀ s a s' b, P s a → step env cfg s a = some s' → Caused a b →
      Mutex.step (sinkLock s) b = some (sinkLock s') → Q (sinkLock s) b)
    (h : Machine.Reach (client env cfg) P s) :
    Machine.Reach (Mutex.machine Task) Q (sinkLock s) := by
  refine h.simulation sinkLock ?_ fun s a s' hr _ hP hs => ?_
  · simp only [client, sinkLock, State.new, Mutex.machine, Mutex.Lock.mk.injEq, true_and]
    funext t
    cases t <;> rfl
  · obtain ⟨b, hb, hstep⟩ := sinkStep_of_step env cfg (numbered_of_reach env cfg hr)
      (spawned_of_reach env cfg hr) hs
    exact .inr ⟨b, hPQ s a s' b hP hs hb hstep, hstep⟩

end Steps

end OcppClient
