import OcppClient.Lib.AsyncRuns
import OcppClient.Proofs.LockView
import OcppClient.Proofs.SinkMutex

/-!
# The client's steps among its mutexes

A step of the client is a run of the tasks of `Locks`, so the states in which it stands at its
`await`s are among theirs, and the critical sections its steps leave out are those of `Locks`.
-/

namespace OcppClient.Locks

open Async Transition Machine

variable {E R : Type}

section Moves

variable {s s' : State E R}

/-! ## One step of the client -/

/-- Every other mutex than the sink's is free wherever the client's tasks stand. -/
def isTable : MutexId → Bool
  | .sink => false
  | _ => true

/-- A task gets from the stack `σ` to `τ` on its own, with no operation on the sink. -/
def Glides (σ τ : List (Item MutexId)) : Prop :=
  ∃ mvs : List (Move Name MutexId), path isTable mvs σ = some τ

theorem Glides.refl (σ : List (Item MutexId)) : Glides σ σ := ⟨[], rfl⟩

theorem Glides.trans {σ τ υ : List (Item MutexId)} (h₁ : Glides σ τ) (h₂ : Glides τ υ) :
    Glides σ υ := by
  obtain ⟨as, h₁⟩ := h₁
  obtain ⟨bs, h₂⟩ := h₂
  exact ⟨as ++ bs, path_append h₁ h₂⟩

/-- A step of the client is a run of the tasks. -/
def LockStep (s s' : State E R) : Prop :=
  Reach locks (Uses Method) (lockView s) → Reach locks (Uses Method) (lockView s')

theorem lockView_eq {n : System Name MutexId} (hs : stackOf s = n.stack)
    (hh : s.holder.map nameOf = n.owner .sink) (ho : ∀ m, isTable m → n.owner m = none) :
    lockView s = n := by
  obtain ⟨st, ow⟩ := n
  have how : (lockView s).owner = ow := by
    funext m
    cases m
    case sink => exact hh
    all_goals exact (ho _ rfl).symm
  subst hs how
  rfl

theorem lockView_free (s : State E R) (m : MutexId) (h : isTable m = true) :
    (lockView s).owner m = none := by
  cases m
  case sink => cases h
  all_goals rfl

theorem LockStep.frame (hs : stackOf s' = stackOf s) (hh : s'.holder = s.holder) :
    LockStep s s' := by
  intro h
  have hv : lockView s' = lockView s :=
    lockView_eq hs (by rw [hh]; rfl) (lockView_free s)
  rwa [hv]

/-- The view after a step that moves task `t` and leaves the sink's mutex where it is. -/
theorem lockView_set {t : Name} {τ : List (Item MutexId)}
    (hs : stackOf s' = Function.update (stackOf s) t τ) (hh : s'.holder = s.holder) :
    lockView s' = (lockView s).set t τ :=
  lockView_eq hs (congrArg (Option.map nameOf) hh) (lockView_free s)

theorem LockStep.glide {t : Name} {σ τ : List (Item MutexId)} (hk : stackOf s t = σ)
    (hg : Glides σ τ)
    (hs : stackOf s' = Function.update (stackOf s) t τ) (hh : s'.holder = s.holder) :
    LockStep s s' := by
  intro h
  obtain ⟨mvs, hp⟩ := hg
  rw [lockView_set hs hh]
  exact reach_path h hk (lockView_free s) mvs hp

/-- With the sink's mutex in other hands every other one is still free. -/
theorem give_free (s : State E R) {t : Name} {τ : List (Item MutexId)} {o : Option Name}
    (m : MutexId) (hm : isTable m = true) :
    (((lockView s).set t τ).give .sink o).owner m = none := by
  rw [System.give_owner, Function.update_of_ne (by rintro rfl; cases hm)]
  exact lockView_free s m hm

theorem lockView_give {t : Name} {τ : List (Item MutexId)} {o : Option Task}
    (hs : stackOf s' = Function.update (stackOf s) t τ) (hh : s'.holder = o) :
    lockView s' = ((lockView s).set t τ).give .sink (o.map nameOf) :=
  lockView_eq hs (by simp [hh]) (give_free s)

/-- A task takes the sink's mutex. -/
theorem LockStep.acquire (t : Task) {c : Code MutexId} {k τ : List (Item MutexId)}
    (hk : stackOf s (nameOf t) = .run (.guarded .sink c) :: k) (hn : s.holder = none)
    (hg : Glides (.run c :: .release .sink :: k) τ)
    (hs : stackOf s' = Function.update (stackOf s) (nameOf t) τ) (hh : s'.holder = some t) :
    LockStep s s' := by
  intro h
  obtain ⟨mvs, hp⟩ := hg
  have hsink : (lockView s).owner .sink = none := congrArg (Option.map nameOf) hn
  have h₁ := reach_step h (step_take hk hsink) nofun
  have h₂ := reach_path h₁ System.set_stack (give_free s) mvs hp
  rw [System.give_set, System.set_set] at h₂
  rwa [lockView_give hs hh]

/-- A task takes the sink's mutex and drops its guard at once. -/
theorem LockStep.section {t : Name} {k : List (Item MutexId)}
    (hk : stackOf s t = .run (.guarded .sink .skip) :: k) (hn : s.holder = none)
    (hs : stackOf s' = Function.update (stackOf s) t k) (hh : s'.holder = s.holder) :
    LockStep s s' := by
  intro h
  rw [lockView_set hs hh]
  exact reach_section h hk (congrArg (Option.map nameOf) hn)

/-- A task drops the sink's guard. -/
theorem LockStep.release {t : Name} {σ k τ : List (Item MutexId)} (hk : stackOf s t = σ)
    (h₁ : Glides σ (.release .sink :: k)) (h₂ : Glides k τ)
    (hs : stackOf s' = Function.update (stackOf s) t τ) (hh : s'.holder = none) :
    LockStep s s' := by
  intro h
  obtain ⟨mvs, hp⟩ := h₁
  obtain ⟨mvs', hp'⟩ := h₂
  have h₁ := reach_path h hk (lockView_free s) mvs hp
  have h₂ := reach_step h₁ (step_release System.set_stack) nofun
  rw [System.set_set] at h₂
  have h₃ := reach_path h₂ System.set_stack (give_free s) mvs' hp'
  rw [System.give_set, System.set_set] at h₃
  rwa [lockView_give hs hh]

/-- The application calls a method. -/
theorem LockStep.begin (t : Name) {c : Code MutexId} {τ : List (Item MutexId)} (hc : Method c)
    (hk : stackOf s t = []) (hg : Glides (.run c :: atCaller) τ)
    (hs : stackOf s' = Function.update (stackOf s) t τ) (hh : s'.holder = s.holder) :
    LockStep s s' := by
  intro h
  obtain ⟨mvs, hp⟩ := hg
  have h₁ := reach_method h hk hc
  have h₂ := reach_path h₁ System.set_stack (lockView_free s) mvs hp
  rwa [System.set_set, ← lockView_set hs hh] at h₂

/-- A task spawns another. -/
theorem LockStep.spawn {t u : Name} {c : Code MutexId} {σ k τ : List (Item MutexId)}
    (hk : stackOf s t = σ) (hc : Glides σ (.run (.spawn c) :: k)) (hu : u ≠ t)
    (he : stackOf s u = []) (hg : Glides [.run c] τ)
    (hs : stackOf s' = Function.update (Function.update (stackOf s) t k) u τ)
    (hh : s'.holder = s.holder) : LockStep s s' := by
  intro h
  obtain ⟨mvs, hp⟩ := hc
  obtain ⟨mvs', hp'⟩ := hg
  have hv : lockView s' = ((lockView s).set t k).set u τ :=
    lockView_eq hs (congrArg (Option.map nameOf) hh) (lockView_free s)
  have hidle : ((lockView s).set t (.run (.spawn c) :: k)).stack u = [] :=
    (Function.update_of_ne hu ..).trans he
  have h₁ := reach_path h hk (lockView_free s) mvs hp
  have h₂ := reach_spawn h₁ System.set_stack hu hidle
  have h₃ := reach_path h₂ System.set_stack (lockView_free s) mvs' hp'
  rwa [System.set_set, System.set_set, ← hv] at h₃

/-- The application drops the future of a method, `n` items above its own code. -/
theorem LockStep.drop (t : Name) (n : ℕ) {i : Item MutexId} {k : List (Item MutexId)}
    (hk : stackOf s t = i :: k) (hi : i.suspended) (hc : (i :: k).drop n = atCaller)
    (hr : released ((i :: k).take n) = [])
    (hs : stackOf s' = Function.update (stackOf s) t atCaller) (hh : s'.holder = s.holder) :
    LockStep s s' := by
  intro h
  have h₁ := reach_drop h n hk hi (by rw [hc]; rfl) hr
  rwa [hc, ← lockView_set hs hh] at h₁

theorem LockStep.dropHolding (t : Name) (n : ℕ) {i : Item MutexId} {k : List (Item MutexId)}
    (hk : stackOf s t = i :: k) (hi : i.suspended) (hc : (i :: k).drop n = atCaller)
    (hr : released ((i :: k).take n) = [.sink])
    (hs : stackOf s' = Function.update (stackOf s) t atCaller) (hh : s'.holder = none) :
    LockStep s s' := by
  intro h
  have h₁ := reach_drop_holding h n hk hi (by rw [hc]; rfl) hr
  rw [hc] at h₁
  rwa [lockView_give hs hh]

end Moves

/-! ## Requests and pings -/

section Exchange

/-- How an exchange goes on where it has no operation on the sink to begin or to end. -/
inductive Stage.Quiet : Stage → Stage → Prop
  | registered : Quiet .register .lock
  | answered : Quiet .waiting .done
  | expired : Quiet .waiting .forget
  | forgotten : Quiet .forget .done

/-- How it goes on after the write. -/
inductive Stage.Written : Stage → Prop
  | sent : Written .waiting
  | failed : Written .forget

variable {s s' : State E R} {t : Name} {table : MutexId} {k : List (Item MutexId)} {a b : Stage}

theorem LockStep.quiet (ht : isTable table = true) (hq : a.Quiet b)
    (hk : stackOf s t = a.stack table k)
    (hs : stackOf s' = Function.update (stackOf s) t (b.stack table k))
    (hh : s'.holder = s.holder) : LockStep s s' := by
  refine .glide hk ?_ hs hh
  cases hq with
  | registered => exact ⟨[.go, .go], by simp [path, Async.glide, Stage.stack, ht, advance]⟩
  | answered => exact ⟨[.go, .go, .choose 0, .go], rfl⟩
  | expired => exact ⟨[.go, .go, .choose 1], rfl⟩
  | forgotten => exact ⟨[.go], by simp [path, Async.glide, Stage.stack, ht]⟩

theorem LockStep.written (hb : b.Written) (hk : stackOf s t = Stage.sending.stack table k)
    (hs : stackOf s' = Function.update (stackOf s) t (b.stack table k))
    (hh : s'.holder = none) : LockStep s s' := by
  refine .release hk ⟨[.go], rfl⟩ ?_ hs hh
  cases hb with
  | sent => exact ⟨[.choose 1, .go, .go], rfl⟩
  | failed => exact ⟨[.choose 0], rfl⟩

/-- The caller drops the future, with the guard it holds where it writes. -/
theorem LockStep.abandon (ha : a ≠ .idle ∧ a ≠ .done) (hk : stackOf s t = a.stack table atCaller)
    (hs : stackOf s' = Function.update (stackOf s) t atCaller)
    (hh : if a = .sending then s'.holder = none else s'.holder = s.holder) : LockStep s s' := by
  cases a with
  | idle => exact absurd rfl ha.1
  | register => exact .drop t 2 hk rfl rfl rfl hs hh
  | lock => exact .drop t 2 hk rfl rfl rfl hs hh
  | sending => exact .dropHolding t 3 hk rfl rfl rfl hs hh
  | waiting => exact .drop t 3 hk rfl rfl rfl hs hh
  | forget => exact .drop t 1 hk rfl rfl rfl hs hh
  | done => exact absurd rfl ha.2

end Exchange

section Calls

variable {s s' : State E R} (env : Env R)

theorem stackOf_eq_call {c : ℕ} {pc : CallPc E R} (h : s.calls c = pc) :
    stackOf s (.app (.call c)) = (CallPc.stage pc).stack .pendingResponses atCaller := by
  rw [stackOf, appStack, h]

theorem doSendRequest_locks {c : ℕ} {action : String} {payload : Except JsonError Value}
    (h : OcppClient.doSendRequest env s c action payload = some s') : LockStep s s' := by
  unfold OcppClient.doSendRequest at h
  split at h
  case h_2 => cases h
  case h_1 hc =>
    have hclosed : Glides (.run doSendRequest :: atCaller) atCaller := ⟨[.choose 0, .go], rfl⟩
    have hopen : Glides (.run doSendRequest :: atCaller)
        (Stage.register.stack .pendingResponses atCaller) := ⟨[.choose 1, .go], rfl⟩
    split_ifs at h
    · cases h
      exact .begin (.app (.call c)) .call (stackOf_eq_call hc) hclosed (stackOf_call s c _) rfl
    · simp only [] at h
      split at h <;> cases h
      · exact .begin (.app (.call c)) .call (stackOf_eq_call hc) hopen (stackOf_call s c _) rfl
      · exact .begin (.app (.call c)) .call (stackOf_eq_call hc) hclosed (stackOf_call s c _) rfl

theorem callPoll_locks {c : ℕ} {p : Poll} (h : callPoll env s c p = some s') : LockStep s s' := by
  unfold callPoll at h
  split at h
  case h_1 hc =>
    cases h
    exact .quiet rfl .registered (stackOf_eq_call hc) (stackOf_call s c _) rfl
  case h_2 hc =>
    obtain ⟨hn, rfl⟩ := issue_map h
    exact .acquire (.call c) (stackOf_eq_call hc) hn (.refl _) (stackOf_call s c _) rfl
  case h_3 hc =>
    obtain ⟨-, rfl⟩ := pend_eq h
    exact .frame rfl rfl
  case h_4 hc =>
    cases h
    exact .written .sent (stackOf_eq_call hc) (stackOf_call s c _) rfl
  case h_5 hc =>
    cases h
    exact .written .failed (stackOf_eq_call hc) (stackOf_call s c _) rfl
  case h_6 hc =>
    unfold takeResponse at h
    split at h
    · cases h
      exact .quiet rfl .answered (stackOf_eq_call hc) (stackOf_call s c _) rfl
    · cases h
  case h_7 hc =>
    split_ifs at h
    cases h
    exact .quiet rfl .expired (stackOf_eq_call hc) (stackOf_call s c _) rfl
  case h_8 hc =>
    cases h
    exact .quiet rfl .forgotten (stackOf_eq_call hc) (stackOf_call s c _) rfl
  case h_9 => cases h

theorem callDrop_locks {c : ℕ} (h : callDrop s c = some s') : LockStep s s' := by
  unfold callDrop at h
  split at h
  case h_4 hc =>
    cases h
    exact .abandon (by simp [CallPc.stage]) (stackOf_eq_call hc) (stackOf_call s c _) rfl
  case h_5 h₁ h₂ h₃ h₄ =>
    cases h
    refine .abandon (a := CallPc.stage (s.calls c)) ?_ rfl (stackOf_call s c _) ?_
    · rcases hc : s.calls c <;> simp_all [CallPc.stage]
    · rcases hc : s.calls c <;> simp_all [CallPc.stage, State.setCall]
  all_goals cases h

end Calls

section Pings

variable {s s' : State E R} (cfg : ClientConfig)

theorem stackOf_eq_ping {n : ℕ} {pc : PingPc E} (h : s.pings (.user n) = pc) :
    stackOf s (.app (.ping (.user n))) = (PingPc.stage pc).stack .pongWaiters atCaller := by
  rw [stackOf, appStack, userPingStack, h]

theorem sendPing_locks {n : ℕ} (h : sendPing cfg s n = some s') : LockStep s s' := by
  obtain ⟨pc, hp, rfl, hpc⟩ := sendPing_pings cfg h
  have hk := stackOf_eq_ping hp
  rcases hpc with rfl | rfl
  · exact .begin (.app (.ping (.user n))) .sendPing hk ⟨[.choose 0, .go], rfl⟩ (stackOf_ping s n _)
      rfl
  · exact .begin (.app (.ping (.user n))) .sendPing hk ⟨[.choose 1, .go], rfl⟩ (stackOf_ping s n _)
      rfl

/-- A poll of a ping, whichever task it belongs to. -/
theorem pingMove_locks {p : PingId} {poll : Poll} {k : List (Item MutexId)}
    (hk : ∀ {pc}, s.pings p = pc →
      stackOf s (nameOf (.ping p)) = (PingPc.stage pc).stack .pongWaiters k)
    (hset : ∀ pc, stackOf { s with pings := Function.update s.pings p pc }
      = Function.update (stackOf s) (nameOf (.ping p)) ((PingPc.stage pc).stack .pongWaiters k))
    (hm : PingMove p s s' poll) : LockStep s s' := by
  cases hm with
  | register hp h =>
    subst h
    exact .quiet rfl .registered (hk hp) (hset _) rfl
  | acquire hp hn h =>
    subst h
    exact .acquire (.ping p) (hk hp) hn (.refl _) (hset _) rfl
  | pend _ _ h => subst h; exact .frame rfl rfl
  | written hp h =>
    subst h
    exact .written .sent (hk hp) (hset _) rfl
  | failed hp h =>
    subst h
    exact .written .failed (hk hp) (hset _) rfl
  | answered hp _ h =>
    subst h
    exact .quiet rfl .answered (hk hp) (hset _) rfl
  | expired hp _ h =>
    subst h
    exact .quiet rfl .expired (hk hp) (hset _) rfl
  | missed hp h =>
    subst h
    exact .quiet rfl .forgotten (hk hp) (hset _) rfl

theorem pingPoll_locks {n : ℕ} {p : Poll} (h : pingPoll s (.user n) p = some s') :
    LockStep s s' :=
  pingMove_locks stackOf_eq_ping (stackOf_ping s n) (pingPoll_moves h)

theorem pingDrop_locks {n : ℕ} (h : pingDrop s n = some s') : LockStep s s' := by
  unfold pingDrop at h
  split at h
  case h_4 hp =>
    cases h
    exact .abandon (by simp [PingPc.stage]) (stackOf_eq_ping hp) (stackOf_ping s n _) rfl
  case h_5 h₁ h₂ h₃ h₄ =>
    cases h
    refine .abandon (a := PingPc.stage (s.pings (.user n))) ?_ rfl (stackOf_ping s n _) ?_
    · rcases hp : s.pings (.user n) <;> simp_all [PingPc.stage]
    · rcases hp : s.pings (.user n) <;> simp_all [PingPc.stage, State.setPing]
  all_goals cases h

/-! ## The keepalive loop -/

theorem stackOf_eq_keepalive {pc : KeepalivePc} (h : s.keepalive = pc) :
    stackOf s (.spawned .keepalive) = keepaliveStack s.pings pc := by
  rw [stackOf, spawnedStack, h]

/-- From its top the loop gets to wherever it does not ping. -/
theorem glides_keepalive (pings : PingId → PingPc E) {pc : KeepalivePc}
    (hpc : ∀ n, pc ≠ .pinging n) : Glides [.run keepaliveLoop] (keepaliveStack pings pc) := by
  cases pc with
  | start => exact .refl _
  | parked => exact ⟨[.again, .choose 1], rfl⟩
  | waiting interval => exact ⟨[.again, .choose 2, .go, .go], rfl⟩
  | pinging n => exact absurd rfl (hpc n)
  | exited => exact ⟨[.go], rfl⟩

theorem keepalivePoll_locks {p : Poll} (h : keepalivePoll cfg s p = some s') : LockStep s s' := by
  unfold keepalivePoll at h
  split at h
  case h_1 hk =>
    cases h
    exact .glide (stackOf_eq_keepalive hk) (glides_keepalive _ (keepaliveTop_ne s))
      (stackOf_keepalive s _) rfl
  case h_2 hk =>
    split_ifs at h
    cases h
    exact .glide (stackOf_eq_keepalive hk)
      (.trans ⟨[.go], rfl⟩ (glides_keepalive _ (keepaliveTop_ne _))) (stackOf_keepalive s _) rfl
  case h_3 hk =>
    split_ifs at h
    cases h
    exact .glide (stackOf_eq_keepalive hk)
      (.trans ⟨[.go, .go, .choose 0, .go], rfl⟩ (glides_keepalive _ (keepaliveTop_ne _)))
      (stackOf_keepalive s _) rfl
  case h_4 hk =>
    split_ifs at h
    cases h
    unfold beginPing
    split_ifs with hc hi
    · exact .glide (stackOf_eq_keepalive hk) ⟨[.go, .go, .choose 0, .go, .go], rfl⟩
        (stackOf_keepalive s _) rfl
    · exact .glide (stackOf_eq_keepalive hk)
        (.trans ⟨[.go, .go, .choose 0, .go], rfl⟩ (glides_keepalive _ (keepaliveTop_ne s)))
        (stackOf_keepalive s _) rfl
    · have hping : afterPing cfg
          (OcppClient.sendPingWithTimeout
            { s with
              keepalivePings := s.keepalivePings + 1
              keepalive := .pinging s.keepalivePings }
            (.keepalive s.keepalivePings) cfg.pingTimeout) s.keepalivePings
          = { s with
              keepalivePings := s.keepalivePings + 1
              keepalive := .pinging s.keepalivePings
              pings := Function.update s.pings (.keepalive s.keepalivePings)
                (.lockWaiters cfg.pingTimeout) } := by
        unfold OcppClient.sendPingWithTimeout afterPing
        simp [hc, State.setPing]
      simp only [hping]
      exact .glide (stackOf_eq_keepalive hk) ⟨[.go, .go, .choose 1, .choose 1, .go], rfl⟩
        (stackOf_keepalivePing s s.keepalivePings _) rfl
  case h_5 => cases h

/-- The loop after a poll of its ping. -/
theorem afterPing_locks {n : ℕ} (hk : s.keepalive = .pinging n) (h : AfterPing cfg n s s') :
    LockStep s s' := by
  have htop : ∀ {r}, s.pings (.keepalive n) = .returned r →
      stackOf s (.spawned .keepalive) = [.run keepaliveLoop] := fun hp => by
    rw [stackOf_eq_keepalive hk, keepaliveStack, hp]
    rfl
  cases h with
  | inside _ h => subst h; exact id
  | answered hp hne h =>
    subst h
    exact .glide (htop hp) (glides_keepalive _ hne) (stackOf_keepalive s _) rfl
  | missed hp hne h =>
    subst h
    obtain ⟨m, wa, h', hc, -⟩ := countMiss_footprint cfg s n
    rw [hc]
    exact .glide (htop hp) (glides_keepalive _ hne) (stackOf_keepalive s _) rfl

theorem keepalivePingPoll_locks {n : ℕ} {p : Poll} (h : keepalivePingPoll cfg s n p = some s') :
    LockStep s s' := by
  obtain ⟨hk, s₁, hm, ha⟩ := keepalivePingPoll_moves h
  have hset : ∀ pc, stackOf { s with pings := Function.update s.pings (.keepalive n) pc }
      = Function.update (stackOf s) (.spawned .keepalive)
        ((PingPc.stage pc).stack .pongWaiters [.run keepaliveLoop]) := fun pc => by
    have := stackOf_keepalivePing s n pc
    rwa [← hk] at this
  have hstack : ∀ {pc}, s.pings (.keepalive n) = pc → stackOf s (.spawned .keepalive)
      = (PingPc.stage pc).stack .pongWaiters [.run keepaliveLoop] := fun hp => by
    rw [stackOf_eq_keepalive hk, keepaliveStack, hp]
  have hk₁ : s₁.keepalive = .pinging n := hm.frame.2.1.trans hk
  exact fun hr => afterPing_locks cfg hk₁ ha (pingMove_locks hstack hset hm hr)

end Pings

/-! ## Notifications and shutdown -/

section Once

variable {s s' : State E R} (env : Env R)

theorem stackOf_eq_notification {n : ℕ} {pc : NotificationPc E} (h : s.sends n = pc) :
    stackOf s (.app (.notification n)) = notificationStack pc := by
  rw [stackOf, appStack, h]

theorem sendNotification_locks {n : ℕ} {action : String} {payload : Except JsonError Value}
    (h : OcppClient.sendNotification env s n action payload = some s') : LockStep s s' := by
  unfold OcppClient.sendNotification at h
  split at h
  case h_2 => cases h
  case h_1 hp =>
    have hk := stackOf_eq_notification hp
    have hclosed : Glides (.run sendNotification :: atCaller) atCaller := ⟨[.choose 0, .go], rfl⟩
    split_ifs at h
    · cases h
      exact .begin (.app (.notification n)) .sendNotification hk hclosed
        (stackOf_notification s n _) rfl
    · simp only [] at h
      split at h <;> cases h
      · exact .begin (.app (.notification n)) .sendNotification hk ⟨[.choose 1], rfl⟩
          (stackOf_notification s n _) rfl
      · exact .begin (.app (.notification n)) .sendNotification hk hclosed
          (stackOf_notification s n _) rfl

theorem notificationPoll_locks {n : ℕ} {p : Poll} (h : notificationPoll s n p = some s') :
    LockStep s s' := by
  unfold notificationPoll at h
  split at h
  case h_1 hp =>
    obtain ⟨hn, rfl⟩ := issue_map h
    exact .acquire (.notification n) (stackOf_eq_notification hp) hn (.refl _)
      (stackOf_notification s n _) rfl
  case h_2 hp =>
    obtain ⟨-, rfl⟩ := pend_eq h
    exact .frame rfl rfl
  case h_3 hp =>
    cases h
    exact .release (stackOf_eq_notification hp) ⟨[.go], rfl⟩ (.refl _) (stackOf_notification s n _)
      rfl
  case h_4 => cases h

theorem stackOf_eq_disconnect {d : ℕ} {pc : DisconnectPc E} (h : s.disconnects d = pc) :
    stackOf s (.app (.disconnect d)) = disconnectStack pc := by
  rw [stackOf, appStack, h]

theorem disconnect_locks {d : ℕ} (h : OcppClient.disconnect s d = some s') : LockStep s s' := by
  unfold OcppClient.disconnect at h
  split at h
  case h_2 => cases h
  case h_1 hp =>
    have hk := stackOf_eq_disconnect hp
    split_ifs at h <;> cases h
    · exact .begin (.app (.disconnect d)) .disconnect hk ⟨[.choose 0, .go], rfl⟩
        (stackOf_disconnect s d _) rfl
    · exact .begin (.app (.disconnect d)) .disconnect hk ⟨[.choose 1], rfl⟩
        (stackOf_disconnect s d _) rfl

theorem disconnectPoll_locks {d : ℕ} {p : Poll} (h : disconnectPoll s d p = some s') :
    LockStep s s' := by
  unfold disconnectPoll at h
  split at h
  case h_1 hp =>
    obtain ⟨hn, rfl⟩ := issue_map h
    exact .acquire (.disconnect d) (stackOf_eq_disconnect hp) hn (.refl _)
      (stackOf_disconnect s d _) rfl
  case h_2 hp =>
    obtain ⟨-, rfl⟩ := pend_eq h
    exact .frame rfl rfl
  case h_3 hp =>
    cases h
    exact .release (stackOf_eq_disconnect hp) ⟨[.go], rfl⟩ (.refl _) (stackOf_disconnect s d _) rfl
  case h_4 => cases h

end Once

end OcppClient.Locks
