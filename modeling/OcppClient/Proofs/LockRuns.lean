import OcppClient.Proofs.LockHandlers

/-!
# The client's runs among its mutexes

The read loop's steps are runs of its code in `Locks`, so with those of the other tasks every step
of the client is one, and the client stands only where the tasks of `Locks` get to.
-/

namespace OcppClient.Locks

open Async Transition Machine

variable {E R : Type}

/-! ## The read loop -/

section ReadLoop

variable {s s' : State E R}

theorem stackOf_of_readFrame (hf : ReadFrame s s') :
    stackOf s' = Function.update (stackOf s) (.spawned .read) (readStack s'.read) := by
  rw [← stackOf_read]
  funext t
  rcases t with t | t <;> cases t <;>
    simp [stackOf, spawnedStack, appStack, hf.keepalive, hf.calls, hf.pings, hf.sends,
      hf.disconnects, hf.ons, hf.handlers, hf.waitFors, hf.onNotifications,
      hf.notificationHandlers, hf.subs]

theorem stackOf_eq_read {pc : ReadPc E} (h : s.read = pc) :
    stackOf s (.spawned .read) = readStack pc := by
  rw [stackOf, spawnedStack, h]

/-- A move of the read loop that begins or ends no operation on the sink. -/
theorem LockStep.read {pc : ReadPc E} (hf : ReadFrame s s') (hr : s.read = pc)
    (hh : s'.holder = s.holder) (hg : Glides (readStack pc) (readStack s'.read)) :
    LockStep s s' :=
  .glide (stackOf_eq_read hr) hg (stackOf_of_readFrame hf) hh

/-- From the top of the inner loop to its `recv`. -/
theorem glides_receiving : Glides receiving (readStack (.recv : ReadPc E)) :=
  ⟨[.again, .go, .go], rfl⟩

/-- From the top of the dial loop to its backoff. -/
theorem glides_dialling (d : Duration) : Glides dialling (readStack (.backoff d : ReadPc E)) :=
  ⟨[.again, .go, .go], rfl⟩

theorem glides_leave (cfg : ClientConfig) (s : State E R) (reason : LoopExit) :
    Glides (readStack (.recv : ReadPc E)) (readStack (OcppClient.leave cfg s reason).read) := by
  have hout : Glides (readStack (.recv : ReadPc E)) [.run leave, .run readLoop] :=
    ⟨[.go, .go, .choose 0, .go, .go], rfl⟩
  refine hout.trans ?_
  simp only [OcppClient.leave]
  split_ifs
  · exact ⟨[.choose 0], rfl⟩
  · exact ⟨[.choose 2, .go, .choose 1], rfl⟩
  · exact ⟨[.choose 2, .go, .choose 0, .go, .go], rfl⟩
  · exact ⟨[.choose 1, .go, .go], rfl⟩

theorem glides_beginDial (s : State E R) (d : Duration) :
    Glides (readStack (.backoff d : ReadPc E)) (readStack (beginDial s).read) := by
  unfold beginDial
  split_ifs
  · exact ⟨[.go, .go, .choose 0, .go, .go, .go], rfl⟩
  · exact ⟨[.go, .go, .choose 1, .go], rfl⟩

/-- The wake signal ends the race with `recv`. -/
theorem readWoken_locks (cfg : ClientConfig) (hf : ReadFrame s s') (hr : s.read = .recv)
    (h : readWoken cfg s = some s') : LockStep s s' := by
  unfold readWoken at h
  split_ifs at h
  · cases h
    exact .read hf hr rfl (glides_leave cfg _ _)
  · cases h
    exact .read hf hr rfl (glides_leave cfg _ _)
  · cases h
    exact .read hf hr rfl (hr ▸ .refl _)

/-- What the lock of a table of handlers leads to. -/
theorem steers_glides {pc pc' : ReadPc E} (h : Steers pc pc') :
    Glides (readStack pc) (readStack pc') := by
  cases h with
  | refused => exact ⟨[.go, .choose 0, .choose 1], rfl⟩
  | unanswered => exact .trans ⟨[.go, .choose 0, .choose 0, .go], rfl⟩ glides_receiving
  | notification action payload ch => exact ⟨[.go, .choose 1, .choose ch], rfl⟩
  | unheard => exact .trans ⟨[.go, .choose 0, .go], rfl⟩ glides_receiving
  | pushed => exact .trans ⟨[.go], rfl⟩ glides_receiving

theorem acquires_locks {pc pc' : ReadPc E} {op : SinkOp} (h : Acquires pc op pc')
    (hf : ReadFrame s s') (hr : s.read = pc) (hr' : s'.read = pc') (hn : s.holder = none)
    (hh : s'.holder = some .read) : LockStep s s' := by
  have hs := stackOf_of_readFrame hf
  rw [hr'] at hs
  cases h with
  | notImplemented => exact .acquire .read (stackOf_eq_read hr) hn (.refl _) hs hh
  | pong => exact .acquire .read (stackOf_eq_read hr) hn (.refl _) hs hh
  | close => exact .acquire .read (stackOf_eq_read hr) hn ⟨[.go], rfl⟩ hs hh

theorem releases_locks {pc pc' : ReadPc E} (h : Releases pc pc') (hf : ReadFrame s s')
    (hr : s.read = pc) (hr' : s'.read = pc') (hh : s'.holder = none) : LockStep s s' := by
  have hs := stackOf_of_readFrame hf
  rw [hr'] at hs
  cases h with
  | notImplemented => exact .release (stackOf_eq_read hr) ⟨[.go], rfl⟩ glides_receiving hs hh
  | pong => exact .release (stackOf_eq_read hr) ⟨[.go], rfl⟩ glides_receiving hs hh
  | close =>
    have hclosed : Glides [.run redial, .run readLoop] (readStack (.clearWaiters : ReadPc E)) :=
      ⟨[.go], rfl⟩
    exact .release (stackOf_eq_read hr) ⟨[.go, .go], rfl⟩ hclosed hs hh

variable [ProtocolError E] (env : Env R) (cfg : ClientConfig)

theorem glides_handleFrame (s : State E R) (frame : String) :
    Glides (.run handleFrame :: receiving)
      (readStack (OcppClient.handleFrame env s frame).read) := by
  unfold OcppClient.handleFrame
  simp only []
  split
  · exact .trans ⟨[.choose 0, .go], rfl⟩ glides_receiving
  · exact ⟨[.choose 1, .go], rfl⟩
  · exact ⟨[.choose 2], rfl⟩
  · exact ⟨[.choose 3, .go], rfl⟩

theorem glides_handleEvent (s : State E R) (e : TransportEvent) :
    Glides (readStack (.recv : ReadPc E)) (readStack (OcppClient.handleEvent env s e).read) := by
  have hev : Glides (readStack (.recv : ReadPc E)) (.run handleEvent :: receiving) :=
    ⟨[.go, .go, .choose 1], rfl⟩
  refine hev.trans ?_
  cases e with
  | frame f => exact .trans ⟨[.choose 0], rfl⟩ (glides_handleFrame env _ f)
  | ping payload => exact ⟨[.choose 1, .go], rfl⟩
  | pong payload => exact ⟨[.choose 2], rfl⟩

theorem readRecv_locks {e : Option TransportEvent} (h : readRecv env cfg s e = some s') :
    LockStep s s' := by
  have hf := readRecv_frame env cfg h
  obtain ⟨rd, n, h', hs', -⟩ := readRecv_footprint env cfg h
  have hh : s'.holder = s.holder := by rw [hs']
  unfold readRecv at h
  split at h
  case h_2 => cases h
  case h_1 hr =>
    split at h <;> cases h
    · exact .read hf hr hh (glides_handleEvent env s _)
    · exact .read hf hr hh (glides_leave cfg s _)

theorem readPoll_locks {p : Poll} (hs : readPoll env cfg s p = some s') : LockStep s s' := by
  have hf := readPoll_frame env cfg hs
  cases readPoll_moves env cfg hs with
  | wake hr h => exact readWoken_locks cfg hf hr h
  | @lookup messageId action payload ch hr _ h =>
    subst h
    refine .read hf hr rfl ?_
    cases ch with
    | on o => exact ⟨[.go, .choose 1, .choose o], rfl⟩
    | waitFor w => exact ⟨[.go, .choose 2, .choose w], rfl⟩
  | push hr h => subst h; exact .read hf hr rfl (.trans ⟨[.go], rfl⟩ glides_receiving)
  | acquire hr hn h => subst h; exact acquires_locks hr hf rfl rfl hn rfl
  | pend hr hn h => subst h; exact .frame rfl rfl
  | release hr h => subst h; exact releases_locks hr hf rfl rfl rfl
  | resolve hr h => subst h; exact .read hf hr rfl (.trans ⟨[.go], rfl⟩ glides_receiving)
  | @pong token hr h =>
    obtain ⟨rd, ws, po, hp, -⟩ := resolvePong_footprint s token
    refine .read hf hr (by rw [h, hp]) ?_
    rw [h, resolvePong_read]
    exact .trans ⟨[.go], rfl⟩ glides_receiving
  | notify hr h => subst h; exact .read hf hr rfl ⟨[.go], rfl⟩
  | go hr h => subst h; exact .read hf rfl rfl (steers_glides hr)
  | clear hr h => subst h; exact .read hf hr rfl ⟨[.go, .go], rfl⟩
  | backoff hr h => subst h; exact .read hf hr rfl (.trans ⟨[.go], rfl⟩ (glides_dialling _))
  | redial hr h =>
    subst h
    exact .read hf hr rfl (.trans ⟨[.go, .choose 0, .go], rfl⟩ (glides_dialling _))
  | dial hr h =>
    subst h
    obtain ⟨rd, h', hb, -⟩ := beginDial_footprint s
    exact .read hf hr (by rw [hb]) (glides_beginDial s _)
  | wokenDial hr _ h =>
    subst h
    obtain ⟨rd, h', hb, -⟩ :=
      beginDial_footprint { s with wake := false, hist := s.hist ++ [.loop .woken] }
    exact .read hf hr (by rw [hb]) (glides_beginDial _ _)
  | dialPend hr h => subst h; exact .read hf hr rfl (.refl _)
  | dialled hr h => subst h; exact .read hf hr rfl ⟨[.go, .choose 1, .go], rfl⟩
  | swap hr hn h =>
    subst h
    exact .section (stackOf_eq_read hr) hn (stackOf_of_readFrame hf) rfl
  | broadcast hr h =>
    subst h
    exact .read hf hr rfl (.trans ⟨[.go, .go, .again, .go], rfl⟩ glides_receiving)

end ReadLoop

/-! ## The client -/

section Client

variable [ProtocolError E] (env : Env R) (cfg : ClientConfig) {s s' : State E R}

theorem lockStep_of_step {a : Act E} (hS : Spawned s) (h : step env cfg s a = some s') :
    LockStep s s' := by
  cases a with
  | poll t p =>
    cases t with
    | read => exact readPoll_locks env cfg h
    | keepalive => exact keepalivePoll_locks cfg h
    | call c => exact callPoll_locks env h
    | ping q =>
      cases q with
      | user n => exact pingPoll_locks h
      | keepalive n => exact keepalivePingPoll_locks cfg h
    | notification n => exact notificationPoll_locks h
    | disconnect d => exact disconnectPoll_locks h
    | on o => exact onPoll_locks hS h
    | handler o => exact handlerPoll_locks env h
    | waitFor w => exact waitForPoll_locks env h
    | onNotification o => exact onNotificationPoll_locks h
    | notificationHandler o => exact notificationHandlerPoll_locks env h
    | subscriber i => exact subscriberPoll_locks h
  | recv e => exact readRecv_locks env cfg h
  | call c action payload => exact doSendRequest_locks env h
  | dropCall c => exact callDrop_locks h
  | ping n => exact sendPing_locks cfg h
  | dropPing n => exact pingDrop_locks h
  | notify n action payload => exact sendNotification_locks env h
  | disconnect d => exact disconnect_locks h
  | forceReconnect =>
    obtain ⟨_, _, he, -⟩ := forceReconnect_footprint s
    cases h
    rw [he]
    exact .frame rfl rfl
  | setPingInterval i =>
    cases h
    exact .frame rfl rfl
  | on o action => exact on_locks h
  | respond o r => exact handlerRespond_locks env h
  | waitFor w action => exact waitFor_locks h
  | waitForRespond w r => exact waitForRespond_locks env h
  | onNotification o action => exact onNotification_locks h
  | subscribe i b => exact subscribe_locks h

/-- Wherever a client stands, its tasks have come there through the critical sections of `Locks`. -/
theorem reach_lockView {P : State E R → Act E → Prop} (h : Reach (client env cfg) P s) :
    Reach locks (Uses Method) (lockView s) := by
  induction h with
  | init =>
    obtain ⟨mvs, hread⟩ : Glides [.run readLoop] (readStack (.recv : ReadPc E)) :=
      ⟨[.again, .go, .again, .go, .go], rfl⟩
    have hinit : lockView (State.new cfg : State E R)
        = init.set (.spawned .read) (readStack (.recv : ReadPc E)) := by
      refine lockView_eq ?_ rfl fun m _ => rfl
      funext t
      rcases t with t | t <;> cases t <;> try rfl
      next p => cases p <;> rfl
    refine (congrArg (Reach locks (Uses Method)) hinit).mpr ?_
    exact reach_path .init rfl (fun m _ => rfl) mvs hread
  | step hr _ hs ih => exact lockStep_of_step env cfg (spawned_of_reach env cfg hr) hs ih

end Client

end OcppClient.Locks
