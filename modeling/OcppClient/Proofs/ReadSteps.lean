import OcppClient.Proofs.Events

/-!
# The steps of the read loop

`ReadMove` says once what a poll of the read loop can do, from the `await` it stands at to the next.
What else is said of the loop, here and in the modules after this one, follows from it.
-/

namespace OcppClient

variable {E R : Type} {s s' : State E R}

/-! ## Where the loop stands -/

/-- The loop is inside an operation on the sink. -/
def ReadPc.Operating : ReadPc E → Prop
  | .sendNotImplemented | .sendPong | .sendClose => True
  | _ => False

/-- The loop is inside no operation, has nothing in hand for a table or a channel, and is not
between a dial that stays pending and the broadcast after it. -/
def ReadPc.Resting : ReadPc E → Prop
  | .sendNotImplemented | .sendPong | .sendClose => False
  | .lockPending _ _ | .pushRequest _ _ _ => False
  | .dial true | .lockSwap _ | .notifyReconnect => False
  | _ => True

/-- The loop is between a dial that succeeded and the end of the broadcast that follows. -/
def Installing : ReadPc E → Prop
  | .lockSwap _ => True
  | .notifyReconnect => True
  | _ => False

theorem ReadPc.Resting.not_installing {pc : ReadPc E} (h : pc.Resting) : ¬ Installing pc := by
  intro hi
  unfold Installing at hi
  split at hi
  · exact h
  · exact h
  · exact hi

theorem ReadPc.Operating.not_installing {pc : ReadPc E} (h : pc.Operating) : ¬ Installing pc := by
  intro hi
  unfold Installing at hi
  split at hi
  · exact h
  · exact h
  · exact hi

/-- The locks of the sink at which the loop calls `op`, and where it stands inside it. -/
inductive Acquires : ReadPc E → SinkOp → ReadPc E → Prop
  | notImplemented (frame : String) :
    Acquires (.lockNotImplemented frame) (.send frame) .sendNotImplemented
  | pong (payload : List UInt8) : Acquires (.lockPong payload) (.pong payload) .sendPong
  | close : Acquires .lockClose .close .sendClose

theorem Acquires.operating {pc pc' : ReadPc E} {op : SinkOp} (h : Acquires pc op pc') :
    pc'.Operating := by
  cases h <;> trivial

/-- Where the loop goes when an operation ends. -/
inductive Releases : ReadPc E → ReadPc E → Prop
  | notImplemented : Releases .sendNotImplemented .recv
  | pong : Releases .sendPong .recv
  | close : Releases .sendClose .clearWaiters

theorem Releases.operating {pc pc' : ReadPc E} (h : Releases pc pc') : pc.Operating := by
  cases h <;> trivial

theorem Releases.target {pc pc' : ReadPc E} (h : Releases pc pc') :
    pc' = .recv ∨ pc' = .clearWaiters := by
  cases h <;> simp

theorem Releases.resting {pc pc' : ReadPc E} (h : Releases pc pc') : pc'.Resting := by
  cases h <;> trivial

/-- Where the loop goes from the lock of a table of handlers, but for a handler of a CALL that it
found there. -/
inductive Steers : ReadPc E → ReadPc E → Prop
  | refused (messageId action frame : String) (payload : Value) :
    Steers (.lockRequestSenders messageId action payload) (.lockNotImplemented frame)
  | unanswered (messageId action : String) (payload : Value) :
    Steers (.lockRequestSenders messageId action payload) .recv
  | notification (action : String) (payload : Value) (ch : ℕ) :
    Steers (.lockNotificationSenders action payload) (.pushNotification ch payload)
  | unheard (action : String) (payload : Value) :
    Steers (.lockNotificationSenders action payload) .recv
  | pushed (ch : ℕ) (payload : Value) : Steers (.pushNotification ch payload) .recv

theorem Steers.resting {pc pc' : ReadPc E} (h : Steers pc pc') : pc.Resting ∧ pc'.Resting := by
  cases h <;> exact ⟨trivial, trivial⟩

/-! ## The parts of a poll -/

section Parts

variable [ProtocolError E] (env : Env R) (cfg : ClientConfig)

theorem handleEvent_footprint (s : State E R) (e : TransportEvent) :
    ∃ rd, handleEvent env s e
      = { s with read := rd, attempt := 0, hist := s.hist ++ [.loop (.received e)] } := by
  unfold handleEvent
  cases e <;> exact ⟨_, rfl⟩

omit [ProtocolError E] in
theorem beginBackoff_footprint (s : State E R) :
    ∃ rd n d, beginBackoff env cfg s = { s with read := rd, attempt := n, draws := d }
      ∧ s.draws ≤ d := by
  refine ⟨_, _, _, rfl, ?_⟩
  split_ifs
  · exact Nat.le_succ _
  · exact Nat.le_refl _

omit [ProtocolError E] in
theorem beginDial_footprint (s : State E R) :
    ∃ rd h', beginDial s = { s with read := rd, hist := h' } ∧ Grows [.loop] s.hist h' := by
  unfold beginDial
  split_ifs
  · exact ⟨_, _, rfl, .refl _ _⟩
  · exact ⟨_, _, rfl, .snoc (by simp)⟩

theorem readRecv_footprint {e : Option TransportEvent} (h : readRecv env cfg s e = some s') :
    ∃ rd n h', s' = { s with read := rd, attempt := n, hist := h' }
      ∧ Grows [.loop] s.hist h' := by
  unfold readRecv at h
  split at h
  · split at h
    · cases h
      obtain ⟨rd, hrd⟩ := handleEvent_footprint env s _
      exact ⟨_, _, _, hrd, .snoc (by simp)⟩
    · cases h
      exact ⟨_, _, _, rfl, .snoc (by simp)⟩
  · cases h

omit [ProtocolError E] in
theorem readWoken_footprint (h : readWoken cfg s = some s') :
    ∃ rd h', s' = { s with read := rd, wake := false, hist := h' }
      ∧ Grows [.passage] s.hist h' := by
  unfold readWoken at h
  split_ifs at h <;> cases h <;> exact ⟨_, _, rfl, .snoc (by simp)⟩

omit [ProtocolError E] in
theorem resolvePong_footprint (s : State E R) (token : Option Token) :
    ∃ rd ws po, resolvePong s token = { s with read := rd, waiters := ws, pongs := po }
      ∧ ∀ t p, ws t = some p → s.waiters t = some p := by
  unfold resolvePong
  split
  · exact ⟨_, _, _, rfl, fun _ _ h => h⟩
  · next t =>
    split
    · exact ⟨_, _, _, rfl, fun _ _ h => h⟩
    · refine ⟨_, _, _, rfl, fun t' p h => ?_⟩
      rcases eq_or_ne t' t with rfl | hne
      · simp at h
      · rwa [Function.update_of_ne hne] at h

omit [ProtocolError E] in
theorem swapIn_footprint {k : SinkId} (h : swapIn s k = some s') :
    s.holder = none ∧ s' = { s with
      sink := k, stream := k, read := .notifyReconnect
      hist := s.hist ++ [.loop (.swapped k)] } := by
  unfold swapIn at h
  split_ifs at h with hn
  cases h
  exact ⟨hn, rfl⟩

end Parts

/-! ## One poll -/

inductive ReadMove (env : Env R) (cfg : ClientConfig) (s s' : State E R) : Poll → Prop
  | wake (hr : s.read = .recv) (h : readWoken cfg s = some s') : ReadMove env cfg s s' .ready
  | lookup {messageId action : String} {payload : Value} {ch : ChanId}
    (hr : s.read = .lockRequestSenders messageId action payload)
    (hs : s.requests.senders action = some ch)
    (h : s' = { s with read := .pushRequest ch messageId payload }) : ReadMove env cfg s s' .ready
  | push {ch : ChanId} {messageId : String} {payload : Value}
    (hr : s.read = .pushRequest ch messageId payload)
    (h : s' = { s with
      read := .recv, requests := s.requests.modify ch fun c => c.send (messageId, payload) }) :
    ReadMove env cfg s s' .ready
  | acquire {op : SinkOp} {pc : ReadPc E} (hr : Acquires s.read op pc) (hn : s.holder = none)
    (h : s' = { s with
      holder := some .read, pended := false, read := pc
      hist := s.hist ++ [.issued .read s.sink op] }) : ReadMove env cfg s s' .ready
  | pend (hr : s.read.Operating) (hn : s.pended = false) (h : s' = { s with pended := true }) :
    ReadMove env cfg s s' .pend
  | release {p : Poll} {pc : ReadPc E} (hr : Releases s.read pc)
    (h : s' = { s.release with read := pc }) : ReadMove env cfg s s' p
  | resolve {id : Uuid} {v : Except E Value} (hr : s.read = .lockPending id v)
    (h : s' = resolvePending s id v) : ReadMove env cfg s s' .ready
  | pong {token : Option Token} (hr : s.read = .lockWaiters token) (h : s' = resolvePong s token) :
    ReadMove env cfg s s' .ready
  | notify {payload : List UInt8} (hr : s.read = .notifyPing payload)
    (h : s' = { s.notifyAll .ping with read := .lockPong payload }) : ReadMove env cfg s s' .ready
  | go {pc : ReadPc E} {ns : Registry ℕ Value} (hr : Steers s.read pc)
    (h : s' = { s with read := pc, notifications := ns }) : ReadMove env cfg s s' .ready
  | clear (hr : s.read = .clearShutdown)
    (h : s' = { s with waiters := fun _ => none, read := .exited }) : ReadMove env cfg s s' .ready
  | backoff (hr : s.read = .clearWaiters)
    (h : s' = beginBackoff env cfg { s with waiters := fun _ => none }) :
    ReadMove env cfg s s' .ready
  | redial {b : Bool} {e : TransportError} (hr : s.read = .dial b)
    (h : s' = beginBackoff env cfg s) : ReadMove env cfg s s' (.done (.error e))
  | dial {d : Duration} (hr : s.read = .backoff d) (h : s' = beginDial s) :
    ReadMove env cfg s s' .timer
  | wokenDial {d : Duration} (hr : s.read = .backoff d) (hw : s.wake = true)
    (h : s' = beginDial { s with wake := false, hist := s.hist ++ [.loop .woken] }) :
    ReadMove env cfg s s' .ready
  | dialPend (hr : s.read = .dial false) (h : s' = { s with read := .dial true }) :
    ReadMove env cfg s s' .pend
  | dialled {b : Bool} {r : Unit} (hr : s.read = .dial b)
    (h : s' = { s with read := .lockSwap s.nextSink, nextSink := s.nextSink + 1 }) :
    ReadMove env cfg s s' (.done (.ok r))
  | swap {k : SinkId} (hr : s.read = .lockSwap k) (hn : s.holder = none)
    (h : s' = { s with
      sink := k, stream := k, read := .notifyReconnect, hist := s.hist ++ [.loop (.swapped k)] }) :
    ReadMove env cfg s s' .ready
  | broadcast (hr : s.read = .notifyReconnect)
    (h : s' = { s.notifyAll .reconnect with
      read := .recv, hist := s.hist ++ [.loop .reconnected] }) : ReadMove env cfg s s' .ready

variable [ProtocolError E] (env : Env R) (cfg : ClientConfig)

theorem readPoll_moves {p : Poll} (h : readPoll env cfg s p = some s') :
    ReadMove env cfg s s' p := by
  unfold readPoll at h
  split at h
  case h_1 hr => exact .wake hr h
  case h_2 messageId action payload hr =>
    cases h
    unfold lookupRequest
    split
    · next ch hs => exact .lookup hr hs rfl
    · split
      · exact .go (hr ▸ .refused _ _ _ _) rfl
      · exact .go (hr ▸ .unanswered _ _ _) rfl
  case h_3 hr =>
    cases h
    exact .push hr rfl
  case h_4 hr =>
    obtain ⟨hn, rfl⟩ := issue_map h
    exact .acquire (hr ▸ .notImplemented _) hn rfl
  case h_11 hr =>
    obtain ⟨hn, rfl⟩ := issue_map h
    exact .acquire (hr ▸ .pong _) hn rfl
  case h_16 hr =>
    obtain ⟨hn, rfl⟩ := issue_map h
    exact .acquire (hr ▸ .close) hn rfl
  case h_5 hr | h_12 hr | h_17 hr =>
    obtain ⟨hn, rfl⟩ := pend_eq h
    exact .pend (by rw [hr]; trivial) hn rfl
  case h_6 hr =>
    cases h
    exact .release (hr ▸ .notImplemented) rfl
  case h_13 hr =>
    cases h
    exact .release (hr ▸ .pong) rfl
  case h_18 hr | h_19 hr =>
    cases h
    exact .release (hr ▸ .close) rfl
  case h_7 hr =>
    split at h <;> cases h
    · exact .go (hr ▸ .notification _ _ _) rfl
    · exact .go (hr ▸ .unheard _ _) rfl
  case h_8 hr =>
    cases h
    exact .go (hr ▸ .pushed _ _) rfl
  case h_9 hr =>
    cases h
    exact .resolve hr rfl
  case h_10 hr =>
    cases h
    exact .notify hr rfl
  case h_14 hr =>
    cases h
    exact .pong hr rfl
  case h_15 hr =>
    cases h
    exact .clear hr rfl
  case h_20 hr =>
    cases h
    exact .backoff hr rfl
  case h_21 hr =>
    cases h
    exact .dial hr rfl
  case h_22 hr =>
    split_ifs at h with hw
    cases h
    exact .wokenDial hr hw rfl
  case h_23 hr =>
    cases h
    exact .dialPend hr rfl
  case h_24 hr =>
    cases h
    exact .dialled hr rfl
  case h_25 hr =>
    cases h
    exact .redial hr rfl
  case h_26 hr =>
    obtain ⟨hn, rfl⟩ := swapIn_footprint h
    exact .swap hr hn rfl
  case h_27 hr =>
    cases h
    exact .broadcast hr rfl
  case h_28 => cases h

/-! ## What a poll leaves alone -/

omit [ProtocolError E] in
theorem resolvePong_read (s : State E R) (token : Option Token) :
    (resolvePong s token).read = .recv := by
  unfold resolvePong
  split
  · rfl
  · split <;> rfl

/-- The read loop leaves these fields alone, pushes to a channel only what it has in hand, adds no
waiter for a pong, and leaves `pending_responses` and its slots too unless it handles a response. -/
structure ReadFrame (s s' : State E R) : Prop where
  closed : s'.closed = s.closed
  changed : s'.changed = s.changed
  intervalMillis : s'.intervalMillis = s.intervalMillis
  nextToken : s'.nextToken = s.nextToken
  subscribers : s'.subscribers = s.subscribers
  keepalive : s'.keepalive = s.keepalive
  keepalivePings : s'.keepalivePings = s.keepalivePings
  missed : s'.missed = s.missed
  calls : s'.calls = s.calls
  pings : s'.pings = s.pings
  sends : s'.sends = s.sends
  disconnects : s'.disconnects = s.disconnects
  ons : s'.ons = s.ons
  handlers : s'.handlers = s.handlers
  waitFors : s'.waitFors = s.waitFors
  onNotifications : s'.onNotifications = s.onNotifications
  notificationHandlers : s'.notificationHandlers = s.notificationHandlers
  subs : s'.subs = s.subs
  requests : s'.requests = s.requests ∨ ∃ ch messageId payload,
    s.read = .pushRequest ch messageId payload ∧ s' = { s with
      read := .recv, requests := s.requests.modify ch fun c => c.send (messageId, payload) }
  waiters : ∀ t p, s'.waiters t = some p → s.waiters t = some p
  draws : s.draws ≤ s'.draws
  grows : Grows [.handled, .loop, .passage, .issued] s.hist s'.hist
  pending : s'.pendingResponses = s.pendingResponses ∧ s'.responses = s.responses
      ∧ Grows [.loop, .passage, .issued] s.hist s'.hist
    ∨ ∃ id v, s.read = .lockPending id v ∧ s' = resolvePending s id v

omit [ProtocolError E] in
theorem ReadFrame.write {wa : Bool} {sk : SinkId} {ho : Option Task} {pe : Bool}
    {ns : Registry ℕ Value} {ws : Token → Option PingId} {po : PingId → Bool} {sg : ℕ → Bool}
    {d : ℕ} {rd : ReadPc E} {n : ℕ} {st nk : SinkId} {h' : List (Event E)}
    (hw : ∀ t p, ws t = some p → s.waiters t = some p) (hd : s.draws ≤ d)
    (hg : Grows [.loop, .passage, .issued] s.hist h') :
    ReadFrame s { s with
      wake := wa, sink := sk, holder := ho, pended := pe, notifications := ns, waiters := ws,
      pongs := po, signals := sg, draws := d, read := rd, attempt := n, stream := st,
      nextSink := nk, hist := h' } :=
  ⟨rfl, rfl, rfl, rfl, rfl, rfl, rfl, rfl, rfl, rfl, rfl, rfl, rfl, rfl, rfl, rfl, rfl, rfl,
    .inl rfl, hw, hd, hg.mono (by simp), .inl ⟨rfl, rfl, hg⟩⟩

omit [ProtocolError E] in
theorem ReadMove.frame {p : Poll} (h : ReadMove env cfg s s' p) : ReadFrame s s' := by
  have hr : Grows [.loop, .passage, .issued] s.hist s.hist := .refl _ _
  have hw : ∀ t p, s.waiters t = some p → s.waiters t = some p := fun _ _ h => h
  have hd : s.draws ≤ s.draws := Nat.le_refl _
  cases h with
  | wake _ h =>
    obtain ⟨rd, h', rfl, hg⟩ := readWoken_footprint cfg h
    exact .write hw hd (hg.mono (by simp))
  | push hr' h =>
    subst h
    exact ⟨rfl, rfl, rfl, rfl, rfl, rfl, rfl, rfl, rfl, rfl, rfl, rfl, rfl, rfl, rfl, rfl, rfl, rfl,
      .inr ⟨_, _, _, hr', rfl⟩, hw, hd, .refl _ _, .inl ⟨rfl, rfl, hr⟩⟩
  | resolve hr' h =>
    subst h
    exact ⟨rfl, rfl, rfl, rfl, rfl, rfl, rfl, rfl, rfl, rfl, rfl, rfl, rfl, rfl, rfl, rfl, rfl, rfl,
      .inl rfl, hw, hd, .snoc (by simp), .inr ⟨_, _, hr', rfl⟩⟩
  | pong _ h =>
    obtain ⟨rd, ws, po, hp, hws⟩ := resolvePong_footprint s _
    exact h ▸ hp ▸ .write hws hd hr
  | backoff _ h =>
    obtain ⟨rd, n, d, hb, hd'⟩ := beginBackoff_footprint env cfg { s with waiters := fun _ => none }
    exact h ▸ hb ▸ .write nofun hd' hr
  | redial _ h =>
    obtain ⟨rd, n, d, hb, hd'⟩ := beginBackoff_footprint env cfg s
    exact h ▸ hb ▸ .write hw hd' hr
  | dial _ h =>
    obtain ⟨rd, h', hb, hg⟩ := beginDial_footprint s
    exact h ▸ hb ▸ .write hw hd (hg.mono (by simp))
  | wokenDial _ _ h =>
    obtain ⟨rd, h', hb, hg⟩ :=
      beginDial_footprint { s with wake := false, hist := s.hist ++ [.loop .woken] }
    exact h ▸ hb ▸ .write hw hd (.trans (.snoc (by simp)) (hg.mono (by simp)))
  | clear _ h => exact h ▸ .write nofun hd hr
  | acquire _ _ h => exact h ▸ .write hw hd (.snoc (by simp))
  | swap _ _ h => exact h ▸ .write hw hd (.snoc (by simp))
  | broadcast _ h => exact h ▸ .write hw hd (.snoc (by simp))
  | lookup _ _ h => exact h ▸ .write hw hd hr
  | pend _ _ h => exact h ▸ .write hw hd hr
  | release _ h => exact h ▸ .write hw hd hr
  | notify _ h => exact h ▸ .write hw hd hr
  | go _ h => exact h ▸ .write hw hd hr
  | dialPend _ h => exact h ▸ .write hw hd hr
  | dialled _ h => exact h ▸ .write hw hd hr

theorem readPoll_frame {p : Poll} (h : readPoll env cfg s p = some s') : ReadFrame s s' :=
  (readPoll_moves env cfg h).frame env cfg

theorem readRecv_frame {e : Option TransportEvent} (h : readRecv env cfg s e = some s') :
    ReadFrame s s' := by
  obtain ⟨rd, n, h', rfl, hg⟩ := readRecv_footprint env cfg h
  exact .write (fun _ _ h => h) (Nat.le_refl _) (hg.mono (by simp))

/-! ## Where a poll leads -/

omit [ProtocolError E] in
theorem leave_resting (s : State E R) (reason : LoopExit) : (leave cfg s reason).read.Resting := by
  unfold leave
  simp only []
  split_ifs <;> trivial

omit [ProtocolError E] in
theorem beginDial_resting (s : State E R) : (beginDial s).read.Resting := by
  unfold beginDial
  split_ifs <;> trivial

omit [ProtocolError E] in
theorem readWoken_resting (h : readWoken cfg s = some s') (hr : s.read = .recv) :
    s'.read.Resting := by
  unfold readWoken at h
  split_ifs at h <;> cases h
  · exact leave_resting cfg _ _
  · exact leave_resting cfg _ _
  · rw [hr]
    trivial

/-- Where a poll brings the loop: to rest, into an operation, before a push or the pending dial it
comes from, or towards the broadcast of a new transport. -/
inductive ReadTo (s s' : State E R) : Poll → Prop
  | rest {p : Poll} (h : s'.read.Resting) : ReadTo s s' p
  | operation {p : Poll} (h : s'.read.Operating) : ReadTo s s' p
  | lookup {messageId action : String} {payload : Value} {ch : ChanId}
    (hs : s.requests.senders action = some ch)
    (h : s'.read = .pushRequest ch messageId payload) : ReadTo s s' .ready
  | dialPend (hr : s.read = .dial false) (h : s'.read = .dial true) : ReadTo s s' .pend
  | installing {p : Poll} (h : Installing s'.read) : ReadTo s s' p

omit [ProtocolError E] in
theorem ReadMove.leads {p : Poll} (h : ReadMove env cfg s s' p) : ReadTo s s' p := by
  cases h with
  | wake hr h => exact .rest (readWoken_resting cfg h hr)
  | lookup _ hs h => exact .lookup hs (by rw [h])
  | acquire hr _ h => exact .operation (by rw [h]; exact hr.operating)
  | pend hr _ h => exact .operation (by rw [h]; exact hr)
  | release hr h => exact .rest (by rw [h]; exact hr.resting)
  | pong _ h => exact .rest (by rw [h, resolvePong_read]; trivial)
  | go hr h => exact .rest (by rw [h]; exact hr.resting.2)
  | dial _ h => exact .rest (h ▸ beginDial_resting _)
  | wokenDial _ _ h => exact .rest (h ▸ beginDial_resting _)
  | dialPend hr h => exact .dialPend hr (by rw [h])
  | dialled _ h => exact .installing (by rw [h]; trivial)
  | swap _ _ h => exact .installing (by rw [h]; trivial)
  | push _ h => exact .rest (by rw [h]; trivial)
  | resolve _ h => exact .rest (by rw [h]; trivial)
  | notify _ h => exact .rest (by rw [h]; trivial)
  | clear _ h => exact .rest (by rw [h]; trivial)
  | backoff _ h => exact .rest (by rw [h]; trivial)
  | redial _ h => exact .rest (by rw [h]; trivial)
  | broadcast _ h => exact .rest (by rw [h]; trivial)

theorem handleEvent_resting (s : State E R) (e : TransportEvent) :
    (handleEvent env s e).read.Resting
      ∨ ∃ id v, (handleEvent env s e).read = .lockPending id v := by
  unfold handleEvent handleFrame
  cases e with
  | frame f =>
    simp only []
    split
    · exact .inl trivial
    · exact .inl trivial
    · exact .inr ⟨_, _, rfl⟩
    · exact .inl trivial
  | ping => exact .inl trivial
  | pong => exact .inl trivial

/-- An event brings the loop to rest, or to the lock of `pending_responses`. -/
theorem readRecv_leads {e : Option TransportEvent} (h : readRecv env cfg s e = some s') :
    s.read = .recv ∧ (s'.read.Resting ∨ ∃ id v, s'.read = .lockPending id v) := by
  unfold readRecv at h
  split at h
  case h_2 => cases h
  case h_1 hr =>
    split at h <;> cases h
    · exact ⟨hr, handleEvent_resting env s _⟩
    · exact ⟨hr, .inl (leave_resting cfg s _)⟩

end OcppClient
