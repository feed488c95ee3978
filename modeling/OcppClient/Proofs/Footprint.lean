import OcppClient.Proofs.ReadSteps

/-!
# What each task can touch

For each task but the read loop, one lemma says which fields a step of it may change and which kinds
of events it may record; everything else stays. An invariant over fields that a task does not touch
is kept by its steps at once.
-/

namespace OcppClient

open History

variable {E R : Type} {s s' : State E R}

/-- The wake signal was left alone, or raised on an open client with the sink as it was. -/
def Raises (s : State E R) (wake : Bool) (h' : List (Event E)) : Prop :=
  wake = s.wake ∧ Grows [.ping, .escalated, .issued] s.hist h'
    ∨ s.closed = false ∧ wake = true ∧ ∃ h₁, Grows [.ping, .escalated, .issued] s.hist h₁
      ∧ h' = h₁ ++ [.loop (.raised s.sink)]

theorem Raises.grows {wake : Bool} {h' : List (Event E)} (h : Raises s wake h') :
    Grows [.ping, .escalated, .raised, .issued] s.hist h' := by
  rcases h with ⟨-, hg⟩ | ⟨-, -, h₁, hg, rfl⟩
  · exact hg.mono (by simp)
  · exact (hg.mono (by simp)).trans (.snoc (by simp))

/-- What comes before a `force_reconnect` in the same step. -/
theorem Raises.after {wake : Bool} {h₀ h' : List (Event E)} {t : State E R}
    (h : Raises t wake h') (hw : t.wake = s.wake) (hc : t.closed = s.closed) (hk : t.sink = s.sink)
    (hh : t.hist = h₀) (hg : Grows [.ping, .escalated, .issued] s.hist h₀) : Raises s wake h' := by
  rcases h with ⟨rfl, hg'⟩ | ⟨hcl, rfl, h₁, hg', rfl⟩
  · exact .inl ⟨hw, hg.trans (hh ▸ hg')⟩
  · exact .inr ⟨hc ▸ hcl, rfl, h₁, hg.trans (hh ▸ hg'), by rw [hk]⟩

theorem forceReconnect_footprint (s : State E R) :
    ∃ wa h', s.forceReconnect = { s with wake := wa, hist := h' } ∧ Raises s wa h' := by
  unfold State.forceReconnect
  split_ifs with hc
  · exact ⟨_, _, rfl, .inl ⟨rfl, .refl _ _⟩⟩
  · exact ⟨_, _, rfl, .inr ⟨by simpa using hc, rfl, _, .refl _ _, rfl⟩⟩

variable (env : Env R) (cfg : ClientConfig)

/-! ## Requests -/

theorem doSendRequest_footprint {c : ℕ} {action : String} {payload : Except JsonError Value}
    (h : doSendRequest env s c action payload = some s') :
    ∃ d cs, s' = { s with draws := d, calls := cs } ∧ s.draws ≤ d := by
  unfold doSendRequest at h
  split at h
  · split_ifs at h
    · cases h; exact ⟨_, _, rfl, Nat.le_refl _⟩
    · simp only [] at h
      split at h <;> (cases h; exact ⟨_, _, rfl, Nat.le_succ _⟩)
  · cases h

theorem callPoll_footprint {c : ℕ} {p : Poll} (h : callPoll env s c p = some s') :
    ∃ pr rs cs ho pe h', s' = { s with
        pendingResponses := pr, responses := rs, calls := cs, holder := ho, pended := pe,
        hist := h' }
      ∧ Grows [.call, .issued] s.hist h' := by
  unfold callPoll at h
  split at h
  · cases h; exact ⟨_, _, _, _, _, _, rfl, .snoc (by simp)⟩
  · obtain ⟨-, rfl⟩ := issue_map h; exact ⟨_, _, _, _, _, _, rfl, .snoc (by simp)⟩
  · obtain ⟨-, rfl⟩ := pend_eq h; exact ⟨_, _, _, _, _, _, rfl, .refl _ _⟩
  · cases h; exact ⟨_, _, _, _, _, _, rfl, .refl _ _⟩
  · cases h; exact ⟨_, _, _, _, _, _, rfl, .refl _ _⟩
  · unfold takeResponse at h
    split at h
    · cases h; exact ⟨_, _, _, _, _, _, rfl, .snoc (by simp)⟩
    · cases h
  · split_ifs at h
    cases h; exact ⟨_, _, _, _, _, _, rfl, .refl _ _⟩
  · cases h; exact ⟨_, _, _, _, _, _, rfl, .snoc (by simp)⟩
  · cases h

theorem callDrop_footprint {c : ℕ} (h : callDrop s c = some s') :
    ∃ cs ho pe, s' = { s with calls := cs, holder := ho, pended := pe } := by
  unfold callDrop at h
  split at h <;> cases h <;> exact ⟨_, _, _, rfl⟩

theorem sendPingWithTimeout_footprint (s : State E R) (p : PingId) (t : Duration) :
    ∃ ps, sendPingWithTimeout s p t = { s with pings := ps } := by
  unfold sendPingWithTimeout
  split_ifs <;> exact ⟨_, rfl⟩

theorem sendPing_footprint {n : ℕ} (h : sendPing cfg s n = some s') :
    ∃ ps, s' = { s with pings := ps } := by
  unfold sendPing at h
  split at h
  · cases h; exact sendPingWithTimeout_footprint _ _ _
  · cases h

theorem pingPoll_footprint {p : PingId} {poll : Poll} (h : pingPoll s p poll = some s') :
    ∃ nt ws po ps ho pe h', s' = { s with
        nextToken := nt, waiters := ws, pongs := po, pings := ps, holder := ho, pended := pe,
        hist := h' }
      ∧ Grows [.ping, .issued] s.hist h' := by
  unfold pingPoll at h
  split at h
  · cases h; exact ⟨_, _, _, _, _, _, _, rfl, .refl _ _⟩
  · obtain ⟨-, rfl⟩ := issue_map h; exact ⟨_, _, _, _, _, _, _, rfl, .snoc (by simp)⟩
  · obtain ⟨-, rfl⟩ := pend_eq h; exact ⟨_, _, _, _, _, _, _, rfl, .refl _ _⟩
  · cases h; exact ⟨_, _, _, _, _, _, _, rfl, .snoc (by simp)⟩
  · cases h; exact ⟨_, _, _, _, _, _, _, rfl, .refl _ _⟩
  · split_ifs at h
    cases h; exact ⟨_, _, _, _, _, _, _, rfl, .snoc (by simp)⟩
  · split_ifs at h
    cases h; exact ⟨_, _, _, _, _, _, _, rfl, .refl _ _⟩
  · cases h; exact ⟨_, _, _, _, _, _, _, rfl, .snoc (by simp)⟩
  · cases h

theorem pingDrop_footprint {n : ℕ} (h : pingDrop s n = some s') :
    ∃ ps ho pe, s' = { s with pings := ps, holder := ho, pended := pe } := by
  unfold pingDrop at h
  split at h <;> cases h <;> exact ⟨_, _, _, rfl⟩

theorem sendNotification_footprint {n : ℕ} {action : String} {payload : Except JsonError Value}
    (h : sendNotification env s n action payload = some s') :
    ∃ d ss, s' = { s with draws := d, sends := ss } ∧ s.draws ≤ d := by
  unfold sendNotification at h
  split at h
  · split_ifs at h
    · cases h; exact ⟨_, _, rfl, Nat.le_refl _⟩
    · simp only [] at h
      split at h <;> (cases h; exact ⟨_, _, rfl, Nat.le_succ _⟩)
  · cases h

theorem notificationPoll_footprint {n : ℕ} {p : Poll} (h : notificationPoll s n p = some s') :
    ∃ ss ho pe h', s' = { s with sends := ss, holder := ho, pended := pe, hist := h' }
      ∧ Grows [.issued] s.hist h' := by
  unfold notificationPoll at h
  split at h
  · obtain ⟨-, rfl⟩ := issue_map h; exact ⟨_, _, _, _, rfl, .snoc (by simp)⟩
  · obtain ⟨-, rfl⟩ := pend_eq h; exact ⟨_, _, _, _, rfl, .refl _ _⟩
  · cases h; exact ⟨_, _, _, _, rfl, .refl _ _⟩
  · cases h

theorem disconnect_footprint {d : ℕ} (h : disconnect s d = some s') :
    ∃ cl wa ch ds h', s' = { s with
        closed := cl, wake := wa, changed := ch, disconnects := ds, hist := h' }
      ∧ Grows [.closed] s.hist h' := by
  unfold disconnect at h
  split at h
  · split_ifs at h
    · cases h; exact ⟨_, _, _, _, _, rfl, .refl _ _⟩
    · cases h; exact ⟨_, _, _, _, _, rfl, .snoc (by simp)⟩
  · cases h

theorem disconnectPoll_footprint {d : ℕ} {p : Poll} (h : disconnectPoll s d p = some s') :
    ∃ ds ho pe h', s' = { s with disconnects := ds, holder := ho, pended := pe, hist := h' }
      ∧ Grows [.issued] s.hist h' := by
  unfold disconnectPoll at h
  split at h
  · obtain ⟨-, rfl⟩ := issue_map h; exact ⟨_, _, _, _, rfl, .snoc (by simp)⟩
  · obtain ⟨-, rfl⟩ := pend_eq h; exact ⟨_, _, _, _, rfl, .refl _ _⟩
  · cases h; exact ⟨_, _, _, _, rfl, .refl _ _⟩
  · cases h

/-! ## Keepalive -/

theorem countMiss_footprint (s : State E R) (n : ℕ) :
    ∃ m wa h', countMiss cfg s n = { s with missed := m, wake := wa, hist := h' }
      ∧ Raises s wa h' := by
  unfold countMiss
  simp only []
  split_ifs
  · obtain ⟨wa, h', he, hr⟩ := forceReconnect_footprint
      { s with missed := 0, hist := s.hist ++ [.ping (.escalated n s.sink)] }
    exact ⟨_, wa, h', by rw [he], hr.after rfl rfl rfl rfl (.snoc (by simp))⟩
  · exact ⟨_, _, _, rfl, .inl ⟨rfl, .refl _ _⟩⟩

theorem afterPing_footprint (s : State E R) (n : ℕ) :
    ∃ k m wa h', afterPing cfg s n = { s with keepalive := k, missed := m, wake := wa, hist := h' }
      ∧ Raises s wa h' := by
  unfold afterPing
  split
  · exact ⟨_, _, _, _, rfl, .inl ⟨rfl, .refl _ _⟩⟩
  · obtain ⟨m, wa, h', he, hr⟩ := countMiss_footprint cfg s n
    rw [he]
    exact ⟨_, m, wa, h', rfl, hr⟩
  · exact ⟨_, _, _, _, rfl, .inl ⟨rfl, .refl _ _⟩⟩

theorem keepalivePoll_footprint {p : Poll} (h : keepalivePoll cfg s p = some s') :
    ∃ k kp m ch wa ps h', s' = { s with
        keepalive := k, keepalivePings := kp, missed := m, changed := ch, wake := wa, pings := ps,
        hist := h' }
      ∧ Raises s wa h' := by
  have hr : Raises s s.wake s.hist := .inl ⟨rfl, .refl _ _⟩
  unfold keepalivePoll at h
  split at h
  · cases h; exact ⟨_, _, _, _, _, _, _, rfl, hr⟩
  · split_ifs at h
    cases h; exact ⟨_, _, _, _, _, _, _, rfl, hr⟩
  · split_ifs at h
    cases h; exact ⟨_, _, _, _, _, _, _, rfl, hr⟩
  · split_ifs at h
    cases h
    unfold beginPing
    split_ifs
    · exact ⟨_, _, _, _, _, _, _, rfl, hr⟩
    · exact ⟨_, _, _, _, _, _, _, rfl, hr⟩
    · obtain ⟨ps, hp⟩ := sendPingWithTimeout_footprint
        { s with keepalivePings := s.keepalivePings + 1, keepalive := .pinging s.keepalivePings }
        (.keepalive s.keepalivePings) cfg.pingTimeout
      simp only [hp]
      obtain ⟨k, m, wa, h', ha, hr⟩ := afterPing_footprint cfg
        { s with keepalivePings := s.keepalivePings + 1, keepalive := .pinging s.keepalivePings,
                 pings := ps } s.keepalivePings
      rw [ha]
      exact ⟨_, _, _, _, _, _, _, rfl, hr⟩
  · cases h

theorem keepalivePingPoll_footprint {n : ℕ} {p : Poll}
    (h : keepalivePingPoll cfg s n p = some s') :
    ∃ nt ws po ps ho pe k m wa h', s' = { s with
        nextToken := nt, waiters := ws, pongs := po, pings := ps, holder := ho, pended := pe,
        keepalive := k, missed := m, wake := wa, hist := h' }
      ∧ Raises s wa h' := by
  unfold keepalivePingPoll at h
  split at h
  · split_ifs at h
    obtain ⟨s₁, h₁, rfl⟩ := Option.map_eq_some_iff.1 h
    obtain ⟨nt, ws, po, ps, ho, pe, h', rfl, hg⟩ := pingPoll_footprint h₁
    obtain ⟨k, m, wa, h'', ha, hr⟩ := afterPing_footprint cfg
      { s with nextToken := nt, waiters := ws, pongs := po, pings := ps, holder := ho, pended := pe,
               hist := h' } n
    rw [ha]
    exact ⟨_, _, _, _, _, _, _, _, _, _, rfl, hr.after rfl rfl rfl rfl (hg.mono (by simp))⟩
  · cases h

/-! ## Handlers -/

theorem on_footprint {o : ℕ} {action : String} (h : on s o action = some s') :
    ∃ os, s' = { s with ons := os } := by
  unfold on at h
  split at h <;> cases h
  exact ⟨_, rfl⟩

theorem onPoll_footprint {o : ℕ} {p : Poll} (h : onPoll s o p = some s') :
    ∃ rq os hs, s' = { s with requests := rq, ons := os, handlers := hs } := by
  unfold onPoll at h
  split at h <;> cases h
  exact ⟨_, _, _, rfl⟩

section

variable [ProtocolError E]

theorem handlerPoll_footprint {o : ℕ} {p : Poll} (h : handlerPoll env s o p = some s') :
    ∃ rq hs ho pe h', s' = { s with
        requests := rq, handlers := hs, holder := ho, pended := pe, hist := h' }
      ∧ Grows [.issued] s.hist h' := by
  unfold handlerPoll at h
  split at h
  · cases h
    unfold handlerRecv
    split <;> exact ⟨_, _, _, _, _, rfl, .refl _ _⟩
  · split_ifs at h
    cases h; exact ⟨_, _, _, _, _, rfl, .refl _ _⟩
  · obtain ⟨-, rfl⟩ := issue_map h; exact ⟨_, _, _, _, _, rfl, .snoc (by simp)⟩
  · obtain ⟨-, rfl⟩ := pend_eq h; exact ⟨_, _, _, _, _, rfl, .refl _ _⟩
  · cases h; exact ⟨_, _, _, _, _, rfl, .refl _ _⟩
  · cases h

theorem handlerRespond_footprint {o : ℕ} {r : Except E (Except JsonError Value)}
    (h : handlerRespond env s o r = some s') : ∃ hs, s' = { s with handlers := hs } := by
  unfold handlerRespond at h
  split at h <;> cases h
  exact ⟨_, rfl⟩

omit [ProtocolError E] in
theorem waitFor_footprint {w : ℕ} {action : String} (h : waitFor s w action = some s') :
    ∃ ws, s' = { s with waitFors := ws } := by
  unfold waitFor at h
  split at h <;> cases h
  exact ⟨_, rfl⟩

omit [ProtocolError E] in
theorem waitForPoll_footprint {w : ℕ} {p : Poll} (h : waitForPoll env s w p = some s') :
    ∃ rq ws ho pe h', s' = { s with
        requests := rq, waitFors := ws, holder := ho, pended := pe, hist := h' }
      ∧ Grows [.issued] s.hist h' := by
  unfold waitForPoll at h
  split at h
  · cases h; exact ⟨_, _, _, _, _, rfl, .refl _ _⟩
  · cases h
    unfold waitForRecv
    split <;> exact ⟨_, _, _, _, _, rfl, .refl _ _⟩
  · split_ifs at h
    cases h; exact ⟨_, _, _, _, _, rfl, .refl _ _⟩
  · split_ifs at h
    cases h; exact ⟨_, _, _, _, _, rfl, .refl _ _⟩
  · obtain ⟨-, rfl⟩ := issue_map h; exact ⟨_, _, _, _, _, rfl, .snoc (by simp)⟩
  · obtain ⟨-, rfl⟩ := pend_eq h; exact ⟨_, _, _, _, _, rfl, .refl _ _⟩
  · cases h; exact ⟨_, _, _, _, _, rfl, .refl _ _⟩
  · cases h; exact ⟨_, _, _, _, _, rfl, .refl _ _⟩
  · cases h

theorem waitForRespond_footprint {w : ℕ} {r : Except E (Except JsonError Value)}
    (h : waitForRespond env s w r = some s') : ∃ ws, s' = { s with waitFors := ws } := by
  unfold waitForRespond at h
  split at h
  · split at h <;> cases h <;> exact ⟨_, rfl⟩
  · cases h

end

theorem onNotification_footprint {o : ℕ} {action : String}
    (h : onNotification s o action = some s') : ∃ os, s' = { s with onNotifications := os } := by
  unfold onNotification at h
  split at h <;> cases h
  exact ⟨_, rfl⟩

theorem onNotificationPoll_footprint {o : ℕ} {p : Poll}
    (h : onNotificationPoll s o p = some s') :
    ∃ ns os hs, s' = { s with
      notifications := ns, onNotifications := os, notificationHandlers := hs } := by
  unfold onNotificationPoll at h
  split at h <;> cases h
  exact ⟨_, _, _, rfl⟩

theorem notificationHandlerPoll_footprint {o : ℕ} {p : Poll}
    (h : notificationHandlerPoll env s o p = some s') :
    ∃ ns hs, s' = { s with notifications := ns, notificationHandlers := hs } := by
  unfold notificationHandlerPoll at h
  split at h
  · cases h
    unfold notificationHandlerRecv
    split <;> exact ⟨_, _, rfl⟩
  · split_ifs at h
    cases h; exact ⟨_, _, rfl⟩
  · cases h; exact ⟨_, _, rfl⟩
  · cases h

theorem subscribe_footprint {i : ℕ} {b : Broadcast} (h : subscribe s i b = some s') :
    ∃ ss, s' = { s with subs := ss } := by
  unfold subscribe at h
  split at h <;> cases h
  exact ⟨_, rfl⟩

theorem subscriberPoll_footprint {i : ℕ} {p : Poll} (h : subscriberPoll s i p = some s') :
    ∃ sb si ss, s' = { s with subscribers := sb, signals := si, subs := ss } := by
  unfold subscriberPoll at h
  split at h
  · cases h; exact ⟨_, _, _, rfl⟩
  · split_ifs at h
    cases h; exact ⟨_, _, _, rfl⟩
  · cases h; exact ⟨_, _, _, rfl⟩
  · cases h

/-! ## One step of the client -/

section

variable [ProtocolError E]

/-- A step of `on`, of a handler it spawned, or of `wait_for`. -/
inductive HandlerCase (s s' : State E R) : Act E → Prop
  | on {o : ℕ} {action : String} (h : on s o action = some s') : HandlerCase s s' (.on o action)
  | onPoll {o : ℕ} {p : Poll} (h : onPoll s o p = some s') : HandlerCase s s' (.poll (.on o) p)
  | handlerPoll {o : ℕ} {p : Poll} (h : handlerPoll env s o p = some s') :
    HandlerCase s s' (.poll (.handler o) p)
  | respond {o : ℕ} {r : Except E (Except JsonError Value)}
    (h : handlerRespond env s o r = some s') : HandlerCase s s' (.respond o r)
  | waitFor {w : ℕ} {action : String} (h : waitFor s w action = some s') :
    HandlerCase s s' (.waitFor w action)
  | waitForPoll {w : ℕ} {p : Poll} (h : waitForPoll env s w p = some s') :
    HandlerCase s s' (.poll (.waitFor w) p)
  | waitForRespond {w : ℕ} {r : Except E (Except JsonError Value)}
    (h : waitForRespond env s w r = some s') : HandlerCase s s' (.waitForRespond w r)

theorem HandlerCase.footprint {a : Act E} (h : HandlerCase env s s' a) :
    ∃ rq os hs ws ho pe h', s' = { s with
        requests := rq, ons := os, handlers := hs, waitFors := ws, holder := ho, pended := pe,
        hist := h' }
      ∧ Grows [.issued] s.hist h' := by
  have hr : Grows [.issued] s.hist s.hist := .refl _ _
  cases h with
  | on h =>
    obtain ⟨_, rfl⟩ := on_footprint h
    exact ⟨_, _, _, _, _, _, _, rfl, hr⟩
  | onPoll h =>
    obtain ⟨_, _, _, rfl⟩ := onPoll_footprint h
    exact ⟨_, _, _, _, _, _, _, rfl, hr⟩
  | handlerPoll h =>
    obtain ⟨_, _, _, _, _, rfl, hg⟩ := handlerPoll_footprint env h
    exact ⟨_, _, _, _, _, _, _, rfl, hg⟩
  | respond h =>
    obtain ⟨_, rfl⟩ := handlerRespond_footprint env h
    exact ⟨_, _, _, _, _, _, _, rfl, hr⟩
  | waitFor h =>
    obtain ⟨_, rfl⟩ := waitFor_footprint h
    exact ⟨_, _, _, _, _, _, _, rfl, hr⟩
  | waitForPoll h =>
    obtain ⟨_, _, _, _, _, rfl, hg⟩ := waitForPoll_footprint env h
    exact ⟨_, _, _, _, _, _, _, rfl, hg⟩
  | waitForRespond h =>
    obtain ⟨_, rfl⟩ := waitForRespond_footprint env h
    exact ⟨_, _, _, _, _, _, _, rfl, hr⟩

/-- A step of a subscriber or of a notification's handler touches nothing else of the client. -/
def Background (s s' : State E R) : Prop :=
  ∃ ns sb si ons nhs su, s' = { s with
    notifications := ns, subscribers := sb, signals := si, onNotifications := ons,
    notificationHandlers := nhs, subs := su }

/-- Whose step it was. -/
inductive StepCase (s s' : State E R) : Act E → Prop
  | recv {e : Option TransportEvent} (h : readRecv env cfg s e = some s') : StepCase s s' (.recv e)
  | read {p : Poll} (h : readPoll env cfg s p = some s') : StepCase s s' (.poll .read p)
  | keepalive {p : Poll} (h : keepalivePoll cfg s p = some s') : StepCase s s' (.poll .keepalive p)
  | keepalivePing {n : ℕ} {p : Poll} (h : keepalivePingPoll cfg s n p = some s') :
    StepCase s s' (.poll (.ping (.keepalive n)) p)
  | callPoll {c : ℕ} {p : Poll} (h : callPoll env s c p = some s') :
    StepCase s s' (.poll (.call c) p)
  | pingPoll {n : ℕ} {p : Poll} (h : pingPoll s (.user n) p = some s') :
    StepCase s s' (.poll (.ping (.user n)) p)
  | notificationPoll {n : ℕ} {p : Poll} (h : notificationPoll s n p = some s') :
    StepCase s s' (.poll (.notification n) p)
  | disconnectPoll {d : ℕ} {p : Poll} (h : disconnectPoll s d p = some s') :
    StepCase s s' (.poll (.disconnect d) p)
  | call {c : ℕ} {action : String} {payload : Except JsonError Value}
    (h : doSendRequest env s c action payload = some s') : StepCase s s' (.call c action payload)
  | dropCall {c : ℕ} (h : callDrop s c = some s') : StepCase s s' (.dropCall c)
  | ping {n : ℕ} (h : sendPing cfg s n = some s') : StepCase s s' (.ping n)
  | dropPing {n : ℕ} (h : pingDrop s n = some s') : StepCase s s' (.dropPing n)
  | notify {n : ℕ} {action : String} {payload : Except JsonError Value}
    (h : sendNotification env s n action payload = some s') :
    StepCase s s' (.notify n action payload)
  | disconnect {d : ℕ} (h : disconnect s d = some s') : StepCase s s' (.disconnect d)
  | forceReconnect (h : s' = s.forceReconnect) : StepCase s s' .forceReconnect
  | setPingInterval {i : Option Duration} (h : s' = setPingInterval s i) :
    StepCase s s' (.setPingInterval i)
  | handlers {a : Act E} (h : HandlerCase env s s' a) : StepCase s s' a
  | background {a : Act E} (h : Background s s') : StepCase s s' a

theorem pollTask_cases {t : Task} {p : Poll} (h : pollTask env cfg s t p = some s') :
    StepCase env cfg s s' (.poll t p) := by
  cases t with
  | read => exact .read h
  | keepalive => exact .keepalive h
  | call c => exact .callPoll h
  | ping p =>
    cases p with
    | user n => exact .pingPoll h
    | keepalive n => exact .keepalivePing h
  | notification n => exact .notificationPoll h
  | disconnect d => exact .disconnectPoll h
  | on o => exact .handlers (.onPoll h)
  | handler o => exact .handlers (.handlerPoll h)
  | waitFor w => exact .handlers (.waitForPoll h)
  | onNotification o =>
    obtain ⟨_, _, _, rfl⟩ := onNotificationPoll_footprint h
    exact .background ⟨_, _, _, _, _, _, rfl⟩
  | notificationHandler o =>
    obtain ⟨_, _, rfl⟩ := notificationHandlerPoll_footprint env h
    exact .background ⟨_, _, _, _, _, _, rfl⟩
  | subscriber i =>
    obtain ⟨_, _, _, rfl⟩ := subscriberPoll_footprint h
    exact .background ⟨_, _, _, _, _, _, rfl⟩

theorem step_cases {a : Act E} (h : step env cfg s a = some s') : StepCase env cfg s s' a := by
  cases a with
  | poll t p => exact pollTask_cases env cfg h
  | recv e => exact .recv h
  | call c action payload => exact .call h
  | dropCall c => exact .dropCall h
  | ping n => exact .ping h
  | dropPing n => exact .dropPing h
  | notify n action payload => exact .notify h
  | disconnect d => exact .disconnect h
  | forceReconnect => exact .forceReconnect (by simpa [step] using h.symm)
  | setPingInterval i => exact .setPingInterval (by simpa [step] using h.symm)
  | on o action => exact .handlers (.on h)
  | respond o r => exact .handlers (.respond h)
  | waitFor w action => exact .handlers (.waitFor h)
  | waitForRespond w r => exact .handlers (.waitForRespond h)
  | onNotification o action =>
    obtain ⟨_, rfl⟩ := onNotification_footprint h
    exact .background ⟨_, _, _, _, _, _, rfl⟩
  | subscribe i b =>
    obtain ⟨_, rfl⟩ := subscribe_footprint h
    exact .background ⟨_, _, _, _, _, _, rfl⟩

/-- What only the read loop, the handlers and the notifications move. -/
structure Bystander (s s' : State E R) : Prop where
  read : s'.read = s.read
  attempt : s'.attempt = s.attempt
  nextSink : s'.nextSink = s.nextSink
  requests : s'.requests = s.requests
  sends : s'.sends = s.sends
  ons : s'.ons = s.ons
  handlers : s'.handlers = s.handlers
  waitFors : s'.waitFors = s.waitFors

/-- A step of the client, as the parties to an exchange of messages see it. -/
inductive PartyCase (s s' : State E R) : Act E → Prop
  | recv {e : Option TransportEvent} (h : readRecv env cfg s e = some s') : PartyCase s s' (.recv e)
  | read {p : Poll} (h : readPoll env cfg s p = some s') : PartyCase s s' (.poll .read p)
  | notify {n : ℕ} {action : String} {payload : Except JsonError Value}
    (h : sendNotification env s n action payload = some s') :
    PartyCase s s' (.notify n action payload)
  | notificationPoll {n : ℕ} {p : Poll} (h : notificationPoll s n p = some s') :
    PartyCase s s' (.poll (.notification n) p)
  | handlers {a : Act E} (h : HandlerCase env s s' a) : PartyCase s s' a
  | other {a : Act E} (h : Bystander s s') : PartyCase s s' a

theorem party_cases {a : Act E} (hs : step env cfg s a = some s') : PartyCase env cfg s s' a := by
  cases step_cases env cfg hs with
  | recv h => exact .recv h
  | read h => exact .read h
  | notify h => exact .notify h
  | notificationPoll h => exact .notificationPoll h
  | handlers h => exact .handlers h
  | keepalive h =>
    obtain ⟨_, _, _, _, _, _, _, rfl, -⟩ := keepalivePoll_footprint cfg h
    exact .other ⟨rfl, rfl, rfl, rfl, rfl, rfl, rfl, rfl⟩
  | keepalivePing h =>
    obtain ⟨_, _, _, _, _, _, _, _, _, _, rfl, -⟩ := keepalivePingPoll_footprint cfg h
    exact .other ⟨rfl, rfl, rfl, rfl, rfl, rfl, rfl, rfl⟩
  | callPoll h =>
    obtain ⟨_, _, _, _, _, _, rfl, -⟩ := callPoll_footprint env h
    exact .other ⟨rfl, rfl, rfl, rfl, rfl, rfl, rfl, rfl⟩
  | pingPoll h =>
    obtain ⟨_, _, _, _, _, _, _, rfl, -⟩ := pingPoll_footprint h
    exact .other ⟨rfl, rfl, rfl, rfl, rfl, rfl, rfl, rfl⟩
  | disconnectPoll h =>
    obtain ⟨_, _, _, _, rfl, -⟩ := disconnectPoll_footprint h
    exact .other ⟨rfl, rfl, rfl, rfl, rfl, rfl, rfl, rfl⟩
  | call h =>
    obtain ⟨_, _, rfl, -⟩ := doSendRequest_footprint env h
    exact .other ⟨rfl, rfl, rfl, rfl, rfl, rfl, rfl, rfl⟩
  | dropCall h =>
    obtain ⟨_, _, _, rfl⟩ := callDrop_footprint h
    exact .other ⟨rfl, rfl, rfl, rfl, rfl, rfl, rfl, rfl⟩
  | ping h =>
    obtain ⟨_, rfl⟩ := sendPing_footprint cfg h
    exact .other ⟨rfl, rfl, rfl, rfl, rfl, rfl, rfl, rfl⟩
  | dropPing h =>
    obtain ⟨_, _, _, rfl⟩ := pingDrop_footprint h
    exact .other ⟨rfl, rfl, rfl, rfl, rfl, rfl, rfl, rfl⟩
  | disconnect h =>
    obtain ⟨_, _, _, _, _, rfl, -⟩ := disconnect_footprint h
    exact .other ⟨rfl, rfl, rfl, rfl, rfl, rfl, rfl, rfl⟩
  | forceReconnect h =>
    obtain ⟨_, _, he, -⟩ := forceReconnect_footprint s
    subst h
    rw [he]
    exact .other ⟨rfl, rfl, rfl, rfl, rfl, rfl, rfl, rfl⟩
  | setPingInterval h =>
    subst h
    exact .other ⟨rfl, rfl, rfl, rfl, rfl, rfl, rfl, rfl⟩
  | background h =>
    obtain ⟨_, _, _, _, _, _, rfl⟩ := h
    exact .other ⟨rfl, rfl, rfl, rfl, rfl, rfl, rfl, rfl⟩

/-- What only the read loop, the handlers of notifications and the subscribers move. -/
structure BackgroundFrame (s s' : State E R) : Prop where
  notifications : s'.notifications = s.notifications
  onNotifications : s'.onNotifications = s.onNotifications
  notificationHandlers : s'.notificationHandlers = s.notificationHandlers
  subscribers : s'.subscribers = s.subscribers
  signals : s'.signals = s.signals
  subs : s'.subs = s.subs

/-- A step of the client, as notifications and broadcasts see it. -/
inductive BackgroundCase (s s' : State E R) : Act E → Prop
  | read {p : Poll} (h : readPoll env cfg s p = some s') : BackgroundCase s s' (.poll .read p)
  | onNotification {o : ℕ} {action : String} (h : onNotification s o action = some s') :
    BackgroundCase s s' (.onNotification o action)
  | onNotificationPoll {o : ℕ} {p : Poll} (h : onNotificationPoll s o p = some s') :
    BackgroundCase s s' (.poll (.onNotification o) p)
  | notificationHandlerPoll {o : ℕ} {p : Poll} (h : notificationHandlerPoll env s o p = some s') :
    BackgroundCase s s' (.poll (.notificationHandler o) p)
  | subscribe {i : ℕ} {b : Broadcast} (h : subscribe s i b = some s') :
    BackgroundCase s s' (.subscribe i b)
  | subscriberPoll {i : ℕ} {p : Poll} (h : subscriberPoll s i p = some s') :
    BackgroundCase s s' (.poll (.subscriber i) p)
  | other {a : Act E} (h : BackgroundFrame s s') : BackgroundCase s s' a

theorem background_pollTask {t : Task} {p : Poll} (hs : pollTask env cfg s t p = some s') :
    BackgroundCase env cfg s s' (.poll t p) := by
  cases t with
  | read => exact .read hs
  | onNotification o => exact .onNotificationPoll hs
  | notificationHandler o => exact .notificationHandlerPoll hs
  | subscriber i => exact .subscriberPoll hs
  | keepalive =>
    obtain ⟨_, _, _, _, _, _, _, rfl, -⟩ := keepalivePoll_footprint cfg hs
    exact .other ⟨rfl, rfl, rfl, rfl, rfl, rfl⟩
  | call c =>
    obtain ⟨_, _, _, _, _, _, rfl, -⟩ := callPoll_footprint env hs
    exact .other ⟨rfl, rfl, rfl, rfl, rfl, rfl⟩
  | ping p =>
    cases p with
    | user n =>
      obtain ⟨_, _, _, _, _, _, _, rfl, -⟩ := pingPoll_footprint hs
      exact .other ⟨rfl, rfl, rfl, rfl, rfl, rfl⟩
    | keepalive n =>
      obtain ⟨_, _, _, _, _, _, _, _, _, _, rfl, -⟩ := keepalivePingPoll_footprint cfg hs
      exact .other ⟨rfl, rfl, rfl, rfl, rfl, rfl⟩
  | notification n =>
    obtain ⟨_, _, _, _, rfl, -⟩ := notificationPoll_footprint hs
    exact .other ⟨rfl, rfl, rfl, rfl, rfl, rfl⟩
  | disconnect d =>
    obtain ⟨_, _, _, _, rfl, -⟩ := disconnectPoll_footprint hs
    exact .other ⟨rfl, rfl, rfl, rfl, rfl, rfl⟩
  | on o =>
    obtain ⟨_, _, _, rfl⟩ := onPoll_footprint hs
    exact .other ⟨rfl, rfl, rfl, rfl, rfl, rfl⟩
  | handler o =>
    obtain ⟨_, _, _, _, _, rfl, -⟩ := handlerPoll_footprint env hs
    exact .other ⟨rfl, rfl, rfl, rfl, rfl, rfl⟩
  | waitFor w =>
    obtain ⟨_, _, _, _, _, rfl, -⟩ := waitForPoll_footprint env hs
    exact .other ⟨rfl, rfl, rfl, rfl, rfl, rfl⟩

theorem background_cases {a : Act E} (hs : step env cfg s a = some s') :
    BackgroundCase env cfg s s' a := by
  cases a with
  | poll t p => exact background_pollTask env cfg hs
  | onNotification o action => exact .onNotification hs
  | subscribe i b => exact .subscribe hs
  | recv e =>
    obtain ⟨_, _, _, rfl, -⟩ := readRecv_footprint env cfg hs
    exact .other ⟨rfl, rfl, rfl, rfl, rfl, rfl⟩
  | call c action payload =>
    obtain ⟨_, _, rfl, -⟩ := doSendRequest_footprint env hs
    exact .other ⟨rfl, rfl, rfl, rfl, rfl, rfl⟩
  | dropCall c =>
    obtain ⟨_, _, _, rfl⟩ := callDrop_footprint hs
    exact .other ⟨rfl, rfl, rfl, rfl, rfl, rfl⟩
  | ping n =>
    obtain ⟨_, rfl⟩ := sendPing_footprint cfg hs
    exact .other ⟨rfl, rfl, rfl, rfl, rfl, rfl⟩
  | dropPing n =>
    obtain ⟨_, _, _, rfl⟩ := pingDrop_footprint hs
    exact .other ⟨rfl, rfl, rfl, rfl, rfl, rfl⟩
  | notify n action payload =>
    obtain ⟨_, _, rfl, -⟩ := sendNotification_footprint env hs
    exact .other ⟨rfl, rfl, rfl, rfl, rfl, rfl⟩
  | disconnect d =>
    obtain ⟨_, _, _, _, _, rfl, -⟩ := disconnect_footprint hs
    exact .other ⟨rfl, rfl, rfl, rfl, rfl, rfl⟩
  | forceReconnect =>
    obtain ⟨_, _, he, -⟩ := forceReconnect_footprint s
    cases hs
    rw [he]
    exact .other ⟨rfl, rfl, rfl, rfl, rfl, rfl⟩
  | setPingInterval i =>
    cases hs
    exact .other ⟨rfl, rfl, rfl, rfl, rfl, rfl⟩
  | on o action =>
    obtain ⟨_, rfl⟩ := on_footprint hs
    exact .other ⟨rfl, rfl, rfl, rfl, rfl, rfl⟩
  | respond o r =>
    obtain ⟨_, rfl⟩ := handlerRespond_footprint env hs
    exact .other ⟨rfl, rfl, rfl, rfl, rfl, rfl⟩
  | waitFor w action =>
    obtain ⟨_, rfl⟩ := waitFor_footprint hs
    exact .other ⟨rfl, rfl, rfl, rfl, rfl, rfl⟩
  | waitForRespond w r =>
    obtain ⟨_, rfl⟩ := waitForRespond_footprint env hs
    exact .other ⟨rfl, rfl, rfl, rfl, rfl, rfl⟩

/-- Only the read loop counts its dials and numbers the transports. -/
theorem counters_of_step {a : Act E} (hs : step env cfg s a = some s') :
    (∃ e, readRecv env cfg s e = some s') ∨ (∃ p, readPoll env cfg s p = some s')
      ∨ s'.attempt = s.attempt ∧ s'.nextSink = s.nextSink := by
  cases party_cases env cfg hs with
  | recv h => exact .inl ⟨_, h⟩
  | read h => exact .inr (.inl ⟨_, h⟩)
  | other h => exact .inr (.inr ⟨h.attempt, h.nextSink⟩)
  | notify h =>
    obtain ⟨_, _, rfl, -⟩ := sendNotification_footprint env h
    exact .inr (.inr ⟨rfl, rfl⟩)
  | notificationPoll h =>
    obtain ⟨_, _, _, _, rfl, -⟩ := notificationPoll_footprint h
    exact .inr (.inr ⟨rfl, rfl⟩)
  | handlers h =>
    obtain ⟨_, _, _, _, _, _, _, rfl, -⟩ := h.footprint
    exact .inr (.inr ⟨rfl, rfl⟩)

/-- A step of another task leaves the read loop where it is, and the transport it reads. -/
structure OtherFrame (s s' : State E R) : Prop where
  sink : s'.sink = s.sink
  read : s'.read = s.read
  stream : s'.stream = s.stream
  grows : Grows [.call, .raised, .closed, .ping, .escalated, .issued] s.hist s'.hist

/-- Such a step, if it is not one of a `disconnect`. -/
structure OpenFrame (s s' : State E R) : Prop extends OtherFrame s s' where
  closed : s'.closed = s.closed
  disconnects : s'.disconnects = s.disconnects
  wake : (s'.wake = s.wake ∧ Grows [.call, .ping, .escalated, .issued] s.hist s'.hist)
    ∨ Raises s s'.wake s'.hist

/-- A step of the client, as the read loop sees it. -/
inductive LoopCase (s s' : State E R) : Act E → Prop
  | recv {e : Option TransportEvent} (h : readRecv env cfg s e = some s') : LoopCase s s' (.recv e)
  | read {p : Poll} (h : readPoll env cfg s p = some s') : LoopCase s s' (.poll .read p)
  | disconnect {d : ℕ} (h : disconnect s d = some s') : LoopCase s s' (.disconnect d)
  | disconnectPoll {d : ℕ} {p : Poll} (h : disconnectPoll s d p = some s') :
    LoopCase s s' (.poll (.disconnect d) p)
  | other {a : Act E} (h : OpenFrame s s') : LoopCase s s' a

omit [ProtocolError E] in
/-- A step that leaves the wake signal alone. -/
theorem OpenFrame.quiet (hk : s'.sink = s.sink) (hr : s'.read = s.read) (ht : s'.stream = s.stream)
    (hc : s'.closed = s.closed) (hd : s'.disconnects = s.disconnects) (hw : s'.wake = s.wake)
    (hg : Grows [.call, .ping, .escalated, .issued] s.hist s'.hist) : OpenFrame s s' :=
  ⟨⟨hk, hr, ht, hg.mono (by simp)⟩, hc, hd, .inl ⟨hw, hg⟩⟩

omit [ProtocolError E] in
theorem OpenFrame.raises (hk : s'.sink = s.sink) (hr : s'.read = s.read) (ht : s'.stream = s.stream)
    (hc : s'.closed = s.closed) (hd : s'.disconnects = s.disconnects)
    (hw : Raises s s'.wake s'.hist) : OpenFrame s s' :=
  ⟨⟨hk, hr, ht, hw.grows.mono (by simp)⟩, hc, hd, .inr hw⟩

theorem loop_cases {a : Act E} (hs : step env cfg s a = some s') : LoopCase env cfg s s' a := by
  cases step_cases env cfg hs with
  | recv h => exact .recv h
  | read h => exact .read h
  | disconnectPoll h => exact .disconnectPoll h
  | disconnect h => exact .disconnect h
  | keepalive h =>
    obtain ⟨_, _, _, _, _, _, _, rfl, hr⟩ := keepalivePoll_footprint cfg h
    exact .other (.raises rfl rfl rfl rfl rfl hr)
  | keepalivePing h =>
    obtain ⟨_, _, _, _, _, _, _, _, _, _, rfl, hr⟩ := keepalivePingPoll_footprint cfg h
    exact .other (.raises rfl rfl rfl rfl rfl hr)
  | callPoll h =>
    obtain ⟨_, _, _, _, _, _, rfl, hg⟩ := callPoll_footprint env h
    exact .other (.quiet rfl rfl rfl rfl rfl rfl (hg.mono (by simp)))
  | pingPoll h =>
    obtain ⟨_, _, _, _, _, _, _, rfl, hg⟩ := pingPoll_footprint h
    exact .other (.quiet rfl rfl rfl rfl rfl rfl (hg.mono (by simp)))
  | call h =>
    obtain ⟨_, _, rfl, -⟩ := doSendRequest_footprint env h
    exact .other (.quiet rfl rfl rfl rfl rfl rfl (.refl _ _))
  | dropCall h =>
    obtain ⟨_, _, _, rfl⟩ := callDrop_footprint h
    exact .other (.quiet rfl rfl rfl rfl rfl rfl (.refl _ _))
  | ping h =>
    obtain ⟨_, rfl⟩ := sendPing_footprint cfg h
    exact .other (.quiet rfl rfl rfl rfl rfl rfl (.refl _ _))
  | dropPing h =>
    obtain ⟨_, _, _, rfl⟩ := pingDrop_footprint h
    exact .other (.quiet rfl rfl rfl rfl rfl rfl (.refl _ _))
  | forceReconnect h =>
    obtain ⟨_, _, he, hr⟩ := forceReconnect_footprint s
    subst h
    rw [he]
    exact .other (.raises rfl rfl rfl rfl rfl hr)
  | setPingInterval h =>
    subst h
    exact .other (.quiet rfl rfl rfl rfl rfl rfl (.refl _ _))
  | notificationPoll h =>
    obtain ⟨_, _, _, _, rfl, hg⟩ := notificationPoll_footprint h
    exact .other (.quiet rfl rfl rfl rfl rfl rfl (hg.mono (by simp)))
  | notify h =>
    obtain ⟨_, _, rfl, -⟩ := sendNotification_footprint env h
    exact .other (.quiet rfl rfl rfl rfl rfl rfl (.refl _ _))
  | handlers h =>
    obtain ⟨_, _, _, _, _, _, _, rfl, hg⟩ := h.footprint
    exact .other (.quiet rfl rfl rfl rfl rfl rfl (hg.mono (by simp)))
  | background h =>
    obtain ⟨_, _, _, _, _, _, rfl⟩ := h
    exact .other (.quiet rfl rfl rfl rfl rfl rfl (.refl _ _))

theorem LoopCase.elim {a : Act E} {C : Prop} (h : LoopCase env cfg s s' a)
    (hrecv : ∀ e, readRecv env cfg s e = some s' → C)
    (hread : ∀ p, readPoll env cfg s p = some s' → C) (hother : OtherFrame s s' → C) : C := by
  cases h with
  | recv h => exact hrecv _ h
  | read h => exact hread _ h
  | disconnect h =>
    obtain ⟨_, _, _, _, _, rfl, hg⟩ := disconnect_footprint h
    exact hother ⟨rfl, rfl, rfl, hg.mono (by simp)⟩
  | disconnectPoll h =>
    obtain ⟨_, _, _, _, rfl, hg⟩ := disconnectPoll_footprint h
    exact hother ⟨rfl, rfl, rfl, hg.mono (by simp)⟩
  | other h => exact hother h.toOtherFrame

end

end OcppClient
