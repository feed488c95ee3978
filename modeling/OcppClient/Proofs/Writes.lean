import OcppClient.Proofs.PingSteps

/-!
# Who writes what

Seven kinds of tasks operate on the sink, each from a lock of its own. A step issues at most one
operation, the one the polled task stands at the lock with, on the sink installed then.
-/

namespace OcppClient

open Transition

variable {E R : Type}

/-- What a task will call on the sink, once it has the sink's mutex. -/
def lockOp (s : State E R) : Task → Option SinkOp
  | .read =>
    match s.read with
    | .lockNotImplemented frame => some (.send frame)
    | .lockPong payload => some (.pong payload)
    | .lockClose => some .close
    | _ => none
  | .call c =>
    match s.calls c with
    | .lockSink _ _ frame => some (.send frame)
    | _ => none
  | .ping p =>
    match s.pings p with
    | .lockSink token _ => some (.ping (toBeBytes token))
    | _ => none
  | .notification n =>
    match s.sends n with
    | .lockSink frame => some (.send frame)
    | _ => none
  | .disconnect d =>
    match s.disconnects d with
    | .lockSink => some .close
    | _ => none
  | .handler o =>
    match s.handlers o with
    | .lockSink frame => some (.send frame)
    | _ => none
  | .waitFor w =>
    match s.waitFors w with
    | .lockSink _ _ frame => some (.send frame)
    | _ => none
  | _ => none

/-- Every kind of event but an operation on the sink. -/
def unissued : List Kind :=
  [.call, .handled, .loop, .passage, .raised, .closed, .ping, .escalated]

/-- What a step issues. -/
inductive Write (s s' : State E R) (a : Act E) : Prop
  | none (hg : Grows unissued s.hist s'.hist)
  | issue {t : Task} {op : SinkOp} (ha : a = .poll t .ready) (ht : lockOp s t = some op)
    (hk : s'.sink = s.sink) (h : s'.hist = s.hist ++ [.issued t s.sink op])

section Tasks

variable {s s' : State E R} {a : Act E} (env : Env R) (cfg : ClientConfig)

theorem Write.quiet (h : s'.hist = s.hist) : Write s s' a :=
  .none (h ▸ .refl _ _)

theorem Write.event {e : Event E} (h : s'.hist = s.hist ++ [e]) (he : e.kind ∈ unissued) :
    Write s s' a :=
  .none (h ▸ .snoc he)

theorem callPoll_write {c : ℕ} {p : Poll} (h : callPoll env s c p = some s') :
    Write s s' (.poll (.call c) p : Act E) := by
  unfold callPoll at h
  split at h
  case h_1 =>
    cases h
    exact .event rfl (by simp [unissued])
  case h_2 hc =>
    obtain ⟨-, rfl⟩ := issue_map h
    exact .issue rfl (by simp only [lockOp, hc]) rfl rfl
  case h_3 =>
    obtain ⟨-, rfl⟩ := pend_eq h
    exact .quiet rfl
  case h_4 | h_5 =>
    cases h
    exact .quiet rfl
  case h_6 =>
    unfold takeResponse at h
    split at h <;> cases h
    exact .event rfl (by simp [unissued])
  case h_7 =>
    split_ifs at h
    cases h
    exact .quiet rfl
  case h_8 =>
    cases h
    exact .event rfl (by simp [unissued])
  case h_9 => cases h

theorem PingMove.write {p : PingId} {poll : Poll} (h : PingMove p s s' poll) :
    Write s s' (.poll (.ping p) poll : Act E) := by
  cases h with
  | register _ h => exact .quiet (by rw [h])
  | acquire hp _ h => subst h; exact .issue rfl (by simp only [lockOp, hp]) rfl rfl
  | pend _ _ h => exact .quiet (by rw [h])
  | written _ h => subst h; exact .event rfl (by simp [unissued])
  | failed _ h => subst h; exact .quiet rfl
  | answered _ _ h => subst h; exact .event rfl (by simp [unissued])
  | expired _ _ h => subst h; exact .quiet rfl
  | missed _ h => subst h; exact .event rfl (by simp [unissued])

theorem countMiss_grows (s : State E R) (n : ℕ) :
    Grows [.escalated, .raised] s.hist (countMiss cfg s n).hist := by
  unfold countMiss State.forceReconnect
  simp only []
  split_ifs
  · exact .snoc (by simp)
  · exact (Grows.snoc (by simp)).trans (.snoc (by simp))
  · exact .refl _ _

theorem keepalivePing_write {n : ℕ} {p : Poll} {t : State E R}
    (hm : PingMove (.keepalive n) s t p) (ha : AfterPing cfg n t s') :
    Write s s' (.poll (.ping (.keepalive n)) p : Act E) := by
  cases ha with
  | inside _ h => exact h ▸ hm.write
  | answered _ _ h =>
    subst h
    cases hm.write with
    | none hg => exact .none hg
    | issue ha ht hk h => exact .issue ha ht hk h
  | missed hp _ h =>
    -- the ping has returned, so the poll was its last one
    cases hm with
    | missed _ ht =>
      subst h
      have hg : Grows unissued s.hist t.hist := ht ▸ .snoc (by simp [unissued])
      exact .none (hg.trans ((countMiss_grows cfg t n).mono (by simp [unissued])))
    | register _ ht | acquire _ _ ht | written _ ht | failed _ ht | answered _ _ ht
    | expired _ _ ht => simp [ht, State.setPing] at hp
    | pend hp' _ ht => simp [ht, hp'] at hp

theorem notificationPoll_write {n : ℕ} {p : Poll} (h : notificationPoll s n p = some s') :
    Write s s' (.poll (.notification n) p : Act E) := by
  unfold notificationPoll at h
  split at h
  case h_1 hp =>
    obtain ⟨-, rfl⟩ := issue_map h
    exact .issue rfl (by simp only [lockOp, hp]) rfl rfl
  case h_2 =>
    obtain ⟨-, rfl⟩ := pend_eq h
    exact .quiet rfl
  case h_3 =>
    cases h
    exact .quiet rfl
  case h_4 => cases h

theorem disconnectPoll_write {d : ℕ} {p : Poll} (h : disconnectPoll s d p = some s') :
    Write s s' (.poll (.disconnect d) p : Act E) := by
  unfold disconnectPoll at h
  split at h
  case h_1 hp =>
    obtain ⟨-, rfl⟩ := issue_map h
    exact .issue rfl (by simp only [lockOp, hp]) rfl rfl
  case h_2 =>
    obtain ⟨-, rfl⟩ := pend_eq h
    exact .quiet rfl
  case h_3 =>
    cases h
    exact .quiet rfl
  case h_4 => cases h

variable [ProtocolError E]

theorem handlerPoll_write {o : ℕ} {p : Poll} (h : handlerPoll env s o p = some s') :
    Write s s' (.poll (.handler o) p : Act E) := by
  unfold handlerPoll at h
  split at h
  case h_1 =>
    cases h
    unfold handlerRecv
    split <;> exact .quiet rfl
  case h_2 =>
    split_ifs at h
    cases h
    exact .quiet rfl
  case h_3 hp =>
    obtain ⟨-, rfl⟩ := issue_map h
    exact .issue rfl (by simp only [lockOp, hp]) rfl rfl
  case h_4 =>
    obtain ⟨-, rfl⟩ := pend_eq h
    exact .quiet rfl
  case h_5 =>
    cases h
    exact .quiet rfl
  case h_6 => cases h

omit [ProtocolError E] in
theorem waitForPoll_write {w : ℕ} {p : Poll} (h : waitForPoll env s w p = some s') :
    Write s s' (.poll (.waitFor w) p : Act E) := by
  unfold waitForPoll at h
  split at h
  case h_2 =>
    cases h
    unfold waitForRecv
    split <;> exact .quiet rfl
  case h_3 | h_4 =>
    split_ifs at h
    cases h
    exact .quiet rfl
  case h_5 hp =>
    obtain ⟨-, rfl⟩ := issue_map h
    exact .issue rfl (by simp only [lockOp, hp]) rfl rfl
  case h_6 =>
    obtain ⟨-, rfl⟩ := pend_eq h
    exact .quiet rfl
  case h_1 | h_7 | h_8 =>
    cases h
    exact .quiet rfl
  case h_9 => cases h

theorem HandlerCase.write (h : HandlerCase env s s' a) : Write s s' a := by
  cases h with
  | handlerPoll h => exact handlerPoll_write env h
  | waitForPoll h => exact waitForPoll_write env h
  | on h =>
    obtain ⟨_, rfl⟩ := on_footprint h
    exact .quiet rfl
  | onPoll h =>
    obtain ⟨_, _, _, rfl⟩ := onPoll_footprint h
    exact .quiet rfl
  | respond h =>
    obtain ⟨_, rfl⟩ := handlerRespond_footprint env h
    exact .quiet rfl
  | waitFor h =>
    obtain ⟨_, rfl⟩ := waitFor_footprint h
    exact .quiet rfl
  | waitForRespond h =>
    obtain ⟨_, rfl⟩ := waitForRespond_footprint env h
    exact .quiet rfl

omit [ProtocolError E] in
theorem Acquires.lockOp {op : SinkOp} {pc : ReadPc E} (h : Acquires s.read op pc) :
    OcppClient.lockOp s .read = some op := by
  generalize hr : s.read = rd at h
  cases h <;> simp only [OcppClient.lockOp, hr]

theorem readPoll_write {p : Poll} (hs : readPoll env cfg s p = some s') :
    Write s s' (.poll .read p : Act E) := by
  cases readPoll_moves env cfg hs with
  | acquire hr _ h =>
    subst h
    exact .issue rfl hr.lockOp rfl rfl
  | wake _ h =>
    obtain ⟨_, _, rfl, hg⟩ := readWoken_footprint cfg h
    exact .none (hg.mono (by simp [unissued]))
  | dial _ h =>
    obtain ⟨_, _, hb, hg⟩ := beginDial_footprint s
    rw [h, hb]
    exact .none (hg.mono (by simp [unissued]))
  | wokenDial _ _ h =>
    obtain ⟨_, _, hb, hg⟩ :=
      beginDial_footprint { s with wake := false, hist := s.hist ++ [.loop .woken] }
    rw [h, hb]
    exact .none ((Grows.snoc (by simp [unissued])).trans (hg.mono (by simp [unissued])))
  | pong _ h =>
    obtain ⟨_, _, _, hp, -⟩ := resolvePong_footprint s _
    rw [h, hp]
    exact .quiet rfl
  | resolve _ h | swap _ _ h | broadcast _ h =>
    subst h
    exact .event rfl (by simp [unissued])
  | lookup _ _ h | push _ h | pend _ _ h | release _ h | notify _ h | go _ h | clear _ h
  | backoff _ h | redial _ h | dialPend _ h | dialled _ h =>
    subst h
    exact .quiet rfl

/-- A step issues nothing, or the operation at whose lock the polled task stood. -/
theorem write_cases (hs : step env cfg s a = some s') : Write s s' a := by
  cases step_cases env cfg hs with
  | recv h =>
    obtain ⟨_, _, _, rfl, hg⟩ := readRecv_footprint env cfg h
    exact .none (hg.mono (by simp [unissued]))
  | read h => exact readPoll_write env cfg h
  | keepalive h =>
    cases keepalivePoll_moves h with
    | top _ _ _ h => exact .quiet (by rw [h])
    | ping _ _ h => exact .quiet (by rw [h])
  | keepalivePing h =>
    obtain ⟨-, t, hm, ha⟩ := keepalivePingPoll_moves h
    exact keepalivePing_write cfg hm ha
  | callPoll h => exact callPoll_write env h
  | pingPoll h => exact (pingPoll_moves h).write
  | notificationPoll h => exact notificationPoll_write h
  | disconnectPoll h => exact disconnectPoll_write h
  | handlers h => exact h.write env
  | call h =>
    obtain ⟨_, _, rfl, -⟩ := doSendRequest_footprint env h
    exact .quiet rfl
  | dropCall h =>
    obtain ⟨_, _, _, rfl⟩ := callDrop_footprint h
    exact .quiet rfl
  | ping h =>
    obtain ⟨_, rfl⟩ := sendPing_footprint cfg h
    exact .quiet rfl
  | dropPing h =>
    obtain ⟨_, _, _, rfl⟩ := pingDrop_footprint h
    exact .quiet rfl
  | notify h =>
    obtain ⟨_, _, rfl, -⟩ := sendNotification_footprint env h
    exact .quiet rfl
  | disconnect h =>
    obtain ⟨_, _, _, _, _, rfl, hg⟩ := disconnect_footprint h
    exact .none (hg.mono (by simp [unissued]))
  | forceReconnect h =>
    subst h
    unfold State.forceReconnect
    split_ifs
    · exact .quiet rfl
    · exact .event rfl (by simp [unissued])
  | setPingInterval h => exact .quiet (by rw [h]; rfl)
  | background h =>
    obtain ⟨_, _, _, _, _, _, rfl⟩ := h
    exact .quiet rfl

/-! ## What is received -/

/-- The history goes on without an event received. -/
def Unheard (h h' : List (Event E)) : Prop :=
  ∃ evs, h' = h ++ evs ∧ ∀ e, .loop (.received e) ∉ evs

omit [ProtocolError E] in
theorem Grows.unheard {ks : List Kind} {h h' : List (Event E)} (hg : Grows ks h h')
    (hl : .loop ∉ ks) : Unheard h h' := by
  obtain ⟨evs, rfl, hk⟩ := hg
  exact ⟨evs, rfl, fun e he => hl (hk _ he)⟩

omit [ProtocolError E] in
theorem Unheard.refl (h : List (Event E)) : Unheard h h := ⟨[], by simp, by simp⟩

omit [ProtocolError E] in
theorem Unheard.snoc {h : List (Event E)} {e : Event E} (he : ∀ x, e ≠ .loop (.received x)) :
    Unheard h (h ++ [e]) :=
  ⟨[e], rfl, fun x hx => he x (List.mem_singleton.1 hx).symm⟩

omit [ProtocolError E] in
theorem Unheard.trans {h h' h'' : List (Event E)} (h₁ : Unheard h h') (h₂ : Unheard h' h'') :
    Unheard h h'' := by
  obtain ⟨evs, rfl, hk⟩ := h₁
  obtain ⟨evs', rfl, hk'⟩ := h₂
  refine ⟨evs ++ evs', by simp, fun e he => ?_⟩
  exact (List.mem_append.1 he).elim (hk e) (hk' e)

omit [ProtocolError E] in
theorem beginDial_unheard (s : State E R) : Unheard s.hist (beginDial s).hist := by
  unfold beginDial
  split_ifs
  · exact .refl _
  · exact .snoc (by simp)

theorem readPoll_unheard {p : Poll} (hs : readPoll env cfg s p = some s') :
    Unheard s.hist s'.hist := by
  cases readPoll_moves env cfg hs with
  | wake _ h =>
    obtain ⟨_, _, rfl, hg⟩ := readWoken_footprint cfg h
    exact hg.unheard (by simp)
  | dial _ h => exact h ▸ beginDial_unheard s
  | wokenDial _ _ h => exact h ▸ (Unheard.snoc (by simp)).trans (beginDial_unheard _)
  | pong _ h =>
    obtain ⟨_, _, _, hp, -⟩ := resolvePong_footprint s _
    rw [h, hp]
    exact .refl _
  | resolve _ h | swap _ _ h | broadcast _ h | acquire _ _ h =>
    subst h
    exact .snoc (by simp)
  | lookup _ _ h | push _ h | pend _ _ h | release _ h | notify _ h | go _ h | clear _ h
  | backoff _ h | redial _ h | dialPend _ h | dialled _ h =>
    subst h
    exact .refl _

/-- A step receives nothing, or is the `recv` of the race. -/
theorem heard_cases (hs : step env cfg s a = some s') :
    Unheard s.hist s'.hist
      ∨ ∃ e, a = .recv (some e) ∧ s.read = .recv ∧ s' = handleEvent env s e := by
  cases loop_cases env cfg hs with
  | @recv e h =>
    unfold readRecv at h
    split at h
    case h_2 => cases h
    case h_1 hr =>
      cases e with
      | some e => exact .inr ⟨e, rfl, hr, (Option.some.inj h).symm⟩
      | none =>
        cases h
        exact .inl (.snoc (by simp))
  | read h => exact .inl (readPoll_unheard env cfg h)
  | disconnect h =>
    obtain ⟨_, _, _, _, _, rfl, hg⟩ := disconnect_footprint h
    exact .inl (hg.unheard (by simp))
  | disconnectPoll h =>
    obtain ⟨_, _, _, _, rfl, hg⟩ := disconnectPoll_footprint h
    exact .inl (hg.unheard (by simp))
  | other h => exact .inl (h.grows.unheard (by simp))

end Tasks

end OcppClient
