import OcppClient.Proofs.Calls
import OcppClient.Proofs.HandlerQueues
import OcppClient.Proofs.Passage
import OcppClient.Proofs.Writes

/-!
# Writes to a closed sink

A forced redial closes the sink and leaves it installed until the next transport is swapped in, and
`disconnect` leaves it for good. A request checks the flag before it waits for the sink, a handler
and the read loop do not check it, and nobody checks the sink. So nothing is written to a closed
sink only where nothing is on its way to a write when `close` is called, and nothing sets out before
the swap.
-/

namespace OcppClient

open Transition History

variable {E R : Type}

/-- Once `close` was called on a sink, nothing else is. -/
def NoWriteAfterClose (h : List (Event E)) : Prop :=
  Always (fun pre e => ∀ t k op, e = .issued t k op → op ≠ .close →
    ∀ t', .issued t' k .close ∉ pre) h

/-- The sink installed has been closed. -/
def SinkShut (s : State E R) : Prop := ∃ t, .issued t s.sink .close ∈ s.hist

/-! ## On the way to a write -/

def ReadPc.Answers : ReadPc E → Prop
  | .lockRequestSenders _ _ _ | .pushRequest _ _ _ | .lockNotImplemented _ | .notifyPing _
  | .lockPong _ => True
  | _ => False

def CallPc.Asks : CallPc E R → Prop
  | .lockPending _ _ _ | .lockSink _ _ _ => True
  | _ => False

def PingPc.Asks : PingPc E → Prop
  | .lockWaiters _ | .lockSink _ _ => True
  | _ => False

def NotificationPc.Asks : NotificationPc E → Prop
  | .lockSink _ => True
  | _ => False

def HandlerPc.Answers : HandlerPc → Prop
  | .callback _ | .lockSink _ => True
  | _ => False

def WaitForPc.Answers : WaitForPc E → Prop
  | .callback _ _ _ | .lockSink _ _ _ => True
  | _ => False

/-- Nothing is on its way to a write. -/
structure AtRest (s : State E R) : Prop where
  read : ¬ s.read.Answers
  calls : ∀ c, ¬ (s.calls c).Asks
  pings : ∀ p, ¬ (s.pings p).Asks
  sends : ∀ n, ¬ (s.sends n).Asks
  queues : ∀ ch, (s.requests.chans ch).queue = []
  handlers : ∀ o, ¬ (s.handlers o).Answers
  waitFors : ∀ w, ¬ (s.waitFors w).Answers

/-- `close` is called when nothing is on its way to a write, and while the sink installed is closed
no request, notification or ping is begun, unless the client is closed and refuses it, the keepalive
loop's timer does not run out, and no event comes from the stream. -/
def SparesClosed (s : State E R) : Act E → Prop
  | .poll .read _ => s.read = .lockClose → AtRest s
  | .poll (.disconnect d) _ => s.disconnects d = .lockSink → AtRest s
  | .call _ _ _ | .ping _ | .notify _ _ _ | .poll .keepalive .timer => SinkShut s → s.closed = true
  | .recv (some _) => ¬ SinkShut s
  | _ => True

section Rest

variable {s s' : State E R} (env : Env R) (cfg : ClientConfig)

/-- At rest, a task that waits for the sink is about to close it. -/
theorem AtRest.close_of_lockOp (hR : AtRest s) {t : Task} {op : SinkOp}
    (h : lockOp s t = some op) : op = .close := by
  unfold lockOp at h
  split at h
  case h_1 =>
    split at h
    · next hp => exact absurd (by rw [hp]; trivial) hR.read
    · next hp => exact absurd (by rw [hp]; trivial) hR.read
    · exact (Option.some.inj h).symm
    · cases h
  case h_5 =>
    split at h
    · exact (Option.some.inj h).symm
    · cases h
  case h_2 c =>
    split at h
    · next hp => exact absurd (by rw [hp]; trivial) (hR.calls c)
    · cases h
  case h_3 p =>
    split at h
    · next hp => exact absurd (by rw [hp]; trivial) (hR.pings p)
    · cases h
  case h_4 n =>
    split at h
    · next hp => exact absurd (by rw [hp]; trivial) (hR.sends n)
    · cases h
  case h_6 o =>
    split at h
    · next hp => exact absurd (by rw [hp]; trivial) (hR.handlers o)
    · cases h
  case h_7 w =>
    split at h
    · next hp => exact absurd (by rw [hp]; trivial) (hR.waitFors w)
    · cases h
  case h_8 => cases h

/-! ## Nothing sets out -/

/-- One of the futures of a kind moves, and none is where `P` says. -/
theorem not_update {ι α : Type*} [DecidableEq ι] {f : ι → α} {P : α → Prop} (hf : ∀ i, ¬ P (f i))
    {i : ι} {x : α} (hx : ¬ P x) (j : ι) : ¬ P (Function.update f i x j) := by
  rcases eq_or_ne j i with rfl | hne
  · rwa [Function.update_self]
  · rw [Function.update_of_ne hne]
    exact hf j

theorem leave_answers (s : State E R) (reason : LoopExit) :
    ¬ (leave cfg s reason).read.Answers := by
  unfold leave
  simp only []
  split_ifs <;> exact id

theorem beginDial_answers (s : State E R) : ¬ (beginDial s).read.Answers := by
  unfold beginDial
  split_ifs <;> exact id

theorem Acquires.answers {pc pc' : ReadPc E} {op : SinkOp} (h : Acquires pc op pc') :
    ¬ pc'.Answers := by
  cases h <;> exact id

theorem Releases.answers {pc pc' : ReadPc E} (h : Releases pc pc') : ¬ pc'.Answers := by
  cases h <;> exact id

theorem Steers.answers {pc pc' : ReadPc E} (h : Steers pc pc') (hpc : ¬ pc.Answers) :
    ¬ pc'.Answers := by
  cases h with
  | refused | unanswered => exact absurd trivial hpc
  | notification | unheard | pushed => exact id

theorem ReadMove.answers {p : Poll} (h : ReadMove env cfg s s' p) (hr : ¬ s.read.Answers) :
    ¬ s'.read.Answers := by
  cases h with
  | wake _ h =>
    unfold readWoken at h
    split_ifs at h <;> cases h
    · exact leave_answers cfg _ _
    · exact leave_answers cfg _ _
    · exact hr
  | dial _ h => exact h ▸ beginDial_answers s
  | wokenDial _ _ h => exact h ▸ beginDial_answers _
  | pong _ h =>
    rw [h, resolvePong_read]
    exact id
  | acquire ha _ h =>
    subst h
    exact ha.answers
  | release ha h =>
    subst h
    exact ha.answers
  | pend _ _ h =>
    subst h
    exact hr
  | go ha h =>
    subst h
    exact ha.answers hr
  | lookup hp _ _ | push hp _ | notify hp _ => exact absurd (by rw [hp]; trivial) hr
  | resolve _ h | clear _ h | backoff _ h | redial _ h | dialPend _ h | dialled _ h | swap _ _ h
  | broadcast _ h =>
    subst h
    exact id

theorem callPoll_asks (hR : ∀ c, ¬ (s.calls c).Asks) {c : ℕ} {p : Poll}
    (h : callPoll env s c p = some s') (c' : ℕ) : ¬ (s'.calls c').Asks := by
  cases callPoll_moves env h with
  | register hc _ => exact absurd (by rw [hc]; trivial) (hR c)
  | go _ _ hc _ _ hpc =>
    rw [hc]
    refine not_update hR ?_ c'
    rcases hpc with ⟨_, _, _, -, rfl⟩ | ⟨_, _, -, rfl | rfl | ⟨_, rfl⟩⟩ | ⟨_, _, -, rfl⟩ <;>
      exact id
  | take _ _ h | forget _ h =>
    subst h
    exact not_update hR id c'

theorem PingMove.asks {p : PingId} {poll : Poll} (h : PingMove p s s' poll)
    (hR : ∀ p, ¬ (s.pings p).Asks) (q : PingId) : ¬ (s'.pings q).Asks := by
  cases h with
  | register hp _ | acquire hp _ _ => exact absurd (by rw [hp]; trivial) (hR p)
  | pend _ _ h =>
    subst h
    exact hR q
  | written _ h | failed _ h | answered _ _ h | expired _ _ h | missed _ h =>
    subst h
    exact not_update hR id q

theorem notificationPoll_asks (hR : ∀ n, ¬ (s.sends n).Asks) {n : ℕ} {p : Poll}
    (h : notificationPoll s n p = some s') (m : ℕ) : ¬ (s'.sends m).Asks := by
  unfold notificationPoll at h
  split at h
  case h_1 hp => exact absurd (by rw [hp]; trivial) (hR n)
  case h_2 =>
    obtain ⟨-, rfl⟩ := pend_eq h
    exact hR m
  case h_3 =>
    cases h
    exact not_update hR id m
  case h_4 => cases h

/-- A step that is not one of the registrations and leaves every queue empty. -/
theorem AtRest.queues_modify (hR : AtRest s) {ch : ChanId}
    {f : Chan (String × Value) → Chan (String × Value)} (hf : (f (s.requests.chans ch)).queue = [])
    (x : ChanId) : ((s.requests.modify ch f).chans x).queue = [] := by
  rw [Registry.modify_chans]
  split_ifs with hx
  · rw [hx, hf]
  · exact hR.queues x

theorem recv_of_empty {c : Chan (String × Value)} (hc : c.queue = [])
    {v : String × Value} {rest : Chan (String × Value)} : c.recv ≠ .value v rest := by
  rw [Chan.recv, hc]
  simp only []
  split_ifs <;> simp

variable [ProtocolError E]

theorem handlerPoll_atRest (hR : AtRest s) {o : ℕ} {p : Poll}
    (h : handlerPoll env s o p = some s') : AtRest s' := by
  unfold handlerPoll at h
  split at h
  case h_1 =>
    cases h
    unfold handlerRecv
    split
    · next hv => exact absurd hv (recv_of_empty (hR.queues _))
    · exact { hR with handlers := not_update hR.handlers id }
    · exact { hR with handlers := not_update hR.handlers id }
  case h_2 =>
    split_ifs at h
    cases h
    exact { hR with
      queues := hR.queues_modify (hR.queues _)
      handlers := not_update hR.handlers id }
  case h_3 hp => exact absurd (by rw [hp]; trivial) (hR.handlers o)
  case h_4 =>
    obtain ⟨-, rfl⟩ := pend_eq h
    exact { hR with }
  case h_5 =>
    cases h
    exact { hR with handlers := not_update hR.handlers id }
  case h_6 => cases h

omit [ProtocolError E] in
theorem waitForPoll_atRest (hR : AtRest s) {w : ℕ} {p : Poll}
    (h : waitForPoll env s w p = some s') : AtRest s' := by
  unfold waitForPoll at h
  split at h
  case h_1 =>
    cases h
    exact { hR with
      queues := fun x => (Registry.insert_queue _ _ x).trans (hR.queues x)
      waitFors := not_update hR.waitFors id }
  case h_2 =>
    cases h
    unfold waitForRecv
    split
    · next hv => exact absurd hv (recv_of_empty (hR.queues _))
    · exact { hR with waitFors := not_update hR.waitFors id }
    · exact { hR with waitFors := not_update hR.waitFors id }
  case h_3 =>
    split_ifs at h
    cases h
    exact { hR with
      queues := hR.queues_modify (hR.queues _)
      waitFors := not_update hR.waitFors id }
  case h_4 =>
    split_ifs at h
    cases h
    exact { hR with waitFors := not_update hR.waitFors id }
  case h_5 hp => exact absurd (by rw [hp]; trivial) (hR.waitFors w)
  case h_6 =>
    obtain ⟨-, rfl⟩ := pend_eq h
    exact { hR with }
  case h_7 =>
    cases h
    exact { hR with waitFors := not_update hR.waitFors id }
  case h_8 =>
    cases h
    refine { hR with queues := fun x => ?_, waitFors := not_update hR.waitFors id }
    simp only [State.setWaitFor, Registry.removeOwn_chans]
    exact hR.queues x
  case h_9 => cases h

/-- The handlers at rest: no CALL is queued, and none is in hand. -/
theorem HandlerCase.atRest {a : Act E} (h : HandlerCase env s s' a) (hR : AtRest s) :
    AtRest s' := by
  cases h with
  | handlerPoll h => exact handlerPoll_atRest env hR h
  | waitForPoll h => exact waitForPoll_atRest env hR h
  | on h =>
    obtain ⟨_, rfl⟩ := on_footprint h
    exact { hR with }
  | onPoll h =>
    unfold OcppClient.onPoll at h
    split at h <;> cases h
    exact { hR with
      queues := fun x => (Registry.insert_queue _ _ x).trans (hR.queues x)
      handlers := not_update hR.handlers id }
  | @respond o r h =>
    unfold handlerRespond at h
    split at h <;> cases h
    next hp => exact absurd (by rw [hp]; trivial) (hR.handlers o)
  | waitFor h =>
    unfold OcppClient.waitFor at h
    split at h <;> cases h
    exact { hR with waitFors := not_update hR.waitFors id }
  | @waitForRespond w r h =>
    unfold OcppClient.waitForRespond at h
    split at h
    · next hp => exact absurd (by rw [hp]; trivial) (hR.waitFors w)
    · cases h

theorem readPoll_atRest (hR : AtRest s) {p : Poll} (h : readPoll env cfg s p = some s') :
    AtRest s' := by
  have hf := readPoll_frame env cfg h
  have hread := (readPoll_moves env cfg h).answers env cfg hR.read
  rcases hf.requests with hq | ⟨ch, id, payload, hr, -⟩
  · exact ⟨hread, hf.calls ▸ hR.calls, hf.pings ▸ hR.pings, hf.sends ▸ hR.sends, hq ▸ hR.queues,
      hf.handlers ▸ hR.handlers, hf.waitFors ▸ hR.waitFors⟩
  · exact absurd (by rw [hr]; trivial) hR.read

omit [ProtocolError E] in
/-- The keepalive loop begins a ping where its timer has run out. -/
theorem keepalivePoll_timer {p : Poll} (h : keepalivePoll cfg s p = some s') {n : ℕ}
    (hn : s'.keepalive = .pinging n) : p = .timer := by
  unfold keepalivePoll at h
  split at h
  case h_1 =>
    cases h
    exact absurd hn (keepaliveTop_ne s n)
  case h_2 | h_3 =>
    split_ifs at h
    cases h
    exact absurd hn (keepaliveTop_ne _ n)
  case h_4 => rfl
  case h_5 => cases h

/-- The acts that may set out to write. -/
def Act.Starts : Act E → Prop
  | .call _ _ _ | .ping _ | .notify _ _ _ | .poll .keepalive .timer => True
  | _ => False

/-- At rest, only a call, a ping, a notification or an event makes something set out. -/
theorem AtRest.step (hR : AtRest s) {a : Act E} (hs : step env cfg s a = some s')
    (hstart : a.Starts → s.closed = true) (hrecv : ∀ e, a ≠ .recv (some e)) : AtRest s' := by
  cases step_cases env cfg hs with
  | @recv e h =>
    cases e with
    | some e => exact absurd rfl (hrecv e)
    | none =>
      unfold readRecv at h
      split at h <;> cases h
      exact { hR with read := leave_answers cfg s .eof }
  | read h => exact readPoll_atRest env cfg hR h
  | keepalive h =>
    cases keepalivePoll_moves h with
    | top _ _ _ h =>
      subst h
      exact { hR with }
    | ping _ hc he =>
      obtain rfl := keepalivePoll_timer cfg h (n := s.keepalivePings) (by rw [he])
      rw [hstart trivial] at hc
      cases hc
  | keepalivePing h =>
    obtain ⟨-, t, hm, ha⟩ := keepalivePingPoll_moves h
    have hp := hm.asks hR.pings
    obtain ⟨_, _, _, _, _, _, _, _, _, _, rfl, -⟩ := keepalivePingPoll_footprint cfg h
    rw [← ha.frame.1] at hp
    exact { hR with pings := hp }
  | callPoll h =>
    have hc := callPoll_asks env hR.calls h
    obtain ⟨_, _, _, _, _, _, rfl, -⟩ := callPoll_footprint env h
    exact { hR with calls := hc }
  | pingPoll h =>
    have hp := (pingPoll_moves h).asks hR.pings
    obtain ⟨_, _, _, _, _, _, _, rfl, -⟩ := pingPoll_footprint h
    exact { hR with pings := hp }
  | notificationPoll h =>
    have hn := notificationPoll_asks hR.sends h
    obtain ⟨_, _, _, _, rfl, -⟩ := notificationPoll_footprint h
    exact { hR with sends := hn }
  | disconnectPoll h =>
    obtain ⟨_, _, _, _, rfl, -⟩ := disconnectPoll_footprint h
    exact { hR with }
  | handlers h => exact h.atRest env hR
  | call h =>
    unfold doSendRequest at h
    rw [hstart trivial, if_pos rfl] at h
    split at h <;> cases h
    exact { hR with calls := not_update hR.calls id }
  | dropCall h =>
    have hc := callDrop_calls h
    obtain ⟨_, _, _, rfl⟩ := callDrop_footprint h
    exact { hR with calls := hc ▸ not_update hR.calls id }
  | ping h =>
    unfold sendPing sendPingWithTimeout at h
    rw [hstart trivial, if_pos rfl] at h
    split at h <;> cases h
    exact { hR with pings := not_update hR.pings id }
  | dropPing h =>
    have hp := pingDrop_pings h
    obtain ⟨_, _, _, rfl⟩ := pingDrop_footprint h
    exact { hR with pings := hp ▸ not_update hR.pings id }
  | notify h =>
    unfold sendNotification at h
    rw [hstart trivial, if_pos rfl] at h
    split at h <;> cases h
    exact { hR with sends := not_update hR.sends id }
  | disconnect h =>
    obtain ⟨_, _, _, _, _, rfl, -⟩ := disconnect_footprint h
    exact { hR with }
  | forceReconnect h =>
    obtain ⟨_, _, he, -⟩ := forceReconnect_footprint s
    rw [h, he]
    exact { hR with }
  | setPingInterval h =>
    subst h
    exact { hR with }
  | background h =>
    obtain ⟨_, _, _, _, _, _, rfl⟩ := h
    exact { hR with }

/-! ## Runs -/

structure RestInv (s : State E R) : Prop where
  rest : SinkShut s → AtRest s
  sinks : ∀ t k op, .issued t k op ∈ s.hist → k ≤ s.sink
  writes : NoWriteAfterClose s.hist

omit [ProtocolError E] in
theorem kind_of_unissued {e : Event E} {t : Task} {k : SinkId} {op : SinkOp}
    (h : e.kind ∈ unissued) : e ≠ .issued t k op := by
  rintro rfl
  simp [unissued] at h

/-- While the sink is closed the condition keeps everything at rest. -/
theorem SparesClosed.atRest {a : Act E} (ha : SparesClosed s a) (hk : SinkShut s) (hR : AtRest s)
    (hs : step env cfg s a = some s') : AtRest s' := by
  refine hR.step env cfg hs (fun hstart => ?_) fun e he => ?_
  · unfold Act.Starts at hstart
    split at hstart
    · exact ha hk
    · exact ha hk
    · exact ha hk
    · exact ha hk
    · exact hstart.elim
  · subst he
    exact ha hk

omit [ProtocolError E] in
/-- A task that is about to close the sink finds everything at rest. -/
theorem SparesClosed.rest {t : Task} (ha : SparesClosed s (.poll t .ready : Act E))
    (ht : lockOp s t = some .close) : AtRest s := by
  unfold lockOp at ht
  split at ht
  case h_1 =>
    split at ht
    · simp at ht
    · simp at ht
    · next hr => exact ha hr
    · cases ht
  case h_5 =>
    split at ht
    · next hd => exact ha hd
    · cases ht
  all_goals
    first
      | cases ht
      | split at ht <;> simp at ht

theorem restInv_step (hI : Installed s) (hS : RestInv s) {a : Act E} (ha : SparesClosed s a)
    (hs : step env cfg s a = some s') : RestInv s' := by
  cases write_cases env cfg hs with
  | none hg =>
    have hmem : ∀ {t k op}, .issued t k op ∈ s'.hist → .issued t k op ∈ s.hist := fun h =>
      hg.of_mem h (by simp [unissued])
    refine ⟨?_, fun t k op h => ?_, ?_⟩
    · rintro ⟨t, ht⟩
      rcases sink_of_step env cfg hI hs with hk | hk
      · rw [hk] at ht
        exact ha.atRest env cfg ⟨t, hmem ht⟩ (hS.rest ⟨t, hmem ht⟩) hs
      · exact absurd (hS.sinks _ _ _ (hmem ht)) (Nat.not_le.2 hk)
    · rcases sink_of_step env cfg hI hs with hk | hk
      · exact hk ▸ hS.sinks t k op (hmem h)
      · exact Nat.le_trans (hS.sinks t k op (hmem h)) (Nat.le_of_lt hk)
    · exact hg.always hS.writes fun e he pre t k op h => absurd h (kind_of_unissued he)
  | @issue t op hact hop hk h =>
    subst hact
    -- on a closed sink nothing but `close` is called
    have hshut : op ≠ .close → ¬ SinkShut s :=
      fun hne hsh => hne ((hS.rest hsh).close_of_lockOp hop)
    refine ⟨fun hsh => ?_, fun t' k op' hm => ?_, ?_⟩
    · have hR : AtRest s := by
        by_cases hop' : op = .close
        · subst hop'
          exact ha.rest hop
        · obtain ⟨t', ht'⟩ := hsh
          rw [hk, h, List.mem_append, List.mem_singleton, Event.issued.injEq] at ht'
          rcases ht' with ht' | ⟨-, -, ht'⟩
          · exact absurd ⟨t', ht'⟩ (hshut hop')
          · exact absurd ht'.symm hop'
      refine hR.step env cfg hs (fun hstart => ?_) (by simp)
      cases t <;> exact hstart.elim
    · rw [h, List.mem_append, List.mem_singleton, Event.issued.injEq] at hm
      rw [hk]
      rcases hm with hm | ⟨-, rfl, -⟩
      · exact hS.sinks t' k op' hm
      · exact Nat.le_refl _
    · rw [h]
      refine hS.writes.snoc fun t₁ k₁ op₁ he hne t' ht' => ?_
      rw [Event.issued.injEq] at he
      obtain ⟨-, rfl, rfl⟩ := he
      exact hshut hne ⟨t', ht'⟩

/-- In every run that spares closed sinks, nothing is written to one. -/
theorem noWriteAfterClose_of_sparesClosed (h : Machine.Reach (client env cfg) SparesClosed s) :
    NoWriteAfterClose s.hist := by
  have hI : RestInv s := by
    refine h.invariant ⟨?_, ?_, .nil⟩ fun s a s' hr ha hs hI =>
      restInv_step env cfg (installed_of_reach env cfg hr) hI ha hs
    · rintro ⟨t, ht⟩
      simp [client, State.new] at ht
    · simp [client, State.new]
  exact hI.writes

end Rest

/-- A forced redial, with a request once the next sink is installed. -/
def callAfterSwap : List (Act WireError) :=
  [.forceReconnect, .poll .read .ready, .poll .read .ready, .poll .read (.done (.ok ())),
    .poll .read .ready, .poll .read .timer, .poll .read (.done (.ok ())), .poll .read .ready,
    .call 0 "A" (.ok .null), .poll (.call 0) .ready, .poll (.call 0) .ready]

theorem noWriteAfterClose_of_callAfterSwap :
    ∃ s, scenario.run scenario.init callAfterSwap = some s
      ∧ s.hist = [.loop (.raised 0), .loop (.exit .forced 0), .issued .read 0 .close,
        .loop .dialing, .loop (.swapped 1), .call (.registered 0 (uuidV4 1) "A"),
        .issued (.call 0) 1 (.send secondCall)]
      ∧ NoWriteAfterClose s.hist := by
  refine ⟨_, rfl, by decide +kernel, noWriteAfterClose_of_sparesClosed scenarioEnv scenarioConfig
    (Machine.reach_of_run (M := scenario) callAfterSwap .init ?_ rfl)⟩
  refine ⟨trivial, nofun, fun _ => ⟨id, fun _ => id, fun _ => id, fun _ => id, fun _ => rfl,
    fun _ => id, fun _ => id⟩, nofun, nofun, nofun, nofun, nofun, ?_, trivial, trivial, trivial⟩
  rintro ⟨t, ht⟩
  have ht : .issued t 1 .close ∈ ([.loop (.raised 0), .loop (.exit .forced 0),
    .issued .read 0 .close, .loop .dialing, .loop (.swapped 1)] : List (Event WireError)) := ht
  simp at ht

/-- A request during the backoff that follows the courtesy close. -/
def callInBackoff : List (Act WireError) :=
  [.forceReconnect, .poll .read .ready, .poll .read .ready, .poll .read (.done (.ok ())),
    .poll .read .ready, .call 0 "A" (.ok .null), .poll (.call 0) .ready, .poll (.call 0) .ready]

theorem callInBackoff_written :
    ∃ s, scenario.run scenario.init callInBackoff = some s
      ∧ s.hist = [.loop (.raised 0), .loop (.exit .forced 0), .issued .read 0 .close,
        .call (.registered 0 (uuidV4 1) "A"), .issued (.call 0) 0 (.send secondCall)]
      ∧ ¬ NoWriteAfterClose s.hist := by
  refine ⟨_, rfl, by decide +kernel, fun h => ?_⟩
  exact h [.loop (.raised 0), .loop (.exit .forced 0), .issued .read 0 .close,
    .call (.registered 0 (uuidV4 1) "A")] _ [] rfl (.call 0) 0 _ rfl (by simp) .read (by simp)

end OcppClient
