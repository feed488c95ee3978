import OcppClient.Proofs.ReadSteps

/-!
# What `force_reconnect` leaves behind

On an open client `force_reconnect` sets the wake signal and nothing else. `muted` is a state
without that signal, and without the notes of its being set and taken. A step other than a wait on
the signal does to a muted state what it does to the state, one function after the other.
-/

namespace OcppClient

variable {E R : Type}

def Event.audible : Event E → Bool
  | .loop (.raised _) => false
  | .loop .woken => false
  | _ => true

/-- The state but for a signal set on an open client. -/
@[simps]
def State.muted (s : State E R) : State E R :=
  { s with wake := s.wake && s.closed, hist := s.hist.filter Event.audible }

theorem muted_muted (s : State E R) : s.muted.muted = s.muted := by
  simp [State.muted]

theorem map_muted_muted (o : Option (State E R)) :
    (o.map State.muted).map State.muted = o.map State.muted := by
  cases o with
  | none => rfl
  | some s => exact congrArg some (muted_muted s)

/-- An open client before and after `force_reconnect`, or a closed one, on which it does nothing. -/
theorem forceReconnect_muted (s : State E R) : s.forceReconnect.muted = s.muted := by
  unfold State.forceReconnect
  split_ifs with hc
  · rfl
  · simp [State.muted, hc, Event.audible]

variable (env : Env R) (cfg : ClientConfig) (s : State E R)

/-! ## The sink's mutex -/

theorem issue_muted (t : Task) (op : SinkOp) :
    s.muted.issue t op = (s.issue t op).map State.muted := by
  unfold State.issue
  simp only [State.muted_holder]
  split_ifs
  · simp only [Option.map_some, State.muted, List.filter_append]
    rfl
  · rfl

theorem issue_map_muted (t : Task) (op : SinkOp) {f : State E R → State E R}
    (hf : ∀ s, f s.muted = (f s).muted) :
    (s.muted.issue t op).map f = ((s.issue t op).map f).map State.muted := by
  rw [issue_muted, Option.map_map, Option.map_map]
  exact congrArg (Option.map · _) (funext hf)

theorem pend_muted : s.muted.pend = s.pend.map State.muted := by
  unfold State.pend
  simp only [State.muted_pended]
  split_ifs <;> rfl

/-! ## Requests -/

theorem callPoll_muted (c : ℕ) (p : Poll) :
    callPoll env s.muted c p = (callPoll env s c p).map State.muted := by
  unfold callPoll
  simp only [State.muted_calls, State.muted_responses]
  split
  · simp only [Option.map_some, State.muted, List.filter_append]
    rfl
  · exact issue_map_muted s _ _ fun _ => rfl
  · exact pend_muted s
  · rfl
  · rfl
  · unfold takeResponse
    simp only [State.muted_responses]
    split
    · simp only [Option.map_some, State.muted, List.filter_append]
      rfl
    · rfl
  · split_ifs <;> rfl
  · simp only [Option.map_some, State.muted, List.filter_append]
    rfl
  · rfl

theorem doSendRequest_muted (c : ℕ) (action : String) (payload : Except JsonError Value) :
    doSendRequest env s.muted c action payload
      = (doSendRequest env s c action payload).map State.muted := by
  unfold doSendRequest
  simp only [State.muted_calls, State.muted_closed, State.muted_draws]
  split
  · split_ifs
    · rfl
    · split <;> rfl
  · rfl

theorem callDrop_muted (c : ℕ) : callDrop s.muted c = (callDrop s c).map State.muted := by
  unfold callDrop
  simp only [State.muted_calls]
  split <;> rfl

theorem sendNotification_muted (n : ℕ) (action : String) (payload : Except JsonError Value) :
    sendNotification env s.muted n action payload
      = (sendNotification env s n action payload).map State.muted := by
  unfold sendNotification
  simp only [State.muted_sends, State.muted_closed, State.muted_draws]
  split
  · split_ifs
    · rfl
    · split <;> rfl
  · rfl

theorem notificationPoll_muted (n : ℕ) (p : Poll) :
    notificationPoll s.muted n p = (notificationPoll s n p).map State.muted := by
  unfold notificationPoll
  simp only [State.muted_sends]
  split
  · exact issue_map_muted s _ _ fun _ => rfl
  · exact pend_muted s
  · rfl
  · rfl

/-- The signal that `disconnect` sets stays, with the flag it sets first. -/
theorem disconnect_muted (d : ℕ) : disconnect s.muted d = (disconnect s d).map State.muted := by
  unfold disconnect
  simp only [State.muted_disconnects, State.muted_closed]
  split
  · split_ifs
    · rfl
    · simp only [Option.map_some, State.muted, List.filter_append]
      rfl
  · rfl

theorem disconnectPoll_muted (d : ℕ) (p : Poll) :
    disconnectPoll s.muted d p = (disconnectPoll s d p).map State.muted := by
  unfold disconnectPoll
  simp only [State.muted_disconnects]
  split
  · exact issue_map_muted s _ _ fun _ => rfl
  · exact pend_muted s
  · rfl
  · rfl

/-! ## Pings -/

theorem sendPingWithTimeout_muted (q : PingId) (timeout : Duration) :
    sendPingWithTimeout s.muted q timeout = (sendPingWithTimeout s q timeout).muted := by
  unfold sendPingWithTimeout
  simp only [State.muted_closed]
  split_ifs <;> rfl

theorem sendPing_muted (n : ℕ) : sendPing cfg s.muted n = (sendPing cfg s n).map State.muted := by
  unfold sendPing
  simp only [State.muted_pings, sendPingWithTimeout_muted]
  split <;> rfl

theorem pingPoll_muted (q : PingId) (p : Poll) :
    pingPoll s.muted q p = (pingPoll s q p).map State.muted := by
  unfold pingPoll
  simp only [State.muted_pings, State.muted_pongs]
  split
  · rfl
  · exact issue_map_muted s _ _ fun _ => rfl
  · exact pend_muted s
  · simp only [Option.map_some, State.muted, State.release, List.filter_append]
    rfl
  · rfl
  · split_ifs
    · simp only [Option.map_some, State.muted, List.filter_append]
      rfl
    · rfl
  · split_ifs <;> rfl
  · simp only [Option.map_some, State.muted, List.filter_append]
    rfl
  · rfl

theorem pingDrop_muted (n : ℕ) : pingDrop s.muted n = (pingDrop s n).map State.muted := by
  unfold pingDrop
  simp only [State.muted_pings]
  split <;> rfl

/-- `keepalive_loop` gives the connection up, to no effect but the signal. -/
theorem countMiss_muted (n : ℕ) : (countMiss cfg s.muted n).muted = (countMiss cfg s n).muted := by
  unfold countMiss
  simp only [State.muted_missed]
  split_ifs
  · have h : ({ s.muted with
        missed := 0, hist := s.muted.hist ++ [.ping (.escalated n s.sink)] } : State E R)
        = State.muted { s with
          missed := 0, hist := s.hist ++ [.ping (.escalated n s.sink)] } := by
      simp only [State.muted, List.filter_append]
      rfl
    rw [forceReconnect_muted, forceReconnect_muted]
    exact (congrArg State.muted h).trans (muted_muted _)
  · exact muted_muted { s with missed := saturatingSucc s.missed }

theorem afterPing_muted (n : ℕ) : (afterPing cfg s.muted n).muted = (afterPing cfg s n).muted := by
  unfold afterPing
  simp only [State.muted_pings]
  split
  · exact muted_muted (keepaliveTop { s with missed := 0 })
  · exact congrArg keepaliveTop (countMiss_muted cfg s n)
  · exact muted_muted s

theorem beginPing_muted : (beginPing cfg s.muted).muted = (beginPing cfg s).muted := by
  unfold beginPing
  simp only [State.muted_closed, State.muted_intervalMillis, State.muted_keepalivePings]
  split_ifs with hc hi
  · exact muted_muted { s with keepalive := .exited }
  · exact muted_muted (keepaliveTop s)
  · have h := sendPingWithTimeout_muted { s with
      keepalivePings := s.keepalivePings + 1, keepalive := .pinging s.keepalivePings }
      (.keepalive s.keepalivePings) cfg.pingTimeout
    exact (congrArg (fun u => (afterPing cfg u s.keepalivePings).muted) h).trans
      (afterPing_muted cfg _ _)

theorem keepalivePoll_muted (p : Poll) :
    (keepalivePoll cfg s.muted p).map State.muted = (keepalivePoll cfg s p).map State.muted := by
  unfold keepalivePoll
  simp only [State.muted_keepalive, State.muted_changed]
  split
  · exact congrArg some (muted_muted (keepaliveTop s))
  · split_ifs
    · exact congrArg some (muted_muted (keepaliveTop { s with changed := false, missed := 0 }))
    · rfl
  · split_ifs
    · exact congrArg some (muted_muted (keepaliveTop { s with changed := false, missed := 0 }))
    · rfl
  · split_ifs
    · rfl
    · exact congrArg some (beginPing_muted cfg s)
  · rfl

theorem keepalivePingPoll_muted (n : ℕ) (p : Poll) :
    (keepalivePingPoll cfg s.muted n p).map State.muted
      = (keepalivePingPoll cfg s n p).map State.muted := by
  unfold keepalivePingPoll
  simp only [State.muted_keepalive, pingPoll_muted]
  split
  · split_ifs
    · cases pingPoll s (.keepalive n) p with
      | none => rfl
      | some s₁ => exact congrArg some (afterPing_muted cfg s₁ n)
    · rfl
  · rfl

/-! ## Handlers -/

theorem on_muted (o : ℕ) (action : String) :
    on s.muted o action = (on s o action).map State.muted := by
  unfold on
  simp only [State.muted_ons]
  split <;> rfl

theorem onPoll_muted (o : ℕ) (p : Poll) : onPoll s.muted o p = (onPoll s o p).map State.muted := by
  unfold onPoll
  simp only [State.muted_ons]
  split <;> rfl

theorem waitFor_muted (w : ℕ) (action : String) :
    waitFor s.muted w action = (waitFor s w action).map State.muted := by
  unfold waitFor
  simp only [State.muted_waitFors]
  split <;> rfl

theorem waitForPoll_muted (w : ℕ) (p : Poll) :
    waitForPoll env s.muted w p = (waitForPoll env s w p).map State.muted := by
  unfold waitForPoll
  simp only [State.muted_waitFors, State.muted_requests]
  split
  · rfl
  · unfold waitForRecv
    simp only [State.muted_requests]
    split <;> rfl
  · split_ifs <;> rfl
  · split_ifs <;> rfl
  · exact issue_map_muted s _ _ fun _ => rfl
  · exact pend_muted s
  · rfl
  · rfl
  · rfl

theorem onNotification_muted (o : ℕ) (action : String) :
    onNotification s.muted o action = (onNotification s o action).map State.muted := by
  unfold onNotification
  simp only [State.muted_onNotifications]
  split <;> rfl

theorem onNotificationPoll_muted (o : ℕ) (p : Poll) :
    onNotificationPoll s.muted o p = (onNotificationPoll s o p).map State.muted := by
  unfold onNotificationPoll
  simp only [State.muted_onNotifications]
  split <;> rfl

theorem notificationHandlerPoll_muted (o : ℕ) (p : Poll) :
    notificationHandlerPoll env s.muted o p
      = (notificationHandlerPoll env s o p).map State.muted := by
  unfold notificationHandlerPoll
  simp only [State.muted_notificationHandlers, State.muted_onNotifications,
    State.muted_notifications]
  split
  · unfold notificationHandlerRecv
    simp only [State.muted_notifications]
    split <;> rfl
  · split_ifs <;> rfl
  · rfl
  · rfl

theorem subscribe_muted (i : ℕ) (b : Broadcast) :
    subscribe s.muted i b = (subscribe s i b).map State.muted := by
  unfold subscribe
  simp only [State.muted_subs]
  split <;> rfl

theorem subscriberPoll_muted (i : ℕ) (p : Poll) :
    subscriberPoll s.muted i p = (subscriberPoll s i p).map State.muted := by
  unfold subscriberPoll
  simp only [State.muted_subs, State.muted_signals]
  split
  · rfl
  · split_ifs <;> rfl
  · rfl
  · rfl

variable [ProtocolError E]

theorem handlerPoll_muted (o : ℕ) (p : Poll) :
    handlerPoll env s.muted o p = (handlerPoll env s o p).map State.muted := by
  unfold handlerPoll
  simp only [State.muted_handlers, State.muted_ons, State.muted_requests]
  split
  · unfold handlerRecv
    simp only [State.muted_requests]
    split <;> rfl
  · split_ifs <;> rfl
  · exact issue_map_muted s _ _ fun _ => rfl
  · exact pend_muted s
  · rfl
  · rfl

theorem handlerRespond_muted (o : ℕ) (r : Except E (Except JsonError Value)) :
    handlerRespond env s.muted o r = (handlerRespond env s o r).map State.muted := by
  unfold handlerRespond
  simp only [State.muted_handlers]
  split <;> rfl

theorem waitForRespond_muted (w : ℕ) (r : Except E (Except JsonError Value)) :
    waitForRespond env s.muted w r = (waitForRespond env s w r).map State.muted := by
  unfold waitForRespond
  simp only [State.muted_waitFors]
  split
  · split <;> rfl
  · rfl

/-! ## The read loop -/

omit [ProtocolError E] in
theorem leave_muted (reason : LoopExit) :
    leave cfg s.muted reason = (leave cfg s reason).muted := by
  simp only [leave, State.muted, List.filter_append]
  rfl

theorem handleEvent_muted (e : TransportEvent) :
    handleEvent env s.muted e = (handleEvent env s e).muted := by
  unfold handleEvent
  cases e <;> simp only [handleFrame, State.muted, List.filter_append] <;> rfl

theorem readRecv_muted (e : Option TransportEvent) :
    readRecv env cfg s.muted e = (readRecv env cfg s e).map State.muted := by
  unfold readRecv
  simp only [State.muted_read, handleEvent_muted, leave_muted]
  split
  · split <;> rfl
  · rfl

omit [ProtocolError E] in
theorem readWoken_muted (hc : s.closed = true) :
    readWoken cfg s.muted = (readWoken cfg s).map State.muted := by
  have hw : s.muted.wake = s.wake := by rw [State.muted_wake, hc, Bool.and_true]
  unfold readWoken
  cases hwake : s.wake with
  | false =>
    rw [hwake] at hw
    rw [hw]
    rfl
  | true =>
    rw [if_pos (hw.trans hwake), if_pos (show s.muted.closed = true from hc), if_pos rfl, if_pos hc]
    exact congrArg some (leave_muted cfg { s with wake := false } .shutdown)

/-- The loop where it does not wait on the signal, or waits on that of a closed client. -/
theorem readPoll_muted (p : Poll) (hb : ∀ d, s.read ≠ .backoff d)
    (hr : s.read = .recv → p = .ready → s.closed = true) :
    readPoll env cfg s.muted p = (readPoll env cfg s p).map State.muted := by
  unfold readPoll
  simp only [State.muted_read, State.muted_requests, State.muted_notifications]
  split
  case h_1 hread => exact readWoken_muted cfg s (hr hread rfl)
  case h_4 | h_11 | h_16 => exact issue_map_muted s _ _ fun _ => rfl
  case h_5 | h_12 | h_17 => exact pend_muted s
  case h_7 => split <;> rfl
  case h_9 =>
    simp only [resolvePending, Option.map_some, State.muted, List.filter_append]
    rfl
  case h_14 =>
    unfold resolvePong
    simp only [State.muted_waiters]
    split
    · rfl
    · split <;> rfl
  case h_21 hread => exact absurd hread (hb _)
  case h_22 hread => exact absurd hread (hb _)
  case h_26 =>
    unfold swapIn
    simp only [State.muted_holder]
    split_ifs
    · simp only [Option.map_some, State.muted, List.filter_append]
      rfl
    · rfl
  case h_27 =>
    simp only [Option.map_some, State.muted, List.filter_append]
    rfl
  all_goals rfl

/-- Every step but a `force_reconnect` and the waits on the signal. -/
theorem step_muted (a : Act E) (hb : ∀ d, s.read ≠ .backoff d)
    (hr : s.read = .recv → a = .poll .read .ready → s.closed = true) :
    (step env cfg s.muted a).map State.muted = (step env cfg s a).map State.muted := by
  have of_eq : ∀ {o o' : Option (State E R)}, o = o'.map State.muted →
      o.map State.muted = o'.map State.muted := by
    rintro o o' rfl
    exact map_muted_muted o'
  cases a with
  | poll t p =>
    cases t with
    | read => exact of_eq (readPoll_muted env cfg s p hb fun h hp => hr h (by rw [hp]))
    | keepalive => exact keepalivePoll_muted cfg s p
    | call c => exact of_eq (callPoll_muted env s c p)
    | ping q =>
      cases q with
      | user n => exact of_eq (pingPoll_muted s (.user n) p)
      | keepalive n => exact keepalivePingPoll_muted cfg s n p
    | notification n => exact of_eq (notificationPoll_muted s n p)
    | disconnect d => exact of_eq (disconnectPoll_muted s d p)
    | on o => exact of_eq (onPoll_muted s o p)
    | handler o => exact of_eq (handlerPoll_muted env s o p)
    | waitFor w => exact of_eq (waitForPoll_muted env s w p)
    | onNotification o => exact of_eq (onNotificationPoll_muted s o p)
    | notificationHandler o => exact of_eq (notificationHandlerPoll_muted env s o p)
    | subscriber i => exact of_eq (subscriberPoll_muted s i p)
  | recv e => exact of_eq (readRecv_muted env cfg s e)
  | call c action payload => exact of_eq (doSendRequest_muted env s c action payload)
  | dropCall c => exact of_eq (callDrop_muted s c)
  | ping n => exact of_eq (sendPing_muted cfg s n)
  | dropPing n => exact of_eq (pingDrop_muted s n)
  | notify n action payload => exact of_eq (sendNotification_muted env s n action payload)
  | disconnect d => exact of_eq (disconnect_muted s d)
  | forceReconnect =>
    refine congrArg some ?_
    rw [forceReconnect_muted, forceReconnect_muted, muted_muted]
  | setPingInterval interval => exact congrArg some (muted_muted (setPingInterval s interval))
  | on o action => exact of_eq (on_muted s o action)
  | respond o r => exact of_eq (handlerRespond_muted env s o r)
  | waitFor w action => exact of_eq (waitFor_muted s w action)
  | waitForRespond w r => exact of_eq (waitForRespond_muted env s w r)
  | onNotification o action => exact of_eq (onNotification_muted s o action)
  | subscribe i b => exact of_eq (subscribe_muted s i b)

end OcppClient
