import OcppClient.Proofs.LockSteps

/-!
# The handlers among the client's mutexes

What registers a handler or a subscriber, the task it spawns, and `wait_for`.
-/

namespace OcppClient.Locks

open Async Transition Machine

variable {E R : Type}

/-! ## Handlers -/

section Handlers

variable {s s' : State E R} (env : Env R)

theorem stackOf_eq_on {o : ℕ} {pc : OnPc} (h : s.ons o = pc) :
    stackOf s (.app (.on o)) = onStack .requestSenders (handlerTask o) pc := by
  rw [stackOf, appStack, h]

theorem on_locks {o : ℕ} {action : String} (h : OcppClient.on s o action = some s') :
    LockStep s s' := by
  unfold OcppClient.on at h
  split at h <;> cases h
  next hon =>
  exact .begin (.app (.on o)) (.on o) (stackOf_eq_on hon) ⟨[.go], rfl⟩ (stackOf_on s o _) rfl

/-- From the top of its loop to its `recv`. -/
theorem glides_handlerTask (o : ℕ) : Glides [.run (handlerTask o)] (handlerStack o .recv) :=
  ⟨[.again, .go, .again, .go], rfl⟩

theorem onPoll_locks {o : ℕ} {p : Poll} (hS : Spawned s) (h : onPoll s o p = some s') :
    LockStep s s' := by
  unfold onPoll at h
  split at h <;> cases h
  next action hon =>
  have habsent : stackOf s (.spawned (.handler o)) = [] := by
    rw [stackOf, spawnedStack, hS o (by simp [hon])]
    rfl
  exact .spawn (stackOf_eq_on hon) ⟨[.go], rfl⟩ (by simp) habsent (glides_handlerTask o)
    (stackOf_on_registered s o action) rfl

theorem stackOf_eq_handler {o : ℕ} {pc : HandlerPc} (h : s.handlers o = pc) :
    stackOf s (.spawned (.handler o)) = handlerStack o pc := by
  rw [stackOf, spawnedStack, h]

/-- A handler that has its frame, or has none, after `do_send_response` was called. -/
theorem glides_respond (o : ℕ) (frame : Option String) :
    Glides [.run doSendResponse, .run (handlerTask o)] (handlerStack o (respondPc frame)) := by
  cases frame with
  | some frame => exact ⟨[.choose 1], rfl⟩
  | none => exact .trans ⟨[.choose 0, .go], rfl⟩ (glides_handlerTask o)

variable [ProtocolError E]

theorem handlerPoll_locks {o : ℕ} {p : Poll} (h : handlerPoll env s o p = some s') :
    LockStep s s' := by
  unfold handlerPoll at h
  split at h
  case h_1 action hp hon =>
    cases h
    have hgot : Glides (handlerStack o .recv) [.run answerCall, .run (handlerTask o)] :=
      ⟨[.go, .choose 0, .go, .go], rfl⟩
    unfold handlerRecv
    split
    · refine .glide (stackOf_eq_handler hp) (hgot.trans ?_) (stackOf_handler s o _) rfl
      unfold OcppClient.handleCall
      split
      · exact ⟨[.choose 1, .go], rfl⟩
      · exact .trans ⟨[.choose 2], rfl⟩ (glides_respond o _)
    · exact .glide (stackOf_eq_handler hp) (hgot.trans ⟨[.choose 0, .go, .go], rfl⟩)
        (stackOf_handler s o _) rfl
    · exact .glide (stackOf_eq_handler hp) ⟨[.go, .choose 1], rfl⟩ (stackOf_handler s o _) rfl
  case h_2 hp =>
    split_ifs at h
    cases h
    exact .glide (stackOf_eq_handler hp) ⟨[.go, .again, .go], rfl⟩ (stackOf_handler s o _) rfl
  case h_3 hp =>
    obtain ⟨hn, rfl⟩ := issue_map h
    exact .acquire (.handler o) (stackOf_eq_handler hp) hn (.refl _) (stackOf_handler s o _) rfl
  case h_4 hp =>
    obtain ⟨-, rfl⟩ := pend_eq h
    exact .frame rfl rfl
  case h_5 hp =>
    cases h
    exact .release (stackOf_eq_handler hp) ⟨[.go], rfl⟩ (glides_handlerTask o)
      (stackOf_handler s o _) rfl
  case h_6 => cases h

theorem handlerRespond_locks {o : ℕ} {r : Except E (Except JsonError Value)}
    (h : handlerRespond env s o r = some s') : LockStep s s' := by
  unfold handlerRespond at h
  split at h <;> cases h
  next hp =>
  exact .glide (stackOf_eq_handler hp) (.trans ⟨[.go], rfl⟩ (glides_respond o _))
    (stackOf_handler s o _) rfl

end Handlers

section WaitFor

variable {s s' : State E R} (env : Env R)

theorem stackOf_eq_waitFor {w : ℕ} {pc : WaitForPc E} (h : s.waitFors w = pc) :
    stackOf s (.app (.waitFor w)) = waitForStack w pc := by
  rw [stackOf, appStack, h]

theorem waitFor_locks {w : ℕ} {action : String} (h : OcppClient.waitFor s w action = some s') :
    LockStep s s' := by
  unfold OcppClient.waitFor at h
  split at h <;> cases h
  next hp =>
  exact .begin (.app (.waitFor w)) (.waitFor w) (stackOf_eq_waitFor hp) ⟨[.go], rfl⟩
    (stackOf_waitFor s w _) rfl

theorem waitForPoll_locks {w : ℕ} {p : Poll} (h : waitForPoll env s w p = some s') :
    LockStep s s' := by
  unfold waitForPoll at h
  split at h
  case h_1 hp =>
    cases h
    exact .glide (stackOf_eq_waitFor hp) ⟨[.go, .go, .go, .again, .go], rfl⟩ (stackOf_waitFor s w _)
      rfl
  case h_2 action hp =>
    cases h
    have hgot : Glides (waitForStack w (.recv action : WaitForPc E))
        (.run answerOnce :: atCaller) := ⟨[.go, .choose 0, .go, .go, .go], rfl⟩
    unfold waitForRecv
    split
    · refine .glide (stackOf_eq_waitFor hp) (hgot.trans ?_) (stackOf_waitFor s w _) rfl
      split
      · exact ⟨[.go, .choose 1, .go], rfl⟩
      · exact ⟨[.go, .choose 0, .go], rfl⟩
    · exact .glide (stackOf_eq_waitFor hp) (hgot.trans ⟨[.go, .choose 0, .go], rfl⟩)
        (stackOf_waitFor s w _) rfl
    · exact .glide (stackOf_eq_waitFor hp) ⟨[.go, .choose 1], rfl⟩ (stackOf_waitFor s w _) rfl
  case h_3 hp =>
    split_ifs at h
    cases h
    exact .glide (stackOf_eq_waitFor hp) ⟨[.go, .again, .go], rfl⟩ (stackOf_waitFor s w _) rfl
  case h_4 hp =>
    split_ifs at h
    cases h
    exact .glide (stackOf_eq_waitFor hp) ⟨[.go, .go, .go, .go, .choose 0, .go], rfl⟩
      (stackOf_waitFor s w _) rfl
  case h_5 hp =>
    obtain ⟨hn, rfl⟩ := issue_map h
    exact .acquire (.waitFor w) (stackOf_eq_waitFor hp) hn (.refl _) (stackOf_waitFor s w _) rfl
  case h_6 hp =>
    obtain ⟨-, rfl⟩ := pend_eq h
    exact .frame rfl rfl
  case h_7 hp =>
    cases h
    exact .release (stackOf_eq_waitFor hp) ⟨[.go], rfl⟩ (.refl _) (stackOf_waitFor s w _) rfl
  case h_8 hp =>
    cases h
    exact .glide (stackOf_eq_waitFor hp) ⟨[.go], rfl⟩ (stackOf_waitFor s w _) rfl
  case h_9 => cases h

theorem waitForRespond_locks [ProtocolError E] {w : ℕ} {r : Except E (Except JsonError Value)}
    (h : waitForRespond env s w r = some s') : LockStep s s' := by
  unfold waitForRespond at h
  split at h
  case h_2 => cases h
  case h_1 hp =>
    split at h <;> cases h
    · exact .glide (stackOf_eq_waitFor hp) ⟨[.go, .choose 1], rfl⟩ (stackOf_waitFor s w _) rfl
    · exact .glide (stackOf_eq_waitFor hp) ⟨[.go, .choose 0, .go], rfl⟩ (stackOf_waitFor s w _) rfl

end WaitFor

section Notifications

variable {s s' : State E R} (env : Env R)

theorem stackOf_eq_onNotification {o : ℕ} {pc : OnPc} (h : s.onNotifications o = pc) :
    stackOf s (.app (.onNotification o))
      = onStack .notificationSenders (notificationTask o) pc := by
  rw [stackOf, appStack, h]

theorem onNotification_locks {o : ℕ} {action : String}
    (h : OcppClient.onNotification s o action = some s') : LockStep s s' := by
  unfold OcppClient.onNotification at h
  split at h <;> cases h
  next hon =>
  exact .begin (.app (.onNotification o)) (.onNotification o) (stackOf_eq_onNotification hon)
    ⟨[.go], rfl⟩ (stackOf_onNotification s o action hon) rfl

theorem onNotificationPoll_locks {o : ℕ} {p : Poll} (h : onNotificationPoll s o p = some s') :
    LockStep s s' := by
  unfold onNotificationPoll at h
  split at h <;> cases h
  next action hon =>
  have habsent : stackOf s (.spawned (.notificationHandler o)) = [] := by
    rw [stackOf, spawnedStack, hon]
    rfl
  have hbegin : Glides [.run (notificationTask o)]
      (recvStack (.notificationQueue o) [.run takeNotification, .run (notificationTask o)]) :=
    ⟨[.again, .go, .again, .go], rfl⟩
  exact .spawn (stackOf_eq_onNotification hon) ⟨[.go], rfl⟩ (by simp) habsent hbegin
    (stackOf_onNotification_registered s o action) rfl

/-- A task of `on_notification` moves; before its registration there is none. -/
theorem notificationHandler_locks {o : ℕ} {pc : NotificationHandlerPc}
    (hs : stackOf s' = stackOf { s with
      notificationHandlers := Function.update s.notificationHandlers o pc })
    (hh : s'.holder = s.holder)
    (hg : ∀ action, Glides
      (notificationHandlerStack o (.registered action) (s.notificationHandlers o))
      (notificationHandlerStack o (.registered action) pc)) : LockStep s s' := by
  refine .glide rfl ?_ (hs.trans (stackOf_notificationHandler s o pc)) hh
  rw [stackOf, spawnedStack]
  cases s.onNotifications o with
  | registered action => exact hg action
  | idle | lock => exact .refl _

theorem notificationHandlerPoll_locks {o : ℕ} {p : Poll}
    (h : notificationHandlerPoll env s o p = some s') : LockStep s s' := by
  unfold notificationHandlerPoll at h
  split at h
  case h_1 action hp hon =>
    cases h
    unfold notificationHandlerRecv
    split
    · refine notificationHandler_locks rfl rfl fun _ => ?_
      rw [hp]
      split
      · exact ⟨[.go, .choose 0, .go, .go, .choose 1], rfl⟩
      · exact ⟨[.go, .choose 0, .go, .go, .choose 0, .go, .again, .go, .again, .go], rfl⟩
    · refine notificationHandler_locks rfl rfl fun _ => ?_
      rw [hp]
      exact ⟨[.go, .choose 0, .go, .go, .choose 0, .go, .go], rfl⟩
    · refine notificationHandler_locks rfl rfl fun _ => ?_
      rw [hp]
      exact ⟨[.go, .choose 1], rfl⟩
  case h_2 hp =>
    split_ifs at h
    cases h
    refine notificationHandler_locks rfl rfl fun _ => ?_
    rw [hp]
    exact ⟨[.go, .again, .go], rfl⟩
  case h_3 hp =>
    cases h
    refine notificationHandler_locks rfl rfl fun _ => ?_
    rw [hp]
    exact ⟨[.go, .again, .go, .again, .go], rfl⟩
  case h_4 => cases h

theorem subscribe_locks {i : ℕ} {b : Broadcast} (h : OcppClient.subscribe s i b = some s') :
    LockStep s s' := by
  unfold OcppClient.subscribe at h
  split at h <;> cases h
  next hi =>
  have hk : stackOf s (.app (.subscriber i)) = [] := by rw [stackOf, appStack, hi]; rfl
  have hu : stackOf s (.spawned (.subscriber i)) = [] := by rw [stackOf, spawnedStack, hi]; rfl
  refine .begin (.app (.subscriber i)) (.onBroadcast b) hk ⟨[.go], rfl⟩
    ((stackOf_subscriber s i _).trans (Function.update_eq_self_iff.2 ?_)) rfl
  exact hu.symm

/-- The task of a subscriber moves. -/
theorem subscriber_locks {i : ℕ} {pc : SubscriberPc}
    (hs : stackOf s' = stackOf { s with subs := Function.update s.subs i pc })
    (hh : s'.holder = s.holder) (hk : subscribeStack pc = subscribeStack (s.subs i))
    (hg : Glides (subscriberStack (s.subs i)) (subscriberStack pc)) : LockStep s s' := by
  have happ : Function.update (stackOf s) (.app (.subscriber i)) (subscribeStack pc) = stackOf s :=
    Function.update_eq_self_iff.2 hk
  have hset := hs.trans (stackOf_subscriber s i pc)
  rw [happ] at hset
  exact .glide (t := .spawned (.subscriber i)) rfl hg hset hh

theorem subscriberPoll_locks {i : ℕ} {p : Poll} (h : subscriberPoll s i p = some s') :
    LockStep s s' := by
  unfold subscriberPoll at h
  split at h
  case h_1 b hi =>
    cases h
    have hu : stackOf s (.spawned (.subscriber i)) = [] := by rw [stackOf, spawnedStack, hi]; rfl
    have hk : stackOf s (.app (.subscriber i)) = subscribeStack (.subscribe b) := by
      rw [stackOf, appStack, hi]
    have hbegin : Glides [.run subscriberTask] (subscriberStack .wait) := ⟨[.again, .go], rfl⟩
    exact .spawn hk ⟨[.go], rfl⟩ (by simp) hu hbegin (stackOf_subscriber s i _) rfl
  case h_2 hi =>
    split_ifs at h
    cases h
    exact subscriber_locks rfl rfl (by rw [hi]; rfl) (by rw [hi]; exact ⟨[.go], rfl⟩)
  case h_3 hi =>
    cases h
    exact subscriber_locks rfl rfl (by rw [hi]; rfl) (by rw [hi]; exact ⟨[.go, .again, .go], rfl⟩)
  case h_4 => cases h

end Notifications

end OcppClient.Locks
