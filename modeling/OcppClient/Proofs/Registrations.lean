import OcppClient.Proofs.Desks

/-!
# Who is registered

`on`, `wait_for` and `on_notification` at their registries: each step of the client is a step of the
desk of `request_senders` or of that of `notification_senders`, or of neither. So the handler that
an action leads to reads an open channel, the ones before it are on their way out, and `wait_for`
takes out nobody's entry but its own.
-/

namespace OcppClient

open Transition

variable {E R : Type}

/-! ## The desks of a client -/

/-- A function on the channels of requests, by whose they are. -/
def ChanId.elim {β : Type} (f g : ℕ → β) : ChanId → β
  | .on o => f o
  | .waitFor w => g w

section Elim

variable {α β : Type} (f : ℕ → α) (p : α → β) (g : ℕ → β) (n : ℕ) (v : α)

theorem ChanId.elim_on :
    ChanId.elim (fun o => p (Function.update f n v o)) g
      = Function.update (ChanId.elim (fun o => p (f o)) g) (.on n) (p v) := by
  funext ch
  rcases ch with o | w
  · rcases eq_or_ne o n with rfl | hne <;> simp [ChanId.elim, *]
  · simp [ChanId.elim]

theorem ChanId.elim_waitFor :
    ChanId.elim g (fun w => p (Function.update f n v w))
      = Function.update (ChanId.elim g fun w => p (f w)) (.waitFor n) (p v) := by
  funext ch
  rcases ch with o | w
  · simp [ChanId.elim]
  · rcases eq_or_ne w n with rfl | hne <;> simp [ChanId.elim, *]

theorem update_comp :
    (fun o => p (Function.update f n v o)) = Function.update (fun o => p (f o)) n (p v) := by
  funext o
  rcases eq_or_ne o n with rfl | hne <;> simp [*]

end Elim

def OnPc.standing : OnPc → Standing
  | .registered action => .holds action
  | .idle | .lock _ => .fresh

def HandlerPc.reader : HandlerPc → Reader
  | .wait => .waiting
  | .exited => .left
  | _ => .away

def NotificationHandlerPc.reader : NotificationHandlerPc → Reader
  | .wait => .waiting
  | .exited => .left
  | _ => .away

def WaitForPc.standing : WaitForPc E → Standing
  | .idle | .lock _ => .fresh
  | .recv action | .wait action | .callback action _ _ | .lockSink action _ _ | .sending action _
  | .unregister action _ => .holds action
  | .returned _ => .over

def WaitForPc.reader : WaitForPc E → Reader
  | .wait _ => .waiting
  | _ => .away

namespace State

def requestDesk (s : State E R) : Desk ChanId (String × Value) where
  registry := s.requests
  standing := ChanId.elim (fun o => (s.ons o).standing) fun w => (s.waitFors w).standing
  reader := ChanId.elim (fun o => (s.handlers o).reader) fun w => (s.waitFors w).reader

def notificationDesk (s : State E R) : Desk ℕ Value where
  registry := s.notifications
  standing o := (s.onNotifications o).standing
  reader o := (s.notificationHandlers o).reader

/-- The entries of `request_senders` that a step makes or takes out. -/
def requestFilings (s : State E R) : Act E → List (DeskEvent ChanId)
  | .poll (.on o) .ready =>
    match s.ons o with
    | .lock action => [.registered action (.on o)]
    | _ => []
  | .poll (.waitFor w) .ready =>
    match s.waitFors w with
    | .lock action => [.registered action (.waitFor w)]
    | .unregister action _ =>
      if s.requests.senders action = some (.waitFor w) then [.removed action (.waitFor w)] else []
    | _ => []
  | _ => []

def notificationFilings (s : State E R) : Act E → List (DeskEvent ℕ)
  | .poll (.onNotification o) .ready =>
    match s.onNotifications o with
    | .lock action => [.registered action o]
    | _ => []
  | _ => []

end State

/-! ## Steps at `request_senders` -/

section Requests

variable {s s' : State E R}

/-- `on` with its handler and `wait_for` move at their own channel only. -/
theorem requestDesk_setHandler (o : ℕ) (pc : HandlerPc) :
    ({ s with handlers := Function.update s.handlers o pc } : State E R).requestDesk
      = { s.requestDesk with
          reader := Function.update s.requestDesk.reader (.on o) pc.reader } := by
  simp only [State.requestDesk, ChanId.elim_on]

theorem requestDesk_setWaitFor (w : ℕ) (pc : WaitForPc E)
    (hpc : pc.standing = (s.waitFors w).standing) :
    (s.setWaitFor w pc).requestDesk
      = { s.requestDesk with
          reader := Function.update s.requestDesk.reader (.waitFor w) pc.reader } := by
  simp only [State.requestDesk, State.setWaitFor, ChanId.elim_waitFor, hpc]
  congr 1
  exact Function.update_eq_self (ChanId.waitFor w) _

theorem reader_of_handler {o : ℕ} {pc : HandlerPc} (hpc : s.handlers o = pc)
    (hl : pc.reader ≠ .left) : s.requestDesk.reader (.on o) ≠ .left := by
  simpa [State.requestDesk, ChanId.elim, hpc] using hl

theorem reader_of_waitFor (w : ℕ) : s.requestDesk.reader (.waitFor w) ≠ .left := by
  simp only [State.requestDesk, ChanId.elim]
  cases s.waitFors w <;> nofun

theorem on_desk {o : ℕ} {action : String} (h : on s o action = some s') :
    s'.requestDesk = s.requestDesk := by
  unfold on at h
  split at h <;> cases h
  next hidle =>
  have hst : (OnPc.lock action).standing = (s.ons o).standing := by rw [hidle]; rfl
  simp only [State.requestDesk, ChanId.elim_on, hst]
  congr 1
  exact Function.update_eq_self (ChanId.on o) _

theorem onPoll_desk {o : ℕ} {p : Poll} (h : onPoll s o p = some s') :
    DeskStep s.requestDesk s'.requestDesk (s.requestFilings (.poll (.on o) p : Act E)) := by
  unfold onPoll at h
  split at h <;> cases h
  next action hlock =>
  simp only [State.requestFilings, hlock]
  simp only [State.requestDesk, ChanId.elim_on]
  exact .register (by simp [ChanId.elim, hlock, OnPc.standing])

variable [ProtocolError E] (env : Env R)

theorem handleCall_reader (action messageId : String) (payload : Value) :
    (handleCall (E := E) env action messageId payload).reader = .away := by
  unfold handleCall respondPc
  split
  · rfl
  · split <;> rfl

theorem handlerPoll_desk {o : ℕ} {p : Poll} (h : handlerPoll env s o p = some s') :
    DeskStep s.requestDesk s'.requestDesk [] := by
  unfold handlerPoll at h
  split at h
  case h_1 action hpc hon =>
    cases h
    unfold handlerRecv
    split
    · next messageId payload rest hr =>
      have hd := requestDesk_setHandler (s := { s with
        requests := s.requests.modify (.on o) fun _ => rest }) o
        (handleCall (E := E) env action messageId payload)
      rw [handleCall_reader] at hd
      rw [hd]
      exact .take (reader_of_handler hpc nofun) hr
    · next hr =>
      rw [requestDesk_setHandler]
      exact .leaves hr
    · next hr =>
      rw [requestDesk_setHandler]
      exact .waits (reader_of_handler hpc nofun) hr
  case h_2 hpc =>
    split_ifs at h
    cases h
    rw [requestDesk_setHandler (s := { s with requests := s.requests.modify (.on o) .take })]
    exact .wakes (reader_of_handler hpc nofun)
  case h_3 hpc =>
    obtain ⟨-, rfl⟩ := issue_map h
    have hd := requestDesk_setHandler (s := s) o .sending
    exact (congrArg (DeskStep s.requestDesk · []) hd).mpr (.works (reader_of_handler hpc nofun))
  case h_4 =>
    obtain ⟨-, rfl⟩ := pend_eq h
    exact .rest
  case h_5 hpc =>
    cases h
    have hd := requestDesk_setHandler (s := s) o .recv
    exact (congrArg (DeskStep s.requestDesk · []) hd).mpr (.works (reader_of_handler hpc nofun))
  case h_6 => cases h

theorem respond_desk {o : ℕ} {r : Except E (Except JsonError Value)}
    (h : handlerRespond env s o r = some s') : DeskStep s.requestDesk s'.requestDesk [] := by
  unfold handlerRespond at h
  split at h <;> cases h
  next messageId hpc =>
  have hr : (respondPc (responseFrame env messageId r)).reader = .away := by
    unfold respondPc
    split <;> rfl
  rw [requestDesk_setHandler, hr]
  exact .works (reader_of_handler hpc nofun)

omit [ProtocolError E] in
theorem waitFor_desk {w : ℕ} {action : String} (h : waitFor s w action = some s') :
    DeskStep s.requestDesk s'.requestDesk [] := by
  unfold waitFor at h
  split at h <;> cases h
  next hidle =>
  rw [requestDesk_setWaitFor _ _ (by rw [hidle]; rfl)]
  exact .works (reader_of_waitFor w)

omit [ProtocolError E] in
theorem waitForPoll_desk {w : ℕ} {p : Poll} (h : waitForPoll env s w p = some s') :
    DeskStep s.requestDesk s'.requestDesk (s.requestFilings (.poll (.waitFor w) p : Act E)) := by
  unfold waitForPoll at h
  split at h
  case h_1 action hpc =>
    cases h
    simp only [State.requestFilings, hpc]
    simp only [State.requestDesk, State.setWaitFor, ChanId.elim_waitFor]
    exact .register (by simp [ChanId.elim, hpc, WaitForPc.standing])
  case h_2 action hpc =>
    cases h
    simp only [State.requestFilings, hpc]
    unfold waitForRecv
    split
    · next messageId payload rest hr =>
      split
      · rw [requestDesk_setWaitFor _ _ (by simp only [hpc]; rfl)]
        exact .take (reader_of_waitFor w) hr
      · rw [requestDesk_setWaitFor _ _ (by simp only [hpc]; rfl)]
        exact .take (reader_of_waitFor w) hr
    · rw [requestDesk_setWaitFor _ _ (by rw [hpc]; rfl)]
      exact .works (reader_of_waitFor w)
    · next hr =>
      rw [requestDesk_setWaitFor _ _ (by rw [hpc]; rfl)]
      exact .waits (reader_of_waitFor w) hr
  case h_3 action hpc =>
    split_ifs at h
    cases h
    simp only [State.requestFilings, hpc]
    rw [requestDesk_setWaitFor _ _ (by simp only [hpc]; rfl)]
    exact .wakes (reader_of_waitFor w)
  case h_4 action hpc =>
    split_ifs at h
    cases h
    rw [requestDesk_setWaitFor _ _ (by rw [hpc]; rfl)]
    exact .works (reader_of_waitFor w)
  case h_5 action outcome frame hpc =>
    obtain ⟨-, rfl⟩ := issue_map h
    simp only [State.requestFilings, hpc]
    have hd := requestDesk_setWaitFor (s := s) w (.sending action outcome) (by rw [hpc]; rfl)
    exact (congrArg (DeskStep s.requestDesk · []) hd).mpr (.works (reader_of_waitFor w))
  case h_6 =>
    obtain ⟨-, rfl⟩ := pend_eq h
    exact .rest
  case h_7 action outcome r hpc =>
    cases h
    have hd := requestDesk_setWaitFor (s := s) w (.unregister action outcome) (by rw [hpc]; rfl)
    exact (congrArg (DeskStep s.requestDesk · []) hd).mpr (.works (reader_of_waitFor w))
  case h_8 action outcome hpc =>
    cases h
    have ha : (WaitForPc.returned outcome).reader = (s.waitFors w).reader := by rw [hpc]; rfl
    have hd : ({ s with requests := s.requests.removeOwn action (.waitFor w) }.setWaitFor w
        (.returned outcome)).requestDesk = { s.requestDesk with
          registry := s.requests.removeOwn action (.waitFor w)
          standing := Function.update s.requestDesk.standing (.waitFor w) .over } := by
      simp only [State.requestDesk, State.setWaitFor, ChanId.elim_waitFor, ha]
      congr 1
      exact Function.update_eq_self (ChanId.waitFor w) _
    simp only [State.requestFilings, hpc]
    rw [hd]
    exact .unregister (by simp [State.requestDesk, ChanId.elim, hpc, WaitForPc.standing])
  case h_9 => cases h

theorem waitForRespond_desk {w : ℕ} {r : Except E (Except JsonError Value)}
    (h : waitForRespond env s w r = some s') : DeskStep s.requestDesk s'.requestDesk [] := by
  unfold waitForRespond at h
  split at h
  · next hpc =>
    split at h <;> cases h
    · rw [requestDesk_setWaitFor _ _ (by rw [hpc]; rfl)]
      exact .works (reader_of_waitFor w)
    · rw [requestDesk_setWaitFor _ _ (by rw [hpc]; rfl)]
      exact .works (reader_of_waitFor w)
  · cases h

omit [ProtocolError E] in
theorem QueueFrame.requestDesk (h : QueueFrame s s') : s'.requestDesk = s.requestDesk := by
  simp only [State.requestDesk, h.requests, h.ons, h.handlers, h.waitFors]

/-- The polls that make an entry or take one out. -/
def Act.Files : Act E → Prop
  | .poll (.on _) _ | .poll (.waitFor _) _ | .poll (.onNotification _) _ => True
  | _ => False

theorem requestDesk_of_step (cfg : ClientConfig) {a : Act E} (hs : step env cfg s a = some s') :
    DeskStep s.requestDesk s'.requestDesk (s.requestFilings a) := by
  by_cases ha : a.Files
  · unfold Act.Files at ha
    split at ha
    · exact onPoll_desk hs
    · exact waitForPoll_desk env hs
    · obtain ⟨_, _, _, rfl⟩ := onNotificationPoll_footprint hs
      exact .rest
    · exact ha.elim
  · have hn : s.requestFilings a = [] := by
      unfold State.requestFilings
      split
      · exact absurd trivial ha
      · exact absurd trivial ha
      · rfl
    rw [hn]
    cases queue_cases env cfg hs with
    | read h =>
      cases h with
      | frame hf => exact hf.requestDesk ▸ .rest
      | lookup hf => exact hf.requestDesk ▸ .rest
      | push hr h =>
        subst h
        exact .send
    | handlers h =>
      cases h with
      | on h => exact on_desk h ▸ .rest
      | onPoll => exact absurd trivial ha
      | handlerPoll h => exact handlerPoll_desk env h
      | respond h => exact respond_desk env h
      | waitFor h => exact waitFor_desk h
      | waitForPoll => exact absurd trivial ha
      | waitForRespond h => exact waitForRespond_desk env h

end Requests

/-! ## Steps at `notification_senders` -/

section Notifications

variable {s s' : State E R}

theorem notificationDesk_setHandler (o : ℕ) (pc : NotificationHandlerPc) :
    (s.setNotificationHandler o pc).notificationDesk
      = { s.notificationDesk with
          reader := Function.update s.notificationDesk.reader o pc.reader } := by
  simp only [State.notificationDesk, State.setNotificationHandler, update_comp]

theorem reader_of_notificationHandler {o : ℕ} {pc : NotificationHandlerPc}
    (hpc : s.notificationHandlers o = pc) (hl : pc.reader ≠ .left) :
    s.notificationDesk.reader o ≠ .left := by
  simpa [State.notificationDesk, hpc] using hl

theorem onNotification_desk {o : ℕ} {action : String} (h : onNotification s o action = some s') :
    s'.notificationDesk = s.notificationDesk := by
  unfold onNotification at h
  split at h <;> cases h
  next hidle =>
  have hst : (OnPc.lock action).standing = (s.onNotifications o).standing := by rw [hidle]; rfl
  simp only [State.notificationDesk, update_comp, hst, Function.update_eq_self]

theorem onNotificationPoll_desk {o : ℕ} {p : Poll} (h : onNotificationPoll s o p = some s') :
    DeskStep s.notificationDesk s'.notificationDesk
      (s.notificationFilings (.poll (.onNotification o) p : Act E)) := by
  unfold onNotificationPoll at h
  split at h <;> cases h
  next action hlock =>
  simp only [State.notificationFilings, hlock]
  simp only [State.notificationDesk, update_comp]
  exact .register (by simp [hlock, OnPc.standing])

variable (env : Env R)

theorem notificationHandlerPoll_desk {o : ℕ} {p : Poll}
    (h : notificationHandlerPoll env s o p = some s') :
    DeskStep s.notificationDesk s'.notificationDesk [] := by
  unfold notificationHandlerPoll at h
  split at h
  case h_1 action hpc _ =>
    cases h
    unfold notificationHandlerRecv
    split
    · next payload rest hr =>
      split
      · rw [notificationDesk_setHandler]
        exact .take (reader_of_notificationHandler hpc nofun) hr
      · rw [notificationDesk_setHandler]
        exact .take (reader_of_notificationHandler hpc nofun) hr
    · next hr =>
      rw [notificationDesk_setHandler]
      exact .leaves hr
    · next hr =>
      rw [notificationDesk_setHandler]
      exact .waits (reader_of_notificationHandler hpc nofun) hr
  case h_2 hpc =>
    split_ifs at h
    cases h
    rw [notificationDesk_setHandler]
    exact .wakes (reader_of_notificationHandler hpc nofun)
  case h_3 hpc =>
    cases h
    rw [notificationDesk_setHandler]
    exact .works (reader_of_notificationHandler hpc nofun)
  case h_4 => cases h

variable [ProtocolError E] (cfg : ClientConfig)

/-- The read loop pushes to a channel of `notification_senders` what it has in hand. -/
theorem readPoll_notifications {p : Poll} (hs : readPoll env cfg s p = some s') :
    s'.notifications = s.notifications ∨ ∃ ch payload, s.read = .pushNotification ch payload
      ∧ s'.notifications = s.notifications.modify ch fun c => c.send payload := by
  cases readPoll_moves env cfg hs with
  | go hr _ =>
    unfold readPoll at hs
    generalize hread : s.read = pc at hr
    rw [hread] at hs
    cases hr with
    | refused | unanswered =>
      cases hs
      exact .inl rfl
    | notification | unheard =>
      simp only [] at hs
      split at hs <;> cases hs <;> exact .inl rfl
    | pushed ch payload =>
      cases hs
      exact .inr ⟨ch, payload, rfl, rfl⟩
  | wake _ h =>
    obtain ⟨_, _, rfl, -⟩ := readWoken_footprint cfg h
    exact .inl rfl
  | pong _ h =>
    obtain ⟨_, _, _, hp, -⟩ := resolvePong_footprint s _
    exact .inl (by rw [h, hp])
  | backoff _ h | redial _ h =>
    subst h
    exact .inl rfl
  | dial _ h =>
    obtain ⟨_, _, hb, -⟩ := beginDial_footprint s
    exact .inl (by rw [h, hb])
  | wokenDial _ _ h =>
    obtain ⟨_, _, hb, -⟩ :=
      beginDial_footprint { s with wake := false, hist := s.hist ++ [.loop .woken] }
    exact .inl (by rw [h, hb])
  | resolve _ h | clear _ h | acquire _ _ h | swap _ _ h | broadcast _ h | lookup _ _ h
  | pend _ _ h | release _ h | notify _ h | dialPend _ h | dialled _ h | push _ h =>
    subst h
    exact .inl rfl

theorem notificationDesk_of_step {a : Act E} (hs : step env cfg s a = some s') :
    DeskStep s.notificationDesk s'.notificationDesk (s.notificationFilings a) := by
  by_cases ha : ∃ o p, a = .poll (.onNotification o) p
  · obtain ⟨o, p, rfl⟩ := ha
    exact onNotificationPoll_desk hs
  have hn : s.notificationFilings a = [] := by
    unfold State.notificationFilings
    split
    · exact absurd ⟨_, _, rfl⟩ ha
    · rfl
  rw [hn]
  cases background_cases env cfg hs with
  | onNotificationPoll => exact absurd ⟨_, _, rfl⟩ ha
  | notificationHandlerPoll h => exact notificationHandlerPoll_desk env h
  | onNotification h => exact onNotification_desk h ▸ .rest
  | subscribe h =>
    obtain ⟨_, rfl⟩ := subscribe_footprint h
    exact .rest
  | subscriberPoll h =>
    obtain ⟨_, _, _, rfl⟩ := subscriberPoll_footprint h
    exact .rest
  | read h =>
    have hf := readPoll_frame env cfg h
    have hd : ∀ r, s'.notifications = r →
        s'.notificationDesk = { s.notificationDesk with registry := r } := fun r hr => by
      simp only [State.notificationDesk, hf.onNotifications, hf.notificationHandlers, hr]
    rcases readPoll_notifications env cfg h with hn | ⟨ch, payload, -, hn⟩
    · rw [hd _ hn]
      exact .rest
    · rw [hd _ hn]
      exact .send
  | other h =>
    have hd : s'.notificationDesk = s.notificationDesk := by
      simp only [State.notificationDesk, h.notifications, h.onNotifications,
        h.notificationHandlers]
    rw [hd]
    exact .rest

end Notifications

/-! ## Handlers that leave -/

theorem OnPc.registered_of_standing (pc : OnPc) (h : pc.standing ≠ .fresh) :
    ∃ action, pc = .registered action := by
  cases pc with
  | registered action => exact ⟨action, rfl⟩
  | idle => exact absurd rfl h
  | lock _ => exact absurd rfl h

section Leaving

variable [ProtocolError E] (env : Env R) (cfg : ClientConfig) {s : State E R} {o : ℕ}
  {action : String}

/-- Polled some times, and nothing else, the task comes to `left`. -/
def LeadsTo (s : State E R) (t : Task) (left : State E R → Prop) : Prop :=
  ∃ n s', (client env cfg).run s (List.replicate n (.poll t .ready)) = some s' ∧ left s'

theorem Chan.recv_of_drained {T : Type} {c : Chan T} (hc : c.closed = true) (hq : c.queue = []) :
    c.recv = .none := by
  simp [Chan.recv, hc, hq]

theorem handler_leaves_recv (hon : s.ons o = .registered action)
    (hc : (s.requests.chans (.on o)).closed = true) (hq : (s.requests.chans (.on o)).queue = [])
    (hr : s.handlers o = .recv) :
    LeadsTo env cfg s (.handler o) fun s' => s'.handlers o = .exited := by
  refine ⟨1, { s with handlers := Function.update s.handlers o .exited }, ?_, by simp⟩
  have hs : (client env cfg).step s (.poll (.handler o) .ready)
      = some { s with handlers := Function.update s.handlers o .exited } := by
    change handlerPoll env s o .ready = _
    unfold handlerPoll
    rw [hr, hon]
    simp only [handlerRecv, Chan.recv_of_drained hc hq]
  exact Machine.run_cons hs []

theorem handler_leaves (hon : s.ons o = .registered action)
    (hc : (s.requests.chans (.on o)).closed = true) (hq : (s.requests.chans (.on o)).queue = [])
    (hw : s.handlers o = .wait → (s.requests.chans (.on o)).signal = true)
    (hr : s.handlers o = .recv ∨ s.handlers o = .wait) :
    LeadsTo env cfg s (.handler o) fun s' => s'.handlers o = .exited := by
  rcases hr with hr | hr
  · exact handler_leaves_recv env cfg hon hc hq hr
  · have hs : (client env cfg).step s (.poll (.handler o) .ready) = some { s with
        requests := s.requests.modify (.on o) .take
        handlers := Function.update s.handlers o .recv } := by
      change handlerPoll env s o .ready = _
      unfold handlerPoll
      rw [hr]
      simp only [hw hr, if_true]
    obtain ⟨n, s', hrun, hs'⟩ := handler_leaves_recv env cfg (s := { s with
      requests := s.requests.modify (.on o) .take
      handlers := Function.update s.handlers o .recv }) hon
      (by simpa [Registry.modify, Chan.take] using hc)
      (by simpa [Registry.modify, Chan.take] using hq) (by simp)
    exact ⟨n + 1, s', (Machine.run_cons hs _).trans hrun, hs'⟩

theorem notificationHandler_leaves_recv (hon : s.onNotifications o = .registered action)
    (hc : (s.notifications.chans o).closed = true) (hq : (s.notifications.chans o).queue = [])
    (hr : s.notificationHandlers o = .recv) :
    LeadsTo env cfg s (.notificationHandler o) fun s' => s'.notificationHandlers o = .exited := by
  refine ⟨1, s.setNotificationHandler o .exited, ?_, by simp [State.setNotificationHandler]⟩
  have hs : (client env cfg).step s (.poll (.notificationHandler o) .ready)
      = some (s.setNotificationHandler o .exited) := by
    change notificationHandlerPoll env s o .ready = _
    unfold notificationHandlerPoll
    rw [hr, hon]
    simp only [notificationHandlerRecv, Chan.recv_of_drained hc hq]
  exact Machine.run_cons hs []

theorem notificationHandler_leaves (hon : s.onNotifications o = .registered action)
    (hc : (s.notifications.chans o).closed = true) (hq : (s.notifications.chans o).queue = [])
    (hw : s.notificationHandlers o = .wait → (s.notifications.chans o).signal = true)
    (hr : s.notificationHandlers o = .recv ∨ s.notificationHandlers o = .wait) :
    LeadsTo env cfg s (.notificationHandler o) fun s' => s'.notificationHandlers o = .exited := by
  rcases hr with hr | hr
  · exact notificationHandler_leaves_recv env cfg hon hc hq hr
  · have hs : (client env cfg).step s (.poll (.notificationHandler o) .ready)
        = some ({ s with notifications := s.notifications.modify o .take }.setNotificationHandler o
          .recv) := by
      change notificationHandlerPoll env s o .ready = _
      unfold notificationHandlerPoll
      rw [hr]
      simp only [hw hr, if_true]
    obtain ⟨n, s', hrun, hs'⟩ := notificationHandler_leaves_recv env cfg
      (s := { s with notifications := s.notifications.modify o .take }.setNotificationHandler o
        .recv) hon
      (by simpa [Registry.modify, Chan.take, State.setNotificationHandler] using hc)
      (by simpa [Registry.modify, Chan.take, State.setNotificationHandler] using hq)
      (by simp [State.setNotificationHandler])
    exact ⟨n + 1, s', (Machine.run_cons hs _).trans hrun, hs'⟩

theorem waitFor_unregisters {w : ℕ} {outcome : Except (ClientError E) Value}
    (hpc : s.waitFors w = .unregister action outcome) :
    step env cfg s (.poll (.waitFor w) .ready)
      = some ({ s with requests := s.requests.removeOwn action (.waitFor w) }.setWaitFor w
        (.returned outcome)) := by
  change waitForPoll env s w .ready = _
  unfold waitForPoll
  rw [hpc]

end Leaving

/-! ## Every run -/

section Run

variable [ProtocolError E] (env : Env R) (cfg : ClientConfig)

/-- What a step enters into the two registries, or takes out. -/
def filings (s : State E R) (a : Act E) : List (DeskEvent ChanId ⊕ DeskEvent ℕ) :=
  (s.requestFilings a).map .inl ++ (s.notificationFilings a).map .inr

omit [ProtocolError E] in
theorem filings_left (s : State E R) (a : Act E) :
    (filings s a).filterMap Sum.getLeft? = s.requestFilings a := by
  simp [filings, List.filterMap_append, List.filterMap_map, Function.comp_def]

omit [ProtocolError E] in
theorem filings_right (s : State E R) (a : Act E) :
    (filings s a).filterMap Sum.getRight? = s.notificationFilings a := by
  simp [filings, List.filterMap_append, List.filterMap_map, Function.comp_def]

/-- The registries with their log, and what becomes of the handlers: one whose channel is closed and
drained leaves its loop when it is polled, and `wait_for` on its way out takes out the entry of its
action exactly where that is its own. -/
structure KeepsHandlers (s : State E R) (log : List (DeskEvent ChanId ⊕ DeskEvent ℕ)) : Prop where
  requests : s.requestDesk.Kept (log.filterMap Sum.getLeft?)
  notifications : s.notificationDesk.Kept (log.filterMap Sum.getRight?)
  leaves : ∀ o, (s.requests.chans (.on o)).closed = true →
    (s.requests.chans (.on o)).queue = [] → s.handlers o = .recv ∨ s.handlers o = .wait →
    LeadsTo env cfg s (.handler o) fun s' => s'.handlers o = .exited
  leavesNotification : ∀ o, (s.notifications.chans o).closed = true →
    (s.notifications.chans o).queue = [] →
    s.notificationHandlers o = .recv ∨ s.notificationHandlers o = .wait →
    LeadsTo env cfg s (.notificationHandler o) fun s' => s'.notificationHandlers o = .exited
  unregister : ∀ w action outcome, s.waitFors w = .unregister action outcome →
    ∃ s', step env cfg s (.poll (.waitFor w) .ready) = some s'
      ∧ (Current (log.filterMap Sum.getLeft?) action (.waitFor w) →
        s'.requests.senders = Function.update s.requests.senders action none)
      ∧ (¬ Current (log.filterMap Sum.getLeft?) action (.waitFor w) →
        s'.requests.senders = s.requests.senders)

variable {env cfg}

theorem desks_of_reach {P : State E R × List (DeskEvent ChanId ⊕ DeskEvent ℕ) → Act E → Prop}
    {s : State E R × List (DeskEvent ChanId ⊕ DeskEvent ℕ)}
    (h : Machine.Reach ((client env cfg).observed filings) P s) :
    DeskInv s.1.requestDesk (s.2.filterMap Sum.getLeft?)
      ∧ DeskInv s.1.notificationDesk (s.2.filterMap Sum.getRight?) := by
  refine h.invariant (I := fun s => DeskInv s.1.requestDesk (s.2.filterMap Sum.getLeft?)
    ∧ DeskInv s.1.notificationDesk (s.2.filterMap Sum.getRight?)) ⟨?_, ?_⟩ ?_
  · exact DeskInv.new (by rintro (o | w) <;> rfl) (by rintro (o | w) <;> rfl)
  · exact DeskInv.new (fun _ => rfl) fun _ => rfl
  · rintro s a s' - - hs ⟨hr, hn⟩
    obtain ⟨hst, hlog⟩ := Machine.observed_step hs
    rw [hlog, List.filterMap_append, List.filterMap_append, filings_left, filings_right]
    exact ⟨hr.step (requestDesk_of_step env cfg hst),
      hn.step (notificationDesk_of_step env cfg hst)⟩

variable (env cfg)

/-- However registrations, `wait_for`s, handlers and inbound frames are mixed. -/
theorem keepsHandlers_of_reach {s : State E R × List (DeskEvent ChanId ⊕ DeskEvent ℕ)}
    (h : Machine.Reach ((client env cfg).observed filings) Machine.Any s) :
    KeepsHandlers env cfg s.1 s.2 := by
  obtain ⟨hr, hn⟩ := desks_of_reach h
  refine ⟨hr.kept, hn.kept, fun o hc hq hpc => ?_, fun o hc hq hpc => ?_,
    fun w action outcome hpc => ?_⟩
  · obtain ⟨action, hon⟩ := OnPc.registered_of_standing (s.1.ons o) fun hf =>
      absurd (hr.fresh (.on o) hf) (by simp [State.requestDesk, hc])
    refine handler_leaves env cfg hon hc hq (fun hw => hr.waiting (.on o) ?_ hc) hpc
    simp only [State.requestDesk, ChanId.elim, hw, HandlerPc.reader]
  · obtain ⟨action, hon⟩ := OnPc.registered_of_standing (s.1.onNotifications o) fun hf =>
      absurd (hn.fresh o hf) (by simp [State.notificationDesk, hc])
    refine notificationHandler_leaves env cfg hon hc hq (fun hw => hn.waiting o ?_ hc) hpc
    simp only [State.notificationDesk, hw, NotificationHandlerPc.reader]
  · refine ⟨_, waitFor_unregisters env cfg hpc, fun hcur => ?_, fun hcur => ?_⟩
    · have hown := (hr.current action (.waitFor w)).2 hcur
      exact congrArg Registry.senders (if_pos hown)
    · have hown := mt (hr.current action (.waitFor w)).1 hcur
      exact congrArg Registry.senders (if_neg hown)

end Run

/-- `wait_for` replaces a handler, and is replaced while it waits. -/
def replacedTwice : List (Act WireError) :=
  [.on 0 "A", .poll (.on 0) .ready, .poll (.handler 0) .ready, .waitFor 0 "A",
    .poll (.waitFor 0) .ready, .poll (.waitFor 0) .ready, .on 1 "A", .poll (.on 1) .ready,
    .poll (.waitFor 0) .ready, .poll (.waitFor 0) .ready]

theorem keepsHandlers_of_replacedTwice :
    ∃ s, (scenario.observed filings).run (scenario.observed filings).init replacedTwice = some s
      ∧ s.2 = [.inl (.registered "A" (.on 0)), .inl (.registered "A" (.waitFor 0)),
        .inl (.registered "A" (.on 1))]
      ∧ s.1.handlers 0 = .wait ∧ (s.1.requests.chans (.on 0)).closed = true
      ∧ s.1.waitFors 0 = .unregister "A" (.error .closed)
      ∧ KeepsHandlers scenarioEnv scenarioConfig s.1 s.2 :=
  ⟨_, rfl, by decide, rfl, rfl, rfl, keepsHandlers_of_reach scenarioEnv scenarioConfig
    (Machine.reach_any_of_run replacedTwice rfl)⟩

end OcppClient
