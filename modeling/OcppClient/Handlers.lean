import OcppClient.State

/-!
# Handlers

`on`, `wait_for` and `on_notification`, with the tasks `on` and `on_notification` spawn, and the
subscribers of `on_ping` and `on_reconnect`. A callback is the caller's code: it ends at some later
step, with a response where it has one.
-/

namespace OcppClient

variable {E R : Type} [ProtocolError E] (env : Env R)

/-! ## Requests -/

/-- `on` up to the lock of `request_senders`. -/
def on (s : State E R) (o : ℕ) (action : String) : Option (State E R) :=
  match s.ons o with
  | .idle => some { s with ons := Function.update s.ons o (.lock action) }
  | _ => none

/-- The registration under the lock, and the handler task it spawns. -/
def onPoll (s : State E R) (o : ℕ) (p : Poll) : Option (State E R) :=
  match s.ons o, p with
  | .lock action, .ready =>
    some
      { s with
        requests := s.requests.insert action (.on o)
        ons := Function.update s.ons o (.registered action)
        handlers := Function.update s.handlers o .recv }
  | _, _ => none

/-- The handler after `do_send_response` has made its frame: at the sink's lock, or back at `recv`
where there is none to write. -/
def respondPc : Option String → HandlerPc
  | some frame => .lockSink frame
  | none => .recv

/-- The handler of `action` with a CALL in hand. -/
def handleCall (action messageId : String) (payload : Value) : HandlerPc :=
  match env.decodeRequest action payload with
  | .ok _ => .callback messageId
  | .error _ =>
    respondPc (responseFrame env messageId
      (.error (ProtocolError.notImplemented s!"Failed to parse payload for {action}" : E)))

/-- `recv` of a handler's channel, under the queue's lock. -/
def handlerRecv (s : State E R) (o : ℕ) (action : String) : State E R :=
  match (s.requests.chans (.on o)).recv with
  | .value (messageId, payload) rest =>
    { s with
      requests := s.requests.modify (.on o) fun _ => rest
      handlers := Function.update s.handlers o (handleCall (E := E) env action messageId payload) }
  | .none => { s with handlers := Function.update s.handlers o .exited }
  | .wait => { s with handlers := Function.update s.handlers o .wait }

def handlerPoll (s : State E R) (o : ℕ) (p : Poll) : Option (State E R) :=
  match s.handlers o, s.ons o, p with
  | .recv, .registered action, .ready => some (handlerRecv env s o action)
  | .wait, _, .ready =>
    if (s.requests.chans (.on o)).signal then
      some
        { s with
          requests := s.requests.modify (.on o) .take
          handlers := Function.update s.handlers o .recv }
    else none
  | .lockSink frame, _, .ready =>
    (s.issue (.handler o) (.send frame)).map fun s =>
      { s with handlers := Function.update s.handlers o .sending }
  | .sending, _, .pend => s.pend
  | .sending, _, .done _ =>
    some { s.release with handlers := Function.update s.handlers o .recv }
  | _, _, _ => none

/-- The callback of a handler ends, with the response it returned. -/
def handlerRespond (s : State E R) (o : ℕ) (r : Except E (Except JsonError Value)) :
    Option (State E R) :=
  match s.handlers o with
  | .callback messageId =>
    some
      { s with
        handlers := Function.update s.handlers o (respondPc (responseFrame env messageId r)) }
  | _ => none

/-! ## `wait_for` -/

def State.setWaitFor (s : State E R) (w : ℕ) (pc : WaitForPc E) : State E R :=
  { s with waitFors := Function.update s.waitFors w pc }

def waitFor (s : State E R) (w : ℕ) (action : String) : Option (State E R) :=
  match s.waitFors w with
  | .idle => some (s.setWaitFor w (.lock action))
  | _ => none

def waitForRecv (s : State E R) (w : ℕ) (action : String) : State E R :=
  match (s.requests.chans (.waitFor w)).recv with
  | .value (messageId, payload) rest =>
    { s with requests := s.requests.modify (.waitFor w) fun _ => rest }.setWaitFor w
      (match env.decodeRequest action payload with
        | .ok _ => .callback action messageId payload
        | .error e => .unregister action (.error (.decode e)))
  | .none => s.setWaitFor w (.unregister action (.error .closed))
  | .wait => s.setWaitFor w (.wait action)

def waitForPoll (s : State E R) (w : ℕ) (p : Poll) : Option (State E R) :=
  match s.waitFors w, p with
  | .lock action, .ready =>
    some ({ s with requests := s.requests.insert action (.waitFor w) }.setWaitFor w (.recv action))
  | .recv action, .ready => some (waitForRecv env s w action)
  | .wait action, .ready =>
    if (s.requests.chans (.waitFor w)).signal then
      some ({ s with requests := s.requests.modify (.waitFor w) .take }.setWaitFor w (.recv action))
    else none
  | .wait action, .timer =>
    if (s.requests.chans (.waitFor w)).signal then none
    else some (s.setWaitFor w (.unregister action (.error .timeout)))
  | .lockSink action outcome frame, .ready =>
    (s.issue (.waitFor w) (.send frame)).map fun s => s.setWaitFor w (.sending action outcome)
  | .sending _ _, .pend => s.pend
  | .sending action outcome, .done _ => some (s.release.setWaitFor w (.unregister action outcome))
  | .unregister action outcome, .ready =>
    some
      ({ s with requests := s.requests.removeOwn action (.waitFor w) }.setWaitFor w
        (.returned outcome))
  | _, _ => none

def waitForRespond (s : State E R) (w : ℕ) (r : Except E (Except JsonError Value)) :
    Option (State E R) :=
  match s.waitFors w with
  | .callback action messageId payload =>
    match responseFrame env messageId r with
    | some frame => some (s.setWaitFor w (.lockSink action (.ok payload) frame))
    | none => some (s.setWaitFor w (.unregister action (.ok payload)))
  | _ => none

/-! ## Notifications -/

def onNotification (s : State E R) (o : ℕ) (action : String) : Option (State E R) :=
  match s.onNotifications o with
  | .idle => some { s with onNotifications := Function.update s.onNotifications o (.lock action) }
  | _ => none

def onNotificationPoll (s : State E R) (o : ℕ) (p : Poll) : Option (State E R) :=
  match s.onNotifications o, p with
  | .lock action, .ready =>
    some
      { s with
        notifications := s.notifications.insert action o
        onNotifications := Function.update s.onNotifications o (.registered action)
        notificationHandlers := Function.update s.notificationHandlers o .recv }
  | _, _ => none

def State.setNotificationHandler (s : State E R) (o : ℕ) (pc : NotificationHandlerPc) :
    State E R :=
  { s with notificationHandlers := Function.update s.notificationHandlers o pc }

def notificationHandlerRecv (s : State E R) (o : ℕ) (action : String) : State E R :=
  match (s.notifications.chans o).recv with
  | .value payload rest =>
    { s with notifications := s.notifications.modify o fun _ => rest }.setNotificationHandler o
      (match env.decodeRequest action payload with
        | .ok _ => .callback
        | .error _ => .recv)
  | .none => s.setNotificationHandler o .exited
  | .wait => s.setNotificationHandler o .wait

def notificationHandlerPoll (s : State E R) (o : ℕ) (p : Poll) : Option (State E R) :=
  match s.notificationHandlers o, s.onNotifications o, p with
  | .recv, .registered action, .ready => some (notificationHandlerRecv env s o action)
  | .wait, _, .ready =>
    if (s.notifications.chans o).signal then
      some ({ s with notifications := s.notifications.modify o .take }.setNotificationHandler o
        .recv)
    else none
  | .callback, _, .ready => some (s.setNotificationHandler o .recv)
  | _, _, _ => none

/-! ## Subscribers -/

/-- `on_ping` and `on_reconnect` up to the registry's lock. -/
def subscribe (s : State E R) (i : ℕ) (b : Broadcast) : Option (State E R) :=
  match s.subs i with
  | .idle => some { s with subs := Function.update s.subs i (.subscribe b) }
  | _ => none

def subscriberPoll (s : State E R) (i : ℕ) (p : Poll) : Option (State E R) :=
  match s.subs i, p with
  | .subscribe b, .ready =>
    some
      { s with
        subscribers := Function.update s.subscribers b (s.subscribers b ++ [i])
        subs := Function.update s.subs i .wait }
  | .wait, .ready =>
    if s.signals i then
      some
        { s with
          signals := Function.update s.signals i false
          subs := Function.update s.subs i .callback }
    else none
  | .callback, .ready => some { s with subs := Function.update s.subs i .wait }
  | _, _ => none

end OcppClient
