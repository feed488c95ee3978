import OcppClient.Locks
import OcppClient.Client

/-!
# The client among its mutexes

The state of a client, in which every task stands at an `await`, is a state of the tasks of
`Locks`: what a task has left to do is the rest of its code from there, the sink's mutex is owned by
the task inside an operation, and every other mutex is free.
-/

namespace OcppClient.Locks

open Async Transition Machine

variable {E R : Type}

/-! ## The stacks -/

/-- `Chan::recv` at the lock of the queue. -/
def recvStack (queue : MutexId) (k : List (Item MutexId)) : List (Item MutexId) :=
  .run (.guarded queue .skip) :: .run (.either .skip .wait) :: .run (chanRecv queue) :: k

/-- `Chan::recv` at the signal. -/
def waitStack (queue : MutexId) (k : List (Item MutexId)) : List (Item MutexId) :=
  .run .wait :: .run (chanRecv queue) :: k

/-- Inside an operation on the sink. -/
def opStack (k : List (Item MutexId)) : List (Item MutexId) :=
  .run .transport :: .release .sink :: k

/-- The inner loop of the read loop at its top. -/
def receiving : List (Item MutexId) := [.run receiveLoop, .run leave, .run readLoop]

/-- The dial loop of the read loop at its top. -/
def dialling : List (Item MutexId) := [.run dialLoop, .run readLoop]

def readStack : ReadPc E → List (Item MutexId)
  | .recv => .run .wait :: .expiry :: .run (.either .skip handleEvent) :: receiving
  | .lockRequestSenders _ _ _ =>
    .run (.guarded .requestSenders .skip) :: .run routeCall :: receiving
  | .pushRequest ch _ _ => .run (chanSend (.requestQueue ch)) :: receiving
  | .lockNotImplemented _ => .run sinkOp :: receiving
  | .sendNotImplemented => opStack receiving
  | .lockNotificationSenders _ _ =>
    .run (.guarded .notificationSenders .skip) :: .run routeSend :: receiving
  | .pushNotification o _ => .run (chanSend (.notificationQueue o)) :: receiving
  | .lockPending _ _ => .run handleResponse :: receiving
  | .notifyPing _ => .run (notifyAll .ping) :: .run sinkOp :: receiving
  | .lockPong _ => .run sinkOp :: receiving
  | .sendPong => opStack receiving
  | .lockWaiters _ => .run (.guarded .pongWaiters .skip) :: receiving
  | .clearShutdown => [.run (.guarded .pongWaiters .skip), .run readLoop]
  | .lockClose => [.run (.guarded .sink (.timed .transport)), .run redial, .run readLoop]
  | .sendClose => [.run .transport, .expiry, .release .sink, .run redial, .run readLoop]
  | .clearWaiters => .run (.guarded .pongWaiters .skip) :: dialling
  | .backoff _ => .run .wait :: .expiry :: .run dial :: dialling
  | .dial _ => .run .wait :: .run swapIn :: dialling
  | .lockSwap _ => .run (.guarded .sink .skip) :: .run (notifyAll .reconnect) :: dialling
  | .notifyReconnect => .run (notifyAll .reconnect) :: dialling
  | .exited => []

/-- Where a request or a ping stands. -/
inductive Stage
  | idle
  | register
  | lock
  | sending
  | waiting
  | forget
  | done
  deriving DecidableEq

def CallPc.stage : CallPc E R → Stage
  | .idle => .idle
  | .lockPending _ _ _ => .register
  | .lockSink _ _ _ => .lock
  | .sending _ _ => .sending
  | .waiting _ _ => .waiting
  | .forget _ _ => .forget
  | .returned _ => .done
  | .dropped => .done

def PingPc.stage : PingPc E → Stage
  | .idle => .idle
  | .lockWaiters _ => .register
  | .lockSink _ _ => .lock
  | .sending _ _ => .sending
  | .waiting _ _ => .waiting
  | .forget _ _ => .forget
  | .returned _ => .done
  | .dropped => .done

/-- The rest of an exchange that registers in `table`, before `k`. -/
def Stage.stack (table : MutexId) (k : List (Item MutexId)) : Stage → List (Item MutexId)
  | .idle => []
  | .register =>
    .run (.guarded table .skip)
      :: .run (.seq sinkOp (.either (.guarded table .skip) (awaitAnswer table))) :: k
  | .lock => .run sinkOp :: .run (.either (.guarded table .skip) (awaitAnswer table)) :: k
  | .sending => opStack (.run (.either (.guarded table .skip) (awaitAnswer table)) :: k)
  | .waiting => .run .wait :: .expiry :: .run (.either .skip (.guarded table .skip)) :: k
  | .forget => .run (.guarded table .skip) :: k
  | .done => k

/-- The application after a method has returned. -/
def atCaller : List (Item MutexId) := [.run .callback]

/-- A `send_ping` of the application's. -/
def userPingStack (p : PingId) (pc : PingPc E) : List (Item MutexId) :=
  match p with
  | .user _ => (PingPc.stage pc).stack .pongWaiters atCaller
  | .keepalive _ => []

def keepaliveStack (pings : PingId → PingPc E) : KeepalivePc → List (Item MutexId)
  | .start => [.run keepaliveLoop]
  | .parked => [.run .wait, .run keepaliveLoop]
  | .waiting _ =>
    [.run .wait, .expiry, .run (.either .skip sendPingWithTimeout), .run keepaliveLoop]
  | .pinging n => (PingPc.stage (pings (.keepalive n))).stack .pongWaiters [.run keepaliveLoop]
  | .exited => []

def notificationStack : NotificationPc E → List (Item MutexId)
  | .idle => []
  | .lockSink _ => .run sinkOp :: atCaller
  | .sending => opStack atCaller
  | .returned _ => atCaller

def disconnectStack : DisconnectPc E → List (Item MutexId)
  | .idle => []
  | .lockSink => .run sinkOp :: atCaller
  | .closing => opStack atCaller
  | .returned _ => atCaller
  | .alreadyClosed => atCaller

/-- `on` or `on_notification`, with the mutex of its table and the task it spawns. -/
def onStack (table : MutexId) (task : Code MutexId) : OnPc → List (Item MutexId)
  | .idle => []
  | .lock _ => .run (.guarded table .skip) :: .run (.spawn task) :: atCaller
  | .registered _ => atCaller

def handlerStack (o : ℕ) : HandlerPc → List (Item MutexId)
  | .absent => []
  | .recv => recvStack (.requestQueue (.on o)) [.run answerCall, .run (handlerTask o)]
  | .wait => waitStack (.requestQueue (.on o)) [.run answerCall, .run (handlerTask o)]
  | .callback _ => [.run .callback, .run doSendResponse, .run (handlerTask o)]
  | .lockSink _ => [.run sinkOp, .run (handlerTask o)]
  | .sending => opStack [.run (handlerTask o)]
  | .exited => []

def waitForStack (w : ℕ) : WaitForPc E → List (Item MutexId)
  | .idle => []
  | .lock _ =>
    .run (.guarded .requestSenders .skip)
      :: .run (.seq (.timed (chanRecv (.requestQueue (.waitFor w)))) answerOnce) :: atCaller
  | .recv _ => recvStack (.requestQueue (.waitFor w)) (.expiry :: .run answerOnce :: atCaller)
  | .wait _ => waitStack (.requestQueue (.waitFor w)) (.expiry :: .run answerOnce :: atCaller)
  | .callback _ _ _ =>
    .run .callback :: .run doSendResponse :: .run (.guarded .requestSenders .skip) :: atCaller
  | .lockSink _ _ _ => .run sinkOp :: .run (.guarded .requestSenders .skip) :: atCaller
  | .sending _ _ => opStack (.run (.guarded .requestSenders .skip) :: atCaller)
  | .unregister _ _ => .run (.guarded .requestSenders .skip) :: atCaller
  | .returned _ => atCaller

def notificationHandlerStack (o : ℕ) : OnPc → NotificationHandlerPc → List (Item MutexId)
  | .registered _, .recv =>
    recvStack (.notificationQueue o) [.run takeNotification, .run (notificationTask o)]
  | .registered _, .wait =>
    waitStack (.notificationQueue o) [.run takeNotification, .run (notificationTask o)]
  | .registered _, .callback => [.run .callback, .run (notificationTask o)]
  | _, _ => []

/-- `on_ping` or `on_reconnect`. -/
def subscribeStack : SubscriberPc → List (Item MutexId)
  | .idle => []
  | .subscribe b => .run (subscribe b) :: .run (.spawn subscriberTask) :: atCaller
  | .wait => atCaller
  | .callback => atCaller

/-- The task that `on_ping` or `on_reconnect` spawns. -/
def subscriberStack : SubscriberPc → List (Item MutexId)
  | .idle => []
  | .subscribe _ => []
  | .wait => [.run .wait, .run .callback, .run subscriberTask]
  | .callback => [.run .callback, .run subscriberTask]

/-- The tasks the client spawned. A task of `on_notification` is there once it has registered. -/
def spawnedStack (s : State E R) : Task → List (Item MutexId)
  | .read => readStack s.read
  | .keepalive => keepaliveStack s.pings s.keepalive
  | .handler o => handlerStack o (s.handlers o)
  | .notificationHandler o =>
    notificationHandlerStack o (s.onNotifications o) (s.notificationHandlers o)
  | .subscriber i => subscriberStack (s.subs i)
  | _ => []

/-- The tasks of the application that await a method. -/
def appStack (s : State E R) : Task → List (Item MutexId)
  | .call c => (CallPc.stage (s.calls c)).stack .pendingResponses atCaller
  | .ping p => userPingStack p (s.pings p)
  | .notification n => notificationStack (s.sends n)
  | .disconnect d => disconnectStack (s.disconnects d)
  | .on o => onStack .requestSenders (handlerTask o) (s.ons o)
  | .waitFor w => waitForStack w (s.waitFors w)
  | .onNotification o => onStack .notificationSenders (notificationTask o) (s.onNotifications o)
  | .subscriber i => subscribeStack (s.subs i)
  | _ => []

def stackOf (s : State E R) : Name → List (Item MutexId)
  | .spawned t => spawnedStack s t
  | .app t => appStack s t

/-- The task that takes the turns of one of the client's. -/
def nameOf : Task → Name
  | .read => .spawned .read
  | .keepalive => .spawned .keepalive
  | .ping (.keepalive _) => .spawned .keepalive
  | .handler o => .spawned (.handler o)
  | .notificationHandler o => .spawned (.notificationHandler o)
  | t => .app t

def lockView (s : State E R) : System Name MutexId where
  stack := stackOf s
  owner
    | .sink => s.holder.map nameOf
    | _ => none

/-! ## One task moves -/

section Moves

theorem stackOf_read (s : State E R) (pc : ReadPc E) :
    stackOf { s with read := pc }
      = Function.update (stackOf s) (.spawned .read) (readStack pc) := by
  funext t
  rcases t with t | t <;> cases t <;> rfl

theorem stackOf_keepalive (s : State E R) (pc : KeepalivePc) :
    stackOf { s with keepalive := pc }
      = Function.update (stackOf s) (.spawned .keepalive) (keepaliveStack s.pings pc) := by
  funext t
  rcases t with t | t <;> cases t <;> rfl

/-- The ping the keepalive loop is at. -/
theorem stackOf_keepalivePing (s : State E R) (n : ℕ) (pc : PingPc E) :
    stackOf { s with
        pings := Function.update s.pings (.keepalive n) pc, keepalive := .pinging n }
      = Function.update (stackOf s) (.spawned .keepalive)
        ((PingPc.stage pc).stack .pongWaiters [.run keepaliveLoop]) := by
  funext t
  rcases t with t | t <;> cases t
  case spawned.keepalive => simp [stackOf, spawnedStack, keepaliveStack]
  case app.ping p => rcases p with n' | n' <;> simp [stackOf, appStack, userPingStack]
  all_goals rfl

theorem stackOf_call (s : State E R) (c : ℕ) (pc : CallPc E R) :
    stackOf { s with calls := Function.update s.calls c pc }
      = Function.update (stackOf s) (.app (.call c))
        ((CallPc.stage pc).stack .pendingResponses atCaller) := by
  funext t
  rcases t with t | t <;> cases t
  case app.call i => rcases eq_or_ne i c with rfl | hne <;> simp [stackOf, appStack, *]
  all_goals rfl

theorem stackOf_ping (s : State E R) (n : ℕ) (pc : PingPc E) :
    stackOf { s with pings := Function.update s.pings (.user n) pc }
      = Function.update (stackOf s) (.app (.ping (.user n)))
        ((PingPc.stage pc).stack .pongWaiters atCaller) := by
  funext t
  rcases t with t | t <;> cases t
  case spawned.keepalive =>
    rw [Function.update_of_ne (by simp)]
    simp only [stackOf, spawnedStack]
    cases s.keepalive <;> simp [keepaliveStack]
  case app.ping p =>
    rcases eq_or_ne p (.user n) with rfl | hne
    · simp [stackOf, appStack, userPingStack]
    · simp [stackOf, appStack, hne]
  all_goals rfl

theorem stackOf_notification (s : State E R) (n : ℕ) (pc : NotificationPc E) :
    stackOf { s with sends := Function.update s.sends n pc }
      = Function.update (stackOf s) (.app (.notification n)) (notificationStack pc) := by
  funext t
  rcases t with t | t <;> cases t
  case app.notification i => rcases eq_or_ne i n with rfl | hne <;> simp [stackOf, appStack, *]
  all_goals rfl

theorem stackOf_disconnect (s : State E R) (d : ℕ) (pc : DisconnectPc E) :
    stackOf { s with disconnects := Function.update s.disconnects d pc }
      = Function.update (stackOf s) (.app (.disconnect d)) (disconnectStack pc) := by
  funext t
  rcases t with t | t <;> cases t
  case app.disconnect i => rcases eq_or_ne i d with rfl | hne <;> simp [stackOf, appStack, *]
  all_goals rfl

theorem stackOf_handler (s : State E R) (o : ℕ) (pc : HandlerPc) :
    stackOf { s with handlers := Function.update s.handlers o pc }
      = Function.update (stackOf s) (.spawned (.handler o)) (handlerStack o pc) := by
  funext t
  rcases t with t | t <;> cases t
  case spawned.handler i => rcases eq_or_ne i o with rfl | hne <;> simp [stackOf, spawnedStack, *]
  all_goals rfl

theorem stackOf_waitFor (s : State E R) (w : ℕ) (pc : WaitForPc E) :
    stackOf { s with waitFors := Function.update s.waitFors w pc }
      = Function.update (stackOf s) (.app (.waitFor w)) (waitForStack w pc) := by
  funext t
  rcases t with t | t <;> cases t
  case app.waitFor i => rcases eq_or_ne i w with rfl | hne <;> simp [stackOf, appStack, *]
  all_goals rfl

theorem stackOf_on (s : State E R) (o : ℕ) (pc : OnPc) :
    stackOf { s with ons := Function.update s.ons o pc }
      = Function.update (stackOf s) (.app (.on o))
        (onStack .requestSenders (handlerTask o) pc) := by
  funext t
  rcases t with t | t <;> cases t
  case app.on i => rcases eq_or_ne i o with rfl | hne <;> simp [stackOf, appStack, *]
  all_goals rfl

/-- `on` registers, and its task begins. -/
theorem stackOf_on_registered (s : State E R) (o : ℕ) (action : String) :
    stackOf { s with
        ons := Function.update s.ons o (.registered action)
        handlers := Function.update s.handlers o .recv }
      = Function.update (Function.update (stackOf s) (.app (.on o)) atCaller)
        (.spawned (.handler o)) (handlerStack o .recv) := by
  have h := stackOf_handler { s with ons := Function.update s.ons o (.registered action) } o .recv
  rw [stackOf_on] at h
  exact h

theorem stackOf_onNotification (s : State E R) (o : ℕ) (action : String)
    (hpc : s.onNotifications o = .idle) :
    stackOf { s with onNotifications := Function.update s.onNotifications o (.lock action) }
      = Function.update (stackOf s) (.app (.onNotification o))
        (onStack .notificationSenders (notificationTask o) (.lock action)) := by
  funext t
  rcases t with t | t <;> cases t
  case app.onNotification i => rcases eq_or_ne i o with rfl | hne <;> simp [stackOf, appStack, *]
  case spawned.notificationHandler i =>
    rw [Function.update_of_ne (by simp)]
    rcases eq_or_ne i o with rfl | hne
    · simp [stackOf, spawnedStack, notificationHandlerStack, hpc]
    · simp [stackOf, spawnedStack, hne]
  all_goals rfl

/-- `on_notification` registers, and its task begins. -/
theorem stackOf_onNotification_registered (s : State E R) (o : ℕ) (action : String) :
    stackOf { s with
        onNotifications := Function.update s.onNotifications o (.registered action)
        notificationHandlers := Function.update s.notificationHandlers o .recv }
      = Function.update (Function.update (stackOf s) (.app (.onNotification o)) atCaller)
        (.spawned (.notificationHandler o))
        (recvStack (.notificationQueue o)
          [.run takeNotification, .run (notificationTask o)]) := by
  funext t
  rcases t with t | t <;> cases t
  case app.onNotification i =>
    rcases eq_or_ne i o with rfl | hne <;> simp [stackOf, appStack, onStack, *]
  case spawned.notificationHandler i =>
    rcases eq_or_ne i o with rfl | hne
    · simp [stackOf, spawnedStack, notificationHandlerStack]
    · simp [stackOf, spawnedStack, hne]
  all_goals rfl

theorem stackOf_notificationHandler (s : State E R) (o : ℕ) (pc : NotificationHandlerPc) :
    stackOf { s with notificationHandlers := Function.update s.notificationHandlers o pc }
      = Function.update (stackOf s) (.spawned (.notificationHandler o))
        (notificationHandlerStack o (s.onNotifications o) pc) := by
  funext t
  rcases t with t | t <;> cases t
  case spawned.notificationHandler i =>
    rcases eq_or_ne i o with rfl | hne <;> simp [stackOf, spawnedStack, *]
  all_goals rfl

/-- A subscriber is two tasks: the application's, which subscribes, and the one it spawns. -/
theorem stackOf_subscriber (s : State E R) (i : ℕ) (pc : SubscriberPc) :
    stackOf { s with subs := Function.update s.subs i pc }
      = Function.update (Function.update (stackOf s) (.app (.subscriber i)) (subscribeStack pc))
        (.spawned (.subscriber i)) (subscriberStack pc) := by
  funext t
  rcases t with t | t <;> cases t
  case app.subscriber j =>
    rcases eq_or_ne j i with rfl | hne <;> simp [stackOf, appStack, *]
  case spawned.subscriber j =>
    rcases eq_or_ne j i with rfl | hne <;> simp [stackOf, spawnedStack, *]
  all_goals rfl

end Moves

end OcppClient.Locks
