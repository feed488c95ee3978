import OcppClient.Lib.Async
import OcppClient.State

/-!
# The client's mutexes

The code of the client as its mutexes see it: every guard with its scope, every `await`, every
callback and every task it spawns. What the code computes is left out, so a `match` is a branch that
may go either way and a loop may be left after any turn. The tasks here take turns between any two
steps, also inside a critical section.
-/

namespace OcppClient.Locks

open Async Transition

/-- The client's asynchronous mutexes; each registry and each channel has its own. -/
inductive MutexId
  | sink
  | pendingResponses
  | requestSenders
  | notificationSenders
  | pongWaiters
  | registry (b : Broadcast)
  | requestQueue (ch : ChanId)
  | notificationQueue (o : ℕ)
  deriving DecidableEq

/-! ## Channels and registries -/

/-- `Chan::send`. -/
def chanSend (queue : MutexId) : Code MutexId := .guarded queue .skip

/-- `Chan::recv`: under the queue's lock a value, the end or neither, and then the signal. -/
def chanRecv (queue : MutexId) : Code MutexId :=
  .loop (.seq (.guarded queue .skip) (.either .skip .wait))

/-- `BroadcastRegistry::subscribe`. -/
def subscribe (b : Broadcast) : Code MutexId := .guarded (.registry b) .skip

/-- `BroadcastRegistry::notify_all`. -/
def notifyAll (b : Broadcast) : Code MutexId := .guarded (.registry b) .skip

/-- An operation on the sink under its lock. -/
def sinkOp : Code MutexId := .guarded .sink .transport

/-! ## The read loop -/

/-- A CALL with its sender looked up: answered here, or sent to the channel of its action. -/
def routeCall : Code MutexId :=
  .branch fun
    | 0 => .either .skip sinkOp
    | 1 => .branch fun o => chanSend (.requestQueue (.on o))
    | _ => .branch fun w => chanSend (.requestQueue (.waitFor w))

def handleCall : Code MutexId := .seq (.guarded .requestSenders .skip) routeCall

/-- A SEND with its sender looked up. -/
def routeSend : Code MutexId := .either .skip (.branch fun o => chanSend (.notificationQueue o))

def handleSend : Code MutexId := .seq (.guarded .notificationSenders .skip) routeSend

/-- A CALLRESULT or a CALLERROR. -/
def handleResponse : Code MutexId := .guarded .pendingResponses .skip

def handleFrame : Code MutexId :=
  .branch fun
    | 0 => .skip
    | 1 => handleCall
    | 2 => handleResponse
    | _ => handleSend

def handleEvent : Code MutexId :=
  .branch fun
    | 0 => handleFrame
    | 1 => .seq (notifyAll .ping) sinkOp
    | _ => .guarded .pongWaiters .skip

/-- The inner loop: `recv` raced against the wake signal, then the event, if it is one. -/
def receiveLoop : Code MutexId := .loop (.seq (.timed .wait) (.either .skip handleEvent))

/-- What follows a dial: the new transport in the place of the old one, unless the dial failed. -/
def swapIn : Code MutexId := .either .skip (.seq (.guarded .sink .skip) (notifyAll .reconnect))

/-- What follows the backoff: the dial, unless the client was closed meanwhile. -/
def dial : Code MutexId := .either .skip (.seq .wait swapIn)

/-- The dial loop, with its backoff raced against the wake signal. -/
def dialLoop : Code MutexId := .loop (.seq (.timed .wait) dial)

def redial : Code MutexId := .seq (.guarded .pongWaiters .skip) dialLoop

/-- The code after the inner loop: shut down, no reconnector, or a redial, with a courtesy close
where it is forced. -/
def leave : Code MutexId :=
  .branch fun
    | 0 => .guarded .pongWaiters .skip
    | 1 => .skip
    | _ => .seq (.either .skip (.guarded .sink (.timed .transport))) redial

def readLoop : Code MutexId := .loop (.seq receiveLoop leave)

/-! ## The methods -/

/-- The answer to what was written, or the timer, and then the entry of `table` is given up. -/
def awaitAnswer (table : MutexId) : Code MutexId :=
  .seq (.timed .wait) (.either .skip (.guarded table .skip))

/-- What `do_send_request` and `send_ping_with_timeout` do: nothing for a closed client, else an
entry in `table`, the write and the wait; the entry of a failed write is given up. -/
def exchange (table : MutexId) : Code MutexId :=
  .either .skip
    (.seq (.guarded table .skip)
      (.seq sinkOp (.either (.guarded table .skip) (awaitAnswer table))))

def doSendRequest : Code MutexId := exchange .pendingResponses

def sendPingWithTimeout : Code MutexId := exchange .pongWaiters

/-- A closed client or a payload that does not encode, else one operation on the sink. -/
def writeOnce : Code MutexId := .either .skip sinkOp

def sendNotification : Code MutexId := writeOnce

def disconnect : Code MutexId := writeOnce

def doSendResponse : Code MutexId := writeOnce

/-- What a handler does with what `recv` gave: the channel's end, a request for the callback, or one
that does not parse. -/
def answerCall : Code MutexId :=
  .branch fun
    | 0 => .skip
    | 1 => .seq .callback doSendResponse
    | _ => doSendResponse

/-- The task `on` spawns. -/
def handlerTask (o : ℕ) : Code MutexId :=
  .loop (.seq (chanRecv (.requestQueue (.on o))) answerCall)

def on (o : ℕ) : Code MutexId := .seq (.guarded .requestSenders .skip) (.spawn (handlerTask o))

/-- `wait_for` with what `recv` gave, and the registration removed. -/
def answerOnce : Code MutexId :=
  .seq (.either .skip (.seq .callback doSendResponse)) (.guarded .requestSenders .skip)

def waitFor (w : ℕ) : Code MutexId :=
  .seq (.guarded .requestSenders .skip)
    (.seq (.timed (chanRecv (.requestQueue (.waitFor w)))) answerOnce)

/-- What the task of `on_notification` does with what `recv` gave. -/
def takeNotification : Code MutexId := .either .skip .callback

/-- The task `on_notification` spawns. -/
def notificationTask (o : ℕ) : Code MutexId :=
  .loop (.seq (chanRecv (.notificationQueue o)) takeNotification)

def onNotification (o : ℕ) : Code MutexId :=
  .seq (.guarded .notificationSenders .skip) (.spawn (notificationTask o))

/-- The task `on_ping` and `on_reconnect` spawn. -/
def subscriberTask : Code MutexId := .loop (.seq .wait .callback)

/-- `on_ping` and `on_reconnect`. -/
def onBroadcast (b : Broadcast) : Code MutexId := .seq (subscribe b) (.spawn subscriberTask)

def pendingRequestCount : Code MutexId := .guarded .pendingResponses .skip

def pendingPingCount : Code MutexId := .guarded .pongWaiters .skip

/-- `keepalive_loop`: closed, parked, or an interval waited out and then, as a rule, a ping. -/
def keepaliveLoop : Code MutexId :=
  .loop
    (.branch fun
      | 0 => .skip
      | 1 => .wait
      | _ => .seq (.timed .wait) (.either .skip sendPingWithTimeout))

/-- The methods of `Client`. Those that await nothing are `immediate`. -/
inductive Method : Code MutexId → Prop
  | call : Method doSendRequest
  | on (o : ℕ) : Method (on o)
  | waitFor (w : ℕ) : Method (waitFor w)
  | sendNotification : Method sendNotification
  | onNotification (o : ℕ) : Method (onNotification o)
  | sendPing : Method sendPingWithTimeout
  | onBroadcast (b : Broadcast) : Method (onBroadcast b)
  | disconnect : Method disconnect
  | pendingRequestCount : Method pendingRequestCount
  | pendingPingCount : Method pendingPingCount
  | immediate : Method .skip

/-! ## The tasks -/

/-- A task the client spawned, or one of the application's, named after the future it awaits. -/
inductive Name
  | spawned (t : Task)
  | app (t : Task)
  deriving DecidableEq

/-- `from_transport_with_config` has spawned the two loops. -/
def init : System Name MutexId where
  stack
    | .spawned .read => [.run readLoop]
    | .spawned .keepalive => [.run keepaliveLoop]
    | _ => []
  owner _ := none

def locks : Machine (System Name MutexId) (Name × Move Name MutexId) := machine init

end OcppClient.Locks
