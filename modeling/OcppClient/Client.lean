import OcppClient.Lib.Transition
import OcppClient.ReadLoop
import OcppClient.Keepalive
import OcppClient.Handlers
import OcppClient.Texts

/-!
# The client as a transition system

One step polls one task, begins or drops a future, or lets a caller use a method that does not
wait. Any order of them is a run, with any inbound events, operations that fail or stay pending, and
timers that fire when they like.
-/

namespace OcppClient

open Transition

inductive Act (E : Type)
  | poll (t : Task) (p : Poll)
  | recv (e : Option TransportEvent)
  | call (c : ℕ) (action : String) (payload : Except JsonError Value)
  | dropCall (c : ℕ)
  | ping (n : ℕ)
  | dropPing (n : ℕ)
  | notify (n : ℕ) (action : String) (payload : Except JsonError Value)
  | disconnect (d : ℕ)
  | forceReconnect
  | setPingInterval (interval : Option Duration)
  | on (o : ℕ) (action : String)
  | respond (o : ℕ) (r : Except E (Except JsonError Value))
  | waitFor (w : ℕ) (action : String)
  | waitForRespond (w : ℕ) (r : Except E (Except JsonError Value))
  | onNotification (o : ℕ) (action : String)
  | subscribe (i : ℕ) (b : Broadcast)

variable {E R : Type} [ProtocolError E] (env : Env R) (cfg : ClientConfig)

def pollTask (s : State E R) (t : Task) (p : Poll) : Option (State E R) :=
  match t with
  | .read => readPoll env cfg s p
  | .keepalive => keepalivePoll cfg s p
  | .call c => callPoll env s c p
  | .ping (.user n) => pingPoll s (.user n) p
  | .ping (.keepalive n) => keepalivePingPoll cfg s n p
  | .notification n => notificationPoll s n p
  | .disconnect d => disconnectPoll s d p
  | .on o => onPoll s o p
  | .handler o => handlerPoll env s o p
  | .waitFor w => waitForPoll env s w p
  | .onNotification o => onNotificationPoll s o p
  | .notificationHandler o => notificationHandlerPoll env s o p
  | .subscriber i => subscriberPoll s i p

def step (s : State E R) : Act E → Option (State E R)
  | .poll t p => pollTask env cfg s t p
  | .recv e => readRecv env cfg s e
  | .call c action payload => doSendRequest env s c action payload
  | .dropCall c => callDrop s c
  | .ping n => sendPing cfg s n
  | .dropPing n => pingDrop s n
  | .notify n action payload => sendNotification env s n action payload
  | .disconnect d => disconnect s d
  | .forceReconnect => some s.forceReconnect
  | .setPingInterval interval => some (setPingInterval s interval)
  | .on o action => on s o action
  | .respond o r => handlerRespond env s o r
  | .waitFor w action => waitFor s w action
  | .waitForRespond w r => waitForRespond env s w r
  | .onNotification o action => onNotification s o action
  | .subscribe i b => subscribe s i b

/-- A client over a transport, from its construction on. -/
def client : Machine (State E R) (Act E) where
  init := .new cfg
  step := step env cfg

/-! ## A concrete client

An environment and a configuration in which runs can be evaluated: UUIDs are drawn in order, and of
JSON texts those of the arrays of plain items are read. -/

structure WireError where
  code : String
  description : String
  deriving DecidableEq

instance : ProtocolError WireError where
  code e := e.code
  description e := e.description
  details _ := .object []
  notImplemented description := ⟨"NotImplemented", description⟩
  fromWire code description _ := ⟨code, description⟩

def callFrame : String := "[2,\"m\",\"A\",null]"

/-- The CALLERROR that refuses it. -/
def callErrorFrame : String :=
  "[4,\"m\",\"NotImplemented\",\"Action 'A' is not implemented\",\x7b\x7d]"

/-- The CALLs that the first two draws identify. -/
def firstCall : String := "[2,\"00000000-0000-4000-8000-000000000000\",\"A\",null]"

def secondCall : String := "[2,\"00000000-0000-4000-8000-000000000001\",\"A\",null]"

/-- The CALLRESULT that answers the first. -/
def resultFrame : String := "[3,\"00000000-0000-4000-8000-000000000000\",null]"

def scenarioEnv : Env Unit where
  newV4 := uuidV4
  uuidToString := uuidText
  uuidParseStr := parseUuid
  fromStr frame := (readArray frame).elim (.error "expected value") .ok
  toString v := .ok v.text
  decodeRequest _ _ := .ok ()
  fromValue _ _ := .ok ()

/-- Half a minute for a request, and both policies as they are by default. -/
def scenarioConfig : ClientConfig := ⟨.fromSecs 30, true, default, .enabled default⟩

def scenario : Machine (State WireError Unit) (Act WireError) := client scenarioEnv scenarioConfig

end OcppClient
