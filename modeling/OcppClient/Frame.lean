import Mathlib.Tactic.Common
import OcppClient.Policy

/-!
# Frames

JSON values, the OCPP-J envelopes of `envelope.rs`, the error traits of `error.rs`, and what
`handle_frame` decides from a frame before it touches anything shared. A frame is parsed twice, as a
value and then as the envelope its message type names; the derived tuple deserialisers accept the
arrays of their length whose elements have their types.

`serde_json`, `uuid` and the message types are outside the repository: `Env` holds what the client
uses of them.
-/

namespace OcppClient

/-- `serde_json::Number`; a float is kept as its bits. -/
inductive Number
  | posInt (n : UInt64)
  | negInt (n : Int64)
  | float (bits : UInt64)
  deriving DecidableEq

def Number.asU64 : Number → Option UInt64
  | .posInt n => some n
  | _ => none

/-- `serde_json::Value`. -/
inductive Value
  | null
  | bool (b : Bool)
  | number (n : Number)
  | string (s : String)
  | array (items : List Value)
  | object (fields : List (String × Value))

instance : Inhabited Value := ⟨.null⟩

mutual

def Value.beq : Value → Value → Bool
  | .null, .null => true
  | .bool a, .bool b => a == b
  | .number m, .number n => m == n
  | .string s, .string t => s == t
  | .array vs, .array ws => Value.beqItems vs ws
  | .object fs, .object gs => Value.beqFields fs gs
  | _, _ => false

def Value.beqItems : List Value → List Value → Bool
  | [], [] => true
  | v :: vs, w :: ws => v.beq w && Value.beqItems vs ws
  | _, _ => false

def Value.beqFields : List (String × Value) → List (String × Value) → Bool
  | [], [] => true
  | (k, v) :: fs, (l, w) :: gs => k == l && v.beq w && Value.beqFields fs gs
  | _, _ => false

end

mutual

theorem Value.beq_iff : ∀ v w : Value, v.beq w = true ↔ v = w
  | .null, w | .bool _, w | .number _, w | .string _, w => by cases w <;> simp [Value.beq]
  | .array vs, w => by
    cases w with
    | array ws => simp [Value.beq, Value.beqItems_iff vs ws]
    | _ => simp [Value.beq]
  | .object fs, w => by
    cases w with
    | object gs => simp [Value.beq, Value.beqFields_iff fs gs]
    | _ => simp [Value.beq]

theorem Value.beqItems_iff : ∀ vs ws : List Value, Value.beqItems vs ws = true ↔ vs = ws
  | [], ws => by cases ws <;> simp [Value.beqItems]
  | v :: vs, ws => by
    cases ws with
    | nil => simp [Value.beqItems]
    | cons w ws => simp [Value.beqItems, Value.beq_iff v w, Value.beqItems_iff vs ws]

theorem Value.beqFields_iff :
    ∀ fs gs : List (String × Value), Value.beqFields fs gs = true ↔ fs = gs
  | [], gs => by cases gs <;> simp [Value.beqFields]
  | (k, v) :: fs, gs => by
    cases gs with
    | nil => simp [Value.beqFields]
    | cons g gs =>
      simp [Value.beqFields, Value.beq_iff v g.2, Value.beqFields_iff fs gs, Prod.ext_iff]

end

instance : DecidableEq Value := fun v w => decidable_of_iff _ (Value.beq_iff v w)

abbrev JsonError := String

abbrev TransportError := String

def messageTypeCall : UInt64 := 2
def messageTypeResult : UInt64 := 3
def messageTypeError : UInt64 := 4
def messageTypeSend : UInt64 := 6

/-- `RawCall`, and `RawSend`, which has the same shape. -/
structure RawCall where
  messageType : UInt64
  messageId : String
  action : String
  payload : Value

structure RawResult where
  messageType : UInt64
  messageId : String
  payload : Value

structure RawError where
  messageType : UInt64
  messageId : String
  code : String
  description : String
  details : Value

abbrev RawSend := RawCall

def RawCall.toValue (c : RawCall) : Value :=
  .array [.number (.posInt c.messageType), .string c.messageId, .string c.action, c.payload]

def RawCall.fromValue : Value → Option RawCall
  | .array [.number (.posInt t), .string id, .string action, payload] =>
    some ⟨t, id, action, payload⟩
  | _ => none

def RawResult.toValue (r : RawResult) : Value :=
  .array [.number (.posInt r.messageType), .string r.messageId, r.payload]

def RawResult.fromValue : Value → Option RawResult
  | .array [.number (.posInt t), .string id, payload] => some ⟨t, id, payload⟩
  | _ => none

def RawError.toValue (e : RawError) : Value :=
  .array [.number (.posInt e.messageType), .string e.messageId, .string e.code,
    .string e.description, e.details]

def RawError.fromValue : Value → Option RawError
  | .array [.number (.posInt t), .string id, .string code, .string description, details] =>
    some ⟨t, id, code, description, details⟩
  | _ => none

/-- The `ProtocolError` trait. -/
class ProtocolError (E : Type) where
  code : E → String
  description : E → String
  details : E → Value
  notImplemented : String → E
  fromWire : String → String → Value → E

inductive ClientError (E : Type)
  | protocol (e : E)
  | timeout
  | decode (e : JsonError)
  | transport (e : TransportError)
  | closed
  deriving DecidableEq

/-- What the client uses of `uuid`, `serde_json` and the message types: the `n`-th draw of
`Uuid::new_v4`, the text form of a UUID and its parser, JSON text, and the typed forms of an
action's requests and of its responses, `R`. -/
structure Env (R : Type) where
  newV4 : ℕ → Uuid
  uuidToString : Uuid → String
  uuidParseStr : String → Option Uuid
  fromStr : String → Except JsonError Value
  toString : Value → Except JsonError String
  decodeRequest : String → Value → Except JsonError Unit
  fromValue : String → Value → Except JsonError R

/-- What `handle_frame` goes on to do with a frame. -/
inductive Dispatch (E : Type)
  | ignore
  | call (messageId action : String) (payload : Value)
  | response (id : Uuid) (result : Except E Value)
  | send (action : String) (payload : Value)

variable {E R : Type} [ProtocolError E] (env : Env R)

/-- `serde_json::from_str` at an envelope. -/
def fromStrAs {T : Type} (fromValue : Value → Option T) (frame : String) : Option T :=
  match env.fromStr frame with
  | .ok v => fromValue v
  | .error _ => none

def dispatchCall (frame : String) : Dispatch E :=
  match fromStrAs env RawCall.fromValue frame with
  | some call => .call call.messageId call.action call.payload
  | none => .ignore

def dispatchResult (frame : String) : Dispatch E :=
  match fromStrAs env RawResult.fromValue frame with
  | some result =>
    match env.uuidParseStr result.messageId with
    | some id => .response id (.ok result.payload)
    | none => .ignore
  | none => .ignore

def dispatchError (frame : String) : Dispatch E :=
  match fromStrAs env RawError.fromValue frame with
  | some error =>
    match env.uuidParseStr error.messageId with
    | some id => .response id (.error (ProtocolError.fromWire error.code error.description
        error.details))
    | none => .ignore
  | none => .ignore

def dispatchSend (frame : String) : Dispatch E :=
  match fromStrAs env RawCall.fromValue frame with
  | some send => .send send.action send.payload
  | none => .ignore

/-- The message type of a frame: the first element of an array, when that is a `u64`. -/
def messageType (frame : String) : Option UInt64 :=
  match env.fromStr frame with
  | .ok (.array (.number n :: _)) => n.asU64
  | _ => none

/-- The part of `handle_frame` before its first lock. -/
def dispatch (frame : String) : Dispatch E :=
  match messageType env frame with
  | none => .ignore
  | some t =>
    if t = messageTypeCall then dispatchCall env frame
    else if t = messageTypeResult then dispatchResult env frame
    else if t = messageTypeError then dispatchError env frame
    else if t = messageTypeSend then dispatchSend env frame
    else .ignore

/-- The frame that answers a CALL with an error. -/
def errorFrame (messageId : String) (e : E) : Except JsonError String :=
  env.toString (RawError.toValue
    ⟨messageTypeError, messageId, ProtocolError.code e, ProtocolError.description e,
      ProtocolError.details e⟩)

/-- The frame `do_send_response` writes; `none` where it only logs. The response is `Ok` of what
`to_value` gave for it. -/
def responseFrame (messageId : String) :
    Except E (Except JsonError Value) → Option String
  | .ok (.ok value) =>
    (env.toString (RawResult.toValue ⟨messageTypeResult, messageId, value⟩)).toOption
  | .ok (.error _) => none
  | .error e => (errorFrame env messageId e).toOption

/-- The frame of a CALL or of a SEND, for the payload `to_value` gave. -/
def requestFrame (messageType : UInt64) (id : Uuid) (action : String)
    (payload : Except JsonError Value) : Except JsonError String :=
  payload.bind fun p => env.toString (RawCall.toValue ⟨messageType, env.uuidToString id, action, p⟩)

/-- What `do_send_request` makes of the answer it waited for. -/
def outcome (action : String) : Except E Value → Except (ClientError E) R
  | .ok value =>
    match env.fromValue action value with
    | .ok r => .ok r
    | .error e => .error (.decode e)
  | .error e => .error (.protocol e)

end OcppClient
