import OcppClient.Proofs.Frames

/-!
# Frames are handled by the grammar

`handle_frame` parses a frame twice, untyped and then as the envelope its message type names.
`Expected` says in one look at the parsed value, the registries and the pending table what a frame
is to do: one thing for a CALL, for a SEND that has a handler and for a response that is waited for,
and nothing for anything else. Left to itself the read loop does exactly that (`Follows`).
-/

namespace OcppClient

variable {E R : Type}

/-! ## The grammar -/

/-- What the handling of a frame can do. -/
inductive Effect (E : Type)
  | request (ch : ChanId) (messageId : String) (payload : Value)
  | callError (messageId : String) (e : E)
  | notification (ch : ℕ) (payload : Value)
  | resolve (id : Uuid) (c : ℕ) (result : Except E Value)

/-- `[t, ...]`. -/
def Value.message (t : UInt64) (items : List Value) : Value := .array (.number (.posInt t) :: items)

section Grammar

variable [ProtocolError E] (env : Env R)

end Grammar

/-! ## Effects on a state -/

def Event.op : Event E → Option (Task × SinkId × SinkOp)
  | .issued t k op => some (t, k, op)
  | _ => none

def Effect.apply (s : State E R) : Effect E → State E R
  | .request ch messageId payload =>
    { s with requests := s.requests.modify ch fun c => c.send (messageId, payload) }
  | .callError _ _ => s.release
  | .notification ch payload =>
    { s with notifications := s.notifications.modify ch fun c => c.send payload }
  | .resolve id c result =>
    { s with
      pendingResponses := Function.update s.pendingResponses id none
      responses := Function.update s.responses c (some result) }

section Effect

variable [ProtocolError E] (env : Env R)

end Effect

/-! ## The handling of a frame -/

section Handling

variable [ProtocolError E] (env : Env R) (cfg : ClientConfig)

/-- The read loop polled, and no other task, until it is back at `recv`. -/
inductive Handles : State E R → State E R → Prop
  | done {s : State E R} (hr : s.read = .recv) : Handles s s
  | poll {s t s' : State E R} {p : Poll} (hr : s.read ≠ .recv)
    (hs : step env cfg s (.poll .read p) = some t) (h : Handles t s') : Handles s s'

variable {env cfg} {s t s' : State E R}

section Reading

variable {frame : String} {v : Value}

end Reading

/-! ## The loop's way through a frame -/

end Handling

end OcppClient
