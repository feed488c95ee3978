import OcppClient.Proofs.Service

/-!
# What the frames of a client are read as

Where `serde_json` reads back the text it wrote, a CALL, a SEND and a response are read as the
envelopes they were written from: no frame of one kind is taken for one of another.
-/

namespace OcppClient

variable {E R : Type} [ProtocolError E] (env : Env R)

/-- What is serialised is parsed as it was. -/
def Env.RoundTrips : Prop := ∀ v frame, env.toString v = .ok frame → env.fromStr frame = .ok v

/-- The message id of a frame that is a CALLRESULT or a CALLERROR. -/
def replyId (frame : String) : Option String :=
  match messageType env frame with
  | none => none
  | some t =>
    if t = messageTypeResult then (fromStrAs env RawResult.fromValue frame).map (·.messageId)
    else if t = messageTypeError then (fromStrAs env RawError.fromValue frame).map (·.messageId)
    else none

variable {env} {frame messageId action : String} {id : Uuid}

omit [ProtocolError E] in
theorem messageType_of_fromStr {t : UInt64} {items : List Value}
    (h : env.fromStr frame = .ok (.array (.number (.posInt t) :: items))) :
    messageType env frame = some t := by
  simp only [messageType, h, Number.asU64]

/-! ## Requests -/

theorem dispatch_of_call {p : Value}
    (h : env.fromStr frame = .ok (RawCall.toValue ⟨messageTypeCall, messageId, action, p⟩)) :
    (dispatch env frame : Dispatch E) = .call messageId action p := by
  have hm : messageType env frame = some messageTypeCall := messageType_of_fromStr h
  simp [dispatch, hm, dispatchCall, fromStrAs, h, RawCall.toValue, RawCall.fromValue]

theorem dispatch_of_send {p : Value}
    (h : env.fromStr frame = .ok (RawCall.toValue ⟨messageTypeSend, messageId, action, p⟩)) :
    (dispatch env frame : Dispatch E) = .send action p := by
  have hm : messageType env frame = some messageTypeSend := messageType_of_fromStr h
  simp [dispatch, hm, dispatchSend, fromStrAs, h, RawCall.toValue, RawCall.fromValue,
    messageTypeCall, messageTypeResult, messageTypeError, messageTypeSend]

section Request

variable {payload : Except JsonError Value} {t : UInt64}

omit [ProtocolError E] in
theorem fromStr_of_request (hR : env.RoundTrips)
    (h : requestFrame env t id action payload = .ok frame) :
    ∃ p, payload = .ok p
      ∧ env.fromStr frame = .ok (RawCall.toValue ⟨t, env.uuidToString id, action, p⟩) := by
  cases payload with
  | error e => cases h
  | ok p => exact ⟨p, rfl, hR _ _ h⟩

omit [ProtocolError E] in
theorem replyId_of_request (hR : env.RoundTrips)
    (h : requestFrame env t id action payload = .ok frame)
    (ht : t = messageTypeCall ∨ t = messageTypeSend) : replyId env frame = none := by
  obtain ⟨p, -, hf⟩ := fromStr_of_request hR h
  have hm : messageType env frame = some t := messageType_of_fromStr hf
  rcases ht with rfl | rfl <;> simp only [replyId, hm] <;> rfl

theorem frameJob_of_call {p : Value}
    (hR : env.RoundTrips) (h : requestFrame env messageTypeCall id action (.ok p) = .ok frame) :
    frameJob E env frame = some ⟨env.uuidToString id, action, p⟩ := by
  obtain ⟨_, hp, hf⟩ := fromStr_of_request hR h
  cases hp
  rw [frameJob, dispatch_of_call hf]

theorem frameJob_of_send (hR : env.RoundTrips)
    (h : requestFrame env messageTypeSend id action payload = .ok frame) :
    frameJob E env frame = none ∧ ∀ i v, (dispatch env frame : Dispatch E) ≠ .response i v := by
  obtain ⟨p, -, hf⟩ := fromStr_of_request hR h
  have hd : (dispatch env frame : Dispatch E) = .send action p := dispatch_of_send hf
  exact ⟨by simp only [frameJob, hd], by simp [hd]⟩

end Request

/-! ## Responses -/

section Response

variable {r : Except E (Except JsonError Value)}

/-- What a response is on the wire: a value, or an error in its parts. -/
inductive Wired (env : Env R) (frame messageId : String) : Except E (Except JsonError Value) → Prop
  | result {w : Value}
    (h : env.fromStr frame = .ok (RawResult.toValue ⟨messageTypeResult, messageId, w⟩)) :
    Wired env frame messageId (.ok (.ok w))
  | error {e : E}
    (h : env.fromStr frame = .ok (RawError.toValue ⟨messageTypeError, messageId,
      ProtocolError.code e, ProtocolError.description e, ProtocolError.details e⟩)) :
    Wired env frame messageId (.error e)

omit [ProtocolError E] in
theorem ok_of_toOption {x : Except JsonError String} (h : x.toOption = some frame) :
    x = .ok frame := by
  cases x with
  | error => cases h
  | ok => exact congrArg _ (Option.some.inj h)

theorem wired_of_response (hR : env.RoundTrips) (h : responseFrame env messageId r = some frame) :
    Wired env frame messageId r := by
  rcases r with e | (e | w)
  · exact .error (hR _ _ (ok_of_toOption h))
  · cases h
  · exact .result (hR _ _ (ok_of_toOption h))

theorem dispatch_of_result {w : Value}
    (h : env.fromStr frame = .ok (RawResult.toValue ⟨messageTypeResult, messageId, w⟩)) :
    (dispatch env frame : Dispatch E)
      = (env.uuidParseStr messageId).elim .ignore fun id => .response id (.ok w) := by
  have hm : messageType env frame = some messageTypeResult := messageType_of_fromStr h
  cases hu : env.uuidParseStr messageId <;>
    simp [dispatch, hm, dispatchResult, fromStrAs, h, RawResult.toValue, RawResult.fromValue,
      messageTypeCall, messageTypeResult, hu]

theorem dispatch_of_error {code description : String} {details : Value}
    (h : env.fromStr frame = .ok (RawError.toValue ⟨messageTypeError, messageId, code, description,
      details⟩)) :
    (dispatch env frame : Dispatch E)
      = (env.uuidParseStr messageId).elim .ignore fun id =>
          .response id (.error (ProtocolError.fromWire code description details)) := by
  have hm : messageType env frame = some messageTypeError := messageType_of_fromStr h
  cases hu : env.uuidParseStr messageId <;>
    simp [dispatch, hm, dispatchError, fromStrAs, h, RawError.toValue, RawError.fromValue,
      messageTypeCall, messageTypeResult, messageTypeError, hu]

theorem replyId_of_response (hR : env.RoundTrips) (h : responseFrame env messageId r = some frame) :
    replyId env frame = some messageId := by
  cases wired_of_response hR h with
  | result hw =>
    have hm : messageType env frame = some messageTypeResult := messageType_of_fromStr hw
    simp [replyId, hm, fromStrAs, hw, RawResult.toValue, RawResult.fromValue]
  | error hw =>
    have hm : messageType env frame = some messageTypeError := messageType_of_fromStr hw
    simp [replyId, hm, fromStrAs, hw, RawError.toValue, RawError.fromValue, messageTypeError,
      messageTypeResult]

theorem frameJob_of_response (hR : env.RoundTrips)
    (h : responseFrame env messageId r = some frame) : frameJob E env frame = none := by
  cases wired_of_response hR h with
  | result hw =>
    rw [frameJob, dispatch_of_result hw]
    cases env.uuidParseStr messageId <;> rfl
  | error hw =>
    rw [frameJob, dispatch_of_error hw]
    cases env.uuidParseStr messageId <;> rfl

end Response

/-! ## An environment that round-trips -/

/-- Arrays of plain items are written as they are, and nothing else is. -/
def wireEnv : Env Unit :=
  { scenarioEnv with
    toString := fun v => if v.isPlainArray then .ok v.text else .error "unsupported" }

theorem wireEnv_roundTrips : wireEnv.RoundTrips := by
  intro v frame h
  simp only [wireEnv] at h
  split at h
  · next hv =>
    cases h
    simp only [wireEnv, scenarioEnv, readArray_text hv, Option.elim_some]
  · cases h

end OcppClient
