import OcppClient.Proofs.Replies

/-!
# Reply safety

Every reply answers a CALL of its own, with what was decided for that CALL and under its id, so no
message id is answered more often than CALLs came in with it, whatever the peer sends, however
handlers are registered and replaced, and in whatever order they finish (`replySafety_of_reach`).
The read loop itself answers only the CALL it has just received, and only to say that nothing is
registered for it.
-/

namespace OcppClient

open Transition History

variable {E R : Type} [ProtocolError E] (env : Env R)

/-- The last event received is a frame that reads as the CALL `j`. -/
def LastCall (h : List (Event E)) (j : Job) : Prop :=
  ∃ pre frame, frameJob E env frame = some j
    ∧ Unheard (pre ++ [.loop (.received (.frame frame))]) h

/-- A reply of the read loop refuses the CALL received last. -/
def RefusesLast (pre : List (Event E)) (e : Event E) : Prop :=
  ∀ k frame, e = .issued .read k (.send frame) →
    ∃ j, LastCall env pre j ∧ responseFrame env j.messageId (refusal j : Except E _) = some frame

structure ReplySafety (h : List (Event E)) (log : List (ServiceNote E)) : Prop where
  /-- Each reply answers a CALL of its own, and of those with an id `m` no more are answered than
  came in. -/
  own : ∃ js : List Job, List.Forall₂ (Reply env log) (replies h) js ∧ js.Subperm (jobs env h)
    ∧ ∀ m, (js.map Job.messageId).count m ≤ ((jobs env h).map Job.messageId).count m
  /-- Any other frame handed to a sink is built as a CALL or as a SEND. -/
  others : ∀ t k frame, .issued t k (.send frame) ∈ h → ¬ t.Replies →
    ∃ id action payload, requestFrame env messageTypeCall id action payload = .ok frame
      ∨ requestFrame env messageTypeSend id action payload = .ok frame
  /-- Of all frames handed to a sink, those that a peer reads as answers to `m` are as many as the
  CALLs `m`, at most. -/
  count : env.RoundTrips → ∀ m, ((h.filterMap Event.sent).filterMap (replyId env)).count m
    ≤ ((jobs env h).map Job.messageId).count m
  engine : Always (RefusesLast env) h

/-! ## The read loop -/

variable {env}

theorem LastCall.unheard {h h' : List (Event E)} {j : Job} (hl : LastCall env h j)
    (hu : Unheard h h') : LastCall env h' j := by
  obtain ⟨pre, frame, hj, hp⟩ := hl
  exact ⟨pre, frame, hj, hp.trans hu⟩

variable (env) in
def Hand.Prompted (h : List (Event E)) : Hand → Prop
  | .call j => LastCall env h j
  | .refuse frame =>
    ∃ j, LastCall env h j ∧ responseFrame env j.messageId (refusal j : Except E _) = some frame
  | _ => True

theorem Hand.Prompted.unheard {h h' : List (Event E)} {hand : Hand} (hp : hand.Prompted env h)
    (hu : Unheard h h') : hand.Prompted env h' := by
  cases hand with
  | free | route => trivial
  | call j => exact LastCall.unheard hp hu
  | refuse frame =>
    obtain ⟨j, hl, hf⟩ := hp
    exact ⟨j, hl.unheard hu, hf⟩

theorem ServiceStep.prompted {v v' : ServiceView} {notes : List (ServiceNote E)}
    (hs : ServiceStep env v v' notes) (hc : v'.calls = v.calls) {h : List (Event E)}
    (hp : v.hand.Prompted env h) : v'.hand.Prompted env h := by
  cases hs with
  | receive hh => simp at hc
  | refuse hh hf =>
    rw [hh] at hp
    exact ⟨_, hp, hf⟩
  | route | drop | push | sendRefusal => trivial
  | rest | register | leave | take | misread | discard | answer | silence | send => exact hp

/-- A frame just received prompts the read loop if it is a CALL. -/
theorem handleEvent_prompted (s : State E R) (e : TransportEvent) :
    (handleEvent env s e).read.hand.Prompted env (handleEvent env s e).hist := by
  cases e with
  | ping | pong => trivial
  | frame f =>
    cases hd : (dispatch env f : Dispatch E) with
    | call m a p =>
      have hj : frameJob E env f = some ⟨m, a, p⟩ := by simp only [frameJob, hd]
      simp only [handleEvent, handleFrame, hd, ReadPc.hand]
      exact ⟨s.hist, f, hj, .refl _⟩
    | ignore | response | send =>
      simp only [handleEvent, handleFrame, hd, ReadPc.hand]
      trivial

variable (cfg : ClientConfig) {s s' : State E R} {a : Act E}

theorem prompted_of_reach {P : State E R → Act E → Prop}
    (h : Machine.Reach (client env cfg) P s) :
    s.read.hand.Prompted env s.hist ∧ Always (RefusesLast env) s.hist := by
  refine h.invariant
    (I := fun s => s.read.hand.Prompted env s.hist ∧ Always (RefusesLast env) s.hist)
    ⟨trivial, .nil⟩ fun s a s' hr _ hs hI => ⟨?_, ?_⟩
  · rcases heard_cases env cfg hs with hu | ⟨e, -, -, rfl⟩
    · have hS := serviceStep_of_step env cfg (spawned_of_reach env cfg hr) hs
      exact hS.prompted (jobs_of_unheard env hu) (hI.1.unheard hu)
    · exact handleEvent_prompted s e
  · cases write_cases env cfg hs with
    | none hg =>
      refine hg.always hI.2 fun e he pre k frame hk => ?_
      subst hk
      simp [unissued] at he
    | @issue t op _ ht _ h =>
      rw [h]
      refine hI.2.snoc fun k frame hk => ?_
      cases hk
      -- the read loop stands at the sink's lock with the refusal
      have hp := hI.1
      unfold lockOp at ht
      simp only [] at ht
      split at ht <;> cases ht
      next hpc =>
      rw [hpc] at hp
      exact hp

/-! ## Every reply -/

theorem replySafety_of_reach {s : State E R × List (ServiceNote E)}
    (h : Machine.Reach ((client env cfg).observed (serviceNotes env)) Machine.Any s) :
    ReplySafety env s.1.hist s.2 := by
  have hs : Machine.Reach (client env cfg) Machine.Any s.1 := h.unobserved fun _ _ _ => trivial
  have hothers : ∀ t k frame, .issued t k (.send frame) ∈ s.1.hist → ¬ t.Replies →
      ∃ id action payload, requestFrame env messageTypeCall id action payload = .ok frame
        ∨ requestFrame env messageTypeSend id action payload = .ok frame := by
    intro t k frame he ht
    rcases request_or_notice env (askInv_of_reach env cfg h) (noticeInv_of_reach env cfg hs) he ht
      with ⟨q, -, hf⟩ | ⟨id, action, payload, hf⟩
    · exact ⟨_, _, _, .inl hf⟩
    · exact ⟨id, action, payload, .inr hf⟩
  obtain ⟨js, hjs, hrep⟩ := replied_of_reach h
  have hcount : ∀ m, (js.map Job.messageId).count m
      ≤ ((jobs env s.1.hist).map Job.messageId).count m := fun m =>
    (subperm_map hjs Job.messageId).count_le m
  refine ⟨⟨js, hrep, hjs, hcount⟩, hothers, fun hR m => ?_, (prompted_of_reach cfg hs).2⟩
  have hids : (replies s.1.hist).filterMap (replyId env) = js.map Job.messageId :=
    filterMap_of_forall₂ hrep fun _ _ ⟨_, _, hf⟩ => replyId_of_response hR hf
  have hsent : (s.1.hist.filterMap Event.sent).filterMap (replyId env)
      = (replies s.1.hist).filterMap (replyId env) := by
    refine filterMap_sent (fun e frame he => Event.sent_of_reply he) fun t k frame he ht => ?_
    obtain ⟨_, _, _, hf | hf⟩ := hothers t k frame he (Event.reply_eq_none.1 ht)
    · exact replyId_of_request hR hf (.inl rfl)
    · exact replyId_of_request hR hf (.inr rfl)
  rw [hsent, hids]
  exact hcount m

/-- A peer that uses one id for two CALLs; the handler has answered the first. -/
def idUsedTwice : List (Act WireError) :=
  [.on 0 "A", .poll (.on 0) .ready, .recv (some (.frame callFrame)), .poll .read .ready,
    .poll .read .ready, .recv (some (.frame callFrame)), .poll .read .ready, .poll .read .ready,
    .poll (.handler 0) .ready, .respond 0 (.ok (.ok .null)), .poll (.handler 0) .ready]

def serviceClient : Machine (State WireError Unit × List (ServiceNote WireError)) (Act WireError) :=
  (client wireEnv scenarioConfig).observed (serviceNotes wireEnv)

theorem replySafety_of_idUsedTwice :
    ∃ s, serviceClient.run serviceClient.init idUsedTwice = some s
      ∧ replies s.1.hist = ["[3,\"m\",null]"]
      ∧ jobs wireEnv s.1.hist = [⟨"m", "A", .null⟩, ⟨"m", "A", .null⟩]
      ∧ ReplySafety wireEnv s.1.hist s.2
      ∧ ((s.1.hist.filterMap Event.sent).filterMap (replyId wireEnv)).count "m" ≤ 2 := by
  have h := fun s (hs : serviceClient.run serviceClient.init idUsedTwice = some s) =>
    replySafety_of_reach scenarioConfig
      (Machine.reach_any_of_run (M := serviceClient) idUsedTwice hs)
  exact ⟨_, rfl, by decide +kernel, rfl, h _ rfl, (h _ rfl).count wireEnv_roundTrips "m"⟩

end OcppClient
