import OcppClient.Proofs.HandlerQueues
import OcppClient.Proofs.SinkMutex
import OcppClient.Proofs.Writes

/-!
# What becomes of a CALL

The read loop takes a CALL to the channel of its action's handler, or refuses it; the handler, or a
`wait_for`, takes it from there, runs its callback and writes the answer. `ServiceStep` says what
one step of the client does to the CALLs on their way, and what it adds to a log of what concerns
them: asked for by a `call` of this client, found no handler, ran, was answered.
-/

namespace OcppClient

open Transition

variable {E R : Type}

/-- A CALL received. -/
structure Job where
  messageId : String
  action : String
  payload : Value
  deriving DecidableEq

/-- A CALL of this client, with the `call` that makes it. -/
structure Ask where
  call : ℕ
  id : Uuid
  action : String
  payload : Value
  deriving DecidableEq

/-! ## The log -/

inductive ServiceNote (E : Type)
  | asked (q : Ask)
  | unregistered (j : Job)
  | ran (ch : ChanId) (j : Job)
  | produced (ch : ChanId) (messageId : String) (r : Except E (Except JsonError Value))

section Notes

variable (env : Env R)

/-- The callback begins, where the CALL first in the channel can be decoded. -/
def takeNotes (ch : ChanId) (action : String) (c : Chan (String × Value)) : List (ServiceNote E) :=
  match c.recv with
  | .value (messageId, payload) _ =>
    match env.decodeRequest action payload with
    | .ok _ => [.ran ch ⟨messageId, action, payload⟩]
    | .error _ => []
  | _ => []

/-- What a step adds to the log. -/
def serviceNotes (s : State E R) : Act E → List (ServiceNote E)
  | .call c action (.ok payload) =>
    match s.calls c, s.closed,
      requestFrame env messageTypeCall (env.newV4 s.draws) action (.ok payload) with
    | .idle, false, .ok _ => [.asked ⟨c, env.newV4 s.draws, action, payload⟩]
    | _, _, _ => []
  | .poll .read .ready =>
    match s.read with
    | .lockRequestSenders messageId action payload =>
      if s.requests.senders action = none then [.unregistered ⟨messageId, action, payload⟩] else []
    | _ => []
  | .poll (.handler o) .ready =>
    match s.handlers o, s.ons o with
    | .recv, .registered action => takeNotes env (.on o) action (s.requests.chans (.on o))
    | _, _ => []
  | .poll (.waitFor w) .ready =>
    match s.waitFors w with
    | .recv action => takeNotes env (.waitFor w) action (s.requests.chans (.waitFor w))
    | _ => []
  | .respond o r =>
    match s.handlers o with
    | .callback messageId => [.produced (.on o) messageId r]
    | _ => []
  | .waitForRespond w r =>
    match s.waitFors w with
    | .callback _ messageId _ => [.produced (.waitFor w) messageId r]
    | _ => []
  | _ => []

def ServiceNote.isAsked : ServiceNote E → Bool
  | .asked _ => true
  | _ => false

end Notes

/-! ## The view -/

/-- What the read loop has in hand of a CALL. -/
inductive Hand
  | free
  | call (j : Job)
  | route (ch : ChanId) (messageId : String) (payload : Value)
  | refuse (frame : String)

/-- What a handler, or a `wait_for`, is doing. -/
inductive Work
  | free
  | running (messageId : String)
  | writing (frame : String)

/-- A channel before its registration, as the channel of an action, and after its `wait_for`. -/
inductive Registration
  | fresh
  | opened (action : String)
  | over

def ReadPc.hand : ReadPc E → Hand
  | .lockRequestSenders messageId action payload => .call ⟨messageId, action, payload⟩
  | .pushRequest ch messageId payload => .route ch messageId payload
  | .lockNotImplemented frame => .refuse frame
  | _ => .free

def HandlerPc.work : HandlerPc → Work
  | .callback messageId => .running messageId
  | .lockSink frame => .writing frame
  | _ => .free

def WaitForPc.work : WaitForPc E → Work
  | .callback _ messageId _ => .running messageId
  | .lockSink _ _ frame => .writing frame
  | _ => .free

def OnPc.registration : OnPc → Registration
  | .registered action => .opened action
  | _ => .fresh

def WaitForPc.registration : WaitForPc E → Registration
  | .idle | .lock _ => .fresh
  | .recv action | .wait action | .callback action _ _ | .lockSink action _ _ | .sending action _
  | .unregister action _ => .opened action
  | .returned _ => .over

def State.work (s : State E R) : ChanId → Work
  | .on o => (s.handlers o).work
  | .waitFor w => (s.waitFors w).work

def State.registration (s : State E R) : ChanId → Registration
  | .on o => (s.ons o).registration
  | .waitFor w => (s.waitFors w).registration

/-- The frame of a reply, from whoever writes replies. -/
def Event.reply : Event E → Option String
  | .issued .read _ (.send frame) => some frame
  | .issued (.handler _) _ (.send frame) => some frame
  | .issued (.waitFor _) _ (.send frame) => some frame
  | _ => none

/-- The replies handed to a sink. -/
def replies (h : List (Event E)) : List String := h.filterMap Event.reply

section View

variable [ProtocolError E] (env : Env R)

variable (E) in
/-- The CALL a frame reads as. -/
def frameJob (frame : String) : Option Job :=
  match (dispatch env frame : Dispatch E) with
  | .call messageId action payload => some ⟨messageId, action, payload⟩
  | _ => none

def Event.job (e : Event E) : Option Job := e.frame.bind (frameJob E env)

/-- The CALLs received. -/
def jobs (h : List (Event E)) : List Job := h.filterMap (Event.job env)

/-- What of a client concerns the CALLs it gets. -/
structure ServiceView where
  hand : Hand
  senders : String → Option ChanId
  queue : ChanId → List (String × Value)
  registration : ChanId → Registration
  work : ChanId → Work
  calls : List Job
  replies : List String

def State.serviceView (s : State E R) : ServiceView where
  hand := s.read.hand
  senders := s.requests.senders
  queue ch := (s.requests.chans ch).queue
  registration := s.registration
  work := s.work
  calls := jobs env s.hist
  replies := OcppClient.replies s.hist

/-- The answer to a CALL whose action has no handler. -/
def refusal (j : Job) : Except E (Except JsonError Value) :=
  .error (ProtocolError.notImplemented s!"Action '{j.action}' is not implemented")

/-- The answer to a CALL whose payload its handler cannot decode. -/
def misread (action : String) : Except E (Except JsonError Value) :=
  .error (ProtocolError.notImplemented s!"Failed to parse payload for {action}")

inductive ServiceStep (v : ServiceView) : ServiceView → List (ServiceNote E) → Prop
  | rest {notes : List (ServiceNote E)} (hn : ∀ n ∈ notes, n.isAsked = true) :
    ServiceStep v v notes
  | register {ch : ChanId} {action : String} (hr : v.registration ch = .fresh) :
    ServiceStep v
      { v with
        senders := Function.update v.senders action (some ch)
        registration := Function.update v.registration ch (.opened action) } []
  | leave {ch : ChanId} {senders : String → Option ChanId}
    (hs : ∀ action ch, senders action = some ch → v.senders action = some ch) :
    ServiceStep v
      { v with senders := senders, registration := Function.update v.registration ch .over } []
  | receive {j : Job} (hh : v.hand = .free) :
    ServiceStep v { v with hand := .call j, calls := v.calls ++ [j] } []
  | route {j : Job} {ch : ChanId} (hh : v.hand = .call j) (hs : v.senders j.action = some ch) :
    ServiceStep v { v with hand := .route ch j.messageId j.payload } []
  | refuse {j : Job} {frame : String} (hh : v.hand = .call j)
    (hf : responseFrame env j.messageId (refusal j : Except E _) = some frame) :
    ServiceStep v { v with hand := .refuse frame } [.unregistered j]
  | drop {j : Job} (hh : v.hand = .call j) :
    ServiceStep v { v with hand := .free } [.unregistered j]
  | push {ch : ChanId} {messageId : String} {payload : Value}
    (hh : v.hand = .route ch messageId payload) :
    ServiceStep v
      { v with
        hand := .free
        queue := Function.update v.queue ch (v.queue ch ++ [(messageId, payload)]) } []
  | sendRefusal {frame : String} (hh : v.hand = .refuse frame) :
    ServiceStep v { v with hand := .free, replies := v.replies ++ [frame] } []
  | take {ch : ChanId} {action messageId : String} {payload : Value} {rest : List (String × Value)}
    (hq : v.queue ch = (messageId, payload) :: rest) (hr : v.registration ch = .opened action)
    (hw : v.work ch = .free) :
    ServiceStep v
      { v with
        queue := Function.update v.queue ch rest
        work := Function.update v.work ch (.running messageId) }
      [.ran ch ⟨messageId, action, payload⟩]
  | misread {ch : ChanId} {action messageId frame : String} {payload : Value}
    {rest : List (String × Value)} {e : JsonError}
    (hq : v.queue ch = (messageId, payload) :: rest) (hr : v.registration ch = .opened action)
    (hw : v.work ch = .free) (hd : env.decodeRequest action payload = .error e)
    (hf : responseFrame env messageId (OcppClient.misread action : Except E _) = some frame) :
    ServiceStep v
      { v with
        queue := Function.update v.queue ch rest
        work := Function.update v.work ch (.writing frame) } []
  | discard {ch : ChanId} {messageId : String} {payload : Value} {rest : List (String × Value)}
    (hq : v.queue ch = (messageId, payload) :: rest) :
    ServiceStep v { v with queue := Function.update v.queue ch rest } []
  | answer {ch : ChanId} {messageId frame : String} {r : Except E (Except JsonError Value)}
    (hw : v.work ch = .running messageId) (hf : responseFrame env messageId r = some frame) :
    ServiceStep v { v with work := Function.update v.work ch (.writing frame) }
      [.produced ch messageId r]
  | silence {ch : ChanId} {messageId : String} {r : Except E (Except JsonError Value)}
    (hw : v.work ch = .running messageId) :
    ServiceStep v { v with work := Function.update v.work ch .free } [.produced ch messageId r]
  | send {ch : ChanId} {frame : String} (hw : v.work ch = .writing frame) :
    ServiceStep v
      { v with work := Function.update v.work ch .free, replies := v.replies ++ [frame] } []

end View

/-! ## Every step of the client is one -/

section Steps

variable [ProtocolError E] (env : Env R) (cfg : ClientConfig) {s s' : State E R} {a : Act E}

theorem jobs_append (h h' : List (Event E)) : jobs env (h ++ h') = jobs env h ++ jobs env h' :=
  List.filterMap_append ..

omit [ProtocolError E] in
theorem replies_append (h h' : List (Event E)) : replies (h ++ h') = replies h ++ replies h' :=
  List.filterMap_append ..

theorem jobs_of_unheard {h h' : List (Event E)} (hu : Unheard h h') : jobs env h' = jobs env h := by
  obtain ⟨evs, rfl, hk⟩ := hu
  have hn : jobs env evs = [] := by
    refine List.filterMap_eq_nil_iff.2 fun e he => ?_
    unfold Event.job Event.frame
    split
    · exact absurd he (hk _)
    · rfl
  rw [jobs_append, hn, List.append_nil]

/-- The tasks that write replies. -/
def Task.Replies : Task → Prop
  | .read | .handler _ | .waitFor _ => True
  | _ => False

omit [ProtocolError E] in
theorem Event.reply_of_kind {e : Event E} (he : e.kind ∈ unissued) : e.reply = none := by
  unfold Event.reply
  split
  all_goals first | rfl | simp [unissued] at he

omit [ProtocolError E] in
theorem Event.reply_of_task {t : Task} (ht : ¬ t.Replies) (k : SinkId) (op : SinkOp) :
    (Event.issued t k op : Event E).reply = none := by
  unfold Event.reply
  split <;> first | rfl | simp_all [Task.Replies]

omit [ProtocolError E] in
/-- A step of a task that writes no replies. -/
theorem Write.replies (hw : Write s s' a) (ha : ∀ t, a = .poll t .ready → ¬ t.Replies) :
    replies s'.hist = OcppClient.replies s.hist := by
  cases hw with
  | none hg => exact hg.filterMap fun e he => e.reply_of_kind he
  | @issue t op hact _ _ h =>
    rw [h, replies_append]
    simp [OcppClient.replies, Event.reply_of_task (ha t hact)]

omit [ProtocolError E] in
theorem State.work_handler (s : State E R) (o : ℕ) (pc : HandlerPc) :
    State.work { s with handlers := Function.update s.handlers o pc }
      = Function.update s.work (.on o) pc.work := by
  funext ch
  cases ch <;> simp [State.work, Function.update_apply, apply_ite HandlerPc.work]

omit [ProtocolError E] in
/-- A handler that goes from one thing to another that is the same work. -/
theorem State.work_handler_same (s : State E R) {o : ℕ} {pc : HandlerPc}
    (h : pc.work = (s.handlers o).work) :
    State.work { s with handlers := Function.update s.handlers o pc } = s.work := by
  rw [State.work_handler, h]
  exact Function.update_eq_self (f := s.work) (ChanId.on o)

omit [ProtocolError E] in
theorem State.work_waitFor (s : State E R) (w : ℕ) (pc : WaitForPc E) :
    State.work { s with waitFors := Function.update s.waitFors w pc }
      = Function.update s.work (.waitFor w) pc.work := by
  funext ch
  cases ch <;> simp [State.work, Function.update_apply, apply_ite WaitForPc.work]

omit [ProtocolError E] in
theorem State.work_waitFor_same (s : State E R) {w : ℕ} {pc : WaitForPc E}
    (h : pc.work = (s.waitFors w).work) :
    State.work { s with waitFors := Function.update s.waitFors w pc } = s.work := by
  rw [State.work_waitFor, h]
  exact Function.update_eq_self (f := s.work) (ChanId.waitFor w)

omit [ProtocolError E] in
theorem State.registration_on (s : State E R) (o : ℕ) (pc : OnPc) :
    State.registration { s with ons := Function.update s.ons o pc }
      = Function.update s.registration (.on o) pc.registration := by
  funext ch
  cases ch <;> simp [State.registration, Function.update_apply, apply_ite OnPc.registration]

omit [ProtocolError E] in
theorem State.registration_on_same (s : State E R) {o : ℕ} {pc : OnPc}
    (h : pc.registration = (s.ons o).registration) :
    State.registration { s with ons := Function.update s.ons o pc } = s.registration := by
  rw [State.registration_on, h]
  exact Function.update_eq_self (f := s.registration) (ChanId.on o)

omit [ProtocolError E] in
theorem State.registration_waitFor (s : State E R) (w : ℕ) (pc : WaitForPc E) :
    State.registration { s with waitFors := Function.update s.waitFors w pc }
      = Function.update s.registration (.waitFor w) pc.registration := by
  funext ch
  cases ch <;> simp [State.registration, Function.update_apply, apply_ite WaitForPc.registration]

omit [ProtocolError E] in
theorem State.registration_waitFor_same (s : State E R) {w : ℕ} {pc : WaitForPc E}
    (h : pc.registration = (s.waitFors w).registration) :
    State.registration { s with waitFors := Function.update s.waitFors w pc } = s.registration := by
  rw [State.registration_waitFor, h]
  exact Function.update_eq_self (f := s.registration) (ChanId.waitFor w)

omit [ProtocolError E] in
theorem queue_modify {κ T : Type} [DecidableEq κ] (r : Registry κ T) (ch : κ)
    (f : Chan T → Chan T) :
    (fun x => ((r.modify ch f).chans x).queue)
      = Function.update (fun x => (r.chans x).queue) ch (f (r.chans ch)).queue := by
  funext x
  rw [Registry.modify_chans, Function.update_apply]
  split_ifs with hx
  · rw [hx]
  · rfl

/-- The step to `v` is one to `s'`, whose view is `v`. -/
theorem ServiceStep.to {v : ServiceView} {notes : List (ServiceNote E)}
    (h : ServiceStep env (s.serviceView env) v notes) (hh : s'.read.hand = v.hand)
    (hs : s'.requests.senders = v.senders)
    (hq : (fun ch => (s'.requests.chans ch).queue) = v.queue)
    (hg : s'.registration = v.registration) (hw : s'.work = v.work)
    (hj : jobs env s'.hist = v.calls) (hp : replies s'.hist = v.replies) :
    ServiceStep env (s.serviceView env) (s'.serviceView env) notes := by
  have hv : s'.serviceView env = v := by
    simp only [State.serviceView, hh, hs, hq, hg, hw, hj, hp]
  exact hv ▸ h

/-- Only the read loop's hand and the two lists change. -/
theorem QueueFrame.serviceView (hf : QueueFrame s s') :
    s'.serviceView env
      = { s.serviceView env with
          hand := s'.read.hand, calls := jobs env s'.hist, replies := replies s'.hist } := by
  have hw : s'.work = s.work := by
    funext ch
    cases ch <;> simp only [State.work, hf.handlers, hf.waitFors]
  have hg : s'.registration = s.registration := by
    funext ch
    cases ch <;> simp only [State.registration, hf.ons, hf.waitFors]
  simp only [State.serviceView, hw, hg, hf.requests]

/-- A step that does not concern the CALLs. -/
theorem ServiceStep.of_frame (hf : QueueFrame s s') (hr : s'.read.hand = s.read.hand)
    (hj : jobs env s'.hist = jobs env s.hist) (hp : replies s'.hist = replies s.hist)
    {notes : List (ServiceNote E)} (hn : ∀ n ∈ notes, n.isAsked = true) :
    ServiceStep env (s.serviceView env) (s'.serviceView env) notes := by
  rw [hf.serviceView env, hr, hj, hp]
  exact .rest hn

/-! ### The read loop -/

omit [ProtocolError E] in
theorem leave_hand (s : State E R) (reason : LoopExit) :
    (leave cfg s reason).read.hand = .free := by
  unfold leave
  simp only []
  split_ifs <;> rfl

theorem handleFrame_serviceStep (hr : s.read = .recv) (f : String) :
    ServiceStep env (s.serviceView env) ((handleEvent env s (.frame f)).serviceView env)
      ([] : List (ServiceNote E)) := by
  have hh : (s.serviceView env).hand = .free := by rw [State.serviceView, hr]; rfl
  have hf : QueueFrame s (handleEvent env s (.frame f)) := ⟨rfl, rfl, rfl, rfl⟩
  have hp : replies (handleEvent env s (.frame f)).hist = replies s.hist := by
    simp [handleEvent, handleFrame, replies, Event.reply]
  have hj : jobs env (handleEvent env s (.frame f)).hist
      = jobs env s.hist ++ jobs env ([.loop (.received (.frame f))] : List (Event E)) := by
    simp [handleEvent, handleFrame, jobs_append]
  cases hd : (dispatch env f : Dispatch E) with
  | call m a p =>
    have hh' : (handleEvent env s (.frame f)).read.hand = .call ⟨m, a, p⟩ := by
      simp [handleEvent, handleFrame, hd, ReadPc.hand]
    have hjob : jobs env ([.loop (.received (.frame f))] : List (Event E)) = [⟨m, a, p⟩] := by
      simp [jobs, Event.job, Event.frame, frameJob, hd]
    rw [hf.serviceView env, hh', hj, hp, hjob]
    exact .receive hh
  | ignore | response | send =>
    refine .of_frame env hf ?_ ?_ hp (by simp)
    · simp [handleEvent, handleFrame, hd, hr, ReadPc.hand]
    · rw [hj]
      simp [jobs, Event.job, Event.frame, frameJob, hd]

theorem readRecv_serviceStep {e : Option TransportEvent} (h : readRecv env cfg s e = some s') :
    ServiceStep env (s.serviceView env) (s'.serviceView env) ([] : List (ServiceNote E)) := by
  unfold readRecv at h
  split at h
  case h_2 => cases h
  case h_1 hr =>
    have hf : QueueFrame s s' := by
      rcases e with _ | (f | pl | pl) <;> cases h <;> exact ⟨rfl, rfl, rfl, rfl⟩
    rcases e with _ | (f | pl | pl)
    · cases h
      refine .of_frame env hf ?_ ?_ ?_ (by simp)
      · rw [leave_hand, hr]
        rfl
      · simp [leave, jobs, Event.job, Event.frame]
      · simp [leave, replies, Event.reply]
    · cases h
      exact handleFrame_serviceStep env hr f
    · cases h
      refine .of_frame env hf ?_ ?_ ?_ (by simp)
      · rw [hr]
        rfl
      · simp [handleEvent, jobs, Event.job, Event.frame]
      · simp [handleEvent, replies, Event.reply]
    · cases h
      refine .of_frame env hf ?_ ?_ ?_ (by simp)
      · rw [hr]
        rfl
      · simp [handleEvent, jobs, Event.job, Event.frame]
      · simp [handleEvent, replies, Event.reply]

theorem lookupRequest_serviceStep {m act : String} {pl : Value}
    (hr : s.read = .lockRequestSenders m act pl) :
    ServiceStep env (s.serviceView env) ((lookupRequest env s m act pl).serviceView env)
      (serviceNotes env s (.poll .read .ready : Act E)) := by
  have hh : (s.serviceView env).hand = .call ⟨m, act, pl⟩ := by rw [State.serviceView, hr]; rfl
  have hf : QueueFrame s (lookupRequest env s m act pl) := ⟨rfl, rfl, rfl, rfl⟩
  have hv : (lookupRequest env s m act pl).serviceView env
      = { s.serviceView env with hand := (lookupRequest env s m act pl).read.hand } :=
    hf.serviceView env
  rw [hv]
  simp only [serviceNotes, hr]
  rcases hs : s.requests.senders act with _ | ch
  · rw [if_pos rfl]
    cases he : errorFrame env m
        (ProtocolError.notImplemented s!"Action '{act}' is not implemented" : E) with
    | ok frame =>
      have hl : (lookupRequest env s m act pl).read.hand = .refuse frame := by
        simp only [lookupRequest, hs, he, ReadPc.hand]
      rw [hl]
      refine .refuse hh ?_
      simp only [responseFrame, refusal, he, Except.toOption]
    | error e =>
      have hl : (lookupRequest env s m act pl).read.hand = .free := by
        simp only [lookupRequest, hs, he, ReadPc.hand]
      rw [hl]
      exact .drop hh
  · have hl : (lookupRequest env s m act pl).read.hand = .route ch m pl := by
      simp only [lookupRequest, hs, ReadPc.hand]
    rw [hl, if_neg (by simp)]
    exact .route hh hs

omit [ProtocolError E] in
theorem ReadPc.hand_ne_free {pc : ReadPc E} (h : pc.hand ≠ .free) :
    (∃ m act pl, pc = .lockRequestSenders m act pl) ∨ (∃ ch m pl, pc = .pushRequest ch m pl)
      ∨ ∃ frame, pc = .lockNotImplemented frame := by
  unfold ReadPc.hand at h
  split at h
  · exact .inl ⟨_, _, _, rfl⟩
  · exact .inr (.inl ⟨_, _, _, rfl⟩)
  · exact .inr (.inr ⟨_, rfl⟩)
  · exact absurd rfl h

omit [ProtocolError E] in
theorem beginDial_hand (s : State E R) : (beginDial s).read.hand = .free := by
  unfold beginDial
  split_ifs <;> rfl

omit [ProtocolError E] in
theorem Acquires.hand {pc pc' : ReadPc E} {op : SinkOp} (h : Acquires pc op pc') :
    pc'.hand = .free := by
  cases h <;> rfl

omit [ProtocolError E] in
theorem Releases.hand {pc pc' : ReadPc E} (h : Releases pc pc') : pc'.hand = .free := by
  cases h <;> rfl

omit [ProtocolError E] in
theorem Steers.hand {pc pc' : ReadPc E} (h : Steers pc pc') (hpc : pc.hand = .free) :
    pc'.hand = .free := by
  cases h with
  | refused | unanswered => cases hpc
  | notification | unheard | pushed => rfl

/-- With free hands the loop comes to a CALL by `recv` only. -/
theorem readPoll_hand {p : Poll} (hs : readPoll env cfg s p = some s')
    (hfree : s.read.hand = .free) : s'.read.hand = .free := by
  cases readPoll_moves env cfg hs with
  | wake hr h =>
    unfold readWoken at h
    split_ifs at h <;> cases h
    · exact leave_hand cfg _ _
    · exact leave_hand cfg _ _
    · exact hfree
  | dial _ h => exact h ▸ beginDial_hand s
  | wokenDial _ _ h => exact h ▸ beginDial_hand _
  | pong _ h =>
    rw [h, resolvePong_read]
    rfl
  | acquire ha _ h =>
    subst h
    exact ha.hand
  | release ha h =>
    subst h
    exact ha.hand
  | go ha h =>
    subst h
    exact ha.hand hfree
  | pend _ _ h =>
    subst h
    exact hfree
  | lookup hr _ _ =>
    rw [hr] at hfree
    cases hfree
  | push _ h | resolve _ h | notify _ h | clear _ h | backoff _ h | redial _ h | dialPend _ h
  | dialled _ h | swap _ _ h | broadcast _ h =>
    subst h
    rfl

/-- With free hands the loop writes no reply. -/
theorem readPoll_replies {p : Poll} (hs : readPoll env cfg s p = some s')
    (hfree : s.read.hand = .free) : replies s'.hist = replies s.hist := by
  cases readPoll_write env cfg hs with
  | none hg => exact hg.filterMap fun e he => e.reply_of_kind he
  | @issue t op hact hop _ h =>
    cases hact
    rw [h, replies_append]
    simp only [lockOp] at hop
    split at hop
    · next hr =>
      rw [hr] at hfree
      cases hfree
    · cases hop
      simp [replies, Event.reply]
    · cases hop
      simp [replies, Event.reply]
    · cases hop

theorem readPoll_serviceStep {p : Poll} (hs : readPoll env cfg s p = some s') :
    ServiceStep env (s.serviceView env) (s'.serviceView env)
      (serviceNotes env s (.poll .read p : Act E)) := by
  have hj := jobs_of_unheard env (readPoll_unheard env cfg hs)
  have hk := readPoll_frame env cfg hs
  by_cases hfree : s.read.hand = .free
  · have hn : serviceNotes env s (.poll .read p : Act E) = [] := by
      cases p with
      | ready =>
        unfold serviceNotes
        simp only []
        split
        · next hr =>
          rw [hr] at hfree
          cases hfree
        · rfl
      | pend | done | timer => rfl
    rcases hk.requests with hq | ⟨ch, m, pl, hr, -⟩
    · rw [hn]
      exact .of_frame env ⟨hq, hk.ons, hk.handlers, hk.waitFors⟩
        ((readPoll_hand env cfg hs hfree).trans hfree.symm) hj
        (readPoll_replies env cfg hs hfree) (by simp)
    · rw [hr] at hfree
      cases hfree
  · rcases ReadPc.hand_ne_free hfree with ⟨m, act, pl, hr⟩ | ⟨ch, m, pl, hr⟩ | ⟨frame, hr⟩
    · have hp : p = .ready ∧ s' = lookupRequest env s m act pl := by
        unfold readPoll at hs
        rw [hr] at hs
        cases p <;> cases hs
        exact ⟨rfl, rfl⟩
      rw [hp.1, hp.2]
      exact lookupRequest_serviceStep env hr
    · have hp : p = .ready ∧ s' = { s with
          read := .recv, requests := s.requests.modify ch fun c => c.send (m, pl) } := by
        unfold readPoll at hs
        rw [hr] at hs
        cases p <;> cases hs
        exact ⟨rfl, rfl⟩
      have hh : (s.serviceView env).hand = .route ch m pl := by rw [State.serviceView, hr]; rfl
      rw [hp.1, hp.2]
      simp only [serviceNotes, hr]
      exact .to env (.push hh) rfl rfl (queue_modify s.requests ch fun c => c.send (m, pl))
        rfl rfl rfl rfl
    · have hp : p = .ready ∧ s.holder = none ∧ s' = { s with
          holder := some .read, pended := false, read := .sendNotImplemented
          hist := s.hist ++ [.issued .read s.sink (.send frame)] } := by
        unfold readPoll at hs
        rw [hr] at hs
        cases p with
        | ready =>
          obtain ⟨hn, h⟩ := issue_map hs
          exact ⟨rfl, hn, h⟩
        | pend | done | timer => cases hs
      have hh : (s.serviceView env).hand = .refuse frame := by rw [State.serviceView, hr]; rfl
      obtain ⟨rfl, -, rfl⟩ := hp
      have hf : QueueFrame s { s with
          holder := some .read, pended := false, read := .sendNotImplemented
          hist := s.hist ++ [.issued .read s.sink (.send frame)] } := ⟨rfl, rfl, rfl, rfl⟩
      rw [hf.serviceView env, hj, replies_append]
      simp only [serviceNotes, hr]
      exact .sendRefusal hh

/-! ### Handlers -/

omit [ProtocolError E] in
theorem queue_of_recv {T : Type} {c : Chan T} {v : T} {rest : Chan T}
    (h : c.recv = .value v rest) : c.queue = v :: rest.queue := by
  unfold Chan.recv at h
  split at h
  · next hq =>
    cases h
    exact hq
  · split_ifs at h

omit [ProtocolError E] in
theorem takeNotes_of_value {ch : ChanId} {act m : String} {pl : Value}
    {c rest : Chan (String × Value)} (h : c.recv = .value (m, pl) rest) :
    (takeNotes env ch act c : List (ServiceNote E))
      = match env.decodeRequest act pl with
        | .ok _ => [.ran ch ⟨m, act, pl⟩]
        | .error _ => [] := by
  simp only [takeNotes, h]

omit [ProtocolError E] in
theorem takeNotes_of_not_value {ch : ChanId} {act : String} {c : Chan (String × Value)}
    (h : ∀ v rest, c.recv ≠ .value v rest) :
    (takeNotes env ch act c : List (ServiceNote E)) = [] := by
  unfold takeNotes
  split
  · next hv => exact absurd hv (h _ _)
  · rfl

theorem handlerRecv_serviceStep {o : ℕ} {act : String} (hp : s.handlers o = .recv)
    (hon : s.ons o = .registered act) :
    ServiceStep env (s.serviceView env) ((handlerRecv env s o act).serviceView env)
      (takeNotes env (.on o) act (s.requests.chans (.on o)) : List (ServiceNote E)) := by
  have hg : (s.serviceView env).registration (.on o) = .opened act := by
    simp only [State.serviceView, State.registration, hon, OnPc.registration]
  have hw : (s.serviceView env).work (.on o) = .free := by
    simp only [State.serviceView, State.work, hp, HandlerPc.work]
  unfold handlerRecv
  split
  case h_1 m pl rest hv =>
    have hq : (s.serviceView env).queue (.on o) = (m, pl) :: rest.queue := queue_of_recv hv
    have hmod := queue_modify s.requests (.on o) fun _ => rest
    rw [takeNotes_of_value env hv]
    cases hd : env.decodeRequest act pl with
    | ok u =>
      have hc : handleCall (E := E) env act m pl = .callback m := by
        simp only [handleCall, hd]
      refine .to env (.take hq hg hw) rfl rfl hmod rfl ?_ rfl rfl
      rw [hc]
      exact State.work_handler s o _
    | error e =>
      have hc : handleCall (E := E) env act m pl
          = respondPc (responseFrame env m (misread act : Except E _)) := by
        simp only [handleCall, hd, misread]
      cases hf : responseFrame env m (misread act : Except E _) with
      | some frame =>
        refine .to env (.misread hq hg hw hd hf) rfl rfl hmod rfl ?_ rfl rfl
        rw [hc, hf]
        exact State.work_handler s o _
      | none =>
        refine .to env (.discard hq) rfl rfl hmod rfl ?_ rfl rfl
        rw [hc, hf]
        exact State.work_handler_same s (by rw [hp]; rfl)
  case h_2 hv =>
    rw [takeNotes_of_not_value env (by simp [hv])]
    exact .to env (.rest (by simp)) rfl rfl rfl rfl
      (State.work_handler_same s (by rw [hp]; rfl)) rfl rfl
  case h_3 hv =>
    rw [takeNotes_of_not_value env (by simp [hv])]
    exact .to env (.rest (by simp)) rfl rfl rfl rfl
      (State.work_handler_same s (by rw [hp]; rfl)) rfl rfl

theorem handlerPoll_serviceStep {o : ℕ} {p : Poll} (h : handlerPoll env s o p = some s') :
    ServiceStep env (s.serviceView env) (s'.serviceView env)
      (serviceNotes env s (.poll (.handler o) p : Act E)) := by
  unfold handlerPoll at h
  split at h
  case h_1 act hp hon =>
    cases h
    simp only [serviceNotes, hp, hon]
    exact handlerRecv_serviceStep env hp hon
  case h_2 hp =>
    split_ifs at h
    cases h
    simp only [serviceNotes, hp]
    refine .to env (.rest (by simp)) rfl rfl ?_ rfl (State.work_handler_same s (by rw [hp]; rfl))
      rfl rfl
    rw [queue_modify]
    exact Function.update_eq_self (f := (s.serviceView env).queue) (ChanId.on o)
  case h_3 frame hp =>
    obtain ⟨-, rfl⟩ := issue_map h
    simp only [serviceNotes, hp]
    have hw : (s.serviceView env).work (.on o) = .writing frame := by
      simp only [State.serviceView, State.work, hp, HandlerPc.work]
    refine .to env (.send hw) rfl rfl rfl rfl (State.work_handler s o _) ?_ ?_
    · exact jobs_of_unheard env (.snoc (by simp))
    · rw [replies_append]
      rfl
  case h_4 hp =>
    obtain ⟨-, rfl⟩ := pend_eq h
    exact .to env (.rest (by simp [serviceNotes])) rfl rfl rfl rfl rfl rfl rfl
  case h_5 hp =>
    cases h
    exact .to env (.rest (by simp [serviceNotes])) rfl rfl rfl rfl
      (State.work_handler_same s (by rw [hp]; rfl)) rfl rfl
  case h_6 => cases h

theorem handlerRespond_serviceStep {o : ℕ} {r : Except E (Except JsonError Value)}
    (h : handlerRespond env s o r = some s') :
    ServiceStep env (s.serviceView env) (s'.serviceView env)
      (serviceNotes env s (.respond o r : Act E)) := by
  unfold handlerRespond at h
  split at h
  case h_2 => cases h
  case h_1 m hp =>
    cases h
    simp only [serviceNotes, hp]
    have hw : (s.serviceView env).work (.on o) = .running m := by
      simp only [State.serviceView, State.work, hp, HandlerPc.work]
    cases hf : responseFrame env m r with
    | some frame =>
      exact .to env (.answer hw hf) rfl rfl rfl rfl (State.work_handler s o _) rfl rfl
    | none => exact .to env (.silence hw) rfl rfl rfl rfl (State.work_handler s o _) rfl rfl

theorem on_serviceStep {o : ℕ} {act : String} (h : on s o act = some s') :
    ServiceStep env (s.serviceView env) (s'.serviceView env)
      (serviceNotes env s (.on o act : Act E)) := by
  unfold on at h
  split at h
  case h_2 => cases h
  case h_1 hon =>
    cases h
    exact .to env (.rest (by simp [serviceNotes])) rfl rfl rfl
      (State.registration_on_same s (by rw [hon]; rfl)) rfl rfl rfl

theorem onPoll_serviceStep {o : ℕ} {p : Poll} (hS : Spawned s) (h : onPoll s o p = some s') :
    ServiceStep env (s.serviceView env) (s'.serviceView env)
      (serviceNotes env s (.poll (.on o) p : Act E)) := by
  unfold onPoll at h
  split at h
  case h_2 => cases h
  case h_1 act hon =>
    cases h
    have hr : (s.serviceView env).registration (.on o) = .fresh := by
      simp only [State.serviceView, State.registration, hon, OnPc.registration]
    have habs : s.handlers o = .absent := hS o (by simp [hon])
    refine .to env (.register hr) rfl rfl ?_ (State.registration_on s o _)
      (State.work_handler_same s (by rw [habs]; rfl)) rfl rfl
    funext x
    exact Registry.insert_queue act (.on o) x

/-! ### `wait_for` -/

theorem waitFor_serviceStep {w : ℕ} {act : String} (h : waitFor s w act = some s') :
    ServiceStep env (s.serviceView env) (s'.serviceView env)
      (serviceNotes env s (.waitFor w act : Act E)) := by
  unfold waitFor at h
  split at h
  case h_2 => cases h
  case h_1 hp =>
    cases h
    exact .to env (.rest (by simp [serviceNotes])) rfl rfl rfl
      (State.registration_waitFor_same s (by rw [hp]; rfl))
      (State.work_waitFor_same s (by rw [hp]; rfl)) rfl rfl

theorem waitForRecv_serviceStep {w : ℕ} {act : String} (hp : s.waitFors w = .recv act) :
    ServiceStep env (s.serviceView env) ((waitForRecv env s w act).serviceView env)
      (takeNotes env (.waitFor w) act (s.requests.chans (.waitFor w)) : List (ServiceNote E)) := by
  have hg : (s.serviceView env).registration (.waitFor w) = .opened act := by
    simp only [State.serviceView, State.registration, hp, WaitForPc.registration]
  have hw : (s.serviceView env).work (.waitFor w) = .free := by
    simp only [State.serviceView, State.work, hp, WaitForPc.work]
  have hkeep : ∀ {pc : WaitForPc E}, pc.registration = .opened act →
      State.registration (s.setWaitFor w pc) = s.registration := fun h =>
    State.registration_waitFor_same s (h.trans (by rw [hp]; rfl))
  unfold waitForRecv
  split
  case h_1 m pl rest hv =>
    have hq : (s.serviceView env).queue (.waitFor w) = (m, pl) :: rest.queue := queue_of_recv hv
    have hmod := queue_modify s.requests (.waitFor w) fun _ => rest
    rw [takeNotes_of_value env hv]
    cases hd : env.decodeRequest act pl with
    | ok u =>
      exact .to env (.take hq hg hw) rfl rfl hmod (hkeep rfl) (State.work_waitFor s w _) rfl rfl
    | error e =>
      exact .to env (.discard hq) rfl rfl hmod (hkeep rfl)
        (State.work_waitFor_same s (by rw [hp]; rfl)) rfl rfl
  case h_2 hv | h_3 hv =>
    rw [takeNotes_of_not_value env (by simp [hv])]
    exact .to env (.rest (by simp)) rfl rfl rfl (hkeep rfl)
      (State.work_waitFor_same s (by rw [hp]; rfl)) rfl rfl

theorem waitForPoll_serviceStep {w : ℕ} {p : Poll} (h : waitForPoll env s w p = some s') :
    ServiceStep env (s.serviceView env) (s'.serviceView env)
      (serviceNotes env s (.poll (.waitFor w) p : Act E)) := by
  unfold waitForPoll at h
  split at h
  case h_1 act hp =>
    cases h
    simp only [serviceNotes, hp]
    have hr : (s.serviceView env).registration (.waitFor w) = .fresh := by
      simp only [State.serviceView, State.registration, hp, WaitForPc.registration]
    refine .to env (.register hr) rfl rfl ?_ (State.registration_waitFor s w _)
      (State.work_waitFor_same s (by rw [hp]; rfl)) rfl rfl
    funext x
    exact Registry.insert_queue act (.waitFor w) x
  case h_2 act hp =>
    cases h
    simp only [serviceNotes, hp]
    exact waitForRecv_serviceStep env hp
  case h_3 act hp =>
    split_ifs at h
    cases h
    simp only [serviceNotes, hp]
    refine .to env (.rest (by simp)) rfl rfl ?_
      (State.registration_waitFor_same s (by rw [hp]; rfl))
      (State.work_waitFor_same s (by rw [hp]; rfl)) rfl rfl
    exact (queue_modify s.requests (.waitFor w) .take).trans
      (Function.update_eq_self (f := (s.serviceView env).queue) (ChanId.waitFor w))
  case h_4 act hp =>
    split_ifs at h
    cases h
    exact .to env (.rest (by simp [serviceNotes])) rfl rfl rfl
      (State.registration_waitFor_same s (by rw [hp]; rfl))
      (State.work_waitFor_same s (by rw [hp]; rfl)) rfl rfl
  case h_5 act r frame hp =>
    obtain ⟨-, rfl⟩ := issue_map h
    simp only [serviceNotes, hp]
    have hw : (s.serviceView env).work (.waitFor w) = .writing frame := by
      simp only [State.serviceView, State.work, hp, WaitForPc.work]
    refine .to env (.send hw) rfl rfl rfl (State.registration_waitFor_same s (by rw [hp]; rfl))
      (State.work_waitFor s w _) ?_ ?_
    · exact jobs_of_unheard env (.snoc (by simp))
    · exact replies_append ..
  case h_6 hp =>
    obtain ⟨-, rfl⟩ := pend_eq h
    exact .to env (.rest (by simp [serviceNotes])) rfl rfl rfl rfl rfl rfl rfl
  case h_7 act r _ hp =>
    cases h
    exact .to env (.rest (by simp [serviceNotes])) rfl rfl rfl
      (State.registration_waitFor_same s (by rw [hp]; rfl))
      (State.work_waitFor_same s (by rw [hp]; rfl)) rfl rfl
  case h_8 act r hp =>
    cases h
    simp only [serviceNotes, hp]
    have hleave : ∀ a ch, (s.requests.removeOwn act (.waitFor w)).senders a = some ch →
        s.requests.senders a = some ch := fun a ch => Registry.senders_of_removeOwn
    refine .to env (.leave hleave) rfl rfl ?_ (State.registration_waitFor s w _)
      (State.work_waitFor_same s (by rw [hp]; rfl)) rfl rfl
    funext x
    have hch := Registry.removeOwn_chans (r := s.requests) act (.waitFor w)
    exact congrArg Chan.queue (congrFun hch x)
  case h_9 => cases h

theorem waitForRespond_serviceStep {w : ℕ} {r : Except E (Except JsonError Value)}
    (h : waitForRespond env s w r = some s') :
    ServiceStep env (s.serviceView env) (s'.serviceView env)
      (serviceNotes env s (.waitForRespond w r : Act E)) := by
  unfold waitForRespond at h
  split at h
  case h_2 => cases h
  case h_1 act m pl hp =>
    simp only [serviceNotes, hp]
    have hw : (s.serviceView env).work (.waitFor w) = .running m := by
      simp only [State.serviceView, State.work, hp, WaitForPc.work]
    split at h
    case h_1 frame hf =>
      cases h
      exact .to env (.answer hw hf) rfl rfl rfl
        (State.registration_waitFor_same s (by rw [hp]; rfl))
        (State.work_waitFor s w _) rfl rfl
    case h_2 =>
      cases h
      exact .to env (.silence hw) rfl rfl rfl (State.registration_waitFor_same s (by rw [hp]; rfl))
        (State.work_waitFor s w _) rfl rfl

/-! ### Every step -/

/-- The steps that take a CALL further. -/
def Act.Serves : Act E → Prop
  | .recv _ | .poll .read _ | .on _ _ | .poll (.on _) _ | .poll (.handler _) _ | .respond _ _
  | .waitFor _ _ | .poll (.waitFor _) _ | .waitForRespond _ _ => True
  | _ => False

omit [ProtocolError E] in
theorem serviceNotes_of_not_serves (ha : ¬ a.Serves) :
    ∀ n ∈ (serviceNotes env s a : List (ServiceNote E)), n.isAsked = true := by
  unfold serviceNotes
  split
  case h_1 =>
    split
    · simp [ServiceNote.isAsked]
    · simp
  case h_7 => simp
  all_goals exact absurd trivial ha

theorem queueFrame_of_not_serves (ha : ¬ a.Serves) (hs : step env cfg s a = some s') :
    QueueFrame s s' ∧ s'.read = s.read := by
  cases queue_cases env cfg hs with
  | handlers h => cases h <;> exact absurd trivial ha
  | read hq =>
    have hr : s'.read = s.read := by
      cases loop_cases env cfg hs with
      | recv h => exact absurd trivial ha
      | read h => exact absurd trivial ha
      | disconnect h =>
        obtain ⟨_, _, _, _, _, rfl, -⟩ := disconnect_footprint h
        rfl
      | disconnectPoll h =>
        obtain ⟨_, _, _, _, rfl, -⟩ := disconnectPoll_footprint h
        rfl
      | other h => exact h.read
    cases hq with
    | frame hf _ => exact ⟨hf, hr⟩
    | lookup hf _ _ => exact ⟨hf, hr⟩
    | push hpc h =>
      rw [h, hpc] at hr
      cases hr

/-- What a step of the client does to the CALLs on their way. -/
theorem serviceStep_of_step (hS : Spawned s) (hs : step env cfg s a = some s') :
    ServiceStep env (s.serviceView env) (s'.serviceView env) (serviceNotes env s a) := by
  by_cases ha : a.Serves
  · unfold Act.Serves at ha
    split at ha
    · exact readRecv_serviceStep env cfg hs
    · exact readPoll_serviceStep env cfg hs
    · exact on_serviceStep env hs
    · exact onPoll_serviceStep env hS hs
    · exact handlerPoll_serviceStep env hs
    · exact handlerRespond_serviceStep env hs
    · exact waitFor_serviceStep env hs
    · exact waitForPoll_serviceStep env hs
    · exact waitForRespond_serviceStep env hs
    · exact ha.elim
  · obtain ⟨hf, hr⟩ := queueFrame_of_not_serves env cfg ha hs
    refine .of_frame env hf (by rw [hr]) ?_ ?_ (serviceNotes_of_not_serves env ha)
    · rcases heard_cases env cfg hs with hu | ⟨e, rfl, -⟩
      · exact jobs_of_unheard env hu
      · exact absurd trivial ha
    · refine (write_cases env cfg hs).replies fun t hat ht => ?_
      subst hat
      cases t <;> first | exact ht | exact absurd trivial ha

end Steps

end OcppClient
