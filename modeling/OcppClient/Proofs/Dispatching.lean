import OcppClient.Lib.Switchboard
import OcppClient.Proofs.Registrations
import OcppClient.Proofs.Resyncs
import OcppClient.Proofs.Service

/-!
# CALLs are served in order

The read loop is the switchboard of the CALLs a client receives: it looks each of them up in
`request_senders`, and puts it into the queue of the handler found. A handler takes one at a time,
settles on an answer and writes it before it takes the next. So a handler answers what it was sent
in the order in which it came, each CALL once, and writes nothing else.
-/

namespace OcppClient

open Transition

variable {E R : Type}

/-! ## The board and its log -/

abbrev CallNote := Switchboard.Note String ChanId (String × Value)

def Hand.board : Hand → Switchboard.Hand String ChanId (String × Value)
  | .call j => .held j.action (j.messageId, j.payload)
  | .route ch messageId payload => .bound ch (messageId, payload)
  | .free | .refuse _ => .free

def OnPc.used : OnPc → Bool
  | .registered _ => true
  | .idle | .lock _ => false

def WaitForPc.used : WaitForPc E → Bool
  | .idle | .lock _ => false
  | _ => true

/-- The CALL first in a channel is taken. -/
def State.takes (s : State E R) (ch : ChanId) : List CallNote :=
  (s.requests.chans ch).queue.head?.toList.map (.taken ch)

def State.callNotes (s : State E R) : Act E → List CallNote
  | .poll .read .ready =>
    match s.read with
    | .lockRequestSenders messageId action payload =>
      [.routed (s.requests.senders action) action (messageId, payload)]
    | _ => []
  | .poll (.on o) .ready =>
    match s.ons o with
    | .lock action => [.entered (.on o) action]
    | _ => []
  | .poll (.handler o) .ready =>
    match s.handlers o, s.ons o with
    | .recv, .registered _ => s.takes (.on o)
    | _, _ => []
  | .poll (.waitFor w) .ready =>
    match s.waitFors w with
    | .lock action => [.entered (.waitFor w) action]
    | .recv _ => s.takes (.waitFor w)
    | _ => []
  | _ => []

section Board

variable [ProtocolError E] (env : Env R)

def State.callBoard (s : State E R) : Switchboard.Board String ChanId (String × Value) where
  senders := s.requests.senders
  used := ChanId.elim (fun o => (s.ons o).used) fun w => (s.waitFors w).used
  hand := s.read.hand.board
  queue ch := (s.requests.chans ch).queue
  came := (jobs env s.hist).map fun j => (j.action, j.messageId, j.payload)

variable {s s' : State E R}

theorem callBoard_step {b : Switchboard.Board String ChanId (String × Value)}
    {notes : List CallNote} (h : Switchboard.Step (s.callBoard env) b notes)
    (hs : s'.requests.senders = b.senders)
    (hu : ChanId.elim (fun o => (s'.ons o).used) (fun w => (s'.waitFors w).used) = b.used)
    (hh : s'.read.hand.board = b.hand) (hq : (fun ch => (s'.requests.chans ch).queue) = b.queue)
    (hc : (jobs env s'.hist).map (fun j => (j.action, j.messageId, j.payload)) = b.came) :
    Switchboard.Step (s.callBoard env) (s'.callBoard env) notes := by
  have hb : s'.callBoard env = b := by simp only [State.callBoard, hs, hu, hh, hq, hc]
  rw [hb]
  exact h

/-- What is left once the tables are. -/
theorem QueueFrame.callBoard (hf : QueueFrame s s') :
    s'.callBoard env
      = { s.callBoard env with
          hand := s'.read.hand.board
          came := (jobs env s'.hist).map fun j => (j.action, j.messageId, j.payload) } := by
  simp only [State.callBoard, hf.requests, hf.ons, hf.waitFors]

theorem QueueFrame.callBoard_eq (hf : QueueFrame s s') (hr : s'.read.hand = s.read.hand)
    (hj : jobs env s'.hist = jobs env s.hist) : s'.callBoard env = s.callBoard env := by
  rw [hf.callBoard env, hr, hj]
  rfl

/-! ### The read loop -/

theorem readRecv_callBoard (cfg : ClientConfig) {e : Option TransportEvent}
    (h : readRecv env cfg s e = some s') :
    Switchboard.Step (s.callBoard env) (s'.callBoard env) [] := by
  unfold readRecv at h
  split at h
  case h_2 => cases h
  case h_1 hr =>
    have hfree : s.read.hand = .free := by rw [hr]; rfl
    rcases e with _ | (f | pl | pl)
    · cases h
      have hf : QueueFrame s (leave cfg s .eof) := ⟨rfl, rfl, rfl, rfl⟩
      rw [hf.callBoard_eq env ((leave_hand cfg s _).trans hfree.symm)
        (by simp [leave, jobs, Event.job, Event.frame])]
      exact .rest
    · cases h
      have hf : QueueFrame s (handleEvent env s (.frame f)) := ⟨rfl, rfl, rfl, rfl⟩
      have hj : jobs env (handleEvent env s (.frame f)).hist
          = jobs env s.hist ++ (frameJob E env f).toList := by
        simp only [handleEvent, handleFrame, jobs_append]
        cases hd : frameJob E env f <;> simp [jobs, Event.job, Event.frame, hd]
      rw [hf.callBoard env, hj]
      cases hd : (dispatch env f : Dispatch E) with
      | call m a p =>
        have hh : (handleEvent env s (.frame f)).read.hand = .call ⟨m, a, p⟩ := by
          simp [handleEvent, handleFrame, hd, ReadPc.hand]
        have hjob : frameJob E env f = some ⟨m, a, p⟩ := by simp only [frameJob, hd]
        rw [hh, hjob, Option.toList_some, List.map_append, List.map_singleton]
        exact .come (congrArg Hand.board hfree)
      | ignore | response | send =>
        have hh : (handleEvent env s (.frame f)).read.hand = s.read.hand := by
          simp [handleEvent, handleFrame, hd, hr, ReadPc.hand]
        have hjob : frameJob E env f = none := by simp only [frameJob, hd]
        rw [hh, hjob, Option.toList_none, List.append_nil]
        exact .rest
    · cases h
      have hf : QueueFrame s (handleEvent env s (.ping pl)) := ⟨rfl, rfl, rfl, rfl⟩
      rw [hf.callBoard_eq env hfree.symm (by simp [handleEvent, jobs, Event.job, Event.frame])]
      exact .rest
    · cases h
      have hf : QueueFrame s (handleEvent env s (.pong pl)) := ⟨rfl, rfl, rfl, rfl⟩
      rw [hf.callBoard_eq env hfree.symm (by simp [handleEvent, jobs, Event.job, Event.frame])]
      exact .rest

theorem lookupRequest_callBoard {m act : String} {pl : Value}
    (hr : s.read = .lockRequestSenders m act pl) :
    Switchboard.Step (s.callBoard env) ((lookupRequest env s m act pl).callBoard env)
      [.routed (s.requests.senders act) act (m, pl)] := by
  have hh : (s.callBoard env).hand = .held act (m, pl) := by
    simp only [State.callBoard, hr, ReadPc.hand, Hand.board]
  have hf : QueueFrame s (lookupRequest env s m act pl) := ⟨rfl, rfl, rfl, rfl⟩
  rw [hf.callBoard env]
  cases hs : s.requests.senders act with
  | some ch =>
    have hl : (lookupRequest env s m act pl).read.hand = .route ch m pl := by
      simp only [lookupRequest, hs, ReadPc.hand]
    rw [hl]
    exact .bind hh hs
  | none =>
    have hl : (lookupRequest env s m act pl).read.hand.board = .free := by
      simp only [lookupRequest, hs]
      split <;> rfl
    rw [hl]
    exact .turnAway hh hs

omit [ProtocolError E] in
theorem callNotes_of_free {p : Poll} (hfree : s.read.hand = .free) :
    s.callNotes (.poll .read p : Act E) = [] := by
  cases p with
  | ready =>
    simp only [State.callNotes]
    split
    · next hr =>
      rw [hr] at hfree
      cases hfree
    · rfl
  | pend | done | timer => rfl

theorem readPoll_callBoard (cfg : ClientConfig) {p : Poll} (hs : readPoll env cfg s p = some s') :
    Switchboard.Step (s.callBoard env) (s'.callBoard env)
      (s.callNotes (.poll .read p : Act E)) := by
  have hj := jobs_of_unheard env (readPoll_unheard env cfg hs)
  have hk := readPoll_frame env cfg hs
  by_cases hfree : s.read.hand = .free
  · have hn : s.callNotes (.poll .read p : Act E) = [] := callNotes_of_free hfree
    rcases hk.requests with hq | ⟨ch, m, pl, hr, -⟩
    · have hf : QueueFrame s s' := ⟨hq, hk.ons, hk.handlers, hk.waitFors⟩
      rw [hn, hf.callBoard_eq env ((readPoll_hand env cfg hs hfree).trans hfree.symm) hj]
      exact .rest
    · rw [hr] at hfree
      cases hfree
  · rcases ReadPc.hand_ne_free hfree with ⟨m, act, pl, hr⟩ | ⟨ch, m, pl, hr⟩ | ⟨frame, hr⟩
    · unfold readPoll at hs
      rw [hr] at hs
      cases p <;> cases hs
      simp only [State.callNotes, hr]
      exact lookupRequest_callBoard env hr
    · unfold readPoll at hs
      rw [hr] at hs
      cases p <;> cases hs
      simp only [State.callNotes, hr]
      have hh : (s.callBoard env).hand = .bound ch (m, pl) := by
        simp only [State.callBoard, hr, ReadPc.hand, Hand.board]
      exact callBoard_step env (.push hh) rfl rfl rfl
        (queue_modify s.requests ch fun c => c.send (m, pl)) rfl
    · unfold readPoll at hs
      rw [hr] at hs
      cases p with
      | ready =>
        obtain ⟨-, rfl⟩ := issue_map hs
        simp only [State.callNotes, hr]
        exact callBoard_step env .rest rfl rfl (by simp only [State.callBoard, hr]; rfl) rfl
          (by rw [hj]; rfl)
      | pend | done | timer => cases hs

/-! ### Handlers -/

/-- The reader of a channel takes what is first in it. -/
theorem recv_callBoard {ch : ChanId} {m : String} {pl : Value} {rest : Chan (String × Value)}
    (hv : (s.requests.chans ch).recv = .value (m, pl) rest) {s' : State E R}
    (hr : s'.requests = s.requests.modify ch fun _ => rest)
    (hu : ChanId.elim (fun o => (s'.ons o).used) (fun w => (s'.waitFors w).used)
      = (s.callBoard env).used)
    (hh : s'.read = s.read) (hj : s'.hist = s.hist) :
    Switchboard.Step (s.callBoard env) (s'.callBoard env) (s.takes ch) := by
  have hq : (s.callBoard env).queue ch = (m, pl) :: rest.queue := queue_of_recv hv
  have hn : s.takes ch = [.taken ch (m, pl)] := by
    simp only [State.takes, queue_of_recv hv, List.head?_cons, Option.toList_some,
      List.map_singleton]
  rw [hn]
  exact callBoard_step env (.take hq) (by rw [hr]; rfl) hu (by rw [hh]; rfl)
    (by rw [hr]; exact queue_modify s.requests ch fun _ => rest) (by rw [hj]; rfl)

omit [ProtocolError E] in
theorem queue_eq_nil {T : Type} {c : Chan T} (hv : ∀ v rest, c.recv ≠ .value v rest) :
    c.queue = [] := by
  cases hq : c.queue with
  | nil => rfl
  | cons v queue =>
    refine absurd ?_ (hv v { c with queue })
    simp only [Chan.recv, hq]

omit [ProtocolError E] in
theorem takes_eq_nil {ch : ChanId} (hv : ∀ v rest, (s.requests.chans ch).recv ≠ .value v rest) :
    s.takes ch = [] := by
  simp only [State.takes, queue_eq_nil hv, List.head?_nil, Option.toList_none, List.map_nil]

omit [ProtocolError E] in
/-- To take the signal of a channel is to leave its queue. -/
theorem queue_of_take {κ T : Type} [DecidableEq κ] (r : Registry κ T) (ch : κ) :
    (fun x => ((r.modify ch .take).chans x).queue) = fun x => (r.chans x).queue := by
  rw [queue_modify]
  exact Function.update_eq_self (f := fun x => (r.chans x).queue) ch

/-- Past its registration a `wait_for` keeps its channel, and before it has none. -/
theorem callBoard_setWaitFor {w : ℕ} {pc : WaitForPc E} (hpc : (s.waitFors w).used = pc.used) :
    (s.setWaitFor w pc).callBoard env = s.callBoard env := by
  have hu : ChanId.elim (fun o => (s.ons o).used)
      (fun v => (Function.update s.waitFors w pc v).used) = (s.callBoard env).used := by
    rw [ChanId.elim_waitFor, ← hpc]
    exact Function.update_eq_self (f := (s.callBoard env).used) (ChanId.waitFor w)
  simp only [State.callBoard, State.setWaitFor] at hu ⊢
  rw [hu]

theorem handlerPoll_callBoard {o : ℕ} {p : Poll} (h : handlerPoll env s o p = some s') :
    Switchboard.Step (s.callBoard env) (s'.callBoard env)
      (s.callNotes (.poll (.handler o) p : Act E)) := by
  unfold handlerPoll at h
  split at h
  case h_1 act hp hon =>
    cases h
    simp only [State.callNotes, hp, hon]
    unfold handlerRecv
    split
    case h_1 m pl rest hv => exact recv_callBoard env hv rfl rfl rfl rfl
    case h_2 hv | h_3 hv =>
      rw [takes_eq_nil (by simp [hv])]
      exact .rest
  case h_2 hp =>
    split_ifs at h
    cases h
    simp only [State.callNotes, hp]
    exact callBoard_step env .rest rfl rfl rfl (queue_of_take s.requests (.on o)) rfl
  case h_3 frame hp =>
    obtain ⟨-, rfl⟩ := issue_map h
    simp only [State.callNotes, hp]
    exact callBoard_step env .rest rfl rfl rfl rfl
      (congrArg _ (jobs_of_unheard env (.snoc (by simp))))
  case h_4 =>
    obtain ⟨-, rfl⟩ := pend_eq h
    exact .rest
  case h_5 =>
    cases h
    exact .rest
  case h_6 => cases h

theorem waitForPoll_callBoard {w : ℕ} {p : Poll} (h : waitForPoll env s w p = some s') :
    Switchboard.Step (s.callBoard env) (s'.callBoard env)
      (s.callNotes (.poll (.waitFor w) p : Act E)) := by
  unfold waitForPoll at h
  split at h
  case h_1 act hp =>
    cases h
    simp only [State.callNotes, hp]
    have hf : (s.callBoard env).used (.waitFor w) = false := by
      simp only [State.callBoard, ChanId.elim, hp, WaitForPc.used]
    exact callBoard_step env (.register hf) rfl
      (ChanId.elim_waitFor s.waitFors WaitForPc.used _ w _) rfl
      (funext fun x => Registry.insert_queue act (.waitFor w) x) rfl
  case h_2 act hp =>
    cases h
    simp only [State.callNotes, hp]
    unfold waitForRecv
    split
    case h_1 m pl rest hv =>
      rw [callBoard_setWaitFor env]
      · exact recv_callBoard env hv rfl rfl rfl rfl
      · rw [hp]
        split <;> rfl
    case h_2 hv | h_3 hv =>
      rw [takes_eq_nil (by simp [hv]), callBoard_setWaitFor env]
      · exact .rest
      · simp only [hp, WaitForPc.used]
  case h_3 act hp =>
    split_ifs at h
    cases h
    simp only [State.callNotes, hp]
    rw [callBoard_setWaitFor env]
    · exact callBoard_step env .rest rfl rfl rfl (queue_of_take s.requests (.waitFor w)) rfl
    · simp only [hp, WaitForPc.used]
  case h_4 act hp =>
    split_ifs at h
    cases h
    rw [callBoard_setWaitFor env]
    · exact .rest
    · simp only [hp, WaitForPc.used]
  case h_5 act r frame hp =>
    obtain ⟨-, rfl⟩ := issue_map h
    simp only [State.callNotes, hp]
    rw [callBoard_setWaitFor env]
    · exact callBoard_step env .rest rfl rfl rfl rfl
        (congrArg _ (jobs_of_unheard env (.snoc (by simp))))
    · simp only [hp, WaitForPc.used]
  case h_6 =>
    obtain ⟨-, rfl⟩ := pend_eq h
    exact .rest
  case h_7 act r _ hp =>
    cases h
    rw [callBoard_setWaitFor env]
    · exact .rest
    · simp only [State.release, hp, WaitForPc.used]
  case h_8 act r hp =>
    cases h
    simp only [State.callNotes, hp]
    have hch := Registry.removeOwn_chans (r := s.requests) act (.waitFor w)
    rw [callBoard_setWaitFor env]
    · exact callBoard_step env (.withdraw fun a ch => Registry.senders_of_removeOwn) rfl rfl rfl
        (funext fun x => congrArg Chan.queue (congrFun hch x)) rfl
    · simp only [hp, WaitForPc.used]
  case h_9 => cases h

theorem onPoll_callBoard {o : ℕ} {p : Poll} (h : onPoll s o p = some s') :
    Switchboard.Step (s.callBoard env) (s'.callBoard env)
      (s.callNotes (.poll (.on o) p : Act E)) := by
  unfold onPoll at h
  split at h
  case h_2 => cases h
  case h_1 act hon =>
    cases h
    simp only [State.callNotes, hon]
    have hf : (s.callBoard env).used (.on o) = false := by
      simp only [State.callBoard, ChanId.elim, hon, OnPc.used]
    exact callBoard_step env (.register hf) rfl (ChanId.elim_on s.ons OnPc.used _ o _) rfl
      (funext fun x => Registry.insert_queue act (.on o) x) rfl

/-! ### Every step -/

omit [ProtocolError E] in
theorem callNotes_of_not_serves {a : Act E} (ha : ¬ a.Serves) : s.callNotes a = [] := by
  unfold State.callNotes
  split
  case h_5 => rfl
  all_goals exact absurd trivial ha

theorem callBoard_of_step (cfg : ClientConfig) {a : Act E} (hs : step env cfg s a = some s') :
    Switchboard.Step (s.callBoard env) (s'.callBoard env) (s.callNotes a) := by
  by_cases ha : a.Serves
  · unfold Act.Serves at ha
    split at ha
    case h_1 => exact readRecv_callBoard env cfg hs
    case h_2 => exact readPoll_callBoard env cfg hs
    case h_3 o act =>
      replace hs : on s o act = some s' := hs
      unfold on at hs
      split at hs <;> cases hs
      next hidle =>
      refine callBoard_step env .rest rfl ?_ rfl rfl rfl
      rw [ChanId.elim_on s.ons OnPc.used]
      have hu : (OnPc.lock act).used = (s.callBoard env).used (.on o) := by
        simp only [State.callBoard, ChanId.elim, hidle, OnPc.used]
      rw [hu]
      exact Function.update_eq_self (f := (s.callBoard env).used) (ChanId.on o)
    case h_4 => exact onPoll_callBoard env hs
    case h_5 => exact handlerPoll_callBoard env hs
    case h_6 =>
      obtain ⟨_, rfl⟩ := handlerRespond_footprint env hs
      exact .rest
    case h_7 w act =>
      replace hs : waitFor s w act = some s' := hs
      unfold waitFor at hs
      split at hs <;> cases hs
      next hidle =>
      rw [callBoard_setWaitFor env]
      · exact .rest
      · simp only [hidle, WaitForPc.used]
    case h_8 => exact waitForPoll_callBoard env hs
    case h_9 w r =>
      replace hs : waitForRespond env s w r = some s' := hs
      unfold waitForRespond at hs
      split at hs
      case h_2 => cases hs
      case h_1 hp =>
        split at hs <;> cases hs
        all_goals
          rw [callBoard_setWaitFor env]
          · exact .rest
          · simp only [hp, WaitForPc.used]
    case h_10 => exact ha.elim
  · obtain ⟨hf, hr⟩ := queueFrame_of_not_serves env cfg ha hs
    have hj : jobs env s'.hist = jobs env s.hist := by
      rcases heard_cases env cfg hs with hu | ⟨e, rfl, -⟩
      · exact jobs_of_unheard env hu
      · exact absurd trivial ha
    rw [callNotes_of_not_serves ha, hf.callBoard_eq env (by rw [hr]) hj]
    exact .rest

end Board

end OcppClient
