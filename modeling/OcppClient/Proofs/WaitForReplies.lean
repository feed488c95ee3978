import OcppClient.Proofs.Releases

/-!
# The CALLs that `wait_for` attracts

`wait_for` registers a channel, takes one CALL from it, answers that one if its payload can be
decoded, and takes its entry out of the table last. So the read loop can push a second CALL to the
channel that nobody takes, and a CALL with another payload is dropped. Where neither happens, nor a
response that cannot be serialised, each CALL pushed to the channel is answered once.
-/

namespace OcppClient

open Transition

variable {E R : Type}

/-! ## The log -/

/-- What concerns the channel of a `wait_for`: the read loop pushed a CALL to it, or the answer to
one was handed to the sink. -/
inductive WaitNote
  | pushed (w : ℕ) (messageId : String)
  | replied (w : ℕ) (frame : String)
  deriving DecidableEq

def WaitNote.pushedTo (w : ℕ) : WaitNote → Option String
  | .pushed v messageId => if v = w then some messageId else none
  | .replied _ _ => none

def WaitNote.repliedBy (w : ℕ) : WaitNote → Option String
  | .replied v frame => if v = w then some frame else none
  | .pushed _ _ => none

/-- The CALLs pushed to the channel of a `wait_for`, by their ids. -/
def pushedTo (w : ℕ) (log : List WaitNote) : List String := log.filterMap (WaitNote.pushedTo w)

/-- The frames a `wait_for` handed to the sink. -/
def repliesOf (w : ℕ) (log : List WaitNote) : List String := log.filterMap (WaitNote.repliedBy w)

def State.waitNotes (s : State E R) : Act E → List WaitNote
  | .poll .read .ready =>
    match s.read with
    | .pushRequest (.waitFor w) messageId _ => [.pushed w messageId]
    | _ => []
  | .poll (.waitFor w) .ready =>
    match s.waitFors w with
    | .lockSink _ _ frame => [.replied w frame]
    | _ => []
  | _ => []

theorem pushedTo_append (w : ℕ) (log notes : List WaitNote) :
    pushedTo w (log ++ notes) = pushedTo w log ++ pushedTo w notes :=
  List.filterMap_append ..

theorem repliesOf_append (w : ℕ) (log notes : List WaitNote) :
    repliesOf w (log ++ notes) = repliesOf w log ++ repliesOf w notes :=
  List.filterMap_append ..

@[simp]
theorem pushedTo_nil (w : ℕ) : pushedTo w [] = [] := rfl

@[simp]
theorem repliesOf_nil (w : ℕ) : repliesOf w [] = [] := rfl

@[simp]
theorem pushedTo_pushed (w v : ℕ) (messageId : String) :
    pushedTo w [.pushed v messageId] = if v = w then [messageId] else [] := by
  unfold pushedTo
  split_ifs with h <;> simp [WaitNote.pushedTo, h]

@[simp]
theorem repliesOf_replied (w v : ℕ) (frame : String) :
    repliesOf w [.replied v frame] = if v = w then [frame] else [] := by
  unfold repliesOf
  split_ifs with h <;> simp [WaitNote.repliedBy, h]

@[simp]
theorem pushedTo_replied (w v : ℕ) (frame : String) : pushedTo w [.replied v frame] = [] := rfl

@[simp]
theorem repliesOf_pushed (w v : ℕ) (messageId : String) :
    repliesOf w [.pushed v messageId] = [] := rfl

variable [ProtocolError E] (env : Env R) (cfg : ClientConfig)

variable (E) in
/-- `frame` is a CALLRESULT or a CALLERROR for the CALL `messageId`. -/
def RepliesTo (messageId frame : String) : Prop :=
  ∃ r : Except E (Except JsonError Value), responseFrame env messageId r = some frame

variable (E) in
/-- Each CALL pushed to the channel of a `wait_for` has one reply, and there are no others. -/
def Answered (w : ℕ) (log : List WaitNote) : Prop :=
  List.Forall₂ (RepliesTo E env) (pushedTo w log) (repliesOf w log)

/-! ## How far it has come -/

/-- What is in the channel of a `wait_for` that has taken nothing: one CALL at most, with a payload
it can decode. -/
structure Queued (action : String) (queue : List (String × Value)) (pushed : List String) :
    Prop where
  pushed_eq : pushed = queue.map Prod.fst
  length_le : queue.length ≤ 1
  decodes : ∀ item ∈ queue, (env.decodeRequest action item.2).isOk = true

/-- The channel, the CALLs pushed to it and the replies, by where `wait_for` stands. -/
def WaitStage (c : Chan (String × Value)) (pushed replies : List String) : WaitForPc E → Prop
  | .idle | .lock _ => c.queue = [] ∧ pushed = [] ∧ replies = []
  | .recv action => replies = [] ∧ Queued env action c.queue pushed
  | .wait action =>
    replies = [] ∧ Queued env action c.queue pushed ∧ (c.queue ≠ [] → c.signal = true)
  | .callback _ messageId _ => pushed = [messageId] ∧ replies = []
  | .lockSink _ _ frame =>
    (∃ messageId, pushed = [messageId] ∧ RepliesTo E env messageId frame) ∧ replies = []
  | .sending _ _ | .unregister _ _ | .returned _ => List.Forall₂ (RepliesTo E env) pushed replies

variable {s s' : State E R} {w : ℕ} {log : List WaitNote} {a : Act E}

/-- `wait_for` stands where it stood, and its channel holds what it held. -/
structure KeepsWaiting (w : ℕ) (s s' : State E R) : Prop where
  pc : s'.waitFors w = s.waitFors w
  queue : (s'.requests.chans (.waitFor w)).queue = (s.requests.chans (.waitFor w)).queue
  signal : (s.requests.chans (.waitFor w)).signal = true →
    (s'.requests.chans (.waitFor w)).signal = true

def WaitInv (w : ℕ) (s : State E R) (log : List WaitNote) : Prop :=
  WaitStage env (s.requests.chans (.waitFor w)) (pushedTo w log) (repliesOf w log) (s.waitFors w)

variable {env}

theorem WaitInv.waits (hI : WaitInv env w s log) (h : KeepsWaiting w s s') :
    WaitInv env w s' log := by
  unfold WaitInv at hI ⊢
  rw [h.pc]
  cases hpc : s.waitFors w <;> rw [hpc] at hI <;> simp only [WaitStage, h.queue] at hI ⊢
  case wait action => exact ⟨hI.1, hI.2.1, fun hq => h.signal (hI.2.2 hq)⟩
  all_goals exact hI

/-! ## Steps that leave it alone -/

section Bystanders

omit [ProtocolError E]

theorem KeepsWaiting.of_eq (hw : s'.waitFors = s.waitFors) (hr : s'.requests = s.requests) :
    KeepsWaiting w s s' := by
  refine ⟨by rw [hw], by rw [hr], fun h => by rw [hr]; exact h⟩

/-- Another channel changes. -/
theorem KeepsWaiting.modify {ch : ChanId} {f : Chan (String × Value) → Chan _}
    (hne : ch ≠ .waitFor w) (hw : s'.waitFors w = s.waitFors w)
    (hr : s'.requests = s.requests.modify ch f) : KeepsWaiting w s s' := by
  have hc : s'.requests.chans (.waitFor w) = s.requests.chans (.waitFor w) := by
    rw [hr, Registry.modify_chans, if_neg hne.symm]
  exact ⟨hw, by rw [hc], fun h => by rw [hc]; exact h⟩

/-- A registration closes the channel at most, which sets its signal. -/
theorem KeepsWaiting.insert {action : String} {ch : ChanId} (hw : s'.waitFors w = s.waitFors w)
    (hr : s'.requests = s.requests.insert action ch) : KeepsWaiting w s s' := by
  refine ⟨hw, by rw [hr, Registry.insert_queue], fun h => ?_⟩
  rw [hr, Registry.insert_chans]
  split_ifs
  · rfl
  · exact h

theorem setWaitFor_other {v : ℕ} (hne : v ≠ w) (pc : WaitForPc E) :
    (s.setWaitFor v pc).waitFors w = s.waitFors w := by
  simp [State.setWaitFor, hne.symm]

variable (env)

theorem waitForPoll_waits {v : ℕ} {p : Poll} (hne : v ≠ w) (h : waitForPoll env s v p = some s') :
    KeepsWaiting w s s' := by
  have hch : ChanId.waitFor v ≠ .waitFor w := by simpa using hne
  unfold waitForPoll at h
  split at h
  case h_1 =>
    cases h
    exact .insert (setWaitFor_other hne _) rfl
  case h_2 =>
    cases h
    unfold waitForRecv
    split
    · next rest _ => exact .modify (f := fun _ => rest) hch (setWaitFor_other hne _) rfl
    · exact ⟨setWaitFor_other hne _, rfl, id⟩
    · exact ⟨setWaitFor_other hne _, rfl, id⟩
  case h_3 =>
    split_ifs at h
    cases h
    exact .modify hch (setWaitFor_other hne _) rfl
  case h_4 =>
    split_ifs at h
    cases h
    exact ⟨setWaitFor_other hne _, rfl, id⟩
  case h_5 =>
    obtain ⟨-, rfl⟩ := issue_map h
    exact ⟨setWaitFor_other hne _, rfl, id⟩
  case h_6 =>
    obtain ⟨-, rfl⟩ := pend_eq h
    exact .of_eq rfl rfl
  case h_7 =>
    cases h
    exact ⟨setWaitFor_other hne _, rfl, id⟩
  case h_8 action outcome hpc =>
    cases h
    have hc := Registry.removeOwn_chans (r := s.requests) action (.waitFor v)
    refine ⟨setWaitFor_other hne _, ?_, fun h => ?_⟩
    · simp only [State.setWaitFor, hc]
    · simpa only [State.setWaitFor, hc] using h
  case h_9 => cases h

theorem handlerPoll_waits {o : ℕ} {p : Poll} [ProtocolError E]
    (h : handlerPoll env s o p = some s') : KeepsWaiting w s s' := by
  have hch : ChanId.on o ≠ .waitFor w := nofun
  unfold handlerPoll at h
  split at h
  case h_1 =>
    cases h
    unfold handlerRecv
    split
    · next rest _ => exact .modify (f := fun _ => rest) hch rfl rfl
    · exact .of_eq rfl rfl
    · exact .of_eq rfl rfl
  case h_2 =>
    split_ifs at h
    cases h
    exact .modify hch rfl rfl
  case h_3 =>
    obtain ⟨-, rfl⟩ := issue_map h
    exact .of_eq rfl rfl
  case h_4 =>
    obtain ⟨-, rfl⟩ := pend_eq h
    exact .of_eq rfl rfl
  case h_5 =>
    cases h
    exact .of_eq rfl rfl
  case h_6 => cases h

end Bystanders

/-- The acts of the read loop and of `wait_for`. -/
def Act.Attends : Act E → Prop
  | .poll .read _ | .poll (.waitFor _) _ | .waitFor _ _ | .waitForRespond _ _ => True
  | _ => False

variable (env)

theorem waits_of_not_attends (ha : ¬ a.Attends) (hs : step env cfg s a = some s') :
    KeepsWaiting w s s' := by
  cases party_cases env cfg hs with
  | recv h =>
    obtain ⟨_, _, _, rfl, -⟩ := readRecv_footprint env cfg h
    exact .of_eq rfl rfl
  | read h => exact absurd trivial ha
  | notify h =>
    obtain ⟨_, _, rfl, -⟩ := sendNotification_footprint env h
    exact .of_eq rfl rfl
  | notificationPoll h =>
    obtain ⟨_, _, _, _, rfl, -⟩ := notificationPoll_footprint h
    exact .of_eq rfl rfl
  | other h => exact .of_eq h.waitFors h.requests
  | handlers h =>
    cases h with
    | on h =>
      obtain ⟨_, rfl⟩ := on_footprint h
      exact .of_eq rfl rfl
    | onPoll h =>
      unfold onPoll at h
      split at h <;> cases h
      exact .insert rfl rfl
    | handlerPoll h => exact handlerPoll_waits env h
    | respond h =>
      obtain ⟨_, rfl⟩ := handlerRespond_footprint env h
      exact .of_eq rfl rfl
    | waitFor h => exact absurd trivial ha
    | waitForPoll h => exact absurd trivial ha
    | waitForRespond h => exact absurd trivial ha

omit [ProtocolError E] in
theorem waitNotes_of_not_attends (ha : ¬ a.Attends) : s.waitNotes a = [] := by
  unfold State.waitNotes
  split
  · exact absurd trivial ha
  · exact absurd trivial ha
  · rfl

/-! ## Steps of `wait_for` and of the read loop -/

/-- The read loop pushes to the channel only while `wait_for` has not taken a CALL and there is none
in it, and one that can be decoded; and the callback's response can be serialised. -/
structure TakesOne (w : ℕ) (s : State E R) (a : Act E) : Prop where
  push : a = .poll .read .ready → ∀ messageId payload,
    s.read = .pushRequest (.waitFor w) messageId payload →
    (s.requests.chans (.waitFor w)).queue = [] ∧ ∃ action,
      (s.waitFors w = .recv action ∨ s.waitFors w = .wait action)
      ∧ (env.decodeRequest action payload).isOk = true
  answer : ∀ r, a = .waitForRespond w r → ∀ action messageId payload,
    s.waitFors w = .callback action messageId payload →
    (responseFrame env messageId r).isSome = true

variable {env}

theorem WaitInv.push (hI : WaitInv env w s log) {messageId : String} {payload : Value}
    (hq : (s.requests.chans (.waitFor w)).queue = []) {action : String}
    (hpc : s.waitFors w = .recv action ∨ s.waitFors w = .wait action)
    (hd : (env.decodeRequest action payload).isOk = true) :
    WaitInv env w { s with
      read := .recv
      requests := s.requests.modify (.waitFor w) fun c => c.send (messageId, payload) }
      (log ++ [.pushed w messageId]) := by
  have hqueued : ∀ {pushed}, Queued env action (s.requests.chans (.waitFor w)).queue pushed →
      Queued env action ((s.requests.chans (.waitFor w)).send (messageId, payload)).queue
        (pushed ++ [messageId]) := by
    intro pushed h
    have hp := h.pushed_eq
    rw [hq] at hp
    subst hp
    refine ⟨by simp [Chan.send, hq], by simp [Chan.send, hq], fun item hi => ?_⟩
    simp only [Chan.send, hq, List.nil_append, List.mem_singleton] at hi
    exact hi ▸ hd
  unfold WaitInv at hI ⊢
  rw [pushedTo_append, repliesOf_append, pushedTo_pushed, repliesOf_pushed, List.append_nil,
    Registry.modify_chans, if_pos rfl, if_pos rfl]
  rcases hpc with hpc | hpc
  · simp only [hpc, WaitStage] at hI ⊢
    exact ⟨hI.1, hqueued hI.2⟩
  · simp only [hpc, WaitStage] at hI ⊢
    exact ⟨hI.1, hqueued hI.2.1, fun _ => rfl⟩

theorem WaitInv.notes (hI : WaitInv env w s log) {notes : List WaitNote}
    (hp : pushedTo w notes = []) (hr : repliesOf w notes = []) :
    WaitInv env w s (log ++ notes) := by
  unfold WaitInv at hI ⊢
  rwa [pushedTo_append, repliesOf_append, hp, hr, List.append_nil, List.append_nil]

theorem WaitInv.readPoll_step (hI : WaitInv env w s log) {p : Poll}
    (hP : TakesOne env w s (.poll .read p)) (hs : readPoll env cfg s p = some s') :
    WaitInv env w s' (log ++ s.waitNotes (.poll .read p)) := by
  by_cases hread : ∃ v messageId payload, s.read = .pushRequest (.waitFor v) messageId payload
  · obtain ⟨v, messageId, payload, hread⟩ := hread
    unfold readPoll at hs
    rw [hread] at hs
    cases p <;> cases hs
    simp only [State.waitNotes, hread]
    rcases eq_or_ne v w with rfl | hne
    · obtain ⟨hq, action, hpc, hd⟩ := hP.push rfl messageId payload hread
      exact hI.push hq hpc hd
    · have hch : ChanId.waitFor v ≠ .waitFor w := by simpa using hne
      refine (hI.waits ?_).notes (by simp [hne]) rfl
      exact .modify (f := fun c => c.send (messageId, payload)) hch rfl rfl
  · have hn : s.waitNotes (.poll .read p : Act E) = [] := by
      cases p <;> simp only [State.waitNotes]
      split
      · next h => exact absurd ⟨_, _, _, h⟩ hread
      · rfl
    rw [hn, List.append_nil]
    have hf := readPoll_frame env cfg hs
    rcases hf.requests with hreq | ⟨ch, messageId, payload, hr, h⟩
    · exact hI.waits (.of_eq hf.waitFors hreq)
    · have hne : ch ≠ .waitFor w := fun he => hread ⟨w, messageId, payload, he ▸ hr⟩
      subst h
      exact hI.waits (.modify (f := fun c => c.send (messageId, payload)) hne rfl rfl)

/-- `wait_for` moves to `pc`, with its channel as `c`. -/
theorem WaitInv.move {c : Chan (String × Value)} {pc : WaitForPc E}
    (hc : s'.requests.chans (.waitFor w) = c) (hpc : s'.waitFors w = pc)
    (h : WaitStage env c (pushedTo w log) (repliesOf w log) pc) : WaitInv env w s' log := by
  unfold WaitInv
  rwa [hc, hpc]

omit [ProtocolError E] in
theorem setWaitFor_self (s : State E R) (w : ℕ) (pc : WaitForPc E) :
    (s.setWaitFor w pc).waitFors w = pc := by
  simp [State.setWaitFor]

theorem Queued.drained {action : String} {pushed : List String} (h : Queued env action [] pushed)
    {replies : List String} (hr : replies = []) :
    List.Forall₂ (RepliesTo E env) pushed replies := by
  rw [h.pushed_eq, hr]
  exact .nil

theorem WaitInv.recv_step (hI : WaitInv env w s log) {action : String}
    (hpc : s.waitFors w = .recv action) : WaitInv env w (waitForRecv env s w action) log := by
  unfold WaitInv at hI
  simp only [hpc, WaitStage] at hI
  obtain ⟨hrep, hq⟩ := hI
  unfold waitForRecv
  split
  · next messageId payload rest hr =>
    -- the one CALL in the channel
    obtain ⟨tail, hqueue⟩ : ∃ tail, (s.requests.chans (.waitFor w)).queue
        = (messageId, payload) :: tail := by
      unfold Chan.recv at hr
      split at hr
      · next hqueue =>
        cases hr
        exact ⟨_, hqueue⟩
      · split_ifs at hr
    rw [hqueue] at hq
    have htail : tail = [] := List.length_eq_zero_iff.1 (by simpa using hq.length_le)
    have hd := hq.decodes _ (List.mem_cons_self ..)
    cases hdec : env.decodeRequest action payload with
    | error e =>
      rw [hdec] at hd
      cases hd
    | ok x =>
      refine .move rfl (setWaitFor_self _ w _) ⟨?_, hrep⟩
      rw [hq.pushed_eq, htail]
      rfl
  · next hr =>
    rw [(Chan.recv_none hr).2] at hq
    exact .move rfl (setWaitFor_self _ w _) (hq.drained hrep)
  · next hr =>
    refine .move rfl (setWaitFor_self _ w _) ⟨hrep, hq, fun hne => ?_⟩
    exact absurd (Chan.recv_wait hr).2 hne

theorem WaitInv.waitForPoll_step (hI : WaitInv env w s log) {p : Poll}
    (h : waitForPoll env s w p = some s') :
    WaitInv env w s' (log ++ s.waitNotes (.poll (.waitFor w) p : Act E)) := by
  have hI₀ := hI
  unfold WaitInv at hI
  unfold waitForPoll at h
  split at h
  case h_1 action hpc =>
    cases h
    simp only [hpc, WaitStage, State.waitNotes, List.append_nil] at hI ⊢
    obtain ⟨hq, hp, hr⟩ := hI
    refine .move rfl (setWaitFor_self _ w _) ⟨hr, ?_⟩
    rw [hp]
    refine ⟨?_, ?_, ?_⟩ <;> simp [State.setWaitFor, Registry.insert_queue, hq]
  case h_2 action hpc =>
    cases h
    simp only [hpc, State.waitNotes, List.append_nil]
    exact hI₀.recv_step hpc
  case h_3 action hpc =>
    split_ifs at h
    cases h
    simp only [hpc, WaitStage, State.waitNotes, List.append_nil] at hI ⊢
    refine .move rfl (setWaitFor_self _ w _) ⟨hI.1, ?_⟩
    simpa [State.setWaitFor, Registry.modify_chans, Chan.take] using hI.2.1
  case h_4 action hpc =>
    split_ifs at h with hsig
    cases h
    simp only [hpc, WaitStage, State.waitNotes, List.append_nil] at hI ⊢
    have hq : (s.requests.chans (.waitFor w)).queue = [] := by
      by_contra hne
      exact hsig (hI.2.2 hne)
    rw [hq] at hI
    exact .move rfl (setWaitFor_self _ w _) (hI.2.1.drained hI.1)
  case h_5 action outcome frame hpc =>
    obtain ⟨-, rfl⟩ := issue_map h
    simp only [hpc, WaitStage, State.waitNotes] at hI ⊢
    obtain ⟨⟨messageId, hp, hf⟩, hr⟩ := hI
    refine .move rfl (setWaitFor_self _ w _) ?_
    simp only [WaitStage, pushedTo_append, repliesOf_append, hp, hr, pushedTo_replied,
      repliesOf_replied, if_true, List.append_nil, List.nil_append]
    exact .cons hf .nil
  case h_6 hpc =>
    obtain ⟨-, rfl⟩ := pend_eq h
    simp only [State.waitNotes, List.append_nil]
    exact hI₀.waits (.of_eq rfl rfl)
  case h_7 hpc =>
    cases h
    simp only [hpc, WaitStage, State.waitNotes, List.append_nil] at hI ⊢
    exact .move rfl (setWaitFor_self _ w _) hI
  case h_8 hpc =>
    cases h
    simp only [hpc, WaitStage, State.waitNotes, List.append_nil] at hI ⊢
    exact .move rfl (setWaitFor_self _ w _) hI
  case h_9 => cases h

theorem WaitInv.respond_step (hI : WaitInv env w s log) {r : Except E (Except JsonError Value)}
    (hP : TakesOne env w s (.waitForRespond w r)) (h : waitForRespond env s w r = some s') :
    WaitInv env w s' log := by
  unfold waitForRespond at h
  split at h
  · next action messageId payload hpc =>
    have hsome := hP.answer r rfl action messageId payload hpc
    unfold WaitInv at hI
    simp only [hpc, WaitStage] at hI
    split at h
    · next frame hf =>
      cases h
      exact .move rfl (setWaitFor_self _ w _) ⟨⟨messageId, hI.1, r, hf⟩, hI.2⟩
    · next hf =>
      rw [hf] at hsome
      cases hsome
  · cases h

theorem WaitInv.begin_step (hI : WaitInv env w s log) {action : String}
    (h : waitFor s w action = some s') : WaitInv env w s' log := by
  unfold waitFor at h
  split at h <;> cases h
  next hpc =>
  unfold WaitInv at hI
  simp only [hpc, WaitStage] at hI
  exact .move rfl (setWaitFor_self _ w _) hI

theorem WaitInv.step (hI : WaitInv env w s log) (hP : TakesOne env w s a)
    (hs : step env cfg s a = some s') : WaitInv env w s' (log ++ s.waitNotes a) := by
  by_cases ha : a.Attends
  · unfold Act.Attends at ha
    split at ha
    · exact hI.readPoll_step cfg hP hs
    · next v p =>
      rcases eq_or_ne v w with rfl | hne
      · exact hI.waitForPoll_step hs
      · refine (hI.waits (waitForPoll_waits env hne hs)).notes ?_ ?_
        · cases p <;> simp only [State.waitNotes, pushedTo_nil]
          split <;> simp
        · cases p <;> simp only [State.waitNotes, repliesOf_nil]
          split <;> simp [hne]
    · next v action =>
      simp only [State.waitNotes, List.append_nil]
      rcases eq_or_ne v w with rfl | hne
      · exact hI.begin_step hs
      · obtain ⟨pc, rfl⟩ : ∃ pc, s' = s.setWaitFor v pc := by
          replace hs : waitFor s v action = some s' := hs
          unfold waitFor at hs
          split at hs <;> cases hs
          exact ⟨_, rfl⟩
        exact hI.waits ⟨setWaitFor_other hne _, rfl, id⟩
    · next v r =>
      simp only [State.waitNotes, List.append_nil]
      rcases eq_or_ne v w with rfl | hne
      · exact hI.respond_step hP hs
      · obtain ⟨pc, rfl⟩ : ∃ pc, s' = s.setWaitFor v pc := by
          replace hs : waitForRespond env s v r = some s' := hs
          unfold waitForRespond at hs
          split at hs
          · split at hs <;> cases hs <;> exact ⟨_, rfl⟩
          · cases hs
        exact hI.waits ⟨setWaitFor_other hne _, rfl, id⟩
    · exact ha.elim
  · rw [waitNotes_of_not_attends ha, List.append_nil]
    exact hI.waits (waits_of_not_attends env cfg ha hs)

/-! ## It comes to its answer -/

/-- Polls of the `wait_for`, the return of its callback with `r`, and operations of the transport
that end well. -/
def Act.ServesWait (w : ℕ) (r : Except E (Except JsonError Value)) (a : Act E) : Prop :=
  a = .poll (.waitFor w) .ready ∨ a = .waitForRespond w r ∨ ∃ t, a = .poll t (.done (.ok ()))

variable (env)

/-- With nothing else happening, the CALLs in the channel come to be answered. -/
def ComesToAnswer (w : ℕ) (r : Except E (Except JsonError Value))
    (s : State E R × List WaitNote) : Prop :=
  ∃ acts s', (∀ a ∈ acts, Act.ServesWait w r a)
    ∧ ((client env cfg).observed State.waitNotes).run s acts = some s' ∧ Answered E env w s'.2

variable {env cfg} {r : Except E (Except JsonError Value)}

theorem ComesToAnswer.of_answered {s : State E R × List WaitNote} (h : Answered E env w s.2) :
    ComesToAnswer env cfg w r s :=
  ⟨[], s, nofun, rfl, h⟩

theorem ComesToAnswer.of_step (ha : Act.ServesWait w r a) (hs : step env cfg s a = some s')
    (h : ComesToAnswer env cfg w r (s', log ++ s.waitNotes a)) :
    ComesToAnswer env cfg w r (s, log) := by
  obtain ⟨acts, t, hacts, hrun, ht⟩ := h
  refine ⟨a :: acts, t, ?_, ?_, ht⟩
  · rintro b (_ | ⟨_, hb⟩)
    · exact ha
    · exact hacts b hb
  · have hobs : ((client env cfg).observed State.waitNotes).step (s, log) a
        = some (s', log ++ s.waitNotes a) := by
      simp only [Machine.observed, client, hs, Option.map_some]
    rw [Machine.run_cons hobs, hrun]

theorem reach_next (h : Machine.Reach (client env cfg) Machine.Any s)
    (hs : step env cfg s a = some s') : Machine.Reach (client env cfg) Machine.Any s' :=
  Machine.Reach.step (a := a) h trivial hs

/-- At the lock of the sink, whoever has it. -/
theorem comesToAnswer_of_lockSink (h : Machine.Reach (client env cfg) Machine.Any s)
    {action frame messageId : String} {outcome : Except (ClientError E) Value}
    (hpc : s.waitFors w = .lockSink action outcome frame) (hp : pushedTo w log = [messageId])
    (hr : repliesOf w log = []) (hf : RepliesTo E env messageId frame) :
    ComesToAnswer env cfg w r (s, log) := by
  have free : ∀ {s : State E R}, s.waitFors w = .lockSink action outcome frame →
      s.holder = none → ComesToAnswer env cfg w r (s, log) := by
    intro s hpc hh
    have hs : step env cfg s (.poll (.waitFor w) .ready)
        = some ({ s with
          holder := some (.waitFor w), pended := false
          hist := s.hist ++ [Event.issued (.waitFor w) s.sink (.send frame)] }.setWaitFor w
            (.sending action outcome)) := by
      change waitForPoll env s w .ready = _
      simp only [waitForPoll, hpc, State.issue, hh, if_true, Option.map_some]
    refine .of_step (.inl rfl) hs (.of_answered ?_)
    simp only [State.waitNotes, hpc, Answered, pushedTo_append, repliesOf_append, hp, hr,
      pushedTo_replied, repliesOf_replied, if_true, List.append_nil, List.nil_append]
    exact .cons hf .nil
  cases hh : s.holder with
  | none => exact free hpc hh
  | some t =>
    obtain ⟨s₁, hs, hfree⟩ := freed_of_holder env cfg h hh (.ok ())
    have hlock := reach_sinkLock env cfg (Q := Machine.Any) (fun _ _ _ _ _ _ _ _ => trivial) h
    have ht : t ≠ .waitFor w := by
      rintro rfl
      have hop := (Mutex.holder_iff hlock (.waitFor w)).1 hh
      simp [sinkLock, sinkPc, hpc, WaitForPc.sink, Mutex.Pc.isOp] at hop
    have hn : s.waitNotes (.poll t (.done (.ok ())) : Act E) = [] := by
      cases t <;> rfl
    refine .of_step (.inr (.inr ⟨t, rfl⟩)) hs ?_
    rw [hn, List.append_nil]
    exact free ((hfree.waitFors w ht).trans hpc) hfree.holder

theorem comesToAnswer_of_callback (h : Machine.Reach (client env cfg) Machine.Any s)
    {action messageId frame : String} {payload : Value}
    (hpc : s.waitFors w = .callback action messageId payload) (hp : pushedTo w log = [messageId])
    (hr : repliesOf w log = []) (hf : responseFrame env messageId r = some frame) :
    ComesToAnswer env cfg w r (s, log) := by
  have hs : step env cfg s (.waitForRespond w r)
      = some (s.setWaitFor w (.lockSink action (.ok payload) frame)) := by
    change waitForRespond env s w r = _
    simp only [waitForRespond, hpc, hf]
  refine .of_step (.inr (.inl rfl)) hs ?_
  have hn : s.waitNotes (.waitForRespond w r) = [] := rfl
  rw [hn, List.append_nil]
  exact comesToAnswer_of_lockSink (reach_next h hs) (setWaitFor_self _ w _) hp hr ⟨r, hf⟩

theorem comesToAnswer_of_recv (h : Machine.Reach (client env cfg) Machine.Any s)
    {action : String} (hpc : s.waitFors w = .recv action)
    (hq : Queued env action (s.requests.chans (.waitFor w)).queue (pushedTo w log))
    (hr : repliesOf w log = []) (hf : ∀ m ∈ pushedTo w log, ∃ f, responseFrame env m r = some f) :
    ComesToAnswer env cfg w r (s, log) := by
  rcases hqueue : (s.requests.chans (.waitFor w)).queue with _ | ⟨⟨messageId, payload⟩, tail⟩
  · rw [hqueue] at hq
    exact .of_answered (hq.drained hr)
  · rw [hqueue] at hq
    have htail : tail = [] := List.length_eq_zero_iff.1 (by simpa using hq.length_le)
    have hp : pushedTo w log = [messageId] := by simp [hq.pushed_eq, htail]
    obtain ⟨f, hf⟩ := hf messageId (by simp [hp])
    have hd := hq.decodes _ (List.mem_cons_self ..)
    cases hdec : env.decodeRequest action payload with
    | error e =>
      rw [hdec] at hd
      cases hd
    | ok x =>
      have hs : step env cfg s (.poll (.waitFor w) .ready) = some (waitForRecv env s w action) := by
        change waitForPoll env s w .ready = _
        simp only [waitForPoll, hpc]
      refine .of_step (.inl rfl) hs ?_
      simp only [State.waitNotes, hpc, List.append_nil]
      have hcallback : (waitForRecv env s w action).waitFors w
          = .callback action messageId payload := by
        simp only [waitForRecv, Chan.recv, hqueue, hdec, setWaitFor_self]
      exact comesToAnswer_of_callback (reach_next h hs) hcallback hp hr hf

theorem comesToAnswer_of_stage (h : Machine.Reach (client env cfg) Machine.Any s)
    (hI : WaitInv env w s log) (hf : ∀ m ∈ pushedTo w log, ∃ f, responseFrame env m r = some f) :
    ComesToAnswer env cfg w r (s, log) := by
  unfold WaitInv at hI
  cases hpc : s.waitFors w with
  | idle | lock =>
    simp only [hpc, WaitStage] at hI
    refine .of_answered ?_
    rw [Answered, hI.2.1, hI.2.2]
    exact .nil
  | recv action =>
    simp only [hpc, WaitStage] at hI
    exact comesToAnswer_of_recv h hpc hI.2 hI.1 hf
  | wait action =>
    simp only [hpc, WaitStage] at hI
    by_cases hq : (s.requests.chans (.waitFor w)).queue = []
    · rw [hq] at hI
      exact .of_answered (hI.2.1.drained hI.1)
    · have hs : step env cfg s (.poll (.waitFor w) .ready) = some ({ s with
          requests := s.requests.modify (.waitFor w) .take }.setWaitFor w (.recv action)) := by
        change waitForPoll env s w .ready = _
        simp only [waitForPoll, hpc, hI.2.2 hq, if_true]
      refine .of_step (.inl rfl) hs ?_
      simp only [State.waitNotes, hpc, List.append_nil]
      refine comesToAnswer_of_recv (reach_next h hs) (setWaitFor_self _ w _) ?_ hI.1 hf
      simpa [State.setWaitFor, Registry.modify_chans, Chan.take] using hI.2.1
  | callback action messageId payload =>
    simp only [hpc, WaitStage] at hI
    obtain ⟨f, hf⟩ := hf messageId (by simp [hI.1])
    exact comesToAnswer_of_callback h hpc hI.1 hI.2 hf
  | lockSink action outcome frame =>
    simp only [hpc, WaitStage] at hI
    obtain ⟨⟨messageId, hp, hrep⟩, hr⟩ := hI
    exact comesToAnswer_of_lockSink h hpc hp hr hrep
  | sending | unregister | returned =>
    simp only [hpc, WaitStage] at hI
    exact .of_answered hI

/-! ## Every run -/

variable (env cfg)

/-- What a `wait_for` owes the CALLs pushed to its channel: never more than one reply each, in
order; one each when it returns; and until then it is on its way there, whatever its callback
responds that can be serialised. -/
structure AnswersAll (w : ℕ) (s : State E R × List WaitNote) : Prop where
  once : ∃ answered, answered <+: pushedTo w s.2
    ∧ List.Forall₂ (RepliesTo E env) answered (repliesOf w s.2)
  returned : ∀ outcome, s.1.waitFors w = .returned outcome → Answered E env w s.2
  comes : ∀ r, (∀ m ∈ pushedTo w s.2, ∃ f, responseFrame env m r = some f) →
    ComesToAnswer env cfg w r s

variable {env cfg}

theorem WaitInv.once (hI : WaitInv env w s log) : ∃ answered, answered <+: pushedTo w log
    ∧ List.Forall₂ (RepliesTo E env) answered (repliesOf w log) := by
  have none : repliesOf w log = [] → ∃ answered, answered <+: pushedTo w log
      ∧ List.Forall₂ (RepliesTo E env) answered (repliesOf w log) :=
    fun h => ⟨[], List.nil_prefix, by rw [h]; exact .nil⟩
  unfold WaitInv at hI
  cases hpc : s.waitFors w <;> simp only [hpc, WaitStage] at hI
  case idle | lock => exact none hI.2.2
  case recv | wait => exact none hI.1
  case callback | lockSink => exact none hI.2
  all_goals exact ⟨_, List.prefix_rfl, hI⟩

variable (env cfg)

/-- In every run in which the channel of `wait_for` gets one CALL at most, before anything has been
taken from it, with a payload and a response that serde takes. -/
theorem answersAll_of_takesOne {s : State E R × List WaitNote}
    (h : Machine.Reach ((client env cfg).observed State.waitNotes)
      (fun s a => TakesOne env w s.1 a) s) : AnswersAll env cfg w s := by
  have hI : WaitInv env w s.1 s.2 := by
    refine h.invariant (I := fun s => WaitInv env w s.1 s.2) ?_ fun s a s' _ hP hs hI => ?_
    · exact ⟨rfl, rfl, rfl⟩
    · obtain ⟨hs, hl⟩ := Machine.observed_step hs
      rw [hl]
      exact hI.step cfg hP hs
  have hreach : Machine.Reach (client env cfg) Machine.Any s.1 :=
    h.unobserved fun _ _ _ => trivial
  refine ⟨hI.once, fun outcome hpc => ?_, fun r hr => comesToAnswer_of_stage hreach hI hr⟩
  unfold WaitInv at hI
  simp only [hpc, WaitStage] at hI
  exact hI

/-- `wait_for` gets one CALL, answers it and returns. -/
def waitedForOne : List (Act WireError) :=
  [.waitFor 0 "A", .poll (.waitFor 0) .ready, .recv (some (.frame callFrame)), .poll .read .ready,
    .poll .read .ready, .poll (.waitFor 0) .ready, .waitForRespond 0 (.ok (.ok .null)),
    .poll (.waitFor 0) .ready, .poll (.waitFor 0) (.done (.ok ())), .poll (.waitFor 0) .ready]

theorem answersAll_of_waitedForOne :
    ∃ s, ((client scenarioEnv scenarioConfig).observed State.waitNotes).run
        ((client scenarioEnv scenarioConfig).observed State.waitNotes).init waitedForOne = some s
      ∧ s.1.waitFors 0 = .returned (.ok .null)
      ∧ s.2 = [.pushed 0 "m", .replied 0 "[3,\"m\",null]"]
      ∧ AnswersAll scenarioEnv scenarioConfig 0 s := by
  refine ⟨_, rfl, rfl, by decide +kernel, answersAll_of_takesOne scenarioEnv scenarioConfig
    (Machine.reach_of_run waitedForOne .init ?_ rfl)⟩
  refine ⟨⟨nofun, nofun⟩, ⟨nofun, nofun⟩, ⟨nofun, nofun⟩, ⟨nofun, nofun⟩, ⟨?_, nofun⟩,
    ⟨nofun, nofun⟩, ⟨nofun, ?_⟩, ⟨nofun, nofun⟩, ⟨nofun, nofun⟩, ⟨nofun, nofun⟩, trivial⟩
  · intro _ messageId payload hread
    cases hread
    exact ⟨rfl, "A", .inl rfl, rfl⟩
  · intro r hr action messageId payload hpc
    cases hr
    cases hpc
    rfl

/-- A second CALL comes while the callback for the first one runs. -/
def waitedForTwo : List (Act WireError) :=
  [.waitFor 0 "A", .poll (.waitFor 0) .ready, .recv (some (.frame callFrame)), .poll .read .ready,
    .poll .read .ready, .poll (.waitFor 0) .ready, .recv (some (.frame "[2,\"n\",\"A\",null]")),
    .poll .read .ready, .poll .read .ready, .waitForRespond 0 (.ok (.ok .null)),
    .poll (.waitFor 0) .ready, .poll (.waitFor 0) (.done (.ok ())), .poll (.waitFor 0) .ready]

theorem secondCall_unanswered :
    ∃ s : State WireError Unit × List WaitNote,
      Machine.Reach ((client scenarioEnv scenarioConfig).observed State.waitNotes) Machine.Any s
      ∧ s.1.waitFors 0 = .returned (.ok .null) ∧ pushedTo 0 s.2 = ["m", "n"]
      ∧ repliesOf 0 s.2 = ["[3,\"m\",null]"] ∧ ¬ AnswersAll scenarioEnv scenarioConfig 0 s := by
  refine ⟨_, Machine.reach_any_of_run waitedForTwo rfl, rfl, by decide +kernel, by decide +kernel,
    fun h => ?_⟩
  have hlen := (h.returned (.ok .null) rfl).length_eq
  revert hlen
  decide +kernel

end OcppClient
