import OcppClient.Proofs.Dispatching

/-!
# Answers go out in order

A handler has one CALL in hand at a time: it decodes it, runs its callback and writes the answer
before it takes the next from its channel. So the frames it writes answer the CALLs it was sent in
the order in which they came, whatever the other tasks do in between, and it writes no others.
-/

namespace OcppClient

open Transition

variable {E R : Type}

/-! ## The frames of a task -/

def Event.sentBy (t : Task) : Event E → Option String
  | .issued u _ (.send frame) => if u = t then some frame else none
  | _ => none

/-- The frames a task has handed to a sink. -/
def writtenBy (t : Task) (h : List (Event E)) : List String := h.filterMap (Event.sentBy t)

theorem writtenBy_issued {t u : Task} {h : List (Event E)} {k : ℕ} {op : SinkOp} (hne : u ≠ t) :
    writtenBy t (h ++ [.issued u k op]) = writtenBy t h := by
  cases op <;> simp [writtenBy, Event.sentBy, hne]

theorem writtenBy_send {t : Task} {h : List (Event E)} {k : ℕ} {frame : String} :
    writtenBy t (h ++ [.issued t k (.send frame)]) = writtenBy t h ++ [frame] := by
  simp [writtenBy, Event.sentBy]

variable [ProtocolError E] (env : Env R) (cfg : ClientConfig) {s s' : State E R} {a : Act E}

/-- A task writes at its own polls only. -/
theorem writtenBy_of_step {t : Task} (hs : step env cfg s a = some s') (ha : a ≠ .poll t .ready) :
    writtenBy t s'.hist = writtenBy t s.hist := by
  cases write_cases env cfg hs with
  | none hg => exact hg.filterMap fun e he => by cases e <;> simp_all [unissued, Event.sentBy]
  | issue hu _ _ h =>
    subst hu
    rw [h]
    exact writtenBy_issued fun hut => ha (by rw [hut])

/-! ## The log -/

inductive ServeNote (E : Type)
  | call (n : CallNote)
  | answered (o : ℕ) (r : Except E (Except JsonError Value))

def ServeNote.callNote : ServeNote E → Option CallNote
  | .call n => some n
  | .answered _ _ => none

def ServeNote.answerOf (o : ℕ) : ServeNote E → Option (Except E (Except JsonError Value))
  | .answered n r => if n = o then some r else none
  | .call _ => none

/-- What became of the CALLs received. -/
def calls (log : List (ServeNote E)) : List CallNote := log.filterMap ServeNote.callNote

/-- What a handler settled on for the CALLs it took. -/
def answersOf (o : ℕ) (log : List (ServeNote E)) : List (Except E (Except JsonError Value)) :=
  log.filterMap (ServeNote.answerOf o)

/-- The callback of a handler answers, or the handler itself does for a payload it cannot decode. -/
def State.answers (s : State E R) : Act E → List (ServeNote E)
  | .respond o r => [.answered o r]
  | .poll (.handler o) .ready =>
    match s.handlers o, s.ons o, (s.requests.chans (.on o)).queue with
    | .recv, .registered action, (_, payload) :: _ =>
      match env.decodeRequest action payload with
      | .ok _ => []
      | .error _ => [.answered o (misread action)]
    | _, _, _ => []
  | _ => []

def State.serveNotes (s : State E R) (a : Act E) : List (ServeNote E) :=
  (s.callNotes a).map .call ++ s.answers env a

omit [ProtocolError E] in
theorem calls_append (log log' : List (ServeNote E)) :
    calls (log ++ log') = calls log ++ calls log' :=
  List.filterMap_append ..

omit [ProtocolError E] in
theorem answersOf_append (o : ℕ) (log log' : List (ServeNote E)) :
    answersOf o (log ++ log') = answersOf o log ++ answersOf o log' :=
  List.filterMap_append ..

theorem calls_serveNotes (s : State E R) (a : Act E) :
    calls (s.serveNotes env a) = s.callNotes a := by
  have h₁ : ∀ l : List CallNote, calls (l.map .call : List (ServeNote E)) = l := fun l => by
    induction l with
    | nil => rfl
    | cons n l ih => simpa [calls, ServeNote.callNote] using ih
  have h₂ : calls (s.answers env a) = [] := by
    unfold State.answers
    split
    · rfl
    · split
      · split <;> rfl
      · rfl
    · rfl
  rw [State.serveNotes, calls_append, h₁, h₂, List.append_nil]

theorem answersOf_serveNotes (s : State E R) (a : Act E) (o : ℕ) :
    answersOf o (s.serveNotes env a) = answersOf o (s.answers env a) := by
  have h : ∀ l : List CallNote, answersOf o (l.map .call : List (ServeNote E)) = [] := fun l => by
    induction l with
    | nil => rfl
    | cons n l ih => simp [answersOf, ServeNote.answerOf]
  rw [State.serveNotes, answersOf_append, h, List.nil_append]

/-! ## One handler -/

/-- The CALL whose callback runs. -/
def HandlerPc.inHand : HandlerPc → List String
  | .callback messageId => [messageId]
  | _ => []

/-- The frame that waits for the sink. -/
def HandlerPc.unwritten : HandlerPc → List String
  | .lockSink frame => [frame]
  | _ => []

/-- A payload that the handler cannot decode gets the answer for it. -/
def AnswersFor (s : State E R) (o : ℕ) (n : String × Value)
    (r : Except E (Except JsonError Value)) : Prop :=
  ∀ action e, s.ons o = .registered action → env.decodeRequest action n.2 = .error e →
    r = misread action

def AnswersInOrder (s : State E R) (o : ℕ) (taken : List (String × Value))
    (answers : List (Except E (Except JsonError Value))) : Prop :=
  ∃ running, running.map Prod.fst = (s.handlers o).inHand
    ∧ (∀ n ∈ running, ∀ r, AnswersFor env s o n r)
    ∧ Switchboard.Work (fun n r => responseFrame env n.1 r) (AnswersFor env s o) running
      (s.handlers o).unwritten taken answers (writtenBy (.handler o) s.hist)

variable {o : ℕ} {taken : List (String × Value)}
  {answers : List (Except E (Except JsonError Value))}

/-- Between two CALLs. -/
theorem AnswersInOrder.idle {s : State E R} (hp : (s.handlers o).inHand = [])
    (hw : Switchboard.Work (fun n r => responseFrame env n.1 r) (AnswersFor env s o) []
      (s.handlers o).unwritten taken answers (writtenBy (.handler o) s.hist)) :
    AnswersInOrder env s o taken answers :=
  ⟨[], hp.symm, by simp, hw⟩

variable {env}

theorem AnswersInOrder.work (h : AnswersInOrder env s o taken answers)
    (hp : (s.handlers o).inHand = []) :
    Switchboard.Work (fun n r => responseFrame env n.1 r) (AnswersFor env s o) []
      (s.handlers o).unwritten taken answers (writtenBy (.handler o) s.hist) := by
  obtain ⟨running, hr, -, hw⟩ := h
  rw [hp] at hr
  exact (List.map_eq_nil_iff.1 hr) ▸ hw

theorem AnswersInOrder.keep (h : AnswersInOrder env s o taken answers)
    (hp : s'.handlers o = s.handlers o) (hon : s'.ons o = s.ons o)
    (hw : writtenBy (.handler o) s'.hist = writtenBy (.handler o) s.hist) :
    AnswersInOrder env s' o taken answers := by
  unfold AnswersInOrder AnswersFor at h ⊢
  rwa [hp, hon, hw]

omit [ProtocolError E] in
theorem unwritten_respondPc (frame : Option String) :
    (respondPc frame).unwritten = frame.toList ∧ (respondPc frame).inHand = [] := by
  cases frame <;> exact ⟨rfl, rfl⟩

theorem handlerRespond_answers {r : Except E (Except JsonError Value)}
    (hI : AnswersInOrder env s o taken answers) (hs : handlerRespond env s o r = some s') :
    AnswersInOrder env s' o taken (answers ++ [r]) := by
  unfold handlerRespond at hs
  split at hs <;> cases hs
  next m hp =>
  obtain ⟨running, hr, hd, hw⟩ := hI
  simp only [hp, HandlerPc.inHand, HandlerPc.unwritten] at hr hw
  obtain ⟨n, rfl, rfl⟩ := List.map_eq_singleton_iff.1 hr
  have hu := unwritten_respondPc (responseFrame env n.1 r)
  refine .idle env (by simp [hu]) ?_
  simp only [Function.update_self, hu]
  exact hw.answer (hd n (List.mem_singleton_self n) r)

theorem handlerRecv_answers {action : String} (hI : AnswersInOrder env s o taken answers)
    (hp : s.handlers o = .recv) (hon : s.ons o = .registered action) :
    AnswersInOrder env (handlerRecv env s o action) o
      (taken ++ Switchboard.takenFrom (.on o) (s.takes (.on o)))
      (answers ++ answersOf o (s.answers env (.poll (.handler o) .ready))) := by
  have hw := hI.work (by rw [hp]; rfl)
  rw [hp] at hw
  unfold handlerRecv
  split
  case h_1 m pl rest hv =>
    have hq := queue_of_recv hv
    simp only [State.takes, State.answers, hp, hon, hq]
    have ht : Switchboard.takenFrom (.on o) [(.taken (.on o) (m, pl) : CallNote)] = [(m, pl)] := by
      simp [Switchboard.takenFrom, Switchboard.Note.takenFrom]
    simp only [List.head?_cons, Option.toList_some, List.map_singleton, ht]
    cases hd : env.decodeRequest action pl with
    | ok u =>
      refine ⟨[(m, pl)], by simp [handleCall, hd, HandlerPc.inHand], ?_, ?_⟩
      · intro n hn r act e hact he
        rw [List.mem_singleton.1 hn] at he
        cases hon.symm.trans hact
        rw [hd] at he
        cases he
      · simp only [handleCall, hd, Function.update_self, HandlerPc.unwritten, answersOf,
          List.filterMap_nil, List.append_nil]
        exact hw.take
    | error e =>
      have hu := unwritten_respondPc (responseFrame env m (misread action : Except E _))
      have hc : handleCall (E := E) env action m pl
          = respondPc (responseFrame env m (misread action : Except E _)) := by
        simp only [handleCall, hd, misread]
      refine .idle env (by simp [hc, hu]) ?_
      simp only [hc, Function.update_self, hu]
      have ha : answersOf o [(.answered o (misread action) : ServeNote E)] = [misread action] := by
        simp [answersOf, ServeNote.answerOf]
      rw [ha]
      refine hw.take.answer fun act e' hact _ => ?_
      cases hon.symm.trans hact
      rfl
  case h_2 hv | h_3 hv =>
    have hq := queue_eq_nil (c := s.requests.chans (.on o)) (by simp [hv])
    rw [takes_eq_nil (by simp [hv])]
    simp only [State.answers, hp, hon, hq, answersOf, List.filterMap_nil, List.append_nil]
    refine .idle env (by simp [HandlerPc.inHand]) ?_
    simp only [Function.update_self, Switchboard.takenFrom, List.filterMap_nil, List.append_nil]
    exact hw

theorem handlerPoll_answers {p : Poll} (hI : AnswersInOrder env s o taken answers)
    (hs : handlerPoll env s o p = some s') :
    AnswersInOrder env s' o
      (taken ++ Switchboard.takenFrom (.on o) (s.callNotes (.poll (.handler o) p : Act E)))
      (answers ++ answersOf o (s.answers env (.poll (.handler o) p))) := by
  unfold handlerPoll at hs
  split at hs
  case h_1 action hp hon =>
    cases hs
    simp only [State.callNotes, hp, hon]
    exact handlerRecv_answers hI hp hon
  case h_2 hp =>
    split_ifs at hs
    cases hs
    have hw := hI.work (by rw [hp]; rfl)
    rw [hp] at hw
    simp only [State.callNotes, State.answers, hp, Switchboard.takenFrom, answersOf,
      List.filterMap_nil, List.append_nil]
    refine .idle env (by simp [HandlerPc.inHand]) ?_
    simp only [Function.update_self]
    exact hw
  case h_3 frame hp =>
    obtain ⟨-, rfl⟩ := issue_map hs
    have hw := hI.work (by rw [hp]; rfl)
    rw [hp] at hw
    simp only [State.callNotes, State.answers, hp, Switchboard.takenFrom, answersOf,
      List.filterMap_nil, List.append_nil]
    refine .idle env (by simp [HandlerPc.inHand]) ?_
    simp only [Function.update_self, writtenBy_send]
    exact hw.write
  case h_4 hp =>
    obtain ⟨-, rfl⟩ := pend_eq hs
    simp only [State.callNotes, State.answers, Switchboard.takenFrom, answersOf,
      List.filterMap_nil, List.append_nil]
    exact hI.keep rfl rfl rfl
  case h_5 hp =>
    cases hs
    have hw := hI.work (by rw [hp]; rfl)
    rw [hp] at hw
    simp only [State.callNotes, State.answers, Switchboard.takenFrom, answersOf,
      List.filterMap_nil, List.append_nil]
    refine .idle env (by simp [HandlerPc.inHand]) ?_
    simp only [Function.update_self]
    exact hw
  case h_6 => cases hs

/-! ## Every step -/

/-- The steps of a handler, from its registration on. -/
def Act.Handles (o : ℕ) : Act E → Prop
  | .on n _ | .poll (.on n) _ | .poll (.handler n) _ | .respond n _ => n = o
  | _ => False

theorem handlerPoll_other {n : ℕ} {p : Poll} (hne : n ≠ o) (hs : handlerPoll env s n p = some s') :
    s'.handlers o = s.handlers o ∧ s'.ons o = s.ons o := by
  have hu : ∀ pc, Function.update s.handlers n pc o = s.handlers o :=
    fun pc => Function.update_of_ne hne.symm _ _
  unfold handlerPoll at hs
  split at hs
  case h_1 =>
    cases hs
    unfold handlerRecv
    split <;> exact ⟨hu _, rfl⟩
  case h_2 =>
    split_ifs at hs
    cases hs
    exact ⟨hu _, rfl⟩
  case h_3 =>
    obtain ⟨-, rfl⟩ := issue_map hs
    exact ⟨hu _, rfl⟩
  case h_4 =>
    obtain ⟨-, rfl⟩ := pend_eq hs
    exact ⟨rfl, rfl⟩
  case h_5 =>
    cases hs
    exact ⟨hu _, rfl⟩
  case h_6 => cases hs

/-- The other steps leave it where it is. -/
theorem handler_of_step (cfg : ClientConfig) (ha : ¬ a.Handles o)
    (hs : step env cfg s a = some s') : s'.handlers o = s.handlers o ∧ s'.ons o = s.ons o := by
  by_cases hv : a.Serves
  · unfold Act.Serves at hv
    split at hv
    case h_1 =>
      have hk := readRecv_frame env cfg hs
      exact ⟨by rw [hk.handlers], by rw [hk.ons]⟩
    case h_2 =>
      have hk := readPoll_frame env cfg hs
      exact ⟨by rw [hk.handlers], by rw [hk.ons]⟩
    case h_3 n act =>
      replace hs : on s n act = some s' := hs
      unfold on at hs
      split at hs <;> cases hs
      exact ⟨rfl, Function.update_of_ne (Ne.symm ha) _ _⟩
    case h_4 n p =>
      replace hs : onPoll s n p = some s' := hs
      unfold onPoll at hs
      split at hs <;> cases hs
      exact ⟨Function.update_of_ne (Ne.symm ha) _ _, Function.update_of_ne (Ne.symm ha) _ _⟩
    case h_5 => exact handlerPoll_other ha hs
    case h_6 n r =>
      replace hs : handlerRespond env s n r = some s' := hs
      unfold handlerRespond at hs
      split at hs <;> cases hs
      exact ⟨Function.update_of_ne (Ne.symm ha) _ _, rfl⟩
    case h_7 =>
      obtain ⟨_, rfl⟩ := waitFor_footprint hs
      exact ⟨rfl, rfl⟩
    case h_8 =>
      obtain ⟨_, _, _, _, _, rfl, -⟩ := waitForPoll_footprint env hs
      exact ⟨rfl, rfl⟩
    case h_9 =>
      obtain ⟨_, rfl⟩ := waitForRespond_footprint env hs
      exact ⟨rfl, rfl⟩
    case h_10 => exact hv.elim
  · obtain ⟨hf, -⟩ := queueFrame_of_not_serves env cfg hv hs
    exact ⟨by rw [hf.handlers], by rw [hf.ons]⟩

omit [ProtocolError E] in
theorem takenFrom_takes {ch ch' : ChanId} (hne : ch ≠ ch') :
    Switchboard.takenFrom ch' (s.takes ch) = [] := by
  unfold State.takes
  cases (s.requests.chans ch).queue <;>
    simp [Switchboard.takenFrom, Switchboard.Note.takenFrom, hne]

/-- And are not noted as its own. -/
theorem notes_of_not_handles (ha : ¬ a.Handles o) :
    Switchboard.takenFrom (.on o) (s.callNotes a) = [] ∧ answersOf o (s.answers env a) = [] := by
  constructor
  · unfold State.callNotes
    split
    · split <;> rfl
    · split <;> rfl
    · next n =>
      have hne : ChanId.on n ≠ .on o := fun h => ha (ChanId.on.inj h)
      split
      · exact takenFrom_takes hne
      · rfl
    · split
      · rfl
      · exact takenFrom_takes (by simp)
      · rfl
    · rfl
  · unfold State.answers
    split
    · next n r =>
      have hne : n ≠ o := ha
      simp [answersOf, ServeNote.answerOf, hne]
    · next n =>
      have hne : n ≠ o := ha
      split
      · split
        · rfl
        · simp [answersOf, ServeNote.answerOf, hne]
      · rfl
    · rfl

/-- A registration is the first thing a handler does. -/
theorem onPoll_answers {p : Poll} (hI : AnswersInOrder env s o [] answers)
    (hs : onPoll s o p = some s') : AnswersInOrder env s' o [] answers := by
  unfold onPoll at hs
  split at hs <;> cases hs
  obtain ⟨running, hr, hd, hw⟩ := hI
  obtain ⟨rfl, rfl, hu, hw⟩ := hw.nil
  refine .idle env (by simp [HandlerPc.inHand]) ?_
  simp only [Function.update_self, HandlerPc.unwritten, hw]
  exact .init

theorem on_answers {action : String} (hI : AnswersInOrder env s o taken answers)
    (hs : on s o action = some s') : AnswersInOrder env s' o taken answers := by
  unfold on at hs
  split at hs <;> cases hs
  obtain ⟨running, hr, -, hw⟩ := hI
  have hany : ∀ n r, AnswersFor env
      { s with ons := Function.update s.ons o (.lock action) } o n r := by
    intro n r act e hact
    simp at hact
  exact ⟨running, hr, fun n _ r => hany n r, hw.mono fun n r _ => hany n r⟩

/-! ## Refusals -/

/-- The refusal that waits for the sink. -/
def Hand.unwritten : Hand → List String
  | .refuse frame => [frame]
  | _ => []

variable (E) (env) in
def refusalFrame (call : String × String × Value) : Option String :=
  responseFrame env call.2.1 (refusal ⟨call.2.1, call.1, call.2.2⟩ : Except E _)

/-- The read loop writes the refusals of the CALLs it turned away, in the order in which they
came. -/
def RefusesInOrder (env : Env R) (s : State E R) (log : List CallNote) : Prop :=
  writtenBy .read s.hist ++ s.read.hand.unwritten
    = ((Switchboard.turnedAway log).map (refusalFrame E env)).reduceOption

theorem RefusesInOrder.keep {log notes : List CallNote} (h : RefusesInOrder env s log)
    (hw : writtenBy .read s'.hist = writtenBy .read s.hist)
    (hu : s'.read.hand.unwritten = s.read.hand.unwritten)
    (hn : Switchboard.turnedAway notes = []) : RefusesInOrder env s' (log ++ notes) := by
  unfold RefusesInOrder Switchboard.turnedAway at h ⊢
  rw [hw, hu, h, List.filterMap_append, ← Switchboard.turnedAway, ← Switchboard.turnedAway, hn,
    List.append_nil]

theorem lookupRequest_refuses {log : List CallNote} {m action : String} {pl : Value}
    (h : RefusesInOrder env s log) (hr : s.read = .lockRequestSenders m action pl) :
    RefusesInOrder env (lookupRequest env s m action pl)
      (log ++ [.routed (s.requests.senders action) action (m, pl)]) := by
  cases hs : s.requests.senders action with
  | some ch =>
    refine h.keep rfl ?_ rfl
    simp only [lookupRequest, hs, hr, ReadPc.hand, Hand.unwritten]
  | none =>
    have hu : (lookupRequest env s m action pl).read.hand.unwritten
        = (refusalFrame E env (action, m, pl)).toList := by
      simp only [lookupRequest, hs, refusalFrame, responseFrame, refusal]
      split
      next frame hf => rw [hf]; rfl
      next e hf => rw [hf]; rfl
    unfold RefusesInOrder Switchboard.turnedAway at h ⊢
    rw [hu, List.filterMap_append, List.map_append, List.reduceOption_append, ← h, hr]
    simp only [lookupRequest, ReadPc.hand, Hand.unwritten, List.append_nil]
    cases hf : refusalFrame E env (action, m, pl) <;>
      simp [Switchboard.Note.turnedAway, hf]

theorem readPoll_refuses (cfg : ClientConfig) {log : List CallNote} {p : Poll}
    (h : RefusesInOrder env s log) (hs : readPoll env cfg s p = some s') :
    RefusesInOrder env s' (log ++ s.callNotes (.poll .read p : Act E)) := by
  by_cases hfree : s.read.hand = .free
  · have hn : s.callNotes (.poll .read p : Act E) = [] := callNotes_of_free hfree
    have hu : s'.read.hand.unwritten = s.read.hand.unwritten := by
      rw [readPoll_hand env cfg hs hfree, hfree]
    refine h.keep ?_ hu (by rw [hn]; rfl)
    cases readPoll_write env cfg hs with
    | none hg => exact hg.filterMap fun e he => by cases e <;> simp_all [unissued, Event.sentBy]
    | @issue t op hu ht _ he =>
      cases hu
      rw [he]
      cases op with
      | send frame =>
        simp only [lockOp] at ht
        split at ht <;> cases ht
        next hr =>
        rw [hr] at hfree
        cases hfree
      | ping _ | pong _ | close => simp [writtenBy, Event.sentBy]
  · rcases ReadPc.hand_ne_free hfree with ⟨m, act, pl, hr⟩ | ⟨ch, m, pl, hr⟩ | ⟨frame, hr⟩
    · unfold readPoll at hs
      rw [hr] at hs
      cases p <;> cases hs
      simp only [State.callNotes, hr]
      exact lookupRequest_refuses h hr
    · unfold readPoll at hs
      rw [hr] at hs
      cases p <;> cases hs
      simp only [State.callNotes, hr]
      exact h.keep rfl (by simp only [hr]; rfl) rfl
    · unfold readPoll at hs
      rw [hr] at hs
      cases p with
      | ready =>
        obtain ⟨-, rfl⟩ := issue_map hs
        simp only [State.callNotes, hr, List.append_nil]
        unfold RefusesInOrder at h ⊢
        rw [← h, hr, writtenBy_send]
        simp [ReadPc.hand, Hand.unwritten]
      | pend | done | timer => cases hs

theorem readRecv_refuses (cfg : ClientConfig) {log : List CallNote} {e : Option TransportEvent}
    (h : RefusesInOrder env s log) (hs : readRecv env cfg s e = some s')
    (hw : writtenBy .read s'.hist = writtenBy .read s.hist) :
    RefusesInOrder env s' (log ++ []) := by
  unfold readRecv at hs
  split at hs
  case h_2 => cases hs
  case h_1 hr =>
    refine h.keep hw ?_ rfl
    rw [hr]
    rcases e with _ | (f | pl | pl) <;> cases hs
    · rw [leave_hand]
      rfl
    · simp only [handleEvent, handleFrame]
      cases (dispatch env f : Dispatch E) <;> rfl
    · rfl
    · rfl

omit [ProtocolError E] in
theorem turnedAway_callNotes (ha : a ≠ .poll .read .ready) :
    Switchboard.turnedAway (s.callNotes a) = [] := by
  have ht : ∀ ch, Switchboard.turnedAway (s.takes ch) = [] := fun ch => by
    unfold State.takes
    cases (s.requests.chans ch).queue <;> rfl
  unfold State.callNotes
  split
  · exact absurd rfl ha
  · split <;> rfl
  · split
    · exact ht _
    · rfl
  · split
    · rfl
    · exact ht _
    · rfl
  · rfl

theorem refuses_of_step (cfg : ClientConfig) {log : List CallNote} (h : RefusesInOrder env s log)
    (hs : step env cfg s a = some s') : RefusesInOrder env s' (log ++ s.callNotes a) := by
  by_cases hread : ∃ p, a = .poll .read p
  · obtain ⟨p, rfl⟩ := hread
    exact readPoll_refuses cfg h hs
  have hw := writtenBy_of_step env cfg hs fun ha => hread ⟨_, ha⟩
  by_cases hrecv : ∃ e, a = .recv e
  · obtain ⟨e, rfl⟩ := hrecv
    exact readRecv_refuses cfg h hs hw
  · have hr := Broadcasts.read_of_other env cfg hs (fun e he => hrecv ⟨e, he⟩)
      fun p hp => hread ⟨p, hp⟩
    exact h.keep hw (by rw [hr]) (turnedAway_callNotes fun ha => hread ⟨_, ha⟩)

/-! ## Runs -/

/-- What every step keeps. -/
structure ServesInOrder (env : Env R) (s : State E R) (log : List (ServeNote E)) : Prop where
  board : Switchboard.Kept (s.callBoard env) (calls log)
  entered : ∀ o action, .entered (.on o) action ∈ calls log → s.ons o = .registered action
  refuses : RefusesInOrder env s (calls log)
  answers : ∀ o,
    AnswersInOrder env s o (Switchboard.takenFrom (.on o) (calls log)) (answersOf o log)

theorem ServesInOrder.init (cfg : ClientConfig) :
    ServesInOrder env (client env cfg : Machine (State E R) (Act E)).init [] := by
  refine ⟨.init (fun _ => rfl) rfl (fun _ => rfl) rfl, by simp [calls], rfl, fun o => ?_⟩
  exact .idle env rfl .init

theorem entered_of_step (cfg : ClientConfig) (hs : step env cfg s a = some s') {o : ℕ}
    {action : String} (he : .entered (.on o) action ∈ s.callNotes a) :
    s'.ons o = .registered action := by
  have ht : ∀ ch, .entered (.on o) action ∉ s.takes ch := fun ch h => by
    simp [State.takes] at h
  unfold State.callNotes at he
  split at he
  · split at he <;> simp at he
  · split at he
    · next hon =>
      obtain ⟨rfl, rfl⟩ : o = _ ∧ action = _ := by simpa using he
      replace hs : onPoll s o .ready = some s' := hs
      simp only [onPoll, hon] at hs
      cases hs
      exact Function.update_self ..
    · simp at he
  · split at he
    · exact absurd he (ht _)
    · simp at he
  · split at he
    · simp at he
    · exact absurd he (ht _)
    · simp at he
  · simp at he

theorem ons_of_step (cfg : ClientConfig) (hs : step env cfg s a = some s') {o : ℕ}
    {action : String} (hon : s.ons o = .registered action) : s'.ons o = .registered action := by
  by_cases ha : a.Handles o
  · unfold Act.Handles at ha
    split at ha
    case h_1 n act =>
      subst ha
      replace hs : on s n act = some s' := hs
      simp only [on, hon] at hs
      cases hs
    case h_2 n p =>
      subst ha
      replace hs : onPoll s n p = some s' := hs
      simp only [onPoll, hon] at hs
      cases hs
    case h_3 =>
      obtain ⟨_, _, _, _, _, rfl, -⟩ := handlerPoll_footprint env hs
      exact hon
    case h_4 =>
      obtain ⟨_, rfl⟩ := handlerRespond_footprint env hs
      exact hon
    case h_5 => exact ha.elim
  · rw [(handler_of_step cfg ha hs).2, hon]

theorem answers_of_step (cfg : ClientConfig) {log : List (ServeNote E)}
    (hI : ServesInOrder env s log) (hs : step env cfg s a = some s') (o : ℕ) :
    AnswersInOrder env s' o
      (Switchboard.takenFrom (.on o) (calls log) ++ Switchboard.takenFrom (.on o) (s.callNotes a))
      (answersOf o log ++ answersOf o (s.answers env a)) := by
  have h := hI.answers o
  by_cases ha : a.Handles o
  · unfold Act.Handles at ha
    split at ha
    case h_1 =>
      subst ha
      have hn := on_answers h hs
      simpa [State.callNotes, State.answers, Switchboard.takenFrom, answersOf] using hn
    case h_2 n p =>
      subst ha
      replace hs : onPoll s n p = some s' := hs
      have hu : (s.callBoard env).used (.on n) = false := by
        unfold onPoll at hs
        split at hs <;> cases hs
        next hon => simp only [State.callBoard, ChanId.elim, hon, OnPc.used]
      have ht : Switchboard.takenFrom (.on n) (s.callNotes (.poll (.on n) p : Act E)) = [] := by
        cases p with
        | ready =>
          simp only [State.callNotes]
          split <;> rfl
        | pend | done | timer => rfl
      rw [hI.board.takenFrom_eq_nil hu] at h ⊢
      rw [ht]
      simpa [State.answers, answersOf] using onPoll_answers h hs
    case h_3 =>
      subst ha
      exact handlerPoll_answers h hs
    case h_4 n r =>
      subst ha
      have hr := handlerRespond_answers h hs
      simpa [State.callNotes, State.answers, Switchboard.takenFrom, answersOf,
        ServeNote.answerOf] using hr
    case h_5 => exact ha.elim
  · have hn : Switchboard.takenFrom (.on o) (s.callNotes a) = []
        ∧ answersOf o (s.answers env a) = [] := notes_of_not_handles ha
    obtain ⟨hp, hon⟩ := handler_of_step cfg ha hs
    rw [hn.1, hn.2, List.append_nil, List.append_nil]
    refine h.keep hp hon (writtenBy_of_step env cfg hs ?_)
    rintro rfl
    exact ha rfl

theorem ServesInOrder.step (cfg : ClientConfig) {log : List (ServeNote E)}
    (hI : ServesInOrder env s log) (hs : OcppClient.step env cfg s a = some s') :
    ServesInOrder env s' (log ++ s.serveNotes env a) := by
  have hc : calls (log ++ s.serveNotes env a) = calls log ++ s.callNotes a := by
    rw [calls_append, calls_serveNotes]
  refine ⟨?_, ?_, ?_, fun o => ?_⟩
  · rw [hc]
    exact hI.board.step (callBoard_of_step env cfg hs)
  · rw [hc]
    intro o action he
    rcases List.mem_append.1 he with he | he
    · exact ons_of_step cfg hs (hI.entered o action he)
    · exact entered_of_step cfg hs he
  · rw [hc]
    exact refuses_of_step cfg hI.refuses hs
  · rw [hc, Switchboard.takenFrom_append, answersOf_append, answersOf_serveNotes]
    exact answers_of_step cfg hI hs o

theorem servesInOrder_of_reach {cfg : ClientConfig} {s : State E R × List (ServeNote E)}
    (h : Machine.Reach ((client env cfg).observed (State.serveNotes env)) Machine.Any s) :
    ServesInOrder env s.1 s.2 := by
  refine Machine.Reach.invariant (I := fun s => ServesInOrder env s.1 s.2) (.init cfg)
    (fun s a s' _ _ hs hI => ?_) h
  obtain ⟨hs, hl⟩ := Machine.observed_step hs
  rw [hl]
  exact hI.step cfg hs

/-- What became of the CALLs received, and which frames answered them. -/
structure CallsServed (env : Env R) (s : State E R) (log : List (ServeNote E)) : Prop where
  /-- They were looked up one after the other, each once, and the last may be in hand. -/
  lookedUp : (Switchboard.routes (calls log)).map Prod.snd ++ s.read.hand.board.waiting
    = (jobs env s.hist).map fun j => (j.action, j.messageId, j.payload)
  /-- A handler is sent CALLs of its own action. -/
  own : ∀ o action n, .routed (some (.on o)) action n ∈ calls log → s.ons o = .registered action
  /-- The read loop writes a refusal for each CALL without a handler, and nothing else. -/
  refused : writtenBy .read s.hist ++ s.read.hand.unwritten
    = ((Switchboard.turnedAway (calls log)).map (refusalFrame E env)).reduceOption
  /-- A handler has answered the first of the CALLs it was sent, one may be running, and the others
  wait in its channel or are on the way to it. What it writes are those answers, in that order. -/
  answered : ∀ o, ∃ done running,
    Switchboard.routedTo (.on o) (calls log)
      = done ++ running ++ (s.requests.chans (.on o)).queue ++ s.read.hand.board.boundTo (.on o)
    ∧ running.map Prod.fst = (s.handlers o).inHand
    ∧ List.Forall₂ (AnswersFor env s o) done (answersOf o log)
    ∧ writtenBy (.handler o) s.hist ++ (s.handlers o).unwritten
      = (List.zipWith (fun n r => responseFrame env n.1 r) done (answersOf o log)).reduceOption

theorem ServesInOrder.callsServed {log : List (ServeNote E)} (hI : ServesInOrder env s log) :
    CallsServed env s log := by
  refine ⟨hI.board.came, fun o action n hn => ?_, hI.refuses, fun o => ?_⟩
  · exact hI.entered o action (hI.board.topics _ _ _ hn)
  · obtain ⟨running, hr, -, done, ht, hd, hw⟩ := hI.answers o
    refine ⟨done, running, ?_, hr, hd, hw⟩
    rw [hI.board.fifo, ht]
    rfl

end OcppClient
