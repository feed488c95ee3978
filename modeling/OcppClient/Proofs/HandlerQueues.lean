import OcppClient.Proofs.Footprint

/-!
# The queues of replaced handlers

`handle_frame` looks the channel of an action up under one lock and pushes the CALL under another.
A registration in between closes that channel, its handler drains it and leaves, and the push then
lands where nobody reads. While no registration replaces the channel a push is on its way to, a
handler that has left leaves an empty queue behind.
-/

namespace OcppClient

open Transition

/-! ## Registries -/

namespace Registry

variable {κ T : Type}

/-- Registered channels are open, and each is registered for one action. -/
structure Ok (r : Registry κ T) : Prop where
  opened : ∀ action ch, r.senders action = some ch → (r.chans ch).closed = false
  inj : ∀ action action' ch, r.senders action = some ch → r.senders action' = some ch →
    action = action'

theorem Ok.new : (Registry.new : Registry κ T).Ok :=
  ⟨by simp [Registry.new], by simp [Registry.new]⟩

variable [DecidableEq κ] {r : Registry κ T}

theorem modify_chans (ch : κ) (f : Chan T → Chan T) (x : κ) :
    (r.modify ch f).chans x = if x = ch then f (r.chans x) else r.chans x := by
  unfold modify
  rcases eq_or_ne x ch with rfl | hne
  · simp
  · simp [hne]

theorem modify_closed {ch : κ} {f : Chan T → Chan T}
    (hf : (f (r.chans ch)).closed = (r.chans ch).closed) (x : κ) :
    ((r.modify ch f).chans x).closed = (r.chans x).closed := by
  rw [modify_chans]
  split_ifs with hx
  · rw [hx, hf]
  · rfl

theorem Ok.modify (h : r.Ok) {ch : κ} {f : Chan T → Chan T}
    (hf : (f (r.chans ch)).closed = (r.chans ch).closed) : (r.modify ch f).Ok := by
  refine ⟨fun action x hx => ?_, h.inj⟩
  rw [modify_closed hf]
  exact h.opened action x hx

/-- An insertion closes the channel it replaces and changes no other. -/
theorem insert_chans (action : String) (ch x : κ) : (r.insert action ch).chans x
    = if r.senders action = some x then (r.chans x).close else r.chans x := by
  unfold insert
  rcases hp : r.senders action with _ | previous
  · simp
  · simp only [modify_chans, Option.some.injEq, eq_comm (a := x)]

theorem insert_closed {action : String} {ch x : κ} (hx : r.senders action ≠ some x) :
    ((r.insert action ch).chans x).closed = (r.chans x).closed := by
  rw [insert_chans, if_neg hx]

theorem closed_insert_of_closed {action : String} {ch x : κ} (hx : (r.chans x).closed = true) :
    ((r.insert action ch).chans x).closed = true := by
  rw [insert_chans]
  split_ifs
  · rfl
  · exact hx

theorem insert_queue (action : String) (ch x : κ) :
    ((r.insert action ch).chans x).queue = (r.chans x).queue := by
  rw [insert_chans]
  split_ifs <;> rfl

theorem insert_senders (action : String) (ch : κ) :
    (r.insert action ch).senders = Function.update r.senders action (some ch) := rfl

theorem Ok.insert (h : r.Ok) {action : String} {ch : κ} (hnew : ∀ a, r.senders a ≠ some ch)
    (hopen : (r.chans ch).closed = false) : (r.insert action ch).Ok := by
  refine ⟨fun a x hx => ?_, fun a a' x hx hx' => ?_⟩
  · rw [insert_senders] at hx
    rcases eq_or_ne a action with rfl | ha
    · simp only [Function.update_self, Option.some.injEq] at hx
      subst hx
      rwa [insert_closed (hnew _)]
    · rw [Function.update_of_ne ha] at hx
      rw [insert_closed fun hp => ha (h.inj _ _ _ hx hp)]
      exact h.opened a x hx
  · rw [insert_senders] at hx hx'
    rcases eq_or_ne a action with rfl | ha
    · rcases eq_or_ne a' a with rfl | ha'
      · rfl
      · rw [Function.update_self] at hx
        rw [Function.update_of_ne ha', ← hx] at hx'
        exact absurd hx' (hnew _)
    · rw [Function.update_of_ne ha] at hx
      rcases eq_or_ne a' action with rfl | ha'
      · rw [Function.update_self] at hx'
        rw [← hx'] at hx
        exact absurd hx (hnew _)
      · rw [Function.update_of_ne ha'] at hx'
        exact h.inj _ _ _ hx hx'

theorem removeOwn_chans (action : String) (ch : κ) : (r.removeOwn action ch).chans = r.chans := by
  unfold removeOwn
  split_ifs <;> rfl

theorem senders_of_removeOwn {action a : String} {ch x : κ}
    (h : (r.removeOwn action ch).senders a = some x) : r.senders a = some x := by
  unfold removeOwn at h
  split_ifs at h with hc
  · rcases eq_or_ne a action with rfl | ha
    · simp at h
    · simpa only [Function.update_of_ne ha] using h
  · exact h

theorem Ok.removeOwn (h : r.Ok) (action : String) (ch : κ) : (r.removeOwn action ch).Ok := by
  refine ⟨fun a x hx => ?_, fun a a' x hx hx' => ?_⟩
  · rw [removeOwn_chans]
    exact h.opened a x (senders_of_removeOwn hx)
  · exact h.inj a a' x (senders_of_removeOwn hx) (senders_of_removeOwn hx')

end Registry

variable {E R : Type} [ProtocolError E] (env : Env R) (cfg : ClientConfig) {s s' : State E R}

/-! ## The steps that matter -/

/-- A step that registers nothing and leaves the channels and their readers alone. -/
structure QueueFrame (s s' : State E R) : Prop where
  requests : s'.requests = s.requests
  ons : s'.ons = s.ons
  handlers : s'.handlers = s.handlers
  waitFors : s'.waitFors = s.waitFors

/-- What the read loop does to the channels: nothing, a look-up, or a push. -/
inductive QueueRead (s s' : State E R) : Prop
  | frame (hf : QueueFrame s s')
    (hr : s'.read = s.read ∨ ∀ ch id payload, s'.read ≠ .pushRequest ch id payload)
  | lookup {action id : String} {payload : Value} {ch : ChanId} (hf : QueueFrame s s')
    (hs : s.requests.senders action = some ch) (hr : s'.read = .pushRequest ch id payload)
  | push {id : String} {payload : Value} {ch : ChanId} (hr : s.read = .pushRequest ch id payload)
    (h : s' = { s with
      read := .recv, requests := s.requests.modify ch fun c => c.send (id, payload) })

theorem readRecv_queue {e : Option TransportEvent} (h : readRecv env cfg s e = some s') :
    QueueRead s s' := by
  have hl := (readRecv_leads env cfg h).2
  obtain ⟨rd, n, h', hs', -⟩ := readRecv_footprint env cfg h
  have hf : QueueFrame s s' := by rw [hs']; exact ⟨rfl, rfl, rfl, rfl⟩
  refine .frame hf (.inr fun ch id payload hr => ?_)
  rcases hl with hl | ⟨_, _, hl⟩
  · rw [hr] at hl
    exact hl
  · cases hr.symm.trans hl

theorem readPoll_queue {p : Poll} (hs : readPoll env cfg s p = some s') : QueueRead s s' := by
  have hk := readPoll_frame env cfg hs
  rcases hk.requests with hreq | ⟨ch, id, payload, hr, h⟩
  · have hf : QueueFrame s s' := ⟨hreq, hk.ons, hk.handlers, hk.waitFors⟩
    cases (readPoll_moves env cfg hs).leads env cfg with
    | lookup hch h => exact .lookup hf hch h
    | rest h => exact .frame hf (.inr fun ch id payload hr => by rw [hr] at h; exact h)
    | operation h => exact .frame hf (.inr fun ch id payload hr => by rw [hr] at h; exact h)
    | dialPend _ h => exact .frame hf (.inr (by simp [h]))
    | installing h => exact .frame hf (.inr fun ch id payload hr => by rw [hr] at h; exact h)
  · exact .push hr h

inductive QueueCase (s s' : State E R) : Act E → Prop
  | read {a : Act E} (h : QueueRead s s') : QueueCase s s' a
  | handlers {a : Act E} (h : HandlerCase env s s' a) : QueueCase s s' a

theorem queue_cases {a : Act E} (hs : step env cfg s a = some s') : QueueCase env s s' a := by
  cases party_cases env cfg hs with
  | recv h => exact .read (readRecv_queue env cfg h)
  | read h => exact .read (readPoll_queue env cfg h)
  | handlers h => exact .handlers h
  | other h => exact .read (.frame ⟨h.requests, h.ons, h.handlers, h.waitFors⟩ (.inl h.read))
  | notify h =>
    obtain ⟨_, _, rfl, -⟩ := sendNotification_footprint env h
    exact .read (.frame ⟨rfl, rfl, rfl, rfl⟩ (.inl rfl))
  | notificationPoll h =>
    obtain ⟨_, _, _, _, rfl, -⟩ := notificationPoll_footprint h
    exact .read (.frame ⟨rfl, rfl, rfl, rfl⟩ (.inl rfl))

/-! ## The invariant -/

/-- No CALL sits in the queue of a handler that has left its loop. -/
def NoStranded (s : State E R) : Prop :=
  ∀ o, s.handlers o = .exited → (s.requests.chans (.on o)).queue = []

/-- The step does not replace the channel that `handle_frame` has looked up and not pushed to
yet. -/
def NotReplacing (s : State E R) : Act E → Prop
  | .poll (.on o) _ => ∀ action ch id payload, s.ons o = .lock action →
    s.read = .pushRequest ch id payload → s.requests.senders action ≠ some ch
  | .poll (.waitFor w) _ => ∀ action ch id payload, s.waitFors w = .lock action →
    s.read = .pushRequest ch id payload → s.requests.senders action ≠ some ch
  | _ => True

/-- A channel that no registration has used. -/
def Unused (r : Registry ChanId (String × Value)) (ch : ChanId) : Prop :=
  (r.chans ch).closed = false ∧ ∀ action, r.senders action ≠ some ch

def WaitForPc.Unregistered : WaitForPc E → Prop
  | .idle => True
  | .lock _ => True
  | _ => False

structure QueueInv (s : State E R) : Prop where
  ok : s.requests.Ok
  on : ∀ o, (∀ action, s.ons o ≠ .registered action) →
    s.handlers o = .absent ∧ Unused s.requests (.on o)
  waitFor : ∀ w, (s.waitFors w).Unregistered → Unused s.requests (.waitFor w)
  push : ∀ ch id payload, s.read = .pushRequest ch id payload →
    (s.requests.chans ch).closed = false
  exited : ∀ o, s.handlers o = .exited →
    (s.requests.chans (.on o)).closed = true ∧ (s.requests.chans (.on o)).queue = []

omit [ProtocolError E] in
theorem QueueInv.frame (hI : QueueInv s) (hf : QueueFrame s s')
    (hpush : ∀ ch id payload, s'.read = .pushRequest ch id payload →
      (s.requests.chans ch).closed = false) : QueueInv s' := by
  refine ⟨?_, ?_, ?_, ?_, ?_⟩
  · rw [hf.requests]; exact hI.ok
  · rw [hf.requests, hf.ons, hf.handlers]; exact hI.on
  · rw [hf.requests, hf.waitFors]; exact hI.waitFor
  · rw [hf.requests]; exact hpush
  · rw [hf.requests, hf.handlers]; exact hI.exited

omit [ProtocolError E] in
/-- A channel changes but for its closed flag; if a handler has left it, it stays empty. -/
theorem QueueInv.modify (hI : QueueInv s) (ch : ChanId) (f : Chan (String × Value) → Chan _)
    (hf : (f (s.requests.chans ch)).closed = (s.requests.chans ch).closed)
    (hq : (s.requests.chans ch).closed = false ∨ ∀ o, ch = .on o → s.handlers o ≠ .exited)
    {rd : ReadPc E} (hrd : rd = s.read ∨ ∀ ch id payload, rd ≠ .pushRequest ch id payload) :
    QueueInv { s with read := rd, requests := s.requests.modify ch f } := by
  have hun : ∀ x, Unused s.requests x → Unused (s.requests.modify ch f) x := fun x hx =>
    ⟨by rw [Registry.modify_closed hf]; exact hx.1, hx.2⟩
  refine ⟨hI.ok.modify hf, fun o ho => ⟨(hI.on o ho).1, hun _ (hI.on o ho).2⟩,
    fun w hw => hun _ (hI.waitFor w hw), fun x id payload hr => ?_, fun o ho => ?_⟩
  · rw [Registry.modify_closed hf]
    rcases hrd with rfl | hrd
    · exact hI.push x id payload hr
    · exact absurd hr (hrd _ _ _)
  · obtain ⟨hc, he⟩ := hI.exited o ho
    have hne : ChanId.on o ≠ ch := by
      rintro rfl
      rcases hq with hq | hq
      · rw [hc] at hq
        cases hq
      · exact hq o rfl ho
    rw [Registry.modify_closed hf, Registry.modify_chans, if_neg hne]
    exact ⟨hc, he⟩

omit [ProtocolError E] in
theorem QueueInv.read (hI : QueueInv s) (h : QueueRead s s') : QueueInv s' := by
  cases h with
  | frame hf hr =>
    refine hI.frame hf fun ch id payload h => ?_
    rcases hr with hr | hr
    · exact hI.push ch id payload (hr ▸ h)
    · exact absurd h (hr _ _ _)
  | @lookup action id payload ch hf hs hr =>
    refine hI.frame hf fun ch' id' payload' h => ?_
    rw [hr] at h
    cases h
    exact hI.ok.opened action ch hs
  | push hr h =>
    subst h
    exact hI.modify _ _ rfl (.inl (hI.push _ _ _ hr)) (.inr (by simp))

omit [ProtocolError E] in
/-- An action gets a channel that none used before, and the one it replaces is not the target of a
push. -/
theorem QueueInv.insert (hI : QueueInv s) {action : String} {ch : ChanId}
    (hu : Unused s.requests ch)
    (hp : ∀ x id payload, s.read = .pushRequest x id payload → s.requests.senders action ≠ some x)
    {ons : ℕ → OnPc} {hs : ℕ → HandlerPc} {ws : ℕ → WaitForPc E}
    (hon : ∀ o, (∀ action, ons o ≠ .registered action) →
      (∀ action, s.ons o ≠ .registered action) ∧ hs o = s.handlers o ∧ ch ≠ .on o)
    (hex : ∀ o, hs o = .exited → s.handlers o = .exited)
    (hws : ∀ w, (ws w).Unregistered → (s.waitFors w).Unregistered ∧ ch ≠ .waitFor w) :
    QueueInv { s with
      requests := s.requests.insert action ch, ons := ons, handlers := hs, waitFors := ws } := by
  have hun : ∀ x, x ≠ ch → Unused s.requests x → Unused (s.requests.insert action ch) x := by
    intro x hne hx
    refine ⟨by rw [Registry.insert_closed (hx.2 _)]; exact hx.1, fun a ha => ?_⟩
    rw [Registry.insert_senders] at ha
    rcases eq_or_ne a action with rfl | hne'
    · simp only [Function.update_self, Option.some.injEq] at ha
      exact hne ha.symm
    · rw [Function.update_of_ne hne'] at ha
      exact hx.2 a ha
  refine ⟨hI.ok.insert hu.2 hu.1, fun o ho => ?_, fun w hw => ?_, fun x id payload hr => ?_,
    fun o ho => ?_⟩
  · obtain ⟨ho, hh, hne⟩ := hon o ho
    exact ⟨hh.trans (hI.on o ho).1, hun _ hne.symm (hI.on o ho).2⟩
  · obtain ⟨hw, hne⟩ := hws w hw
    exact hun _ hne.symm (hI.waitFor w hw)
  · rw [Registry.insert_closed (hp x id payload hr)]
    exact hI.push x id payload hr
  · obtain ⟨hc, hq⟩ := hI.exited o (hex o ho)
    exact ⟨Registry.closed_insert_of_closed hc, by rw [Registry.insert_queue]; exact hq⟩

omit [ProtocolError E] in
theorem QueueInv.removeOwn (hI : QueueInv s) (action : String) (ch : ChanId) :
    QueueInv { s with requests := s.requests.removeOwn action ch } := by
  have hun : ∀ x, Unused s.requests x → Unused (s.requests.removeOwn action ch) x := fun x hx =>
    ⟨by rw [Registry.removeOwn_chans]; exact hx.1,
      fun a ha => hx.2 a (Registry.senders_of_removeOwn ha)⟩
  refine ⟨hI.ok.removeOwn action ch, fun o ho => ⟨(hI.on o ho).1, hun _ (hI.on o ho).2⟩,
    fun w hw => hun _ (hI.waitFor w hw), ?_, ?_⟩
  · simp only [Registry.removeOwn_chans]
    exact hI.push
  · simp only [Registry.removeOwn_chans]
    exact hI.exited

omit [ProtocolError E] in
/-- A spawned handler moves to `pc`; it leaves its loop only with a channel closed and drained. -/
theorem QueueInv.setHandler (hI : QueueInv s) {o : ℕ} (pc : HandlerPc) (ho : s.handlers o ≠ .absent)
    (hpc : pc = .exited →
      (s.requests.chans (.on o)).closed = true ∧ (s.requests.chans (.on o)).queue = []) :
    QueueInv { s with handlers := Function.update s.handlers o pc } := by
  refine ⟨hI.ok, fun o' hu => ?_, hI.waitFor, hI.push, fun o' hx => ?_⟩
  · have hne : o' ≠ o := by rintro rfl; exact ho (hI.on _ hu).1
    simp only [Function.update_of_ne hne]
    exact hI.on o' hu
  · rcases eq_or_ne o' o with rfl | hne
    · simp only [Function.update_self] at hx
      exact hpc hx
    · simp only [Function.update_of_ne hne] at hx
      exact hI.exited o' hx

omit [ProtocolError E] in
theorem QueueInv.setWaitFor (hI : QueueInv s) {w : ℕ} (pc : WaitForPc E)
    (hpc : pc.Unregistered → (s.waitFors w).Unregistered) : QueueInv (s.setWaitFor w pc) := by
  refine ⟨hI.ok, hI.on, fun w' hu => hI.waitFor w' ?_, hI.push, hI.exited⟩
  simp only [State.setWaitFor] at hu
  rcases eq_or_ne w' w with rfl | hne
  · rw [Function.update_self] at hu
    exact hpc hu
  · rwa [Function.update_of_ne hne] at hu

omit [ProtocolError E] in
theorem QueueInv.on_step (hI : QueueInv s) {o : ℕ} {action : String}
    (h : OcppClient.on s o action = some s') : QueueInv s' := by
  unfold OcppClient.on at h
  split at h <;> cases h
  next hidle =>
  refine ⟨hI.ok, fun o' hu => hI.on o' fun action' ha => ?_, hI.waitFor, hI.push, hI.exited⟩
  have hne : o' ≠ o := by
    rintro rfl
    rw [hidle] at ha
    cases ha
  exact hu action' (by simpa only [Function.update_of_ne hne] using ha)

omit [ProtocolError E] in
theorem QueueInv.onPoll_step (hI : QueueInv s) {o : ℕ} {p : Poll} (h : onPoll s o p = some s')
    (hP : NotReplacing s (.poll (.on o) p : Act E)) : QueueInv s' := by
  unfold onPoll at h
  split at h
  case h_2 => cases h
  case h_1 action hlock =>
    cases h
    have hu := hI.on o (by simp [hlock])
    refine hI.insert hu.2 (fun x id payload => hP action x id payload hlock) (fun o' hn => ?_)
      (fun o' hx => ?_) (fun w hw => ⟨hw, by simp⟩)
    · have hne : o' ≠ o := by
        rintro rfl
        exact hn action (by simp)
      rw [Function.update_of_ne hne] at hn
      exact ⟨hn, by rw [Function.update_of_ne hne], by simpa using hne.symm⟩
    · rcases eq_or_ne o' o with rfl | hne
      · simp at hx
      · rwa [Function.update_of_ne hne] at hx

/-- A value taken from a channel leaves its closed flag. -/
theorem Chan.recv_value {T : Type} {c : Chan T} {v : T} {rest : Chan T}
    (h : c.recv = .value v rest) : rest.closed = c.closed := by
  unfold Chan.recv at h
  split at h
  · cases h; rfl
  · split_ifs at h

theorem Chan.recv_none {T : Type} {c : Chan T} (h : c.recv = .none) :
    c.closed = true ∧ c.queue = [] := by
  unfold Chan.recv at h
  split at h
  · cases h
  · next hq =>
    split_ifs at h with hc
    exact ⟨hc, hq⟩

theorem Chan.recv_wait {T : Type} {c : Chan T} (h : c.recv = .wait) :
    c.closed = false ∧ c.queue = [] := by
  unfold Chan.recv at h
  split at h
  · cases h
  · next hq =>
    split_ifs at h with hc
    exact ⟨by simpa using hc, hq⟩

theorem QueueInv.handlerPoll_step (hI : QueueInv s) {o : ℕ} {p : Poll}
    (h : handlerPoll env s o p = some s') : QueueInv s' := by
  unfold handlerPoll at h
  split at h
  case h_1 action hpc hon =>
    cases h
    have hne : s.handlers o ≠ .absent := by simp [hpc]
    unfold handlerRecv
    split
    · next messageId payload rest hr =>
      have hm := hI.modify (.on o) (fun _ => rest) (Chan.recv_value hr)
        (.inr fun o' ho => by cases ho; simp [hpc]) (.inl rfl)
      refine hm.setHandler _ hne fun hx => ?_
      unfold handleCall respondPc at hx
      split at hx
      · cases hx
      · split at hx <;> cases hx
    · next hr => exact hI.setHandler _ hne fun _ => Chan.recv_none hr
    · exact hI.setHandler _ hne (by simp)
  case h_2 hpc =>
    split_ifs at h
    cases h
    have hm := hI.modify (.on o) .take rfl
      (.inr fun o' ho => by cases ho; simp [hpc]) (.inl rfl)
    exact hm.setHandler _ (by simp [hpc]) (by simp)
  case h_3 hpc =>
    obtain ⟨-, rfl⟩ := issue_map h
    have hI' := hI.setHandler (o := o) .sending (by simp [hpc]) (by simp)
    exact ⟨hI'.ok, hI'.on, hI'.waitFor, hI'.push, hI'.exited⟩
  case h_4 =>
    obtain ⟨-, rfl⟩ := pend_eq h
    exact ⟨hI.ok, hI.on, hI.waitFor, hI.push, hI.exited⟩
  case h_5 hpc =>
    cases h
    have hI' := hI.setHandler (o := o) .recv (by simp [hpc]) (by simp)
    exact ⟨hI'.ok, hI'.on, hI'.waitFor, hI'.push, hI'.exited⟩
  case h_6 => cases h

theorem QueueInv.respond_step (hI : QueueInv s) {o : ℕ} {r : Except E (Except JsonError Value)}
    (h : handlerRespond env s o r = some s') : QueueInv s' := by
  unfold handlerRespond at h
  split at h <;> cases h
  next hpc =>
  refine hI.setHandler _ (by simp [hpc]) fun hx => ?_
  unfold respondPc at hx
  split at hx <;> cases hx

omit [ProtocolError E] in
theorem QueueInv.waitFor_step (hI : QueueInv s) {w : ℕ} {action : String}
    (h : OcppClient.waitFor s w action = some s') : QueueInv s' := by
  unfold OcppClient.waitFor at h
  split at h <;> cases h
  next hidle => exact hI.setWaitFor _ fun _ => by rw [hidle]; trivial

omit [ProtocolError E] in
theorem QueueInv.waitForPoll_step (hI : QueueInv s) {w : ℕ} {p : Poll}
    (h : waitForPoll env s w p = some s') (hP : NotReplacing s (.poll (.waitFor w) p : Act E)) :
    QueueInv s' := by
  have hmod : ∀ f : Chan (String × Value) → Chan _,
      (f (s.requests.chans (.waitFor w))).closed = (s.requests.chans (.waitFor w)).closed →
      QueueInv { s with requests := s.requests.modify (.waitFor w) f } := fun f hf =>
    hI.modify (.waitFor w) f hf (.inr (by simp)) (.inl rfl)
  unfold waitForPoll at h
  split at h
  case h_1 action hlock =>
    cases h
    have hu := hI.waitFor w (by rw [hlock]; trivial)
    refine hI.insert hu (fun x id payload => hP action x id payload hlock)
      (fun o hn => ⟨hn, rfl, by simp⟩) (fun o hx => hx) (fun w' hw => ?_)
    have hne : w' ≠ w := by
      rintro rfl
      simp [WaitForPc.Unregistered] at hw
    rw [Function.update_of_ne hne] at hw
    exact ⟨hw, by simpa using hne.symm⟩
  case h_2 action hpc =>
    cases h
    unfold waitForRecv
    split
    · next messageId payload rest hr =>
      refine (hmod _ (Chan.recv_value hr)).setWaitFor _ fun hx => ?_
      split at hx <;> exact hx.elim
    · exact hI.setWaitFor _ False.elim
    · exact hI.setWaitFor _ False.elim
  case h_3 =>
    split_ifs at h
    cases h
    exact (hmod .take rfl).setWaitFor _ False.elim
  case h_4 =>
    split_ifs at h
    cases h
    exact hI.setWaitFor _ False.elim
  case h_5 action out frame hpc =>
    obtain ⟨-, rfl⟩ := issue_map h
    have hI' := hI.setWaitFor (w := w) (.sending action out) False.elim
    exact ⟨hI'.ok, hI'.on, hI'.waitFor, hI'.push, hI'.exited⟩
  case h_6 =>
    obtain ⟨-, rfl⟩ := pend_eq h
    exact ⟨hI.ok, hI.on, hI.waitFor, hI.push, hI.exited⟩
  case h_7 action out r hpc =>
    cases h
    have hI' := hI.setWaitFor (w := w) (.unregister action out) False.elim
    exact ⟨hI'.ok, hI'.on, hI'.waitFor, hI'.push, hI'.exited⟩
  case h_8 action out hpc =>
    cases h
    exact (hI.removeOwn action (.waitFor w)).setWaitFor _ False.elim
  case h_9 => cases h

theorem QueueInv.waitForRespond_step (hI : QueueInv s) {w : ℕ}
    {r : Except E (Except JsonError Value)} (h : waitForRespond env s w r = some s') :
    QueueInv s' := by
  unfold waitForRespond at h
  split at h
  · split at h <;> cases h <;> exact hI.setWaitFor _ False.elim
  · cases h

theorem queueInv_of_reach (h : Machine.Reach (client env cfg) NotReplacing s) : QueueInv s := by
  refine h.invariant ?_ fun s a s' _ hP hs hI => ?_
  · exact ⟨.new, fun o _ => ⟨rfl, rfl, by simp [client, State.new, Registry.new]⟩,
      fun w _ => ⟨rfl, by simp [client, State.new, Registry.new]⟩, by simp [client, State.new],
      by simp [client, State.new]⟩
  · cases queue_cases env cfg hs with
    | read h => exact hI.read h
    | handlers h =>
      cases h with
      | on h => exact hI.on_step h
      | onPoll h => exact hI.onPoll_step h hP
      | handlerPoll h => exact hI.handlerPoll_step env h
      | respond h => exact hI.respond_step env h
      | waitFor h => exact hI.waitFor_step h
      | waitForPoll h => exact hI.waitForPoll_step env h hP
      | waitForRespond h => exact hI.waitForRespond_step env h

/-- In every run in which no registration replaces the channel of a CALL between its look-up and its
push, no CALL is stranded. -/
theorem noStranded_of_notReplacing (h : Machine.Reach (client env cfg) NotReplacing s) :
    NoStranded s :=
  fun o ho => ((queueInv_of_reach env cfg h).exited o ho).2

/-- A handler is replaced with a CALL in its queue, which it answers before it leaves. -/
def replacedHandler : List (Act WireError) :=
  [.on 0 "A", .poll (.on 0) .ready, .poll (.handler 0) .ready, .recv (some (.frame callFrame)),
    .poll .read .ready, .poll .read .ready, .on 1 "A", .poll (.on 1) .ready,
    .poll (.handler 0) .ready, .poll (.handler 0) .ready, .respond 0 (.ok (.ok .null)),
    .poll (.handler 0) .ready, .poll (.handler 0) (.done (.ok ())), .poll (.handler 0) .ready]

theorem noStranded_of_replacedHandler :
    ∃ s, scenario.run scenario.init replacedHandler = some s ∧ s.handlers 0 = .exited
      ∧ NoStranded s := by
  refine ⟨_, rfl, rfl, noStranded_of_notReplacing scenarioEnv scenarioConfig
    (Machine.reach_of_run (M := scenario) replacedHandler .init ?_ rfl)⟩
  refine ⟨trivial, ?_, trivial, trivial, trivial, trivial, trivial, ?_, trivial, trivial, trivial,
    trivial, trivial, trivial, trivial⟩
  · intro action ch id payload _ hr
    cases hr
  · intro action ch id payload _ hr
    cases hr

/-- A handler is replaced, and leaves, between the look-up of its channel and the push. -/
def strandedCall : List (Act WireError) :=
  [.on 0 "A", .poll (.on 0) .ready, .poll (.handler 0) .ready, .recv (some (.frame callFrame)),
    .poll .read .ready, .on 1 "A", .poll (.on 1) .ready, .poll (.handler 0) .ready,
    .poll (.handler 0) .ready, .poll .read .ready]

theorem stranded_call :
    ∃ s, Machine.Reach scenario Machine.Any s ∧ s.handlers 0 = .exited
      ∧ (s.requests.chans (.on 0)).queue = [("m", .null)] ∧ ¬ NoStranded s := by
  refine ⟨_, Machine.reach_any_of_run strandedCall rfl, rfl, rfl, fun h => ?_⟩
  have hq := h 0 rfl
  cases hq

end OcppClient
