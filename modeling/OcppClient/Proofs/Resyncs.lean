import OcppClient.Proofs.Broadcasts
import OcppClient.Proofs.Footprint

/-!
# The broadcasts of a client

Each step of a client is a run of the accesses of its two registries: the read loop calls
`notify_all` of the one for each ping it received and of the other for each transport it swapped in.
So the callbacks of `on_reconnect` hear of every redial and of nothing else.
-/

namespace OcppClient.Broadcasts

open Transition History

variable {E R : Type}

/-! ## The log -/

/-- A whole `notify_all` over this list. -/
def roundNotes (subscribers : List ℕ) : List Note :=
  .began 0 :: (subscribers.map (.signalled 0) ++ [.ended 0])

/-- What a step adds to the log of the registry `b`. The read loop is its notifier, and calls it
where it handles a ping or swaps a transport in. -/
def broadcastNotes (b : Broadcast) (s : State E R) : Act E → List Note
  | .recv (some (.ping _)) => if b = .ping then [.called 0] else []
  | .poll .read .ready =>
    match s.read with
    | .lockSwap _ => if b = .reconnect then [.called 0] else []
    | .notifyPing _ => if b = .ping then roundNotes (s.subscribers b) else []
    | .notifyReconnect => if b = .reconnect then roundNotes (s.subscribers b) else []
    | _ => []
  | .poll (.subscriber i) .ready =>
    match s.subs i with
    | .subscribe b' => if b' = b then [.subscribed i] else []
    | .wait => if (s.subscribers b).contains i then [.started i] else []
    | _ => []
  | _ => []

/-- No callback of `on_reconnect` starts before a transport was swapped in, and after each swap the
callback of every subscriber of that time has started, or its signal is pending, or the read loop is
about to set it. -/
structure Resyncs (s : State E R) (log : List Note) : Prop where
  initial : ∀ pre i post, log = pre ++ .started i :: post → ∃ n, .called n ∈ pre
  latest : ∀ pre n post i, log = pre ++ .called n :: post → .subscribed i ∈ pre →
    .started i ∈ post ∨ s.signals i = true ∨ s.read = .notifyReconnect

/-! ## Runs of accesses -/

/-- Accesses lead from one state of the registry to the other, and log this. -/
def Leads (s s' : Shared) (ns : List Note) : Prop :=
  ∃ as, ∀ log, (machine.observed notes).run (s, log) as = some (s', log ++ ns)

section Leads

variable {s s' s'' : Shared} {ns ns' : List Note}

theorem Leads.refl (s : Shared) : Leads s s [] := ⟨[], fun log => by simp [Machine.run]⟩

theorem Leads.of_eq (h : s' = s) : Leads s s' [] := h ▸ .refl s

theorem Leads.trans (h₁ : Leads s s' ns) (h₂ : Leads s' s'' ns') : Leads s s'' (ns ++ ns') := by
  obtain ⟨as, h₁⟩ := h₁
  obtain ⟨bs, h₂⟩ := h₂
  refine ⟨as ++ bs, fun log => ?_⟩
  rw [← List.append_assoc]
  exact Machine.run_append (h₁ log) (h₂ _)

/-- One access that is known to log this. -/
theorem Leads.one {a : Access} (h : step s a = some s') (hn : notes s a = ns) : Leads s s' ns :=
  ⟨[a], fun log => by simp [Machine.run, Machine.observed, machine, h, hn]⟩

theorem Leads.reach (h : Leads s s' ns) {log : List Note}
    (hs : Machine.Reach (machine.observed notes) Machine.Any (s, log)) :
    Machine.Reach (machine.observed notes) Machine.Any (s', log ++ ns) := by
  obtain ⟨as, h⟩ := h
  exact Machine.reach_of_run as hs (Machine.meets_any as _) (h log)

/-- All signals of the list are set. -/
def Shared.signalAll (s : Shared) (l : List ℕ) : Shared :=
  { s with signals := fun i => s.signals i || l.contains i }

theorem signalAll_nil (s : Shared) : s.signalAll [] = s := by
  simp [Shared.signalAll]

theorem signalAll_cons (s : Shared) (i : ℕ) (l : List ℕ) :
    { s with signals := Function.update s.signals i true }.signalAll l = s.signalAll (i :: l) := by
  have hs : (fun j => Function.update s.signals i true j || l.contains j)
      = fun j => s.signals j || (i :: l).contains j := by
    funext j
    rcases eq_or_ne j i with rfl | hne
    · simp
    · simp [hne]
  simp only [Shared.signalAll, hs]

theorem signalAll_setNotify (s : Shared) (n : ℕ) (pc : NotifyAt) (l : List ℕ) :
    (s.setNotify n pc).signalAll l = (s.signalAll l).setNotify n pc := rfl

theorem setNotify_setNotify (s : Shared) (n : ℕ) (pc pc' : NotifyAt) :
    (s.setNotify n pc).setNotify n pc' = s.setNotify n pc' := by
  simp [Shared.setNotify]

theorem signals_lead : ∀ (rest : List ℕ) (s : Shared), s.notifies 0 = .signalling rest →
    Leads s ((s.signalAll rest).setNotify 0 (.signalling [])) (rest.map (.signalled 0))
  | [], s, h => by
    refine .of_eq ?_
    rw [signalAll_nil]
    simp [Shared.setNotify, ← h]
  | i :: rest, s, h => by
    have hone : Leads s ({ s with signals := Function.update s.signals i true }.setNotify 0
        (.signalling rest)) [.signalled 0 i] :=
      .one (a := .notify 0) (by simp only [step, notifyStep, h]) (by simp only [notes, h])
    have hrest := signals_lead rest ({ s with
      signals := Function.update s.signals i true }.setNotify 0 (.signalling rest)) (by simp)
    rw [signalAll_setNotify, setNotify_setNotify, signalAll_cons] at hrest
    exact hone.trans hrest

theorem round_leads (hn : s.notifies 0 = .lock) (hh : s.holder = none) :
    Leads s ((s.signalAll s.subscribers).setNotify 0 .idle) (roundNotes s.subscribers) := by
  have hbegin : Leads s ({ s with holder := some (.notifier 0) }.setNotify 0
      (.signalling s.subscribers)) [.began 0] :=
    .one (a := .notify 0) (by simp only [step, notifyStep, hn, if_pos hh])
      (by simp only [notes, hn])
  have hsig := signals_lead s.subscribers ({ s with
    holder := some (.notifier 0) }.setNotify 0 (.signalling s.subscribers)) (by simp)
  rw [signalAll_setNotify, setNotify_setNotify] at hsig
  have hend : Leads (({ s with holder := some (.notifier 0) }.signalAll s.subscribers).setNotify 0
      (.signalling [])) ((s.signalAll s.subscribers).setNotify 0 .idle) [.ended 0] :=
    .one (a := .notify 0) (by
      simp only [step, notifyStep, setNotify_self]
      simp [Shared.setNotify, Shared.signalAll, hh]) (by simp only [notes, setNotify_self])
  exact hbegin.trans (hsig.trans hend)

end Leads

/-! ## The subscribers of a client -/

/-- A task is in one list at most, is in its loop there, and has no signal before. -/
structure SubInv (s : State E R) : Prop where
  looping : ∀ b i, i ∈ s.subscribers b → s.subs i = .wait ∨ s.subs i = .callback
  one : ∀ b b' i, i ∈ s.subscribers b → i ∈ s.subscribers b' → b = b'
  signal : ∀ i, s.signals i = true → ∃ b, i ∈ s.subscribers b

section Subscribers

variable {s s' : State E R} {b : Broadcast}

theorem SubInv.frame (hI : SubInv s) (h₁ : s'.subscribers = s.subscribers)
    (h₂ : s'.signals = s.signals) (h₃ : s'.subs = s.subs) : SubInv s' :=
  ⟨by rw [h₁, h₃]; exact hI.looping, by rw [h₁]; exact hI.one,
    by rw [h₁, h₂]; exact hI.signal⟩

theorem SubInv.notifyAll (hI : SubInv s) (b : Broadcast) : SubInv (s.notifyAll b) := by
  refine ⟨hI.looping, hI.one, fun i hi => ?_⟩
  have hi : s.signals i = true ∨ i ∈ s.subscribers b := by simpa [State.notifyAll] using hi
  rcases hi with hi | hi
  · exact hI.signal i hi
  · exact ⟨b, hi⟩

/-- A task that is not in its loop is in no list. -/
theorem SubInv.not_listed (hI : SubInv s) {i : ℕ} (hw : s.subs i ≠ .wait)
    (hc : s.subs i ≠ .callback) : (∀ b, i ∉ s.subscribers b) ∧ s.signals i = false := by
  have hl : ∀ b, i ∉ s.subscribers b := fun b hi => (hI.looping b i hi).elim hw hc
  refine ⟨hl, ?_⟩
  by_contra h
  obtain ⟨b, hi⟩ := hI.signal i (by simpa using h)
  exact hl b hi

theorem subs_looping_update {i : ℕ} {pc : SubscriberPc} (hI : SubInv s)
    (hpc : pc = .wait ∨ pc = .callback) (b : Broadcast) (j : ℕ) (hj : j ∈ s.subscribers b) :
    Function.update s.subs i pc j = .wait ∨ Function.update s.subs i pc j = .callback := by
  rcases eq_or_ne j i with rfl | hne
  · simpa using hpc
  · simpa [hne] using hI.looping b j hj

theorem SubInv.subscribe (hI : SubInv s) {i : ℕ} (h : subscribe s i b = some s') : SubInv s' := by
  unfold OcppClient.subscribe at h
  split at h
  · next hi =>
    cases h
    refine ⟨fun b' j hj => ?_, hI.one, hI.signal⟩
    have hne : j ≠ i := by
      rintro rfl
      exact (hI.not_listed (by simp [hi]) (by simp [hi])).1 b' hj
    simpa [hne] using hI.looping b' j hj
  · cases h

theorem mem_push {subscribers : Broadcast → List ℕ} {b b' : Broadcast} {i j : ℕ} :
    j ∈ Function.update subscribers b (subscribers b ++ [i]) b'
      ↔ j ∈ subscribers b' ∨ b' = b ∧ j = i := by
  rcases eq_or_ne b' b with rfl | hne
  · simp
  · simp [hne]

theorem SubInv.push (hI : SubInv s) {i : ℕ} (hnot : ∀ b, i ∉ s.subscribers b) :
    SubInv { s with
      subscribers := Function.update s.subscribers b (s.subscribers b ++ [i])
      subs := Function.update s.subs i .wait } := by
  refine ⟨fun b' j hj => ?_, fun b₁ b₂ j h₁ h₂ => ?_, fun j hj => ?_⟩
  · rcases mem_push.1 hj with hj | ⟨-, rfl⟩
    · exact subs_looping_update hI (.inl rfl) b' j hj
    · simp
  · rcases mem_push.1 h₁ with hj₁ | ⟨rfl, rfl⟩
    · rcases mem_push.1 h₂ with hj₂ | ⟨-, rfl⟩
      · exact hI.one b₁ b₂ j hj₁ hj₂
      · exact absurd hj₁ (hnot b₁)
    · rcases mem_push.1 h₂ with hj₂ | ⟨rfl, -⟩
      · exact absurd hj₂ (hnot b₂)
      · rfl
  · obtain ⟨b', hb⟩ := hI.signal j hj
    exact ⟨b', mem_push.2 (.inl hb)⟩

theorem SubInv.subscriberPoll (hI : SubInv s) {i : ℕ} {p : Poll}
    (h : subscriberPoll s i p = some s') : SubInv s' := by
  unfold OcppClient.subscriberPoll at h
  split at h
  case h_1 b hi =>
    cases h
    exact hI.push (hI.not_listed (by simp [hi]) (by simp [hi])).1
  case h_2 hi =>
    split_ifs at h
    cases h
    refine ⟨subs_looping_update hI (.inr rfl), hI.one, fun j hj => ?_⟩
    rcases eq_or_ne j i with rfl | hne
    · simp at hj
    · exact hI.signal j (by simpa [hne] using hj)
  case h_3 hi =>
    cases h
    exact ⟨subs_looping_update hI (.inl rfl), hI.one, hI.signal⟩
  case h_4 => cases h

variable [ProtocolError E] (env : Env R) (cfg : ClientConfig)

omit [ProtocolError E] in
theorem beginDial_not_notifying (s : State E R) : notifying b (beginDial s).read = false := by
  unfold beginDial
  split_ifs <;> rfl

omit [ProtocolError E] in
theorem leave_not_notifying (s : State E R) (reason : LoopExit) :
    notifying b (leave cfg s reason).read = false := by
  unfold leave
  simp only []
  split_ifs <;> rfl

omit [ProtocolError E] in
theorem readWoken_not_notifying (h : readWoken cfg s = some s') (hr : s.read = .recv) :
    notifying b s'.read = false := by
  unfold readWoken at h
  split_ifs at h
  · cases h
    exact leave_not_notifying cfg _ _
  · cases h
    exact leave_not_notifying cfg _ _
  · cases h
    simp only [hr]
    rfl

/-- The loop is neither about to notify nor about to swap. -/
def Silent (pc : ReadPc E) : Prop := (∀ k, pc ≠ .lockSwap k) ∧ ∀ b, notifying b pc = false

omit [ProtocolError E] in
theorem Operating.silent {pc : ReadPc E} (h : pc.Operating) : Silent pc := by
  cases pc with
  | sendNotImplemented | sendPong | sendClose => exact ⟨nofun, fun _ => rfl⟩
  | _ => exact h.elim

omit [ProtocolError E] in
theorem Acquires.silent {pc pc' : ReadPc E} {op : SinkOp} (h : Acquires pc op pc') :
    Silent pc ∧ Silent pc' := by
  cases h <;> exact ⟨⟨nofun, fun _ => rfl⟩, nofun, fun _ => rfl⟩

omit [ProtocolError E] in
theorem Releases.silent {pc pc' : ReadPc E} (h : Releases pc pc') : Silent pc ∧ Silent pc' := by
  cases h <;> exact ⟨⟨nofun, fun _ => rfl⟩, nofun, fun _ => rfl⟩

omit [ProtocolError E] in
theorem Steers.silent {pc pc' : ReadPc E} (h : Steers pc pc') : Silent pc ∧ Silent pc' := by
  cases h <;> exact ⟨⟨nofun, fun _ => rfl⟩, nofun, fun _ => rfl⟩

/-- A poll of the read loop calls `notify_all`, runs it, or does neither. -/
inductive Tells (s s' : State E R) : Poll → Prop
  | quiet {p : Poll} (hr : Silent s.read) (hn' : ∀ b, notifying b s'.read = false)
    (hs : s'.signals = s.signals) : Tells s s' p
  | swap {k : SinkId} (hr : s.read = .lockSwap k) (hr' : s'.read = .notifyReconnect)
    (hs : s'.signals = s.signals) : Tells s s' .ready
  | round {b : Broadcast} (hn : notifying b s.read = true) (hn' : ∀ b, notifying b s'.read = false)
    (hs : s'.signals = (s.notifyAll b).signals) : Tells s s' .ready

theorem readPoll_tells {p : Poll} (hs : readPoll env cfg s p = some s') : Tells s s' p := by
  cases readPoll_moves env cfg hs with
  | notify hr h =>
    subst h
    exact .round (b := .ping) (by rw [hr]; rfl) (fun _ => rfl) rfl
  | broadcast hr h =>
    subst h
    exact .round (b := .reconnect) (by rw [hr]; rfl) (fun _ => rfl) rfl
  | swap hr _ h =>
    subst h
    exact .swap hr rfl rfl
  | wake hr h =>
    have hn' := fun b => readWoken_not_notifying cfg (b := b) h hr
    obtain ⟨_, _, rfl, -⟩ := readWoken_footprint cfg h
    exact .quiet (hr ▸ ⟨nofun, fun _ => rfl⟩) hn' rfl
  | @pong token hr h =>
    have hrd := resolvePong_read s token
    obtain ⟨_, _, _, hp, -⟩ := resolvePong_footprint s token
    exact .quiet (hr ▸ ⟨nofun, fun _ => rfl⟩) (by simp [h, hrd, notifying]) (by rw [h, hp])
  | dial hr h =>
    obtain ⟨_, _, hb, -⟩ := beginDial_footprint s
    exact .quiet (hr ▸ ⟨nofun, fun _ => rfl⟩) (fun b => h ▸ beginDial_not_notifying s)
      (by rw [h, hb])
  | wokenDial hr _ h =>
    obtain ⟨_, _, hb, -⟩ :=
      beginDial_footprint { s with wake := false, hist := s.hist ++ [.loop .woken] }
    exact .quiet (hr ▸ ⟨nofun, fun _ => rfl⟩) (fun b => h ▸ beginDial_not_notifying _)
      (by rw [h, hb])
  | lookup hr _ h | push hr h | resolve hr h | clear hr h | backoff hr h | redial hr h
  | dialPend hr h | dialled hr h =>
    subst h
    exact .quiet (hr ▸ ⟨nofun, fun _ => rfl⟩) (fun _ => rfl) rfl
  | pend hr _ h =>
    subst h
    exact .quiet (Operating.silent hr) (Operating.silent hr).2 rfl
  | acquire hr _ h =>
    subst h
    exact .quiet (Acquires.silent hr).1 (Acquires.silent hr).2.2 rfl
  | release hr h =>
    subst h
    exact .quiet (Releases.silent hr).1 (Releases.silent hr).2.2 rfl
  | go hr h =>
    subst h
    exact .quiet (Steers.silent hr).1 (Steers.silent hr).2.2 rfl

end Subscribers

/-! ## Each step is a run of accesses -/

section Views

variable {s s' : State E R} {b : Broadcast}

theorem view_frame (h₁ : s'.subscribers = s.subscribers) (h₂ : s'.signals = s.signals)
    (h₃ : s'.subs = s.subs) (h₄ : notifying b s'.read = notifying b s.read) :
    view b s' = view b s := by
  simp only [view, h₁, h₂, h₃, h₄]

/-- What the read loop does to the view by moving on is to move the notifier. -/
theorem view_setNotify (h₁ : s'.subscribers = s.subscribers) (h₂ : s'.signals = s.signals)
    (h₃ : s'.subs = s.subs) :
    view b s' = (view b s).setNotify 0 (if notifying b s'.read then .lock else .idle) := by
  have hf : (fun n => if n = 0 ∧ notifying b s'.read = true then NotifyAt.lock else .idle)
      = Function.update (view b s).notifies 0 (if notifying b s'.read then .lock else .idle) := by
    funext n
    rcases eq_or_ne n 0 with rfl | hne
    · simp
    · simp [hne, view]
  simp only [view, h₁, h₂, h₃, hf, Shared.setNotify]

/-- The read loop comes to call `notify_all`. -/
theorem call_leads (h₁ : s'.subscribers = s.subscribers) (h₂ : s'.signals = s.signals)
    (h₃ : s'.subs = s.subs) (hn : notifying b s.read = false) (hn' : notifying b s'.read = true) :
    Leads (view b s) (view b s') [.called 0] := by
  rw [view_setNotify h₁ h₂ h₃, if_pos hn']
  refine .one (a := .call 0) ?_ rfl
  simp [step, view, hn]

theorem notifying_inj {pc : ReadPc E} {b b' : Broadcast} (h : notifying b pc = true)
    (h' : notifying b' pc = true) : b = b' := by
  unfold notifying at h h'
  split at h
  · simp only [decide_eq_true_eq] at h h'
    rw [h, h']
  · simp only [decide_eq_true_eq] at h h'
    rw [h, h']
  · cases h

theorem view_notifyAll (b : Broadcast) (s : State E R) :
    view b (s.notifyAll b) = (view b s).signalAll (s.subscribers b) := by
  have hs : (fun i => (s.notifyAll b).signals i && (s.subscribers b).contains i)
      = fun i => (view b s).signals i || (s.subscribers b).contains i := by
    funext i
    simp only [State.notifyAll, view]
    cases s.signals i <;> cases (s.subscribers b).contains i <;> rfl
  exact congrArg (fun signals => { view b s with signals := signals }) hs

/-- The subscribers of a registry do not hear `notify_all` of the other. -/
theorem view_notifyAll_of_ne (hI : SubInv s) {b' : Broadcast} (hb : b ≠ b') :
    view b (s.notifyAll b') = view b s := by
  have hs : (fun i => (s.notifyAll b').signals i && (s.subscribers b).contains i)
      = (view b s).signals := by
    funext i
    by_cases hi : i ∈ s.subscribers b
    · have hi' : i ∉ s.subscribers b' := fun hi' => hb (hI.one b b' i hi hi')
      simp [State.notifyAll, view, hi']
    · simp [view, hi]
  exact congrArg (fun signals => { view b s with signals := signals }) hs

/-- The read loop runs `notify_all` of `b'`. -/
theorem notifyAll_leads (hI : SubInv s) {b' : Broadcast} (h₁ : s'.subscribers = s.subscribers)
    (h₂ : s'.signals = (s.notifyAll b').signals) (h₃ : s'.subs = s.subs)
    (hn : notifying b' s.read = true) (hn' : ∀ b, notifying b s'.read = false) :
    Leads (view b s) (view b s') (if b = b' then roundNotes (s.subscribers b) else []) := by
  split_ifs with hb
  · subst hb
    rw [view_setNotify (s := s.notifyAll b) h₁ h₂ h₃, view_notifyAll, hn']
    exact round_leads (s := view b s) (by simp [view, hn]) rfl
  · have hnb : notifying b s.read = false := by
      by_contra h
      exact hb (notifying_inj (by simpa using h) hn)
    refine .of_eq ((view_frame (s := s.notifyAll b') h₁ h₂ h₃ ?_).trans
      (view_notifyAll_of_ne hI hb))
    exact (hn' b).trans hnb.symm

theorem view_setSub (b : Broadcast) (s : State E R) (i : ℕ) (pc : SubscriberPc) :
    view b { s with subs := Function.update s.subs i pc }
      = (view b s).setSub i (subAt b ((s.subscribers b).contains i) pc) := by
  have hf : (fun j => subAt b ((s.subscribers b).contains j) (Function.update s.subs i pc j))
      = Function.update (view b s).subs i (subAt b ((s.subscribers b).contains i) pc) :=
    funext (Function.apply_update (fun j => subAt b ((s.subscribers b).contains j)) s.subs i pc)
  simp only [view, hf, Shared.setSub]

theorem setSub_eq_self {s : Shared} {i : ℕ} {pc : SubAt} (h : s.subs i = pc) :
    s.setSub i pc = s := by
  simp [Shared.setSub, ← h]

theorem subscribe_leads {i : ℕ} {b' : Broadcast} (h : subscribe s i b' = some s') :
    Leads (view b s) (view b s') [] := by
  unfold subscribe at h
  split at h
  · next hi =>
    cases h
    have hidle : (view b s).subs i = .idle := by simp [view, hi, subAt]
    rw [view_setSub, subAt]
    split_ifs
    · exact .one (a := .subscribe i) (by simp [step, hidle]) rfl
    · exact .of_eq (setSub_eq_self hidle)
  · cases h

/-- `subscribe` once it has the lock. -/
theorem enter_leads {s : Shared} {i : ℕ} (hi : s.subs i = .lock) (hh : s.holder = none) :
    Leads s ({ s with subscribers := s.subscribers ++ [i] }.setSub i .waiting) [.subscribed i] := by
  refine ⟨[.sub i, .sub i, .sub i], fun log => ?_⟩
  simp [Machine.run, Machine.observed, machine, step, subStep, notes, hi, hh, Shared.setSub]

/-- The push under the lock, for the registry it is made in and for the other. -/
theorem push_leads (hI : SubInv s) {i : ℕ} {b' : Broadcast} (hi : s.subs i = .subscribe b') :
    Leads (view b s)
      (view b { s with
        subscribers := Function.update s.subscribers b' (s.subscribers b' ++ [i])
        subs := Function.update s.subs i .wait }) (if b' = b then [.subscribed i] else []) := by
  obtain ⟨hl, hsig⟩ := hI.not_listed (i := i) (by simp [hi]) (by simp [hi])
  split_ifs with hb
  · subst hb
    have hs : (fun j => s.signals j && (s.subscribers b' ++ [i]).contains j)
        = (view b' s).signals := by
      funext j
      rcases eq_or_ne j i with rfl | hne
      · simp [view, hsig]
      · simp [view, hne]
    have hf : (fun j => subAt b' ((s.subscribers b' ++ [i]).contains j)
        (Function.update s.subs i .wait j)) = Function.update (view b' s).subs i .waiting := by
      funext j
      rcases eq_or_ne j i with rfl | hne
      · simp [subAt]
      · simp [view, hne]
    have hv : view b' { s with
          subscribers := Function.update s.subscribers b' (s.subscribers b' ++ [i])
          subs := Function.update s.subs i .wait }
        = { view b' s with subscribers := s.subscribers b' ++ [i] }.setSub i .waiting := by
      simp only [view, Function.update_self, hs, hf, Shared.setSub]
    rw [hv]
    exact enter_leads (by simp [view, hi, subAt]) rfl
  · have hv : view b { s with
        subscribers := Function.update s.subscribers b' (s.subscribers b' ++ [i]) } = view b s := by
      simp only [view, Function.update_of_ne (Ne.symm hb)]
    rw [view_setSub b { s with
      subscribers := Function.update s.subscribers b' (s.subscribers b' ++ [i]) }, hv]
    refine .of_eq (setSub_eq_self ?_)
    simp [view, hi, subAt, hb, Function.update_of_ne (Ne.symm hb), hl b]

theorem take_leads {i : ℕ} (hi : s.subs i = .wait) (hs : s.signals i = true) :
    Leads (view b s)
      (view b { s with
        signals := Function.update s.signals i false
        subs := Function.update s.subs i .callback })
      (if (s.subscribers b).contains i then [.started i] else []) := by
  have hv : view b { s with signals := Function.update s.signals i false }
      = { view b s with signals := Function.update (view b s).signals i false } := by
    have hf : (fun j => Function.update s.signals i false j && (s.subscribers b).contains j)
        = Function.update (view b s).signals i false :=
      funext (Function.apply_update (fun j signal => signal && (s.subscribers b).contains j)
        s.signals i false)
    simp only [view, hf]
  rw [view_setSub b { s with signals := Function.update s.signals i false }, hv]
  split_ifs with hc
  · have hpc : (view b s).subs i = .waiting := by simp only [view, hi, hc, subAt, if_true]
    have hsig : (view b s).signals i = true := by simp only [view, hs, hc, Bool.and_self]
    refine .one (a := .sub i) ?_ ?_
    · simp only [step, subStep, hpc, hsig, hc, subAt, if_true]
    · simp only [notes, hpc]
  · rw [Bool.not_eq_true] at hc
    have hsig : Function.update (view b s).signals i false = (view b s).signals := by
      refine Function.update_eq_iff.2 ⟨?_, fun _ _ => rfl⟩
      simp only [view, hc, Bool.and_false]
    rw [hsig]
    refine .of_eq (setSub_eq_self ?_)
    simp only [view, hi, hc, subAt, Bool.false_eq_true, if_false]

theorem finish_leads {i : ℕ} (hi : s.subs i = .callback) :
    Leads (view b s) (view b { s with subs := Function.update s.subs i .wait }) [] := by
  rw [view_setSub]
  by_cases hc : (s.subscribers b).contains i = true
  · have hpc : (view b s).subs i = .callback := by simp only [view, hi, hc, subAt, if_true]
    refine .one (a := .sub i) ?_ ?_
    · simp only [step, subStep, hpc, hc, subAt, if_true]
    · simp only [notes, hpc]
  · rw [Bool.not_eq_true] at hc
    refine .of_eq (setSub_eq_self ?_)
    simp only [view, hi, hc, subAt, Bool.false_eq_true, if_false]

theorem subscriberPoll_leads (hI : SubInv s) {i : ℕ} {p : Poll}
    (h : subscriberPoll s i p = some s') :
    Leads (view b s) (view b s') (broadcastNotes b s (.poll (.subscriber i) p : Act E)) := by
  unfold subscriberPoll at h
  split at h
  case h_1 hi =>
    cases h
    simp only [broadcastNotes, hi]
    exact push_leads hI hi
  case h_2 hi =>
    split_ifs at h with hs
    cases h
    simp only [broadcastNotes, hi]
    exact take_leads hi hs
  case h_3 hi =>
    cases h
    simp only [broadcastNotes, hi]
    exact finish_leads hi
  case h_4 => cases h

variable [ProtocolError E] (env : Env R) (cfg : ClientConfig)

omit [ProtocolError E] in
theorem notes_of_silent (h : Silent s.read) (p : Poll) :
    broadcastNotes b s (.poll .read p : Act E) = [] := by
  cases p with
  | ready =>
    simp only [broadcastNotes]
    split
    · next k hk => exact absurd hk (h.1 k)
    · next payload hk =>
      have hn := h.2 .ping
      rw [hk] at hn
      cases hn
    · next hk =>
      have hn := h.2 .reconnect
      rw [hk] at hn
      cases hn
    · rfl
  | _ => rfl

omit [ProtocolError E] in
theorem notes_of_notifying {b' : Broadcast} (h : notifying b' s.read = true) :
    broadcastNotes b s (.poll .read .ready : Act E)
      = if b = b' then roundNotes (s.subscribers b) else [] := by
  unfold notifying at h
  split at h
  · next hr =>
    rw [decide_eq_true_eq] at h
    simp only [broadcastNotes, hr, h]
  · next hr =>
    rw [decide_eq_true_eq] at h
    simp only [broadcastNotes, hr, h]
  · cases h

theorem readPoll_leads (hI : SubInv s) {p : Poll} (h : readPoll env cfg s p = some s') :
    Leads (view b s) (view b s') (broadcastNotes b s (.poll .read p : Act E)) := by
  have hf := readPoll_frame env cfg h
  cases readPoll_tells env cfg h with
  | quiet hr hn' hs =>
    rw [notes_of_silent hr]
    exact .of_eq (view_frame hf.subscribers hs hf.subs ((hn' b).trans (hr.2 b).symm))
  | swap hr hr' hs =>
    simp only [broadcastNotes, hr]
    split_ifs with hb
    · subst hb
      exact call_leads hf.subscribers hs hf.subs (by rw [hr]; rfl) (by rw [hr']; rfl)
    · refine .of_eq (view_frame hf.subscribers hs hf.subs ?_)
      rw [hr, hr']
      simpa [notifying] using hb
  | @round b' hn hn' hs =>
    rw [notes_of_notifying hn]
    exact notifyAll_leads hI hf.subscribers hs hf.subs hn hn'

theorem readRecv_leads {e : Option TransportEvent} (h : readRecv env cfg s e = some s') :
    Leads (view b s) (view b s') (broadcastNotes b s (.recv e)) := by
  have hr := (OcppClient.readRecv_leads env cfg h).1
  have hn : notifying b s.read = false := by rw [hr]; rfl
  unfold readRecv at h
  rw [hr] at h
  cases e with
  | none =>
    cases h
    exact .of_eq (view_frame rfl rfl rfl ((leave_not_notifying cfg s .eof).trans hn.symm))
  | some e =>
    cases h
    cases e with
    | ping payload =>
      simp only [broadcastNotes]
      split_ifs with hb
      · subst hb
        exact call_leads rfl rfl rfl hn rfl
      · refine .of_eq (view_frame rfl rfl rfl ?_)
        rw [hn]
        simpa [handleEvent, notifying] using hb
    | pong payload => exact .of_eq (view_frame rfl rfl rfl hn.symm)
    | frame f =>
      refine .of_eq (view_frame rfl rfl rfl (Eq.trans ?_ hn.symm))
      simp only [handleEvent, handleFrame]
      split <;> rfl

/-- Only the read loop moves itself. -/
theorem read_of_other {a : Act E} (hs : OcppClient.step env cfg s a = some s')
    (hr : ∀ e, a ≠ .recv e) (hp : ∀ p, a ≠ .poll .read p) : s'.read = s.read := by
  cases loop_cases env cfg hs with
  | recv => exact absurd rfl (hr _)
  | read => exact absurd rfl (hp _)
  | disconnect h =>
    obtain ⟨_, _, _, _, _, rfl, -⟩ := disconnect_footprint h
    rfl
  | disconnectPoll h =>
    obtain ⟨_, _, _, _, rfl, -⟩ := disconnectPoll_footprint h
    rfl
  | other h => exact h.read

/-- The acts that the broadcasts are about. -/
def Concerns : Act E → Prop
  | .recv _ | .poll .read _ | .poll (.subscriber _) _ => True
  | _ => False

omit [ProtocolError E] in
theorem notes_of_not_broadcasts {a : Act E} (ha : ¬ Concerns a) :
    broadcastNotes b s a = [] := by
  unfold broadcastNotes
  split
  · exact absurd trivial ha
  · exact absurd trivial ha
  · exact absurd trivial ha
  · rfl

/-- A step of the client, as the subscribers see it. -/
inductive SubCase (s s' : State E R) : Act E → Prop
  | read {p : Poll} (h : readPoll env cfg s p = some s') : SubCase s s' (.poll .read p)
  | subscribe {i : ℕ} {b : Broadcast} (h : subscribe s i b = some s') :
    SubCase s s' (.subscribe i b)
  | poll {i : ℕ} {p : Poll} (h : subscriberPoll s i p = some s') :
    SubCase s s' (.poll (.subscriber i) p)
  | other {a : Act E} (h₁ : s'.subscribers = s.subscribers) (h₂ : s'.signals = s.signals)
    (h₃ : s'.subs = s.subs) : SubCase s s' a

theorem sub_cases {a : Act E} (hs : OcppClient.step env cfg s a = some s') :
    SubCase env cfg s s' a := by
  cases background_cases env cfg hs with
  | read h => exact .read h
  | subscribe h => exact .subscribe h
  | subscriberPoll h => exact .poll h
  | onNotification h =>
    obtain ⟨_, rfl⟩ := onNotification_footprint h
    exact .other rfl rfl rfl
  | onNotificationPoll h =>
    obtain ⟨_, _, _, rfl⟩ := onNotificationPoll_footprint h
    exact .other rfl rfl rfl
  | notificationHandlerPoll h =>
    obtain ⟨_, _, rfl⟩ := notificationHandlerPoll_footprint env h
    exact .other rfl rfl rfl
  | other h => exact .other h.subscribers h.signals h.subs

theorem view_of_step (hI : SubInv s) {a : Act E} (hs : OcppClient.step env cfg s a = some s') :
    Leads (view b s) (view b s') (broadcastNotes b s a) := by
  by_cases ha : Concerns a
  · unfold Concerns at ha
    split at ha
    · exact readRecv_leads env cfg hs
    · exact readPoll_leads env cfg hI hs
    · exact subscriberPoll_leads hI hs
    · exact ha.elim
  · have hread : s'.read = s.read := by
      refine read_of_other env cfg hs ?_ ?_
      · rintro e rfl
        exact ha trivial
      · rintro p rfl
        exact ha trivial
    rw [notes_of_not_broadcasts ha]
    cases sub_cases env cfg hs with
    | read | poll => exact absurd trivial ha
    | subscribe h => exact subscribe_leads h
    | other h₁ h₂ h₃ => exact .of_eq (view_frame h₁ h₂ h₃ (by rw [hread]))

theorem SubInv.step (hI : SubInv s) {a : Act E} (hs : OcppClient.step env cfg s a = some s') :
    SubInv s' := by
  cases sub_cases env cfg hs with
  | subscribe h => exact hI.subscribe h
  | poll h => exact hI.subscriberPoll h
  | other h₁ h₂ h₃ => exact hI.frame h₁ h₂ h₃
  | read h =>
    have hf := readPoll_frame env cfg h
    cases readPoll_tells env cfg h with
    | quiet _ _ hsig | swap _ _ hsig => exact hI.frame hf.subscribers hsig hf.subs
    | round _ _ hsig => exact (hI.notifyAll _).frame hf.subscribers hsig hf.subs

end Views

/-! ## Every run of the client -/

section Run

variable [ProtocolError E] (env : Env R) (cfg : ClientConfig)

theorem views_of_reach (b : Broadcast) {s : State E R × List Note}
    (h : Machine.Reach ((client env cfg).observed (broadcastNotes b)) Machine.Any s) :
    Machine.Reach (machine.observed notes) Machine.Any (view b s.1, s.2) := by
  refine (h.invariant (I := fun s => Machine.Reach (machine.observed notes) Machine.Any
    (view b s.1, s.2) ∧ SubInv s.1) ⟨?_, ?_⟩ ?_).1
  · have hv : view b (State.new cfg : State E R) = .new := by
      cases b <;> simp [view, State.new, Shared.new, subAt, notifying]
    exact hv ▸ .init
  · constructor <;> simp [client, Machine.observed, State.new]
  · rintro s a s' - - hs ⟨hr, hI⟩
    obtain ⟨hs, hl⟩ := Machine.observed_step hs
    rw [hl]
    exact ⟨(view_of_step env cfg hI hs).reach hr, hI.step env cfg hs⟩

omit [ProtocolError E] in
theorem notifies_of_view {s : State E R} {n : ℕ} (h : (view .reconnect s).notifies n ≠ .idle) :
    s.read = .notifyReconnect := by
  have hn : notifying .reconnect s.read = true := by
    by_contra hn
    exact h (if_neg fun hc => hn hc.2)
  unfold notifying at hn
  split at hn
  · cases hn
  · next hr => exact hr
  · cases hn

theorem resyncs_of_reach {s : State E R × List Note}
    (h : Machine.Reach ((client env cfg).observed (broadcastNotes .reconnect)) Machine.Any s) :
    Resyncs s.1 s.2 := by
  have hk := keepsLast_of_reach (views_of_reach env cfg .reconnect h)
  refine ⟨hk.initial, fun pre n post i hlog hi => ?_⟩
  rcases hk.latest pre n post i hlog hi with h | h | ⟨h, -⟩
  · exact .inl h
  · exact .inr (.inl (Bool.and_eq_true_iff.1 h).1)
  · exact .inr (.inr (notifies_of_view h))

/-- However the accesses of `subscribe`, of `notify_all` and of the subscribers' loops are mixed,
and however long their callbacks are; and so the callbacks of `on_reconnect`, in every run of a
client. -/
theorem broadcasts_of_reach {s : Shared × List Note}
    (h : Machine.Reach (machine.observed notes) Machine.Any s) {u : State E R × List Note}
    (hu : Machine.Reach ((client env cfg).observed (broadcastNotes .reconnect)) Machine.Any u) :
    KeepsLast s.1 s.2 ∧ Resyncs u.1 u.2 :=
  ⟨keepsLast_of_reach h, resyncs_of_reach env cfg hu⟩

/-- A second `notify_all` comes while the callback of the first runs, and a second subscriber comes
in between. -/
def signalledInCallback : List Access :=
  [.subscribe 0, .sub 0, .sub 0, .sub 0, .call 0, .notify 0, .notify 0, .notify 0, .sub 0,
    .subscribe 1, .sub 1, .call 0, .sub 1, .sub 1, .notify 0, .notify 0, .notify 0, .notify 0]

/-- `on_reconnect` before a redial and after it. -/
def subscribedAcrossRedial : List (Act WireError) :=
  [.subscribe 0 .reconnect, .poll (.subscriber 0) .ready, .recv none, .poll .read .ready,
    .poll .read .timer, .poll .read (.done (.ok ())), .poll .read .ready, .poll .read .ready,
    .poll (.subscriber 0) .ready]

theorem broadcasts_of_signalledInCallback :
    ∃ s u, (machine.observed notes).run (machine.observed notes).init signalledInCallback = some s
      ∧ s.2.count (.started 0) = 1 ∧ s.1.signals 0 = true ∧ s.1.signals 1 = true
      ∧ (scenario.observed (broadcastNotes .reconnect)).run
        (scenario.observed (broadcastNotes .reconnect)).init subscribedAcrossRedial = some u
      ∧ u.2 = [.subscribed 0, .called 0, .began 0, .signalled 0 0, .ended 0, .started 0]
      ∧ KeepsLast s.1 s.2 ∧ Resyncs u.1 u.2 := by
  refine ⟨_, _, rfl, rfl, rfl, rfl, rfl, rfl, ?_⟩
  exact broadcasts_of_reach scenarioEnv scenarioConfig
    (Machine.reach_any_of_run (M := machine.observed notes) signalledInCallback rfl)
    (Machine.reach_any_of_run (M := scenario.observed (broadcastNotes .reconnect))
      subscribedAcrossRedial rfl)

end Run

end OcppClient.Broadcasts
