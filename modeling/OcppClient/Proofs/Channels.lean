import OcppClient.Channel
import OcppClient.Proofs.Registrations

/-!
# A channel loses no value and no wake-up

What was pushed is what `recv` returned, what it has in hand and what is queued, in that order. The
receiver finds the queue empty under its lock, so a value queued while it waits was pushed after
that, and the `send` that pushed it sets the signal later; and it reads the flag before it waits, so
a `close` it did not see sets the signal later too. A signal it takes sends it back to both.
-/

namespace OcppClient.Channel

open Transition

variable {T : Type} {s s' : Shared T}

/-! ## The log -/

/-- A value was pushed, or `recv` returned. -/
inductive ChanNote (T : Type)
  | pushed (v : T)
  | returned (r : Option T)

/-- What an access adds to the log. `recv` returns where it releases the lock, unless to wait. -/
def notes (s : Shared T) : Access T → List (ChanNote T)
  | .send i =>
    match s.sends i with
    | .locked v => [.pushed v]
    | _ => []
  | .recv =>
    match s.recv with
    | .popped v => [.returned (some v)]
    | .ended => [.returned none]
    | _ => []
  | _ => []

def ChanNote.push? : ChanNote T → Option T
  | .pushed v => some v
  | .returned _ => none

def ChanNote.value? : ChanNote T → Option T
  | .pushed _ => none
  | .returned r => r

def pushes (log : List (ChanNote T)) : List T := log.filterMap ChanNote.push?

/-- The values `recv` returned. -/
def received (log : List (ChanNote T)) : List T := log.filterMap ChanNote.value?

theorem pushes_concat (log : List (ChanNote T)) (e : ChanNote T) :
    pushes (log ++ [e]) = pushes log ++ e.push?.toList := by
  cases h : e.push? <;> simp [pushes, List.filterMap_append, h]

theorem received_concat (log : List (ChanNote T)) (e : ChanNote T) :
    received (log ++ [e]) = received log ++ e.value?.toList := by
  cases h : e.value? <;> simp [received, List.filterMap_append, h]

/-- No `send` and no `close` is inside its operation. -/
def Shared.Settled (s : Shared T) : Prop := (∀ i, s.sends i = .idle) ∧ ∀ i, s.closes i = .idle

structure Delivers (s : Shared T) (log : List (ChanNote T)) : Prop where
  fifo : received log <+: pushes log
  drained : ∀ a s', step s a = some s' → .returned none ∈ notes s a →
    s.closed = true ∧ s.queue = []
  woken : s.Settled → s.queue ≠ [] ∨ s.closed = true → s.recv = .waiting → s.signal = true

/-! ## The invariant -/

/-- The `send` holds the lock. -/
def SendAt.Holds : SendAt T → Prop
  | .locked _ | .pushed => True
  | _ => False

/-- The `send` has pushed its value and not set the signal. -/
def SendAt.Owes : SendAt T → Prop
  | .pushed | .unlocked => True
  | _ => False

/-- The `recv` holds the lock. -/
def RecvAt.Holds : RecvAt T → Prop
  | .locked | .popped _ | .empty | .ended | .parking => True
  | _ => False

/-- The `recv` has found the queue empty. -/
def RecvAt.SawEmpty : RecvAt T → Prop
  | .empty | .ended | .parking => True
  | _ => False

/-- The `recv` has found the flag unset. -/
def RecvAt.SawOpen : RecvAt T → Prop
  | .parking | .waiting => True
  | _ => False

theorem RecvAt.SawEmpty.holds {pc : RecvAt T} (h : pc.SawEmpty) : pc.Holds := by
  cases pc <;> trivial

@[simp] def RecvAt.inHand : RecvAt T → List T
  | .popped v => [v]
  | _ => []

structure ChanInv (s : Shared T) (log : List (ChanNote T)) : Prop where
  order : received log ++ s.recv.inHand ++ s.queue = pushes log
  sender : ∀ i, (s.sends i).Holds → s.holder = some (.sender i)
  receiver : s.recv.Holds → s.holder = some .receiver
  empty : s.recv.SawEmpty → s.queue = []
  ended : s.recv = .ended → s.closed = true
  queued : s.queue ≠ [] → s.recv = .waiting → s.signal = true ∨ ∃ i, (s.sends i).Owes
  flagged : s.closed = true → s.recv.SawOpen → s.signal = true ∨ ∃ i, s.closes i = .flagged

variable {log : List (ChanNote T)}

/-- The `send`s hold the lock as before but for the one that moved. -/
theorem holds_setSend {i j : ℕ} {pc : SendAt T} (h : ((s.setSend i pc).sends j).Holds) :
    j = i ∧ pc.Holds ∨ j ≠ i ∧ (s.sends j).Holds := by
  rcases eq_or_ne j i with rfl | hne
  · exact .inl ⟨rfl, by simpa [Shared.setSend] using h⟩
  · exact .inr ⟨hne, by simpa [Shared.setSend, hne] using h⟩

theorem owes_setSend {i : ℕ} {pc : SendAt T} (hpc : (s.sends i).Owes → pc.Owes)
    (h : ∃ j, (s.sends j).Owes) : ∃ j, ((s.setSend i pc).sends j).Owes := by
  obtain ⟨j, hj⟩ := h
  refine ⟨j, ?_⟩
  rcases eq_or_ne j i with rfl | hne
  · simpa [Shared.setSend] using hpc hj
  · simpa [Shared.setSend, hne] using hj

theorem ChanInv.call (hI : ChanInv s log) {i : ℕ} {v : T} (h : s.sends i = .idle) :
    ChanInv (s.setSend i (.lock v)) log := by
  refine ⟨hI.order, fun j hj => ?_, hI.receiver, hI.empty, hI.ended, fun hq hr => ?_, hI.flagged⟩
  · rcases holds_setSend hj with ⟨-, hj⟩ | ⟨-, hj⟩
    · exact hj.elim
    · exact hI.sender j hj
  · exact (hI.queued hq hr).imp id (owes_setSend (by rw [h]; exact id))

/-- The lock is free, and nobody's. -/
theorem ChanInv.free (hI : ChanInv s log) (hn : s.holder = none) :
    (∀ i, ¬ (s.sends i).Holds) ∧ ¬ s.recv.Holds := by
  refine ⟨fun i h => ?_, fun h => ?_⟩
  · cases hn.symm.trans (hI.sender i h)
  · cases hn.symm.trans (hI.receiver h)

/-- The lock is a `send`'s, and nobody else's. -/
theorem ChanInv.own (hI : ChanInv s log) {i : ℕ} (h : (s.sends i).Holds) :
    (∀ j, (s.sends j).Holds → j = i) ∧ ¬ s.recv.Holds := by
  have hi := hI.sender i h
  refine ⟨fun j hj => ?_, fun hr => ?_⟩
  · simpa using (hI.sender j hj).symm.trans hi
  · cases hi.symm.trans (hI.receiver hr)

theorem ChanInv.send (hI : ChanInv s log) {i : ℕ} (h : sendStep s i = some s') :
    ChanInv s' (log ++ notes s (.send i)) := by
  unfold sendStep at h
  split at h
  case h_1 => cases h
  case h_2 v hi =>
    split_ifs at h with hn
    cases h
    obtain ⟨hs, hr⟩ := hI.free hn
    simp only [notes, hi, List.append_nil]
    refine ⟨hI.order, fun j hj => ?_, fun h => absurd h hr, hI.empty, hI.ended, fun hq hw => ?_,
      hI.flagged⟩
    · rcases holds_setSend hj with ⟨rfl, -⟩ | ⟨-, hj⟩
      · rfl
      · exact absurd hj (hs j)
    · exact (hI.queued hq hw).imp id (owes_setSend fun h => by rw [hi] at h; exact h)
  case h_3 v hi =>
    cases h
    have hh : (s.sends i).Holds := by rw [hi]; trivial
    obtain ⟨hs, hr⟩ := hI.own hh
    simp only [notes, hi]
    refine ⟨?_, fun j hj => ?_, hI.receiver, fun h => absurd h.holds hr, hI.ended, fun _ _ => ?_,
      hI.flagged⟩
    · rw [received_concat, pushes_concat, ← hI.order]
      simp [ChanNote.value?, ChanNote.push?, Shared.setSend]
    · rcases holds_setSend hj with ⟨rfl, -⟩ | ⟨-, hj⟩
      · exact hI.sender j hh
      · exact hI.sender j hj
    · exact .inr ⟨i, by simp [Shared.setSend, SendAt.Owes]⟩
  case h_4 hi =>
    cases h
    have hh : (s.sends i).Holds := by rw [hi]; trivial
    obtain ⟨hs, hr⟩ := hI.own hh
    simp only [notes, hi, List.append_nil]
    refine ⟨hI.order, fun j hj => ?_, fun h => absurd h hr, hI.empty, hI.ended, fun hq hw => ?_,
      hI.flagged⟩
    · rcases holds_setSend hj with ⟨-, hj⟩ | ⟨hne, hj⟩
      · exact hj.elim
      · exact absurd (hs j hj) hne
    · exact (hI.queued hq hw).imp id (owes_setSend fun _ => trivial)
  case h_5 hi =>
    cases h
    simp only [notes, hi, List.append_nil]
    refine ⟨hI.order, fun j hj => ?_, hI.receiver, hI.empty, hI.ended, fun _ _ => .inl rfl,
      fun _ _ => .inl rfl⟩
    rcases holds_setSend hj with ⟨-, hj⟩ | ⟨-, hj⟩
    · exact hj.elim
    · exact hI.sender j hj

theorem ChanInv.close (hI : ChanInv s log) (i : ℕ) : ChanInv (closeStep s i) log := by
  unfold closeStep
  split
  · refine ⟨hI.order, hI.sender, hI.receiver, hI.empty, fun _ => rfl, hI.queued, fun _ _ => ?_⟩
    exact .inr ⟨i, by simp [Shared.setClose]⟩
  · exact ⟨hI.order, hI.sender, hI.receiver, hI.empty, hI.ended, fun _ _ => .inl rfl,
      fun _ _ => .inl rfl⟩

theorem ChanInv.recv (hI : ChanInv s log) (h : recvStep s = some s') :
    ChanInv s' (log ++ notes s .recv) := by
  have hsender : s.recv.Holds → ∀ i, ¬ (s.sends i).Holds := fun hr i hi => (hI.own hi).2 hr
  have horder := hI.order
  unfold recvStep at h
  unfold notes
  split at h
  case h_1 hr =>
    cases h
    rw [hr] at horder ⊢
    exact ⟨by simpa using horder, hI.sender, nofun, nofun, nofun, nofun, nofun⟩
  case h_2 hr =>
    split_ifs at h with hn
    cases h
    rw [hr] at horder ⊢
    refine ⟨by simpa using horder, fun i hi => ?_, fun _ => rfl, nofun, nofun, nofun, nofun⟩
    exact absurd hi ((hI.free hn).1 i)
  case h_3 hr =>
    have hh := hI.receiver (by rw [hr]; trivial)
    rw [hr] at horder ⊢
    split at h
    · next v queue hq =>
      cases h
      refine ⟨?_, hI.sender, fun _ => hh, nofun, nofun, nofun, nofun⟩
      simpa [hq] using horder
    · next hq =>
      cases h
      exact ⟨by simpa using horder, hI.sender, fun _ => hh, fun _ => hq, nofun, nofun, nofun⟩
  case h_4 hr =>
    cases h
    have hh := hI.receiver (by rw [hr]; trivial)
    have hq := hI.empty (by rw [hr]; trivial)
    rw [hr] at horder ⊢
    split_ifs with hc
    · exact ⟨by simpa using horder, hI.sender, fun _ => hh, fun _ => hq, fun _ => hc, nofun, nofun⟩
    · exact ⟨by simpa using horder, hI.sender, fun _ => hh, fun _ => hq, nofun, nofun,
        fun h => absurd h hc⟩
  case h_5 v hr =>
    cases h
    have hs := hsender (by rw [hr]; trivial)
    rw [hr] at horder ⊢
    refine ⟨?_, fun i hi => absurd hi (hs i), nofun, nofun, nofun, nofun, nofun⟩
    rw [received_concat, pushes_concat]
    simpa [ChanNote.value?, ChanNote.push?] using horder
  case h_6 hr =>
    cases h
    have hs := hsender (by rw [hr]; trivial)
    rw [hr] at horder ⊢
    refine ⟨?_, fun i hi => absurd hi (hs i), nofun, nofun, nofun, nofun, nofun⟩
    rw [received_concat, pushes_concat]
    simpa [ChanNote.value?, ChanNote.push?] using horder
  case h_7 hr =>
    cases h
    have hs := hsender (by rw [hr]; trivial)
    have hq := hI.empty (by rw [hr]; trivial)
    have hf := fun hc => hI.flagged hc (by rw [hr]; trivial)
    rw [hr] at horder ⊢
    exact ⟨by simpa using horder, fun i hi => absurd hi (hs i), nofun, nofun, nofun,
      fun h => absurd hq h, fun hc _ => hf hc⟩
  case h_8 hr =>
    split_ifs at h
    cases h
    rw [hr] at horder ⊢
    exact ⟨by simpa using horder, hI.sender, nofun, nofun, nofun, nofun, nofun⟩

theorem ChanInv.drop (hI : ChanInv s log) (h : s.recv = .lock ∨ s.recv = .waiting) :
    ChanInv { s with recv := .away } log := by
  refine ⟨?_, hI.sender, nofun, nofun, nofun, nofun, nofun⟩
  have horder := hI.order
  rcases h with h | h <;> rw [h] at horder <;> exact horder

theorem ChanInv.step (hI : ChanInv s log) {a : Access T} (h : Channel.step s a = some s') :
    ChanInv s' (log ++ notes s a) := by
  cases a with
  | call i v =>
    simp only [Channel.step] at h
    split at h
    · next hi =>
      cases h
      simpa [notes] using hI.call hi
    · cases h
  | send i => exact hI.send h
  | close i =>
    cases h
    simpa [notes] using hI.close i
  | recv => exact hI.recv h
  | drop =>
    simp only [Channel.step] at h
    split at h
    · next hr =>
      cases h
      simpa [notes] using hI.drop (.inl hr)
    · next hr =>
      cases h
      simpa [notes] using hI.drop (.inr hr)
    · cases h

/-! ## Every interleaving -/

theorem ChanInv.new : ChanInv (view (.new : Chan T) .away) [] := by
  constructor <;> simp [view, received, pushes, Chan.new, SendAt.Holds, RecvAt.Holds,
    RecvAt.SawEmpty]

theorem chanInv_of_reach {P : Shared T × List (ChanNote T) → Access T → Prop}
    {s : Shared T × List (ChanNote T)} (h : Machine.Reach ((machine T).observed notes) P s) :
    ChanInv s.1 s.2 := by
  refine h.invariant (I := fun s => ChanInv s.1 s.2) .new fun s a s' _ _ hs hI => ?_
  obtain ⟨hs, hl⟩ := Machine.observed_step hs
  exact hl ▸ hI.step hs

theorem ChanInv.drained (hI : ChanInv s log) {a : Access T} (hn : .returned none ∈ notes s a) :
    s.closed = true ∧ s.queue = [] := by
  have hr : s.recv = .ended := by
    unfold notes at hn
    split at hn
    · split at hn <;> simp at hn
    · split at hn
      · simp at hn
      · next hr => exact hr
      · simp at hn
    · simp at hn
  exact ⟨hI.ended hr, hI.empty (by rw [hr]; trivial)⟩

theorem ChanInv.woken (hI : ChanInv s log) (hs : s.Settled)
    (h : s.queue ≠ [] ∨ s.closed = true) (hw : s.recv = .waiting) : s.signal = true := by
  rcases h with hq | hc
  · rcases hI.queued hq hw with hsig | ⟨i, hi⟩
    · exact hsig
    · rw [hs.1 i] at hi
      exact hi.elim
  · rcases hI.flagged hc (by rw [hw]; trivial) with hsig | ⟨i, hi⟩
    · exact hsig
    · cases (hs.2 i).symm.trans hi

/-- However the accesses of the senders, of `close` and of the receiver are mixed. -/
theorem delivers_of_reach {s : Shared T × List (ChanNote T)}
    (h : Machine.Reach ((machine T).observed notes) Machine.Any s) : Delivers s.1 s.2 := by
  have hI := chanInv_of_reach h
  refine ⟨?_, fun a _ _ hn => hI.drained hn, hI.woken⟩
  rw [← hI.order, List.append_assoc]
  exact List.prefix_append _ _

/-- The receiver finds the queue empty and the flag unset, and the channel is closed before it
waits. -/
def closedWhileParking : List (Access ℕ) :=
  [.call 0 7, .send 0, .send 0, .recv, .send 0, .recv, .recv, .send 0, .recv, .recv, .recv, .recv,
    .recv, .recv, .recv, .recv, .recv, .recv, .close 0, .recv, .close 0]

theorem delivers_of_closedWhileParking :
    ∃ s, ((machine ℕ).observed notes).run ((machine ℕ).observed notes).init closedWhileParking
        = some s
      ∧ s.2 = [.pushed 7, .returned (some 7)] ∧ s.1.recv = .waiting ∧ s.1.closed = true
      ∧ s.1.signal = true ∧ Delivers s.1 s.2 :=
  ⟨_, rfl, rfl, rfl, rfl, rfl, delivers_of_reach
    (Machine.reach_any_of_run (M := (machine ℕ).observed notes) closedWhileParking rfl)⟩

/-! ## The client takes these accesses -/

/-- Accesses lead from one state of the channel to the other. -/
def Leads (s s' : Shared T) : Prop := ∃ as, (machine T).run s as = some s'

theorem Leads.refl (s : Shared T) : Leads s s := ⟨[], rfl⟩

theorem Leads.trans {s s' s'' : Shared T} (h₁ : Leads s s') (h₂ : Leads s' s'') :
    Leads s s'' := by
  obtain ⟨as, h₁⟩ := h₁
  obtain ⟨bs, h₂⟩ := h₂
  exact ⟨as ++ bs, Machine.run_append h₁ h₂⟩

theorem Leads.reach (h : Leads s s') (hs : Machine.Reach (machine T) Machine.Any s) :
    Machine.Reach (machine T) Machine.Any s' := by
  obtain ⟨as, h⟩ := h
  exact Machine.reach_of_run as hs (Machine.meets_any as s) h

section Operations

variable {c : Chan T}

theorem send_leads (c : Chan T) (pc : RecvAt T) (v : T) :
    Leads (view c pc) (view (c.send v) pc) := by
  refine ⟨[.call 0 v, .send 0, .send 0, .send 0, .send 0], ?_⟩
  simp [Machine.run, machine, step, sendStep, view, Shared.setSend, Chan.send]

theorem close_leads (c : Chan T) (pc : RecvAt T) : Leads (view c pc) (view c.close pc) := by
  refine ⟨[.close 0, .close 0], ?_⟩
  simp [Machine.run, machine, step, closeStep, view, Shared.setClose, Chan.close]

theorem call_leads (c : Chan T) : Leads (view c .away) (view c .lock) := ⟨[.recv], rfl⟩

theorem value_leads {v : T} {rest : Chan T} (h : c.recv = .value v rest) :
    Leads (view c .lock) (view rest .away) := by
  unfold Chan.recv at h
  split at h
  · next hq =>
    cases h
    refine ⟨[.recv, .recv, .recv], ?_⟩
    simp [Machine.run, machine, step, recvStep, view, hq]
  · split_ifs at h

theorem none_leads (h : c.recv = .none) : Leads (view c .lock) (view c .away) := by
  obtain ⟨hc, hq⟩ := Chan.recv_none h
  refine ⟨[.recv, .recv, .recv, .recv], ?_⟩
  simp [Machine.run, machine, step, recvStep, view, hq, hc]

theorem wait_leads (h : c.recv = .wait) : Leads (view c .lock) (view c .waiting) := by
  obtain ⟨hc, hq⟩ := Chan.recv_wait h
  refine ⟨[.recv, .recv, .recv, .recv], ?_⟩
  simp [Machine.run, machine, step, recvStep, view, hq, hc]

theorem take_leads (h : c.signal = true) : Leads (view c .waiting) (view c.take .lock) := by
  refine ⟨[.recv], ?_⟩
  simp [Machine.run, machine, step, recvStep, view, h, Chan.take]

theorem drop_leads (c : Chan T) : Leads (view c .waiting) (view c .away) := ⟨[.drop], rfl⟩

end Operations

/-- Each channel of a table goes on by accesses of its own. -/
def AllLead {κ : Type} (chans : κ → Chan T) (pcs : κ → RecvAt T) (chans' : κ → Chan T)
    (pcs' : κ → RecvAt T) : Prop :=
  ∀ ch, Leads (view (chans ch) (pcs ch)) (view (chans' ch) (pcs' ch))

section Tables

variable {κ : Type} [DecidableEq κ] {r : Registry κ T} {pcs : κ → RecvAt T}

omit [DecidableEq κ] in
theorem AllLead.refl (r : Registry κ T) (pcs : κ → RecvAt T) : AllLead r.chans pcs r.chans pcs :=
  fun _ => .refl _

/-- One channel and the `recv` that reads it go on. -/
theorem AllLead.modify {ch : κ} {f : Chan T → Chan T} {pc : RecvAt T}
    (h : Leads (view (r.chans ch) (pcs ch)) (view (f (r.chans ch)) pc)) :
    AllLead r.chans pcs (r.modify ch f).chans (Function.update pcs ch pc) := by
  intro x
  rw [Registry.modify_chans]
  rcases eq_or_ne x ch with rfl | hne
  · rw [if_pos rfl, Function.update_self]
    exact h
  · rw [if_neg hne, Function.update_of_ne hne]
    exact .refl _

theorem modify_id (r : Registry κ T) (ch : κ) : r = r.modify ch id := by
  simp [Registry.modify]

theorem AllLead.send (r : Registry κ T) (pcs : κ → RecvAt T) (ch : κ) (v : T) :
    AllLead r.chans pcs (r.modify ch fun c => c.send v).chans pcs := by
  have hm := AllLead.modify (f := fun c => c.send v) (send_leads (r.chans ch) (pcs ch) v)
  rwa [Function.update_eq_self] at hm

/-- An entry is made, and the channel it replaces closed. -/
theorem AllLead.insert {action : String} {ch : κ} {pc : RecvAt T}
    (h : ∀ c, Leads (view c (pcs ch)) (view c pc)) :
    AllLead r.chans pcs (r.insert action ch).chans (Function.update pcs ch pc) := by
  have hclose : ∀ x, Leads (view (r.chans x) (pcs x))
      (view ((r.insert action ch).chans x) (pcs x)) := fun x => by
    rw [Registry.insert_chans]
    split_ifs
    · exact close_leads _ _
    · exact .refl _
  intro x
  refine (hclose x).trans ?_
  rcases eq_or_ne x ch with rfl | hne
  · rw [Function.update_self]
    exact h _
  · rw [Function.update_of_ne hne]
    exact .refl _

end Tables

/-! ### Requests -/

section Requests

variable {E R : Type} {u u' : State E R}

theorem requestAt_setHandler (o : ℕ) (pc : HandlerPc) :
    requestAt { u with handlers := Function.update u.handlers o pc }
      = Function.update (requestAt u) (.on o) (handlerAt pc) := by
  funext ch
  rcases ch with o' | w
  · rcases eq_or_ne o' o with rfl | hne <;> simp [requestAt, *]
  · simp [requestAt]

theorem requestAt_setWaitFor (w : ℕ) (pc : WaitForPc E) :
    requestAt (u.setWaitFor w pc) = Function.update (requestAt u) (.waitFor w) (waitForAt pc) := by
  funext ch
  rcases ch with o | w'
  · simp [requestAt, State.setWaitFor]
  · rcases eq_or_ne w' w with rfl | hne <;> simp [requestAt, State.setWaitFor, *]

/-- The channels of requests go on by accesses of their own. -/
def RequestsLead (u u' : State E R) : Prop :=
  AllLead u.requests.chans (requestAt u) u'.requests.chans (requestAt u')

theorem RequestsLead.frame (hr : u'.requests = u.requests) (hh : u'.handlers = u.handlers)
    (hw : u'.waitFors = u.waitFors) : RequestsLead u u' := by
  have ha : requestAt u' = requestAt u := by
    funext ch
    cases ch <;> simp [requestAt, hh, hw]
  unfold RequestsLead
  rw [hr, ha]
  exact .refl _ _

/-- The task of a handler goes on at its channel. -/
theorem RequestsLead.handler {o : ℕ} {pc₀ pc : HandlerPc} {f : Chan (String × Value) → Chan _}
    (hr : u'.requests = u.requests.modify (.on o) f)
    (hh : u'.handlers = Function.update u.handlers o pc) (hw : u'.waitFors = u.waitFors)
    (hpc : u.handlers o = pc₀)
    (h : Leads (view (u.requests.chans (.on o)) (handlerAt pc₀))
      (view (f (u.requests.chans (.on o))) (handlerAt pc))) : RequestsLead u u' := by
  subst hpc
  have ha : requestAt u' = Function.update (requestAt u) (.on o) (handlerAt pc) := by
    rw [← requestAt_setHandler]
    funext ch
    cases ch <;> simp [requestAt, hh, hw]
  unfold RequestsLead
  rw [hr, ha]
  exact .modify h

/-- The task of a handler goes on and leaves its channel as it is. -/
theorem RequestsLead.handlerOnly {o : ℕ} {pc₀ pc : HandlerPc} (hr : u'.requests = u.requests)
    (hh : u'.handlers = Function.update u.handlers o pc) (hw : u'.waitFors = u.waitFors)
    (hpc : u.handlers o = pc₀)
    (h : Leads (view (u.requests.chans (.on o)) (handlerAt pc₀))
      (view (u.requests.chans (.on o)) (handlerAt pc))) : RequestsLead u u' :=
  .handler (hr.trans (modify_id _ _)) hh hw hpc h

theorem RequestsLead.waitFor {w : ℕ} {pc₀ pc : WaitForPc E} {f : Chan (String × Value) → Chan _}
    (hr : u'.requests.chans = (u.requests.modify (.waitFor w) f).chans)
    (hh : u'.handlers = u.handlers) (hw : u'.waitFors = Function.update u.waitFors w pc)
    (hpc : u.waitFors w = pc₀)
    (h : Leads (view (u.requests.chans (.waitFor w)) (waitForAt pc₀))
      (view (f (u.requests.chans (.waitFor w))) (waitForAt pc))) : RequestsLead u u' := by
  subst hpc
  have ha : requestAt u' = Function.update (requestAt u) (.waitFor w) (waitForAt pc) := by
    rw [← requestAt_setWaitFor]
    funext ch
    cases ch <;> simp [requestAt, State.setWaitFor, hh, hw]
  unfold RequestsLead
  rw [hr, ha]
  exact .modify h

theorem RequestsLead.waitForOnly {w : ℕ} {pc₀ pc : WaitForPc E}
    (hr : u'.requests.chans = u.requests.chans) (hh : u'.handlers = u.handlers)
    (hw : u'.waitFors = Function.update u.waitFors w pc) (hpc : u.waitFors w = pc₀)
    (h : Leads (view (u.requests.chans (.waitFor w)) (waitForAt pc₀))
      (view (u.requests.chans (.waitFor w)) (waitForAt pc))) : RequestsLead u u' :=
  .waitFor (hr.trans (congrArg _ (modify_id _ _))) hh hw hpc h

theorem handler_leads_lock {c : Chan T} (pc : HandlerPc) :
    Leads (view c (handlerAt pc)) (view c .lock) := by
  cases pc with
  | recv => exact .refl _
  | wait => exact (drop_leads c).trans (call_leads c)
  | absent | callback | lockSink | sending | exited => exact call_leads c

theorem onPoll_leads {o : ℕ} {p : Poll} (h : onPoll u o p = some u') : RequestsLead u u' := by
  unfold onPoll at h
  split at h
  · cases h
    have ha := requestAt_setHandler (u := u) o .recv
    unfold RequestsLead
    exact ha ▸ .insert fun c => handler_leads_lock (u.handlers o)
  · cases h

variable [ProtocolError E] (env : Env R)

theorem handleCall_leads (c : Chan T) (action messageId : String) (payload : Value) :
    Leads (view c .away)
      (view c (handlerAt (handleCall (E := E) env action messageId payload))) := by
  unfold handleCall respondPc
  split
  · exact .refl _
  · split
    · exact .refl _
    · exact call_leads c

theorem handlerPoll_leads {o : ℕ} {p : Poll} (h : handlerPoll env u o p = some u') :
    RequestsLead u u' := by
  unfold handlerPoll at h
  split at h
  case h_1 action hpc _ =>
    cases h
    unfold handlerRecv
    split
    · next messageId payload rest hr =>
      refine .handler (f := fun _ => rest) rfl rfl rfl hpc ?_
      exact (value_leads hr).trans (handleCall_leads env rest action messageId payload)
    · next hr =>
      exact .handlerOnly rfl rfl rfl hpc (none_leads hr)
    · next hr =>
      exact .handlerOnly rfl rfl rfl hpc (wait_leads hr)
  case h_2 hpc =>
    split_ifs at h with hs
    cases h
    refine .handler (f := .take) rfl rfl rfl hpc ?_
    exact take_leads hs
  case h_3 hpc =>
    obtain ⟨-, rfl⟩ := issue_map h
    exact .handlerOnly rfl rfl rfl hpc (.refl _)
  case h_4 =>
    obtain ⟨-, rfl⟩ := pend_eq h
    exact .frame rfl rfl rfl
  case h_5 hpc =>
    cases h
    exact .handlerOnly rfl rfl rfl hpc (call_leads _)
  case h_6 => cases h

theorem respond_leads {o : ℕ} {r : Except E (Except JsonError Value)}
    (h : handlerRespond env u o r = some u') : RequestsLead u u' := by
  unfold handlerRespond at h
  split at h
  · next messageId hpc =>
    cases h
    refine .handlerOnly rfl rfl rfl hpc ?_
    unfold respondPc
    split
    · exact .refl _
    · exact call_leads _
  · cases h

omit [ProtocolError E] in
theorem waitFor_leads {w : ℕ} {action : String} (h : waitFor u w action = some u') :
    RequestsLead u u' := by
  unfold OcppClient.waitFor at h
  split at h
  · next hpc =>
    cases h
    exact .waitForOnly rfl rfl rfl hpc (.refl _)
  · cases h

omit [ProtocolError E] in
theorem waitForPoll_leads {w : ℕ} {p : Poll} (h : waitForPoll env u w p = some u') :
    RequestsLead u u' := by
  unfold waitForPoll at h
  split at h
  case h_1 action hpc =>
    cases h
    have ha := requestAt_setWaitFor (u := u) w (.recv action)
    unfold RequestsLead
    refine ha ▸ .insert fun c => ?_
    rw [requestAt, hpc]
    exact call_leads c
  case h_2 action hpc =>
    cases h
    unfold waitForRecv
    split
    · next messageId payload rest hr =>
      refine .waitFor (f := fun _ => rest) rfl rfl rfl hpc ?_
      refine (value_leads hr).trans ?_
      split <;> exact .refl _
    · next hr =>
      exact .waitForOnly rfl rfl rfl hpc (none_leads hr)
    · next hr =>
      exact .waitForOnly rfl rfl rfl hpc (wait_leads hr)
  case h_3 hpc =>
    split_ifs at h with hs
    cases h
    refine .waitFor (f := .take) rfl rfl rfl hpc ?_
    exact take_leads hs
  case h_4 hpc =>
    split_ifs at h
    cases h
    exact .waitForOnly rfl rfl rfl hpc (drop_leads _)
  case h_5 hpc =>
    obtain ⟨-, rfl⟩ := issue_map h
    exact .waitForOnly rfl rfl rfl hpc (.refl _)
  case h_6 =>
    obtain ⟨-, rfl⟩ := pend_eq h
    exact .frame rfl rfl rfl
  case h_7 hpc =>
    cases h
    exact .waitForOnly rfl rfl rfl hpc (.refl _)
  case h_8 hpc =>
    cases h
    exact .waitForOnly (Registry.removeOwn_chans _ _) rfl rfl hpc (.refl _)
  case h_9 => cases h

theorem waitForRespond_leads {w : ℕ} {r : Except E (Except JsonError Value)}
    (h : waitForRespond env u w r = some u') : RequestsLead u u' := by
  unfold waitForRespond at h
  split at h
  · next hpc =>
    split at h
    · cases h
      exact .waitForOnly rfl rfl rfl hpc (.refl _)
    · cases h
      exact .waitForOnly rfl rfl rfl hpc (.refl _)
  · cases h

theorem requests_of_step (cfg : ClientConfig) {a : Act E}
    (hs : OcppClient.step env cfg u a = some u') : RequestsLead u u' := by
  cases queue_cases env cfg hs with
  | read h =>
    cases h with
    | frame hf => exact .frame hf.requests hf.handlers hf.waitFors
    | lookup hf => exact .frame hf.requests hf.handlers hf.waitFors
    | push _ h =>
      subst h
      exact AllLead.send _ _ _ _
  | handlers h =>
    cases h with
    | on h =>
      obtain ⟨_, rfl⟩ := on_footprint h
      exact .frame rfl rfl rfl
    | onPoll h => exact onPoll_leads h
    | handlerPoll h => exact handlerPoll_leads env h
    | respond h => exact respond_leads env h
    | waitFor h => exact waitFor_leads h
    | waitForPoll h => exact waitForPoll_leads env h
    | waitForRespond h => exact waitForRespond_leads env h

end Requests

/-! ### Notifications -/

section Notifications

variable {E R : Type} {u u' : State E R}

theorem notificationAt_setHandler (o : ℕ) (pc : NotificationHandlerPc) :
    notificationAt (u.setNotificationHandler o pc)
      = Function.update (notificationAt u) o (notificationHandlerAt pc) :=
  update_comp u.notificationHandlers notificationHandlerAt o pc

/-- The channels of notifications go on by accesses of their own. -/
def NotificationsLead (u u' : State E R) : Prop :=
  AllLead u.notifications.chans (notificationAt u) u'.notifications.chans (notificationAt u')

theorem NotificationsLead.frame (hn : u'.notifications = u.notifications)
    (hh : u'.notificationHandlers = u.notificationHandlers) : NotificationsLead u u' := by
  have ha : notificationAt u' = notificationAt u := by
    funext o
    simp only [notificationAt, hh]
  unfold NotificationsLead
  rw [hn, ha]
  exact .refl _ _

theorem NotificationsLead.handler {o : ℕ} {pc₀ pc : NotificationHandlerPc}
    {f : Chan Value → Chan Value} (hn : u'.notifications = u.notifications.modify o f)
    (hh : u'.notificationHandlers = Function.update u.notificationHandlers o pc)
    (hpc : u.notificationHandlers o = pc₀)
    (h : Leads (view (u.notifications.chans o) (notificationHandlerAt pc₀))
      (view (f (u.notifications.chans o)) (notificationHandlerAt pc))) :
    NotificationsLead u u' := by
  subst hpc
  have ha : notificationAt u'
      = Function.update (notificationAt u) o (notificationHandlerAt pc) := by
    rw [← notificationAt_setHandler]
    funext o'
    simp only [notificationAt, State.setNotificationHandler, hh]
  unfold NotificationsLead
  rw [hn, ha]
  exact .modify h

theorem NotificationsLead.handlerOnly {o : ℕ} {pc₀ pc : NotificationHandlerPc}
    (hn : u'.notifications = u.notifications)
    (hh : u'.notificationHandlers = Function.update u.notificationHandlers o pc)
    (hpc : u.notificationHandlers o = pc₀)
    (h : Leads (view (u.notifications.chans o) (notificationHandlerAt pc₀))
      (view (u.notifications.chans o) (notificationHandlerAt pc))) : NotificationsLead u u' :=
  .handler (hn.trans (modify_id _ _)) hh hpc h

theorem onNotificationPoll_leads {o : ℕ} {p : Poll} (h : onNotificationPoll u o p = some u') :
    NotificationsLead u u' := by
  unfold onNotificationPoll at h
  split at h
  · cases h
    have ha := notificationAt_setHandler (u := u) o .recv
    unfold NotificationsLead
    refine ha ▸ .insert fun c => ?_
    unfold notificationAt
    cases u.notificationHandlers o with
    | recv => exact .refl _
    | wait => exact (drop_leads c).trans (call_leads c)
    | absent | callback | exited => exact call_leads c
  · cases h

theorem notificationHandlerPoll_leads (env : Env R) {o : ℕ} {p : Poll}
    (h : notificationHandlerPoll env u o p = some u') : NotificationsLead u u' := by
  unfold notificationHandlerPoll at h
  split at h
  case h_1 hpc _ =>
    cases h
    unfold notificationHandlerRecv
    split
    · next payload rest hr =>
      refine .handler (f := fun _ => rest) rfl rfl hpc ?_
      refine (value_leads hr).trans ?_
      split
      · exact .refl _
      · exact call_leads rest
    · next hr =>
      exact .handlerOnly rfl rfl hpc (none_leads hr)
    · next hr =>
      exact .handlerOnly rfl rfl hpc (wait_leads hr)
  case h_2 hpc =>
    split_ifs at h with hs
    cases h
    refine .handler (f := .take) rfl rfl hpc ?_
    exact take_leads hs
  case h_3 hpc =>
    cases h
    exact .handlerOnly rfl rfl hpc (call_leads _)
  case h_4 => cases h

theorem notifications_of_step [ProtocolError E] (env : Env R) (cfg : ClientConfig) {a : Act E}
    (hs : OcppClient.step env cfg u a = some u') : NotificationsLead u u' := by
  cases background_cases env cfg hs with
  | onNotificationPoll h => exact onNotificationPoll_leads h
  | notificationHandlerPoll h => exact notificationHandlerPoll_leads env h
  | onNotification h =>
    obtain ⟨_, rfl⟩ := onNotification_footprint h
    exact .frame rfl rfl
  | subscribe h =>
    obtain ⟨_, rfl⟩ := subscribe_footprint h
    exact .frame rfl rfl
  | subscriberPoll h =>
    obtain ⟨_, _, _, rfl⟩ := subscriberPoll_footprint h
    exact .frame rfl rfl
  | read h =>
    have hh := (readPoll_frame env cfg h).notificationHandlers
    rcases readPoll_notifications env cfg h with hn | ⟨ch, payload, -, hn⟩
    · exact .frame hn hh
    · have ha : notificationAt u' = notificationAt u := by
        funext o
        simp only [notificationAt, hh]
      unfold NotificationsLead
      rw [hn, ha]
      exact .send _ _ _ _
  | other h => exact .frame h.notifications h.notificationHandlers

end Notifications

/-! ### Every run of the client -/

section Run

variable {E R : Type} [ProtocolError E] (env : Env R) (cfg : ClientConfig) {u : State E R}

/-- Each channel of a client is at every moment one that its accesses lead to. -/
theorem views_of_reach {P : State E R → Act E → Prop} (h : Machine.Reach (client env cfg) P u) :
    (∀ ch, Machine.Reach (machine _) Machine.Any (requestView u ch))
      ∧ ∀ o, Machine.Reach (machine _) Machine.Any (notificationView u o) := by
  refine h.invariant (I := fun u => (∀ ch, Machine.Reach (machine _) Machine.Any (requestView u ch))
    ∧ ∀ o, Machine.Reach (machine _) Machine.Any (notificationView u o)) ?_ ?_
  · refine ⟨fun ch => ?_, fun o => .init⟩
    cases ch <;> exact .init
  · rintro u a u' - - hs ⟨hr, hn⟩
    exact ⟨fun ch => (requests_of_step env cfg hs ch).reach (hr ch),
      fun o => (notifications_of_step env cfg hs o).reach (hn o)⟩

theorem view_woken {c : Chan T} {pc : RecvAt T}
    (h : Machine.Reach (machine T) Machine.Any (view c pc)) (hw : pc = .waiting)
    (hc : c.queue ≠ [] ∨ c.closed = true) : c.signal = true := by
  obtain ⟨log, h⟩ := h.observe notes
  exact (chanInv_of_reach h).woken ⟨fun _ => rfl, fun _ => rfl⟩ hc hw

/-- No handler and no `wait_for` sleeps through a message in its queue or the end of its channel. -/
theorem readers_woken_of_reach {P : State E R → Act E → Prop}
    (h : Machine.Reach (client env cfg) P u) :
    (∀ ch, requestAt u ch = .waiting →
        (u.requests.chans ch).queue ≠ [] ∨ (u.requests.chans ch).closed = true →
        (u.requests.chans ch).signal = true)
      ∧ ∀ o, notificationAt u o = .waiting →
        (u.notifications.chans o).queue ≠ [] ∨ (u.notifications.chans o).closed = true →
        (u.notifications.chans o).signal = true :=
  ⟨fun ch => view_woken ((views_of_reach env cfg h).1 ch),
    fun o => view_woken ((views_of_reach env cfg h).2 o)⟩

end Run

end OcppClient.Channel
