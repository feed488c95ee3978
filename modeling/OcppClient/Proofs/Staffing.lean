import OcppClient.EmbassyRuntime
import OcppClient.Proofs.Registrations

/-!
# Registered channels and the tasks that read them

On `EmbassyExecutor` a handler whose `spawn` finds every slot taken is never run, while its channel
stays registered. Where the registrations of handlers find a slot free, the channels registered are
read: what a desk holds for an action has a task that has not left (`Desk.Staffed`), and only a
future that has finished loses its slot.
-/

namespace OcppClient

open Transition

variable {E R : Type}

/-! ## Pools -/

namespace TaskPool

variable {p : TaskPool} {t u : Task}

theorem mem_reap {finished : Task → Bool} :
    t ∈ (p.reap finished).tasks ↔ t ∈ p.tasks ∧ finished t = false := by
  simp [reap]

theorem mem_spawn_of_mem (h : t ∈ p.tasks) : t ∈ (p.spawn u).tasks := by
  unfold spawn
  split_ifs
  · exact List.mem_append_left _ h
  · exact h

theorem mem_spawn_self (h : p.tasks.length < poolSize) : t ∈ (p.spawn t).tasks := by
  simp [spawn, h]

end TaskPool

/-! ## Desks with their tasks -/

section Desks

variable {κ T : Type} [DecidableEq κ] {d d' : Desk κ T} {log notes : List (DeskEvent κ)}

/-- A reader that has a channel for an action came with the entry, or had it before. -/
theorem DeskStep.held_back (h : DeskStep d d' notes) {ch : κ} {action : String}
    (hs : d'.standing ch = .holds action) (hl : d'.reader ch ≠ .left) :
    notes = [.registered action ch] ∨ d.standing ch = .holds action ∧ d.reader ch ≠ .left := by
  have hback : ∀ {x : κ} {r : Reader}, d.reader x ≠ .left →
      Function.update d.reader x r ch ≠ .left → d.reader ch ≠ .left := by
    intro x r hx h
    rcases eq_or_ne ch x with rfl | hne
    · exact hx
    · simpa [hne] using h
  cases h with
  | rest => exact .inr ⟨hs, hl⟩
  | send => exact .inr ⟨hs, hl⟩
  | take hl₀ | waits hl₀ | wakes hl₀ | works hl₀ => exact .inr ⟨hs, hback hl₀ hl⟩
  | @leaves x hr =>
    have hne : ch ≠ x := by
      rintro rfl
      simp at hl
    exact .inr ⟨hs, by simpa [hne] using hl⟩
  | @register a x hf =>
    rcases eq_or_ne ch x with rfl | hne
    · obtain rfl : a = action := by simpa using hs
      exact .inl rfl
    · exact .inr ⟨by simpa [hne] using hs, by simpa [hne] using hl⟩
  | @unregister a x h =>
    have hne : ch ≠ x := by
      rintro rfl
      simp at hs
    exact .inr ⟨by simpa [hne] using hs, hl⟩

/-- Every channel held for an action whose reader has not left has its task in the pool. -/
def Desk.Staffed (d : Desk κ T) (task : κ → Option Task) (p : TaskPool) : Prop :=
  ∀ ch action, d.standing ch = .holds action → d.reader ch ≠ .left → ∀ t ∈ task ch, t ∈ p.tasks

theorem Desk.Staffed.step {task : κ → Option Task} {p p' : TaskPool} (hS : d.Staffed task p)
    (h : DeskStep d d' notes)
    (hnew : ∀ ch action, notes = [.registered action ch] → d'.reader ch ≠ .left →
      ∀ t ∈ task ch, t ∈ p'.tasks)
    (hold : ∀ ch, d'.reader ch ≠ .left → ∀ t ∈ task ch, t ∈ p.tasks → t ∈ p'.tasks) :
    d'.Staffed task p' := by
  intro ch action hs hl t ht
  rcases h.held_back hs hl with hn | ⟨hs₀, hl₀⟩
  · exact hnew ch action hn hl t ht
  · exact hold ch hl t ht (hS ch action hs₀ hl₀ t ht)

omit [DecidableEq κ] in
theorem DeskInv.staffed_entry {task : κ → Option Task} {p : TaskPool} (hI : DeskInv d log)
    (hS : d.Staffed task p) {action : String} {ch : κ}
    (h : d.registry.senders action = some ch) : ∀ t ∈ task ch, t ∈ p.tasks := by
  refine hS ch action (hI.owner action ch h) fun hl => ?_
  have hc := hI.left ch hl
  rw [hI.opened action ch h] at hc
  cases hc

end Desks

/-! ## A client and its pool -/

/-- The task that `on` spawns for its channel; `wait_for` reads its own. -/
def ChanId.task : ChanId → Option Task := ChanId.elim (fun o => some (.handler o)) fun _ => none

def notificationTask (o : ℕ) : Option Task := some (.notificationHandler o)

/-- The tasks that read a registered channel. -/
def Task.readsChannel : Task → Bool
  | .handler _ | .notificationHandler _ => true
  | _ => false

/-- Where a step spawns a handler, a slot is free. -/
def FindsSlot (s : Embedded E R) (a : Act E) : Prop :=
  ∀ t ∈ s.state.spawns a, t.readsChannel = true → s.pool.tasks.length < poolSize

namespace Embedded

/-- A future that was spawned and given a slot, and has not finished. -/
def Running (s : Embedded E R) (t : Task) : Prop :=
  t ∈ s.pool.tasks ∧ s.state.finished t = false

/-- Who reads a channel: the handler that `on` spawned with it, or the `wait_for` that made it,
up to its return. -/
def IsRead (s : Embedded E R) : ChanId → Prop
  | .on o => s.Running (.handler o)
  | .waitFor w => ∀ outcome, s.state.waitFors w ≠ .returned outcome

/-- Every channel registered is read. -/
structure AllRead (s : Embedded E R) : Prop where
  requests : ∀ action ch, s.state.requests.senders action = some ch → s.IsRead ch
  notifications : ∀ action o, s.state.notifications.senders action = some o →
    s.Running (.notificationHandler o)

/-- Both desks are staffed, and nothing finished has a slot. -/
structure Staffed (s : Embedded E R) : Prop where
  requests : s.state.requestDesk.Staffed ChanId.task s.pool
  notifications : s.state.notificationDesk.Staffed notificationTask s.pool
  running : ∀ t ∈ s.pool.tasks, s.state.finished t = false

end Embedded

section Run

variable {s s' : State E R} {a : Act E}

theorem spawns_of_requestFiling {o : ℕ} {action : String}
    (h : s.requestFilings a = [.registered action (.on o)]) :
    s.spawns a = some (.handler o) := by
  unfold State.requestFilings at h
  split at h
  · split at h <;> cases h
    next hlock =>
    simp only [State.spawns, hlock]
  · split at h
    · cases h
    · split_ifs at h
      cases h
    · cases h
  · cases h

theorem spawns_of_notificationFiling {o : ℕ} {action : String}
    (h : s.notificationFilings a = [.registered action o]) :
    s.spawns a = some (.notificationHandler o) := by
  unfold State.notificationFilings at h
  split at h
  · split at h <;> cases h
    next hlock =>
    simp only [State.spawns, hlock]
  · cases h

theorem finished_handler {o : ℕ} (h : s.requestDesk.reader (.on o) ≠ .left) :
    s.finished (.handler o) = false := by
  simp only [State.requestDesk, ChanId.elim] at h
  unfold State.finished
  cases hpc : s.handlers o <;> simp [hpc, HandlerPc.reader] at h ⊢

theorem finished_notificationHandler {o : ℕ} (h : s.notificationDesk.reader o ≠ .left) :
    s.finished (.notificationHandler o) = false := by
  simp only [State.notificationDesk] at h
  unfold State.finished
  cases hpc : s.notificationHandlers o <;> simp [hpc, NotificationHandlerPc.reader] at h ⊢

variable [ProtocolError E] {env : Env R} {cfg : ClientConfig}

theorem Embedded.step_eq {e e' : Embedded E R} (h : e.step env cfg a = some e') :
    OcppClient.step env cfg e.state a = some e'.state
      ∧ e'.pool = ((e.state.spawns a).elim e.pool e.pool.spawn).reap e'.state.finished := by
  unfold Embedded.step at h
  split_ifs at h
  obtain ⟨s', hs, rfl⟩ := Option.map_eq_some_iff.1 h
  exact ⟨hs, rfl⟩

/-- The client on the pool is a client. -/
theorem reach_of_embedded {P : Embedded E R → Act E → Prop} {e : Embedded E R}
    (h : Machine.Reach (embedded env cfg) P e) :
    Machine.Reach (client env cfg) Machine.Any e.state :=
  h.simulation Embedded.state rfl fun _ a _ _ _ _ hs =>
    .inr ⟨a, trivial, (Embedded.step_eq hs).1⟩

theorem Embedded.Staffed.step {e e' : Embedded E R} (hS : e.Staffed) (hP : FindsSlot e a)
    (h : e.step env cfg a = some e') : e'.Staffed := by
  obtain ⟨hs, hp⟩ := Embedded.step_eq h
  have hnew : ∀ t, e.state.spawns a = some t → t.readsChannel = true →
      e'.state.finished t = false → t ∈ e'.pool.tasks := by
    intro t ht hr hf
    rw [hp, ht, TaskPool.mem_reap]
    exact ⟨TaskPool.mem_spawn_self (hP t ht hr), hf⟩
  have hold : ∀ t ∈ e.pool.tasks, e'.state.finished t = false → t ∈ e'.pool.tasks := by
    intro t ht hf
    rw [hp, TaskPool.mem_reap]
    refine ⟨?_, hf⟩
    cases e.state.spawns a with
    | none => exact ht
    | some u => exact TaskPool.mem_spawn_of_mem ht
  refine ⟨hS.requests.step (requestDesk_of_step env cfg hs) ?_ ?_,
    hS.notifications.step (notificationDesk_of_step env cfg hs) ?_ ?_, fun t ht => ?_⟩
  · rintro (o | w) action hn hl t ⟨⟩
    exact hnew _ (spawns_of_requestFiling hn) rfl (finished_handler hl)
  · rintro (o | w) hl t ⟨⟩ ht
    exact hold _ ht (finished_handler hl)
  · rintro o action hn hl t ⟨⟩
    exact hnew _ (spawns_of_notificationFiling hn) rfl (finished_notificationHandler hl)
  · rintro o hl t ⟨⟩ ht
    exact hold _ ht (finished_notificationHandler hl)
  · rw [hp, TaskPool.mem_reap] at ht
    exact ht.2

theorem staffed_of_reach {e : Embedded E R} (h : Machine.Reach (embedded env cfg) FindsSlot e) :
    e.Staffed := by
  refine h.invariant (I := Embedded.Staffed) ⟨?_, ?_, ?_⟩ fun e a e' _ hP hs hS => hS.step hP hs
  · rintro (o | w) action hs
    · cases hs
    · cases hs
  · intro o action hs
    cases hs
  · intro t ht
    have ht : t ∈ [Task.read, .keepalive] := ht
    simp only [List.mem_cons, List.not_mem_nil, or_false] at ht
    rcases ht with rfl | rfl <;> rfl

variable (env cfg)

/-- Where every registration of a handler finds a slot, every channel registered is read. -/
theorem allRead_of_findsSlot {e : Embedded E R}
    (h : Machine.Reach (embedded env cfg) FindsSlot e) : e.AllRead := by
  have hS := staffed_of_reach h
  obtain ⟨log, hlog⟩ := (reach_of_embedded h).observe filings
  obtain ⟨hr, hn⟩ := desks_of_reach hlog
  refine ⟨fun action ch hch => ?_, fun action o ho => ?_⟩
  · cases ch with
    | on o =>
      have ht := hr.staffed_entry hS.requests hch (.handler o) rfl
      exact ⟨ht, hS.running _ ht⟩
    | waitFor w =>
      intro outcome hw
      have hst := hr.owner action (.waitFor w) hch
      simp [State.requestDesk, ChanId.elim, hw, WaitForPc.standing] at hst
  · have ht := hn.staffed_entry hS.notifications ho (.notificationHandler o) rfl
    exact ⟨ht, hS.running _ ht⟩

end Run

/-! ## Runs on the pool -/

/-- One action registered `n` times, with no handler run in between. -/
def registerings (n : ℕ) : List (Act WireError) :=
  (List.range n).flatMap fun o => [.on o "A", .poll (.on o) .ready]

theorem allRead_of_registeredTwice :
    ∃ e, (embedded scenarioEnv scenarioConfig).run (embedded scenarioEnv scenarioConfig).init
        (registerings 2) = some e
      ∧ e.pool.tasks = [.read, .keepalive, .handler 0, .handler 1]
      ∧ e.state.requests.senders "A" = some (.on 1) ∧ e.AllRead := by
  refine ⟨_, rfl, rfl, rfl, allRead_of_findsSlot scenarioEnv scenarioConfig
    (Machine.reach_of_run (registerings 2) .init ?_ rfl)⟩
  exact ⟨nofun, fun _ _ _ => by decide, nofun, fun _ _ _ => by decide, trivial⟩

/-- The seventh registration retires the sixth handler, and its own is dropped. -/
theorem registeredSeven_unread :
    ∃ e : Embedded WireError Unit,
      Machine.Reach (embedded scenarioEnv scenarioConfig) Machine.Any e
      ∧ e.state.requests.senders "A" = some (.on 6) ∧ ¬ e.Running (.handler 6)
      ∧ ¬ e.AllRead := by
  refine ⟨_, Machine.reach_any_of_run (registerings 7) rfl, rfl, ?_, fun h => ?_⟩
  · exact fun h => absurd h.1 (by decide)
  · exact absurd (h.requests "A" (.on 6) rfl).1 (by decide)

end OcppClient
