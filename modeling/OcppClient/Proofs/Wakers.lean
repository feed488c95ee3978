import OcppClient.Proofs.PingSteps
import OcppClient.Runtime

/-!
# No task sleeps through its wake-up

A task at a race that is not to be polled has its waker with everything that could end the race, and
none of it is ready. So what comes ready wakes the task, and the poll that follows takes it: a
response or a pong before a timeout that has run out as well, an event before the wake signal, the
end of the backoff before it. The client itself goes through the states of `client`.
-/

namespace OcppClient

open Transition Polling

variable {E R : Type} {w w' : Scheduled E R} {t u : Task} {r : Race}

namespace Scheduled

/-! ## Asleep -/

/-- The waker of the task is in the signal it waits for. -/
def Waits (t : Task) (w : Scheduled E R) : Prop :=
  w.parked t = true ∧ w.client.signalled t = false

def Delayed (t : Task) (w : Scheduled E R) : Prop := w.timers t = .polled

def Receives (w : Scheduled E R) : Prop := w.inbox = .polled

/-- Nothing that ends the race is ready, and all of it has the waker of the task. -/
def Asleep (t : Task) : Race → Scheduled E R → Prop
  | .wait, w => Waits t w
  | .timeout, w => Waits t w ∧ Delayed t w
  | .recv, w => Receives w ∧ Waits t w
  | .backoff, w => Delayed t w ∧ Waits t w

theorem wait_parks : Parks (wait t) (Waits (E := E) (R := R) t) := by
  intro w w' h
  unfold wait at h
  split at h <;> cases h
  rename_i hs
  exact ⟨Function.update_self .., by simpa using hs⟩

theorem delay_parks : Parks (delay t) (Delayed (E := E) (R := R) t) := by
  intro w w' h
  unfold delay at h
  split at h <;> cases h
  exact Function.update_self ..

theorem recv_parks : Parks recv (Receives (E := E) (R := R)) := by
  intro w w' h
  unfold recv at h
  split at h <;> cases h
  rfl

theorem wait_keeps_delayed : Keeps (wait t) (Delayed (E := E) (R := R) u) := by
  intro w w' h hd
  unfold wait at h
  split at h <;> cases h
  exact hd

theorem wait_keeps_receives : Keeps (wait t) (Receives (E := E) (R := R)) := by
  intro w w' h hd
  unfold wait at h
  split at h <;> cases h
  exact hd

theorem delay_keeps_waits : Keeps (delay t) (Waits (E := E) (R := R) u) := by
  intro w w' h hd
  unfold delay at h
  split at h <;> cases h
  exact hd

/-- A task that is pending is asleep. -/
theorem poll_parks (t : Task) (r : Race) : Parks (poll t r) (Asleep (E := E) (R := R) t r) := by
  cases r with
  | wait => exact wait_parks.map _
  | timeout => exact (wait_parks.race delay_parks delay_keeps_waits).map _
  | recv => exact (recv_parks.race wait_parks wait_keeps_receives).map _
  | backoff => exact (delay_parks.race wait_parks wait_keeps_delayed).map _

/-! ## What a poll leaves alone -/

theorem poll_spares {γ : Type} {view : Scheduled E R → γ} (hw : Spares (wait t) view)
    (hd : Spares (delay t) view) (hr : r = .recv → Spares recv view) : Spares (poll t r) view := by
  cases r with
  | wait => exact hw.map _
  | timeout => exact (hw.race hd).map _
  | recv => exact ((hr rfl).race hw).map _
  | backoff => exact (hd.race hw).map _

theorem poll_client (t : Task) (r : Race) :
    Spares (poll t r) fun w : Scheduled E R => (w.client, w.woken) := by
  refine poll_spares (fun w => ?_) (fun w => ?_) fun _ w => ?_
  · unfold wait
    split <;> rfl
  · unfold delay
    split <;> rfl
  · unfold recv
    split <;> rfl

theorem client_of_poll {o : Polled (Act E)}
    (hp : poll t r { w with woken := Function.update w.woken t false } = (o, w')) :
    w'.client = w.client := by
  have hc := poll_client (E := E) (R := R) t r { w with woken := Function.update w.woken t false }
  rw [hp] at hc
  exact congrArg Prod.fst hc

theorem poll_others (h : u ≠ t) (r : Race) :
    Spares (poll t r) fun w : Scheduled E R => (w.parked u, w.timers u) := by
  refine poll_spares (fun w => ?_) (fun w => ?_) fun _ w => ?_
  · unfold wait
    split
    · rfl
    · simp [h]
  · unfold delay
    split
    · rfl
    · simp [h]
  · unfold recv
    split <;> rfl

theorem poll_inbox (h : r ≠ .recv) (t : Task) :
    Spares (poll t r) (Scheduled.inbox (E := E) (R := R)) := by
  refine poll_spares (fun w => ?_) (fun w => ?_) fun hr => absurd hr h
  · unfold wait
    split <;> rfl
  · unfold delay
    split <;> rfl

end Scheduled

/-- Where a task stands that waits for a signal. -/
inductive Stands (s : State E R) : Task → Race → Prop
  | recv (h : s.read = .recv) : Stands s .read .recv
  | backoff {delay : Duration} (h : s.read = .backoff delay) : Stands s .read .backoff
  | parked (h : s.keepalive = .parked) : Stands s .keepalive .wait
  | interval {d : Duration} (h : s.keepalive = .waiting d) : Stands s .keepalive .timeout
  | call {c : ℕ} {id : Uuid} {action : String} (h : s.calls c = .waiting id action) :
    Stands s (.call c) .timeout
  | ping {p : PingId} {token : Token} {d : Duration} (h : s.pings p = .waiting token d) :
    Stands s (.ping p) .timeout
  | handler {o : ℕ} (h : s.handlers o = .wait) : Stands s (.handler o) .wait
  | notificationHandler {o : ℕ} (h : s.notificationHandlers o = .wait) :
    Stands s (.notificationHandler o) .wait
  | subscriber {i : ℕ} (h : s.subs i = .wait) : Stands s (.subscriber i) .wait

theorem stands_of_race {s : State E R} (h : s.race t = some r) : Stands s t r := by
  unfold State.race at h
  split at h
  · split at h <;> cases h
    · exact .recv (by assumption)
    · exact .backoff (by assumption)
  · split at h <;> cases h
    · exact .parked (by assumption)
    · exact .interval (by assumption)
  · split at h <;> cases h
    exact .call (by assumption)
  · split at h <;> cases h
    exact .ping (by assumption)
  · split at h <;> cases h
    exact .handler (by assumption)
  · split at h <;> cases h
    exact .notificationHandler (by assumption)
  · split at h <;> cases h
    exact .subscriber (by assumption)
  · cases h

theorem read_of_race {s : State E R} (h : s.race u = some .recv) : u = .read := by
  cases stands_of_race h
  rfl

namespace Scheduled

theorem Asleep.congr (h : Asleep u r w) (hs : w'.client.signalled u = w.client.signalled u)
    (hp : w'.parked u = w.parked u) (ht : w'.timers u = w.timers u)
    (hi : r = .recv → w'.inbox = w.inbox) : Asleep u r w' := by
  have hw : Waits u w → Waits u w' := fun h => ⟨hp.trans h.1, hs.trans h.2⟩
  have hd : Delayed u w → Delayed u w' := fun h => ht.trans h
  cases r with
  | wait => exact hw h
  | timeout => exact ⟨hw h.1, hd h.2⟩
  | recv => exact ⟨(hi rfl).trans h.1, hw h.2⟩
  | backoff => exact ⟨hd h.1, hw h.2⟩

theorem Asleep.waits (h : Asleep u r w) : Waits u w := by
  cases r with
  | wait => exact h
  | timeout => exact h.1
  | recv => exact h.2
  | backoff => exact h.2

theorem Asleep.delayed (h : Asleep u r w) (hr : r.timed = true) : Delayed u w := by
  cases r with
  | wait | recv => cases hr
  | timeout => exact h.2
  | backoff => exact h.1

/-- Every task at a race is to be polled, or asleep. -/
def Alert (w : Scheduled E R) : Prop :=
  ∀ u r, w.client.race u = some r → w.woken u = false → Asleep u r w

/-- A poll of one task leaves the others to be polled or asleep. -/
theorem Alert.poll (h : w.Alert) (hr : w.client.race t = some r) {o : Polled (Act E)}
    (hp : Scheduled.poll t r { w with woken := Function.update w.woken t false } = (o, w')) :
    w'.client = w.client ∧ ∀ u, u ≠ t → ∀ r', w.client.race u = some r' → w'.woken u = false →
      Asleep u r' w' := by
  have hc := poll_client (E := E) (R := R) t r { w with woken := Function.update w.woken t false }
  simp only [hp, Prod.mk.injEq] at hc
  refine ⟨hc.1, fun u hu r' hr' hw => ?_⟩
  have ho := poll_others (E := E) (R := R) hu r
    { w with woken := Function.update w.woken t false }
  simp only [hp, Prod.mk.injEq] at ho
  rw [hc.2, Function.update_of_ne hu] at hw
  refine (h u r' hr' hw).congr (by rw [hc.1]) ho.1 ho.2 fun hrecv => ?_
  subst hrecv
  have hne : r ≠ .recv := fun h => hu ((read_of_race hr').trans (read_of_race (h ▸ hr)).symm)
  have hi := poll_inbox (E := E) (R := R) hne t { w with woken := Function.update w.woken t false }
  rw [hp] at hi
  exact hi

/-- A step of the client leaves a task asleep that it neither wakes nor moves. -/
theorem asleep_of_moved {s : State E R} (h : w.woken u = false → ∀ r, w.client.race u = some r →
    Asleep u r w) (hr : s.race u = some r) (hw : (w.moved s).woken u = false) :
    Asleep u r (w.moved s) := by
  simp only [moved, Bool.or_eq_false_iff, decide_eq_false_iff_not, not_not] at hw
  obtain ⟨⟨hwoken, hsignal⟩, hrace⟩ := hw
  have ha := h hwoken r (hrace.symm.trans hr)
  have hs : s.signalled u = false := by simpa [ha.waits.1] using hsignal
  exact ha.congr (hs.trans ha.waits.2.symm) (by simp [moved, hs]) rfl fun _ => rfl

end Scheduled

/-! ## Steps of the executor -/

section Steps

variable [ProtocolError E] {env : Env R} {cfg : ClientConfig}

/-- What a step of the executor does. -/
inductive ScheduledStep (env : Env R) (cfg : ClientConfig) (w w' : Scheduled E R) : Prop
  | act {a : Act E} {s : State E R} (hs : step env cfg w.client a = some s) (h : w' = w.moved s)
  | sleep {t : Task} {r : Race} (hr : w.client.race t = some r)
    (hp : Scheduled.poll t r { w with woken := Function.update w.woken t false } = (.pending, w'))
  | resume {t : Task} {r : Race} {a : Act E} {w₁ : Scheduled E R} {s : State E R}
    (hr : w.client.race t = some r)
    (hp : Scheduled.poll t r { w with woken := Function.update w.woken t false } = (.ready a, w₁))
    (hs : step env cfg w.client a = some s) (h : w' = (w₁.moved s).running t)
  | fire {t : Task} {r : Race} (hr : w.client.race t = some r) (ht : r.timed = true)
    (h : w' = { w with
      timers := Function.update w.timers t (.ready ())
      woken := Function.update w.woken t (w.woken t || (w.timers t).isPolled) })
  | arrive {e : Option TransportEvent} (hr : w.client.race .read = some .recv)
    (h : w.inbox = .unpolled ∧ w' = { w with inbox := .ready e }
      ∨ w' = { w with inbox := .ready e, woken := Function.update w.woken .read true })

theorem scheduledStep_of_step {a : ScheduledAct E} (hs : w.step env cfg a = some w') :
    ScheduledStep env cfg w w' := by
  cases a with
  | act a =>
    simp only [Scheduled.step] at hs
    split_ifs at hs
    obtain ⟨s, ht, rfl⟩ := Option.map_eq_some_iff.1 hs
    exact .act ht rfl
  | poll t =>
    simp only [Scheduled.step] at hs
    split at hs
    · next r hr =>
      split_ifs at hs
      unfold Scheduled.pollTask at hs
      split at hs
      · next w₁ hp =>
        cases hs
        exact .sleep hr hp
      · next a w₁ hp =>
        obtain ⟨s, ht, rfl⟩ := Option.map_eq_some_iff.1 hs
        rw [Scheduled.client_of_poll hp] at ht
        exact .resume hr hp ht rfl
    · cases hs
  | fire t =>
    simp only [Scheduled.step] at hs
    split_ifs at hs with ht
    cases hs
    obtain ⟨r, hr, ht⟩ := (Option.any_eq_true ..).1 ht
    exact .fire hr ht rfl
  | arrive e =>
    simp only [Scheduled.step] at hs
    split at hs
    · next hr hi =>
      cases hs
      exact .arrive hr (.inl ⟨hi, rfl⟩)
    · next hr hi =>
      cases hs
      exact .arrive hr (.inr rfl)
    · cases hs

/-- On an executor the client goes through states of `client`. -/
theorem client_of_scheduled {P : Scheduled E R → ScheduledAct E → Prop}
    (h : Machine.Reach (scheduled env cfg) P w) :
    Machine.Reach (client env cfg) Machine.Any w.client := by
  refine h.simulation Scheduled.client rfl fun w a w' _ _ _ hs => ?_
  cases scheduledStep_of_step hs with
  | act ht h => subst h; exact .inr ⟨_, trivial, ht⟩
  | sleep _ hp => exact .inl (Scheduled.client_of_poll hp)
  | resume _ _ ht h => subst h; exact .inr ⟨_, trivial, ht⟩
  | fire _ _ h => exact .inl (by rw [h])
  | arrive _ h => exact .inl (by rcases h with ⟨-, h⟩ | h <;> rw [h])

namespace Scheduled

omit [ProtocolError E] in
theorem Alert.running (hc : w'.client = w.client)
    (h : ∀ u, u ≠ t → ∀ r, w.client.race u = some r → w'.woken u = false → Asleep u r w')
    (s : State E R) : ((w'.moved s).running t).Alert := by
  intro u r hr hw
  rcases eq_or_ne u t with rfl | hu
  · simp [Scheduled.running] at hw
  · simp only [Scheduled.running, Function.update_of_ne hu] at hw
    have ha : Asleep u r (w'.moved s) :=
      asleep_of_moved (fun hw r hr => h u hu r (hc ▸ hr) hw) hr hw
    exact ha.congr rfl rfl (Function.update_of_ne hu ..) fun _ => rfl

theorem Alert.step (h : w.Alert) (hs : ScheduledStep env cfg w w') : w'.Alert := by
  cases hs with
  | act _ he =>
    subst he
    exact fun u r hr hw => asleep_of_moved (fun hw r hr => h u r hr hw) hr hw
  | @sleep t r hr hp =>
    obtain ⟨hc, ho⟩ := h.poll hr hp
    intro u r' hr' hw
    rw [hc] at hr'
    rcases eq_or_ne u t with rfl | hu
    · cases hr.symm.trans hr'
      exact poll_parks u r _ _ hp
    · exact ho u hu r' hr' hw
  | @resume t r a w₁ s hr hp hs he =>
    subst he
    obtain ⟨hc, ho⟩ := h.poll hr hp
    exact Alert.running hc ho s
  | @fire t r hr ht he =>
    subst he
    intro u r' hr' hw
    rcases eq_or_ne u t with rfl | hu
    · simp only [Function.update_self, Bool.or_eq_false_iff] at hw
      cases hr.symm.trans hr'
      -- asleep, the timer had the waker of the task
      have hd : w.timers u = .polled := (h u r hr hw.1).delayed ht
      rw [hd] at hw
      cases hw.2
    · simp only [Function.update_of_ne hu] at hw
      exact (h u r' hr' hw).congr rfl rfl (Function.update_of_ne hu ..) fun _ => rfl
  | @arrive e hr he =>
    rcases he with ⟨hi, rfl⟩ | rfl
    · intro u r hr hw
      refine (h u r hr hw).congr rfl rfl rfl ?_
      rintro rfl
      have hin : w.inbox = .polled := (h u _ hr hw).1
      cases hi.symm.trans hin
    · intro u r hr hw
      have hu : u ≠ .read := by
        rintro rfl
        simp at hw
      simp only [Function.update_of_ne hu] at hw
      exact (h u r hr hw).congr rfl rfl rfl fun hr' => absurd (read_of_race (hr' ▸ hr)) hu

end Scheduled

theorem alert_of_reach {P : Scheduled E R → ScheduledAct E → Prop}
    (h : Machine.Reach (scheduled env cfg) P w) : w.Alert :=
  h.invariant (fun _ _ _ hw => by cases hw) fun _ _ _ _ _ hs hA =>
    hA.step (scheduledStep_of_step hs)

/-! ## What the next poll comes to -/

namespace Scheduled

/-- Something that ends the race of the task is ready. -/
def Due (w : Scheduled E R) (t : Task) : Prop :=
  ∃ r, w.client.race t = some r ∧ (w.client.signalled t = true
    ∨ r.timed = true ∧ w.timers t = .ready () ∨ r = .recv ∧ ∃ e, w.inbox = .ready e)

/-- The step with which the client goes on from a race. A timeout counts only without the signal,
and the wake signal only without an event, or before the end of the backoff. -/
inductive Ends (w : Scheduled E R) (t : Task) : Act E → Prop
  | wait (hr : w.client.race t = some .wait) (hs : w.client.signalled t = true) :
    Ends w t (.poll t .ready)
  | inTime (hr : w.client.race t = some .timeout) (hs : w.client.signalled t = true) :
    Ends w t (.poll t .ready)
  | elapsed (hr : w.client.race t = some .timeout) (hs : w.client.signalled t = false)
    (ht : w.timers t = .ready ()) : Ends w t (.poll t .timer)
  | event {e : Option TransportEvent} (hr : w.client.race t = some .recv)
    (hi : w.inbox = .ready e) : Ends w t (.recv e)
  | cancelled (hr : w.client.race t = some .recv) (hi : ∀ e, w.inbox ≠ .ready e)
    (hs : w.client.signalled t = true) : Ends w t (.poll t .ready)
  | backedOff (hr : w.client.race t = some .backoff) (ht : w.timers t = .ready ()) :
    Ends w t (.poll t .timer)
  | cut (hr : w.client.race t = some .backoff) (ht : w.timers t ≠ .ready ())
    (hs : w.client.signalled t = true) : Ends w t (.poll t .ready)

omit [ProtocolError E] in
theorem Due.ends (h : w.Due t) : ∃ a, w.Ends t a := by
  obtain ⟨r, hr, h⟩ := h
  cases r with
  | wait =>
    rcases h with h | ⟨h, -⟩ | ⟨h, -⟩
    · exact ⟨_, .wait hr h⟩
    · cases h
    · cases h
  | timeout =>
    cases hs : w.client.signalled t with
    | true => exact ⟨_, .inTime hr hs⟩
    | false =>
      rcases h with h | ⟨-, h⟩ | ⟨h, -⟩
      · cases hs.symm.trans h
      · exact ⟨_, .elapsed hr hs h⟩
      · cases h
  | recv =>
    by_cases hi : ∃ e, w.inbox = .ready e
    · obtain ⟨e, hi⟩ := hi
      exact ⟨_, .event hr hi⟩
    · rcases h with h | ⟨h, -⟩ | ⟨-, h⟩
      · exact ⟨_, .cancelled hr (fun e he => hi ⟨e, he⟩) h⟩
      · cases h
      · exact absurd h hi
  | backoff =>
    by_cases ht : w.timers t = .ready ()
    · exact ⟨_, .backedOff hr ht⟩
    · rcases h with h | ⟨-, h⟩ | ⟨h, -⟩
      · exact ⟨_, .cut hr ht h⟩
      · exact absurd h ht
      · cases h

omit [ProtocolError E] in
theorem wait_of_signalled (h : w.client.signalled t = true) : wait t w = (.ready (), w) := by
  simp [Scheduled.wait, h]

omit [ProtocolError E] in
theorem wait_of_not_signalled (h : w.client.signalled t = false) :
    wait t w = (.pending, { w with parked := Function.update w.parked t true }) := by
  simp [Scheduled.wait, h]

omit [ProtocolError E] in
theorem delay_of_ready (h : w.timers t = .ready ()) : delay t w = (.ready (), w) := by
  simp [delay, h]

omit [ProtocolError E] in
theorem delay_of_not_ready (h : w.timers t ≠ .ready ()) :
    delay t w = (.pending, { w with timers := Function.update w.timers t .polled }) := by
  unfold delay
  split
  · next ht => exact absurd ht h
  · rfl

omit [ProtocolError E] in
theorem recv_of_ready {e : Option TransportEvent} (h : w.inbox = .ready e) :
    recv w = (.ready e, { w with inbox := .unpolled }) := by
  simp [recv, h]

omit [ProtocolError E] in
theorem recv_of_not_ready (h : ∀ e, w.inbox ≠ .ready e) :
    recv w = (.pending, { w with inbox := .polled }) := by
  unfold recv
  split
  · next hi => exact absurd hi (h _)
  · rfl

omit [ProtocolError E] in
/-- Who is to be polled makes no difference. -/
theorem Ends.rewoken {a : Act E} (h : w.Ends t a) (woken : Task → Bool) :
    Ends { w with woken := woken } t a := by
  cases h with
  | wait hr hs => exact .wait hr hs
  | inTime hr hs => exact .inTime hr hs
  | elapsed hr hs ht => exact .elapsed hr hs ht
  | event hr hi => exact .event hr hi
  | cancelled hr hi hs => exact .cancelled hr hi hs
  | backedOff hr ht => exact .backedOff hr ht
  | cut hr ht hs => exact .cut hr ht hs

omit [ProtocolError E] in
theorem Ends.poll {a : Act E} (h : w.Ends t a) :
    ∃ r, w.client.race t = some r ∧ ∃ w₁, Scheduled.poll t r w = (.ready a, w₁) := by
  cases h with
  | wait hr hs => exact ⟨_, hr, _, map_of_ready (wait_of_signalled hs) _⟩
  | inTime hr hs =>
    exact ⟨_, hr, _, map_of_ready (race_of_ready (wait_of_signalled hs)) _⟩
  | elapsed hr hs ht =>
    exact ⟨_, hr, _, map_of_ready (race_of_pending (wait_of_not_signalled hs)
      (delay_of_ready ht)) _⟩
  | event hr hi => exact ⟨_, hr, _, map_of_ready (race_of_ready (recv_of_ready hi)) _⟩
  | cancelled hr hi hs =>
    exact ⟨_, hr, _, map_of_ready (race_of_pending (recv_of_not_ready hi)
      (wait_of_signalled hs)) _⟩
  | backedOff hr ht => exact ⟨_, hr, _, map_of_ready (race_of_ready (delay_of_ready ht)) _⟩
  | cut hr ht hs =>
    exact ⟨_, hr, _, map_of_ready (race_of_pending (delay_of_not_ready ht)
      (wait_of_signalled hs)) _⟩

end Scheduled

/-! ## The client goes on -/

omit [ProtocolError E] in
/-- The keepalive loop is inside a ping of its own that waits. -/
theorem pinging_of_waiting {s : State E R} (hI : Inside s) {n : ℕ} {token : Token}
    {timeout : Duration} (h : s.pings (.keepalive n) = .waiting token timeout) :
    s.keepalive = .pinging n := by
  rcases hI n with hk | hk | ⟨r, hk⟩
  · exact hk
  · cases h.symm.trans hk
  · cases h.symm.trans hk

theorem pollPing_enabled {s s' : State E R} (hI : Inside s) {p : PingId} {token : Token}
    {timeout : Duration} (h : s.pings p = .waiting token timeout) {o : Poll}
    (hs : pingPoll s p o = some s') : (pollTask env cfg s (.ping p) o).isSome = true := by
  cases p with
  | user n => simp [pollTask, hs]
  | keepalive n => simp [pollTask, keepalivePingPoll, pinging_of_waiting hI h, hs]

/-- A signal that is set is taken. -/
theorem signalled_enabled {s : State E R} (hI : Inside s) (hr : s.race t = some r)
    (hs : s.signalled t = true) : (pollTask env cfg s t .ready).isSome = true := by
  cases stands_of_race hr with
  | recv h =>
    simp only [State.signalled] at hs
    simp only [pollTask, readPoll, h, readWoken, hs]
    split_ifs <;> rfl
  | backoff h =>
    simp only [State.signalled] at hs
    simp [pollTask, readPoll, h, hs]
  | parked h | interval h =>
    simp only [State.signalled] at hs
    simp [pollTask, keepalivePoll, h, hs]
  | call h =>
    obtain ⟨v, hv⟩ := Option.isSome_iff_exists.1 hs
    simp [pollTask, callPoll, h, takeResponse, hv]
  | ping h =>
    simp only [State.signalled] at hs
    exact pollPing_enabled hI h (by simp [pingPoll, h, hs]; rfl)
  | handler h =>
    simp only [State.signalled] at hs
    simp [pollTask, handlerPoll, h, hs]
  | notificationHandler h =>
    simp only [State.signalled] at hs
    simp [pollTask, notificationHandlerPoll, h, hs]
  | subscriber h =>
    simp only [State.signalled] at hs
    simp [pollTask, subscriberPoll, h, hs]

/-- Without the signal a timeout that ran out is taken. -/
theorem elapsed_enabled {s : State E R} (hI : Inside s) (hr : s.race t = some .timeout)
    (hs : s.signalled t = false) : (pollTask env cfg s t .timer).isSome = true := by
  cases stands_of_race hr with
  | interval h =>
    simp only [State.signalled] at hs
    simp [pollTask, keepalivePoll, h, hs]
  | call h => simp [pollTask, callPoll, h, Option.isSome_eq_false_iff.1 hs]
  | ping h =>
    simp only [State.signalled] at hs
    exact pollPing_enabled hI h (by simp [pingPoll, h, hs]; rfl)

theorem ends_enabled {a : Act E} (h : w.Ends t a) (hI : Inside w.client) :
    (step env cfg w.client a).isSome = true := by
  cases h with
  | wait hr hs => exact signalled_enabled hI hr hs
  | inTime hr hs => exact signalled_enabled hI hr hs
  | elapsed hr hs => exact elapsed_enabled hI hr hs
  | cancelled hr _ hs => exact signalled_enabled hI hr hs
  | cut hr _ hs => exact signalled_enabled hI hr hs
  | @event e hr =>
    cases stands_of_race hr with
    | recv h => cases e <;> simp [step, readRecv, h]
  | backedOff hr =>
    cases stands_of_race hr with
    | backoff h => simp [step, pollTask, readPoll, h]

/-- What is ready wakes its task, and the poll of the task takes it. -/
structure Wakeful (env : Env R) (cfg : ClientConfig) (w : Scheduled E R) : Prop where
  client : Machine.Reach (client env cfg) Machine.Any w.client
  woken : ∀ t, w.Due t → w.woken t = true
  ends : ∀ t, w.Due t → ∃ a w', w.Ends t a ∧ w.step env cfg (.poll t) = some w'
    ∧ step env cfg w.client a = some w'.client

omit [ProtocolError E] in
theorem Scheduled.Alert.woken (h : w.Alert) (hd : w.Due t) : w.woken t = true := by
  obtain ⟨r, hr, hd⟩ := hd
  by_contra hw
  have ha := h t r hr (by simpa using hw)
  rcases hd with hs | ⟨ht, hd⟩ | ⟨rfl, e, hi⟩
  · cases ha.waits.2.symm.trans hs
  · have hp : w.timers t = .polled := ha.delayed ht
    cases hp.symm.trans hd
  · have hp : w.inbox = .polled := ha.1
    cases hp.symm.trans hi

/-- In every run on an executor that polls a task at a race only once it was woken. -/
theorem wakeful_of_reach (h : Machine.Reach (scheduled env cfg) Machine.Any w) :
    Wakeful env cfg w := by
  have hA := alert_of_reach h
  have hc := client_of_scheduled h
  refine ⟨hc, fun t hd => hA.woken hd, fun t hd => ?_⟩
  obtain ⟨a, ha⟩ := hd.ends
  obtain ⟨s, hs⟩ := Option.isSome_iff_exists.1
    (ends_enabled ha (inside_of_reach env cfg hc))
  obtain ⟨r, hr, w₁, hp⟩ := (ha.rewoken (Function.update w.woken t false)).poll
  refine ⟨a, (w₁.moved s).running t, ha, ?_, hs⟩
  simp only [Scheduled.step, hr, hA.woken hd, if_true, Scheduled.pollTask, hp,
    Scheduled.client_of_poll hp, hs, Option.map_some]

/-- A call sleeps at its race. Its response comes and its timeout runs out before it is polled
again, and it returns the response. -/
def answeredLate : List (ScheduledAct WireError) :=
  [.act (.call 0 "A" (.ok .null)), .act (.poll (.call 0) .ready), .act (.poll (.call 0) .ready),
    .act (.poll (.call 0) (.done (.ok ()))), .poll (.call 0), .poll .read,
    .arrive (some (.frame resultFrame)), .poll .read, .act (.poll .read .ready), .fire (.call 0)]

theorem wakeful_of_answeredLate :
    ∃ w, (scheduled scenarioEnv scenarioConfig).run (scheduled scenarioEnv scenarioConfig).init
        answeredLate = some w
      ∧ w.client.signalled (.call 0) = true ∧ w.timers (.call 0) = .ready ()
      ∧ Wakeful scenarioEnv scenarioConfig w
      ∧ ∃ w', w.step scenarioEnv scenarioConfig (.poll (.call 0)) = some w'
        ∧ w'.client.calls 0 = .returned (.ok ()) :=
  ⟨_, rfl, rfl, rfl, wakeful_of_reach (Machine.reach_any_of_run
    (M := scheduled scenarioEnv scenarioConfig) answeredLate rfl), _, rfl, rfl⟩

end Steps

end OcppClient
