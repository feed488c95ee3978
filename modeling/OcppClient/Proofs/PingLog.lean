import OcppClient.Proofs.Passage
import OcppClient.Proofs.SinkMutex

/-!
# What becomes of the pings

A run is kept with a log of what concerns its pings: registered, issued to a sink, written or
failed, answered or expired, forgotten; a pong received from a stream, then handled; the table
cleared. `PingStep` says what one step of the client does to the pings, to their table and to the
place of the read loop, and what it adds to the log. The modules after this one argue over it and
no longer over the client.
-/

namespace OcppClient

open Transition

variable {E R : Type}

/-- Where the read loop is: at a transport, with a pong in hand, between two transports, gone. -/
inductive Zone
  | reading
  | pong (token : Option Token)
  | between
  | gone
  deriving DecidableEq

/-- The table is cleared on the way to the next transport, or out. -/
inductive PingNote
  | registered (p : PingId) (token : Token)
  | issued (p : PingId) (sink : SinkId)
  | written (p : PingId) (sink : SinkId)
  | failed (p : PingId) (e : TransportError)
  | answered (p : PingId)
  | expired (p : PingId)
  | forgot (p : PingId) (token : Token)
  | received (stream : SinkId) (payload : List UInt8)
  | handled (token : Option Token)
  | cleared (zone : Zone)
  deriving DecidableEq

def pollNotes (s : State E R) (p : PingId) (poll : Poll) : List PingNote :=
  match s.pings p, poll with
  | .lockWaiters _, .ready => [.registered p s.nextToken]
  | .lockSink _ _, .ready => [.issued p s.sink]
  | .sending _ _, .done (.ok _) => [.written p s.sink]
  | .sending _ _, .done (.error e) => [.failed p e]
  | .waiting _ _, .ready => [.answered p]
  | .waiting _ _, .timer => [.expired p]
  | .forget token _, .ready => [.forgot p token]
  | _, _ => []

/-- What a step adds to the log. -/
def pingNotes (s : State E R) : Act E → List PingNote
  | .recv (some (.pong payload)) => [.received s.stream payload]
  | .poll .read .ready =>
    match s.read with
    | .lockWaiters token => [.handled token]
    | .clearShutdown => [.cleared .gone]
    | .clearWaiters => [.cleared .between]
    | _ => []
  | .poll (.ping p) poll => pollNotes s p poll
  | _ => []

def ReadPc.zone : ReadPc E → Zone
  | .lockWaiters token => .pong token
  | .backoff _ | .dial _ | .lockSwap _ => .between
  | .exited => .gone
  | _ => .reading

/-- What of a client concerns its pings. -/
structure PingView (E : Type) where
  pings : PingId → PingPc E
  waiters : Token → Option PingId
  pongs : PingId → Bool
  nextToken : Token
  sink : SinkId
  zone : Zone

def State.pingView (s : State E R) : PingView E :=
  ⟨s.pings, s.waiters, s.pongs, s.nextToken, s.sink, s.read.zone⟩

def PingView.set (v : PingView E) (p : PingId) (pc : PingPc E) : PingView E :=
  { v with pings := Function.update v.pings p pc }

/-- The slots after a pong found `q` in the table, or nothing. -/
def fillPong (pongs : PingId → Bool) : Option PingId → PingId → Bool
  | some p => Function.update pongs p true
  | none => pongs

theorem fillPong_of_true {pongs : PingId → Bool} {p : PingId} (h : pongs p = true) :
    ∀ o, fillPong pongs o p = true
  | none => h
  | some q => by
    by_cases hq : p = q
    · simp [fillPong, hq]
    · simpa [fillPong, Function.update_of_ne hq] using h

/-- Moves of the loop that leave the pings alone. -/
def Zone.Goes (z z' : Zone) : Prop :=
  z' = z ∨ (z = .reading ∨ z = .between) ∧ z' = .gone

inductive PingStep (v : PingView E) : PingView E → List PingNote → Prop
  | refuse {p : PingId} (hp : v.pings p = .idle) :
    PingStep v (v.set p (.returned (.error .closed))) []
  | begin {p : PingId} (d : Duration) (hp : v.pings p = .idle) :
    PingStep v (v.set p (.lockWaiters d)) []
  | register {p : PingId} {d : Duration} (hp : v.pings p = .lockWaiters d) :
    PingStep v
      { v with
        nextToken := v.nextToken + 1
        waiters := Function.update v.waiters v.nextToken (some p)
        pings := Function.update v.pings p (.lockSink v.nextToken d) }
      [.registered p v.nextToken]
  | issue {p : PingId} {t : Token} {d : Duration} (hp : v.pings p = .lockSink t d) :
    PingStep v (v.set p (.sending t d)) [.issued p v.sink]
  | write {p : PingId} {t : Token} {d : Duration} (hp : v.pings p = .sending t d) :
    PingStep v (v.set p (.waiting t d)) [.written p v.sink]
  | fail {p : PingId} {t : Token} {d : Duration} (e : TransportError)
    (hp : v.pings p = .sending t d) :
    PingStep v (v.set p (.forget t (.transport e))) [.failed p e]
  | answer {p : PingId} {t : Token} {d : Duration} (hp : v.pings p = .waiting t d)
    (hn : v.pongs p = true) :
    PingStep v
      { v with
        pongs := Function.update v.pongs p false
        pings := Function.update v.pings p (.returned (.ok ())) }
      [.answered p]
  | expire {p : PingId} {t : Token} {d : Duration} (hp : v.pings p = .waiting t d)
    (hn : v.pongs p = false) : PingStep v (v.set p (.forget t .timeout)) [.expired p]
  | forget {p : PingId} {t : Token} {e : ClientError E} (hp : v.pings p = .forget t e) :
    PingStep v
      { v with
        waiters := Function.update v.waiters t none
        pings := Function.update v.pings p (.returned (.error e)) }
      [.forgot p t]
  | drop {p : PingId} (hp : v.pings p ≠ .idle) (hr : ∀ r, v.pings p ≠ .returned r) :
    PingStep v (v.set p .dropped) []
  | receive (payload : List UInt8) (hz : v.zone = .reading) :
    PingStep v { v with zone := .pong (fromBeBytes payload) } [.received v.sink payload]
  | ignore (hz : v.zone = .pong none) : PingStep v { v with zone := .reading } [.handled none]
  | handle {t : Token} (hz : v.zone = .pong (some t)) :
    PingStep v
      { v with
        waiters := Function.update v.waiters t none
        pongs := fillPong v.pongs (v.waiters t)
        zone := .reading }
      [.handled (some t)]
  | clear {z : Zone} (hz : v.zone = .reading) (hz' : z = .between ∨ z = .gone) :
    PingStep v { v with waiters := fun _ => none, zone := z } [.cleared z]
  | swap {k : SinkId} (hz : v.zone = .between) (hk : v.sink < k)
    (hs : ∀ p t d, v.pings p ≠ .sending t d) :
    PingStep v { v with sink := k, zone := .reading } []
  | loop {z : Zone} (hz : v.zone.Goes z) : PingStep v { v with zone := z } []

theorem PingStep.stutter (v : PingView E) : PingStep v v [] :=
  .loop (z := v.zone) (.inl rfl)

/-! ## Every step of the client is one -/

variable {s s' : State E R}

theorem PingMove.pingStep {p : PingId} {poll : Poll} (h : PingMove p s s' poll) :
    PingStep s.pingView s'.pingView (pollNotes s p poll) := by
  cases h with
  | register hp h => subst h; simpa only [pollNotes, hp] using .register (v := s.pingView) hp
  | acquire hp _ h => subst h; simpa only [pollNotes, hp] using .issue (v := s.pingView) hp
  | pend hp _ h => subst h; simpa only [pollNotes, hp] using .stutter s.pingView
  | written hp h => subst h; simpa only [pollNotes, hp] using .write (v := s.pingView) hp
  | failed hp h => subst h; simpa only [pollNotes, hp] using .fail (v := s.pingView) _ hp
  | answered hp hn h => subst h; simpa only [pollNotes, hp] using .answer (v := s.pingView) hp hn
  | expired hp hn h => subst h; simpa only [pollNotes, hp] using .expire (v := s.pingView) hp hn
  | missed hp h => subst h; simpa only [pollNotes, hp] using .forget (v := s.pingView) hp

/-- A step that touches neither the pings nor their table. -/
theorem PingStep.of_frame (hp : s'.pings = s.pings) (hw : s'.waiters = s.waiters)
    (hpo : s'.pongs = s.pongs) (ht : s'.nextToken = s.nextToken) (hk : s'.sink = s.sink)
    (hz : s.read.zone.Goes s'.read.zone) : PingStep s.pingView s'.pingView [] := by
  have hv : s'.pingView = { s.pingView with zone := s'.read.zone } := by
    simp only [State.pingView, hp, hw, hpo, ht, hk]
  rw [hv]
  exact .loop hz

/-- The loop is at none of the places where it touches the table. -/
def ReadPc.Plain : ReadPc E → Prop
  | .lockWaiters _ | .clearShutdown | .clearWaiters => False
  | _ => True

theorem pingNotes_of_plain (h : s.read.Plain) (p : Poll) :
    pingNotes s (.poll .read p : Act E) = [] := by
  revert h
  cases p with
  | ready => cases hr : s.read <;> simp [pingNotes, hr, ReadPc.Plain]
  | pend | done | timer => intro _; rfl

theorem Acquires.plain {pc pc' : ReadPc E} {op : SinkOp} (h : Acquires pc op pc') :
    pc.Plain ∧ pc'.zone = pc.zone := by
  cases h <;> exact ⟨trivial, rfl⟩

theorem Steers.plain {pc pc' : ReadPc E} (h : Steers pc pc') : pc.Plain ∧ pc'.zone = pc.zone := by
  cases h <;> exact ⟨trivial, rfl⟩

theorem Releases.plain {pc pc' : ReadPc E} (h : Releases pc pc') :
    pc.Plain ∧ pc'.zone = pc.zone := by
  cases h <;> exact ⟨trivial, rfl⟩

theorem ReadPc.Operating.plain {pc : ReadPc E} (h : pc.Operating) : pc.Plain := by
  cases pc <;> trivial

theorem leave_zone (cfg : ClientConfig) (s : State E R) (reason : LoopExit) :
    (leave cfg s reason).read.zone = .reading ∨ (leave cfg s reason).read.zone = .gone := by
  unfold leave
  simp only []
  split_ifs <;> simp [ReadPc.zone]

theorem beginDial_zone (s : State E R) :
    (beginDial s).read.zone = .between ∨ (beginDial s).read.zone = .gone := by
  unfold beginDial
  split_ifs <;> simp [ReadPc.zone]

theorem resolvePong_pingStep {token : Option Token} (hr : s.read = .lockWaiters token) :
    PingStep s.pingView (resolvePong s token).pingView [.handled token] := by
  have hz : s.pingView.zone = .pong token := by simp [State.pingView, hr, ReadPc.zone]
  cases token with
  | none => exact .ignore hz
  | some t =>
    have h := PingStep.handle hz
    rcases hw : s.waiters t with _ | p
    · have hu : Function.update s.waiters t none = s.waiters := by
        rw [← hw, Function.update_eq_self]
      have hv : s.pingView.waiters t = none := hw
      rw [hv] at h
      simpa [State.pingView, resolvePong, hw, hu, fillPong, ReadPc.zone] using h
    · have hv : s.pingView.waiters t = some p := hw
      rw [hv] at h
      simpa [State.pingView, resolvePong, hw, fillPong, ReadPc.zone] using h

variable [ProtocolError E] (env : Env R) (cfg : ClientConfig)

/-- Nobody writes a ping while the sink's mutex is free. -/
def PingsHold (s : State E R) : Prop :=
  s.holder = none → ∀ p t d, s.pings p ≠ .sending t d

theorem readPoll_pingStep (hI : Installed s) (hH : PingsHold s) {p : Poll}
    (hs : readPoll env cfg s p = some s') :
    PingStep s.pingView s'.pingView (pingNotes s (.poll .read p : Act E)) := by
  -- the moves that do not touch the table
  have hplain : s.read.Plain → s'.waiters = s.waiters → s'.pongs = s.pongs → s'.sink = s.sink →
      s.read.zone.Goes s'.read.zone →
      PingStep s.pingView s'.pingView (pingNotes s (.poll .read p : Act E)) := by
    intro hr hw hp hk hz
    have hf := readPoll_frame env cfg hs
    rw [pingNotes_of_plain hr]
    exact .of_frame hf.pings hw hp hf.nextToken hk hz
  cases readPoll_moves env cfg hs with
  | pong hr h =>
    subst h
    simpa only [pingNotes, hr] using resolvePong_pingStep hr
  | clear hr h =>
    subst h
    have hz : s.pingView.zone = .reading := by simp [State.pingView, hr, ReadPc.zone]
    simpa only [pingNotes, hr] using .clear hz (.inr rfl)
  | backoff hr h =>
    subst h
    have hz : s.pingView.zone = .reading := by simp [State.pingView, hr, ReadPc.zone]
    simpa only [pingNotes, hr] using .clear hz (.inl rfl)
  | swap hr hn h =>
    subst h
    have hz : s.pingView.zone = .between := by simp [State.pingView, hr, ReadPc.zone]
    simpa only [pingNotes, hr] using .swap hz (hI.swap _ hr).1 (hH hn)
  | wake hr h =>
    have hz : s'.read.zone = .reading ∨ s'.read.zone = .gone := by
      unfold readWoken at h
      split_ifs at h <;> cases h
      · exact leave_zone cfg _ _
      · exact leave_zone cfg _ _
      · exact .inl (by rw [hr]; rfl)
    obtain ⟨_, _, rfl, -⟩ := readWoken_footprint cfg h
    refine hplain (by rw [hr]; trivial) rfl rfl rfl ?_
    rw [hr]
    exact hz.imp id fun hz => ⟨.inl rfl, hz⟩
  | dial hr h =>
    have hz := beginDial_zone s
    obtain ⟨_, _, hb, -⟩ := beginDial_footprint s
    rw [hb] at hz h
    refine hplain (by rw [hr]; trivial) (by rw [h]) (by rw [h]) (by rw [h]) ?_
    rw [h, hr]
    exact hz.imp id fun hz => ⟨.inr rfl, hz⟩
  | wokenDial hr _ h =>
    have hz := beginDial_zone { s with wake := false, hist := s.hist ++ [.loop .woken] }
    obtain ⟨_, _, hb, -⟩ :=
      beginDial_footprint { s with wake := false, hist := s.hist ++ [.loop .woken] }
    rw [hb] at hz h
    refine hplain (by rw [hr]; trivial) (by rw [h]) (by rw [h]) (by rw [h]) ?_
    rw [h, hr]
    exact hz.imp id fun hz => ⟨.inr rfl, hz⟩
  | acquire hr _ h =>
    subst h
    exact hplain hr.plain.1 rfl rfl rfl (.inl hr.plain.2)
  | release hr h =>
    subst h
    exact hplain hr.plain.1 rfl rfl rfl (.inl hr.plain.2)
  | go hr h =>
    subst h
    exact hplain hr.plain.1 rfl rfl rfl (.inl hr.plain.2)
  | pend hr _ h =>
    subst h
    exact hplain hr.plain rfl rfl rfl (.inl rfl)
  | lookup hr _ h =>
    subst h
    exact hplain (by rw [hr]; trivial) rfl rfl rfl (.inl (by rw [hr]; rfl))
  | push hr h | resolve hr h | notify hr h | redial hr h | dialPend hr h | dialled hr h
  | broadcast hr h =>
    subst h
    exact hplain (by rw [hr]; trivial) rfl rfl rfl (.inl (by rw [hr]; rfl))

theorem readRecv_pingStep (hI : Installed s) {e : Option TransportEvent}
    (hs : readRecv env cfg s e = some s') :
    PingStep s.pingView s'.pingView (pingNotes s (.recv e : Act E)) := by
  have hr := (readRecv_leads env cfg hs).1
  have hz : s.pingView.zone = .reading := by simp [State.pingView, hr, ReadPc.zone]
  unfold readRecv at hs
  rw [hr] at hs
  rcases e with _ | (f | pl | pl)
  · cases hs
    refine .of_frame rfl rfl rfl rfl rfl ?_
    rw [hr]
    exact (leave_zone cfg s .eof).imp id fun hz => ⟨.inl rfl, hz⟩
  · cases hs
    refine .of_frame rfl rfl rfl rfl rfl (.inl ?_)
    rw [hr]
    unfold handleEvent handleFrame
    simp only []
    split <;> rfl
  · cases hs
    exact .of_frame rfl rfl rfl rfl rfl (.inl (by rw [hr]; rfl))
  · cases hs
    have hrec := PingStep.receive pl hz
    simp only [pingNotes, hI.stream]
    exact hrec

omit [ProtocolError E] in
theorem AfterPing.pingView {n : ℕ} (h : AfterPing cfg n s s') : s'.pingView = s.pingView := by
  cases h with
  | inside _ h => rw [h]
  | answered _ _ h => rw [h]; rfl
  | missed _ _ h =>
    obtain ⟨_, _, _, hc, -⟩ := countMiss_footprint cfg s n
    rw [h, hc]
    rfl

/-- The steps of neither the read loop nor a ping. -/
def Act.Aside (a : Act E) : Prop :=
  (∀ e, a ≠ .recv e) ∧ (∀ p, a ≠ .poll .read p) ∧ ∀ p q, a ≠ .poll (.ping p) q

omit [ProtocolError E] in
theorem pingNotes_of_aside {a : Act E} (h : a.Aside) : pingNotes s a = [] := by
  obtain ⟨h₁, h₂, h₃⟩ := h
  unfold pingNotes
  split
  · exact absurd rfl (h₁ _)
  · exact absurd rfl (h₂ _)
  · exact absurd rfl (h₃ _ _)
  · rfl

omit [ProtocolError E] in
theorem pingDrop_pingStep {n : ℕ} (h : pingDrop s n = some s') :
    PingStep s.pingView s'.pingView [] := by
  have hi : s.pings (.user n) ≠ .idle := by
    intro hp
    rw [pingDrop, hp] at h
    cases h
  have hr : ∀ r, s.pings (.user n) ≠ .returned r := by
    intro r hp
    rw [pingDrop, hp] at h
    cases h
  have hps := pingDrop_pings h
  obtain ⟨_, _, _, rfl⟩ := pingDrop_footprint h
  have hv := PingStep.drop (v := s.pingView) hi hr
  simpa only [State.pingView, PingView.set, ← hps] using hv

theorem aside_pingStep (hN : Numbered s) {a : Act E} (ha : a.Aside)
    (hs : step env cfg s a = some s') : PingStep s.pingView s'.pingView [] := by
  obtain ⟨h₁, h₂, h₃⟩ := ha
  have hr : s'.read = s.read := by
    cases loop_cases env cfg hs with
    | recv => exact absurd rfl (h₁ _)
    | read => exact absurd rfl (h₂ _)
    | disconnect h =>
      obtain ⟨_, _, _, _, _, rfl, -⟩ := disconnect_footprint h
      rfl
    | disconnectPoll h =>
      obtain ⟨_, _, _, _, rfl, -⟩ := disconnectPoll_footprint h
      rfl
    | other hf => exact hf.read
  cases ping_cases env cfg hs with
  | recv => exact absurd rfl (h₁ _)
  | read => exact absurd rfl (h₂ _)
  | poll => exact absurd rfl (h₃ _ _)
  | keepalivePing => exact absurd rfl (h₃ _ _)
  | begin h =>
    obtain ⟨pc, hi, rfl, rfl | rfl⟩ := sendPing_pings cfg h
    · exact .refuse hi
    · exact .begin _ hi
  | drop h => exact pingDrop_pingStep h
  | keepalive h =>
    cases h with
    | top _ _ _ h =>
      subst h
      exact .stutter _
    | ping _ _ h =>
      subst h
      exact .begin cfg.pingTimeout (hN.idle _ (Nat.le_refl _))
  | other hf hw hp hk _ => exact .of_frame hf.pings hw hp hf.nextToken hk (.inl (by rw [hr]))

theorem ping_pingStep {p : PingId} {poll : Poll}
    (hs : step env cfg s (.poll (.ping p) poll) = some s') :
    PingStep s.pingView s'.pingView (pollNotes s p poll) := by
  cases p with
  | user n => exact (pingPoll_moves hs).pingStep
  | keepalive n =>
    obtain ⟨-, t, hm, ha⟩ := keepalivePingPoll_moves hs
    rw [ha.pingView cfg]
    exact hm.pingStep

/-- What a step does to the pings. -/
theorem pingStep_of_step (hI : Installed s) (hH : PingsHold s) (hN : Numbered s) {a : Act E}
    (hs : step env cfg s a = some s') : PingStep s.pingView s'.pingView (pingNotes s a) := by
  by_cases ha : a.Aside
  · rw [pingNotes_of_aside ha]
    exact aside_pingStep env cfg hN ha hs
  · simp only [Act.Aside, not_and_or, not_forall, not_not] at ha
    rcases ha with ⟨e, rfl⟩ | ⟨p, rfl⟩ | ⟨p, q, rfl⟩
    · exact readRecv_pingStep env cfg hI hs
    · exact readPoll_pingStep env cfg hI hH hs
    · exact ping_pingStep env cfg hs

/-! ## Runs -/

theorem pingsHold_of_reach {P : State E R → Act E → Prop}
    (h : Machine.Reach (client env cfg) P s) : PingsHold s := by
  intro hn p t d hp
  have hl : Machine.Reach (Mutex.machine Task) Machine.Any (sinkLock s) :=
    reach_sinkLock env cfg (fun _ _ _ _ _ _ _ _ => trivial) h
  have hh : s.holder = some (.ping p) := (Mutex.holder_iff hl (.ping p)).2 (by
    simp [sinkLock, sinkPc, hp, PingPc.sink, Mutex.Pc.isOp])
  rw [hn] at hh
  cases hh

/-- The client, with the log of its pings. -/
abbrev pingClient : Machine (State E R × List PingNote) (Act E) :=
  (client env cfg).observed pingNotes

/-- What every ping step keeps, where its condition holds, holds in every run. -/
theorem ping_invariant {P : State E R × List PingNote → Act E → Prop}
    {Q : PingView E → List PingNote → Prop} {I : PingView E → List PingNote → Prop}
    (hPQ : ∀ s a, P s a → Q s.1.pingView (pingNotes s.1 a))
    (h₀ : I (State.new cfg : State E R).pingView [])
    (hstep : ∀ v v' notes log, PingStep v v' notes → Q v notes → I v log → I v' (log ++ notes))
    {s : State E R × List PingNote} (h : Machine.Reach (pingClient env cfg) P s) :
    I s.1.pingView s.2 := by
  refine h.invariant (I := fun s => I s.1.pingView s.2) h₀ fun s a s' hr hP hs hI => ?_
  have hr' : Machine.Reach (client env cfg) Machine.Any s.1 := hr.unobserved fun _ _ _ => trivial
  obtain ⟨ht, hl⟩ := Machine.observed_step hs
  rw [hl]
  exact hstep _ _ _ _ (pingStep_of_step env cfg (installed_of_reach env cfg hr')
    (pingsHold_of_reach env cfg hr') (numbered_of_reach env cfg hr') ht) (hPQ s a hP) hI

end OcppClient
