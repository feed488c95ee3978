import OcppClient.Proofs.Footprint

/-!
# The rate of the redials

A dial begins at the end of a backoff and nowhere else, on an open client, and the delay of that
backoff was computed from the dials begun since the last inbound event. The wait before it ran out,
or a raised signal was consumed to cut it short; so the dials are bounded by both together.
-/

namespace OcppClient

open Transition

variable {E R : Type}

/-! ## Counting -/

/-- The dials begun since the last inbound event, after one more event. -/
def dialSince (n : ℕ) : Event E → ℕ
  | .loop (.received _) => 0
  | .loop .dialing => n + 1
  | _ => n

/-- The dials begun since the last inbound event, or since the start. -/
def dialsSince (h : List (Event E)) : ℕ := h.foldl dialSince 0

def Event.isDial : Event E → Bool
  | .loop .dialing => true
  | _ => false

def Event.isRaise : Event E → Bool
  | .loop (.raised _) => true
  | _ => false

def dials (h : List (Event E)) : ℕ := h.countP Event.isDial

/-- The `force_reconnect`s that set the wake signal. -/
def raises (h : List (Event E)) : ℕ := h.countP Event.isRaise

/-- The delay of a backoff that a step runs to its end. -/
def waited (s : State E R) : Act E → List Duration
  | .poll .read .timer =>
    match s.read with
    | .backoff d => [d]
    | _ => []
  | _ => []

@[simp] theorem dialsSince_snoc (h : List (Event E)) (e : Event E) :
    dialsSince (h ++ [e]) = dialSince (dialsSince h) e := by
  simp [dialsSince]

theorem dials_snoc (h : List (Event E)) (e : Event E) :
    dials (h ++ [e]) = dials h + e.isDial.toNat := by
  rw [dials, List.countP_append, List.countP_singleton]
  cases e.isDial <;> rfl

theorem raises_snoc (h : List (Event E)) (e : Event E) :
    raises (h ++ [e]) = raises h + e.isRaise.toNat := by
  rw [raises, List.countP_append, List.countP_singleton]
  cases e.isRaise <;> rfl

theorem dialSince_of_kind {e : Event E} (hl : e.kind ≠ .loop) (n : ℕ) : dialSince n e = n := by
  unfold dialSince
  split
  · exact absurd rfl hl
  · exact absurd rfl hl
  · rfl

theorem isDial_of_kind {e : Event E} (hl : e.kind ≠ .loop) : e.isDial = false := by
  unfold Event.isDial
  split
  · exact absurd rfl hl
  · rfl

theorem isRaise_of_kind {e : Event E} (hr : e.kind ≠ .raised) : e.isRaise = false := by
  unfold Event.isRaise
  split
  · exact absurd rfl hr
  · rfl

theorem Grows.dialsSince {ks : List Kind} {h h' : List (Event E)} (hg : Grows ks h h')
    (hl : .loop ∉ ks) : dialsSince h' = dialsSince h :=
  hg.foldl (fun _ he n => dialSince_of_kind (fun h => hl (h ▸ he)) n) 0

theorem Grows.dials {ks : List Kind} {h h' : List (Event E)} (hg : Grows ks h h')
    (hl : .loop ∉ ks) : dials h' = dials h :=
  hg.countP fun _ he => isDial_of_kind fun h => hl (h ▸ he)

theorem Grows.raises {ks : List Kind} {h h' : List (Event E)} (hg : Grows ks h h')
    (hr : .raised ∉ ks) : raises h' = raises h :=
  hg.countP fun _ he => isRaise_of_kind fun h => hr (h ▸ he)

/-! ## The moves of the loop -/

variable {s s' : State E R}

/-- A poll of the read loop, as the backoff sees it. -/
inductive RedialMove (env : Env R) (cfg : ClientConfig) (s s' : State E R) : Poll → Prop
  | wait {p : Poll} (hr : ∀ d, s.read ≠ .backoff d) (hx : s.read ≠ .exited)
    (hd : s'.read = .backoff (cfg.reconnectPolicy.jitteredDelayFor s.attempt (env.newV4 s.draws)))
    (ha : s'.attempt = saturatingSucc s.attempt) (hw : s'.wake = s.wake) (hh : s'.hist = s.hist) :
    RedialMove env cfg s s' p
  | dial {d : Duration} (hr : s.read = .backoff d) (hc : s.closed = false)
    (h : s' = { s with read := .dial false, hist := s.hist ++ [.loop .dialing] }) :
    RedialMove env cfg s s' .timer
  | wokenDial {d : Duration} (hr : s.read = .backoff d) (hc : s.closed = false)
    (hw : s.wake = true)
    (h : s' = { s with
      wake := false, read := .dial false, hist := s.hist ++ [.loop .woken] ++ [.loop .dialing] }) :
    RedialMove env cfg s s' .ready
  | stay {p : Poll} (hr : (∀ d, s.read ≠ .backoff d) ∨ s'.read = .exited)
    (hr' : ∀ d, s'.read ≠ .backoff d) (hx : s.read ≠ .exited) (ha : s'.attempt = s.attempt)
    (hw : s'.wake = true → s.wake = true)
    (hg : Grows [.handled, .passage, .issued] s.hist s'.hist) :
    RedialMove env cfg s s' p

/-- The loop is at a place where it is neither in the backoff nor at its end. -/
def ReadPc.Connected : ReadPc E → Prop
  | .backoff _ | .exited => False
  | _ => True

theorem ReadPc.Connected.ne_backoff {pc : ReadPc E} (h : pc.Connected) (d : Duration) :
    pc ≠ .backoff d := by
  rintro rfl
  exact h

theorem ReadPc.Connected.ne_exited {pc : ReadPc E} (h : pc.Connected) : pc ≠ .exited := by
  rintro rfl
  exact h

theorem ReadPc.Operating.connected {pc : ReadPc E} (h : pc.Operating) : pc.Connected := by
  cases pc <;> trivial

theorem Acquires.connected {pc pc' : ReadPc E} {op : SinkOp} (h : Acquires pc op pc') :
    pc.Connected ∧ pc'.Connected := by
  cases h <;> exact ⟨trivial, trivial⟩

theorem Releases.connected {pc pc' : ReadPc E} (h : Releases pc pc') : pc'.Connected := by
  cases h <;> trivial

theorem Steers.connected {pc pc' : ReadPc E} (h : Steers pc pc') :
    pc.Connected ∧ pc'.Connected := by
  cases h <;> exact ⟨trivial, trivial⟩

theorem leave_ne_backoff (cfg : ClientConfig) (s : State E R) (reason : LoopExit) (d : Duration) :
    (leave cfg s reason).read ≠ .backoff d := by
  unfold leave
  simp only []
  split_ifs <;> simp

theorem readWoken_ne_backoff {cfg : ClientConfig} (h : readWoken cfg s = some s')
    (hr : s.read = .recv) (d : Duration) : s'.read ≠ .backoff d := by
  unfold readWoken at h
  split_ifs at h <;> cases h
  · exact leave_ne_backoff cfg _ _ d
  · exact leave_ne_backoff cfg _ _ d
  · simp [hr]

/-- A move from one place outside the backoff to another. -/
theorem RedialMove.within {env : Env R} {cfg : ClientConfig} {p : Poll} (hr : s.read.Connected)
    (hr' : s'.read.Connected) (ha : s'.attempt = s.attempt) (hw : s'.wake = s.wake)
    (hg : Grows [.handled, .passage, .issued] s.hist s'.hist) : RedialMove env cfg s s' p :=
  .stay (.inl hr.ne_backoff) hr'.ne_backoff hr.ne_exited ha (fun h => hw ▸ h) hg

variable [ProtocolError E] (env : Env R) (cfg : ClientConfig)

theorem readPoll_redial {p : Poll} (hs : readPoll env cfg s p = some s') :
    RedialMove env cfg s s' p := by
  have hgr : Grows [.handled, .passage, .issued] s.hist s.hist := .refl _ _
  cases readPoll_moves env cfg hs with
  | wake hr h =>
    have hne := readWoken_ne_backoff h hr
    obtain ⟨rd, h', hs', hg⟩ := readWoken_footprint cfg h
    exact .stay (.inl (by simp [hr])) hne (by simp [hr]) (by rw [hs'])
      (fun hw => by rw [hs'] at hw; cases hw) (by rw [hs']; exact hg.mono (by simp))
  | backoff hr h =>
    subst h
    exact .wait (by simp [hr]) (by simp [hr]) rfl rfl rfl rfl
  | redial hr h =>
    subst h
    exact .wait (by simp [hr]) (by simp [hr]) rfl rfl rfl rfl
  | dial hr h =>
    unfold beginDial at h
    split_ifs at h with hc
    · subst h
      exact .stay (.inr rfl) (by simp) (by simp [hr]) rfl id hgr
    · exact .dial hr (by simpa using hc) h
  | wokenDial hr hw h =>
    unfold beginDial at h
    split_ifs at h with hc
    · subst h
      exact .stay (.inr rfl) (by simp) (by simp [hr]) rfl (fun _ => hw) (.snoc (by simp))
    · exact .wokenDial hr (by simpa using hc) hw h
  | clear hr h =>
    subst h
    exact .stay (.inr rfl) (by simp) (by simp [hr]) rfl id hgr
  | pong hr h =>
    obtain ⟨rd, ws, po, hp, -⟩ := resolvePong_footprint s _
    have hr' : s'.read = .recv := h ▸ resolvePong_read s _
    exact .within (by rw [hr]; trivial) (by rw [hr']; trivial) (by rw [h, hp]) (by rw [h, hp])
      (by rw [h, hp]; exact hgr)
  | release hr h => exact h ▸ .within hr.operating.connected hr.connected rfl rfl hgr
  | acquire hr _ h => exact h ▸ .within hr.connected.1 hr.connected.2 rfl rfl (.snoc (by simp))
  | pend hr _ h => exact h ▸ .within hr.connected hr.connected rfl rfl hgr
  | go hr h => exact h ▸ .within hr.connected.1 hr.connected.2 rfl rfl hgr
  | lookup hr _ h => exact h ▸ .within (by rw [hr]; trivial) trivial rfl rfl hgr
  | push hr h => exact h ▸ .within (by rw [hr]; trivial) trivial rfl rfl hgr
  | resolve hr h => exact h ▸ .within (by rw [hr]; trivial) trivial rfl rfl (.snoc (by simp))
  | notify hr h => exact h ▸ .within (by rw [hr]; trivial) trivial rfl rfl hgr
  | dialPend hr h => exact h ▸ .within (by rw [hr]; trivial) trivial rfl rfl hgr
  | dialled hr h => exact h ▸ .within (by rw [hr]; trivial) trivial rfl rfl hgr
  | swap hr _ h => exact h ▸ .within (by rw [hr]; trivial) trivial rfl rfl (.snoc (by simp))
  | broadcast hr h => exact h ▸ .within (by rw [hr]; trivial) trivial rfl rfl (.snoc (by simp))

theorem handleEvent_connected (s : State E R) (e : TransportEvent) :
    (handleEvent env s e).read.Connected := by
  unfold handleEvent handleFrame
  cases e with
  | frame f =>
    simp only []
    split <;> trivial
  | ping => trivial
  | pong => trivial

/-- An inbound event resets the counter; the end of the stream does not. -/
theorem readRecv_redial {e : Option TransportEvent} (h : readRecv env cfg s e = some s') :
    s.read = .recv ∧ (∀ d, s'.read ≠ .backoff d) ∧ s'.wake = s.wake
      ∧ (s'.attempt = 0 ∧ (∃ e, s'.hist = s.hist ++ [.loop (.received e)])
        ∨ s'.attempt = s.attempt ∧ s'.hist = s.hist ++ [.loop (.exit .eof s.stream)]) := by
  have hr := (readRecv_leads env cfg h).1
  unfold readRecv at h
  rw [hr] at h
  cases e with
  | none =>
    cases h
    exact ⟨hr, leave_ne_backoff cfg s _, rfl, .inr ⟨rfl, rfl⟩⟩
  | some e =>
    cases h
    have hc := handleEvent_connected env s e
    obtain ⟨rd, hrd⟩ := handleEvent_footprint env s e
    refine ⟨hr, hc.ne_backoff, ?_, .inl ⟨?_, e, ?_⟩⟩ <;> rw [hrd]

/-! ## The bound -/

/-- One for a loop that counted its backoff and has not dialled yet. -/
def ReadPc.counted : ReadPc E → ℕ
  | .backoff _ => 1
  | _ => 0

omit [ProtocolError E] in
theorem ReadPc.counted_of_ne {pc : ReadPc E} (h : ∀ d, pc ≠ .backoff d) : pc.counted = 0 := by
  unfold ReadPc.counted
  split
  · exact absurd rfl (h _)
  · rfl

/-- The counter is the number of dials since the last inbound event and the one to come, and the
delay of the backoff was computed from those before it. -/
structure BackoffInv (env : Env R) (cfg : ClientConfig) (s : State E R) : Prop where
  attempt : s.read ≠ .exited → s.attempt = min (dialsSince s.hist + s.read.counted) u32Max
  delay : ∀ d, s.read = .backoff d → ∃ i, d = cfg.reconnectPolicy.jitteredDelayFor
    (min (dialsSince s.hist) u32Max) (env.newV4 i)

omit [ProtocolError E] in
theorem BackoffInv.keep (hI : BackoffInv env cfg s) (hr : s'.read = s.read)
    (ha : s'.attempt = s.attempt) (hd : dialsSince s'.hist = dialsSince s.hist) :
    BackoffInv env cfg s' := by
  refine ⟨?_, ?_⟩
  · rw [hr, ha, hd]
    exact hI.attempt
  · rw [hr, hd]
    exact hI.delay

theorem BackoffInv.read (hI : BackoffInv env cfg s) {p : Poll}
    (hs : readPoll env cfg s p = some s') : BackoffInv env cfg s' := by
  cases readPoll_redial env cfg hs with
  | wait hr hx hd ha _ hh =>
    have h₀ := hI.attempt hx
    rw [ReadPc.counted_of_ne hr, Nat.add_zero] at h₀
    refine ⟨fun _ => ?_, fun d h => ?_⟩
    · rw [ha, hd, hh, h₀, saturatingSucc]
      simp only [ReadPc.counted]
      omega
    · rw [hd] at h
      exact ⟨s.draws, by rw [hh, ← h₀]; exact (ReadPc.backoff.inj h).symm⟩
  | dial hr _ h =>
    have h₀ := hI.attempt (by simp [hr])
    subst h
    refine ⟨fun _ => ?_, by simp⟩
    rw [dialsSince_snoc]
    simpa [ReadPc.counted, hr, dialSince] using h₀
  | wokenDial hr _ _ h =>
    have h₀ := hI.attempt (by simp [hr])
    subst h
    refine ⟨fun _ => ?_, by simp⟩
    rw [dialsSince_snoc, dialsSince_snoc]
    simpa [ReadPc.counted, hr, dialSince] using h₀
  | stay hr hr' hx ha _ hg =>
    refine ⟨fun hx' => ?_, fun d h => absurd h (hr' d)⟩
    have h₀ := hI.attempt hx
    rw [ReadPc.counted_of_ne (hr.resolve_right hx')] at h₀
    rw [ha, hg.dialsSince (by simp), ReadPc.counted_of_ne hr', h₀]

theorem BackoffInv.recv (hI : BackoffInv env cfg s) {e : Option TransportEvent}
    (hs : readRecv env cfg s e = some s') : BackoffInv env cfg s' := by
  obtain ⟨hr, hr', -, h⟩ := readRecv_redial env cfg hs
  refine ⟨fun _ => ?_, fun d h => absurd h (hr' d)⟩
  rw [ReadPc.counted_of_ne hr']
  rcases h with ⟨ha, e, hh⟩ | ⟨ha, hh⟩
  · rw [ha, hh, dialsSince_snoc]
    rfl
  · have h₀ := hI.attempt (by simp [hr])
    rw [hr] at h₀
    rw [ha, hh, dialsSince_snoc, h₀]
    rfl

theorem backoffInv_of_reach {P : State E R → Act E → Prop}
    (h : Machine.Reach (client env cfg) P s) : BackoffInv env cfg s := by
  refine h.invariant ⟨fun _ => rfl, by simp [client, State.new]⟩ fun s a s' _ _ hs hI => ?_
  rcases counters_of_step env cfg hs with ⟨e, h⟩ | ⟨p, h⟩ | ⟨ha, -⟩
  · exact hI.recv env cfg h
  · exact hI.read env cfg h
  · refine (loop_cases env cfg hs).elim env cfg (fun e h => hI.recv env cfg h)
      (fun p h => hI.read env cfg h) fun ho => ?_
    exact hI.keep env cfg ho.read ha (ho.grows.dialsSince (by simp))

/-- One for a signal that can cut a backoff short: a closed client dials no more. -/
def State.armed (s : State E R) : ℕ := if s.wake = true ∧ s.closed = false then 1 else 0

omit [ProtocolError E] in
theorem armed_le (hc : s'.closed = s.closed) (hw : s'.wake = true → s.wake = true) :
    s'.armed ≤ s.armed := by
  unfold State.armed
  split_ifs with h' h
  · exact Nat.le_refl _
  · exact absurd ⟨hw h'.1, hc ▸ h'.2⟩ h
  · exact Nat.zero_le _
  · exact Nat.le_refl _

omit [ProtocolError E] in
theorem armed_le_one (s : State E R) : s.armed ≤ 1 := by
  unfold State.armed
  split_ifs <;> decide

/-- The dials, and the one an armed signal can still bring, against the waits and the raises. -/
def RateInv (s : State E R × List Duration) : Prop :=
  dials s.1.hist + s.1.armed ≤ s.2.length + raises s.1.hist

omit [ProtocolError E] in
theorem RateInv.keep {waits : List Duration} (hI : RateInv (s, waits)) (l : List Duration)
    (hd : dials s'.hist = dials s.hist) (hr : raises s'.hist = raises s.hist)
    (ha : s'.armed ≤ s.armed) : RateInv (s', waits ++ l) := by
  unfold RateInv at hI ⊢
  simp only [List.length_append] at hI ⊢
  rw [hd, hr]
  omega

theorem RateInv.read {waits : List Duration} (hI : RateInv (s, waits)) {p : Poll}
    (hs : readPoll env cfg s p = some s') :
    RateInv (s', waits ++ waited s (.poll .read p : Act E)) := by
  have hc := (readPoll_frame env cfg hs).closed
  cases readPoll_redial env cfg hs with
  | wait _ _ _ _ hw hh => exact hI.keep _ (by rw [hh]) (by rw [hh]) (armed_le hc fun h => hw ▸ h)
  | dial hr _ h =>
    have hl : (waited s (.poll .read .timer : Act E)).length = 1 := by simp [waited, hr]
    have ha := armed_le hc fun hw => by rwa [h] at hw
    have hd : dials s'.hist = dials s.hist + 1 := by rw [h, dials_snoc]; rfl
    have hr' : raises s'.hist = raises s.hist := by rw [h, raises_snoc]; rfl
    unfold RateInv at hI ⊢
    simp only [List.length_append] at hI ⊢
    omega
  | wokenDial _ hcl hw h =>
    -- the signal pays for the dial
    have ha : s.armed = 1 := by simp [State.armed, hcl, hw]
    have ha' : s'.armed = 0 := by simp [State.armed, h]
    have hd : dials s'.hist = dials s.hist + 1 := by rw [h, dials_snoc, dials_snoc]; rfl
    have hr' : raises s'.hist = raises s.hist := by rw [h, raises_snoc, raises_snoc]; rfl
    unfold RateInv at hI ⊢
    simp only [List.length_append] at hI ⊢
    omega
  | stay _ _ _ _ hw hg =>
    exact hI.keep _ (hg.dials (by simp)) (hg.raises (by simp)) (armed_le hc hw)

theorem RateInv.step {waits : List Duration} (hI : RateInv (s, waits)) {a : Act E}
    (hs : step env cfg s a = some s') : RateInv (s', waits ++ waited s a) := by
  cases loop_cases env cfg hs with
  | read h => exact hI.read env cfg h
  | recv h =>
    have hc := (readRecv_frame env cfg h).closed
    obtain ⟨-, -, hw, ⟨-, e, hh⟩ | ⟨-, hh⟩⟩ := readRecv_redial env cfg h
    · exact hI.keep _ (by rw [hh, dials_snoc]; rfl) (by rw [hh, raises_snoc]; rfl)
        (armed_le hc fun h => hw ▸ h)
    · exact hI.keep _ (by rw [hh, dials_snoc]; rfl) (by rw [hh, raises_snoc]; rfl)
        (armed_le hc fun h => hw ▸ h)
  | disconnect h =>
    unfold disconnect at h
    split at h
    · split_ifs at h with hc <;> cases h
      · exact hI.keep _ rfl rfl (armed_le rfl id)
      · refine hI.keep _ (by rw [dials_snoc]; rfl) (by rw [raises_snoc]; rfl) ?_
        simp [State.armed]
    · cases h
  | disconnectPoll h =>
    obtain ⟨_, _, _, _, rfl, hg⟩ := disconnectPoll_footprint h
    exact hI.keep _ (hg.dials (by simp)) (hg.raises (by simp)) (armed_le rfl id)
  | other hf =>
    rcases hf.wake with ⟨hw, hg⟩ | ⟨hw, hg⟩ | ⟨-, -, h₁, hg, hh⟩
    · exact hI.keep _ (hg.dials (by simp)) (hg.raises (by simp))
        (armed_le hf.closed fun h => hw ▸ h)
    · exact hI.keep _ (hg.dials (by simp)) (hg.raises (by simp))
        (armed_le hf.closed fun h => hw ▸ h)
    · have ha := armed_le_one s'
      have hd : dials s'.hist = dials s.hist := by rw [hh, dials_snoc, hg.dials (by simp)]; rfl
      have hr : raises s'.hist = raises s.hist + 1 := by
        rw [hh, raises_snoc, hg.raises (by simp)]; rfl
      unfold RateInv at hI ⊢
      simp only [List.length_append] at hI ⊢
      omega

theorem rateInv_of_reach {s : State E R × List Duration}
    (h : Machine.Reach ((client env cfg).observed waited) Machine.Any s) : RateInv s := by
  refine h.invariant (I := RateInv) (Nat.le_refl _) fun s a s' _ _ hs hI => ?_
  obtain ⟨ht, hw⟩ := Machine.observed_step hs
  have hI' := RateInv.step env cfg hI ht
  rwa [← hw] at hI'

/-- A step begins a dial only at the end of a backoff. -/
theorem backoff_of_dial {a : Act E} (hs : step env cfg s a = some s')
    (hd : dials s.hist < dials s'.hist) : ∃ d, s.read = .backoff d ∧ s.closed = false := by
  refine (loop_cases env cfg hs).elim env cfg (fun e h => ?_) (fun p h => ?_) fun ho => ?_
  · obtain ⟨-, -, -, ⟨-, e, hh⟩ | ⟨-, hh⟩⟩ := readRecv_redial env cfg h
    · rw [hh, dials_snoc] at hd
      exact absurd hd (Nat.lt_irrefl _)
    · rw [hh, dials_snoc] at hd
      exact absurd hd (Nat.lt_irrefl _)
  · cases readPoll_redial env cfg h with
    | wait _ _ _ _ _ hh => exact absurd hd (by rw [hh]; exact Nat.lt_irrefl _)
    | dial hr hc _ => exact ⟨_, hr, hc⟩
    | wokenDial hr hc _ _ => exact ⟨_, hr, hc⟩
    | stay _ _ _ _ _ hg => exact absurd hd (by rw [hg.dials (by simp)]; exact Nat.lt_irrefl _)
  · rw [ho.grows.dials (by simp)] at hd
    exact absurd hd (Nat.lt_irrefl _)

/-- The wait before every dial is the one for the dials begun since the last inbound event, and no
more dials were begun than waits ran to their end and `force_reconnect`s set the signal. -/
structure RedialRate (env : Env R) (cfg : ClientConfig) [ProtocolError E]
    (s : State E R) (waits : List Duration) : Prop where
  wait : ∀ a s', step env cfg s a = some s' → dials s.hist < dials s'.hist →
    ∃ i, s.read = .backoff (cfg.reconnectPolicy.jitteredDelayFor
      (min (dialsSince s.hist) u32Max) (env.newV4 i))
  dials_le : dials s.hist ≤ waits.length + raises s.hist

/-- In every run, whatever comes in and whether dials succeed or fail. -/
theorem redial_rate {s : State E R × List Duration}
    (h : Machine.Reach ((client env cfg).observed waited) Machine.Any s) :
    RedialRate env cfg s.1 s.2 := by
  have hr : Machine.Reach (client env cfg) Machine.Any s.1 := h.unobserved fun _ _ _ => trivial
  refine ⟨fun a s' hs hd => ?_, ?_⟩
  · obtain ⟨d, hd, -⟩ := backoff_of_dial env cfg hs hd
    obtain ⟨i, rfl⟩ := (backoffInv_of_reach env cfg hr).delay d hd
    exact ⟨i, hd⟩
  · have hI := rateInv_of_reach env cfg h
    unfold RateInv at hI
    omega

/-- Two transports end with nothing received, and a `force_reconnect` cuts the second wait short. -/
def endedTwice : List (Act WireError) :=
  [.recv none, .poll .read .ready, .poll .read .timer, .poll .read (.done (.ok ())),
    .poll .read .ready, .poll .read .ready, .recv none, .poll .read .ready, .forceReconnect,
    .poll .read .ready]

theorem redial_rate_of_endedTwice :
    ∃ s, (scenario.observed waited).run (scenario.observed waited).init endedTwice = some s
      ∧ dials s.1.hist = 2 ∧ s.2.length = 1 ∧ raises s.1.hist = 1 ∧ dialsSince s.1.hist = 2
      ∧ RedialRate scenarioEnv scenarioConfig s.1 s.2 :=
  ⟨_, rfl, rfl, rfl, rfl, rfl, redial_rate scenarioEnv scenarioConfig
    (Machine.reach_any_of_run (M := scenario.observed waited) endedTwice rfl)⟩

end OcppClient
