import OcppClient.Proofs.Passage

/-!
# Disconnect and the dial in flight

`disconnect` closes the sink installed when it gets the lock, and the read loop does not look at the
flag again between the start of a dial and its next `recv`. A dial that succeeds after the flag was
set installs a sink that nobody closes and is broadcast as a reconnect. While that does not happen,
a client that was shut down stays so.
-/

namespace OcppClient

open Transition History

variable {E R : Type}

/-- A `disconnect` that returned `Ok`, the first one or a repeated one. -/
def DisconnectPc.Ok : DisconnectPc E → Prop
  | .returned (.ok _) => True
  | .alreadyClosed => True
  | _ => False

/-- A broadcast of a reconnect comes before the flag is set. -/
def BeforeClosed (pre : List (Event E)) (e : Event E) : Prop :=
  e = .loop .reconnected → .loop .closed ∉ pre

/-- Once a `disconnect` has returned `Ok` and the read loop has exited, `close` was called on the
sink that is installed, and no reconnect was broadcast after the flag was set. -/
def CleanShutdown (s : State E R) : Prop :=
  ∀ d, (s.disconnects d).Ok → s.read = .exited →
    (∃ t, .issued t s.sink .close ∈ s.hist) ∧ Always BeforeClosed s.hist

/-- `close` has been called by this `disconnect`, or by the one it found ahead of it. -/
def DisconnectPc.Issued : DisconnectPc E → Prop
  | .closing => True
  | .returned _ => True
  | .alreadyClosed => True
  | _ => False

/-- No dial succeeds after the flag is set, the flag is not set between a dial that succeeded and
the broadcast that follows, and a repeated `disconnect` waits until the first has called `close`. -/
def NoLateDial (s : State E R) : Act E → Prop
  | .poll .read (.done (.ok _)) => ∀ b, s.read = .dial b → s.closed = false
  | .disconnect _ => if s.closed then ∃ d, (s.disconnects d).Issued else ¬ Installing s.read
  | _ => True

structure ShutInv (s : State E R) : Prop where
  closed : .loop .closed ∈ s.hist → s.closed = true
  installing : s.closed = true → ¬ Installing s.read
  lock : ∀ d, s.disconnects d = .lockSink → s.closed = true
  issued : ∀ d, (s.disconnects d).Issued →
    s.closed = true ∧ ∃ t, .issued t s.sink .close ∈ s.hist
  late : Always BeforeClosed s.hist

theorem beforeClosed_of_ne {e : Event E} (he : e ≠ .loop .reconnected) (pre : List (Event E)) :
    BeforeClosed pre e :=
  fun h => absurd h he

theorem Grows.beforeClosed {ks : List Kind} {h h' : List (Event E)} (hg : Grows ks h h')
    (hk : .passage ∉ ks) (hl : Always BeforeClosed h) : Always BeforeClosed h' := by
  refine hg.always hl fun e he => beforeClosed_of_ne ?_
  rintro rfl
  exact hk he

variable {s s' : State E R}

/-- A step that leaves the flag, the `disconnect`s and the sink. -/
theorem ShutInv.keep (hI : ShutInv s) {ks : List Kind} (hc : s'.closed = s.closed)
    (hd : s'.disconnects = s.disconnects) (hk : s'.sink = s.sink) (hg : Grows ks s.hist s'.hist)
    (hks : .closed ∉ ks) (hi : s.closed = true → ¬ Installing s'.read)
    (hl : Always BeforeClosed s'.hist) : ShutInv s' := by
  refine ⟨fun hm => ?_, ?_, fun d => ?_, fun d h => ?_, hl⟩
  · rw [hc]
    exact hI.closed (hg.of_mem hm hks)
  · rw [hc]
    exact hi
  · rw [hc, hd]
    exact hI.lock d
  · rw [hd] at h
    obtain ⟨h₁, t, ht⟩ := hI.issued d h
    exact ⟨hc.trans h₁, t, hk ▸ hg.mem ht⟩

/-- One `disconnect` moves to `pc` on a client that is closed already. -/
theorem ShutInv.set (hI : ShutInv s) {d : ℕ} {pc : DisconnectPc E} {ks : List Kind}
    (hc : s'.closed = s.closed) (hd : s'.disconnects = Function.update s.disconnects d pc)
    (hr : s'.read = s.read) (hk : s'.sink = s.sink) (hg : Grows ks s.hist s'.hist)
    (hks : .passage ∉ ks) (hcl : s.closed = true)
    (hpc : pc.Issued → ∃ t, .issued t s.sink .close ∈ s'.hist) : ShutInv s' := by
  refine ⟨fun _ => hc.trans hcl, fun _ => hr ▸ hI.installing hcl, fun _ _ => hc.trans hcl,
    fun d' h => ⟨hc.trans hcl, ?_⟩, hg.beforeClosed hks hI.late⟩
  rw [hk]
  rw [hd] at h
  rcases eq_or_ne d' d with rfl | hne
  · rw [Function.update_self] at h
    exact hpc h
  · rw [Function.update_of_ne hne] at h
    obtain ⟨-, t, ht⟩ := hI.issued d' h
    exact ⟨t, hg.mem ht⟩

variable [ProtocolError E] (env : Env R) (cfg : ClientConfig)

theorem ShutInv.read (hI : ShutInv s) {p : Poll} (hs : readPoll env cfg s p = some s')
    (hP : NoLateDial s (.poll .read p : Act E)) : ShutInv s' := by
  have hf := readPoll_frame env cfg hs
  have hkeep := fun hk hi hl => hI.keep hf.closed hf.disconnects hk hf.grows (by simp) hi hl
  -- A closed client is not at the swap or the broadcast, so the sink stays.
  have hopen : Installing s.read → s.closed = false := fun hin =>
    Bool.eq_false_iff.2 fun hc => hI.installing hc hin
  cases readPoll_passage env cfg hs with
  | wake hr h =>
    obtain ⟨rd, h', hs', hg⟩ := readWoken_footprint cfg h
    refine hkeep (by rw [hs']) (fun _ => (readWoken_resting cfg h hr).not_installing) ?_
    unfold readWoken at h
    split_ifs at h <;> cases h <;> exact hI.late.snoc (beforeClosed_of_ne (by simp) _)
  | backoff hr hw h =>
    obtain ⟨rd, h', hs', hg⟩ :=
      beginDial_footprint { s with wake := false, hist := s.hist ++ [.loop .woken] }
    refine hkeep (by rw [h, hs']) (fun _ => h ▸ (beginDial_resting _).not_installing) ?_
    rw [h, hs']
    exact hg.beforeClosed (by simp) (hI.late.snoc (beforeClosed_of_ne (by simp) _))
  | dialled hr h =>
    subst h
    refine hkeep rfl (fun hc => ?_) hI.late
    rw [hP _ hr] at hc
    cases hc
  | @swap k hr hn h =>
    have hc := hopen (by rw [hr]; trivial)
    subst h
    refine ⟨fun hm => hI.closed (by simpa using hm), fun hc' => ?_, hI.lock, fun d hd => ?_,
      hI.late.snoc (beforeClosed_of_ne (by simp) _)⟩
    · rw [hc] at hc'
      cases hc'
    · rw [(hI.issued d hd).1] at hc
      cases hc
  | broadcast hr h =>
    have hc := hopen (by rw [hr]; trivial)
    subst h
    refine hkeep rfl (fun _ => id) (hI.late.snoc fun _ hm => ?_)
    rw [hI.closed hm] at hc
    cases hc
  | other hk ht hw hi hg => exact hkeep hk (fun _ => hi) (hg.beforeClosed (by simp) hI.late)

omit [ProtocolError E] in
theorem ShutInv.disconnect (hI : ShutInv s) {d : ℕ} (h : disconnect s d = some s')
    (hP : NoLateDial s (.disconnect d : Act E)) : ShutInv s' := by
  unfold OcppClient.disconnect at h
  split at h
  case h_2 => cases h
  unfold NoLateDial at hP
  split_ifs at h hP with hc
  · cases h
    obtain ⟨d', hd'⟩ := hP
    exact hI.set rfl rfl rfl rfl (.refl [] _) (by simp) hc fun _ => (hI.issued d' hd').2
  · cases h
    refine ⟨fun _ => rfl, fun _ => hP, fun _ _ => rfl, fun d' hd' => ?_,
      hI.late.snoc (beforeClosed_of_ne (by simp) _)⟩
    rcases eq_or_ne d' d with rfl | hne
    · simp [DisconnectPc.Issued] at hd'
    · simp only [Function.update_of_ne hne] at hd'
      exact absurd (hI.issued d' hd').1 hc

omit [ProtocolError E] in
theorem ShutInv.disconnectPoll (hI : ShutInv s) {d : ℕ} {p : Poll}
    (h : disconnectPoll s d p = some s') : ShutInv s' := by
  unfold OcppClient.disconnectPoll at h
  split at h
  case h_1 hpc =>
    obtain ⟨-, rfl⟩ := issue_map h
    have hg : Grows [.issued] s.hist (s.hist ++ [.issued (.disconnect d) s.sink .close]) :=
      .snoc (by simp)
    exact hI.set rfl rfl rfl rfl hg (by simp) (hI.lock d hpc)
      fun _ => ⟨.disconnect d, List.mem_append_right _ (List.mem_singleton_self _)⟩
  case h_2 =>
    obtain ⟨-, rfl⟩ := pend_eq h
    exact hI.keep rfl rfl rfl (.refl [] _) (by simp) hI.installing hI.late
  case h_3 r hpc =>
    cases h
    obtain ⟨hc, hi⟩ := hI.issued d (by rw [hpc]; trivial)
    exact hI.set rfl rfl rfl rfl (.refl [] _) (by simp) hc fun _ => hi
  case h_4 => cases h

theorem shutInv_of_reach (h : Machine.Reach (client env cfg) NoLateDial s) : ShutInv s := by
  refine h.invariant ?_ fun s a s' _ hP hs hI => ?_
  · refine ⟨by simp [client, State.new], fun _ => id, by simp [client, State.new], ?_, .nil⟩
    simp [client, State.new, DisconnectPc.Issued]
  · cases loop_cases env cfg hs with
    | recv h =>
      have hf := readRecv_frame env cfg h
      obtain ⟨hk, -, -, hi, hg⟩ := readRecv_passage env cfg h
      exact hI.keep hf.closed hf.disconnects hk hg (by simp) (fun _ => hi)
        (hg.beforeClosed (by simp) hI.late)
    | read h => exact hI.read env cfg h hP
    | disconnect h => exact hI.disconnect h hP
    | disconnectPoll h => exact hI.disconnectPoll h
    | other hf =>
      have hg : Grows [.call, .raised, .ping, .escalated, .issued] s.hist s'.hist := by
        rcases hf.wake with ⟨-, hg⟩ | hr
        · exact hg.mono (by simp)
        · exact hr.grows.mono (by simp)
      exact hI.keep hf.closed hf.disconnects hf.sink hg (by simp) (hf.read ▸ hI.installing)
        (hg.beforeClosed (by simp) hI.late)

/-- In every run in which no dial outlives the flag, a client that was shut down is closed and stays
quiet. -/
theorem cleanShutdown_of_noLateDial (h : Machine.Reach (client env cfg) NoLateDial s) :
    CleanShutdown s := by
  intro d hd _
  have hI := shutInv_of_reach env cfg h
  refine ⟨(hI.issued d ?_).2, hI.late⟩
  revert hd
  cases s.disconnects d <;> simp [DisconnectPc.Ok, DisconnectPc.Issued]

/-- The transport ends, and a `disconnect` comes while the client dials; the dial then fails. -/
def disconnectedDial : List (Act WireError) :=
  [.recv none, .poll .read .ready, .poll .read .timer, .poll .read .pend, .disconnect 0,
    .poll (.disconnect 0) .ready, .poll (.disconnect 0) (.done (.ok ())),
    .poll .read (.done (.error "refused")), .poll .read .ready]

theorem cleanShutdown_of_disconnectedDial :
    ∃ s, scenario.run scenario.init disconnectedDial = some s
      ∧ s.disconnects 0 = .returned (.ok ()) ∧ s.read = .exited ∧ CleanShutdown s :=
  ⟨_, rfl, rfl, rfl, cleanShutdown_of_noLateDial scenarioEnv scenarioConfig
    (Machine.reach_of_run (M := scenario) disconnectedDial .init
      ⟨trivial, trivial, trivial, trivial, id, trivial, trivial, trivial, trivial, trivial⟩ rfl)⟩

/-- The same, but for the dial, which succeeds. -/
def lateDial : List (Act WireError) :=
  [.recv none, .poll .read .ready, .poll .read .timer, .poll .read .pend, .disconnect 0,
    .poll (.disconnect 0) .ready, .poll (.disconnect 0) (.done (.ok ())),
    .poll .read (.done (.ok ())), .poll .read .ready, .poll .read .ready, .poll .read .ready,
    .poll .read .ready]

theorem late_dial_survives :
    ∃ s, Machine.Reach scenario Machine.Any s ∧ s.disconnects 0 = .returned (.ok ())
      ∧ s.read = .exited ∧ s.sink = 1
      ∧ s.hist = [.loop (.exit .eof 0), .loop .dialing, .loop .closed,
        .issued (.disconnect 0) 0 .close, .loop (.swapped 1), .loop .reconnected,
        .loop (.exit .shutdown 1)]
      ∧ ¬ CleanShutdown s := by
  refine ⟨_, Machine.reach_any_of_run lateDial rfl, rfl, rfl, rfl, rfl, fun h => ?_⟩
  obtain ⟨t, ht⟩ := (h 0 trivial rfl).1
  revert ht
  change Event.issued t 1 .close ∉ [.loop (.exit .eof 0), .loop .dialing, .loop .closed,
    .issued (.disconnect 0) 0 .close, .loop (.swapped 1), .loop .reconnected,
    .loop (.exit .shutdown 1)]
  simp

end OcppClient
