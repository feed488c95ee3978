import OcppClient.Proofs.Intervals

/-!
# The interval a caller reads back

An interval is stored as whole milliseconds in a `u32` whose zero means that keepalive is off, at
construction and in `set_ping_interval` alike. What `ping_interval` returns is the interval asked
for last, rounded and clamped, unless that is zero or less than a millisecond.
-/

namespace OcppClient

open Transition

variable {E R : Type}

/-! ## What is stored -/

/-- The duration in whole milliseconds, at most `u32::MAX` of them. -/
def Duration.wholeMillis (d : Duration) : Duration :=
  ⟨min d.asMillis u32Max * 10 ^ 6, by
    have : min d.asMillis u32Max ≤ u32Max := Nat.min_le_right _ _
    unfold u32Max at this ⊢
    omega⟩

/-- `r` is the answer of `ping_interval` to an interval `d`. -/
structure RoundTrip (d : Duration) (r : Option Duration) : Prop where
  none_iff : r = none ↔ d.nanos = 0
  rounded : d.nanos ≠ 0 → r = some d.wholeMillis

/-- The stored form of an interval asked for. -/
def askedMillis (interval : Option Duration) : ℕ :=
  storedMillis (interval.filter fun d => !d.isZero)

theorem filter_isZero (d : Duration) :
    (some d).filter (fun d => !d.isZero) = if d.isZero then none else some d := by
  rw [Option.filter_some]
  cases d.isZero <;> rfl

theorem askedMillis_some (d : Duration) : askedMillis (some d) = min d.asMillis u32Max := by
  rw [askedMillis, filter_isZero]
  split_ifs with hz
  · have hd : d.nanos = 0 := by simpa [Duration.isZero] using hz
    simp [storedMillis, Duration.asMillis, hd]
  · rfl

theorem storedInterval_pos {n : ℕ} (h₀ : n ≠ 0) (hn : n ≤ u32Max) :
    ∃ d, storedInterval n = some d ∧ d.nanos = n * 10 ^ 6 := by
  refine ⟨_, if_neg h₀, ?_⟩
  have : n < 2 ^ 64 := Nat.lt_of_le_of_lt hn (by decide)
  show n % 2 ^ 64 * 10 ^ 6 = n * 10 ^ 6
  rw [Nat.mod_eq_of_lt this]

/-- Less than a millisecond reads back as none, anything else as it was asked for. -/
theorem storedInterval_asked (d : Duration) :
    storedInterval (askedMillis (some d))
      = if d.nanos < 10 ^ 6 then none else some d.wholeMillis := by
  rw [askedMillis_some]
  have hz : d.asMillis = 0 ↔ d.nanos < 10 ^ 6 := by
    unfold Duration.asMillis
    omega
  split_ifs with hd
  · rw [hz.2 hd]
    rfl
  · have hne : min d.asMillis u32Max ≠ 0 := by
      have : d.asMillis ≠ 0 := fun h => hd (hz.1 h)
      unfold u32Max
      omega
    obtain ⟨d', he, hn⟩ := storedInterval_pos hne (Nat.min_le_right _ _)
    rw [he]
    congr 1
    cases d'
    simp_all [Duration.wholeMillis]

theorem roundTrip_iff (d : Duration) :
    RoundTrip d (storedInterval (askedMillis (some d)))
      ↔ d.nanos = 0 ∨ 10 ^ 6 ≤ d.nanos := by
  rw [storedInterval_asked]
  split_ifs with hd
  · refine ⟨fun h => .inl (h.none_iff.1 rfl), fun h => ?_⟩
    have h₀ : d.nanos = 0 := by omega
    exact ⟨iff_of_true rfl h₀, fun hne => absurd h₀ hne⟩
  · refine ⟨fun _ => .inr (Nat.not_lt.1 hd), fun _ => ⟨iff_of_false nofun ?_, fun _ => rfl⟩⟩
    omega

/-! ## What was asked for last -/

/-- The interval a behavior asks for. -/
def KeepaliveBehavior.asked : KeepaliveBehavior → Option Duration
  | .enabled p => some p.interval
  | .disabled => none

/-- What a caller of `set_ping_interval` asks for. -/
def askedBy (_ : State E R) : Act E → List (Option Duration)
  | .setPingInterval interval => [interval]
  | _ => []

/-- The interval asked for last: in the log, or at construction. -/
def lastAsked (cfg : ClientConfig) (log : List (Option Duration)) : Option Duration :=
  log.getLast?.getD cfg.keepalive.asked

theorem storedMillis_initialInterval (b : KeepaliveBehavior) :
    storedMillis b.initialInterval = askedMillis b.asked := by
  cases b with
  | disabled => rfl
  | enabled p =>
    rw [KeepaliveBehavior.asked, askedMillis, filter_isZero]
    rfl

variable [ProtocolError E] (env : Env R) (cfg : ClientConfig)

/-- Only `set_ping_interval` stores an interval. -/
theorem step_intervalMillis {s s' : State E R} {a : Act E} (hs : step env cfg s a = some s')
    (ha : ∀ i, a ≠ .setPingInterval i) : s'.intervalMillis = s.intervalMillis := by
  by_cases ht : a.Times
  · unfold Act.Times at ht
    split at ht
    · exact absurd rfl (ha _)
    · exact (keepalivePoll_interval hs).1
    · obtain ⟨_, _, _, _, _, _, _, _, _, _, hs', -⟩ := keepalivePingPoll_footprint cfg hs
      rw [hs']
    · exact ht.elim
  · exact (intervalFrame_of_not_times env cfg ht hs).intervalMillis

theorem intervalMillis_of_reach {s : State E R × List (Option Duration)}
    (h : Machine.Reach ((client env cfg).observed askedBy) Machine.Any s) :
    s.1.intervalMillis = askedMillis (lastAsked cfg s.2) := by
  refine h.invariant (I := fun s => s.1.intervalMillis = askedMillis (lastAsked cfg s.2))
    (storedMillis_initialInterval _) fun s a s' _ _ hs hI => ?_
  obtain ⟨hs, hl⟩ := Machine.observed_step hs
  rw [hl]
  by_cases ha : ∃ i, a = .setPingInterval i
  · obtain ⟨i, rfl⟩ := ha
    have hs : s'.1 = setPingInterval s.1 i := (Option.some.inj hs).symm
    simp [hs, askedBy, lastAsked, setPingInterval, askedMillis]
  · have hnil : askedBy s.1 a = [] := by
      unfold askedBy
      split
      · exact absurd ⟨_, rfl⟩ ha
      · rfl
    rw [hnil, List.append_nil]
    exact (step_intervalMillis env cfg hs fun i hi => ha ⟨i, hi⟩).trans hI

/-- Whichever way an interval was asked for, and whatever happened since, `ping_interval` answers
the same; and it gives the interval back if that is zero or a millisecond at least, and only
then. -/
theorem roundTrip_of_reach {s : State E R × List (Option Duration)} {d : Duration}
    (h : Machine.Reach ((client env cfg).observed askedBy) Machine.Any s)
    (hd : lastAsked cfg s.2 = some d) :
    (RoundTrip d (pingInterval s.1) ↔ d.nanos = 0 ∨ 10 ^ 6 ≤ d.nanos)
      ∧ ∀ (env' : Env R) (cfg' : ClientConfig) (s' : State E R × List (Option Duration)),
        Machine.Reach ((client env' cfg').observed askedBy) Machine.Any s' →
        lastAsked cfg' s'.2 = some d → pingInterval s'.1 = pingInterval s.1 := by
  have hs : pingInterval s.1 = storedInterval (askedMillis (some d)) := by
    rw [pingInterval, intervalMillis_of_reach env cfg h, hd]
  refine ⟨hs ▸ roundTrip_iff d, fun env' cfg' s' h' hd' => ?_⟩
  rw [hs, pingInterval, intervalMillis_of_reach env' cfg' h', hd']

/-- The concrete client with the intervals asked for. -/
def askedScenario : Machine (State WireError Unit × List (Option Duration)) (Act WireError) :=
  scenario.observed askedBy

/-- Two milliseconds and a half, set while the loop waits out another interval. -/
def setLate : List (Act WireError) :=
  [.poll .keepalive .ready, .setPingInterval (some ⟨2500000, by decide⟩)]

theorem roundTrip_of_setLate :
    ∃ s, askedScenario.run askedScenario.init setLate = some s
      ∧ RoundTrip ⟨2500000, by decide⟩ (pingInterval s.1)
      ∧ pingInterval s.1 = some (.fromMillis 2) := by
  refine ⟨_, rfl, ?_, rfl⟩
  exact (roundTrip_of_reach scenarioEnv scenarioConfig
    (Machine.reach_any_of_run (M := askedScenario) setLate rfl) rfl).1.2 (.inr (by decide))

/-- An interval just short of a millisecond switches keepalive off, set or given at construction. -/
theorem subMillisecond_disabled :
    (∃ s, askedScenario.run askedScenario.init
        [.setPingInterval (some ⟨999999, by decide⟩)] = some s
      ∧ pingInterval s.1 = none ∧ ¬ RoundTrip ⟨999999, by decide⟩ (pingInterval s.1))
    ∧ pingInterval (State.new (E := WireError) (R := Unit)
      { scenarioConfig with keepalive := .enabled ⟨⟨999999, by decide⟩, none, 2⟩ }) = none := by
  refine ⟨⟨_, rfl, rfl, fun h => ?_⟩, rfl⟩
  exact absurd (h.none_iff.1 rfl) (by decide)

end OcppClient
