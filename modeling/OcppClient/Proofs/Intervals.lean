import OcppClient.Proofs.PingSteps

/-!
# The interval the keepalive loop acts on

`set_ping_interval` stores an interval and sets a latch; the loop reads the one at its top and waits
on the other, first of all in both of its waits. So where it waits, or is parked, it acts on the
interval stored or finds the latch set at its next poll. A run is kept with a log of what is stored
and what the loop begins, in which every ping comes right after a whole wait (`Reconfigures`).
-/

namespace OcppClient

open Transition History

variable {E R : Type}

/-! ## The log -/

/-- `stored` is a `set_ping_interval`. The loop `waits` for an interval to have `elapsed`, `parks`
while there is none, and `began` its `n`-th ping. -/
inductive IntervalNote
  | stored (millis : ℕ)
  | waits (interval : Duration)
  | parks
  | elapsed (interval : Duration)
  | began (n : ℕ)
  deriving DecidableEq

/-- What the loop begins by coming to stand here. -/
def KeepalivePc.notes : KeepalivePc → List IntervalNote
  | .waiting interval => [.waits interval]
  | .parked => [.parks]
  | .pinging n => [.began n]
  | .start | .exited => []

/-- The timer of a wait firing. -/
def timerNotes (k : KeepalivePc) (p : Poll) : List IntervalNote :=
  match k, p with
  | .waiting interval, .timer => [.elapsed interval]
  | _, _ => []

/-- What a step adds to the log. Inside a ping the loop begins nothing. -/
def intervalNotes (cfg : ClientConfig) (s : State E R) : Act E → List IntervalNote
  | .setPingInterval interval => [.stored (setPingInterval s interval).intervalMillis]
  | .poll .keepalive p =>
    timerNotes s.keepalive p ++ ((keepalivePoll cfg s p).elim [] fun s' => s'.keepalive.notes)
  | .poll (.ping (.keepalive n)) p =>
    (keepalivePingPoll cfg s n p).elim [] fun s' =>
      if s'.keepalive = .pinging n then [] else s'.keepalive.notes
  | _ => []

/-- What is stored after the log, where `millis` was before it. -/
def millisAfter (millis : ℕ) (log : List IntervalNote) : ℕ :=
  log.foldl (fun m n => match n with | .stored m' => m' | _ => m) millis

/-- A ping comes right after a wait that nothing interrupted, for the interval stored then. -/
def BeginsAfterWait (millis : ℕ) (pre : List IntervalNote) (e : IntervalNote) : Prop :=
  ∀ n, e = .began n → ∃ pre' interval, pre = pre' ++ [.waits interval, .elapsed interval]
    ∧ storedInterval (millisAfter millis pre) = some interval

/-- Where the loop waits it acts on the interval stored or will be woken, and its pings come right
after a whole wait for the interval stored. -/
structure Reconfigures (cfg : ClientConfig) (s : State E R) (log : List IntervalNote) : Prop where
  waiting : ∀ interval, s.keepalive = .waiting interval →
    storedInterval s.intervalMillis = some interval ∨ s.changed = true
  parked : s.keepalive = .parked → storedInterval s.intervalMillis = none ∨ s.changed = true
  pings : Always (BeginsAfterWait (storedMillis cfg.keepalive.initialInterval)) log

/-! ## The steps of the loop -/

/-- The loop, standing here, acts on what is stored. -/
def KeepalivePc.ActsOn (millis : ℕ) : KeepalivePc → Prop
  | .waiting interval => storedInterval millis = some interval
  | .parked => storedInterval millis = none
  | .start | .pinging _ | .exited => True

section Steps

variable {cfg : ClientConfig} {s s' : State E R}

theorem keepaliveTop_actsOn (s : State E R) :
    (keepaliveTop s).keepalive.ActsOn s.intervalMillis := by
  unfold keepaliveTop
  simp only []
  split_ifs
  · trivial
  · split
    · next h => exact h
    · next h => exact h

/-- A poll of the loop between its pings takes it to its top, or into a ping after the timer of its
wait has fired with the latch unset. -/
theorem keepalivePoll_interval {p : Poll} (h : keepalivePoll cfg s p = some s') :
    s'.intervalMillis = s.intervalMillis
      ∧ ((∀ n, s'.keepalive ≠ .pinging n) ∧ s'.keepalive.ActsOn s.intervalMillis
        ∨ ∃ interval n, s.keepalive = .waiting interval ∧ p = .timer ∧ s.changed = false
          ∧ s'.keepalive = .pinging n) := by
  unfold keepalivePoll at h
  split at h
  case h_1 =>
    cases h
    exact ⟨rfl, .inl ⟨keepaliveTop_ne s, keepaliveTop_actsOn s⟩⟩
  case h_2 | h_3 =>
    split_ifs at h
    cases h
    exact ⟨rfl, .inl ⟨keepaliveTop_ne _,
      keepaliveTop_actsOn { s with changed := false, missed := 0 }⟩⟩
  case h_4 interval hk =>
    split_ifs at h with hch
    cases h
    unfold beginPing
    split_ifs with hc hi
    · exact ⟨rfl, .inl ⟨by simp, trivial⟩⟩
    · exact ⟨rfl, .inl ⟨keepaliveTop_ne s, keepaliveTop_actsOn s⟩⟩
    · unfold sendPingWithTimeout afterPing
      simp [hc, hk, hch, State.setPing]
  case h_5 => cases h

theorem countMiss_interval (cfg : ClientConfig) (s : State E R) (n : ℕ) :
    (countMiss cfg s n).intervalMillis = s.intervalMillis := by
  unfold countMiss State.forceReconnect
  simp only []
  split_ifs <;> rfl

/-- After its ping the loop stays inside it or comes to its top. -/
theorem afterPing_interval (cfg : ClientConfig) (s : State E R) (n : ℕ) :
    (afterPing cfg s n).keepalive = s.keepalive
      ∨ (∀ m, (afterPing cfg s n).keepalive ≠ .pinging m)
        ∧ (afterPing cfg s n).keepalive.ActsOn s.intervalMillis := by
  unfold afterPing
  split
  · exact .inr ⟨keepaliveTop_ne _, keepaliveTop_actsOn { s with missed := 0 }⟩
  · refine .inr ⟨keepaliveTop_ne _, ?_⟩
    rw [← countMiss_interval cfg s n]
    exact keepaliveTop_actsOn (countMiss cfg s n)
  · exact .inl rfl

theorem keepalivePingPoll_interval {n : ℕ} {p : Poll} (h : keepalivePingPoll cfg s n p = some s') :
    s'.keepalive = .pinging n
      ∨ (∀ m, s'.keepalive ≠ .pinging m) ∧ s'.keepalive.ActsOn s.intervalMillis := by
  obtain ⟨hk, -⟩ := keepalivePingPoll_moves h
  unfold keepalivePingPoll at h
  simp only [hk, if_true] at h
  obtain ⟨t, ht, rfl⟩ := Option.map_eq_some_iff.1 h
  have ha := afterPing_interval cfg t n
  obtain ⟨_, _, _, _, _, _, _, rfl, -⟩ := pingPoll_footprint ht
  exact ha.imp_left fun h => h.trans hk

end Steps

/-! ## One step of the client -/

section Client

variable [ProtocolError E] (env : Env R) (cfg : ClientConfig) {s s' : State E R} {a : Act E}

/-- The steps of the loop, and `set_ping_interval`. -/
def Act.Times : Act E → Prop
  | .setPingInterval _ | .poll .keepalive _ | .poll (.ping (.keepalive _)) _ => True
  | _ => False

omit [ProtocolError E] in
theorem intervalNotes_of_not_times (ha : ¬ a.Times) : intervalNotes cfg s a = [] := by
  unfold intervalNotes
  split
  · exact absurd trivial ha
  · exact absurd trivial ha
  · exact absurd trivial ha
  · rfl

/-- A step that leaves the loop and the interval alone; only `disconnect` may set the latch. -/
structure IntervalFrame (s s' : State E R) : Prop where
  keepalive : s'.keepalive = s.keepalive
  intervalMillis : s'.intervalMillis = s.intervalMillis
  changed : s.changed = true → s'.changed = true

theorem intervalFrame_of_not_times (ha : ¬ a.Times) (hs : step env cfg s a = some s') :
    IntervalFrame s s' := by
  cases step_cases env cfg hs with
  | setPingInterval => exact absurd trivial ha
  | keepalive => exact absurd trivial ha
  | keepalivePing => exact absurd trivial ha
  | recv h =>
    have hf := readRecv_frame env cfg h
    exact ⟨hf.keepalive, hf.intervalMillis, hf.changed ▸ id⟩
  | read h =>
    have hf := readPoll_frame env cfg h
    exact ⟨hf.keepalive, hf.intervalMillis, hf.changed ▸ id⟩
  | callPoll h =>
    obtain ⟨_, _, _, _, _, _, rfl, -⟩ := callPoll_footprint env h
    exact ⟨rfl, rfl, id⟩
  | pingPoll h =>
    obtain ⟨_, _, _, _, _, _, _, rfl, -⟩ := pingPoll_footprint h
    exact ⟨rfl, rfl, id⟩
  | notificationPoll h =>
    obtain ⟨_, _, _, _, rfl, -⟩ := notificationPoll_footprint h
    exact ⟨rfl, rfl, id⟩
  | disconnectPoll h =>
    obtain ⟨_, _, _, _, rfl, -⟩ := disconnectPoll_footprint h
    exact ⟨rfl, rfl, id⟩
  | call h =>
    obtain ⟨_, _, rfl, -⟩ := doSendRequest_footprint env h
    exact ⟨rfl, rfl, id⟩
  | dropCall h =>
    obtain ⟨_, _, _, rfl⟩ := callDrop_footprint h
    exact ⟨rfl, rfl, id⟩
  | ping h =>
    obtain ⟨_, rfl⟩ := sendPing_footprint cfg h
    exact ⟨rfl, rfl, id⟩
  | dropPing h =>
    obtain ⟨_, _, _, rfl⟩ := pingDrop_footprint h
    exact ⟨rfl, rfl, id⟩
  | notify h =>
    obtain ⟨_, _, rfl, -⟩ := sendNotification_footprint env h
    exact ⟨rfl, rfl, id⟩
  | disconnect h =>
    unfold disconnect at h
    split at h
    · split_ifs at h <;> cases h
      · exact ⟨rfl, rfl, id⟩
      · exact ⟨rfl, rfl, fun _ => rfl⟩
    · cases h
  | forceReconnect h =>
    obtain ⟨_, _, he, -⟩ := forceReconnect_footprint s
    rw [h, he]
    exact ⟨rfl, rfl, id⟩
  | handlers h =>
    obtain ⟨_, _, _, _, _, _, _, rfl, -⟩ := h.footprint
    exact ⟨rfl, rfl, id⟩
  | background h =>
    obtain ⟨_, _, _, _, _, _, rfl⟩ := h
    exact ⟨rfl, rfl, id⟩

end Client

/-! ## Any number of steps -/

section Run

variable {m : ℕ} {s s' : State E R} {log : List IntervalNote}

/-- While the latch is unset the loop acts on what is stored, and if it waits then its wait is the
last thing in the log. -/
structure IntervalInv (m : ℕ) (s : State E R) (log : List IntervalNote) : Prop where
  stored : s.intervalMillis = millisAfter m log
  acts : s.changed = false → s.keepalive.ActsOn s.intervalMillis
  last : s.changed = false → ∀ interval, s.keepalive = .waiting interval →
    ∃ pre, log = pre ++ [.waits interval]
  pings : Always (BeginsAfterWait m) log

theorem millisAfter_append (m : ℕ) (log notes : List IntervalNote) :
    millisAfter m (log ++ notes) = millisAfter (millisAfter m log) notes := List.foldl_append

theorem millisAfter_notes (m : ℕ) (k : KeepalivePc) : millisAfter m k.notes = m := by
  cases k <;> rfl

theorem millisAfter_timerNotes (m : ℕ) (k : KeepalivePc) (p : Poll) :
    millisAfter m (timerNotes k p) = m := by
  unfold timerNotes
  split <;> rfl

theorem IntervalInv.frame (hI : IntervalInv m s log) (hf : IntervalFrame s s') :
    IntervalInv m s' log := by
  have hc : s'.changed = false → s.changed = false := fun h => by
    by_contra hne
    rw [hf.changed (by simpa using hne)] at h
    cases h
  refine ⟨hf.intervalMillis.trans hI.stored, fun h => ?_, fun h => ?_, hI.pings⟩
  · rw [hf.keepalive, hf.intervalMillis]
    exact hI.acts (hc h)
  · rw [hf.keepalive]
    exact hI.last (hc h)

/-- The loop comes to its top, with `ns` said on the way. -/
theorem IntervalInv.top (hI : IntervalInv m s log) (ns : List IntervalNote)
    (hns : ∀ n ∈ ns, ∀ k, n ≠ .began k) (hms : ∀ m, millisAfter m ns = m)
    (hm : s'.intervalMillis = s.intervalMillis) (hk : ∀ n, s'.keepalive ≠ .pinging n)
    (ha : s'.keepalive.ActsOn s.intervalMillis) :
    IntervalInv m s' (log ++ (ns ++ s'.keepalive.notes)) := by
  refine ⟨?_, fun _ => hm ▸ ha, fun _ interval hw => ?_, ?_⟩
  · rw [millisAfter_append, millisAfter_append, hms, millisAfter_notes, hm, hI.stored]
  · exact ⟨log ++ ns, by rw [hw]; simp [KeepalivePc.notes]⟩
  · refine hI.pings.append fun e he pre n hn => ?_
    subst hn
    rcases List.mem_append.1 he with he | he
    · exact absurd rfl (hns _ he n)
    · cases hpc : s'.keepalive with
      | pinging n' => exact absurd hpc (hk n')
      | start | parked | waiting | exited => rw [hpc] at he; simp [KeepalivePc.notes] at he

/-- The timer of its wait takes the loop into a ping. -/
theorem IntervalInv.begin (hI : IntervalInv m s log) {interval : Duration} {n : ℕ}
    (hw : s.keepalive = .waiting interval) (hc : s.changed = false)
    (hm : s'.intervalMillis = s.intervalMillis) (hk : s'.keepalive = .pinging n) :
    IntervalInv m s' (log ++ [.elapsed interval, .began n]) := by
  have hstored : storedInterval (millisAfter m log) = some interval := by
    have := hI.acts hc
    rw [hw, hI.stored] at this
    exact this
  obtain ⟨pre, hpre⟩ := hI.last hc interval hw
  have hlog : log ++ [.elapsed interval, .began n]
      = (log ++ [.elapsed interval]) ++ [.began n] := by simp
  refine ⟨?_, fun _ => by rw [hk]; trivial, fun _ i hi => ?_, ?_⟩
  · rw [hm, hI.stored, millisAfter_append]
    rfl
  · rw [hk] at hi
    cases hi
  · rw [hlog]
    refine (hI.pings.snoc (b := .elapsed interval) (fun k hk => ?_)).snoc fun k _ => ?_
    · cases hk
    · exact ⟨pre, interval, by simp [hpre], by rw [millisAfter_append]; exact hstored⟩

end Run

variable [ProtocolError E] (env : Env R) (cfg : ClientConfig)

theorem IntervalInv.step {m : ℕ} {s s' : State E R} {log : List IntervalNote}
    (hI : IntervalInv m s log) {a : Act E} (hs : step env cfg s a = some s') :
    IntervalInv m s' (log ++ intervalNotes cfg s a) := by
  by_cases ha : a.Times
  · unfold Act.Times at ha
    split at ha
    · next i =>
      cases hs
      refine ⟨?_, nofun, nofun, hI.pings.snoc fun n hn => ?_⟩
      · rw [millisAfter_append]
        rfl
      · cases hn
    · next p =>
      replace hs : keepalivePoll cfg s p = some s' := hs
      simp only [intervalNotes, hs, Option.elim_some]
      obtain ⟨hm, ⟨hk, hact⟩ | ⟨interval, n, hw, rfl, hc, hk⟩⟩ := keepalivePoll_interval hs
      · refine hI.top _ (fun n hn k hb => ?_) (fun m => millisAfter_timerNotes m _ _) hm hk hact
        subst hb
        unfold timerNotes at hn
        split at hn <;> simp at hn
      · rw [hw, hk]
        exact hI.begin hw hc hm hk
    · next n p =>
      replace hs : keepalivePingPoll cfg s n p = some s' := hs
      have hk := keepalivePingPoll_interval hs
      simp only [intervalNotes, hs, Option.elim_some]
      obtain ⟨_, _, _, _, _, _, _, _, _, _, hs', -⟩ := keepalivePingPoll_footprint cfg hs
      rcases hk with hk | ⟨hk, hact⟩
      · have hp := (keepalivePingPoll_moves hs).1
        rw [if_pos hk, List.append_nil]
        exact hI.frame ⟨hk.trans hp.symm, by rw [hs'], by rw [hs']; exact id⟩
      · rw [if_neg (hk n)]
        exact hI.top [] nofun (fun _ => rfl) (by rw [hs']) hk hact
    · exact ha.elim
  · rw [intervalNotes_of_not_times cfg ha, List.append_nil]
    exact hI.frame (intervalFrame_of_not_times env cfg ha hs)

/-- In every run the loop acts on the interval stored or will be woken, and begins its pings right
after a whole wait for it. -/
theorem reconfigures_of_reach {s : State E R × List IntervalNote}
    (h : Machine.Reach ((client env cfg).observed (intervalNotes cfg)) Machine.Any s) :
    Reconfigures cfg s.1 s.2 := by
  have hI : IntervalInv (storedMillis cfg.keepalive.initialInterval) s.1 s.2 := by
    refine h.invariant
      (I := fun s => IntervalInv (storedMillis cfg.keepalive.initialInterval) s.1 s.2)
      ?_ fun s a s' _ _ hs hI => ?_
    · refine ⟨rfl, fun _ => trivial, fun _ _ hw => ?_, .nil⟩
      cases hw
    · obtain ⟨hs, hl⟩ := Machine.observed_step hs
      rw [hl]
      exact hI.step env cfg hs
  have hacts : s.1.changed = true ∨ s.1.keepalive.ActsOn s.1.intervalMillis := by
    cases hc : s.1.changed with
    | true => exact .inl rfl
    | false => exact .inr (hI.acts hc)
  refine ⟨fun interval hw => ?_, fun hp => ?_, hI.pings⟩
  · rw [hw] at hacts
    exact hacts.symm
  · rw [hp] at hacts
    exact hacts.symm

/-- The interval is set to two seconds while the loop waits and again while it is inside the ping
that follows. -/
def setTwice : List (Act WireError) :=
  [.poll .keepalive .ready, .setPingInterval (some (.fromSecs 2)), .poll .keepalive .ready,
    .poll .keepalive .timer, .setPingInterval none]

theorem reconfigures_of_setTwice :
    ∃ s, ((client scenarioEnv scenarioConfig).observed (intervalNotes scenarioConfig)).run
        ((client scenarioEnv scenarioConfig).observed (intervalNotes scenarioConfig)).init setTwice
        = some s
      ∧ s.2 = [.waits (.fromSecs 60), .stored 2000, .waits (.fromSecs 2), .elapsed (.fromSecs 2),
        .began 0, .stored 0]
      ∧ s.1.keepalive = .pinging 0 ∧ s.1.changed = true
      ∧ Reconfigures scenarioConfig s.1 s.2 := by
  refine ⟨_, rfl, by decide, rfl, rfl, reconfigures_of_reach scenarioEnv scenarioConfig
    (Machine.reach_any_of_run setTwice rfl)⟩

end OcppClient
