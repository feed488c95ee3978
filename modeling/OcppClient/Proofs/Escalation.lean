import Mathlib.Data.List.DropRight
import OcppClient.Proofs.KeepaliveMisses
import OcppClient.Proofs.Redial
import OcppClient.Proofs.Wakeups

/-!
# When the keepalive loop calls for a redial

A run is kept with a log of the polls of the keepalive loop: what each of them came to, and whether
it called `force_reconnect`. The counter of the loop is at every moment the number of pings that
failed since the last entry that resets it, so the call comes with the failure that makes it
`misses_allowed()`, and with no other poll. A poll runs from one `await` to the next, so the
interval the loop reads before a ping is the one its wait was given; where every access is a step
of its own it may have been zeroed meanwhile, and the count is the same.
-/

namespace OcppClient

open Transition History

variable {E R : Type}

/-! ## The log -/

/-- What a poll of the loop came to: its ping was `answered` or `failed`, the wait on `changed`
ended, or none of these. -/
inductive LoopPoll
  | answered
  | failed
  | woken
  | quiet
  deriving DecidableEq

structure MissNote where
  poll : LoopPoll
  forced : Bool
  deriving DecidableEq

/-- The count starts anew after this entry. -/
def MissNote.resets (e : MissNote) : Bool := e.poll = .answered || e.poll = .woken || e.forced

/-- The failures since the last answered ping, wake-up or `force_reconnect`, or since the start. -/
def failures (log : List MissNote) : ℕ :=
  (log.rtakeWhile fun e => !e.resets).countP fun e => e.poll = .failed

/-- `force_reconnect` was called on the open client between `s` and `s'`. -/
def forcedBetween (s s' : State E R) : Bool := raises s.hist < raises s'.hist

/-- The ping of the loop returned, or it is still inside it. -/
def PingPc.loopPoll : PingPc E → LoopPoll
  | .returned (.ok _) => .answered
  | .returned (.error _) => .failed
  | _ => .quiet

/-- Both waits of the loop end in this way when `changed` was notified. -/
def KeepalivePc.loopPoll : KeepalivePc → Poll → LoopPoll
  | .parked, .ready | .waiting _, .ready => .woken
  | _, _ => .quiet

/-- What a step adds to the log: an entry for a poll of the loop, inside its ping or not. -/
def missNotes (cfg : ClientConfig) (s : State E R) : Act E → List MissNote
  | .poll .keepalive p =>
    (keepalivePoll cfg s p).elim [] fun s' => [⟨s.keepalive.loopPoll p, forcedBetween s s'⟩]
  | .poll (.ping (.keepalive n)) p =>
    (keepalivePingPoll cfg s n p).elim [] fun s' =>
      [⟨(s'.pings (.keepalive n)).loopPoll, forcedBetween s s'⟩]
  | _ => []

/-- `force_reconnect` comes with the failure that is the last one allowed, and only with it. -/
def ForcedExactly (cfg : ClientConfig) (pre : List MissNote) (e : MissNote) : Prop :=
  e.forced = true ↔ e.poll = .failed ∧ failures pre + 1 = cfg.keepalive.policy.missesAllowed

structure CountsExactly (cfg : ClientConfig) (missed : ℕ) (log : List MissNote) : Prop where
  forced : Always (ForcedExactly cfg) log
  counted : missed = failures log
  below : missed < cfg.keepalive.policy.missesAllowed

theorem failures_concat (log : List MissNote) (e : MissNote) :
    failures (log ++ [e])
      = if e.resets then 0 else failures log + if e.poll = .failed then 1 else 0 := by
  unfold failures
  rw [List.rtakeWhile_concat]
  cases e.resets with
  | true => rfl
  | false => simp [List.countP_append, List.countP_singleton]

section Count

variable {cfg : ClientConfig} {missed missed' : ℕ} {log : List MissNote}

/-- The counter is set to zero, and the entry says so. -/
theorem CountsExactly.reset (hI : CountsExactly cfg missed log) {e : MissNote}
    (he : e.resets = true) (hf : ForcedExactly cfg log e) (hm : missed' = 0) :
    CountsExactly cfg missed' (log ++ [e]) := by
  refine ⟨hI.forced.snoc hf, ?_, hm ▸ missesAllowed_pos _⟩
  rw [hm, failures_concat, if_pos he]

theorem CountsExactly.quiet (hI : CountsExactly cfg missed log) (hm : missed' = missed) :
    CountsExactly cfg missed' (log ++ [⟨.quiet, false⟩]) := by
  refine ⟨hI.forced.snoc (by simp [ForcedExactly]), ?_, hm ▸ hI.below⟩
  rw [hm, hI.counted, failures_concat]
  rfl

/-- The last failure allowed: the loop calls `force_reconnect` and starts anew. -/
theorem CountsExactly.last (hI : CountsExactly cfg missed log)
    (hlast : missed + 1 = cfg.keepalive.policy.missesAllowed) (hm : missed' = 0) :
    CountsExactly cfg missed' (log ++ [⟨.failed, true⟩]) := by
  have hcount := hI.counted
  exact hI.reset rfl (by simp [ForcedExactly, ← hcount, hlast]) hm

theorem CountsExactly.miss (hI : CountsExactly cfg missed log)
    (hlt : missed + 1 < cfg.keepalive.policy.missesAllowed) (hm : missed' = missed + 1) :
    CountsExactly cfg missed' (log ++ [⟨.failed, false⟩]) := by
  have hcount := hI.counted
  refine ⟨hI.forced.snoc ?_, ?_, hm ▸ hlt⟩
  · simp [ForcedExactly, ← hcount, Nat.ne_of_lt hlt]
  · rw [hm, hcount, failures_concat]
    rfl

end Count

/-! ## The polls of the loop -/

section Polls

variable {cfg : ClientConfig} {s s' : State E R} {log : List MissNote}

/-- An interval that is gone by now takes the loop back to its top with the count kept. -/
theorem beginPing_missed (cfg : ClientConfig) (s : State E R) :
    (beginPing cfg s).missed = s.missed := by
  unfold beginPing
  split_ifs with hc hi
  · rfl
  · rfl
  · unfold sendPingWithTimeout afterPing
    simp [hc, State.setPing]

/-- Between its pings the loop resets the counter where it is woken, and nowhere else. -/
theorem keepalivePoll_missed {p : Poll} (h : keepalivePoll cfg s p = some s') :
    s'.missed = if s.keepalive.loopPoll p = .woken then 0 else s.missed := by
  unfold keepalivePoll at h
  split at h
  case h_1 hk =>
    cases h
    rw [hk]
    rfl
  case h_2 hk | h_3 hk =>
    split_ifs at h
    cases h
    rw [hk]
    rfl
  case h_4 hk =>
    split_ifs at h
    cases h
    rw [hk]
    exact beginPing_missed cfg s
  case h_5 => cases h

theorem keepalivePoll_not_forced {p : Poll} (h : keepalivePoll cfg s p = some s') :
    forcedBetween s s' = false := by
  have hh : s'.hist = s.hist := by
    cases keepalivePoll_moves h with
    | top _ _ _ h => rw [h]
    | ping _ _ h => rw [h]
  simp [forcedBetween, hh]

theorem keepalive_loopPoll (k : KeepalivePc) (p : Poll) :
    k.loopPoll p = .woken ∨ k.loopPoll p = .quiet := by
  unfold KeepalivePc.loopPoll
  split
  · exact .inl rfl
  · exact .inl rfl
  · exact .inr rfl

theorem CountsExactly.keepalive (hI : CountsExactly cfg s.missed log) {p : Poll}
    (h : keepalivePoll cfg s p = some s') :
    CountsExactly cfg s'.missed (log ++ [⟨s.keepalive.loopPoll p, forcedBetween s s'⟩]) := by
  have hm := keepalivePoll_missed h
  rw [keepalivePoll_not_forced h]
  rcases keepalive_loopPoll s.keepalive p with hp | hp
  · rw [hp] at hm ⊢
    exact hI.reset rfl (by simp [ForcedExactly]) hm
  · rw [hp] at hm ⊢
    exact hI.quiet hm

/-- The loop counts a failure, or calls `force_reconnect` and starts anew. -/
theorem countMiss_exact (hc : s.closed = false)
    (hb : s.missed < cfg.keepalive.policy.missesAllowed) (n : ℕ) :
    (s.missed + 1 = cfg.keepalive.policy.missesAllowed
        ∧ (countMiss cfg s n).missed = 0
        ∧ raises (countMiss cfg s n).hist = raises s.hist + 1)
      ∨ (s.missed + 1 < cfg.keepalive.policy.missesAllowed
        ∧ (countMiss cfg s n).missed = s.missed + 1
        ∧ raises (countMiss cfg s n).hist = raises s.hist) := by
  unfold countMiss
  rw [saturatingSucc_of_lt hb]
  simp only []
  split_ifs with hge
  · left
    refine ⟨by omega, ?_, ?_⟩
    · simp [State.forceReconnect, hc]
    · simp only [State.forceReconnect, hc, Bool.false_eq_true, if_false, raises_snoc]
      rfl
  · right
    exact ⟨by omega, rfl, rfl⟩

theorem CountsExactly.keepalivePing (hI : CountsExactly cfg s.missed log) (hc : s.closed = false)
    {n : ℕ} {p : Poll} (h : keepalivePingPoll cfg s n p = some s') :
    CountsExactly cfg s'.missed
      (log ++ [⟨(s'.pings (.keepalive n)).loopPoll, forcedBetween s s'⟩]) := by
  obtain ⟨-, t, hm, ha⟩ := keepalivePingPoll_moves h
  obtain ⟨-, -, -, hmt, -, hct⟩ := hm.frame
  have hr : raises t.hist = raises s.hist := hm.grows.raises (by simp)
  have hIt : CountsExactly cfg t.missed log := hmt ▸ hI
  rw [(AfterPing.frame cfg ha).1, forcedBetween, ← hr]
  cases ha with
  | inside hp h =>
    subst h
    have hq : (s'.pings (.keepalive n)).loopPoll = .quiet := by
      unfold PingPc.loopPoll
      split
      · next hp' => exact absurd hp' (hp _)
      · next hp' => exact absurd hp' (hp _)
      · rfl
    simpa [hq] using hIt.quiet rfl
  | answered hp _ h =>
    subst h
    rw [hp]
    exact hI.reset rfl (by simp [ForcedExactly, PingPc.loopPoll]) rfl
  | missed hp _ h =>
    subst h
    rw [hp]
    rcases countMiss_exact (hct.trans hc) hIt.below n with ⟨hlast, hz, hr'⟩ | ⟨hlt, hz, hr'⟩
    · have hf : decide (raises t.hist < raises (countMiss cfg t n).hist) = true := by
        simp [hr']
      rw [hf]
      exact hIt.last hlast hz
    · have hf : decide (raises t.hist < raises (countMiss cfg t n).hist) = false := by
        simp [hr']
      rw [hf]
      exact hIt.miss hlt hz

end Polls

/-! ## Runs -/

variable [ProtocolError E] (env : Env R) (cfg : ClientConfig)

/-- The counter belongs to the loop. -/
theorem missed_of_not_loop {s s' : State E R} {a : Act E} (hs : step env cfg s a = some s')
    (hk : ∀ p, a ≠ .poll .keepalive p) (hp : ∀ n p, a ≠ .poll (.ping (.keepalive n)) p) :
    s'.missed = s.missed := by
  cases ping_cases env cfg hs with
  | recv h => exact (readRecv_frame env cfg h).missed
  | read h => exact (readPoll_frame env cfg h).missed
  | begin h =>
    obtain ⟨_, -, rfl, -⟩ := sendPing_pings cfg h
    rfl
  | poll h => exact h.frame.2.2.2.1
  | drop h =>
    obtain ⟨_, _, _, rfl⟩ := pingDrop_footprint h
    rfl
  | keepalive => exact absurd rfl (hk _)
  | keepalivePing => exact absurd rfl (hp _ _)
  | other hf => exact hf.missed

/-- However pings come out and intervals are set, on a client that is not closed the loop calls
`force_reconnect` with the failure that is the `misses_allowed()`-th since the count began, with
that one only, and its counter stays below. -/
theorem countsExactly_of_open {s : State E R × List MissNote}
    (h : Machine.Reach ((client env cfg).observed (missNotes cfg)) (fun s _ => s.1.closed = false)
      s) :
    CountsExactly cfg s.1.missed s.2 := by
  refine h.invariant (I := fun s => CountsExactly cfg s.1.missed s.2)
    ⟨.nil, rfl, missesAllowed_pos _⟩ fun s a s' _ hc ho hI => ?_
  obtain ⟨hs, hl⟩ := Machine.observed_step ho
  clear ho
  rw [hl]
  unfold missNotes
  split
  · next p =>
    replace hs : keepalivePoll cfg s.1 p = some s'.1 := hs
    rw [hs]
    exact hI.keepalive hs
  · next n p =>
    replace hs : keepalivePingPoll cfg s.1 n p = some s'.1 := hs
    rw [hs]
    exact hI.keepalivePing hc hs
  · next hk hp =>
    have hm := missed_of_not_loop env cfg hs hk hp
    rw [List.append_nil]
    exact hm ▸ hI

/-- The concrete client with the log of its keepalive loop. -/
def missScenario : Machine (State WireError Unit × List MissNote) (Act WireError) :=
  scenario.observed (missNotes scenarioConfig)

/-- A ping missed, an interval set, and two more missed: the count starts anew in between. -/
def missedAfterChange : List (Act WireError) :=
  .poll .keepalive .ready :: missedPing 0
    ++ [.setPingInterval (some ⟨10 ^ 9, by decide⟩), .poll .keepalive .ready]
    ++ missedPing 1 ++ missedPing 2

theorem countsExactly_of_missedAfterChange :
    ∃ s, missScenario.run missScenario.init missedAfterChange = some s
      ∧ s.2.filter (fun e => e.poll ≠ .quiet)
        = [⟨.failed, false⟩, ⟨.woken, false⟩, ⟨.failed, false⟩, ⟨.failed, true⟩]
      ∧ CountsExactly scenarioConfig s.1.missed s.2 := by
  refine ⟨_, rfl, rfl, countsExactly_of_open scenarioEnv scenarioConfig
    (Machine.reach_of_run (M := missScenario) missedAfterChange .init ?_ rfl)⟩
  exact ⟨rfl, rfl, rfl, rfl, rfl, rfl, rfl, rfl, rfl, rfl, rfl, rfl, rfl, rfl, rfl, rfl, rfl, rfl,
    rfl, rfl, rfl, trivial⟩

/-! ## One access at a time -/

namespace Handshake

/-- What a turn of the loop came to. -/
def KeepaliveAt.loopPoll : KeepaliveAt → Turn → LoopPoll
  | .parked, .take | .waiting, .take => .woken
  | .pinging, .next => .answered
  | .pinging, .fail => .failed
  | _, _ => .quiet

/-- An entry for each turn of the loop, `forced` where it has called `force_reconnect`. -/
def missNotes (cfg : ClientConfig) (s : Shared) : Access → List MissNote
  | .keepalive t =>
    (keepaliveStep cfg s t).elim [] fun s' =>
      [⟨s.keepalive.loopPoll t, s'.keepalive = .givingUp⟩]
  | _ => []

variable {cfg : ClientConfig} {s s' : Shared} {log : List MissNote}

/-- The counter belongs to the loop. -/
theorem missed_of_not_keepalive {a : Access} (hs : step cfg s a = some s')
    (hk : ∀ t, a ≠ .keepalive t) : s'.missed = s.missed := by
  cases a with
  | keepalive t => exact absurd rfl (hk t)
  | read t =>
    obtain ⟨_, _, rfl, -⟩ := readStep_alert hs
    rfl
  | disconnect d =>
    simp only [step] at hs
    unfold disconnectStep at hs
    split at hs
    case h_4 => cases hs
    case h_1 => split_ifs at hs <;> cases hs <;> rfl
    all_goals
      cases hs
      rfl
  | forceReconnect =>
    simp only [step, Option.some.injEq] at hs
    split_ifs at hs <;> subst hs <;> rfl
  | setInterval millis =>
    cases hs
    rfl
  | notifyForceReconnect | notifyChanged =>
    simp only [step] at hs
    split_ifs at hs
    cases hs
    rfl

/-- A turn counts as its entry says. The interval found zeroed is one of the quiet ones. -/
theorem countsExactly_keepaliveStep (hI : CountsExactly cfg s.missed log) {t : Turn}
    (h : keepaliveStep cfg s t = some s') :
    CountsExactly cfg s'.missed
      (log ++ [⟨s.keepalive.loopPoll t, s'.keepalive = .givingUp⟩]) := by
  unfold keepaliveStep at h
  split at h
  case h_12 => cases h
  case h_3 hk | h_4 hk =>
    split_ifs at h
    cases h
    rw [hk]
    exact hI.reset rfl (by simp [ForcedExactly, KeepaliveAt.loopPoll]) rfl
  case h_8 hk =>
    cases h
    rw [hk]
    exact hI.reset rfl (by simp [ForcedExactly, KeepaliveAt.loopPoll]) rfl
  case h_9 hk =>
    have hb := hI.below
    rw [saturatingSucc_of_lt hb] at h
    simp only [] at h
    rw [hk]
    split_ifs at h with hge <;> cases h
    · exact hI.last (by omega) rfl
    · exact hI.miss (by omega) rfl
  case h_5 hk | h_11 hk =>
    cases h
    rw [hk]
    exact hI.quiet rfl
  all_goals
    rename_i hk
    cases h
    rw [hk, decide_eq_false (by split_ifs <;> nofun)]
    exact hI.quiet rfl

/-- The interval may be stored, and zeroed, at any moment of a wait, its timer and the loads after
it: the loop calls `force_reconnect` with the failure that is the `misses_allowed()`-th since the
count began and with that one only. -/
theorem countsExactly_of_reach {s : Shared × List MissNote}
    (h : Machine.Reach ((machine cfg).observed (missNotes cfg)) Machine.Any s) :
    CountsExactly cfg s.1.missed s.2 := by
  refine h.invariant (I := fun s => CountsExactly cfg s.1.missed s.2)
    ⟨.nil, rfl, missesAllowed_pos _⟩ fun s a s' _ _ ho hI => ?_
  obtain ⟨hs, hl⟩ := Machine.observed_step ho
  clear ho
  replace hs : step cfg s.1 a = some s'.1 := hs
  rw [hl]
  unfold missNotes
  split
  · next t _ =>
    replace hs : keepaliveStep cfg s.1 t = some s'.1 := hs
    rw [hs]
    exact countsExactly_keepaliveStep hI hs
  · next hk =>
    rw [List.append_nil, missed_of_not_keepalive hs hk]
    exact hI

/-- A ping missed, the interval zeroed when the timer of the next wait has run out, set again when
the loop is back at its top, and a ping missed after that, before either change is notified. -/
def zeroedAfterWait : List Access :=
  [.keepalive .next, .keepalive .next, .keepalive .timer, .keepalive .next, .keepalive .next,
    .keepalive .fail, .keepalive .next, .keepalive .next, .keepalive .timer, .setInterval 0,
    .keepalive .next, .keepalive .next, .setInterval 1000, .keepalive .next, .keepalive .next,
    .keepalive .timer, .keepalive .next, .keepalive .next, .keepalive .fail]

theorem countsExactly_of_zeroedAfterWait :
    ∃ s, ((machine scenarioConfig).observed (missNotes scenarioConfig)).run
          ((machine scenarioConfig).observed (missNotes scenarioConfig)).init zeroedAfterWait
        = some s
      ∧ s.1.setting = 2
      ∧ s.2.filter (fun e => e.poll ≠ .quiet) = [⟨.failed, false⟩, ⟨.failed, true⟩]
      ∧ CountsExactly scenarioConfig s.1.missed s.2 :=
  ⟨_, rfl, rfl, rfl, countsExactly_of_reach
    (Machine.reach_any_of_run (M := (machine scenarioConfig).observed (missNotes scenarioConfig))
      zeroedAfterWait rfl)⟩

end Handshake

end OcppClient
