import Mathlib.Algebra.Order.Ring.Nat
import OcppClient.Policy

/-!
# The backoff

`delay_for` leaves its loop at the cap or when the product overflows, and agrees all the same with
the capped exponential of exact arithmetic: whatever ends the loop is at least the cap, and a
further multiplication keeps it there. The cap is applied inside the loop only, so the delay before
the first retry is the initial one, however long.

The jitter adds to the half of a delay a part of that half. The offset is computed in 128 bits,
which are enough, and then narrowed to 64, which are enough for halves below `2 ^ 64` nanoseconds.
-/

namespace OcppClient.ReconnectPolicy

variable (p : ReconnectPolicy)

/-! ## The exponential -/

/-- The delay before retry `n` in exact arithmetic. -/
def capped (n : ℕ) : ℕ := min (p.initialDelay.nanos * p.multiplier.toNat ^ n) p.maxDelay.nanos

theorem checkedMul_cases (d : Duration) (m : UInt32) :
    (∃ d', d.checkedMul m = some d' ∧ d'.nanos = d.nanos * m.toNat)
      ∨ d.checkedMul m = none ∧ 2 ^ 64 * 10 ^ 9 ≤ d.nanos * m.toNat := by
  unfold Duration.checkedMul
  split_ifs with h
  · exact .inl ⟨_, rfl, rfl⟩
  · exact .inr ⟨rfl, Nat.not_lt.1 h⟩

/-- A turn of the loop goes on with the product below the cap, and returns the cap for any other. -/
theorem delayLoop_succ (n : ℕ) (d : Duration) :
    (∃ d', d'.nanos = d.nanos * p.multiplier.toNat ∧ d'.nanos < p.maxDelay.nanos
        ∧ p.delayLoop (n + 1) d = p.delayLoop n d')
      ∨ p.maxDelay.nanos ≤ d.nanos * p.multiplier.toNat
        ∧ p.delayLoop (n + 1) d = p.maxDelay := by
  rw [delayLoop]
  rcases checkedMul_cases d p.multiplier with ⟨d', hd, hn⟩ | ⟨hd, hn⟩
  · simp only [hd]
    split_ifs with hlt
    · exact .inl ⟨d', hn, hlt, rfl⟩
    · exact .inr ⟨hn ▸ Nat.not_lt.1 hlt, rfl⟩
  · have := p.maxDelay.lt_max
    exact .inr ⟨by omega, by rw [hd]⟩

/-- What has reached the cap stays there; a factor of zero reaches only a cap of zero. -/
theorem le_mul_pow {a m c : ℕ} (h : c ≤ a * m) (n : ℕ) : c ≤ a * m ^ (n + 1) := by
  rcases Nat.eq_zero_or_pos m with rfl | hm
  · simpa using h
  · calc c ≤ a * m := h
      _ ≤ a * m * m ^ n := Nat.le_mul_of_pos_right _ (Nat.pow_pos hm)
      _ = a * m ^ (n + 1) := by rw [pow_succ', Nat.mul_assoc]

theorem delayLoop_nanos (n : ℕ) (d : Duration) :
    (p.delayLoop (n + 1) d).nanos
      = min (d.nanos * p.multiplier.toNat ^ (n + 1)) p.maxDelay.nanos := by
  induction n generalizing d with
  | zero =>
    rw [Nat.zero_add, pow_one]
    rcases p.delayLoop_succ 0 d with ⟨d', hn, hlt, he⟩ | ⟨hle, he⟩
    · rw [he, delayLoop, hn, min_eq_left (hn ▸ hlt.le)]
    · rw [he, min_eq_right hle]
  | succ n ih =>
    rcases p.delayLoop_succ (n + 1) d with ⟨d', hn, -, he⟩ | ⟨hle, he⟩
    · rw [he, ih d', hn, Nat.mul_assoc, ← pow_succ']
    · rw [he, min_eq_right (le_mul_pow hle _)]

/-- `delay_for` is the capped exponential, but for the first delay, to which no cap applies. -/
theorem delayFor_exact :
    p.delayFor 0 = p.initialDelay ∧ ∀ n, (p.delayFor (n + 1)).nanos = p.capped (n + 1) :=
  ⟨rfl, fun n => p.delayLoop_nanos n p.initialDelay⟩

example : ((⟨.fromSecs 1, .fromSecs 10, 2, false⟩ : ReconnectPolicy).delayFor 4).nanos
    = 10 * 10 ^ 9 := by decide

/-! ## The jitter -/

/-- The low 32 bits of the UUID drawn. -/
def fraction (draw : Uuid) : ℕ := draw.toNat % 2 ^ 32

theorem fraction_le (draw : Uuid) : fraction draw ≤ u32Max := by
  have : fraction draw < 2 ^ 32 := Nat.mod_lt _ (by decide)
  unfold u32Max
  omega

variable {p}

theorem jitteredDelayFor_nanos (hj : p.jitter = true) (attempt : ℕ) (draw : Uuid) :
    (p.jitteredDelayFor attempt draw).nanos
      = (p.delayFor attempt).nanos / 2
        + (p.delayFor attempt).nanos / 2 * fraction draw / u32Max % 2 ^ 64 := by
  simp only [jitteredDelayFor, hj, if_true, jittered, fraction]

/-- The offset is a part of the half. -/
theorem offset_le {half f : ℕ} (hf : f ≤ u32Max) : half * f / u32Max ≤ half :=
  Nat.div_le_of_le_mul (by rw [Nat.mul_comm u32Max]; exact Nat.mul_le_mul_left half hf)

/-- A delay `d` jittered with the fraction `f` to `j`: neither the product nor the sum overflows its
type, and `j` is in the window. -/
structure InWindow (d f j : ℕ) : Prop where
  product : d / 2 * f < 2 ^ 128
  sum : d / 2 + d / 2 * f / u32Max % 2 ^ 64 < 2 ^ 64 * 10 ^ 9
  lower : d / 2 ≤ j
  upper : j ≤ d

theorem inWindow_of_jitter (hj : p.jitter = true) (attempt : ℕ) (draw : Uuid) :
    InWindow (p.delayFor attempt).nanos (fraction draw)
      (p.jitteredDelayFor attempt draw).nanos := by
  have hd := (p.delayFor attempt).lt_max
  rw [jitteredDelayFor_nanos hj]
  generalize (p.delayFor attempt).nanos = d at hd
  have hf := fraction_le draw
  have hle : d / 2 * fraction draw / u32Max % 2 ^ 64 ≤ d / 2 :=
    (Nat.mod_le _ _).trans (offset_le hf)
  refine ⟨?_, by omega, Nat.le_add_right _ _, by omega⟩
  calc d / 2 * fraction draw ≤ d / 2 * u32Max := Nat.mul_le_mul_left _ hf
    _ < 2 ^ 128 := by unfold u32Max; omega

/-- The longest delay there is. -/
def longest : ReconnectPolicy := ⟨⟨2 ^ 64 * 10 ^ 9 - 1, by decide⟩, .fromSecs 60, 2, true⟩

theorem inWindow_of_longest :
    InWindow (2 ^ 64 * 10 ^ 9 - 1) u32Max
      (longest.jitteredDelayFor 0 (.ofNat 128 u32Max)).nanos :=
  inWindow_of_jitter (p := longest) rfl 0 (.ofNat 128 u32Max)

/-- From the least draw to the greatest the delay goes up from the half to twice the half. -/
structure Spreads (p : ReconnectPolicy) (attempt : ℕ) : Prop where
  mono : ∀ u u', fraction u ≤ fraction u' →
    (p.jitteredDelayFor attempt u).nanos ≤ (p.jitteredDelayFor attempt u').nanos
  least : ∀ u, fraction u = 0 →
    (p.jitteredDelayFor attempt u).nanos = (p.delayFor attempt).nanos / 2
  greatest : ∀ u, fraction u = u32Max →
    (p.jitteredDelayFor attempt u).nanos = 2 * ((p.delayFor attempt).nanos / 2)

/-- The jitter covers its window where the half fits 64 bits, and only there. -/
theorem spreads_iff (hj : p.jitter = true) (attempt : ℕ) :
    p.Spreads attempt ↔ (p.delayFor attempt).nanos / 2 < 2 ^ 64 := by
  have hnanos := jitteredDelayFor_nanos hj attempt
  have htop : ∀ half, half * u32Max / u32Max = half := fun half =>
    Nat.mul_div_cancel half (by decide)
  constructor
  · intro h
    have hmax := h.greatest (.ofNat 128 u32Max) rfl
    have hfraction : fraction (.ofNat 128 u32Max) = u32Max := rfl
    rw [hnanos, hfraction, htop] at hmax
    have := Nat.mod_lt ((p.delayFor attempt).nanos / 2) (show 0 < 2 ^ 64 by decide)
    omega
  · intro hlt
    -- nothing is lost in narrowing an offset that is at most the half
    have hexact : ∀ u, (p.jitteredDelayFor attempt u).nanos = (p.delayFor attempt).nanos / 2
        + (p.delayFor attempt).nanos / 2 * fraction u / u32Max := fun u => by
      rw [hnanos, Nat.mod_eq_of_lt ((offset_le (fraction_le u)).trans_lt hlt)]
    refine ⟨fun u u' huu => ?_, fun u hu => ?_, fun u hu => ?_⟩
    · rw [hexact, hexact]
      exact Nat.add_le_add_left (Nat.div_le_div_right (Nat.mul_le_mul_left _ huu)) _
    · rw [hexact, hu, Nat.mul_zero, Nat.zero_div, Nat.add_zero]
    · rw [hexact, hu, htop, Nat.two_mul]

theorem spreads_of_default : (default : ReconnectPolicy).Spreads 3 :=
  (spreads_iff rfl 3).2 (by decide)

/-- A delay of `2 ^ 65` nanoseconds, some 1170 years. -/
def outOfRange : ReconnectPolicy := ⟨⟨2 ^ 65, by decide⟩, ⟨2 ^ 65, by decide⟩, 2, true⟩

/-- The greatest draw gives the least delay. -/
theorem outOfRange_folds :
    (outOfRange.jitteredDelayFor 0 (.ofNat 128 u32Max)).nanos = 2 ^ 64
      ∧ (outOfRange.jitteredDelayFor 0 (.ofNat 128 (u32Max - 1))).nanos = 2 ^ 65 - 4294967298
      ∧ ¬ outOfRange.Spreads 0 := by
  refine ⟨by decide, by decide, fun h => ?_⟩
  have hmax := h.greatest (.ofNat 128 u32Max) rfl
  revert hmax
  decide

/-! ## The cap -/

/-- No delay is above the cap, and none shorter than the one before. -/
structure Bounded (p : ReconnectPolicy) : Prop where
  cap : ∀ attempt draw, (p.jitteredDelayFor attempt draw).nanos ≤ p.maxDelay.nanos
  grows : ∀ attempt, (p.delayFor attempt).nanos ≤ (p.delayFor (attempt + 1)).nanos

theorem jitteredDelayFor_le (p : ReconnectPolicy) (attempt : ℕ) (draw : Uuid) :
    (p.jitteredDelayFor attempt draw).nanos ≤ (p.delayFor attempt).nanos := by
  cases hj : p.jitter with
  | true => exact (inWindow_of_jitter hj attempt draw).upper
  | false => simp [jitteredDelayFor, hj]

/-- Under an initial delay within the cap the exponential is exact from the first delay on. -/
theorem delayFor_eq_capped (h : p.initialDelay.nanos ≤ p.maxDelay.nanos) (n : ℕ) :
    (p.delayFor n).nanos = p.capped n := by
  cases n with
  | zero => simp [delayFor, delayLoop, capped, h]
  | succ n => exact p.delayLoop_nanos n p.initialDelay

theorem capped_le_succ (h : p.initialDelay.nanos = 0 ∨ 1 ≤ p.multiplier.toNat) (n : ℕ) :
    p.capped n ≤ p.capped (n + 1) := by
  refine min_le_min_right _ ?_
  rcases h with h | h
  · simp [h]
  · exact Nat.mul_le_mul_left _ (Nat.pow_le_pow_right h (Nat.le_succ n))

/-- The backoff is bounded and never shrinks for a policy whose initial delay is within the cap and,
unless it is zero, does not vanish, and for no other. -/
theorem bounded_iff :
    p.Bounded ↔ p.initialDelay.nanos ≤ p.maxDelay.nanos
      ∧ (p.initialDelay.nanos = 0 ∨ 1 ≤ p.multiplier.toNat) := by
  constructor
  · intro h
    have hfirst : p.initialDelay.nanos
        ≤ min (p.initialDelay.nanos * p.multiplier.toNat ^ (0 + 1)) p.maxDelay.nanos :=
      (h.grows 0).trans_eq (p.delayLoop_nanos 0 p.initialDelay)
    obtain ⟨hmul, hmax⟩ := le_min_iff.1 hfirst
    rw [Nat.zero_add, pow_one] at hmul
    refine ⟨hmax, ?_⟩
    rcases Nat.eq_zero_or_pos p.multiplier.toNat with hm | hm
    · exact .inl (by simpa [hm] using hmul)
    · exact .inr hm
  · rintro ⟨hmax, hmul⟩
    refine ⟨fun attempt draw => ?_, fun attempt => ?_⟩
    · calc (p.jitteredDelayFor attempt draw).nanos
          ≤ (p.delayFor attempt).nanos := p.jitteredDelayFor_le attempt draw
        _ = p.capped attempt := delayFor_eq_capped hmax attempt
        _ ≤ p.maxDelay.nanos := min_le_right _ _
    · rw [delayFor_eq_capped hmax, delayFor_eq_capped hmax]
      exact capped_le_succ hmul attempt

theorem bounded_of_default : (default : ReconnectPolicy).Bounded :=
  bounded_iff.2 ⟨by decide, .inr (by decide)⟩

/-- An initial delay of two seconds under a cap of one, and a factor of zero. -/
theorem uncapped_and_vanishing :
    (((⟨.fromSecs 2, .fromSecs 1, 2, false⟩ : ReconnectPolicy).jitteredDelayFor 0 0).nanos
        = 2 * 10 ^ 9
      ∧ ¬ (⟨.fromSecs 2, .fromSecs 1, 2, false⟩ : ReconnectPolicy).Bounded)
    ∧ ((⟨.fromSecs 1, .fromSecs 60, 0, true⟩ : ReconnectPolicy).delayFor 1).nanos = 0
      ∧ ¬ (⟨.fromSecs 1, .fromSecs 60, 0, true⟩ : ReconnectPolicy).Bounded := by
  refine ⟨⟨by decide, fun h => ?_⟩, by decide, fun h => ?_⟩
  · exact absurd (h.cap 0 0) (by decide)
  · exact absurd (h.grows 0) (by decide)

end OcppClient.ReconnectPolicy
