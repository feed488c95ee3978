import Mathlib.Algebra.GroupWithZero.Nat
import Mathlib.Tactic.Common

/-!
# Durations and policies

`core::time::Duration` with the operations the client uses, the backoff of `reconnect.rs` and the
settings of `keepalive.rs`. A duration is its number of nanoseconds, below the `u64` seconds a
`Duration` can hold; the `u32` counters are numbers that saturate at `u32Max`.
-/

namespace OcppClient

def u32Max : ℕ := 2 ^ 32 - 1

/-- `u32::saturating_add(1)`. -/
def saturatingSucc (n : ℕ) : ℕ := min (n + 1) u32Max

abbrev Uuid := BitVec 128

structure Duration where
  nanos : ℕ
  lt_max : nanos < 2 ^ 64 * 10 ^ 9
  deriving DecidableEq

instance neZero_u64 : NeZero (2 ^ 64) := ⟨by decide⟩

namespace Duration

def fromSecs (n : Fin (2 ^ 64)) : Duration := ⟨n * 10 ^ 9, by omega⟩

def fromMillis (n : Fin (2 ^ 64)) : Duration := ⟨n * 10 ^ 6, by omega⟩

def isZero (d : Duration) : Bool := d.nanos == 0

def asMillis (d : Duration) : ℕ := d.nanos / 10 ^ 6

def checkedMul (d : Duration) (m : UInt32) : Option Duration :=
  if h : d.nanos * m.toNat < 2 ^ 64 * 10 ^ 9 then some ⟨d.nanos * m.toNat, h⟩ else none

end Duration

structure ReconnectPolicy where
  initialDelay : Duration
  maxDelay : Duration
  multiplier : UInt32
  jitter : Bool
  deriving DecidableEq

namespace ReconnectPolicy

instance : Inhabited ReconnectPolicy := ⟨⟨.fromSecs 1, .fromSecs 60, 2, true⟩⟩

/-- The loop of `delay_for`, with the turns it has left. -/
def delayLoop (p : ReconnectPolicy) : ℕ → Duration → Duration
  | 0, delay => delay
  | n + 1, delay =>
    match delay.checkedMul p.multiplier with
    | some d => if d.nanos < p.maxDelay.nanos then delayLoop p n d else p.maxDelay
    | none => p.maxDelay

def delayFor (p : ReconnectPolicy) (attempt : ℕ) : Duration := p.delayLoop attempt p.initialDelay

/-- `half + extra` of `jittered_delay_for`, for the fraction drawn. The offset is narrowed to a
`u64` before it is added. -/
def jittered (delay : Duration) (fraction : ℕ) : Duration :=
  let half := delay.nanos / 2
  let extra := half * fraction / u32Max
  ⟨half + extra % 2 ^ 64, by
    have := delay.lt_max
    have : extra % 2 ^ 64 < 2 ^ 64 := Nat.mod_lt _ (by decide)
    omega⟩

/-- `jittered_delay_for`, given the UUID drawn for it, of which the low 32 bits are used. -/
def jitteredDelayFor (p : ReconnectPolicy) (attempt : ℕ) (draw : Uuid) : Duration :=
  let delay := p.delayFor attempt
  if p.jitter then jittered delay (draw.toNat % 2 ^ 32) else delay

end ReconnectPolicy

structure KeepalivePolicy where
  interval : Duration
  timeout : Option Duration
  maxMissed : UInt32
  deriving DecidableEq

instance : Inhabited KeepalivePolicy := ⟨⟨.fromSecs 60, none, 2⟩⟩

def KeepalivePolicy.missesAllowed (p : KeepalivePolicy) : ℕ := max p.maxMissed.toNat 1

inductive KeepaliveBehavior
  | enabled (policy : KeepalivePolicy)
  | disabled
  deriving DecidableEq

namespace KeepaliveBehavior

def initialInterval : KeepaliveBehavior → Option Duration
  | .enabled p => if p.interval.isZero then none else some p.interval
  | .disabled => none

def policy : KeepaliveBehavior → KeepalivePolicy
  | .enabled p => p
  | .disabled => default

end KeepaliveBehavior

/-- The stored form of an interval, both at construction and in `set_interval`: milliseconds,
clamped to `u32`, and zero for none. -/
def storedMillis (interval : Option Duration) : ℕ :=
  (interval.map fun d => min d.asMillis u32Max).getD 0

/-- `KeepaliveState::interval`. -/
def storedInterval (millis : ℕ) : Option Duration :=
  if millis = 0 then none else some (.fromMillis (Fin.ofNat _ millis))

/-- `ClientConfig`; of the reconnector the client asks only whether there is one. -/
structure ClientConfig where
  timeout : Duration
  reconnector : Bool
  reconnectPolicy : ReconnectPolicy
  keepalive : KeepaliveBehavior
  deriving DecidableEq

/-- `ClientConfig::new`. -/
def ClientConfig.new (timeout : Duration) : ClientConfig := ⟨timeout, false, default, .disabled⟩

/-- The deadline of a keepalive ping. -/
def ClientConfig.pingTimeout (cfg : ClientConfig) : Duration :=
  cfg.keepalive.policy.timeout.getD cfg.timeout

end OcppClient
