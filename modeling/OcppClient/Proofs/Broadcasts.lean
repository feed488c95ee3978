import Mathlib.Data.List.Nodup
import OcppClient.Broadcasts
import OcppClient.Lib.History

/-!
# Broadcasts lose no last event and invent none

Each subscriber has one slot, which `notify_all` fills and the start of a callback empties. So what
a `notify_all` was called for is behind every subscriber once a callback has started since, or the
slot is full and one will; and as a `notify_all` fills each slot once, no more callbacks start than
there were calls.
-/

namespace OcppClient.Broadcasts

open Transition History

/-! ## The log -/

/-- A subscriber entered the list, and its callback `started`. A `notify_all` was `called`, got the
lock (`began`), set the signal of each subscriber and `ended`. -/
inductive Note
  | subscribed (i : ℕ)
  | started (i : ℕ)
  | called (n : ℕ)
  | began (n : ℕ)
  | signalled (n i : ℕ)
  | ended (n : ℕ)
  deriving DecidableEq

/-- What an access adds to the log. -/
def notes (s : Shared) : Access → List Note
  | .sub i =>
    match s.subs i with
    | .locked => [.subscribed i]
    | .waiting => [.started i]
    | _ => []
  | .call n => [.called n]
  | .notify n =>
    match s.notifies n with
    | .lock => [.began n]
    | .signalling (i :: _) => [.signalled n i]
    | .signalling [] => [.ended n]
    | .idle => []
  | .subscribe _ => []

def Note.isBegan : Note → Bool
  | .began _ => true
  | _ => false

/-- `covered`: a `notify_all` that ended signalled every subscriber in the list when it began, and
that subscriber's callback started after the signal or the signal is pending; `pending`: nothing but
the subscriber is needed for a pending signal to start its callback; `bounded`: the callback starts
no more often than `notify_all` ran since the subscription. The calls of `notify_all` are what the
subscribers hear of: there is one before any callback (`initial`), and after each of them
(`latest`) every subscriber of that time has started its callback, has a signal pending or is about
to get it. -/
structure KeepsLast (s : Shared) (log : List Note) : Prop where
  covered : ∀ pre n mid post i, log = pre ++ .began n :: (mid ++ .ended n :: post) →
    .ended n ∉ mid → .subscribed i ∈ pre →
    ∃ mid₁ mid₂, mid = mid₁ ++ .signalled n i :: mid₂
      ∧ (.started i ∈ mid₂ ++ post ∨ s.signals i = true)
  pending : ∀ i, s.signals i = true →
    ∃ k s', (machine.observed notes).run (s, log) (List.replicate k (.sub i))
      = some (s', log ++ [.started i])
  bounded : ∀ pre i post, log = pre ++ .subscribed i :: post →
    .started i ∉ pre ∧ post.count (.started i) ≤ post.countP Note.isBegan
  initial : ∀ pre i post, log = pre ++ .started i :: post → ∃ n, .called n ∈ pre
  latest : ∀ pre n post i, log = pre ++ .called n :: post → .subscribed i ∈ pre →
    .started i ∈ post ∨ s.signals i = true ∨ s.notifies n ≠ .idle ∧ .called n ∉ post

/-! ## What an access does -/

section Moves

variable {s s' : Shared}

/-- The signals a `notify_all` has still to set. -/
@[simp] def NotifyAt.rest : NotifyAt → List ℕ
  | .idle => []
  | .lock => []
  | .signalling rest => rest

def Shared.remaining (s : Shared) (n : ℕ) : List ℕ := (s.notifies n).rest

inductive Move (s s' : Shared) : List Note → Prop
  | subscribe {i : ℕ} (hi : s.subs i = .idle) (h : s' = s.setSub i .lock) : Move s s' []
  | acquire {i : ℕ} (hi : s.subs i = .lock) (hn : s.holder = none)
    (h : s' = { s with holder := some (.subscriber i) }.setSub i .locked) : Move s s' []
  | push {i : ℕ} (hi : s.subs i = .locked)
    (h : s' = { s with subscribers := s.subscribers ++ [i] }.setSub i .pushed) :
    Move s s' [.subscribed i]
  | release {i : ℕ} (hi : s.subs i = .pushed)
    (h : s' = { s with holder := none }.setSub i .waiting) : Move s s' []
  | take {i : ℕ} (hi : s.subs i = .waiting) (hs : s.signals i = true)
    (h : s' = { s with signals := Function.update s.signals i false }.setSub i .callback) :
    Move s s' [.started i]
  | finish {i : ℕ} (hi : s.subs i = .callback) (h : s' = s.setSub i .waiting) : Move s s' []
  | call {n : ℕ} (hn : s.notifies n = .idle) (h : s' = s.setNotify n .lock) :
    Move s s' [.called n]
  | begin {n : ℕ} (hn : s.notifies n = .lock) (hh : s.holder = none)
    (h : s' = { s with holder := some (.notifier n) }.setNotify n (.signalling s.subscribers)) :
    Move s s' [.began n]
  | signal {n i : ℕ} {rest : List ℕ} (hn : s.notifies n = .signalling (i :: rest))
    (h : s' = { s with
      signals := Function.update s.signals i true }.setNotify n (.signalling rest)) :
    Move s s' [.signalled n i]
  | leave {n : ℕ} (hn : s.notifies n = .signalling [])
    (h : s' = { s with holder := none }.setNotify n .idle) : Move s s' [.ended n]

theorem moves_of_subStep {i : ℕ} (h : subStep s i = some s') :
    Move s s' (notes s (.sub i)) := by
  unfold subStep at h
  split at h
  case h_1 => cases h
  case h_2 hi =>
    split_ifs at h with hn
    cases h
    simp only [notes, hi]
    exact .acquire hi hn rfl
  case h_3 hi =>
    cases h
    simp only [notes, hi]
    exact .push hi rfl
  case h_4 hi =>
    cases h
    simp only [notes, hi]
    exact .release hi rfl
  case h_5 hi =>
    split_ifs at h with hs
    cases h
    simp only [notes, hi]
    exact .take hi hs rfl
  case h_6 hi =>
    cases h
    simp only [notes, hi]
    exact .finish hi rfl

theorem moves_of_notifyStep {n : ℕ} (h : notifyStep s n = some s') :
    Move s s' (notes s (.notify n)) := by
  unfold notifyStep at h
  split at h
  case h_1 => cases h
  case h_2 hn =>
    split_ifs at h with hh
    cases h
    simp only [notes, hn]
    exact .begin hn hh rfl
  case h_3 hn =>
    cases h
    simp only [notes, hn]
    exact .signal hn rfl
  case h_4 hn =>
    cases h
    simp only [notes, hn]
    exact .leave hn rfl

theorem moves_of_step {a : Access} (h : step s a = some s') : Move s s' (notes s a) := by
  cases a with
  | subscribe i =>
    simp only [step] at h
    split at h
    · next hi =>
      cases h
      exact .subscribe hi rfl
    · cases h
  | sub i => exact moves_of_subStep h
  | call n =>
    simp only [step] at h
    split at h
    · next hn =>
      cases h
      exact .call hn rfl
    · cases h
  | notify n => exact moves_of_notifyStep h

end Moves

/-! ## Who is where -/

/-- The subscriber holds the lock. -/
def SubAt.Holds : SubAt → Prop
  | .locked | .pushed => True
  | _ => False

/-- The subscriber is in the list. -/
def SubAt.Listed : SubAt → Prop
  | .pushed | .waiting | .callback => True
  | _ => False

/-- The subscriber is in its loop. -/
def SubAt.Looping : SubAt → Prop
  | .waiting | .callback => True
  | _ => False

structure Placed (s : Shared) (log : List Note) : Prop where
  subscriber : ∀ i, (s.subs i).Holds → s.holder = some (.subscriber i)
  notifier : ∀ n rest, s.notifies n = .signalling rest → s.holder = some (.notifier n)
  listed : ∀ i, i ∈ s.subscribers ↔ (s.subs i).Listed
  logged : ∀ i, i ∈ s.subscribers ↔ .subscribed i ∈ log
  nodup : s.subscribers.Nodup
  remaining : ∀ n i, i ∈ s.remaining n → i ∈ s.subscribers
  looping : ∀ i, s.signals i = true → (s.subs i).Looping
  started : ∀ i, .started i ∈ log → i ∈ s.subscribers
  called : ∀ n, s.notifies n ≠ .idle → .called n ∈ log
  signalled : ∀ i, s.signals i = true → ∃ n, .called n ∈ log

section Placed

variable {s s' : Shared} {log ns : List Note}

@[simp] theorem setSub_self (i : ℕ) (pc : SubAt) : (s.setSub i pc).subs i = pc := by
  simp [Shared.setSub]

theorem setSub_of_ne {i j : ℕ} (pc : SubAt) (h : j ≠ i) : (s.setSub i pc).subs j = s.subs j := by
  simp [Shared.setSub, h]

@[simp] theorem setNotify_self (n : ℕ) (pc : NotifyAt) : (s.setNotify n pc).notifies n = pc := by
  simp [Shared.setNotify]

theorem setNotify_of_ne {n m : ℕ} (pc : NotifyAt) (h : m ≠ n) :
    (s.setNotify n pc).notifies m = s.notifies m := by
  simp [Shared.setNotify, h]

/-- A property of every subscriber, after one of them has moved. -/
theorem forall_setSub {Q : ℕ → SubAt → Prop} {i : ℕ} {pc : SubAt} (hi : Q i pc)
    (h : ∀ j, j ≠ i → Q j (s.subs j)) (j : ℕ) : Q j ((s.setSub i pc).subs j) := by
  rcases eq_or_ne j i with rfl | hne
  · rw [setSub_self]
    exact hi
  · rw [setSub_of_ne pc hne]
    exact h j hne

theorem forall_setNotify {Q : ℕ → NotifyAt → Prop} {n : ℕ} {pc : NotifyAt} (hn : Q n pc)
    (h : ∀ m, m ≠ n → Q m (s.notifies m)) (m : ℕ) : Q m ((s.setNotify n pc).notifies m) := by
  rcases eq_or_ne m n with rfl | hne
  · rw [setNotify_self]
    exact hn
  · rw [setNotify_of_ne pc hne]
    exact h m hne

/-- A subscriber moves on outside the list and the signals. -/
theorem Placed.moveSub (hI : Placed s log) {i : ℕ} {pc : SubAt} {ho : Option Party}
    (hh : pc.Holds → ho = some (.subscriber i))
    (hs : ∀ j, j ≠ i → (s.subs j).Holds → ho = some (.subscriber j))
    (hn : ∀ n rest, s.notifies n = .signalling rest → ho = some (.notifier n))
    (hl : (s.subs i).Listed ↔ pc.Listed) (hk : (s.subs i).Looping → pc.Looping) :
    Placed ({ s with holder := ho }.setSub i pc) log := by
  refine ⟨forall_setSub (Q := fun j pc => pc.Holds → ho = some (.subscriber j)) hh hs, hn,
    forall_setSub (Q := fun j pc => j ∈ s.subscribers ↔ pc.Listed) ((hI.listed i).trans hl)
      fun j _ => hI.listed j, hI.logged, hI.nodup, hI.remaining,
    forall_setSub (Q := fun j pc => s.signals j = true → pc.Looping)
      (fun h => hk (hI.looping i h)) fun j _ => hI.looping j, hI.started, hI.called, hI.signalled⟩

/-- Nobody is under the lock. -/
theorem Placed.free (hI : Placed s log) (hn : s.holder = none) :
    (∀ i, ¬ (s.subs i).Holds) ∧ ∀ n rest, s.notifies n ≠ .signalling rest := by
  refine ⟨fun i h => ?_, fun n rest h => ?_⟩
  · cases hn.symm.trans (hI.subscriber i h)
  · cases hn.symm.trans (hI.notifier n rest h)

/-- A subscriber is under the lock, and nobody else. -/
theorem Placed.alone (hI : Placed s log) {i : ℕ} (hi : (s.subs i).Holds) :
    (∀ j, j ≠ i → ¬ (s.subs j).Holds) ∧ ∀ n rest, s.notifies n ≠ .signalling rest := by
  have hh := hI.subscriber i hi
  refine ⟨fun j hne hj => ?_, fun n rest h => ?_⟩
  · cases hh.symm.trans (hI.subscriber j hj)
    exact hne rfl
  · cases hh.symm.trans (hI.notifier n rest h)

/-- A `notify_all` is under the lock, and nobody else. -/
theorem Placed.signalling (hI : Placed s log) {n : ℕ} {rest : List ℕ}
    (hn : s.notifies n = .signalling rest) :
    (∀ i, ¬ (s.subs i).Holds) ∧ ∀ m rest, m ≠ n → s.notifies m ≠ .signalling rest := by
  have hh := hI.notifier n rest hn
  refine ⟨fun i hi => ?_, fun m rest hne h => ?_⟩
  · cases hh.symm.trans (hI.subscriber i hi)
  · cases hh.symm.trans (hI.notifier m rest h)
    exact hne rfl

theorem Placed.push (hI : Placed s log) {i : ℕ} (hi : s.subs i = .locked) :
    Placed ({ s with subscribers := s.subscribers ++ [i] }.setSub i .pushed)
      (log ++ [.subscribed i]) := by
  have hnew : i ∉ s.subscribers := by
    rw [hI.listed, hi]
    exact id
  refine ⟨forall_setSub (Q := fun j pc => pc.Holds → s.holder = some (.subscriber j)) (fun _ => ?_)
      fun j _ => hI.subscriber j, hI.notifier,
    forall_setSub (Q := fun j pc => j ∈ s.subscribers ++ [i] ↔ pc.Listed) ?_ fun j hne => ?_,
    fun j => ?_, ?_, fun n j hj => ?_,
    forall_setSub (Q := fun j pc => s.signals j = true → pc.Looping) (fun h => ?_)
      fun j _ => hI.looping j, fun j hj => ?_, fun n hn => ?_, fun j hj => ?_⟩
  · exact hI.subscriber i (by rw [hi]; trivial)
  · simp [SubAt.Listed]
  · simp [hne, hI.listed]
  · simp [Shared.setSub, hI.logged]
  · simpa [Shared.setSub, List.nodup_append] using ⟨hI.nodup, fun j hj hji => hnew (hji ▸ hj)⟩
  · exact List.mem_append_left _ (hI.remaining n j hj)
  · have hl := hI.looping i h
    rw [hi] at hl
    exact hl.elim
  · exact List.mem_append_left _ (hI.started j (by simpa using hj))
  · exact List.mem_append_left _ (hI.called n hn)
  · exact (hI.signalled j hj).imp fun n hn => List.mem_append_left _ hn

theorem Placed.take (hI : Placed s log) {i : ℕ} (hi : s.subs i = .waiting) :
    Placed ({ s with signals := Function.update s.signals i false }.setSub i .callback)
      (log ++ [.started i]) := by
  have hs : ∀ j, Function.update s.signals i false j = true → j ≠ i ∧ s.signals j = true := by
    intro j hj
    rcases eq_or_ne j i with rfl | hne
    · simp at hj
    · exact ⟨hne, by simpa [hne] using hj⟩
  refine ⟨forall_setSub (Q := fun j pc => pc.Holds → s.holder = some (.subscriber j)) nofun
      fun j _ => hI.subscriber j, hI.notifier,
    forall_setSub (Q := fun j pc => j ∈ s.subscribers ↔ pc.Listed) ?_ fun j _ => hI.listed j,
    fun j => ?_, hI.nodup, hI.remaining,
    forall_setSub (Q := fun j pc => Function.update s.signals i false j = true → pc.Looping)
      (fun _ => trivial) fun j _ hj => hI.looping j (hs j hj).2, fun j hj => ?_, fun n hn => ?_,
    fun j hj => ?_⟩
  · rw [hI.listed, hi]
    exact Iff.rfl
  · simp [Shared.setSub, hI.logged]
  · rcases List.mem_append.1 hj with hj | hj
    · exact hI.started j hj
    · obtain rfl : j = i := by simpa using hj
      exact (hI.listed j).2 (by rw [hi]; trivial)
  · exact List.mem_append_left _ (hI.called n hn)
  · exact (hI.signalled j (hs j hj).2).imp fun n hn => List.mem_append_left _ hn

/-- A `notify_all` moves on, with the list and the subscribers as they are. -/
theorem Placed.moveNotify (hI : Placed s log) {n : ℕ} {pc : NotifyAt} {ho : Option Party}
    {e : Note} (hsub : ∀ i, (s.subs i).Holds → ho = some (.subscriber i))
    (hho : ∀ rest, pc = .signalling rest → ho = some (.notifier n))
    (hoth : ∀ m rest, m ≠ n → s.notifies m = .signalling rest → ho = some (.notifier m))
    (hrest : ∀ rest, pc = .signalling rest → ∀ i ∈ rest, i ∈ s.subscribers)
    (hcall : pc ≠ .idle → .called n ∈ log ++ [e])
    (hes : ∀ i, e ≠ .subscribed i) (het : ∀ i, e ≠ .started i) :
    Placed ({ s with holder := ho }.setNotify n pc) (log ++ [e]) := by
  refine ⟨hsub,
    forall_setNotify (Q := fun m pc => ∀ rest, pc = .signalling rest → ho = some (.notifier m))
      hho fun m hne rest h => hoth m rest hne h, hI.listed, fun i => ?_, hI.nodup,
    fun m i hi => ?_, hI.looping, fun i hi => ?_,
    forall_setNotify (Q := fun m pc => pc ≠ .idle → Note.called m ∈ log ++ [e]) hcall
      fun m _ h => List.mem_append_left _ (hI.called m h), fun i hi => ?_⟩
  · rw [List.mem_append]
    simpa [Shared.setNotify, (hes i).symm] using hI.logged i
  · rcases eq_or_ne m n with rfl | hne
    · rw [Shared.remaining, setNotify_self] at hi
      cases pc with
      | signalling rest => exact hrest rest rfl i hi
      | idle | lock => simp at hi
    · refine hI.remaining m i ?_
      simpa only [Shared.remaining, setNotify_of_ne pc hne] using hi
  · rcases List.mem_append.1 hi with hi | hi
    · exact hI.started i hi
    · exact absurd (List.mem_singleton.1 hi).symm (het i)
  · exact (hI.signalled i hi).imp fun n hn => List.mem_append_left _ hn

theorem Placed.signal (hI : Placed s log) {n i : ℕ} {rest : List ℕ}
    (hn : s.notifies n = .signalling (i :: rest)) :
    Placed { s with signals := Function.update s.signals i true } log := by
  have hs : ∀ j, Function.update s.signals i true j = true → j = i ∨ s.signals j = true := by
    intro j hj
    rcases eq_or_ne j i with rfl | hne
    · exact .inl rfl
    · exact .inr (by simpa [hne] using hj)
  refine { hI with looping := fun j hj => ?_, signalled := fun j hj => ?_ }
  · rcases hs j hj with rfl | hj
    · have hl : (s.subs j).Listed :=
        (hI.listed j).1 (hI.remaining n j (by simp [Shared.remaining, hn]))
      have hh := (hI.signalling hn).1 j
      revert hl hh
      cases s.subs j <;> simp [SubAt.Listed, SubAt.Holds, SubAt.Looping]
    · exact hI.looping j hj
  · rcases hs j hj with rfl | hj
    · exact ⟨n, hI.called n (by simp [hn])⟩
    · exact hI.signalled j hj

theorem Placed.step (hI : Placed s log) (h : Move s s' ns) : Placed s' (log ++ ns) := by
  cases h with
  | subscribe hi h =>
    subst h
    rw [List.append_nil]
    exact hI.moveSub nofun (fun j _ => hI.subscriber j) hI.notifier (by rw [hi]; exact Iff.rfl)
      (by rw [hi]; exact id)
  | acquire hi hn h =>
    subst h
    rw [List.append_nil]
    obtain ⟨hs, hns⟩ := hI.free hn
    exact hI.moveSub (fun _ => rfl) (fun j _ hj => absurd hj (hs j))
      (fun n rest h => absurd h (hns n rest)) (by rw [hi]; exact Iff.rfl) (by rw [hi]; exact id)
  | push hi h =>
    subst h
    exact hI.push hi
  | release hi h =>
    subst h
    rw [List.append_nil]
    obtain ⟨hs, hns⟩ := hI.alone (by rw [hi]; trivial)
    exact hI.moveSub nofun (fun j hne hj => absurd hj (hs j hne))
      (fun n rest h => absurd h (hns n rest)) (by rw [hi]; exact Iff.rfl) fun _ => trivial
  | take hi _ h =>
    subst h
    exact hI.take hi
  | finish hi h =>
    subst h
    rw [List.append_nil]
    exact hI.moveSub nofun (fun j _ => hI.subscriber j) hI.notifier (by rw [hi]; exact Iff.rfl)
      fun _ => trivial
  | call hn h =>
    subst h
    exact hI.moveNotify hI.subscriber nofun (fun m rest _ => hI.notifier m rest) nofun
      (fun _ => by simp) nofun nofun
  | begin hn hh h =>
    subst h
    obtain ⟨hs, hns⟩ := hI.free hh
    refine hI.moveNotify (fun i hi => absurd hi (hs i)) (fun _ _ => rfl)
      (fun m rest _ h => absurd h (hns m rest)) (fun rest h i hi => ?_) (fun _ => ?_) nofun nofun
    · cases h
      exact hi
    · exact List.mem_append_left _ (hI.called _ (by simp [hn]))
  | @signal n i₀ rest₀ hn h =>
    subst h
    have hI' := hI.signal hn
    refine hI'.moveNotify hI.subscriber (fun _ _ => hI.notifier _ _ hn)
      (fun m rest _ => hI.notifier m rest) (fun rest h i hi => ?_) (fun _ => ?_) nofun nofun
    · cases h
      exact hI.remaining n i (by simp [Shared.remaining, hn, hi])
    · exact List.mem_append_left _ (hI.called _ (by simp [hn]))
  | leave hn h =>
    subst h
    obtain ⟨hs, hns⟩ := hI.signalling hn
    exact hI.moveNotify (fun i hi => absurd hi (hs i)) nofun
      (fun m rest hne h => absurd h (hns m rest hne)) nofun (fun h => absurd rfl h) nofun nofun

end Placed

/-! ## What has come since -/

section Since

/-- A signal that was set has started a callback, or is pending. -/
def Answered (s : Shared) (_ : List Note) (e : Note) (post : List Note) : Prop :=
  ∀ n i, e = .signalled n i → .started i ∈ post ∨ s.signals i = true

/-- A `notify_all` has set the signal of a subscriber it found in the list, or will. -/
def Covered (s : Shared) (pre : List Note) (e : Note) (post : List Note) : Prop :=
  ∀ n i, e = .began n → .subscribed i ∈ pre →
    (∃ mid post', post = mid ++ .signalled n i :: post' ∧ .ended n ∉ mid)
      ∨ .ended n ∉ post ∧ i ∈ s.remaining n

/-- A subscriber's callbacks, its signal and the one it is about to get are for different runs of
`notify_all`. -/
def Counted (s : Shared) (pre : List Note) (e : Note) (post : List Note) : Prop :=
  ∀ i, e = .subscribed i → .started i ∉ pre
    ∧ ∀ n, post.count (.started i) + ((s.signals i).toNat + (s.remaining n).count i)
      ≤ post.countP Note.isBegan

/-- A subscriber of the time of a call has started its callback, or will. -/
def Heard (s : Shared) (pre : List Note) (e : Note) (post : List Note) : Prop :=
  ∀ n i, e = .called n → .subscribed i ∈ pre →
    .started i ∈ post ∨ s.signals i = true
      ∨ .called n ∉ post ∧ (s.notifies n = .lock ∨ i ∈ s.remaining n)

def CalledBefore (pre : List Note) (e : Note) : Prop := ∀ i, e = .started i → ∃ n, .called n ∈ pre

structure LogInv (s : Shared) (log : List Note) : Prop where
  placed : Placed s log
  answered : Since (Answered s) log
  covered : Since (Covered s) log
  counted : Since (Counted s) log
  heard : Since (Heard s) log
  before : Always CalledBefore log

variable {s s' : Shared} {log : List Note} {b : Note}

theorem Answered.snoc (hI : Since (Answered s) log)
    (hs : ∀ i, s.signals i = true → b = .started i ∨ s'.signals i = true)
    (hb : ∀ n i, b = .signalled n i → s'.signals i = true) :
    Since (Answered s') (log ++ [b]) := by
  refine hI.snoc (fun pre e post _ hQ n i he => ?_) fun n i he => .inr (hb n i he)
  rcases hQ n i he with h | h
  · exact .inl (List.mem_append_left _ h)
  · rcases hs i h with rfl | h
    · exact .inl (by simp)
    · exact .inr h

theorem Covered.snoc (hI : Since (Covered s) log)
    (hr : ∀ n i, i ∈ s.remaining n → b = .signalled n i ∨ b ≠ .ended n ∧ i ∈ s'.remaining n)
    (hb : ∀ n i, b = .began n → .subscribed i ∈ log → i ∈ s'.remaining n) :
    Since (Covered s') (log ++ [b]) := by
  refine hI.snoc (fun pre e post _ hQ n i he hi => ?_) fun n i he hi => .inr ⟨nofun, hb n i he hi⟩
  rcases hQ n i he hi with ⟨mid, post', rfl, hmid⟩ | ⟨hpost, h⟩
  · exact .inl ⟨mid, post' ++ [b], by simp, hmid⟩
  · rcases hr n i h with rfl | ⟨hne, h⟩
    · exact .inl ⟨post, [], rfl, hpost⟩
    · exact .inr ⟨by simp [hpost, hne.symm], h⟩

theorem Counted.snoc (hI : Since (Counted s) log)
    (hw : ∀ i n, ∃ m, [b].count (.started i) + ((s'.signals i).toNat + (s'.remaining n).count i)
      ≤ (s.signals i).toNat + (s.remaining m).count i + [b].countP Note.isBegan)
    (hb : ∀ i, b = .subscribed i → .started i ∉ log
      ∧ ∀ n, (s'.signals i).toNat + (s'.remaining n).count i = 0) :
    Since (Counted s') (log ++ [b]) := by
  refine hI.snoc (fun pre e post _ hQ i he => ?_) fun i he => ?_
  · obtain ⟨hpre, hQ⟩ := hQ i he
    refine ⟨hpre, fun n => ?_⟩
    obtain ⟨m, hw⟩ := hw i n
    have hm := hQ m
    rw [List.count_append, List.countP_append]
    omega
  · obtain ⟨hpre, hz⟩ := hb i he
    exact ⟨hpre, fun n => by simp [hz n]⟩

theorem Heard.snoc (hI : Since (Heard s) log)
    (hs : ∀ i, s.signals i = true → b = .started i ∨ s'.signals i = true)
    (hr : ∀ n i, .subscribed i ∈ log → s.notifies n = .lock ∨ i ∈ s.remaining n →
      s'.signals i = true ∨ b ≠ .called n ∧ (s'.notifies n = .lock ∨ i ∈ s'.remaining n))
    (hb : ∀ n, b = .called n → s'.notifies n = .lock) :
    Since (Heard s') (log ++ [b]) := by
  refine hI.snoc (fun pre e post hlog hQ n i he hi => ?_) fun n i he _ => ?_
  · rcases hQ n i he hi with h | h | ⟨hpost, h⟩
    · exact .inl (List.mem_append_left _ h)
    · rcases hs i h with rfl | h
      · exact .inl (by simp)
      · exact .inr (.inl h)
    · rcases hr n i (by simp [hlog, hi]) h with h | ⟨hne, h⟩
      · exact .inr (.inl h)
      · exact .inr (.inr ⟨by simp [hpost, hne.symm], h⟩)
  · exact .inr (.inr ⟨nofun, .inl (hb n he)⟩)

variable {ns : List Note}

theorem remaining_setNotify (n m : ℕ) (pc : NotifyAt) :
    (s.setNotify n pc).remaining m = if m = n then pc.rest else s.remaining m := by
  rcases eq_or_ne m n with rfl | hne
  · simp [Shared.remaining]
  · simp [Shared.remaining, setNotify_of_ne pc hne, hne]

/-- A `notify_all` with no signal left to set moves on, and the others keep theirs. -/
theorem mem_remaining_setNotify {n m i : ℕ} (pc : NotifyAt) (hn : s.remaining n = [])
    (hi : i ∈ s.remaining m) : m ≠ n ∧ i ∈ (s.setNotify n pc).remaining m := by
  have hne : m ≠ n := by
    rintro rfl
    simp [hn] at hi
  rw [remaining_setNotify, if_neg hne]
  exact ⟨hne, hi⟩

/-- The start of a callback takes one signal, and its own. -/
theorem signals_take (i : ℕ) {j : ℕ} (hj : s.signals j = true) :
    Note.started i = .started j ∨ Function.update s.signals i false j = true := by
  rcases eq_or_ne j i with rfl | hne
  · exact .inl rfl
  · exact .inr (by simpa [hne] using hj)

theorem signals_set (i : ℕ) {j : ℕ} (hj : s.signals j = true) :
    Function.update s.signals i true j = true := by
  rcases eq_or_ne j i with rfl | hne
  · simp
  · simpa [hne] using hj

theorem Answered.step (hI : Since (Answered s) log) (h : Move s s' ns) :
    Since (Answered s') (log ++ ns) := by
  cases h with
  | subscribe _ h | acquire _ _ h | release _ h | finish _ h =>
    subst h
    rw [List.append_nil]
    exact hI
  | push _ h | call _ h | begin _ _ h | leave _ h =>
    subst h
    exact Answered.snoc hI (fun _ => .inr) nofun
  | @take i _ _ h =>
    subst h
    exact Answered.snoc hI (fun _ => signals_take i) nofun
  | @signal n i rest _ h =>
    subst h
    refine Answered.snoc hI (fun _ hj => .inr (signals_set i hj)) fun m j he => ?_
    cases he
    simp [Shared.setNotify]

theorem Covered.step (hI : Since (Covered s) log) (hP : Placed s log) (h : Move s s' ns) :
    Since (Covered s') (log ++ ns) := by
  cases h with
  | subscribe _ h | acquire _ _ h | release _ h | finish _ h =>
    subst h
    rw [List.append_nil]
    exact hI
  | push _ h | take _ _ h =>
    subst h
    exact Covered.snoc hI (fun n i hi => .inr ⟨nofun, hi⟩) nofun
  | @call n hn h =>
    subst h
    have hrest : s.remaining n = [] := by simp [Shared.remaining, hn]
    exact Covered.snoc hI (fun m i hi => .inr ⟨nofun, (mem_remaining_setNotify _ hrest hi).2⟩) nofun
  | @begin n hn _ h =>
    subst h
    have hrest : s.remaining n = [] := by simp [Shared.remaining, hn]
    refine Covered.snoc hI (fun m i hi => .inr ⟨nofun, (mem_remaining_setNotify _ hrest hi).2⟩)
      fun m i he hi => ?_
    cases he
    rw [remaining_setNotify, if_pos rfl]
    exact (hP.logged i).2 hi
  | @signal n i rest hn h =>
    subst h
    refine Covered.snoc hI (fun m j hj => ?_) nofun
    rw [remaining_setNotify]
    rcases eq_or_ne m n with rfl | hne
    · have hj : j = i ∨ j ∈ rest := by simpa [Shared.remaining, hn] using hj
      rcases hj with rfl | hj
      · exact .inl rfl
      · exact .inr ⟨nofun, by simpa using hj⟩
    · rw [if_neg hne]
      exact .inr ⟨nofun, hj⟩
  | @leave n hn h =>
    subst h
    have hrest : s.remaining n = [] := by simp [Shared.remaining, hn]
    refine Covered.snoc hI (fun m i hi => .inr ?_) nofun
    obtain ⟨hne, hi⟩ := mem_remaining_setNotify .idle hrest hi
    exact ⟨fun he => hne (by cases he; rfl), hi⟩

theorem Counted.step (hI : Since (Counted s) log) (hP : Placed s log) (h : Move s s' ns) :
    Since (Counted s') (log ++ ns) := by
  cases h with
  | subscribe _ h | acquire _ _ h | release _ h | finish _ h =>
    subst h
    rw [List.append_nil]
    exact hI
  | @push i hi h =>
    subst h
    refine Counted.snoc hI (fun j n => ⟨n, ?_⟩) fun j he => ?_
    · simp [Shared.setSub, Shared.remaining, Note.isBegan]
    · cases he
      refine ⟨fun hst => ?_, fun n => ?_⟩
      · have hl := (hP.listed i).1 (hP.started i hst)
        rw [hi] at hl
        exact hl
      · have hs : s.signals i = false := by
          by_contra h
          have hl := hP.looping i (by simpa using h)
          rw [hi] at hl
          exact hl
        have hr : (s.notifies n).rest = [] := by
          have hn := (hP.alone (i := i) (by rw [hi]; trivial)).2 n
          cases hns : s.notifies n with
          | signalling rest => exact absurd hns (hn rest)
          | idle | lock => rfl
        change (s.signals i).toNat + (s.notifies n).rest.count i = 0
        rw [hs, hr]
        rfl
  | @take i _ hs h =>
    subst h
    refine Counted.snoc hI (fun j n => ⟨n, ?_⟩) nofun
    rcases eq_or_ne j i with rfl | hne
    · simp [Shared.setSub, Shared.remaining, hs]
    · simp [Shared.setSub, Shared.remaining, hne, hne.symm]
  | @call n hn h =>
    subst h
    refine Counted.snoc hI (fun j m => ⟨m, ?_⟩) nofun
    rw [remaining_setNotify]
    rcases eq_or_ne m n with rfl | hne
    · simp [Shared.setNotify, Nat.add_assoc]
    · simp [Shared.setNotify, hne]
  | @begin n hn _ h =>
    subst h
    refine Counted.snoc hI (fun j m => ⟨m, ?_⟩) nofun
    have hc : s.subscribers.count j ≤ 1 := List.nodup_iff_count_le_one.1 hP.nodup j
    rw [remaining_setNotify]
    rcases eq_or_ne m n with rfl | hne
    · simp [Shared.setNotify, Note.isBegan]
      omega
    · simp [Shared.setNotify, hne, Shared.remaining]
  | @signal n i rest hn h =>
    subst h
    refine Counted.snoc hI (fun j m => ⟨n, ?_⟩) nofun
    -- the other calls wait for the lock, so what they have still to set does not count yet
    have hrest : ((s.setNotify n (.signalling rest)).remaining m).count j ≤ rest.count j := by
      rw [remaining_setNotify]
      rcases eq_or_ne m n with rfl | hne
      · simp
      · have hm := fun rest => (hP.signalling hn).2 m rest hne
        rw [if_neg hne, Shared.remaining]
        cases hns : s.notifies m with
        | signalling rest => exact absurd hns (hm rest)
        | idle | lock => simp
    have hn' : (s.remaining n).count j = rest.count j + if i = j then 1 else 0 := by
      simp [Shared.remaining, hn, List.count_cons]
    have hs : (Function.update s.signals i true j).toNat
        ≤ (s.signals j).toNat + if i = j then 1 else 0 := by
      rcases eq_or_ne j i with rfl | hne
      · simp
      · simp [hne]
    rw [hn']
    change 0 + ((Function.update s.signals i true j).toNat
      + ((s.setNotify n (.signalling rest)).remaining m).count j) ≤ _ + 0
    omega
  | @leave n hn h =>
    subst h
    refine Counted.snoc hI (fun j m => ⟨m, ?_⟩) nofun
    rw [remaining_setNotify]
    rcases eq_or_ne m n with rfl | hne
    · simp [Shared.setNotify, Nat.add_assoc]
    · simp [Shared.setNotify, hne, Shared.remaining]

theorem Heard.step (hI : Since (Heard s) log) (hP : Placed s log) (h : Move s s' ns) :
    Since (Heard s') (log ++ ns) := by
  cases h with
  | subscribe _ h | acquire _ _ h | release _ h | finish _ h =>
    subst h
    rw [List.append_nil]
    exact hI
  | push _ h =>
    subst h
    exact Heard.snoc hI (fun _ => .inr) (fun n i _ h => .inr ⟨nofun, h⟩) nofun
  | @take i _ _ h =>
    subst h
    exact Heard.snoc hI (fun _ => signals_take i) (fun n j _ h => .inr ⟨nofun, h⟩) nofun
  | @call n hn h =>
    subst h
    refine Heard.snoc hI (fun _ => .inr) (fun m i _ h => .inr ?_) fun m he => ?_
    · rcases eq_or_ne m n with rfl | hne
      · simp [hn, Shared.remaining] at h
      · rw [remaining_setNotify, if_neg hne, setNotify_of_ne _ hne]
        exact ⟨fun he => hne (by cases he; rfl), h⟩
    · cases he
      exact setNotify_self _ _
  | @begin n _ _ h =>
    subst h
    refine Heard.snoc hI (fun _ => .inr) (fun m i hi h => .inr ⟨nofun, ?_⟩) nofun
    rw [remaining_setNotify]
    rcases eq_or_ne m n with rfl | hne
    · rw [if_pos rfl]
      exact .inr ((hP.logged i).2 hi)
    · rw [if_neg hne, setNotify_of_ne _ hne]
      exact h
  | @signal n i rest hn h =>
    subst h
    refine Heard.snoc hI (fun _ hj => .inr (signals_set i hj)) (fun m j _ h => ?_) nofun
    rw [remaining_setNotify]
    rcases eq_or_ne m n with rfl | hne
    · have hj : j = i ∨ j ∈ rest := by simpa [Shared.remaining, hn] using h
      rcases hj with rfl | hj
      · exact .inl (by simp [Shared.setNotify])
      · exact .inr ⟨nofun, .inr (by simpa using hj)⟩
    · rw [if_neg hne, setNotify_of_ne _ hne]
      exact .inr ⟨nofun, h⟩
  | @leave n hn h =>
    subst h
    refine Heard.snoc hI (fun _ => .inr) (fun m i _ h => .inr ⟨nofun, ?_⟩) nofun
    rw [remaining_setNotify]
    rcases eq_or_ne m n with rfl | hne
    · simp [Shared.remaining, hn] at h
    · rw [if_neg hne, setNotify_of_ne _ hne]
      exact h

theorem CalledBefore.step (hI : Always CalledBefore log) (hP : Placed s log) (h : Move s s' ns) :
    Always CalledBefore (log ++ ns) := by
  cases h with
  | subscribe | acquire | release | finish =>
    rw [List.append_nil]
    exact hI
  | push | call | begin | signal | leave => exact hI.snoc nofun
  | @take i _ hs _ => exact hI.snoc fun _ _ => hP.signalled i hs

theorem LogInv.step (hI : LogInv s log) (h : Move s s' ns) : LogInv s' (log ++ ns) :=
  ⟨hI.placed.step h, Answered.step hI.answered h, Covered.step hI.covered hI.placed h,
    Counted.step hI.counted hI.placed h, Heard.step hI.heard hI.placed h,
    CalledBefore.step hI.before hI.placed h⟩

end Since

/-! ## Every interleaving -/

section Reach

variable {s : Shared} {log : List Note}

theorem LogInv.new : LogInv .new [] := by
  refine ⟨?_, .nil, .nil, .nil, .nil, .nil⟩
  constructor <;> simp [Shared.new, Shared.remaining, SubAt.Holds, SubAt.Listed]

theorem logInv_of_reach {P : Shared × List Note → Access → Prop} {s : Shared × List Note}
    (h : Machine.Reach (machine.observed notes) P s) : LogInv s.1 s.2 := by
  refine h.invariant (I := fun s => LogInv s.1 s.2) .new fun s a s' _ _ hs hI => ?_
  obtain ⟨hs, hl⟩ := Machine.observed_step hs
  exact hl ▸ hI.step (moves_of_step hs)

/-- The signal of a subscriber in the list when a `notify_all` began is set before it ends. -/
theorem LogInv.signalled_between (hI : LogInv s log) {pre mid post : List Note} {n i : ℕ}
    (hlog : log = pre ++ .began n :: (mid ++ .ended n :: post)) (hmid : .ended n ∉ mid)
    (hi : .subscribed i ∈ pre) : ∃ mid₁ mid₂, mid = mid₁ ++ .signalled n i :: mid₂ := by
  rcases hI.covered _ _ _ hlog n i rfl hi with ⟨mid₁, post', h, hmid₁⟩ | ⟨hpost, -⟩
  · rcases List.append_eq_append_iff.1 h with ⟨l, rfl, hl⟩ | ⟨l, rfl, hl⟩
    · cases l with
      | nil => simp at hl
      | cons x l =>
        simp only [List.cons_append, List.cons.injEq] at hl
        exact absurd (by simp [hl.1]) hmid₁
    · cases l with
      | nil => simp at hl
      | cons x l =>
        simp only [List.cons_append, List.cons.injEq] at hl
        exact ⟨mid₁, l, by rw [hl.1]⟩
  · exact absurd (by simp) hpost

theorem waiting_starts {i : ℕ} (hi : s.subs i = .waiting) (hs : s.signals i = true)
    (log : List Note) :
    (machine.observed notes).run (s, log) (List.replicate 1 (.sub i))
      = some ({ s with signals := Function.update s.signals i false }.setSub i .callback,
        log ++ [.started i]) := by
  simp [Machine.run, Machine.observed, machine, step, subStep, hi, hs, notes]

/-- A subscriber with its signal pending starts its callback by itself: at once, or when the one it
is in has ended. -/
theorem pending_starts (hI : LogInv s log) {i : ℕ} (hs : s.signals i = true) :
    ∃ k s', (machine.observed notes).run (s, log) (List.replicate k (.sub i))
      = some (s', log ++ [.started i]) := by
  have hl := hI.placed.looping i hs
  cases hi : s.subs i with
  | waiting => exact ⟨1, _, waiting_starts hi hs log⟩
  | callback =>
    have hfinish : (machine.observed notes).step (s, log) (.sub i)
        = some (s.setSub i .waiting, log) := by
      simp [Machine.observed, machine, step, subStep, hi, notes]
    have hrun := waiting_starts (s := s.setSub i .waiting) (setSub_self _ _) hs log
    exact ⟨2, _, (Machine.run_cons hfinish _).trans hrun⟩
  | idle | lock | locked | pushed =>
    rw [hi] at hl
    exact hl.elim

/-- However the accesses of `subscribe`, of `notify_all` and of the subscribers' loops are mixed,
and however long their callbacks are. -/
theorem keepsLast_of_reach {s : Shared × List Note}
    (h : Machine.Reach (machine.observed notes) Machine.Any s) : KeepsLast s.1 s.2 := by
  have hI := logInv_of_reach h
  refine ⟨fun pre n mid post i hlog hmid hi => ?_, fun i => pending_starts hI,
    fun pre i post hlog => ?_, fun pre i post hlog => hI.before _ _ _ hlog i rfl,
    fun pre n post i hlog hi => ?_⟩
  · obtain ⟨mid₁, mid₂, rfl⟩ := hI.signalled_between hlog hmid hi
    refine ⟨mid₁, mid₂, rfl, ?_⟩
    have ha := hI.answered (pre ++ .began n :: mid₁) (.signalled n i) (mid₂ ++ .ended n :: post)
      (by simp [hlog]) n i rfl
    simpa using ha
  · obtain ⟨hpre, hc⟩ := hI.counted _ _ _ hlog i rfl
    exact ⟨hpre, Nat.le_trans (Nat.le_add_right _ _) (hc 0)⟩
  · rcases hI.heard _ _ _ hlog n i rfl hi with h | h | ⟨hpost, h⟩
    · exact .inl h
    · exact .inr (.inl h)
    · refine .inr (.inr ⟨fun hidle => ?_, hpost⟩)
      simp [hidle, Shared.remaining] at h

end Reach

end OcppClient.Broadcasts
