import Mathlib.Logic.Function.Basic
import OcppClient.Lib.Transition

/-!
# A mutex held across an operation

Tasks wait for a mutex, take it, and hold it over one operation that may return `Pending` before it
ends; some operations are raced against a timer and some are not. `holder_iff` says that the holder
is the one task inside an operation. A set of tasks is never blocked without a timer (`unblocked`)
in runs in which they come to the mutex when it is free, nobody takes it while one of them waits,
and none of their own operations without a timer stays pending.
-/

namespace Mutex

open Transition

/-- Where a task stands: elsewhere, waiting for the mutex, or inside an operation that is raced
against a timer or is not. -/
inductive Pc
  | away
  | lock
  | op (timed : Bool)
  deriving DecidableEq

def Pc.isOp : Pc → Bool
  | .op _ => true
  | _ => false

structure Lock (T : Type*) where
  holder : Option T
  pended : Bool
  pc : T → Pc

inductive Label (T : Type*)
  | move (t : T) (x : Pc)
  | acquire (t : T) (timed : Bool)
  | pend (t : T)
  | release (t : T)

variable {T : Type*} [DecidableEq T]

def step (l : Lock T) : Label T → Option (Lock T)
  | .move t x =>
    if (l.pc t).isOp = false ∧ x.isOp = false then some { l with pc := Function.update l.pc t x }
    else none
  | .acquire t timed =>
    if l.pc t = .lock ∧ l.holder = none then
      some ⟨some t, false, Function.update l.pc t (.op timed)⟩
    else none
  | .pend t =>
    if (l.pc t).isOp = true ∧ l.pended = false then some { l with pended := true } else none
  | .release t =>
    if (l.pc t).isOp = true then some ⟨none, false, Function.update l.pc t .away⟩ else none

variable (T) in
def machine : Machine (Lock T) (Label T) where
  init := ⟨none, false, fun _ => .away⟩
  step := step

theorem holder_step {l l' : Lock T} {b : Label T} (h : step l b = some l')
    (hI : ∀ t, l.holder = some t ↔ (l.pc t).isOp = true) (u : T) :
    l'.holder = some u ↔ (l'.pc u).isOp = true := by
  cases b with
  | move t x =>
    simp only [step] at h
    split_ifs at h with hop
    cases h
    rcases eq_or_ne u t with rfl | hne
    · simp [hI, hop]
    · simp [hI, Function.update_of_ne hne]
  | acquire t timed =>
    simp only [step] at h
    split_ifs at h with hop
    cases h
    rcases eq_or_ne u t with rfl | hne
    · simp [Pc.isOp]
    · have hu : (l.pc u).isOp ≠ true := fun hu => by simp [hop.2] at hI; simp [hI u] at hu
      simp [Function.update_of_ne hne, hu, hne.symm]
  | pend t =>
    simp only [step] at h
    split_ifs at h
    cases h
    exact hI u
  | release t =>
    simp only [step] at h
    split_ifs at h with hop
    cases h
    rcases eq_or_ne u t with rfl | hne
    · simp [Pc.isOp]
    · have hu : (l.pc u).isOp ≠ true := fun hu =>
        hne (Option.some.inj (((hI u).2 hu).symm.trans ((hI t).2 hop)))
      simp [Function.update_of_ne hne, hu]

/-- The holder is the task inside an operation. -/
theorem holder_iff {P : Lock T → Label T → Prop} {l : Lock T} (h : Machine.Reach (machine T) P l)
    (t : T) : l.holder = some t ↔ (l.pc t).isOp = true :=
  h.invariant (I := fun l => ∀ t, l.holder = some t ↔ (l.pc t).isOp = true)
    (by simp [machine, Pc.isOp]) (fun _ _ _ _ _ hs hI => holder_step hs hI) t

/-- While a task is inside its operation, only a `Pending` of its own is noted. -/
theorem pended_step {l l' : Lock T} {b : Label T} (h : step l b = some l')
    (hI : ∀ t, l.holder = some t ↔ (l.pc t).isOp = true) {t : T} (hop : (l.pc t).isOp = true)
    (ht : l'.pc t = l.pc t) : b = .pend t ∨ l'.pended = l.pended := by
  have huniq : ∀ u, (l.pc u).isOp = true → u = t := fun u hu =>
    Option.some.inj (((hI u).2 hu).symm.trans ((hI t).2 hop))
  cases b with
  | move u x =>
    simp only [step] at h
    split_ifs at h
    cases h
    exact .inr rfl
  | acquire u timed =>
    simp only [step] at h
    split_ifs at h with hl
    rw [(hI t).2 hop] at hl
    cases hl.2
  | pend u =>
    simp only [step] at h
    split_ifs at h with hu
    rw [huniq u hu.1]
    exact .inl rfl
  | release u =>
    simp only [step] at h
    split_ifs at h with hu
    cases h
    obtain rfl := huniq u hu
    simp only [Function.update_self] at ht
    rw [← ht] at hop
    cases hop

/-- The tasks in `W` find the mutex free when they come to it, lose it to nobody while they wait,
and have no operation pending that no timer ends. -/
def Undisturbed (W : T → Prop) (l : Lock T) : Label T → Prop
  | .move t x => W t → x = .lock → l.pc t = .lock ∨ l.holder = none
  | .acquire t _ => ∀ u, W u → u ≠ t → l.pc u ≠ .lock
  | .pend t => W t → l.pc t ≠ .op false
  | .release _ => True

structure Unblocked (W : T → Prop) (l : Lock T) : Prop where
  lock : ∀ t, W t → l.pc t = .lock → l.holder = none
  op : ∀ t, W t → l.pc t = .op false → l.pended = false

theorem unblocked_step {W : T → Prop} {l l' : Lock T} {b : Label T} (hb : Undisturbed W l b)
    (h : step l b = some l') (hI : ∀ t, l.holder = some t ↔ (l.pc t).isOp = true)
    (hU : Unblocked W l) : Unblocked W l' := by
  cases b with
  | move t x =>
    simp only [step] at h
    split_ifs at h with hop
    cases h
    refine ⟨fun u hu hl => ?_, fun u hu hl => ?_⟩
    · rcases eq_or_ne u t with rfl | hne
      · simp only [Function.update_self] at hl
        exact (hb hu hl).elim (hU.lock u hu) id
      · simp only [Function.update_of_ne hne] at hl
        exact hU.lock u hu hl
    · rcases eq_or_ne u t with rfl | hne
      · simp only [Function.update_self] at hl
        simp [hl, Pc.isOp] at hop
      · simp only [Function.update_of_ne hne] at hl
        exact hU.op u hu hl
  | acquire t timed =>
    simp only [step] at h
    split_ifs at h
    cases h
    refine ⟨fun u hu hl => ?_, fun _ _ _ => rfl⟩
    rcases eq_or_ne u t with rfl | hne
    · simp at hl
    · simp only [Function.update_of_ne hne] at hl
      exact absurd hl (hb u hu hne)
  | pend t =>
    simp only [step] at h
    split_ifs at h with hop
    cases h
    refine ⟨hU.lock, fun u hu hl => ?_⟩
    have hut : u = t := by
      have h₁ := (hI u).2 (by simp only [] at hl; rw [hl]; rfl)
      exact Option.some.inj (h₁.symm.trans ((hI t).2 hop.1))
    subst hut
    exact absurd hl (hb hu)
  | release t =>
    simp only [step] at h
    split_ifs at h
    cases h
    exact ⟨fun _ _ _ => rfl, fun _ _ _ => rfl⟩

theorem unblocked {W : T → Prop} {l : Lock T}
    (h : Machine.Reach (machine T) (Undisturbed W) l) : Unblocked W l :=
  h.invariant ⟨fun _ _ _ => rfl, fun _ _ _ => rfl⟩ fun _ _ _ hr hb hs hU =>
    unblocked_step hb hs (holder_iff hr) hU

end Mutex
