import Mathlib.Logic.Function.Basic
import Mathlib.Logic.Relation
import OcppClient.Lib.Transition

/-!
# Tasks of asynchronous code and their mutexes

`Code` is asynchronous code as its mutexes see it: where a guard is taken and dropped, and what is
awaited in between. A task keeps a stack of what it has left to do; any number of them take steps in
any order. The application's code is a `callback`: it may await anything, call any method it is
given and drop the future of one at any `await`, with the guards the future holds.

Code is `Disciplined` where nothing is awaited under a guard but operations of the transport, and
those only under the mutexes that allow it. Then who waits for a mutex holds none (`Inv.waits`), and
no wait is cyclic (`Inv.acyclic`).
-/

namespace Async

open Transition

/-! ## Code -/

/-- Asynchronous code over the mutexes `M`. `skip` is code without an `await`, `wait` an `await` of
something that need not come. -/
inductive Code (M : Type)
  | skip
  | transport
  | wait
  | callback
  | seq (a b : Code M)
  | branch (f : ℕ → Code M)
  | loop (body : Code M)
  | guarded (m : M) (body : Code M)
  | timed (body : Code M)
  | spawn (body : Code M)

namespace Code

variable {M : Type}

def either (a b : Code M) : Code M :=
  .branch fun
    | 0 => a
    | _ => b

/-- Awaits nothing but, where `io` holds, the transport. -/
def Plain (io : Prop) : Code M → Prop
  | .skip => True
  | .transport => io
  | .seq a b => a.Plain io ∧ b.Plain io
  | .timed c => c.Plain io
  | _ => False

/-- Under every guard there is plain code only. -/
def Disciplined (io : M → Prop) : Code M → Prop
  | .seq a b => a.Disciplined io ∧ b.Disciplined io
  | .branch f => ∀ n, (f n).Disciplined io
  | .loop c => c.Disciplined io
  | .guarded m c => c.Plain (io m)
  | .timed c => c.Disciplined io
  | .spawn c => c.Disciplined io
  | _ => True

/-- Awaits nothing but mutexes and the transport. -/
def Prompt : Code M → Prop
  | .skip => True
  | .transport => True
  | .seq a b => a.Prompt ∧ b.Prompt
  | .branch f => ∀ n, (f n).Prompt
  | .guarded _ c => c.Prompt
  | .timed c => c.Prompt
  | _ => False

@[simp] theorem disciplined_either {io : M → Prop} {a b : Code M} :
    (either a b).Disciplined io ↔ a.Disciplined io ∧ b.Disciplined io := by
  refine ⟨fun h => ⟨h 0, h 1⟩, fun h n => ?_⟩
  cases n
  · exact h.1
  · exact h.2

@[simp] theorem prompt_either {a b : Code M} : (either a b).Prompt ↔ a.Prompt ∧ b.Prompt := by
  refine ⟨fun h => ⟨h 0, h 1⟩, fun h n => ?_⟩
  cases n
  · exact h.1
  · exact h.2

end Code

/-! ## Tasks -/

/-- What a task has left to do: code, the drop of a guard at the end of its scope, or the end of a
section that is raced against something. -/
inductive Item (M : Type)
  | run (c : Code M)
  | release (m : M)
  | expiry

/-- The tasks `T` with their stacks, and who owns which mutex. -/
structure System (T M : Type) where
  stack : T → List (Item M)
  owner : M → Option T

inductive Move (T M : Type)
  | start
  | go
  | choose (n : ℕ)
  | again
  | method (c : Code M)
  | spawn (u : T)
  | drop (n : ℕ)

section Steps

variable {T M : Type}

/-- A task with this to do is at an `await`. -/
def Item.suspended : Item M → Bool
  | .run .transport => true
  | .run .wait => true
  | .run .callback => true
  | .run (.guarded _ _) => true
  | _ => false

/-- Where the drop of a future ends: in the code that awaited it. -/
def caught : List (Item M) → Bool
  | .expiry :: _ => true
  | .run .callback :: _ => true
  | _ => false

/-- What a move makes of the stack of the task that takes it. -/
def advance : List (Item M) → Move T M → Option (List (Item M))
  | [], .start => some [.run .callback]
  | .run .skip :: k, .go => some k
  | .run .transport :: k, .go => some k
  | .run .wait :: k, .go => some k
  | .run .callback :: k, .go => some k
  | .run .callback :: k, .method c => some (.run c :: .run .callback :: k)
  | .run (.seq a b) :: k, .go => some (.run a :: .run b :: k)
  | .run (.branch f) :: k, .choose n => some (.run (f n) :: k)
  | .run (.loop c) :: k, .again => some (.run c :: .run (.loop c) :: k)
  | .run (.loop _) :: k, .go => some k
  | .run (.guarded m c) :: k, .go => some (.run c :: .release m :: k)
  | .run (.timed c) :: k, .go => some (.run c :: .expiry :: k)
  | .run (.spawn _) :: k, .spawn _ => some k
  | .release _ :: k, .go => some k
  | .expiry :: k, .go => some k
  | i :: k, .drop n =>
    if i.suspended ∧ caught ((i :: k).drop n) then some ((i :: k).drop n) else none
  | _, _ => none

/-- The mutexes whose guards are dropped in a stack. -/
def released : List (Item M) → List M
  | [] => []
  | .release m :: k => m :: released k
  | .run _ :: k => released k
  | .expiry :: k => released k

variable [DecidableEq T] [DecidableEq M]

def System.set (s : System T M) (t : T) (σ : List (Item M)) : System T M :=
  { s with stack := Function.update s.stack t σ }

def System.give (s : System T M) (m : M) (o : Option T) : System T M :=
  { s with owner := Function.update s.owner m o }

/-- A move of one task. It takes a mutex only where it is free, and a new task gets a name that is
not in use. -/
def System.step (s : System T M) (a : T × Move T M) : Option (System T M) :=
  (advance (s.stack a.1) a.2).bind fun σ =>
    match a.2, s.stack a.1 with
    | .go, .run (.guarded m _) :: _ =>
      if s.owner m = none then some ((s.set a.1 σ).give m (some a.1)) else none
    | .go, .release m :: _ => some ((s.set a.1 σ).give m none)
    | .spawn u, .run (.spawn c) :: _ =>
      if u ≠ a.1 ∧ (s.stack u).isEmpty then some ((s.set a.1 σ).set u [.run c]) else none
    | .drop n, τ =>
      some
        { s.set a.1 σ with
          owner := fun m => if m ∈ released (τ.take n) then none else s.owner m }
    | _, _ => some (s.set a.1 σ)

def machine (init : System T M) : Machine (System T M) (T × Move T M) := ⟨init, System.step⟩

/-- The application calls the methods in `api` only. -/
def Uses (api : Code M → Prop) (_ : System T M) (a : T × Move T M) : Prop :=
  ∀ c, a.2 = .method c → api c

end Steps

/-! ## What a step does -/

section Cases

variable {T M : Type}

@[simp] theorem released_run (c : Code M) (k : List (Item M)) :
    released (.run c :: k) = released k := rfl

@[simp] theorem released_expiry (k : List (Item M)) : released (.expiry :: k) = released k := rfl

@[simp] theorem released_release (m : M) (k : List (Item M)) :
    released (.release m :: k) = m :: released k := rfl

theorem released_append (σ τ : List (Item M)) : released (σ ++ τ) = released σ ++ released τ := by
  induction σ with
  | nil => rfl
  | cons i k ih => cases i <;> simp [ih]

variable [DecidableEq T] [DecidableEq M]

/-- What a move that leaves the stack `σ` does to the other tasks and to the mutexes. -/
inductive Stepped (s : System T M) (t : T) (σ : List (Item M)) : Move T M → System T M → Prop
  | take {m : M} {c : Code M} {k : List (Item M)} (hk : s.stack t = .run (.guarded m c) :: k)
    (hm : s.owner m = none) (hσ : σ = .run c :: .release m :: k) :
    Stepped s t σ .go ((s.set t σ).give m (some t))
  | release {m : M} (hk : s.stack t = .release m :: σ) :
    Stepped s t σ .go ((s.set t σ).give m none)
  | spawn {c : Code M} {u : T} (hk : s.stack t = .run (.spawn c) :: σ) (hu : u ≠ t)
    (he : s.stack u = []) : Stepped s t σ (.spawn u) ((s.set t σ).set u [.run c])
  | drop {n : ℕ} (hσ : σ = (s.stack t).drop n) :
    Stepped s t σ (.drop n)
      { s.set t σ with
        owner := fun m => if m ∈ released ((s.stack t).take n) then none else s.owner m }
  | own {mv : Move T M} (hr : released σ = released (s.stack t)) : Stepped s t σ mv (s.set t σ)

theorem step_cases {s s' : System T M} {t : T} {mv : Move T M} (h : s.step (t, mv) = some s') :
    ∃ σ, advance (s.stack t) mv = some σ ∧ Stepped s t σ mv s' := by
  obtain ⟨σ, hσ, h⟩ := Option.bind_eq_some_iff.1 h
  refine ⟨σ, hσ, ?_⟩
  simp only at h hσ
  generalize hτ : s.stack t = τ at h hσ
  unfold advance at hσ
  split at hσ
  all_goals first | (cases hσ; done) | skip
  case h_11 m c k =>
    cases hσ
    simp only at h
    split_ifs at h with hm
    cases h
    exact .take hτ hm rfl
  case h_13 c k u =>
    cases hσ
    simp only at h
    split_ifs at h with hu
    cases h
    exact .spawn hτ hu.1 (List.isEmpty_iff.1 hu.2)
  case h_14 m k =>
    cases hσ
    cases h
    exact .release hτ
  case h_16 i k n =>
    split_ifs at hσ
    cases hσ
    cases h
    rw [← hτ]
    exact .drop rfl
  all_goals
    cases hσ
    cases h
    exact .own (by rw [hτ]; rfl)

end Cases

section Set

variable {T M : Type} [DecidableEq T] {s : System T M} {t : T} {σ τ : List (Item M)}

@[simp] theorem System.set_stack : (s.set t σ).stack t = σ := Function.update_self ..

@[simp] theorem System.set_owner : (s.set t σ).owner = s.owner := rfl

@[simp] theorem System.set_set : (s.set t σ).set t τ = s.set t τ := by
  simp [System.set]

theorem System.set_self (h : s.stack t = σ) : s.set t σ = s := by
  simp [System.set, ← h]

end Set

section Give

variable {T M : Type} [DecidableEq M] {s : System T M} {m : M} {o : Option T}

@[simp] theorem System.give_stack : (s.give m o).stack = s.stack := rfl

@[simp] theorem System.give_owner : (s.give m o).owner = Function.update s.owner m o := rfl

theorem System.give_set [DecidableEq T] {t : T} {σ : List (Item M)} :
    (s.give m o).set t σ = (s.set t σ).give m o := rfl

end Give

section Steps

variable {T M : Type} [DecidableEq T] [DecidableEq M] {s : System T M} {t : T} {m : M} {c : Code M}
  {k : List (Item M)}

theorem step_skip (hk : s.stack t = .run .skip :: k) : s.step (t, .go) = some (s.set t k) := by
  simp [System.step, hk, advance]

theorem step_take (hk : s.stack t = .run (.guarded m c) :: k) (hm : s.owner m = none) :
    s.step (t, .go) = some ((s.set t (.run c :: .release m :: k)).give m (some t)) := by
  simp [System.step, hk, advance, hm]

theorem step_release (hk : s.stack t = .release m :: k) :
    s.step (t, .go) = some ((s.set t k).give m none) := by
  simp [System.step, hk, advance]

end Steps

/-! ## The discipline, step by step -/

section Discipline

variable {T M : Type} (io : M → Prop)

/-- Disciplined code, and no guard to drop. -/
def Item.Free : Item M → Prop
  | .run c => c.Disciplined io
  | .release _ => False
  | .expiry => True

def Free (σ : List (Item M)) : Prop := ∀ i ∈ σ, i.Free io

/-- The stack of a task that holds `m`: plain code, the drop of the guard, then no other guard. -/
def Held (m : M) : List (Item M) → Prop
  | [] => False
  | .run c :: k => c.Plain (io m) ∧ Held m k
  | .expiry :: k => Held m k
  | .release m' :: k => m' = m ∧ Free io k

def Sound (σ : List (Item M)) : Prop := Free io σ ∨ ∃ m, Held io m σ

variable {io} {σ τ k : List (Item M)} {m : M}

@[simp] theorem free_nil : Free io ([] : List (Item M)) := by simp [Free]

@[simp] theorem free_cons {i : Item M} : Free io (i :: k) ↔ i.Free io ∧ Free io k := by
  simp [Free]

theorem released_of_free (h : Free io σ) : released σ = [] := by
  induction σ with
  | nil => rfl
  | cons i k ih =>
    obtain ⟨hi, hk⟩ := free_cons.1 h
    cases i with
    | run c => exact ih hk
    | release m => exact hi.elim
    | expiry => exact ih hk

theorem released_of_held (h : Held io m σ) : released σ = [m] := by
  induction σ with
  | nil => exact h.elim
  | cons i k ih =>
    cases i with
    | run c => exact ih h.2
    | release m' => rw [released_release, released_of_free h.2, h.1]
    | expiry => exact ih h

/-- A task holds one mutex at most. -/
theorem Sound.nodup (h : Sound io σ) : (released σ).Nodup := by
  rcases h with h | ⟨m, h⟩
  · simp [released_of_free h]
  · simp [released_of_held h]

theorem Free.drop (h : Free io σ) (n : ℕ) : Free io (σ.drop n) :=
  fun i hi => h i (List.mem_of_mem_drop hi)

theorem Held.drop (h : Held io m σ) (n : ℕ) : Sound io (σ.drop n) := by
  induction σ generalizing n with
  | nil => exact h.elim
  | cons i k ih =>
    cases n with
    | zero => exact .inr ⟨m, h⟩
    | succ n =>
      cases i with
      | run c => exact ih h.2 n
      | expiry => exact ih h n
      | release m' => exact .inl (h.2.drop n)

theorem advance_free {mv : Move T M} (h : Free io σ) (hc : ∀ c, mv = .method c → c.Disciplined io)
    (ha : advance σ mv = some τ) : Sound io τ := by
  unfold advance at ha
  split at ha
  case h_11 =>
    cases ha
    obtain ⟨hg, hk⟩ := free_cons.1 h
    exact .inr ⟨_, hg, rfl, hk⟩
  case h_16 n =>
    split_ifs at ha
    cases ha
    exact .inl (h.drop n)
  case h_17 => cases ha
  all_goals
    cases ha
    refine .inl ?_
    simp_all [Item.Free, Code.Disciplined]

theorem advance_held {mv : Move T M} (h : Held io m σ) (ha : advance σ mv = some τ) :
    Sound io τ := by
  unfold advance at ha
  split at ha
  case h_16 n =>
    split_ifs at ha
    cases ha
    exact h.drop n
  case h_17 => cases ha
  all_goals cases ha
  case h_2 | h_3 => exact .inr ⟨m, h.2⟩
  case h_7 => exact .inr ⟨m, h.1.1, h.1.2, h.2⟩
  case h_12 => exact .inr ⟨m, h.1, h.2⟩
  case h_14 => exact .inl h.2
  case h_15 => exact .inr ⟨m, h⟩
  case h_1 => exact h.elim
  all_goals exact h.1.elim

theorem advance_sound {mv : Move T M} (h : Sound io σ)
    (hc : ∀ c, mv = .method c → c.Disciplined io) (ha : advance σ mv = some τ) : Sound io τ := by
  rcases h with h | ⟨m, h⟩
  · exact advance_free h hc ha
  · exact advance_held h ha

/-- Only plain code and the drop of the guard are on top of a holder's stack. -/
theorem Sound.free {c : Code M} (h : Sound io (.run c :: k)) (hc : ∀ b, ¬c.Plain b) :
    Free io (.run c :: k) := by
  rcases h with h | ⟨m, h⟩
  · exact h
  · exact (hc _ h.1).elim

/-- Below a callback there is no guard. -/
theorem Sound.below_callback (h : Sound io (τ ++ .run .callback :: k)) : Free io k := by
  rcases h with h | ⟨m, h⟩
  · exact fun i hi => h i (by simp [hi])
  · induction τ with
    | nil => exact h.1.elim
    | cons i τ ih =>
      cases i with
      | run c => exact ih h.2
      | expiry => exact ih h
      | release m' => exact fun i hi => h.2 i (by simp [hi])

end Discipline

/-! ## The invariant -/

section Invariant

variable {T M : Type}

/-- A mutex is owned by the task that has its guard to drop. -/
def System.Owned (s : System T M) : Prop := ∀ m t, s.owner m = some t ↔ m ∈ released (s.stack t)

structure Inv (io : M → Prop) (s : System T M) : Prop where
  sound : ∀ t, Sound io (s.stack t)
  owned : s.Owned

variable [DecidableEq T] {io : M → Prop} {s s' : System T M}

theorem System.Owned.update {t : T} {σ : List (Item M)} (h : s.Owned)
    (hs : s'.stack = Function.update s.stack t σ)
    (ht : ∀ m, s'.owner m = some t ↔ m ∈ released σ)
    (hu : ∀ m u, u ≠ t → (s'.owner m = some u ↔ s.owner m = some u)) : s'.Owned := by
  intro m u
  rw [hs]
  rcases eq_or_ne u t with rfl | hne
  · rw [Function.update_self]
    exact ht m
  · rw [Function.update_of_ne hne, hu m u hne]
    exact h m u

variable [DecidableEq M]

theorem Inv.step_owned {t : T} {mv : Move T M} {σ : List (Item M)} (hI : Inv io s)
    (h : Stepped s t σ mv s') : s'.Owned := by
  cases h with
  | @take m c k hk hm hσ =>
    have hfree : Free io (.run (.guarded m c) :: k) := (hk ▸ hI.sound t).free fun _ => id
    have hrel : released σ = [m] := by
      rw [hσ, released_run, released_release, released_of_free (free_cons.1 hfree).2]
    refine hI.owned.update rfl (fun m' => ?_) fun m' u hu => ?_
    · rcases eq_or_ne m' m with rfl | hne
      · simp [hrel]
      · have hno : s.owner m' ≠ some t := fun ho => by
          have := (hI.owned m' t).1 ho
          rw [hk, released_of_free hfree] at this
          exact List.not_mem_nil this
        simp [hrel, hne, hno]
    · rcases eq_or_ne m' m with rfl | hne
      · simp [hm, hu.symm]
      · simp [hne]
  | @release m hk =>
    have hheld : s.owner m = some t := (hI.owned m t).2 (by simp [hk])
    have hfree : Free io σ := by
      rcases hk ▸ hI.sound t with h | ⟨m', h⟩
      · exact (free_cons.1 h).2
      · exact h.2
    refine hI.owned.update rfl (fun m' => ?_) fun m' u hu => ?_
    · rcases eq_or_ne m' m with rfl | hne
      · simp [released_of_free hfree]
      · have hiff := hI.owned m' t
        rw [hk, released_release, List.mem_cons, or_iff_right hne] at hiff
        simpa [hne] using hiff
    · rcases eq_or_ne m' m with rfl | hne
      · simp [hheld, hu.symm]
      · simp [hne]
  | @spawn c u hk hu he =>
    have h₁ : (s.set t σ).Owned := by
      refine hI.owned.update rfl (fun m => ?_) fun _ _ _ => Iff.rfl
      have := hI.owned m t
      rwa [hk, released_run] at this
    refine h₁.update rfl (fun m => ?_) fun _ _ _ => Iff.rfl
    have := hI.owned m u
    rwa [he] at this
  | @drop n hσ =>
    have happ : released (s.stack t) = released ((s.stack t).take n) ++ released σ := by
      rw [hσ, ← released_append, List.take_append_drop]
    have hdis : ∀ m ∈ released ((s.stack t).take n), m ∉ released σ := fun m h₁ h₂ =>
      (List.nodup_append.1 (happ ▸ (hI.sound t).nodup)).2.2 m h₁ m h₂ rfl
    refine hI.owned.update rfl (fun m => ?_) fun m u hu => ?_
    · have hiff := hI.owned m t
      rw [happ, List.mem_append] at hiff
      by_cases hm : m ∈ released ((s.stack t).take n)
      · simp [hm, hdis m hm]
      · simpa [hm] using hiff
    · by_cases hm : m ∈ released ((s.stack t).take n)
      · have hheld : s.owner m = some t := (hI.owned m t).2 (by simp [happ, hm])
        simp [hm, hheld, hu.symm]
      · simp [hm]
  | own hr =>
    refine hI.owned.update rfl (fun m => ?_) fun _ _ _ => Iff.rfl
    rw [hr]
    exact hI.owned m t

theorem Inv.step {a : T × Move T M} (hI : Inv io s)
    (hc : Uses (Code.Disciplined io) s a) (h : s.step a = some s') : Inv io s' := by
  obtain ⟨t, mv⟩ := a
  obtain ⟨σ, hσ, hst⟩ := step_cases h
  have hsound : Sound io σ := advance_sound (hI.sound t) hc hσ
  have hset : ∀ u, Sound io (Function.update s.stack t σ u) := fun u => by
    rcases eq_or_ne u t with rfl | hne
    · rwa [Function.update_self]
    · rw [Function.update_of_ne hne]
      exact hI.sound u
  refine ⟨fun u => ?_, hI.step_owned hst⟩
  cases hst with
  | @spawn c v hk hv he =>
    rcases eq_or_ne u v with rfl | hne
    · have hfree : Free io (.run (.spawn c) :: σ) := (hk ▸ hI.sound t).free fun _ => id
      simp only [System.set, Function.update_self]
      exact .inl (by simpa [Item.Free, Code.Disciplined] using (free_cons.1 hfree).1)
    · simp only [System.set, Function.update_of_ne hne]
      exact hset u
  | _ => exact hset u

/-- Where the code the tasks start with is disciplined, and the methods the application calls. -/
theorem inv_of_reach {init : System T M} {api : Code M → Prop} (hs : ∀ t, Free io (init.stack t))
    (ho : ∀ m, init.owner m = none) (hapi : ∀ c, api c → c.Disciplined io)
    (h : Machine.Reach (machine init) (Uses api) s) : Inv io s := by
  refine h.invariant (I := Inv io) ⟨fun t => .inl (hs t), fun m t => ?_⟩ ?_
  · simp [machine, ho, released_of_free (hs t)]
  · exact fun s a s' _ hp hst hI => hI.step (fun c hc => hapi c (hp c hc)) hst

end Invariant

/-! ## Waiting -/

section Waiting

variable {T M : Type}

/-- Task `t` waits for `m`, or is about to take it. -/
def System.Waits (s : System T M) (t : T) (m : M) : Prop :=
  ∃ c k, s.stack t = .run (.guarded m c) :: k

/-- Task `t` waits for a mutex that `u` holds. -/
def System.WaitsFor (s : System T M) (t u : T) : Prop := ∃ m, s.Waits t m ∧ s.owner m = some u

/-- Task `t` is at an `await`. -/
def System.Suspended (s : System T M) (t : T) : Prop :=
  ∃ i k, s.stack t = i :: k ∧ i.suspended

/-- Task `t` is at an `await` other than of a mutex or of the transport. -/
def System.Parked (s : System T M) (t : T) : Prop :=
  ∃ k, s.stack t = .run .wait :: k ∨ s.stack t = .run .callback :: k

variable {io : M → Prop} {s : System T M} {t u : T} {m m' : M}

theorem Inv.not_owner {σ : List (Item M)} (hI : Inv io s) (hs : s.stack t = σ) (h : Free io σ) :
    s.owner m ≠ some t := by
  intro ho
  have hm := (hI.owned m t).1 ho
  rw [hs, released_of_free h] at hm
  exact List.not_mem_nil hm

theorem Inv.waits (hI : Inv io s) (h : s.Waits t m) : s.owner m' ≠ some t := by
  obtain ⟨c, k, hk⟩ := h
  exact hI.not_owner hk ((hk ▸ hI.sound t).free fun _ => id)

/-- What a task holds at an `await` is a mutex that allows it, and it awaits the transport. -/
theorem Inv.suspended (hI : Inv io s) (h : s.Suspended t) (ho : s.owner m = some t) :
    io m ∧ ∃ k, s.stack t = .run .transport :: k := by
  obtain ⟨i, k, hk, hi⟩ := h
  have hm := (hI.owned m t).1 ho
  rcases hI.sound t with hf | ⟨m₀, hh⟩
  · exact (hI.not_owner rfl hf ho).elim
  · rw [released_of_held hh, List.mem_singleton] at hm
    subst hm
    rw [hk] at hh
    rcases i with c | m' | _
    · rcases c with _ | _ | _ | _ | _ | _ | _ | _ | _ | _
      case run.transport => exact ⟨hh.1, k, hk⟩
      case run.wait | run.callback | run.guarded => exact hh.1.elim
      all_goals cases hi
    · cases hi
    · cases hi

theorem Inv.parked (hI : Inv io s) (h : s.Parked t) : s.owner m ≠ some t := by
  obtain ⟨k, hk | hk⟩ := h
  · exact hI.not_owner hk ((hk ▸ hI.sound t).free fun _ => id)
  · exact hI.not_owner hk ((hk ▸ hI.sound t).free fun _ => id)

/-- No wait is for a task that waits itself. -/
theorem Inv.waitsFor (hI : Inv io s) (h : s.WaitsFor t u) (m : M) : ¬s.Waits u m := by
  obtain ⟨m', -, ho⟩ := h
  exact fun hw => hI.waits hw ho

theorem Inv.acyclic (hI : Inv io s) (t : T) : ¬Relation.TransGen s.WaitsFor t t := by
  intro h
  obtain ⟨u, hut⟩ : ∃ u, s.WaitsFor u t := by
    cases h with
    | single h => exact ⟨_, h⟩
    | tail _ h => exact ⟨_, h⟩
  obtain ⟨v, htv⟩ := Relation.TransGen.head'_iff.1 h
  exact hI.waitsFor hut _ htv.1.choose_spec.1

end Waiting

end Async
