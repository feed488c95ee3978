import OcppClient.Lib.Async

/-!
# Runs of one task

A task moves on within its code, over critical sections without an `await`; it takes a mutex and
keeps it, drops its guard, calls a method, spawns a task or is dropped. Each of these leads from a
reachable state to another, which is named by what it does to the stack and the owners.
-/

namespace Async

open Transition

variable {T M : Type}

/-- A move of a task within its own code. It goes through a critical section without an `await` at
once, where the mutex is one of those in `free`. -/
def glide (free : M → Bool) : Move T M → List (Item M) → Option (List (Item M))
  | .go, .run (.guarded m .skip) :: k => if free m then some k else none
  | .go, .run (.guarded _ _) :: _ => none
  | .go, .release _ :: _ => none
  | .go, σ => advance σ (.go : Move T M)
  | .choose n, σ => advance σ (.choose n : Move T M)
  | .again, σ => advance σ (.again : Move T M)
  | _, _ => none

/-- The stack after some of them in a row. -/
def path (free : M → Bool) : List (Move T M) → List (Item M) → Option (List (Item M))
  | [], σ => some σ
  | mv :: mvs, σ => (glide free mv σ).bind (path free mvs)

theorem path_append {free : M → Bool} {as bs : List (Move T M)} {σ τ υ : List (Item M)}
    (h₁ : path free as σ = some τ) (h₂ : path free bs τ = some υ) :
    path free (as ++ bs) σ = some υ := by
  induction as generalizing σ with
  | nil =>
    cases h₁
    exact h₂
  | cons mv as ih =>
    obtain ⟨ρ, hq, h₁⟩ := Option.bind_eq_some_iff.1 h₁
    exact Option.bind_eq_some_iff.2 ⟨ρ, hq, ih h₁⟩

variable [DecidableEq T] [DecidableEq M] {s : System T M} {t u : T} {m : M} {c : Code M}
  {σ τ k : List (Item M)} {free : M → Bool} {init : System T M} {api : Code M → Prop}

variable {mv : Move T M}

/-- A move that is no call of the application. -/
theorem reach_step {s' : System T M} (h : Machine.Reach (machine init) (Uses api) s)
    (hs : s.step (t, mv) = some s') (hmv : ∀ c, mv ≠ .method c) :
    Machine.Reach (machine init) (Uses api) s' :=
  .step h (fun c hc => (hmv c hc).elim) hs

theorem reach_section (h : Machine.Reach (machine init) (Uses api) s)
    (hk : s.stack t = .run (.guarded m .skip) :: k) (hm : s.owner m = none) :
    Machine.Reach (machine init) (Uses api) (s.set t k) := by
  have h₁ := reach_step h (step_take hk hm) nofun
  have h₂ := reach_step h₁ (step_skip System.set_stack) nofun
  have h₃ := reach_step h₂ (step_release System.set_stack) nofun
  convert h₃ using 1
  simp [System.set, System.give, hm]

theorem reach_glide (h : Machine.Reach (machine init) (Uses api) s) (hσ : s.stack t = σ)
    (hfree : ∀ m, free m = true → s.owner m = none) (hq : glide free mv σ = some τ) :
    Machine.Reach (machine init) (Uses api) (s.set t τ) := by
  unfold glide at hq
  split at hq
  case h_1 m k =>
    split_ifs at hq with hm
    cases hq
    exact reach_section h hσ (hfree m hm)
  case h_4 hg hr =>
    have hs : s.step (t, .go) = some (s.set t τ) := by
      rw [System.step, hσ, hq]
      simp only [Option.bind_some]
      split
      case h_1 => exact (hg _ _ _ rfl).elim
      case h_2 => exact (hr _ _ rfl).elim
      case h_3 | h_4 => contradiction
      case h_5 => rfl
    exact reach_step h hs (by simp)
  case h_5 n =>
    have hs : s.step (t, .choose n) = some (s.set t τ) := by rw [System.step, hσ, hq]; rfl
    exact reach_step h hs (by simp)
  case h_6 =>
    have hs : s.step (t, .again) = some (s.set t τ) := by rw [System.step, hσ, hq]; rfl
    exact reach_step h hs (by simp)
  all_goals cases hq

theorem reach_path (h : Machine.Reach (machine init) (Uses api) s) (hσ : s.stack t = σ)
    (hfree : ∀ m, free m = true → s.owner m = none) (mvs : List (Move T M))
    (hp : path free mvs σ = some τ) : Machine.Reach (machine init) (Uses api) (s.set t τ) := by
  induction mvs generalizing s σ with
  | nil =>
    cases hp
    rwa [System.set_self hσ]
  | cons mv mvs ih =>
    obtain ⟨υ, hq, hp⟩ := Option.bind_eq_some_iff.1 hp
    have h' := ih (reach_glide h hσ hfree hq) System.set_stack hfree hp
    rwa [System.set_set] at h'

/-- A task of the application begins, and calls a method. -/
theorem reach_method (h : Machine.Reach (machine init) (Uses api) s) (hk : s.stack t = [])
    (hc : api c) :
    Machine.Reach (machine init) (Uses api) (s.set t [.run c, .run .callback]) := by
  have hstart : s.step (t, .start) = some (s.set t [.run .callback]) := by
    simp [System.step, hk, advance]
  have hcall : (s.set t [.run .callback]).step (t, .method c)
      = some (s.set t [.run c, .run .callback]) := by
    simp [System.step, advance]
  exact .step (reach_step h hstart (by simp)) (fun c' hc' => by cases hc'; exact hc) hcall

theorem reach_spawn (h : Machine.Reach (machine init) (Uses api) s)
    (hk : s.stack t = .run (.spawn c) :: k) (hu : u ≠ t) (he : s.stack u = []) :
    Machine.Reach (machine init) (Uses api) ((s.set t k).set u [.run c]) := by
  have hs : s.step (t, .spawn u) = some ((s.set t k).set u [.run c]) := by
    simp [System.step, hk, advance, hu, he]
  exact reach_step h hs (by simp)

theorem step_drop {i : Item M} {n : ℕ} (hk : s.stack t = i :: k) (hi : i.suspended)
    (hc : caught ((i :: k).drop n)) :
    s.step (t, .drop n) = some
      { s.set t ((i :: k).drop n) with
        owner := fun m => if m ∈ released ((i :: k).take n) then none else s.owner m } := by
  have ha : advance (i :: k) (.drop n : Move T M) = some ((i :: k).drop n) := by
    rcases i with c | _ | _
    · cases c <;> first | exact if_pos ⟨hi, hc⟩ | cases hi
    · cases hi
    · cases hi
  rw [System.step, hk, ha]
  rfl

/-- The application drops the future of a method that holds no mutex. -/
theorem reach_drop {i : Item M} (h : Machine.Reach (machine init) (Uses api) s) (n : ℕ)
    (hk : s.stack t = i :: k) (hi : i.suspended) (hc : caught ((i :: k).drop n))
    (hr : released ((i :: k).take n) = []) :
    Machine.Reach (machine init) (Uses api) (s.set t ((i :: k).drop n)) := by
  have hs := step_drop hk hi hc
  simp only [hr, List.not_mem_nil, if_false] at hs
  exact reach_step h hs nofun

/-- The application drops the future of a method that holds `m`. -/
theorem reach_drop_holding {i : Item M} (h : Machine.Reach (machine init) (Uses api) s) (n : ℕ)
    (hk : s.stack t = i :: k) (hi : i.suspended) (hc : caught ((i :: k).drop n))
    (hr : released ((i :: k).take n) = [m]) :
    Machine.Reach (machine init) (Uses api) ((s.set t ((i :: k).drop n)).give m none) := by
  have hs := step_drop hk hi hc
  have hgive : (fun m' => if m' ∈ released ((i :: k).take n) then none else s.owner m')
      = Function.update s.owner m none := by
    funext m'
    simp [hr, Function.update_apply]
  rw [hgive] at hs
  exact reach_step h hs nofun

end Async
