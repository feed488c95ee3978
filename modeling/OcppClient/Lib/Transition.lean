import Mathlib.Data.Option.Basic
import Mathlib.Tactic.Common

/-!
# Transition systems and their guarded runs

A machine is a start state and a partial step function. `Reach P` collects the states of the runs
whose steps all meet `P`, a condition on the state before a step and the step's label; with
`P` always true these are all the reachable states. A property of them is proved by one induction,
`Reach.invariant`, and a concrete run is evaluated by `run` and brought in by `reach_of_run`.
-/

namespace Transition

/-- A start state and what each label does where it is enabled. -/
structure Machine (σ α : Type*) where
  init : σ
  step : σ → α → Option σ

namespace Machine

variable {σ α : Type*} (M : Machine σ α)

/-- The states of the runs whose steps all meet `P`. -/
inductive Reach (P : σ → α → Prop) : σ → Prop
  | init : Reach P M.init
  | step {s s' : σ} {a : α} : Reach P s → P s a → M.step s a = some s' → Reach P s'

/-- No condition on the steps. -/
def Any : σ → α → Prop := fun _ _ => True

variable {M}

theorem Reach.invariant {P : σ → α → Prop} {I : σ → Prop} (h₀ : I M.init)
    (hstep : ∀ s a s', Reach M P s → P s a → M.step s a = some s' → I s → I s') {s : σ}
    (h : Reach M P s) : I s := by
  induction h with
  | init => exact h₀
  | step hr hp hs ih => exact hstep _ _ _ hr hp hs ih

theorem Reach.mono {P Q : σ → α → Prop} (hPQ : ∀ s a, P s a → Q s a) {s : σ}
    (h : Reach M P s) : Reach M Q s := by
  induction h with
  | init => exact .init
  | step _ hp hs ih => exact .step ih (hPQ _ _ hp) hs

/-- A map that takes every step to a step of `N`, or to none, takes the runs to runs of `N`. -/
theorem Reach.simulation {τ β : Type*} {N : Machine τ β} {P : σ → α → Prop} {Q : τ → β → Prop}
    (f : σ → τ) (h₀ : f M.init = N.init)
    (hstep : ∀ s a s', Reach M P s → Reach N Q (f s) → P s a → M.step s a = some s' →
      f s' = f s ∨ ∃ b, Q (f s) b ∧ N.step (f s) b = some (f s'))
    {s : σ} (h : Reach M P s) : Reach N Q (f s) := by
  induction h with
  | init => exact h₀ ▸ .init
  | step hr hp hs ih =>
    rcases hstep _ _ _ hr ih hp hs with he | ⟨b, hb, hN⟩
    · exact he ▸ ih
    · exact .step ih hb hN

/-- Where every step of `M` is matched by steps of `N` that restore `r`, the runs of `M` are
matched by runs of `N`. -/
theorem Reach.forward {τ β : Type*} {N : Machine τ β} {P : σ → α → Prop} {Q : τ → β → Prop}
    {r : σ → τ → Prop} (h₀ : r M.init N.init)
    (hstep : ∀ s a s' t, Reach M P s → P s a → M.step s a = some s' → Reach N Q t → r s t →
      ∃ t', Reach N Q t' ∧ r s' t')
    {s : σ} (h : Reach M P s) : ∃ t, Reach N Q t ∧ r s t := by
  induction h with
  | init => exact ⟨_, .init, h₀⟩
  | step hr hp hs ih =>
    obtain ⟨t, ht, hrel⟩ := ih
    exact hstep _ _ _ _ hr hp hs ht hrel

variable (M)

/-- The state after the labels `as`, where each of them is enabled in turn. -/
def run : σ → List α → Option σ
  | s, [] => some s
  | s, a :: as => (M.step s a).bind fun s' => run s' as

/-- The labels `as`, in order, each meet `P` where they are taken. -/
def Meets (P : σ → α → Prop) : σ → List α → Prop
  | _, [] => True
  | s, a :: as => P s a ∧ (M.step s a).elim True fun s' => Meets P s' as

variable {M}

theorem reach_of_run {P : σ → α → Prop} :
    ∀ (as : List α) {s t : σ}, Reach M P s → M.Meets P s as → M.run s as = some t → Reach M P t
  | [], s, t, hs, _, h => by
    simp only [run, Option.some.injEq] at h
    exact h ▸ hs
  | a :: as, s, t, hs, ⟨hp, hm⟩, h => by
    simp only [run, Option.bind_eq_some_iff] at h
    obtain ⟨s', hs', h'⟩ := h
    rw [hs'] at hm
    exact reach_of_run as (.step hs hp hs') hm h'

theorem run_cons {a : α} {s s' : σ} (h : M.step s a = some s') (as : List α) :
    M.run s (a :: as) = M.run s' as := by
  rw [run, h, Option.bind_some]

theorem run_append {as bs : List α} {s t u : σ} (h₁ : M.run s as = some t)
    (h₂ : M.run t bs = some u) : M.run s (as ++ bs) = some u := by
  induction as generalizing s with
  | nil =>
    simp only [run, Option.some.injEq] at h₁
    exact h₁ ▸ h₂
  | cons a as ih =>
    simp only [run, Option.bind_eq_some_iff] at h₁
    obtain ⟨s', hs', h'⟩ := h₁
    rw [List.cons_append, run_cons hs']
    exact ih h'

/-- What every step keeps, and a step from any state, is kept by a run from any state. -/
theorem run_invariant {I : σ → Prop} (hstep : ∀ s a s', M.step s a = some s' → I s → I s') :
    ∀ (as : List α) {s t : σ}, I s → M.run s as = some t → I t
  | [], s, t, hs, h => by
    simp only [run, Option.some.injEq] at h
    exact h ▸ hs
  | a :: as, s, t, hs, h => by
    simp only [run, Option.bind_eq_some_iff] at h
    obtain ⟨s', hs', h'⟩ := h
    exact run_invariant hstep as (hstep _ _ _ hs' hs) h'

/-- Where every step of `M` is matched by a run of `N` that restores `r` and shows the same, the
runs of `M` are matched by runs of `N` that show the same. The labels taken in `N` all have `P`. -/
theorem run_simulation {τ β γ : Type*} {N : Machine τ β} {r : σ → τ → Prop} {v : α → Option γ}
    {w : β → Option γ} {P : β → Prop}
    (hstep : ∀ s a s' t, M.step s a = some s' → r s t → ∃ bs t', N.run t bs = some t'
      ∧ (∀ b ∈ bs, P b) ∧ bs.filterMap w = (v a).toList ∧ r s' t') :
    ∀ (as : List α) {s s' : σ} {t : τ}, M.run s as = some s' → r s t → ∃ bs t', N.run t bs = some t'
      ∧ (∀ b ∈ bs, P b) ∧ bs.filterMap w = as.filterMap v ∧ r s' t'
  | [], s, s', t, h, hr => by
    simp only [run, Option.some.injEq] at h
    exact ⟨[], t, rfl, nofun, rfl, h ▸ hr⟩
  | a :: as, s, s', t, h, hr => by
    simp only [run, Option.bind_eq_some_iff] at h
    obtain ⟨u, hu, h⟩ := h
    obtain ⟨bs, t₁, hbs, hP, hw, hr₁⟩ := hstep _ _ _ _ hu hr
    obtain ⟨bs', t₂, hbs', hP', hw', hr₂⟩ := run_simulation hstep as h hr₁
    refine ⟨bs ++ bs', t₂, run_append hbs hbs', fun b hb => ?_, ?_, hr₂⟩
    · exact (List.mem_append.1 hb).elim (hP b) (hP' b)
    · rw [List.filterMap_append, hw, hw', List.filterMap_cons]
      cases v a <;> rfl

/-- A condition on labels alone. -/
theorem meets_of_forall {P : α → Prop} :
    ∀ (as : List α) (s : σ), (∀ a ∈ as, P a) → M.Meets (fun _ a => P a) s as
  | [], _, _ => trivial
  | a :: as, s, h => by
    refine ⟨h a (List.mem_cons_self ..), ?_⟩
    rcases M.step s a with _ | s'
    · trivial
    · exact meets_of_forall as s' fun b hb => h b (List.mem_cons_of_mem _ hb)

theorem meets_any (as : List α) (s : σ) : M.Meets Any s as :=
  meets_of_forall as s fun _ _ => trivial

/-- A state that a list of labels leads to is reachable. -/
theorem reach_any_of_run (as : List α) {t : σ} (h : M.run M.init as = some t) :
    Reach M Any t :=
  reach_of_run as .init (meets_any as _) h

/-! ## Logs -/

variable (M) {β : Type*} (obs : σ → α → List β)

/-- `M` with a log, to which each step adds what `obs` sees of it. -/
def observed : Machine (σ × List β) α where
  init := (M.init, [])
  step s a := (M.step s.1 a).map fun s' => (s', s.2 ++ obs s.1 a)

variable {M obs}

theorem observed_step {s s' : σ × List β} {a : α} (h : (M.observed obs).step s a = some s') :
    M.step s.1 a = some s'.1 ∧ s'.2 = s.2 ++ obs s.1 a := by
  obtain ⟨t, ht, rfl⟩ := Option.map_eq_some_iff.1 h
  exact ⟨ht, rfl⟩

/-- The log is no part of what happens. -/
theorem Reach.unobserved {P : σ × List β → α → Prop} {Q : σ → α → Prop}
    (hPQ : ∀ s a, P s a → Q s.1 a) {s : σ × List β} (h : Reach (M.observed obs) P s) :
    Reach M Q s.1 := by
  refine h.simulation Prod.fst rfl fun s a s' _ _ hp hs => ?_
  exact .inr ⟨a, hPQ s a hp, (observed_step hs).1⟩

/-- Every run can be logged. -/
theorem Reach.observe {P : σ → α → Prop} (obs : σ → α → List β) {s : σ} (h : Reach M P s) :
    ∃ log, Reach (M.observed obs) (fun s a => P s.1 a) (s, log) := by
  induction h with
  | init => exact ⟨[], .init⟩
  | @step s s' a _ hp hs ih =>
    obtain ⟨log, hlog⟩ := ih
    refine ⟨log ++ obs s a, .step hlog hp ?_⟩
    simp only [observed, hs, Option.map_some]

/-- A part of the log is the log of what is seen of that part. -/
theorem Reach.observed_filterMap {γ : Type*} (f : β → Option γ) {s : σ × List β}
    (h : Reach (M.observed obs) Any s) :
    Reach (M.observed fun s a => (obs s a).filterMap f) Any (s.1, s.2.filterMap f) := by
  refine h.simulation (N := M.observed fun s a => (obs s a).filterMap f) (Q := Any)
    (fun s => (s.1, s.2.filterMap f)) rfl fun s a s' _ _ _ hs => .inr ⟨a, trivial, ?_⟩
  obtain ⟨hs, hl⟩ := observed_step hs
  simp only [observed, hs, Option.map_some, hl, List.filterMap_append]

/-- Where what the log gets of a step leads `N` from one image to the next, the whole log leads it
to the image of the state. -/
theorem Reach.run_log {τ : Type*} {N : Machine τ β} {P : σ × List β → α → Prop} (f : σ → τ)
    (h₀ : f M.init = N.init)
    (hstep : ∀ s a s', Reach (M.observed obs) P s → M.step s.1 a = some s' →
      N.run (f s.1) (obs s.1 a) = some (f s'))
    {s : σ × List β} (h : Reach (M.observed obs) P s) : N.run N.init s.2 = some (f s.1) := by
  induction h with
  | init => exact congrArg some h₀.symm
  | @step s s' a hr _ hs ih =>
    obtain ⟨hst, hlog⟩ := observed_step hs
    rw [hlog]
    exact run_append ih (hstep s a s'.1 hr hst)

end Machine

end Transition
