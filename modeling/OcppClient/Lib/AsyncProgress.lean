import OcppClient.Lib.Async

/-!
# Progress of disciplined tasks

A mutex is freed by moves of its holder alone, as long as the operations of the transport end
(`Inv.frees`). Code that awaits nothing but mutexes and the transport is `Prompt`: a task gets
through it whichever tasks are parked elsewhere (`Asleep.getsTo`).
-/

namespace Async

variable {T M : Type}

/-- On with the code: the end of what is awaited, or a branch. -/
def Move.Forward : Move T M → Prop
  | .go => True
  | .choose _ => True
  | _ => False

theorem forward_go : (.go : Move T M).Forward := trivial

theorem forward_choose (n : ℕ) : (.choose n : Move T M).Forward := trivial

variable [DecidableEq T] [DecidableEq M]

/-- Moves of the tasks in `A`, one after another, end in a state with `Q`, whichever way the
branches go. -/
inductive Attains (A : T → Prop) (Q : System T M → Prop) : System T M → Prop
  | now {s : System T M} (h : Q s) : Attains A Q s
  | step {s : System T M} {u : T} (hu : A u)
    (hen : ∃ mv s', mv.Forward ∧ s.step (u, mv) = some s')
    (hall : ∀ mv s', mv.Forward → s.step (u, mv) = some s' → Attains A Q s') : Attains A Q s

variable {A B : T → Prop} {Q Q' : System T M → Prop} {s s₁ : System T M} {t u : T}

theorem Attains.bind (h : Attains A Q s) (hQ : ∀ s', Q s' → Attains A Q' s') :
    Attains A Q' s := by
  induction h with
  | now h => exact hQ _ h
  | step hu hen _ ih => exact .step hu hen ih

theorem Attains.mono (h : Attains A Q s) (hA : ∀ u, A u → B u) : Attains B Q s := by
  induction h with
  | now h => exact .now h
  | step hu hen _ ih => exact .step (hA _ hu) hen ih

theorem Attains.go (hu : A u) (hg : s.step (u, .go) = some s₁)
    (hn : ∀ n, s.step (u, .choose n) = none) (h : Attains A Q s₁) : Attains A Q s := by
  refine .step hu ⟨.go, s₁, forward_go, hg⟩ fun mv s' hf hs => ?_
  cases mv with
  | go => exact Option.some.inj (hg.symm.trans hs) ▸ h
  | choose n => simp [hn] at hs
  | _ => exact hf.elim

theorem Attains.choose {f : ℕ → System T M} (hu : A u)
    (hc : ∀ n, s.step (u, .choose n) = some (f n)) (hg : s.step (u, .go) = none)
    (h : ∀ n, Attains A Q (f n)) : Attains A Q s := by
  refine .step hu ⟨.choose 0, _, forward_choose 0, hc 0⟩ fun mv s' hf hs => ?_
  cases mv with
  | go => simp [hg] at hs
  | choose n => exact Option.some.inj ((hc n).symm.trans hs) ▸ h n
  | _ => exact hf.elim

/-- How many moves plain code takes. -/
def Code.effort : Code M → ℕ
  | .seq a b => a.effort + b.effort + 1
  | .timed c => c.effort + 2
  | _ => 1

/-- How many moves a holder takes to the drop of its guard. -/
def effort : List (Item M) → ℕ
  | [] => 0
  | .run c :: k => c.effort + effort k
  | .expiry :: k => effort k + 1
  | .release _ :: _ => 1

variable {io : M → Prop} {m : M}

/-- A holder gets to the drop of its guard by its own moves. -/
theorem Inv.frees (hI : Inv io s) (ho : s.owner m = some u) :
    Attains (· = u) (fun s' => Inv io s' ∧ s'.owner m = none ∧ ∀ v ≠ u, s'.stack v = s.stack v)
      s := by
  induction hn : effort (s.stack u) using Nat.strongRecOn generalizing s with
  | ind n ih =>
    have hheld : Held io m (s.stack u) := by
      rcases hI.sound u with hf | ⟨m', hh⟩
      · exact (hI.not_owner rfl hf ho).elim
      · have hm := (hI.owned m u).1 ho
        rw [released_of_held hh, List.mem_singleton] at hm
        exact hm ▸ hh
    -- a move that leaves the mutex where it is and the task closer to the drop of its guard
    have hown : ∀ σ, s.step (u, .go) = some (s.set u σ) →
        (∀ n, s.step (u, .choose n) = none) → effort σ < n →
        Attains (· = u) (fun s' => Inv io s' ∧ s'.owner m = none ∧ ∀ v ≠ u, s'.stack v = s.stack v)
          s := by
      intro σ hgo hch hlt
      have hI' : Inv io (s.set u σ) := hI.step (fun c hc => by cases hc) hgo
      have hσ : (s.set u σ).stack u = σ := Function.update_self ..
      refine .go rfl hgo hch ((ih _ hlt hI' ho (congrArg effort hσ)).bind ?_)
      rintro s' ⟨hI'', hm, hv⟩
      refine .now ⟨hI'', hm, fun v hne => (hv v hne).trans (Function.update_of_ne hne ..)⟩
    rcases hk : s.stack u with _ | ⟨i, k⟩
    · rw [hk] at hheld
      exact hheld.elim
    rw [hk] at hheld hn
    rcases i with c | m' | _
    · rcases c with _ | _ | _ | _ | ⟨a, b⟩ | _ | _ | _ | c | _
      case run.skip | run.transport =>
        refine hown k (by simp [System.step, hk, advance]) (by simp [System.step, hk, advance]) ?_
        simp only [effort, Code.effort] at hn
        omega
      case run.seq =>
        refine hown (.run a :: .run b :: k) (by simp [System.step, hk, advance])
          (by simp [System.step, hk, advance]) ?_
        simp only [effort, Code.effort] at hn ⊢
        omega
      case run.timed =>
        refine hown (.run c :: .expiry :: k) (by simp [System.step, hk, advance])
          (by simp [System.step, hk, advance]) ?_
        simp only [effort, Code.effort] at hn ⊢
        omega
      all_goals exact hheld.1.elim
    · obtain ⟨rfl, hf⟩ := hheld
      have hgo := step_release hk
      refine .go rfl hgo (by simp [System.step, hk, advance]) (.now ⟨?_, ?_, fun v hne => ?_⟩)
      · exact hI.step (fun c hc => by cases hc) hgo
      · exact Function.update_self ..
      · exact Function.update_of_ne hne ..
    · refine hown k (by simp [System.step, hk, advance]) (by simp [System.step, hk, advance]) ?_
      simp only [effort] at hn
      omega

/-- The tasks in `H` are parked. -/
structure Asleep (io : M → Prop) (H : T → Prop) (s : System T M) : Prop where
  inv : Inv io s
  parked : ∀ h, H h → s.Parked h

variable {H : T → Prop}

theorem Asleep.step {σ : List (Item M)} {mv : Move T M} (h : Asleep io H s) (ht : ¬H t)
    (hf : mv.Forward) (hs : s.step (t, mv) = some s₁)
    (hσ : s₁.stack = Function.update s.stack t σ) : Asleep io H s₁ := by
  refine ⟨h.inv.step (fun c hc => by subst hc; exact hf.elim) hs, fun u hu => ?_⟩
  have hne : u ≠ t := fun he => ht (he ▸ hu)
  obtain ⟨k, hk⟩ := h.parked u hu
  exact ⟨k, by rwa [hσ, Function.update_of_ne hne]⟩

/-- A mutex comes free without the tasks in `H`. -/
theorem Asleep.frees (h : Asleep io H s) (hm : s.owner m ≠ some t) :
    Attains (¬H ·) (fun s' => Asleep io H s' ∧ s'.owner m = none ∧ s'.stack t = s.stack t) s := by
  rcases ho : s.owner m with _ | u
  · exact .now ⟨h, ho, rfl⟩
  · have hu : ¬H u := fun hu => h.inv.parked (h.parked u hu) ho
    have htu : t ≠ u := fun he => hm (he ▸ ho)
    refine ((h.inv.frees ho).mono fun v hv => hv ▸ hu).bind ?_
    rintro s' ⟨hI, hn, hst⟩
    refine .now ⟨⟨hI, fun v hv => ?_⟩, hn, hst t htu⟩
    obtain ⟨k, hk⟩ := h.parked v hv
    exact ⟨k, by rwa [hst v fun he => hu (he ▸ hv)]⟩

/-- Task `t` gets to the stack `k` without the tasks in `H`. -/
def GetsTo (io : M → Prop) (H : T → Prop) (t : T) (k : List (Item M)) : System T M → Prop :=
  Attains (¬H ·) fun s' => Asleep io H s' ∧ s'.stack t = k

theorem GetsTo.own {σ k : List (Item M)} (h : Asleep io H s) (ht : ¬H t)
    (hgo : s.step (t, .go) = some s₁) (hch : ∀ n, s.step (t, .choose n) = none)
    (hσ : s₁.stack = Function.update s.stack t σ)
    (hnext : Asleep io H s₁ → s₁.stack t = σ → GetsTo io H t k s₁) : GetsTo io H t k s := by
  refine .go ht hgo hch (hnext (h.step ht forward_go hgo hσ) ?_)
  rw [hσ, Function.update_self]

theorem getsTo_of_release {σ k : List (Item M)} (ht : ¬H t) (h : Asleep io H s)
    (hk : s.stack t = .release m :: σ)
    (hnext : ∀ {s' : System T M}, Asleep io H s' → s'.stack t = σ → GetsTo io H t k s') :
    GetsTo io H t k s := by
  exact .own h ht (step_release hk) (by simp [System.step, hk, advance]) rfl
    fun h' hk' => hnext h' hk'

theorem getsTo_of_expiry {σ k : List (Item M)} (ht : ¬H t) (h : Asleep io H s)
    (hk : s.stack t = .expiry :: σ)
    (hnext : ∀ {s' : System T M}, Asleep io H s' → s'.stack t = σ → GetsTo io H t k s') :
    GetsTo io H t k s := by
  have hgo : s.step (t, .go) = some (s.set t σ) := by simp [System.step, hk, advance]
  exact .own h ht hgo (by simp [System.step, hk, advance]) rfl fun h' hk' => hnext h' hk'

theorem getsTo_of_prompt {c : Code M} (hc : c.Prompt) (ht : ¬H t) :
    ∀ {k : List (Item M)} {s : System T M}, Asleep io H s → s.stack t = .run c :: k →
      GetsTo io H t k s := by
  induction c with
  | skip | transport =>
    intro k s h hk
    have hgo : s.step (t, .go) = some (s.set t k) := by simp [System.step, hk, advance]
    exact .own h ht hgo (by simp [System.step, hk, advance]) rfl fun h' hk' => .now ⟨h', hk'⟩
  | seq a b iha ihb =>
    intro k s h hk
    have hgo : s.step (t, .go) = some (s.set t (.run a :: .run b :: k)) := by
      simp [System.step, hk, advance]
    refine .own h ht hgo (by simp [System.step, hk, advance]) rfl fun h' hk' => ?_
    refine (iha hc.1 h' hk').bind ?_
    rintro s' ⟨h'', hk''⟩
    exact ihb hc.2 h'' hk''
  | branch f ih =>
    intro k s h hk
    have hch : ∀ n, s.step (t, .choose n) = some (s.set t (.run (f n) :: k)) := fun n => by
      simp [System.step, hk, advance]
    refine .choose ht hch (by simp [System.step, hk, advance]) fun n => ?_
    exact ih n (hc n) (h.step ht (forward_choose n) (hch n) rfl) (Function.update_self ..)
  | guarded m c ih =>
    intro k s h hk
    have hm₀ : s.owner m ≠ some t := h.inv.waits ⟨c, k, hk⟩
    refine (h.frees hm₀).bind ?_
    rintro s' ⟨h', hm, hk'⟩
    rw [hk] at hk'
    refine GetsTo.own h' ht (step_take hk' hm) (by simp [System.step, hk', advance]) rfl
      fun h₁ hk₁ => ?_
    refine (ih hc h₁ hk₁).bind ?_
    rintro s₂ ⟨h₂, hk₂⟩
    exact getsTo_of_release ht h₂ hk₂ fun h₃ hk₃ => .now ⟨h₃, hk₃⟩
  | timed c ih =>
    intro k s h hk
    have hgo : s.step (t, .go) = some (s.set t (.run c :: .expiry :: k)) := by
      simp [System.step, hk, advance]
    refine .own h ht hgo (by simp [System.step, hk, advance]) rfl fun h' hk' => ?_
    refine (ih hc h' hk').bind ?_
    rintro s₂ ⟨h₂, hk₂⟩
    exact getsTo_of_expiry ht h₂ hk₂ fun h₃ hk₃ => .now ⟨h₃, hk₃⟩
  | wait | callback | loop | spawn => exact hc.elim

def Item.Prompt : Item M → Prop
  | .run c => c.Prompt
  | _ => True

/-- What is left of `c` for a task on its way through it. -/
inductive Rest (c : Code M) : List (Item M) → Prop
  | whole : Rest c [.run c]
  | step {σ τ : List (Item M)} {mv : Move Unit M} (h : Rest c σ) (hf : mv.Forward)
    (ha : advance σ mv = some τ) : Rest c τ

omit [DecidableEq M] in
theorem Rest.prompt {c : Code M} {σ : List (Item M)} (hc : c.Prompt) (h : Rest c σ) :
    ∀ i ∈ σ, i.Prompt := by
  induction h with
  | whole => simpa [Item.Prompt] using hc
  | step _ hf ha ih =>
    unfold advance at ha
    split at ha
    case h_16 | h_1 | h_6 | h_9 | h_13 => exact hf.elim
    case h_17 => cases ha
    all_goals
      cases ha
      simp_all [Item.Prompt, Code.Prompt]

/-- Through what is left of prompt code a task gets without the tasks in `H`. -/
theorem Asleep.getsTo {σ k : List (Item M)} (h : Asleep io H s) (ht : ¬H t)
    (hσ : ∀ i ∈ σ, i.Prompt) (hk : s.stack t = σ ++ k) : GetsTo io H t k s := by
  induction σ generalizing s with
  | nil => exact .now ⟨h, hk⟩
  | cons i σ ih =>
    have hσ' : ∀ i ∈ σ, i.Prompt := fun i hi => hσ i (List.mem_cons_of_mem _ hi)
    rw [List.cons_append] at hk
    cases i with
    | run c =>
      refine (getsTo_of_prompt (hσ _ (List.mem_cons_self ..)) ht h hk).bind ?_
      rintro s' ⟨h', hk'⟩
      exact ih h' hσ' hk'
    | release m => exact getsTo_of_release ht h hk fun h' hk' => ih h' hσ' hk'
    | expiry => exact getsTo_of_expiry ht h hk fun h' hk' => ih h' hσ' hk'

end Async
