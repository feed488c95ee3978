import Mathlib.Data.Bool.Basic
import Mathlib.Logic.Function.Basic
import OcppClient.Lib.Transition

/-!
# Two machines over a pair of wires

What one of two machines puts out is on its way to the other, and is taken in there once and in
order. Either machine runs as it would alone, and what it has taken in is a beginning of what the
other has put out.
-/

open Transition

variable {σ α μ β : Type*}

/-- The machines, and what is on its way to each. -/
structure Duplex (σ μ : Type*) where
  side : Bool → σ
  wire : Bool → List μ

namespace Duplex

/-- The part of a log that one of the machines wrote. -/
def sideLog (x : Bool) (log : List (Bool × β)) : List β :=
  log.filterMap fun n => if n.1 = x then some n.2 else none

theorem sideLog_append (x : Bool) (log log' : List (Bool × β)) :
    sideLog x (log ++ log') = sideLog x log ++ sideLog x log' :=
  List.filterMap_append ..

theorem sideLog_self (x : Bool) (notes : List β) :
    sideLog x (notes.map fun n => (x, n)) = notes := by
  simp only [sideLog, List.filterMap_map, Function.comp_def, if_true]
  exact List.filterMap_some

theorem sideLog_of_ne {x y : Bool} (h : y ≠ x) (notes : List β) :
    sideLog x (notes.map fun n => (y, n)) = [] := by
  simp [sideLog, List.filterMap_map, h]

variable [DecidableEq μ] (M : Bool → Machine σ α) (input : α → List μ) (output : σ → σ → List μ)

/-- What is still on its way once `ms` was taken in. -/
def deliver (wire ms : List μ) : Option (List μ) :=
  if ms <+: wire then some (wire.drop ms.length) else none

def step (d : Duplex σ μ) : Bool × α → Option (Duplex σ μ)
  | (x, a) =>
    (deliver (d.wire x) (input a)).bind fun wire =>
      ((M x).step (d.side x) a).map fun s =>
        { side := Function.update d.side x s
          wire := Function.update (Function.update d.wire x wire) (!x)
            (d.wire (!x) ++ output (d.side x) s) }

def machine : Machine (Duplex σ μ) (Bool × α) where
  init := ⟨fun x => (M x).init, fun _ => []⟩
  step := step M input output

/-- The notes of the machine that takes the step, under its name. -/
def log (obs : Bool → σ → α → List β) (d : Duplex σ μ) : Bool × α → List (Bool × β)
  | (x, a) => (obs x (d.side x) a).map fun n => (x, n)

variable {M input output} {d d' : Duplex σ μ} {x : Bool} {a : α}

theorem deliver_eq {wire wire' ms : List μ} (h : deliver wire ms = some wire') :
    wire = ms ++ wire' := by
  unfold deliver at h
  split_ifs at h with hp
  cases h
  exact (List.prefix_iff_eq_append.1 hp).symm

theorem step_eq (h : step M input output d (x, a) = some d') :
    ∃ wire s, d.wire x = input a ++ wire ∧ (M x).step (d.side x) a = some s
      ∧ d' = ⟨Function.update d.side x s, Function.update (Function.update d.wire x wire) (!x)
        (d.wire (!x) ++ output (d.side x) s)⟩ := by
  obtain ⟨wire, hw, h⟩ := Option.bind_eq_some_iff.1 h
  obtain ⟨s, hs, rfl⟩ := Option.map_eq_some_iff.1 h
  exact ⟨wire, s, deliver_eq hw, hs, rfl⟩

/-- What one machine has taken in, and what is on its way to it, is what the other put out. -/
theorem fifo (took put : σ → List μ) (h₀ : ∀ x, took (M x).init = [] ∧ put (M x).init = [])
    (htook : ∀ x s a s', (M x).step s a = some s' → took s' = took s ++ input a)
    (hput : ∀ x s a s', (M x).step s a = some s' → put s' = put s ++ output s s')
    {P : Duplex σ μ → Bool × α → Prop} (h : Machine.Reach (machine M input output) P d)
    (x : Bool) : took (d.side x) ++ d.wire x = put (d.side !x) := by
  refine h.invariant (I := fun d => ∀ x, took (d.side x) ++ d.wire x = put (d.side !x))
    (fun x => ?_) (fun d ya d' _ _ hs hI x => ?_) x
  · simp only [machine, (h₀ _).1, (h₀ _).2, List.append_nil]
  · obtain ⟨y, a⟩ := ya
    obtain ⟨wire, s, hw, ht, rfl⟩ := step_eq hs
    simp only []
    rcases Bool.eq_or_eq_not x y with rfl | rfl
    · -- the machine that takes the step
      have hne : x ≠ !x := by simp
      rw [Function.update_self, Function.update_of_ne hne, Function.update_self,
        Function.update_of_ne hne.symm, htook x _ _ _ ht, ← hI x, hw, List.append_assoc]
    · -- the other one
      have hne : (!y) ≠ y := by simp
      rw [Function.update_self, Function.update_of_ne hne, Bool.not_not, Function.update_self,
        hput y _ _ _ ht, ← List.append_assoc, hI (!y), Bool.not_not]

/-- Either machine runs as it would alone, with its own part of the log. -/
theorem side_of_reach {obs : Bool → σ → α → List β}
    {P : Duplex σ μ × List (Bool × β) → Bool × α → Prop} {d : Duplex σ μ × List (Bool × β)}
    (h : Machine.Reach ((machine M input output).observed (log obs)) P d) (x : Bool) :
    Machine.Reach ((M x).observed (obs x)) Machine.Any (d.1.side x, sideLog x d.2) := by
  refine h.simulation (N := (M x).observed (obs x)) (fun d => (d.1.side x, sideLog x d.2)) rfl
    fun d ya d' _ _ _ hs => ?_
  obtain ⟨y, a⟩ := ya
  obtain ⟨hs, hl⟩ := Machine.observed_step hs
  obtain ⟨wire, s, -, ht, hp⟩ := step_eq hs
  rw [hp, hl, sideLog_append, log]
  by_cases hy : y = x
  · subst hy
    refine .inr ⟨a, trivial, ?_⟩
    simp only [Machine.observed, ht, Option.map_some, Function.update_self, sideLog_self]
  · refine .inl ?_
    rw [sideLog_of_ne hy, List.append_nil]
    simp only [Function.update_of_ne (Ne.symm hy)]

/-! ## Wires that carry more -/

section Carry

variable {ν γ : Type*} [DecidableEq ν] {N : Bool → Machine σ γ} {input' : γ → List ν}
  {output' : σ → σ → List ν} (φ : μ → Option ν)

end Carry

end Duplex
