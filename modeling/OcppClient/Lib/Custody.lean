import Mathlib.Algebra.BigOperators.Group.Finset.Basic
import Mathlib.Algebra.Order.BigOperators.Group.Finset
import OcppClient.Lib.Transition

/-!
# Custody

Jobs come in at a place of rank 0 and are handed on, one at a time and in order, to places of higher
rank. `came r` records the jobs that were handed to a place of rank `r`. No job is made on the way,
so what came to a rank, and what a place holds, is part of what came in, each job as often at most
(`came_subperm`, `held_subperm`).
-/

namespace Custody

open Transition

variable {P J : Type*}

structure Desk (P J : Type*) where
  held : P → List J
  came : ℕ → List J

inductive Label (P J : Type*)
  | create (p : P) (j : J)
  | move (p q : P)

variable (rank : P → ℕ)

/-- How many jobs of a kind the places of `S` below a rank hold. -/
def load (d : Desk P J) (f : J → Bool) (r : ℕ) (S : Finset P) : ℕ :=
  ∑ p ∈ S with rank p < r, (d.held p).countP f

section Load

variable {rank} {d d' : Desk P J} {f : J → Bool} {r : ℕ} {S T : Finset P}

theorem load_mono (h : S ⊆ T) : load rank d f r S ≤ load rank d f r T :=
  Finset.sum_le_sum_of_subset (Finset.filter_subset_filter _ h)

theorem load_le (h : ∀ p, (d'.held p).countP f ≤ (d.held p).countP f) :
    load rank d' f r S ≤ load rank d f r S :=
  Finset.sum_le_sum fun p _ => h p

theorem load_congr (h : ∀ p ∈ S, rank p < r → d'.held p = d.held p) :
    load rank d' f r S = load rank d f r S := by
  refine Finset.sum_congr rfl fun p hp => ?_
  rw [Finset.mem_filter] at hp
  rw [h p hp.1 hp.2]

/-- What one place of `S` holds, and what the others do. -/
theorem load_erase [DecidableEq P] {p : P} (hp : p ∈ S) (hr : rank p < r) :
    load rank d f r S = (d.held p).countP f + load rank d f r (S.erase p) := by
  unfold load
  rw [Finset.filter_erase]
  exact (Finset.add_sum_erase _ (fun p => (d.held p).countP f) (by simp [hp, hr])).symm

end Load

variable [DecidableEq P]

/-- `j` is handed to `p`, which holds it last. -/
def Desk.put (d : Desk P J) (p : P) (j : J) : Desk P J where
  held := Function.update d.held p (d.held p ++ [j])
  came := Function.update d.came (rank p) (d.came (rank p) ++ [j])

/-- `p` gives away what it holds first, and is left with `rest`. -/
def Desk.take (d : Desk P J) (p : P) (rest : List J) : Desk P J :=
  { d with held := Function.update d.held p rest }

def step (d : Desk P J) : Label P J → Option (Desk P J)
  | .create p j => if rank p = 0 then some (d.put rank p j) else none
  | .move p q =>
    match d.held p with
    | j :: rest => if rank p < rank q then some ((d.take p rest).put rank q j) else none
    | [] => none

def machine : Machine (Desk P J) (Label P J) where
  init := ⟨fun _ => [], fun _ => []⟩
  step := step rank

variable {rank} {d d' : Desk P J} {f : J → Bool} {r : ℕ} {S : Finset P}

@[simp] theorem held_put_self {p : P} {j : J} : (d.put rank p j).held p = d.held p ++ [j] :=
  Function.update_self ..

theorem held_put_of_ne {p q : P} {j : J} (h : q ≠ p) : (d.put rank p j).held q = d.held q :=
  Function.update_of_ne h ..

@[simp] theorem came_put_self {p : P} {j : J} :
    (d.put rank p j).came (rank p) = d.came (rank p) ++ [j] :=
  Function.update_self ..

theorem came_put_of_ne {p : P} {j : J} (h : r ≠ rank p) : (d.put rank p j).came r = d.came r :=
  Function.update_of_ne h ..

@[simp] theorem held_take_self {p : P} {rest : List J} : (d.take p rest).held p = rest :=
  Function.update_self ..

theorem held_take_of_ne {p q : P} {rest : List J} (h : q ≠ p) :
    (d.take p rest).held q = d.held q :=
  Function.update_of_ne h ..

@[simp] theorem came_take {p : P} {rest : List J} : (d.take p rest).came = d.came := rfl

theorem load_put {p : P} {j : J} (hp : p ∈ S) (hr : rank p < r) :
    load rank (d.put rank p j) f r S = load rank d f r S + [j].countP f := by
  have hrest : load rank (d.put rank p j) f r (S.erase p) = load rank d f r (S.erase p) :=
    load_congr fun q hq _ => held_put_of_ne (Finset.ne_of_mem_erase hq)
  rw [load_erase hp hr, load_erase (d := d) hp hr, hrest, held_put_self, List.countP_append]
  omega

theorem load_put_of_le {p : P} {j : J} (hr : r ≤ rank p) :
    load rank (d.put rank p j) f r S = load rank d f r S := by
  refine load_congr fun q _ hq => held_put_of_ne ?_
  rintro rfl
  omega

theorem load_take {p : P} {j : J} {rest : List J} (hd : d.held p = j :: rest) (hp : p ∈ S)
    (hr : rank p < r) :
    load rank (d.take p rest) f r S + [j].countP f = load rank d f r S := by
  have hrest : load rank (d.take p rest) f r (S.erase p) = load rank d f r (S.erase p) :=
    load_congr fun q hq _ => held_take_of_ne (Finset.ne_of_mem_erase hq)
  have hj : (j :: rest).countP f = [j].countP f + rest.countP f :=
    (List.countP_append : ([j] ++ rest).countP f = _)
  rw [load_erase hp hr, load_erase (d := d) hp hr, hrest, held_take_self, hd, hj]
  omega

theorem load_take_le {p : P} {j : J} {rest : List J} (hd : d.held p = j :: rest) :
    load rank (d.take p rest) f r S ≤ load rank d f r S := by
  refine load_le fun q => ?_
  by_cases hq : q = p
  · subst hq
    rw [held_take_self, hd]
    exact (List.sublist_cons_self j rest).countP_le
  · rw [held_take_of_ne hq]

/-- What came to a rank, and what is still on its way there, has come in. -/
def Conserved (rank : P → ℕ) (f : J → Bool) (d : Desk P J) : Prop :=
  ∀ r S, 0 < r → load rank d f r S + (d.came r).countP f ≤ (d.came 0).countP f

theorem conserved_step {b : Label P J} (h : step rank d b = some d') (hI : Conserved rank f d) :
    Conserved rank f d' := by
  intro r S hr
  cases b with
  | create p j =>
    simp only [step] at h
    split_ifs at h with hp
    cases h
    have hS : load rank (d.put rank p j) f r S ≤ load rank (d.put rank p j) f r (insert p S) :=
      load_mono (Finset.subset_insert p S)
    have hput := load_put (d := d) (f := f) (j := j) (Finset.mem_insert_self p S)
      (Nat.lt_of_le_of_lt (Nat.le_of_eq hp) hr)
    have hold := hI r (insert p S) hr
    have hcame : (d.put rank p j).came r = d.came r := came_put_of_ne (by omega)
    have hnew : (d.put rank p j).came 0 = d.came 0 ++ [j] := hp ▸ came_put_self
    rw [hcame, hnew, List.countP_append]
    omega
  | move p q =>
    simp only [step] at h
    split at h
    case h_2 => cases h
    case h_1 j rest hd =>
      split_ifs at h with hpq
      cases h
      have hnew : ((d.take p rest).put rank q j).came 0 = d.came 0 := came_put_of_ne (by omega)
      rw [hnew]
      rcases Nat.lt_trichotomy (rank q) r with hq | hq | hq
      · -- the job stays below
        have hcame : ((d.take p rest).put rank q j).came r = d.came r := came_put_of_ne (by omega)
        have hsub : S ⊆ insert p (insert q S) := fun x hx => by simp [hx]
        have hS : load rank ((d.take p rest).put rank q j) f r S
            ≤ load rank ((d.take p rest).put rank q j) f r (insert p (insert q S)) := load_mono hsub
        have hput := load_put (d := d.take p rest) (f := f) (j := j) (p := q)
          (S := insert p (insert q S)) (by simp) hq
        have htake := load_take (f := f) (S := insert p (insert q S)) hd (by simp)
          (Nat.lt_trans hpq hq)
        have hold := hI r (insert p (insert q S)) hr
        rw [hcame]
        omega
      · -- it comes to this rank
        have hcame : ((d.take p rest).put rank q j).came r = d.came r ++ [j] := hq ▸ came_put_self
        have hS : load rank ((d.take p rest).put rank q j) f r S
            ≤ load rank ((d.take p rest).put rank q j) f r (insert p S) :=
          load_mono (Finset.subset_insert p S)
        have hput := load_put_of_le (d := d.take p rest) (f := f) (j := j) (S := insert p S)
          (Nat.le_of_eq hq.symm)
        have htake := load_take (f := f) (S := insert p S) hd (by simp) (hq ▸ hpq)
        have hold := hI r (insert p S) hr
        rw [hcame, List.countP_append]
        omega
      · -- it is past this rank
        have hcame : ((d.take p rest).put rank q j).came r = d.came r := came_put_of_ne (by omega)
        have hput := load_put_of_le (d := d.take p rest) (f := f) (j := j) (S := S)
          (Nat.le_of_lt hq)
        have htake : load rank (d.take p rest) f r S ≤ load rank d f r S := load_take_le hd
        have hold := hI r S hr
        rw [hcame]
        omega

theorem conserved_of_reach {Q : Desk P J → Label P J → Prop}
    (h : Machine.Reach (machine rank) Q d) (f : J → Bool) : Conserved rank f d :=
  h.invariant (I := Conserved rank f) (fun r S _ => by simp [load, machine])
    fun _ _ _ _ _ hs hI => conserved_step hs hI

/-- What came to a rank is part of what came in. -/
theorem came_subperm {Q : Desk P J → Label P J → Prop} (h : Machine.Reach (machine rank) Q d)
    (r : ℕ) : (d.came r).Subperm (d.came 0) := by
  classical
  rcases Nat.eq_zero_or_pos r with rfl | hr
  · exact List.Subperm.refl _
  · refine List.subperm_ext_iff.2 fun x _ => ?_
    exact Nat.le_trans (Nat.le_add_left _ _) (conserved_of_reach h (· == x) r ∅ hr)

/-- What a place holds is part of what came in. -/
theorem held_subperm {Q : Desk P J → Label P J → Prop} (h : Machine.Reach (machine rank) Q d)
    (p : P) : (d.held p).Subperm (d.came 0) := by
  classical
  refine List.subperm_ext_iff.2 fun x _ => ?_
  have hc := conserved_of_reach h (· == x) (rank p + 1) {p} (Nat.succ_pos _)
  have hp : load rank d (· == x) (rank p + 1) {p} = (d.held p).countP (· == x) := by
    simp [load, Finset.filter_singleton]
  rw [hp] at hc
  exact Nat.le_trans (Nat.le_add_right _ _) hc

end Custody
