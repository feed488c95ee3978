import Mathlib.Logic.Function.Basic
import OcppClient.Lib.History
import OcppClient.Lib.Transition

/-!
# Answers correlated by key

A requester files itself in a table under a key and waits on a slot of its own. An answer for a key
takes the entry out and fills the slot of the requester it finds there, or finds none and is
dropped; a requester that gives up takes its entry out itself, and the whole table may be cleared.
The log keeps every operation in order.

While no key is filed twice, the table is what the log says it is (`entry_iff`): `k` leads to `c`
exactly when `c` filed under `k` and nothing since took that entry out. So a slot is filled by the
first answer to come while its requester was filed (`take_spec`), and an answer fills at most one
slot (`live_unique`).

`Tracked` is the weaker bookkeeping that needs no distinct keys: whoever is in the table stands
where one may stand who is.
-/

namespace Correlation

open Transition

/-- One operation on the table. -/
inductive Label (K C V : Type*)
  | register (c : C) (k : K)
  | resolve (k : K) (v : V)
  | forget (c : C) (k : K)
  | take (c : C) (v : V)
  | clear

structure Table (K C V : Type*) where
  entry : K → Option C
  slot : C → Option V
  log : List (Label K C V)

variable {K C V : Type*}

/-- `c` filed under `k`, and no operation in `log` has taken that entry out since. -/
def Live (log : List (Label K C V)) (c : C) (k : K) : Prop :=
  ∃ pre post, log = pre ++ .register c k :: post ∧ (∀ v, .resolve k v ∉ post)
    ∧ .forget c k ∉ post ∧ .clear ∉ post

/-- The operation leaves the entry of `c` under `k` where it is. -/
def Keeps (c : C) (k : K) : Label K C V → Prop
  | .resolve k' _ => k' ≠ k
  | .forget c' k' => ¬ (c' = c ∧ k' = k)
  | .clear => False
  | _ => True

section Live

variable {log : List (Label K C V)} {c : C} {k : K}

theorem live_snoc_register : Live (log ++ [.register c k]) c k :=
  ⟨log, [], rfl, by simp, by simp, by simp⟩

theorem Live.mem (h : Live log c k) : .register c k ∈ log := by
  obtain ⟨pre, post, rfl, -⟩ := h
  simp

theorem Live.snoc {b : Label K C V} (h : Live log c k) (hb : Keeps c k b) :
    Live (log ++ [b]) c k := by
  obtain ⟨pre, post, rfl, h1, h2, h3⟩ := h
  refine ⟨pre, post ++ [b], by simp, fun v => ?_, ?_, ?_⟩
  · have hne : Label.resolve k v ≠ b := by rintro rfl; exact hb rfl
    simp [h1 v, hne]
  · have hne : Label.forget c k ≠ b := by rintro rfl; exact hb ⟨rfl, rfl⟩
    simp [h2, hne]
  · have hne : Label.clear ≠ b := by rintro rfl; exact hb
    simp [h3, hne]

/-- An entry live after one more operation was filed by it, or was live before and is kept. -/
theorem Live.of_snoc {b : Label K C V} (h : Live (log ++ [b]) c k) :
    b = .register c k ∨ Live log c k ∧ Keeps c k b := by
  obtain ⟨pre, post, he, h1, h2, h3⟩ := h
  rcases History.split_snoc he with ⟨-, he, -⟩ | ⟨post', rfl, hlog⟩
  · exact .inl he.symm
  · simp only [List.mem_append, List.mem_singleton, not_or] at h1 h2 h3
    refine .inr ⟨⟨pre, post', hlog, fun v => (h1 v).1, h2.1, h3.1⟩, ?_⟩
    cases b with
    | resolve k' v => exact fun hk => (h1 v).2 (by rw [hk])
    | forget c' k' => rintro ⟨rfl, rfl⟩; exact h2.2 rfl
    | clear => exact h3.2 rfl
    | register c' k' => trivial
    | take c' v => trivial

end Live

/-- `v` was filed in answer to `c` while `c`'s own key led to `c`. -/
def AnswerTo (log : List (Label K C V)) (c : C) (v : V) : Prop :=
  ∃ k pre post, log = pre ++ .resolve k v :: post ∧ Live pre c k

theorem AnswerTo.snoc {log : List (Label K C V)} {c : C} {v : V} (h : AnswerTo log c v)
    (b : Label K C V) : AnswerTo (log ++ [b]) c v := by
  obtain ⟨k, pre, post, rfl, hl⟩ := h
  exact ⟨k, pre, post ++ [b], by simp, hl⟩

/-! ## Entries and where their requesters stand -/

section Tracked

variable {P : Type*} {Q : P → Prop} {entry entry' : K → Option C} {pc : C → P}

/-- Every requester in the table stands at a point that satisfies `Q`. -/
def Tracked (Q : P → Prop) (entry : K → Option C) (pc : C → P) : Prop :=
  ∀ k c, entry k = some c → Q (pc c)

theorem Tracked.shrink (h : Tracked Q entry pc) (hs : ∀ k c, entry' k = some c → entry k = some c) :
    Tracked Q entry' pc :=
  fun k c hk => h k c (hs k c hk)

theorem Tracked.not_mem (h : Tracked Q entry pc) {c : C} (hc : ¬ Q (pc c)) (k : K) :
    entry k ≠ some c :=
  fun hk => hc (h k c hk)

/-- A requester moves on, to a point that satisfies `Q` unless the table has no entry of it. -/
theorem Tracked.move [DecidableEq C] (h : Tracked Q entry pc) {c : C} {x : P}
    (hx : Q x ∨ ∀ k, entry k ≠ some c) : Tracked Q entry (Function.update pc c x) := by
  intro k c' hk
  rcases eq_or_ne c' c with rfl | hne
  · rw [Function.update_self]
    exact hx.resolve_right fun hn => hn k hk
  · rw [Function.update_of_ne hne]
    exact h k c' hk

theorem Tracked.file [DecidableEq K] [DecidableEq C] (h : Tracked Q entry pc) {k : K} {c : C}
    {x : P} (hx : Q x) : Tracked Q (Function.update entry k (some c)) (Function.update pc c x) := by
  intro k' c' hk
  rcases eq_or_ne k' k with rfl | hne
  · rw [Function.update_self, Option.some.injEq] at hk
    rw [← hk, Function.update_self]
    exact hx
  · rw [Function.update_of_ne hne] at hk
    exact h.move (.inl hx) k' c' hk

theorem Tracked.erase [DecidableEq K] (h : Tracked Q entry pc) (k : K) :
    Tracked Q (Function.update entry k none) pc := by
  refine h.shrink fun k' c hk => ?_
  rcases eq_or_ne k' k with rfl | hne
  · rw [Function.update_self] at hk
    cases hk
  · rwa [Function.update_of_ne hne] at hk

end Tracked

variable [DecidableEq K] [DecidableEq C]

/-- The slot of the requester found, filled. -/
def fill (slot : C → Option V) (v : V) : Option C → C → Option V
  | some c => Function.update slot c (some v)
  | none => slot

/-- What an operation does; a `take` needs the value it takes. -/
def step (t : Table K C V) : Label K C V → Option (Table K C V)
  | .register c k =>
    some { t with entry := Function.update t.entry k (some c), log := t.log ++ [.register c k] }
  | .resolve k v =>
    some
      { entry := Function.update t.entry k none
        slot := fill t.slot v (t.entry k)
        log := t.log ++ [.resolve k v] }
  | .forget c k =>
    some { t with entry := Function.update t.entry k none, log := t.log ++ [.forget c k] }
  | .take c v =>
    match t.slot c with
    | some _ => some { t with slot := Function.update t.slot c none, log := t.log ++ [.take c v] }
    | none => none
  | .clear => some { t with entry := fun _ => none, log := t.log ++ [.clear] }

variable (K C V) in
def machine : Machine (Table K C V) (Label K C V) where
  init := ⟨fun _ => none, fun _ => none, []⟩
  step := step

/-- A key is filed once, a requester gives up only what it filed, and takes what its slot holds. -/
def Fresh (t : Table K C V) : Label K C V → Prop
  | .register _ k => ∀ c, .register c k ∉ t.log
  | .forget c k => .register c k ∈ t.log
  | .take c v => t.slot c = some v
  | _ => True

structure Inv (t : Table K C V) : Prop where
  unique : ∀ c c' k, .register c k ∈ t.log → .register c' k ∈ t.log → c = c'
  entry : ∀ k c, t.entry k = some c ↔ Live t.log c k
  slot : ∀ c v, t.slot c = some v → AnswerTo t.log c v
  take : ∀ c v, .take c v ∈ t.log → AnswerTo t.log c v

theorem inv_init : Inv (machine K C V).init := by
  refine ⟨by simp [machine], fun k c => ?_, by simp [machine], by simp [machine]⟩
  simp only [machine, reduceCtorEq, false_iff]
  intro h
  simpa using h.mem

omit [DecidableEq C] in
theorem inv_register {t : Table K C V} (hI : Inv t) {c : C} {k : K}
    (hf : Fresh t (.register c k)) :
    Inv { t with
      entry := Function.update t.entry k (some c), log := t.log ++ [.register c k] } := by
  refine ⟨fun c₁ c₂ k' h₁ h₂ => ?_, fun k' c' => ?_, fun c' v h => (hI.slot c' v h).snoc _,
    fun c' v h => ?_⟩
  · simp only [List.mem_append, List.mem_singleton, Label.register.injEq] at h₁ h₂
    rcases h₁ with h₁ | ⟨rfl, rfl⟩
    · rcases h₂ with h₂ | ⟨rfl, rfl⟩
      · exact hI.unique _ _ _ h₁ h₂
      · exact absurd h₁ (hf _)
    · rcases h₂ with h₂ | ⟨rfl, -⟩
      · exact absurd h₂ (hf _)
      · rfl
  · rcases eq_or_ne k' k with rfl | hk
    · simp only [Function.update_self, Option.some.injEq]
      refine ⟨fun h => h ▸ live_snoc_register, fun h => ?_⟩
      rcases h.of_snoc with h | ⟨h, -⟩
      · simpa using h
      · exact absurd h.mem (hf _)
    · simp only [Function.update_of_ne hk, hI.entry]
      refine ⟨fun h => h.snoc trivial, fun h => ?_⟩
      rcases h.of_snoc with h | ⟨h, -⟩
      · simp only [Label.register.injEq] at h
        exact absurd h.2.symm hk
      · exact h
  · simp only [List.mem_append, List.mem_singleton, reduceCtorEq, or_false] at h
    exact (hI.take c' v h).snoc _

omit [DecidableEq C] in
/-- Taking the entry of `k` out keeps the table in line with a log that says so. -/
theorem entry_iff_erase {t : Table K C V} (hI : Inv t) {k : K} {b : Label K C V}
    (hout : ∀ c, Live t.log c k → ¬ Keeps c k b) (hkeep : ∀ c k', k' ≠ k → Keeps c k' b)
    (hreg : ∀ c k', b ≠ .register c k') (k' : K) (c : C) :
    Function.update t.entry k none k' = some c ↔ Live (t.log ++ [b]) c k' := by
  rcases eq_or_ne k' k with rfl | hk
  · simp only [Function.update_self, reduceCtorEq, false_iff]
    intro h
    rcases h.of_snoc with h | ⟨h, hb⟩
    · exact hreg _ _ h
    · exact hout c h hb
  · rw [Function.update_of_ne hk, hI.entry]
    refine ⟨fun h => h.snoc (hkeep c k' hk), fun h => ?_⟩
    rcases h.of_snoc with h | ⟨h, -⟩
    · exact absurd h (hreg _ _)
    · exact h

theorem inv_resolve {t : Table K C V} (hI : Inv t) (k : K) (v : V) :
    Inv
      { entry := Function.update t.entry k none
        slot := fill t.slot v (t.entry k)
        log := t.log ++ [.resolve k v] } := by
  refine ⟨fun c c' k' h h' => hI.unique c c' k' (by simpa using h) (by simpa using h'),
    entry_iff_erase hI (fun c _ h => h rfl) (fun c k' hk h => hk h.symm) (by simp),
    fun c w h => ?_, fun c w h => (hI.take c w (by simpa using h)).snoc _⟩
  rcases hk : t.entry k with _ | c₀ <;> simp only [hk, fill] at h
  · exact (hI.slot c w h).snoc _
  · rcases eq_or_ne c c₀ with rfl | hc
    · simp only [Function.update_self, Option.some.injEq] at h
      subst h
      exact ⟨k, t.log, [], rfl, (hI.entry k c).1 hk⟩
    · rw [Function.update_of_ne hc] at h
      exact (hI.slot c w h).snoc _

omit [DecidableEq C] in
theorem inv_forget {t : Table K C V} (hI : Inv t) {c : C} {k : K} (hf : Fresh t (.forget c k)) :
    Inv { t with entry := Function.update t.entry k none, log := t.log ++ [.forget c k] } := by
  refine ⟨fun c c' k' h h' => hI.unique c c' k' (by simpa using h) (by simpa using h'),
    entry_iff_erase hI (fun c' hl h => ?_) (fun c' k' hk h => hk h.2.symm) (by simp),
    fun c' w h => (hI.slot c' w h).snoc _, fun c' w h => (hI.take c' w (by simpa using h)).snoc _⟩
  exact h ⟨hI.unique _ _ _ hf hl.mem, rfl⟩

omit [DecidableEq K] in
theorem inv_take {t : Table K C V} (hI : Inv t) {c : C} {v : V} (hf : Fresh t (.take c v)) :
    Inv { t with slot := Function.update t.slot c none, log := t.log ++ [.take c v] } := by
  refine ⟨fun c c' k' h h' => hI.unique c c' k' (by simpa using h) (by simpa using h'),
    fun k' c' => ?_, fun c' w h => ?_, fun c' w h => ?_⟩
  · rw [hI.entry]
    refine ⟨fun h => h.snoc trivial, fun h => ?_⟩
    rcases h.of_snoc with h | ⟨h, -⟩
    · simp at h
    · exact h
  · rcases eq_or_ne c' c with rfl | hc
    · simp at h
    · simp only [Function.update_of_ne hc] at h
      exact (hI.slot c' w h).snoc _
  · simp only [List.mem_append, List.mem_singleton, Label.take.injEq] at h
    rcases h with h | ⟨rfl, rfl⟩
    · exact (hI.take c' w h).snoc _
    · exact (hI.slot _ _ hf).snoc _

omit [DecidableEq K] [DecidableEq C] in
theorem inv_clear {t : Table K C V} (hI : Inv t) :
    Inv { t with entry := fun _ => none, log := t.log ++ [.clear] } := by
  refine ⟨fun c c' k' h h' => hI.unique c c' k' (by simpa using h) (by simpa using h'),
    fun k' c' => ?_, fun c' w h => (hI.slot c' w h).snoc _,
    fun c' w h => (hI.take c' w (by simpa using h)).snoc _⟩
  simp only [reduceCtorEq, false_iff]
  intro h
  rcases h.of_snoc with h | ⟨-, h⟩
  · simp at h
  · exact h

theorem inv_step {t t' : Table K C V} {b : Label K C V} (hf : Fresh t b)
    (h : step t b = some t') (hI : Inv t) : Inv t' := by
  cases b with
  | register c k =>
    simp only [step, Option.some.injEq] at h
    exact h ▸ inv_register hI hf
  | resolve k v =>
    simp only [step, Option.some.injEq] at h
    exact h ▸ inv_resolve hI k v
  | forget c k =>
    simp only [step, Option.some.injEq] at h
    exact h ▸ inv_forget hI hf
  | take c v =>
    simp only [step] at h
    split at h
    · simp only [Option.some.injEq] at h
      exact h ▸ inv_take hI hf
    · cases h
  | clear =>
    simp only [step, Option.some.injEq] at h
    exact h ▸ inv_clear hI

theorem inv_of_reach {t : Table K C V} (h : Machine.Reach (machine K C V) Fresh t) : Inv t :=
  h.invariant inv_init fun _ _ _ _ hf hs hI => inv_step hf hs hI

variable {t : Table K C V}

/-- A key leads to a requester exactly when that requester is filed under it. -/
theorem entry_iff (h : Machine.Reach (machine K C V) Fresh t) {k : K} {c : C} :
    t.entry k = some c ↔ Live t.log c k :=
  (inv_of_reach h).entry k c

theorem take_spec (h : Machine.Reach (machine K C V) Fresh t) {c : C} {v : V}
    (ht : .take c v ∈ t.log) : AnswerTo t.log c v :=
  (inv_of_reach h).take c v ht

/-- At any point of the log a key leads to one requester. -/
theorem live_unique (h : Machine.Reach (machine K C V) Fresh t) {pre post : List (Label K C V)}
    (hlog : t.log = pre ++ post) {c c' : C} {k : K} (hl : Live pre c k) (hl' : Live pre c' k) :
    c = c' := by
  refine (inv_of_reach h).unique c c' k ?_ ?_ <;> rw [hlog]
  · exact List.mem_append_left _ hl.mem
  · exact List.mem_append_left _ hl'.mem

end Correlation
