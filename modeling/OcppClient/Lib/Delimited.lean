import Mathlib.Data.List.Basic

/-!
# Delimited codes

A list written as the codes of its items one after another. An item's code may run up to where the
next one starts (a name up to its separator), so it is told from what follows only if that stops
the run.
-/

namespace Delimited

variable {σ α : Type*}

/-- A run of `p` does not go on into the rest. -/
def Stops (p : α → Prop) (rest : List α) : Prop :=
  ∀ c ∈ rest.head?, ¬ p c

theorem stops_nil (p : α → Prop) : Stops p [] := by
  simp [Stops]

theorem stops_cons {p : α → Prop} {c : α} {rest : List α} : Stops p (c :: rest) ↔ ¬ p c := by
  simp [Stops]

/-- A run ends in one place only. -/
theorem run_inj {p : α → Prop} : ∀ {a b x y : List α}, (∀ c ∈ a, p c) → (∀ c ∈ b, p c) →
    Stops p x → Stops p y → a ++ x = b ++ y → a = b ∧ x = y
  | [], [], _, _, _, _, _, _, h => ⟨rfl, h⟩
  | [], c :: b, x, y, _, hb, hx, _, h => by
    obtain rfl : x = c :: (b ++ y) := h
    exact absurd (hb c (by simp)) (stops_cons.1 hx)
  | c :: a, [], x, y, ha, _, _, hy, h => by
    obtain rfl : c :: (a ++ x) = y := h
    exact absurd (ha c (by simp)) (stops_cons.1 hy)
  | c :: a, d :: b, x, y, ha, hb, hx, hy, h => by
    simp only [List.cons_append, List.cons.injEq] at h
    obtain ⟨rfl, h⟩ := h
    obtain ⟨rfl, hxy⟩ := run_inj (fun d hd => ha d (by simp [hd])) (fun d hd => hb d (by simp [hd]))
      hx hy h
    exact ⟨rfl, hxy⟩

/-- `f` writes the items of `item` so that each stops the runs of `p` before it, and can be told
from a rest that stops its own. -/
structure IsCode (item : σ → Prop) (p : α → Prop) (f : σ → List α) : Prop where
  stops : ∀ {s}, item s → f s ≠ [] ∧ Stops p (f s)
  inj : ∀ {s t x y}, item s → item t → Stops p x → Stops p y → f s ++ x = f t ++ y → s = t ∧ x = y

namespace IsCode

variable {item : σ → Prop} {p : α → Prop} {f : σ → List α}

theorem stops_append (hf : IsCode item p f) {s : σ} (hs : item s) (rest : List α) :
    Stops p (f s ++ rest) := by
  obtain ⟨hne, hstop⟩ := hf.stops hs
  obtain ⟨c, code, hc⟩ := List.exists_cons_of_ne_nil hne
  rw [hc, stops_cons] at hstop
  rw [hc]
  exact stops_cons.2 hstop

theorem stops_flatMap (hf : IsCode item p f) : ∀ {l : List σ}, (∀ s ∈ l, item s) →
    Stops p (l.flatMap f)
  | [], _ => stops_nil p
  | s :: l, hl => hf.stops_append (hl s (by simp)) (l.flatMap f)

/-- What was written is read back: no two lists have one text. -/
theorem flatMap_inj (hf : IsCode item p f) : ∀ {l m : List σ}, (∀ s ∈ l, item s) →
    (∀ s ∈ m, item s) → l.flatMap f = m.flatMap f → l = m
  | [], [], _, _, _ => rfl
  | [], t :: m, _, hm, h => by
    simp only [List.flatMap_nil, List.flatMap_cons, List.nil_eq, List.append_eq_nil_iff] at h
    exact absurd h.1 (hf.stops (hm t (by simp))).1
  | s :: l, [], hl, _, h => by
    simp only [List.flatMap_nil, List.flatMap_cons, List.append_eq_nil_iff] at h
    exact absurd h.1 (hf.stops (hl s (by simp))).1
  | s :: l, t :: m, hl, hm, h => by
    have hl' : ∀ s ∈ l, item s := fun s hs => hl s (by simp [hs])
    have hm' : ∀ s ∈ m, item s := fun s hs => hm s (by simp [hs])
    simp only [List.flatMap_cons] at h
    obtain ⟨rfl, hrest⟩ := hf.inj (hl s (by simp)) (hm t (by simp)) (hf.stops_flatMap hl')
      (hf.stops_flatMap hm') h
    rw [flatMap_inj hf hl' hm' hrest]

end IsCode

end Delimited
