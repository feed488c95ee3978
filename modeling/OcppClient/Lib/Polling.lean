import Mathlib.Tactic.Common

/-!
# Polls, and races of two futures

A future is what a poll of it does: it is ready with a value, or pending, and it changes the world,
where the wakers are. A future parks in `A` where it leaves `A` behind whenever it is pending: `A`
says that it is not ready and that its task will be woken when it is. A race parks in what either
of its futures parks in, if the poll of the second undoes nothing of the first's.
-/

namespace Polling

/-- What a poll comes to. -/
inductive Polled (α : Type)
  | pending
  | ready (v : α)

def Future (W α : Type) := W → Polled α × W

section Futures

variable {W α β ε : Type}

def Future.map (g : α → β) (f : Future W α) : Future W β := fun w =>
  match f w with
  | (.pending, w') => (.pending, w')
  | (.ready v, w') => (.ready (g v), w')

/-- `f` against `g`: `f` is polled first, and `g` only where `f` is pending. -/
def race (lost : ε) (f : Future W α) (g : Future W β) : Future W (Except ε α) := fun w =>
  match f w with
  | (.ready v, w') => (.ready (.ok v), w')
  | (.pending, w') =>
    match g w' with
    | (.ready _, w'') => (.ready (.error lost), w'')
    | (.pending, w'') => (.pending, w'')

/-- Where the future is pending it leaves `A` behind. -/
def Parks (f : Future W α) (A : W → Prop) : Prop := ∀ w w', f w = (.pending, w') → A w'

/-- What a pending poll does not undo. -/
def Keeps (f : Future W α) (A : W → Prop) : Prop := ∀ w w', f w = (.pending, w') → A w → A w'

/-- What no poll changes. -/
def Spares {γ : Type} (f : Future W α) (view : W → γ) : Prop := ∀ w, view (f w).2 = view w

variable {f : Future W α} {g : Future W β} {lost : ε} {A B : W → Prop} {w w' : W}

theorem map_of_ready {v : α} (hf : f w = (.ready v, w')) (h : α → β) :
    f.map h w = (.ready (h v), w') := by
  simp [Future.map, hf]

theorem race_of_ready {v : α} (hf : f w = (.ready v, w')) :
    race lost f g w = (.ready (.ok v), w') := by
  simp [race, hf]

theorem race_of_pending {w₁ : W} {v : β} (hf : f w = (.pending, w₁)) (hg : g w₁ = (.ready v, w')) :
    race lost f g w = (.ready (.error lost), w') := by
  simp [race, hf, hg]

theorem map_pending {h : α → β} (hp : f.map h w = (.pending, w')) : f w = (.pending, w') := by
  unfold Future.map at hp
  split at hp
  · next hf => cases hp; exact hf
  · cases hp

theorem race_pending (h : race lost f g w = (.pending, w')) :
    ∃ w₁, f w = (.pending, w₁) ∧ g w₁ = (.pending, w') := by
  unfold race at h
  split at h
  · cases h
  · next w₁ hf =>
    split at h
    · cases h
    · next hg => cases h; exact ⟨w₁, hf, hg⟩

theorem Parks.map (h : Parks f A) (k : α → β) : Parks (f.map k) A :=
  fun w w' hp => h w w' (map_pending hp)

theorem Parks.race (hf : Parks f A) (hg : Parks g B) (hk : Keeps g A) :
    Parks (race lost f g) fun w => A w ∧ B w := by
  intro w w' h
  obtain ⟨w₁, hfw, hgw⟩ := race_pending h
  exact ⟨hk w₁ w' hgw (hf w w₁ hfw), hg w₁ w' hgw⟩

theorem Spares.map {γ : Type} {view : W → γ} (h : Spares f view) (k : α → β) :
    Spares (f.map k) view := by
  intro w
  have hw := h w
  unfold Future.map
  split <;> next hf => rw [hf] at hw; exact hw

theorem Spares.race {γ : Type} {view : W → γ} (hf : Spares f view) (hg : Spares g view) :
    Spares (race lost f g) view := by
  intro w
  have hw := hf w
  unfold Polling.race
  split
  · next h => rw [h] at hw; exact hw
  · next w₁ h =>
    rw [h] at hw
    have hw₁ := hg w₁
    split <;> next h' => rw [h'] at hw₁; exact hw₁.trans hw

end Futures

end Polling
