import Mathlib.Data.List.Basic
import Mathlib.Data.List.Forall2
import Mathlib.Data.List.Perm.Subperm

/-!
# Histories that grow at the end

A history is a list to which each step appends. A place in a grown history is the last one or a
place in the history before, so a property of every event and what came before it (`Always`) is
kept when the new event has it; so is one that also speaks of what has come since (`Since`), when
the new event does the old ones no harm.
-/

namespace History

variable {ε : Type*}

/-- A place in a history one event longer is the new event or a place in the old history. -/
theorem split_snoc {h pre post : List ε} {e b : ε} (he : h ++ [b] = pre ++ e :: post) :
    pre = h ∧ e = b ∧ post = [] ∨ ∃ post', post = post' ++ [b] ∧ h = pre ++ e :: post' := by
  rcases post.eq_nil_or_concat with rfl | ⟨post', b', rfl⟩
  · obtain ⟨h₁, h₂⟩ := List.append_inj' he rfl
    simp only [List.cons.injEq, and_true] at h₂
    exact .inl ⟨h₁.symm, h₂.symm, rfl⟩
  · rw [List.concat_eq_append, ← List.cons_append, ← List.append_assoc] at he
    obtain ⟨h₁, h₂⟩ := List.append_inj' he rfl
    simp only [List.cons.injEq, and_true] at h₂
    exact .inr ⟨post', by rw [List.concat_eq_append, h₂], h₁⟩

/-- Two places in a history are one, or one of them comes first. -/
theorem split_or {pre pre' post post' : List ε} {e e' : ε}
    (h : pre ++ e :: post = pre' ++ e' :: post') :
    (pre = pre' ∧ e = e' ∧ post = post') ∨ (e' ∈ post ∧ e ∈ pre') ∨ (e ∈ post' ∧ e' ∈ pre) := by
  rcases List.append_eq_append_iff.1 h with ⟨mid, rfl, hm⟩ | ⟨mid, rfl, hm⟩
  · cases mid with
    | nil => exact .inl (by simpa using hm)
    | cons x mid =>
      simp only [List.cons_append, List.cons.injEq] at hm
      exact .inr (.inl ⟨by simp [hm.2], by simp [hm.1]⟩)
  · cases mid with
    | nil => exact .inl (by simpa [eq_comm] using hm)
    | cons x mid =>
      simp only [List.cons_append, List.cons.injEq] at hm
      exact .inr (.inr ⟨by simp [hm.2], by simp [hm.1]⟩)

/-- The last event with `p` stands at one place. -/
theorem split_last {p : ε → Prop} {pre pre' post post' : List ε} {e e' : ε}
    (h : pre ++ e :: post = pre' ++ e' :: post') (he : p e) (he' : p e')
    (hpost : ∀ x ∈ post, ¬ p x) (hpost' : ∀ x ∈ post', ¬ p x) :
    pre = pre' ∧ e = e' ∧ post = post' := by
  rcases split_or h with h | ⟨h, -⟩ | ⟨h, -⟩
  · exact h
  · exact absurd he' (hpost _ h)
  · exact absurd he (hpost' _ h)

/-- A place in a projection of a history is a place in the history. -/
theorem split_filterMap {β : Type*} {f : ε → Option β} {h : List ε} {pre post : List β} {b : β}
    (hb : h.filterMap f = pre ++ b :: post) :
    ∃ pre' e post', h = pre' ++ e :: post' ∧ pre'.filterMap f = pre ∧ f e = some b
      ∧ post'.filterMap f = post := by
  obtain ⟨h₁, h₂, rfl, rfl, h₂e⟩ := List.filterMap_eq_append_iff.1 hb
  obtain ⟨l₁, e, l₂, rfl, hnone, he, rfl⟩ := List.filterMap_eq_cons_iff.1 h₂e
  refine ⟨h₁ ++ l₁, e, l₂, by simp, ?_, he, rfl⟩
  rw [List.filterMap_append, List.filterMap_eq_nil_iff.2 hnone, List.append_nil]

/-- Every event has `Q` with what came before it. -/
def Always (Q : List ε → ε → Prop) (h : List ε) : Prop :=
  ∀ pre e post, h = pre ++ e :: post → Q pre e

theorem Always.nil {Q : List ε → ε → Prop} : Always Q [] := by
  intro pre e post h
  simp at h

theorem Always.snoc {Q : List ε → ε → Prop} {h : List ε} (hQ : Always Q h) {b : ε} (hb : Q h b) :
    Always Q (h ++ [b]) := by
  intro pre e post he
  rcases split_snoc he with ⟨rfl, rfl, -⟩ | ⟨post', -, rfl⟩
  · exact hb
  · exact hQ _ _ _ rfl

/-- Events that have `Q` wherever they stand. -/
theorem Always.append {Q : List ε → ε → Prop} :
    ∀ {evs h : List ε}, Always Q h → (∀ e ∈ evs, ∀ pre, Q pre e) → Always Q (h ++ evs)
  | [], h, hQ, _ => by simpa using hQ
  | b :: evs, h, hQ, hevs => by
    rw [← List.singleton_append, ← List.append_assoc]
    exact (hQ.snoc (hevs b (by simp) h)).append fun e he => hevs e (by simp [he])

/-- Every event has `Q` with what came before it and what has come since. -/
def Since (Q : List ε → ε → List ε → Prop) (h : List ε) : Prop :=
  ∀ pre e post, h = pre ++ e :: post → Q pre e post

theorem Since.nil {Q : List ε → ε → List ε → Prop} : Since Q [] := by
  intro pre e post h
  simp at h

/-- What a new event does for the ones before it, and the event itself. -/
theorem Since.snoc {Q Q' : List ε → ε → List ε → Prop} {h : List ε} {b : ε} (hQ : Since Q h)
    (hold : ∀ pre e post, h = pre ++ e :: post → Q pre e post → Q' pre e (post ++ [b]))
    (hnew : Q' h b []) : Since Q' (h ++ [b]) := by
  intro pre e post he
  rcases split_snoc he with ⟨rfl, rfl, rfl⟩ | ⟨post', rfl, rfl⟩
  · exact hnew
  · exact hold _ _ _ rfl (hQ _ _ _ rfl)

/-! ## Histories matched entry by entry -/

section Match

variable {α β γ : Type*} {r : α → β → Prop} {l : List α} {l' : List β}

theorem exists_of_forall₂ (h : List.Forall₂ r l l') {a : α} (ha : a ∈ l) : ∃ b ∈ l', r a b := by
  induction h with
  | nil => cases ha
  | cons hab _ ih =>
    rcases List.mem_cons.1 ha with rfl | ha
    · exact ⟨_, List.mem_cons_self .., hab⟩
    · obtain ⟨b, hb, hr⟩ := ih ha
      exact ⟨b, List.mem_cons_of_mem _ hb, hr⟩

/-- A projection of the one side is a function of the other. -/
theorem filterMap_of_forall₂ {f : α → Option γ} {g : β → γ} (h : List.Forall₂ r l l')
    (hf : ∀ a b, r a b → f a = some (g b)) : l.filterMap f = l'.map g := by
  induction h with
  | nil => rfl
  | cons hab _ ih => rw [List.filterMap_cons_some (hf _ _ hab), ih, List.map_cons]

/-- A value is projected no more often than the events that project to it pass another filter. -/
theorem count_filterMap_le [BEq β] [LawfulBEq β] {f : α → Option β} {g : α → Option γ} {b : β} :
    ∀ {l : List α}, (∀ a ∈ l, f a = some b → (g a).isSome = true) →
      (l.filterMap f).count b ≤ (l.filterMap g).length
  | [], _ => Nat.zero_le _
  | a :: l, h => by
    have ih := count_filterMap_le fun x hx => h x (List.mem_cons_of_mem _ hx)
    have hg : (l.filterMap g).length ≤ ((a :: l).filterMap g).length :=
      ((List.sublist_cons_self a l).filterMap g).length_le
    rcases hf : f a with _ | v
    · rw [List.filterMap_cons_none hf]
      exact Nat.le_trans ih hg
    · rw [List.filterMap_cons_some hf]
      rcases eq_or_ne v b with rfl | hne
      · obtain ⟨c, hc⟩ := Option.isSome_iff_exists.1 (h a (List.mem_cons_self ..) hf)
        rw [List.filterMap_cons_some hc, List.count_cons_self, List.length_cons]
        exact Nat.succ_le_succ ih
      · rw [List.count_cons_of_ne hne]
        exact Nat.le_trans ih hg

/-- Mathlib's `List.Subperm.map` is for injective functions. -/
theorem subperm_map {l₁ l₂ : List α} (h : l₁.Subperm l₂) (f : α → β) :
    (l₁.map f).Subperm (l₂.map f) := by
  obtain ⟨l, hp, hs⟩ := h
  exact ⟨l.map f, hp.map f, hs.map f⟩

end Match

end History
