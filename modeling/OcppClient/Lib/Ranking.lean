import OcppClient.Lib.Transition

/-!
# Ranks

A rank that no step raises, and that a step of one's own lowers, bounds the steps of one's own in
any run. A rank that some step can always lower leads to the end, and bounds the way there.
-/

namespace Transition.Machine

variable {σ α : Type*} {M : Machine σ α}

/-- The steps that are `mine` each cost one of the rank. A step that `gains` adds at most `k`. -/
theorem run_spent {I : σ → Prop} (rank : σ → ℕ) (mine gains : α → Bool) (k : ℕ)
    (hstep : ∀ s a s', I s → M.step s a = some s' →
      I s' ∧ rank s' + (if mine a then 1 else 0) ≤ rank s + k * (if gains a then 1 else 0)) :
    ∀ (as : List α) {s t : σ}, I s → M.run s as = some t →
      as.countP mine + rank t ≤ rank s + k * as.countP gains
  | [], s, t, _, h => by
    simp only [run, Option.some.injEq] at h
    simp [h]
  | a :: as, s, t, hs, h => by
    simp only [run, Option.bind_eq_some_iff] at h
    obtain ⟨s', hs', h'⟩ := h
    obtain ⟨hI, hle⟩ := hstep s a s' hs hs'
    have ih := run_spent rank mine gains k hstep as hI h'
    rw [List.countP_cons, List.countP_cons, Nat.mul_add]
    omega

/-- Where a step that is `free` to be taken lowers the rank, unless the end is reached, a run of
such steps reaches the end. -/
theorem run_attains {I : σ → Prop} (ended : σ → Prop) (rank : σ → ℕ) (free : α → Prop)
    (hstep : ∀ s, I s → ¬ ended s →
      ∃ a s', free a ∧ M.step s a = some s' ∧ I s' ∧ rank s' < rank s)
    {s : σ} (hs : I s) :
    ∃ as t, M.run s as = some t ∧ ended t ∧ as.length ≤ rank s ∧ ∀ a ∈ as, free a := by
  induction hn : rank s using Nat.strongRecOn generalizing s with
  | _ n ih =>
    by_cases hd : ended s
    · exact ⟨[], s, rfl, hd, Nat.zero_le _, by simp⟩
    · obtain ⟨a, s', ha, hs', hI, hlt⟩ := hstep s hs hd
      obtain ⟨as, t, hrun, ht, hlen, hfree⟩ := ih (rank s') (hn ▸ hlt) hI rfl
      refine ⟨a :: as, t, ?_, ht, ?_, ?_⟩
      · rw [run_cons hs']
        exact hrun
      · rw [List.length_cons]
        omega
      · simpa using ⟨ha, hfree⟩

end Transition.Machine
