import OcppClient.Client
import OcppClient.Lib.History

/-!
# The history of a run

Which part of the client records an event, and that the history only grows. A step says by which
kinds of events, so a fact about other kinds is kept at once.
-/

namespace OcppClient

open History

variable {E R : Type}

/-! ## Kinds of events -/

/-- Which part of the client records an event: a call, the read loop handling a response, going its
way or passing from one transport to the next, a `force_reconnect`, a `disconnect`, a ping, the
keepalive loop giving up, or any writer. -/
inductive Kind
  | call
  | handled
  | loop
  | passage
  | raised
  | closed
  | ping
  | escalated
  | issued
  deriving DecidableEq

@[simp] def Event.kind : Event E → Kind
  | .call (.handled _ _) => .handled
  | .call _ => .call
  | .loop (.raised _) => .raised
  | .loop .closed => .closed
  | .loop .woken => .passage
  | .loop (.exit .forced _) => .passage
  | .loop (.exit .shutdown _) => .passage
  | .loop (.swapped _) => .passage
  | .loop .reconnected => .passage
  | .loop _ => .loop
  | .ping (.escalated _ _) => .escalated
  | .ping _ => .ping
  | .issued _ _ _ => .issued

/-- The history goes on with events of the kinds `ks` only. -/
def Grows (ks : List Kind) (h h' : List (Event E)) : Prop :=
  ∃ evs, h' = h ++ evs ∧ ∀ e ∈ evs, e.kind ∈ ks

theorem Grows.refl (ks : List Kind) (h : List (Event E)) : Grows ks h h :=
  ⟨[], by simp, by simp⟩

theorem Grows.snoc {ks : List Kind} {h : List (Event E)} {e : Event E} (he : e.kind ∈ ks) :
    Grows ks h (h ++ [e]) :=
  ⟨[e], rfl, by simpa using he⟩

theorem Grows.trans {ks : List Kind} {h h' h'' : List (Event E)} (h₁ : Grows ks h h')
    (h₂ : Grows ks h' h'') : Grows ks h h'' := by
  obtain ⟨evs, rfl, hk⟩ := h₁
  obtain ⟨evs', rfl, hk'⟩ := h₂
  refine ⟨evs ++ evs', by simp, fun e he => ?_⟩
  rcases List.mem_append.1 he with he | he
  · exact hk e he
  · exact hk' e he

theorem Grows.mono {ks ks' : List Kind} {h h' : List (Event E)} (hg : Grows ks h h')
    (hks : ks ⊆ ks') : Grows ks' h h' := by
  obtain ⟨evs, rfl, hk⟩ := hg
  exact ⟨evs, rfl, fun e he => hks (hk e he)⟩

theorem Grows.mem {ks : List Kind} {h h' : List (Event E)} (hg : Grows ks h h') {e : Event E}
    (he : e ∈ h) : e ∈ h' := by
  obtain ⟨evs, rfl, -⟩ := hg
  exact List.mem_append_left _ he

/-- An event of another kind was there before. -/
theorem Grows.of_mem {ks : List Kind} {h h' : List (Event E)} (hg : Grows ks h h') {e : Event E}
    (he : e ∈ h') (hk : e.kind ∉ ks) : e ∈ h := by
  obtain ⟨evs, rfl, hevs⟩ := hg
  rcases List.mem_append.1 he with he | he
  · exact he
  · exact absurd (hevs e he) hk

theorem Grows.always {ks : List Kind} {h h' : List (Event E)} (hg : Grows ks h h')
    {Q : List (Event E) → Event E → Prop} (hQ : Always Q h)
    (hk : ∀ e, e.kind ∈ ks → ∀ pre, Q pre e) : Always Q h' := by
  obtain ⟨evs, rfl, hevs⟩ := hg
  exact hQ.append fun e he => hk e (hevs e he)

/-- The events a projection keeps are not of the kinds the history grew by. -/
theorem Grows.filterMap {ks : List Kind} {h h' : List (Event E)} (hg : Grows ks h h') {β : Type}
    {f : Event E → Option β} (hf : ∀ e, e.kind ∈ ks → f e = none) :
    h'.filterMap f = h.filterMap f := by
  obtain ⟨evs, rfl, hevs⟩ := hg
  rw [List.filterMap_append, List.filterMap_eq_nil_iff.2 fun e he => hf e (hevs e he),
    List.append_nil]

/-- The events a fold reads are not of the kinds the history grew by. -/
theorem Grows.foldl {ks : List Kind} {h h' : List (Event E)} (hg : Grows ks h h') {β : Type}
    {f : β → Event E → β} (hf : ∀ e, e.kind ∈ ks → ∀ b, f b e = b) (b : β) :
    h'.foldl f b = h.foldl f b := by
  obtain ⟨evs, rfl, hevs⟩ := hg
  induction evs generalizing h with
  | nil => simp
  | cons e evs ih =>
    rw [← List.singleton_append, ← List.append_assoc, ih fun e he => hevs e (by simp [he])]
    simp [hf e (hevs e (by simp))]

theorem Grows.countP {ks : List Kind} {h h' : List (Event E)} (hg : Grows ks h h')
    {p : Event E → Bool} (hp : ∀ e, e.kind ∈ ks → p e = false) : h'.countP p = h.countP p := by
  obtain ⟨evs, rfl, hevs⟩ := hg
  have h₀ : evs.countP p = 0 := by simpa using fun e he => by simpa using hp e (hevs e he)
  rw [List.countP_append, h₀, Nat.add_zero]

/-! ## The sink's mutex -/

section Mutex

variable {s s' : State E R}

theorem issue_map {t : Task} {op : SinkOp} {f : State E R → State E R}
    (h : (s.issue t op).map f = some s') :
    s.holder = none ∧ s' = f
      { s with holder := some t, pended := false, hist := s.hist ++ [.issued t s.sink op] } := by
  unfold State.issue at h
  split_ifs at h with hn
  · exact ⟨hn, by simpa using h.symm⟩
  · simp at h

theorem pend_eq (h : s.pend = some s') : s.pended = false ∧ s' = { s with pended := true } := by
  unfold State.pend at h
  split_ifs at h with hp
  exact ⟨by simpa using hp, by simpa using h.symm⟩

end Mutex

end OcppClient
