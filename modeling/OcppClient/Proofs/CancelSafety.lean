import OcppClient.Proofs.StreamCuts

/-!
# Dropping the future of `recv`

Everything that `recv` carries from one `await` to the next is in the stream: `pending` says which
of its two `await`s the future stands at, so a call begun anew comes to where the dropped one stood.
Whatever futures are dropped, the stream goes through the states it goes through when none is, and
the calls that complete return what `recv`, called again and again, returns.
-/

namespace OcppClient

open Transition WebSocket

namespace Receiving

open EmbassyWsStream

variable {S ε : Type} (read : S → List UInt8 → Except ε ReadResult × S)

/-! ## What cancel safety is -/

/-- The steps that are not the caller's: an `await` that ends, and the sink's use of the codec. -/
def visible : RecvAct S → Option (RecvAct S)
  | .ready => some .ready
  | .sink f => some (.sink f)
  | .call | .start | .drop => none

/-- `recv` called again and again on `s` returns these and leaves the stream at the last one. -/
inductive Returns : EmbassyWsStream S → List (Except (RecvError ε) (Option TransportEvent)) →
    EmbassyWsStream S → Prop
  | nil {s : EmbassyWsStream S} : Returns s [] s
  | snoc {s t u : EmbassyWsStream S} {rs : List (Except (RecvError ε) (Option TransportEvent))}
    {r : Except (RecvError ε) (Option TransportEvent)} {n : ℕ} (h : Returns s rs t)
    (hr : recv read n t = some (r, u)) : Returns s (rs ++ [r]) u

/-- What the calls `acts` on the stream `s₀` have come to in `s` is what they come to when no future
is dropped. `undropped`: the same `await`s and the same uses of the codec lead to the same stream
and the same results without a drop. `returns`: where the sink does not interfere the results are
those of `recv`, and the next one will be. `bytes`: the codec was given each byte once, in order. -/
structure CancelSafe (s₀ : EmbassyWsStream S) (acts : List (RecvAct S)) (s : Receiving S ε) :
    Prop where
  undropped : ∃ acts' pc, .drop ∉ acts' ∧ acts'.filterMap visible = acts.filterMap visible
    ∧ (receiving read s₀).run (receiving read s₀).init acts' = some { s with pc := pc }
  returns : (∀ f, .sink f ∉ acts) → ∃ last, Returns read s₀ s.results last
    ∧ ∀ x, (∃ n, recv read n s.stream = some x) ↔ ∃ n, recv read n last = some x
  bytes : s.decoded ++ s.stream.pending ++ s.stream.reads.flatten = s₀.pending ++ s₀.reads.flatten

variable {read} {s s' : Receiving S ε}

/-! ## Without the drops -/

/-- A future that was polled stands where the top of the loop leads. -/
def Placed (s : Receiving S ε) : Prop := s.pc = .idle ∨ s.pc = .created ∨ s.pc = loopTop s.stream

theorem loopTop_ne (s : EmbassyWsStream S) : loopTop s ≠ .idle ∧ loopTop s ≠ .created := by
  unfold loopTop
  split_ifs <;> simp

theorem finish_pc (t : RecvTurn S ε) :
    (s.finish t).pc = .idle ∨ (s.finish t).pc = loopTop (s.finish t).stream := by
  cases t with
  | again => exact .inr rfl
  | returned => exact .inl rfl

/-- An `await` that ends takes the future to the top of the loop or out of `recv`. -/
theorem ready_pc (h : step read s .ready = some s') :
    s'.pc = .idle ∨ s'.pc = loopTop s'.stream := by
  simp only [step] at h
  split at h <;> cases h
  · unfold socketRead
    split
    · exact finish_pc _
    · split_ifs with hc
      · exact finish_pc _
      · refine .inr ?_
        simp_all [loopTop]
  · exact finish_pc _

theorem step_placed {a : RecvAct S} (h : step read s a = some s') (hs : s.Placed) : s'.Placed := by
  cases a with
  | call | start | drop =>
    simp only [step] at h
    split_ifs at h
    cases h
    simp [Placed]
  | ready => exact (ready_pc h).imp_right .inr
  | sink f =>
    cases h
    exact hs

/-- `t` is `s` but for the future, which in `t` was never dropped: a future of `s` that stands at an
`await` stands there in `t` too. -/
structure Undropped (s t : Receiving S ε) : Prop where
  placed : s.Placed
  same : t = { s with pc := t.pc }
  pc : t.pc = .idle ∨ t.pc = loopTop s.stream
  polled : s.pc = loopTop s.stream → t.pc = s.pc

variable (read) in
/-- From `t` the loop's top is reached by a call, where it has not been reached already. -/
theorem Undropped.catchUp {t : Receiving S ε} (h : Undropped s t) (s₀ : EmbassyWsStream S) :
    ∃ acts, (receiving read s₀).run t acts = some { s with pc := loopTop s.stream }
      ∧ (∀ b ∈ acts, b ≠ .drop) ∧ acts.filterMap (visible (S := S)) = [] := by
  rcases h.pc with hi | hi
  · refine ⟨[.call, .start], ?_, by simp, rfl⟩
    rw [h.same, hi]
    simp [Machine.run, receiving, step]
  · refine ⟨[], ?_, by simp, rfl⟩
    rw [h.same, hi]
    rfl

theorem undropped_step (s₀ : EmbassyWsStream S) {t : Receiving S ε} {a : RecvAct S}
    (hs : step read s a = some s') (h : Undropped s t) :
    ∃ acts t', (receiving read s₀).run t acts = some t' ∧ (∀ b ∈ acts, b ≠ .drop)
      ∧ acts.filterMap visible = (visible a).toList ∧ Undropped s' t' := by
  have hp := step_placed hs h.placed
  cases a with
  | call | drop =>
    simp only [step] at hs
    split_ifs at hs
    cases hs
    refine ⟨[], t, rfl, nofun, rfl, hp, by rw [h.same], h.pc, fun hc => ?_⟩
    exact absurd hc.symm (by first | exact (loopTop_ne _).1 | exact (loopTop_ne _).2)
  | start =>
    simp only [step] at hs
    split_ifs at hs
    cases hs
    obtain ⟨acts, hr, hd, hv⟩ := h.catchUp read s₀
    exact ⟨acts, _, hr, hd, hv, hp, rfl, .inr rfl, fun _ => rfl⟩
  | ready =>
    have hpc : s.pc = loopTop s.stream := by
      rcases h.placed with hi | hi | hi
      · simp [step, hi] at hs
      · simp [step, hi] at hs
      · exact hi
    have ht : t = s := by
      rw [h.same, h.polled hpc]
    refine ⟨[.ready], s', ?_, by simp, rfl, hp, rfl, ready_pc hs, fun _ => rfl⟩
    rw [ht]
    simpa [Machine.run, receiving] using hs
  | sink f =>
    cases hs
    refine ⟨[.sink f], _, rfl, by simp, rfl, hp, ?_, h.pc, h.polled⟩
    rw [h.same]

theorem exists_undropped (s₀ : EmbassyWsStream S) {acts : List (RecvAct S)}
    (h : (receiving read s₀).run (receiving read s₀).init acts = some s) :
    ∃ acts' pc, .drop ∉ acts' ∧ acts'.filterMap visible = acts.filterMap visible
      ∧ (receiving read s₀).run (receiving read s₀).init acts' = some { s with pc := pc } := by
  have h₀ : Undropped (receiving read s₀).init (receiving read s₀).init :=
    ⟨.inl rfl, rfl, .inl rfl, fun _ => rfl⟩
  obtain ⟨acts', t, hr, hd, hv, hu⟩ := Machine.run_simulation (r := Undropped)
    (fun s a s' t hs hu => undropped_step s₀ hs hu) acts h h₀
  exact ⟨acts', t.pc, fun hm => hd _ hm rfl, hv, hu.same ▸ hr⟩

/-! ## The results -/

/-- A call goes on from `s` as one begun at `last`, `k` turns later. -/
def Resumes (read : S → List UInt8 → Except ε ReadResult × S) (last s : EmbassyWsStream S) :
    Prop :=
  ∃ k, ∀ n, recv read (n + k) last = recv read n s

theorem Resumes.iff {last s : EmbassyWsStream S} (h : Resumes read last s)
    (x : Except (RecvError ε) (Option TransportEvent) × EmbassyWsStream S) :
    (∃ n, recv read n s = some x) ↔ ∃ n, recv read n last = some x := by
  obtain ⟨k, hk⟩ := h
  constructor
  · rintro ⟨n, hn⟩
    exact ⟨n + k, (hk n).trans hn⟩
  · rintro ⟨n, hn⟩
    exact ⟨n, (hk n).symm.trans (recv_add k hn)⟩

/-- The calls that completed returned what `recv` returns, and the next goes on from the last. -/
def Followed (read : S → List UInt8 → Except ε ReadResult × S) (s₀ : EmbassyWsStream S)
    (s : Receiving S ε) : Prop :=
  ∃ last, Returns read s₀ s.results last ∧ Resumes read last s.stream

theorem Followed.finish {s₀ : EmbassyWsStream S} (h : Followed read s₀ s) :
    Followed read s₀ (s.finish (turn read s.stream)) := by
  obtain ⟨last, hret, k, hk⟩ := h
  cases ht : turn read s.stream with
  | again t =>
    refine ⟨last, hret, k + 1, fun n => ?_⟩
    rw [← Nat.add_assoc, Nat.add_right_comm, hk, recv, ht]
    rfl
  | returned r t =>
    have hr : recv read 1 s.stream = some (r, t) := by
      simp only [recv, ht]
    exact ⟨t, hret.snoc ((hk 1).trans hr), 0, fun n => rfl⟩

/-- The two `await`s of a turn are told apart by `pending`. -/
theorem Placed.pending (hp : s.Placed) :
    (s.pc = .reading → s.stream.pending = []) ∧ (s.pc = .locking → s.stream.pending ≠ []) := by
  rcases hp with h | h | h
  · simp [h]
  · simp [h]
  · rw [h, loopTop]
    split_ifs with he
    · simpa using he
    · simpa using he

theorem Followed.step {s₀ : EmbassyWsStream S} {a : RecvAct S} (ha : ∀ f, a ≠ .sink f)
    (hs : step read s a = some s') (hp : s.Placed) (h : Followed read s₀ s) :
    Followed read s₀ s' := by
  cases a with
  | call | start | drop =>
    simp only [Receiving.step] at hs
    split_ifs at hs
    cases hs
    exact h
  | sink f => exact absurd rfl (ha f)
  | ready =>
    simp only [Receiving.step] at hs
    split at hs
    · next hpc =>
      have hnil := hp.pending.1 hpc
      cases hs
      unfold socketRead
      split
      · next hr =>
        have ht : turn read s.stream
            = .returned (s.stream.eof.mapError .tcp |>.map fun _ => none) s.stream := by
          simp [turn, hnil, hr]
        exact ht ▸ h.finish
      · next chunk reads hr =>
        split_ifs with hc
        · have ht : turn read s.stream = .returned (.ok none) { s.stream with reads := reads } := by
            simp [turn, hnil, hr, hc]
          exact ht ▸ h.finish
        · -- the same turn, begun with the bytes in hand
          obtain ⟨last, hret, k, hk⟩ := h
          refine ⟨last, hret, k, fun n => (hk n).trans ?_⟩
          cases n with
          | zero => rfl
          | succ n => simp [recv, turn, hnil, hr, hc]
    · next hpc =>
      have ht : turn read s.stream = s.stream.decode read := by
        simp [turn, hp.pending.2 hpc]
      cases hs
      have h' : Followed read s₀ { s with decoded := s.decoded ++ taken read s.stream } := h
      exact ht ▸ h'.finish
    · cases hs
    · cases hs

/-! ## The bytes -/

/-- The bytes of the stream: those the codec was given, and those to come. -/
def allBytes (s : Receiving S ε) : List UInt8 :=
  s.decoded ++ s.stream.pending ++ s.stream.reads.flatten

theorem handleResult_bytes (stream : EmbassyWsStream S) (r : ReadResult) :
    (s.finish (handleResult stream r)).allBytes
      = s.decoded ++ stream.pending ++ stream.reads.flatten := by
  unfold handleResult
  split
  · simp only []
    split_ifs
    · split <;> rfl
    · rfl
  all_goals rfl

theorem step_bytes {a : RecvAct S} (hs : step read s a = some s') (hp : s.Placed) :
    s'.allBytes = s.allBytes := by
  cases a with
  | call | start | drop =>
    simp only [step] at hs
    split_ifs at hs
    cases hs
    rfl
  | sink f =>
    cases hs
    rfl
  | ready =>
    simp only [step] at hs
    split at hs
    · next hpc =>
      have hnil := hp.pending.1 hpc
      cases hs
      unfold socketRead
      split
      · rfl
      · next chunk reads hr =>
        split_ifs with hc
        · have hce : chunk = [] := List.isEmpty_iff.1 hc
          simp [finish, allBytes, hr, hce]
        · simp [allBytes, hr, hnil]
    · cases hs
      unfold decode taken
      rcases read s.stream.ws s.stream.pending with ⟨e | r, ws⟩
      · simp [finish, allBytes]
      · simp only [handleResult_bytes]
        simp [allBytes]
    · cases hs
    · cases hs

/-! ## Every pattern of drops -/

/-- However the futures of `recv` are dropped and begun again. -/
theorem cancelSafe_of_run (s₀ : EmbassyWsStream S) {acts : List (RecvAct S)}
    (h : (receiving read s₀).run (receiving read s₀).init acts = some s) :
    CancelSafe read s₀ acts s := by
  refine ⟨exists_undropped s₀ h, fun hsink => ?_, ?_⟩
  · have hr : (receiving read s₀).Reach (fun _ a => ∀ f, a ≠ .sink f) s :=
      Machine.reach_of_run acts .init (Machine.meets_of_forall acts _
        fun a ha f hf => hsink f (hf ▸ ha)) h
    obtain ⟨-, last, hret, hres⟩ := hr.invariant (I := fun s => s.Placed ∧ Followed read s₀ s)
      ⟨.inl rfl, s₀, .nil, 0, fun _ => rfl⟩
      fun s a s' _ ha hs hI => ⟨step_placed hs hI.1, hI.2.step ha hs hI.1⟩
    exact ⟨last, hret, hres.iff⟩
  · exact (Machine.run_invariant (I := fun s => s.Placed ∧ s.allBytes
      = s₀.pending ++ s₀.reads.flatten) (fun s a s' hs hI =>
        ⟨step_placed hs hI.1, (step_bytes hs hI.1).trans hI.2⟩) acts ⟨.inl rfl, rfl⟩ h).2

/-- The text `"Hi"` in three reads, and a future dropped before it is polled, at the socket with a
part of the text read, and at the lock of the codec with a part of it in `pending`. -/
def droppedThrice : List (RecvAct Reader) :=
  [.call, .drop, .call, .start, .ready, .ready, .drop, .call, .start, .ready, .drop, .call, .start,
    .ready, .ready, .ready]

theorem cancelSafe_of_droppedThrice :
    ∃ s, (receiving Reader.read (new ⟨none, none⟩ (.ok ()) [[129, 2], [72], [105]])).run
        (receiving Reader.read (new ⟨none, none⟩ (.ok ()) [[129, 2], [72], [105]])).init
        droppedThrice = some s
      ∧ s.results = [.ok (some (.frame "Hi"))]
      ∧ CancelSafe Reader.read (new ⟨none, none⟩ (.ok ()) [[129, 2], [72], [105]])
        droppedThrice s := by
  exact ⟨_, rfl, rfl, cancelSafe_of_run _ rfl⟩

end Receiving

end OcppClient
