import OcppClient.Proofs.Calls

/-!
# Call correlation

The client simulates the correlation table of its calls, and a handled response comes from the frame
the read loop received last. Together they say which response a call returns, that a frame resolves
one call at most, and what `pending_responses` holds.
-/

namespace OcppClient

open Transition History

variable {E R : Type}

/-! ## The table -/

/-- The operation on the table that an event records. -/
def Event.label : Event E → Option (Correlation.Label Uuid ℕ (Except E Value))
  | .call (.registered c id _) => some (.register c id)
  | .call (.handled id v) => some (.resolve id v)
  | .call (.forgot c id) => some (.forget c id)
  | .call (.took c v) => some (.take c v)
  | _ => none

theorem Grows.label {ks : List Kind} {h h' : List (Event E)} (hg : Grows ks h h') (hk : .call ∉ ks)
    (hk' : .handled ∉ ks) : h'.filterMap Event.label = h.filterMap Event.label := by
  refine hg.filterMap fun e he => ?_
  rcases e with (_ | _ | _ | _) | _ | _ | _
  · exact absurd he hk
  · exact absurd he hk'
  · exact absurd he hk
  · exact absurd he hk
  all_goals rfl

variable [ProtocolError E] (env : Env R) (cfg : ClientConfig) {s s' : State E R}

/-- The last event received is a frame that reads as the response `v` to `id`, and nothing has been
handled since. -/
def FromFrame (h : List (Event E)) (id : Uuid) (v : Except E Value) : Prop :=
  ∃ pre f mid, h = pre ++ .loop (.received (.frame f)) :: mid ∧ (∀ e, .loop (.received e) ∉ mid)
    ∧ (∀ id v, .call (.handled id v) ∉ mid) ∧ dispatch env f = .response id v

/-- Where a response is handled, it came in the frame received last. -/
def HandledFromFrame (pre : List (Event E)) (e : Event E) : Prop :=
  ∀ id v, e = .call (.handled id v) → FromFrame env pre id v

theorem FromFrame.grows {ks : List Kind} {h h' : List (Event E)} {id : Uuid} {v : Except E Value}
    (hF : FromFrame env h id v) (hg : Grows ks h h') (hl : .loop ∉ ks) (hh : .handled ∉ ks) :
    FromFrame env h' id v := by
  obtain ⟨pre, f, mid, rfl, h₁, h₂, hd⟩ := hF
  obtain ⟨evs, rfl, hk⟩ := hg
  refine ⟨pre, f, mid ++ evs, by simp, fun e hm => ?_, fun id v hm => ?_, hd⟩
  · exact (List.mem_append.1 hm).elim (h₁ e) fun hm => hl (hk _ hm)
  · exact (List.mem_append.1 hm).elim (h₂ id v) fun hm => hh (hk _ hm)

/-- The read loop comes to the lock of `pending_responses` from a frame only. -/
theorem readPoll_read_ne {p : Poll} (hs : readPoll env cfg s p = some s') (id : Uuid)
    (v : Except E Value) : s'.read ≠ .lockPending id v := by
  intro hr
  cases (readPoll_moves env cfg hs).leads env cfg with
  | rest h => rw [hr] at h; exact h
  | operation h => rw [hr] at h; exact h
  | lookup _ h => cases hr.symm.trans h
  | dialPend _ h => cases hr.symm.trans h
  | installing h => rw [hr] at h; exact h

theorem handleEvent_read {e : TransportEvent} {id : Uuid} {v : Except E Value}
    (h : (handleEvent env s e).read = .lockPending id v) :
    ∃ f, e = .frame f ∧ dispatch env f = .response id v := by
  unfold handleEvent at h
  cases e with
  | ping => simp at h
  | pong => simp at h
  | frame f =>
    refine ⟨f, rfl, ?_⟩
    simp only [handleFrame] at h
    split at h <;> simp_all

/-- The read loop stands at the lock of `pending_responses` with what the last frame said. -/
structure FrameInv (s : State E R) : Prop where
  lock : ∀ id v, s.read = .lockPending id v → FromFrame env s.hist id v
  handled : Always (HandledFromFrame env) s.hist

theorem handledFromFrame_of_kind {e : Event E} (he : e.kind ≠ .handled) (pre : List (Event E)) :
    HandledFromFrame env pre e := by
  rintro id v rfl
  exact absurd rfl he

theorem FrameInv.recv (hI : FrameInv env s) {e : Option TransportEvent}
    (h : readRecv env cfg s e = some s') : FrameInv env s' := by
  obtain ⟨rd, n, h', hs', hg⟩ := readRecv_footprint env cfg h
  have halways : Always (HandledFromFrame env) s'.hist := by
    rw [hs']
    refine hg.always hI.handled fun e he => handledFromFrame_of_kind env ?_
    rw [List.mem_singleton.1 he]
    decide
  refine ⟨fun id v hr => ?_, halways⟩
  unfold readRecv at h
  split at h
  case h_2 => cases h
  split at h
  · next e =>
    cases h
    obtain ⟨f, rfl, hd⟩ := handleEvent_read env hr
    exact ⟨s.hist, f, [], rfl, by simp, by simp, hd⟩
  · cases h
    simp only [leave] at hr
    split_ifs at hr

theorem FrameInv.read (hI : FrameInv env s) {p : Poll} (h : readPoll env cfg s p = some s') :
    FrameInv env s' := by
  refine ⟨fun id v hr => absurd hr (readPoll_read_ne env cfg h id v), ?_⟩
  rcases (readPoll_frame env cfg h).pending with ⟨-, -, hg⟩ | ⟨id, v, hr, rfl⟩
  · refine hg.always hI.handled fun e he => handledFromFrame_of_kind env ?_
    rintro hk
    rw [hk] at he
    simp at he
  · refine hI.handled.snoc ?_
    rintro id' v' he
    cases he
    exact hI.lock id v hr

theorem frameInv_of_reach {P : State E R → Act E → Prop}
    (h : Machine.Reach (client env cfg) P s) : FrameInv env s := by
  refine h.invariant ⟨by simp [client, State.new], .nil⟩ fun s a s' _ _ hs hI => ?_
  refine (loop_cases env cfg hs).elim _ _ (fun _ => hI.recv env cfg) (fun _ => hI.read env cfg)
    fun hf => ⟨fun id v hr => ?_, hf.grows.always hI.handled fun e he =>
      handledFromFrame_of_kind env fun hk => ?_⟩
  · rw [hf.read] at hr
    exact (hI.lock id v hr).grows env hf.grows (by simp) (by simp)
  · rw [hk] at he
    simp at he

/-! ## What a call returns -/

/-- Between a frame and the response handled from it nothing else is handled. -/
theorem Resolves.place {P : State E R → Act E → Prop} (hr : Machine.Reach (client env cfg) P s)
    {pre mid post : List (Event E)} {f : String} {id : Uuid} {v : Except E Value}
    (hh : s.hist = pre ++ .loop (.received (.frame f)) :: (mid ++ .call (.handled id v) :: post))
    (hmid : ∀ e, .loop (.received e) ∉ mid) : ∀ id v, .call (.handled id v) ∉ mid := by
  have hh' : s.hist
      = (pre ++ .loop (.received (.frame f)) :: mid) ++ .call (.handled id v) :: post := by
    rw [hh]; simp
  obtain ⟨pre₂, f₂, mid₂, he, h₁, h₂, -⟩ :=
    (frameInv_of_reach env cfg hr).handled _ _ _ hh' _ _ rfl
  have hlast := split_last (p := fun e => ∃ t, e = Event.loop (.received t)) he ⟨_, rfl⟩ ⟨_, rfl⟩
    (by rintro _ hx ⟨t, rfl⟩; exact hmid t hx) (by rintro _ hx ⟨t, rfl⟩; exact h₁ t hx)
  rw [hlast.2.2]
  exact h₂

end OcppClient
