import OcppClient.Proofs.Footprint

/-!
# From one transport to the next

The steps by which the read loop takes its wake signal, leaves a transport, dials and installs the
next one. Every other step of the loop keeps the signal and the transport, and does not bring it to
the swap.
-/

namespace OcppClient

variable {E R : Type} [ProtocolError E] (env : Env R) (cfg : ClientConfig) {s s' : State E R}

inductive Passage (s s' : State E R) : Poll → Prop
  | wake (hr : s.read = .recv) (h : readWoken cfg s = some s') : Passage s s' .ready
  | backoff {d : Duration} (hr : s.read = .backoff d) (hw : s.wake = true)
    (h : s' = beginDial { s with wake := false, hist := s.hist ++ [.loop .woken] }) :
    Passage s s' .ready
  | dialled {b : Bool} {r : Unit} (hr : s.read = .dial b)
    (h : s' = { s with read := .lockSwap s.nextSink, nextSink := s.nextSink + 1 }) :
    Passage s s' (.done (.ok r))
  | swap {k : SinkId} (hr : s.read = .lockSwap k) (hn : s.holder = none)
    (h : s' = { s with
      sink := k, stream := k, read := .notifyReconnect, hist := s.hist ++ [.loop (.swapped k)] }) :
    Passage s s' .ready
  | broadcast (hr : s.read = .notifyReconnect)
    (h : s' = { s.notifyAll .reconnect with
      read := .recv, hist := s.hist ++ [.loop .reconnected] }) : Passage s s' .ready
  | other {p : Poll} (hk : s'.sink = s.sink) (ht : s'.stream = s.stream) (hw : s'.wake = s.wake)
    (hi : ¬ Installing s'.read) (hg : Grows [.handled, .loop, .issued] s.hist s'.hist) :
    Passage s s' p

theorem readPoll_passage {p : Poll} (hs : readPoll env cfg s p = some s') : Passage cfg s s' p := by
  have hgr : Grows [.handled, .loop, .issued] s.hist s.hist := .refl _ _
  cases readPoll_moves env cfg hs with
  | wake hr h => exact .wake hr h
  | wokenDial hr hw h => exact .backoff hr hw h
  | dialled hr h => exact .dialled hr h
  | swap hr hn h => exact .swap hr hn h
  | broadcast hr h => exact .broadcast hr h
  | lookup _ _ h => exact h ▸ .other rfl rfl rfl id hgr
  | push _ h => exact h ▸ .other rfl rfl rfl id hgr
  | acquire hr _ h => exact h ▸ .other rfl rfl rfl hr.operating.not_installing (.snoc (by simp))
  | pend hr _ h => exact h ▸ .other rfl rfl rfl hr.not_installing hgr
  | release hr h => exact h ▸ .other rfl rfl rfl hr.resting.not_installing hgr
  | resolve _ h => exact h ▸ .other rfl rfl rfl id (.snoc (by simp))
  | pong _ h =>
    have hread := resolvePong_read s
    obtain ⟨rd, ws, po, hp, -⟩ := resolvePong_footprint s _
    refine h ▸ .other (by rw [hp]) (by rw [hp]) (by rw [hp]) ?_ (by rw [hp]; exact hgr)
    rw [hread]
    exact id
  | notify _ h => exact h ▸ .other rfl rfl rfl id hgr
  | go hr h => exact h ▸ .other rfl rfl rfl hr.resting.2.not_installing hgr
  | clear _ h => exact h ▸ .other rfl rfl rfl id hgr
  | backoff _ h => exact h ▸ .other rfl rfl rfl id hgr
  | redial _ h => exact h ▸ .other rfl rfl rfl id hgr
  | dial _ h =>
    have hrest := (beginDial_resting s).not_installing
    obtain ⟨rd, h', hb, hg⟩ := beginDial_footprint s
    exact h ▸ .other (by rw [hb]) (by rw [hb]) (by rw [hb]) hrest
      (by rw [hb]; exact hg.mono (by simp))
  | dialPend _ h => exact h ▸ .other rfl rfl rfl id hgr

theorem readRecv_passage {e : Option TransportEvent} (h : readRecv env cfg s e = some s') :
    s'.sink = s.sink ∧ s'.stream = s.stream ∧ s'.wake = s.wake ∧ ¬ Installing s'.read
      ∧ Grows [.loop] s.hist s'.hist := by
  have hi : ¬ Installing s'.read := by
    rcases (readRecv_leads env cfg h).2 with hr | ⟨id, v, hr⟩
    · exact hr.not_installing
    · rw [hr]
      exact not_false
  obtain ⟨rd, n, h', hs', hg⟩ := readRecv_footprint env cfg h
  rw [hs'] at hi ⊢
  exact ⟨rfl, rfl, rfl, hi, hg⟩

/-! ## The transports are numbered in order -/

/-- The loop reads the transport that is installed, and the one it is about to install is new. -/
structure Installed (s : State E R) : Prop where
  stream : s.stream = s.sink
  fresh : s.sink < s.nextSink
  swap : ∀ k, s.read = .lockSwap k → s.sink < k ∧ k < s.nextSink

theorem readPoll_nextSink {p : Poll} (hs : readPoll env cfg s p = some s') :
    s'.nextSink = s.nextSink ∨ s' = { s with
      read := .lockSwap s.nextSink, nextSink := s.nextSink + 1 } := by
  cases readPoll_moves env cfg hs with
  | dialled _ h => exact .inr h
  | wake _ h =>
    obtain ⟨_, _, rfl, -⟩ := readWoken_footprint cfg h
    exact .inl rfl
  | @pong token _ h =>
    obtain ⟨_, _, _, hp, -⟩ := resolvePong_footprint s token
    exact .inl (by rw [h, hp])
  | dial _ h =>
    obtain ⟨_, _, hb, -⟩ := beginDial_footprint s
    exact .inl (by rw [h, hb])
  | wokenDial _ _ h =>
    obtain ⟨_, _, hb, -⟩ :=
      beginDial_footprint { s with wake := false, hist := s.hist ++ [.loop .woken] }
    exact .inl (by rw [h, hb])
  | lookup _ _ h | acquire _ _ h | pend _ _ h | swap _ _ h => exact .inl (by subst h; rfl)
  | push _ h | release _ h | resolve _ h | notify _ h | go _ h | clear _ h | backoff _ h
  | redial _ h | dialPend _ h | broadcast _ h => exact .inl (by subst h; rfl)

omit [ProtocolError E] in
theorem Installed.keep (hI : Installed s) (hk : s'.sink = s.sink) (ht : s'.stream = s.stream)
    (hn : s'.nextSink = s.nextSink) (hr : s'.read = s.read ∨ ¬ Installing s'.read) :
    Installed s' := by
  refine ⟨by rw [ht, hk]; exact hI.stream, by rw [hk, hn]; exact hI.fresh, fun k h => ?_⟩
  rw [hk, hn]
  rcases hr with hr | hr
  · exact hI.swap k (hr ▸ h)
  · exact absurd (by rw [h]; trivial) hr

theorem Installed.read (hI : Installed s) {p : Poll} (hs : readPoll env cfg s p = some s') :
    Installed s' := by
  rcases readPoll_nextSink env cfg hs with hn | h
  · cases readPoll_passage env cfg hs with
    | wake hr h =>
      have hi := (readWoken_resting cfg h hr).not_installing
      obtain ⟨_, _, rfl, -⟩ := readWoken_footprint cfg h
      exact hI.keep rfl rfl rfl (.inr hi)
    | backoff hr hw h =>
      have hi := (beginDial_resting
        { s with wake := false, hist := s.hist ++ [.loop .woken] }).not_installing
      obtain ⟨_, _, hb, -⟩ :=
        beginDial_footprint { s with wake := false, hist := s.hist ++ [.loop .woken] }
      rw [hb] at hi h
      exact h ▸ hI.keep rfl rfl rfl (.inr hi)
    | dialled _ h =>
      rw [h] at hn
      exact absurd hn (Nat.succ_ne_self _)
    | swap hr _ h =>
      subst h
      exact ⟨rfl, (hI.swap _ hr).2, by simp⟩
    | broadcast _ h =>
      subst h
      exact hI.keep rfl rfl rfl (.inr id)
    | other hk ht _ hi _ => exact hI.keep hk ht hn (.inr hi)
  · subst h
    refine ⟨hI.stream, Nat.lt_succ_of_lt hI.fresh, fun k h => ?_⟩
    simp only [ReadPc.lockSwap.injEq] at h
    exact h ▸ ⟨hI.fresh, Nat.lt_succ_self _⟩

theorem installed_of_reach {P : State E R → Act E → Prop}
    (h : Transition.Machine.Reach (client env cfg) P s) : Installed s := by
  refine h.invariant (I := Installed) ⟨rfl, Nat.zero_lt_one, by simp [client, State.new]⟩
    fun s a s' _ _ hs hI => ?_
  have hrecv : ∀ e, readRecv env cfg s e = some s' → Installed s' := fun e h => by
    obtain ⟨hk, ht, -, hi, -⟩ := readRecv_passage env cfg h
    obtain ⟨_, _, _, rfl, -⟩ := readRecv_footprint env cfg h
    exact hI.keep hk ht rfl (.inr hi)
  rcases counters_of_step env cfg hs with ⟨e, h⟩ | ⟨p, h⟩ | ⟨-, hn⟩
  · exact hrecv e h
  · exact hI.read env cfg h
  · exact (loop_cases env cfg hs).elim env cfg hrecv (fun p h => hI.read env cfg h)
      fun ho => hI.keep ho.sink ho.stream hn (.inl ho.read)

omit [ProtocolError E] in
/-- A step of the read loop keeps the transport, or is a swap. -/
theorem Passage.sink_or_swap {p : Poll} (h : Passage cfg s s' p) :
    s'.sink = s.sink ∨ p = .ready ∧ ∃ k, s.read = .lockSwap k
      ∧ s' = { s with
        sink := k, stream := k, read := .notifyReconnect
        hist := s.hist ++ [.loop (.swapped k)] } := by
  cases h with
  | wake _ h =>
    obtain ⟨_, _, rfl, -⟩ := readWoken_footprint cfg h
    exact .inl rfl
  | backoff _ _ h =>
    obtain ⟨_, _, hd, -⟩ :=
      beginDial_footprint { s with wake := false, hist := s.hist ++ [.loop .woken] }
    exact .inl (by rw [h, hd])
  | dialled _ h => exact .inl (by rw [h])
  | swap hr _ h => exact .inr ⟨rfl, _, hr, h⟩
  | broadcast _ h => exact .inl (by rw [h]; rfl)
  | other hk => exact .inl hk

/-- A step leaves the sink, or installs a later one. -/
theorem sink_of_step (hI : Installed s) {a : Act E} (hs : step env cfg s a = some s') :
    s'.sink = s.sink ∨ s.sink < s'.sink := by
  refine (loop_cases env cfg hs).elim env cfg (fun e h => .inl (readRecv_passage env cfg h).1)
    (fun p h => ?_) fun ho => .inl ho.sink
  rcases (readPoll_passage env cfg h).sink_or_swap with hk | ⟨-, k, hr, rfl⟩
  · exact .inl hk
  · exact .inr (hI.swap k hr).1

end OcppClient
