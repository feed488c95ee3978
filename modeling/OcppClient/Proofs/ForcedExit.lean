import OcppClient.Proofs.Passage

/-!
# Forced reconnects and the transport they are raised against

The wake signal is one latch with no notion of a transport. Raised while the loop dials, it is still
set after the swap and makes the loop leave the transport it has just installed. While no transport
is swapped in with the signal set, a forced exit answers calls made since that transport was
installed.
-/

namespace OcppClient

open Transition History

variable {E R : Type}

/-- The transports of the `force_reconnect`s that wait in the latch, after one more event. -/
def latch (l : List SinkId) : Event E → List SinkId
  | .loop (.raised k) => l ++ [k]
  | .loop .woken => []
  | .loop (.exit .forced _) => []
  | .loop (.exit .shutdown _) => []
  | _ => l

/-- The transports that the `force_reconnect`s not yet consumed were raised against. -/
def latched (h : List (Event E)) : List SinkId := h.foldl latch []

/-- A forced exit leaves the transport that every call in the latch was raised against. -/
def ForcedOwn (pre : List (Event E)) (e : Event E) : Prop :=
  ∀ k, e = .loop (.exit .forced k) → ∀ j ∈ latched pre, j = k

def ForcedExitsOwn (s : State E R) : Prop := Always ForcedOwn s.hist

/-- A transport is not swapped in with the signal set, unless the client is closed. -/
def CleanSwap (s : State E R) : Act E → Prop
  | .poll .read .ready => ∀ k, s.read = .lockSwap k → s.wake = true → s.closed = true
  | _ => True

@[simp] theorem latched_snoc (h : List (Event E)) (e : Event E) :
    latched (h ++ [e]) = latch (latched h) e := by
  simp [latched]

theorem latch_of_kind {e : Event E} (hr : e.kind ≠ .raised) (hp : e.kind ≠ .passage)
    (l : List SinkId) : latch l e = l := by
  unfold latch
  split
  · exact absurd rfl hr
  · exact absurd rfl hp
  · exact absurd rfl hp
  · exact absurd rfl hp
  · rfl

theorem Grows.latched {ks : List Kind} {h h' : List (Event E)} (hg : Grows ks h h')
    (hr : .raised ∉ ks) (hp : .passage ∉ ks) : latched h' = latched h :=
  hg.foldl (fun _ he l => latch_of_kind (fun h => hr (h ▸ he)) (fun h => hp (h ▸ he)) l) []

theorem Grows.forcedOwn {ks : List Kind} {h h' : List (Event E)} (hg : Grows ks h h')
    (hp : .passage ∉ ks) (ha : Always ForcedOwn h) : Always ForcedOwn h' := by
  refine hg.always ha fun e he pre k hk => ?_
  subst hk
  exact absurd he hp

structure LatchInv (s : State E R) : Prop where
  clear : s.wake = false → latched s.hist = []
  own : s.closed = true ∨ ∀ j ∈ latched s.hist, j = s.sink
  stream : s.stream = s.sink
  exits : Always ForcedOwn s.hist

variable {s s' : State E R}

theorem LatchInv.keep (hI : LatchInv s) {ks : List Kind} (hw : s'.wake = s.wake)
    (hc : s'.closed = s.closed) (hk : s'.sink = s.sink) (ht : s'.stream = s.stream)
    (hg : Grows ks s.hist s'.hist) (hr : .raised ∉ ks) (hp : .passage ∉ ks) : LatchInv s' := by
  have hl := hg.latched hr hp
  refine ⟨?_, ?_, by rw [ht, hk]; exact hI.stream, hg.forcedOwn hp hI.exits⟩
  · rw [hw, hl]
    exact hI.clear
  · rw [hc, hl, hk]
    exact hI.own

theorem LatchInv.raises (hI : LatchInv s) (hc : s'.closed = s.closed) (hk : s'.sink = s.sink)
    (ht : s'.stream = s.stream) (hr : Raises s s'.wake s'.hist) : LatchInv s' := by
  rcases hr with ⟨hw, hg⟩ | ⟨hcl, hw, h₁, hg, hh⟩
  · exact hI.keep hw hc hk ht hg (by simp) (by simp)
  · have hl := hg.latched (by simp) (by simp)
    have hown := hI.own.resolve_left (by simp [hcl])
    refine ⟨fun h => by simp [hw] at h, .inr fun j hj => ?_, by rw [ht, hk]; exact hI.stream, ?_⟩
    · rw [hh, latched_snoc, hl] at hj
      rw [hk]
      rcases List.mem_append.1 hj with hj | hj
      · exact hown j hj
      · exact List.mem_singleton.1 hj
    · rw [hh]
      exact (hg.forcedOwn (by simp) hI.exits).snoc (by simp [ForcedOwn])

/-- The signal is consumed, by a forced exit or otherwise. -/
theorem LatchInv.consume (hI : LatchInv s) {e : Event E} (he : latch (latched s.hist) e = [])
    (hf : ForcedOwn s.hist e) {rd : ReadPc E} :
    LatchInv { s with wake := false, read := rd, hist := s.hist ++ [e] } := by
  have hl : latched (s.hist ++ [e]) = [] := by rw [latched_snoc, he]
  refine ⟨fun _ => hl, .inr fun j hj => ?_, hI.stream, hI.exits.snoc hf⟩
  rw [hl] at hj
  cases hj

variable [ProtocolError E] (env : Env R) (cfg : ClientConfig)

omit [ProtocolError E] in
theorem LatchInv.woken (hI : LatchInv s) (h : readWoken cfg s = some s') : LatchInv s' := by
  unfold readWoken at h
  split_ifs at h with hw hc hrec <;> cases h
  · exact hI.consume rfl (by simp [ForcedOwn])
  · refine hI.consume rfl fun k hk j hj => ?_
    simp only [Event.loop.injEq, LoopEvent.exit.injEq, true_and] at hk
    rw [← hk, hI.stream]
    exact hI.own.resolve_left (by simpa using hc) j hj
  · exact hI.consume rfl (by simp [ForcedOwn])

theorem LatchInv.read (hI : LatchInv s) {p : Poll} (hs : readPoll env cfg s p = some s')
    (hP : CleanSwap s (.poll .read p : Act E)) : LatchInv s' := by
  have hf := readPoll_frame env cfg hs
  cases readPoll_passage env cfg hs with
  | wake hr h => exact hI.woken cfg h
  | backoff hr hw h =>
    obtain ⟨rd, h', hd, hg⟩ :=
      beginDial_footprint { s with wake := false, hist := s.hist ++ [.loop .woken] }
    have hI' : LatchInv { s with wake := false, hist := s.hist ++ [.loop .woken] } :=
      hI.consume rfl (by simp [ForcedOwn])
    rw [h, hd]
    exact hI'.keep rfl rfl rfl rfl hg (by simp) (by simp)
  | dialled hr h =>
    subst h
    exact hI.keep rfl rfl rfl rfl (.refl [] _) (by simp) (by simp)
  | swap hr hn h =>
    have hclear : s.closed = true ∨ latched s.hist = [] := by
      rcases hw : s.wake with _ | _
      · exact .inr (hI.clear hw)
      · exact .inl (hP _ hr hw)
    subst h
    refine ⟨fun hw => ?_, hclear.imp_right fun hl j hj => ?_, rfl,
      hI.exits.snoc (by simp [ForcedOwn])⟩
    · rw [latched_snoc, hI.clear hw]
      rfl
    · rw [latched_snoc, hl] at hj
      cases hj
  | broadcast hr h =>
    subst h
    refine ⟨fun hw => ?_, ?_, hI.stream, hI.exits.snoc (by simp [ForcedOwn])⟩
    · rw [latched_snoc, hI.clear hw]
      rfl
    · rw [latched_snoc]
      exact hI.own
  | other hk ht hw hi hg => exact hI.keep hw hf.closed hk ht hg (by simp) (by simp)

omit [ProtocolError E] in
theorem LatchInv.disconnect (hI : LatchInv s) {d : ℕ} (h : disconnect s d = some s') :
    LatchInv s' := by
  unfold OcppClient.disconnect at h
  split at h
  · split_ifs at h <;> cases h
    · exact hI.keep rfl rfl rfl rfl (.refl [] _) (by simp) (by simp)
    · exact ⟨by simp, .inl rfl, hI.stream, hI.exits.snoc (by simp [ForcedOwn])⟩
  · cases h

theorem latchInv_of_reach (h : Machine.Reach (client env cfg) CleanSwap s) : LatchInv s := by
  refine h.invariant ⟨fun _ => rfl, .inr (by simp [client, State.new, latched]), rfl, .nil⟩
    fun s a s' _ hP hs hI => ?_
  cases loop_cases env cfg hs with
  | recv h =>
    obtain ⟨hk, ht, hw, -, hg⟩ := readRecv_passage env cfg h
    exact hI.keep hw (readRecv_frame env cfg h).closed hk ht hg (by simp) (by simp)
  | read h => exact hI.read env cfg h hP
  | disconnect h => exact hI.disconnect h
  | disconnectPoll h =>
    obtain ⟨_, _, _, _, rfl, hg⟩ := disconnectPoll_footprint h
    exact hI.keep rfl rfl rfl rfl hg (by simp) (by simp)
  | other hf =>
    rcases hf.wake with ⟨hw, hg⟩ | hr
    · exact hI.keep hw hf.closed hf.sink hf.stream hg (by simp) (by simp)
    · exact hI.raises hf.closed hf.sink hf.stream hr

/-- In every run in which no transport is swapped in with the signal set, a forced exit leaves the
transport it was asked to leave. -/
theorem forcedExitsOwn_of_cleanSwap (h : Machine.Reach (client env cfg) CleanSwap s) :
    ForcedExitsOwn s :=
  (latchInv_of_reach env cfg h).exits

/-- A `force_reconnect` on a live transport, and another during the backoff that follows. -/
def forcedTwice : List (Act WireError) :=
  [.forceReconnect, .poll .read .ready, .poll .read .ready, .poll .read (.done (.ok ())),
    .poll .read .ready, .forceReconnect, .poll .read .ready, .poll .read (.done (.ok ())),
    .poll .read .ready, .poll .read .ready]

theorem forcedExitsOwn_of_forcedTwice :
    ∃ s, scenario.run scenario.init forcedTwice = some s
      ∧ s.hist = [.loop (.raised 0), .loop (.exit .forced 0), .issued .read 0 .close,
        .loop (.raised 0), .loop .woken, .loop .dialing, .loop (.swapped 1), .loop .reconnected]
      ∧ s.read = .recv ∧ ForcedExitsOwn s := by
  refine ⟨_, rfl, rfl, rfl, forcedExitsOwn_of_cleanSwap scenarioEnv scenarioConfig
    (Machine.reach_of_run (M := scenario) forcedTwice .init
      ⟨trivial, ?_, ?_, trivial, ?_, trivial, ?_, trivial, ?_, ?_, trivial⟩ rfl)⟩
  · exact fun _ hr => nomatch hr
  · exact fun _ hr => nomatch hr
  · exact fun _ hr => nomatch hr
  · exact fun _ hr => nomatch hr
  · exact fun _ _ hw => nomatch hw
  · exact fun _ hr => nomatch hr

/-- A `force_reconnect` while the client dials. -/
def forcedWhileDialling : List (Act WireError) :=
  [.recv none, .poll .read .ready, .poll .read .timer, .forceReconnect,
    .poll .read (.done (.ok ())), .poll .read .ready, .poll .read .ready, .poll .read .ready]

theorem forced_while_dialling :
    ∃ s, Machine.Reach scenario Machine.Any s
      ∧ s.hist = [.loop (.exit .eof 0), .loop .dialing, .loop (.raised 0), .loop (.swapped 1),
        .loop .reconnected, .loop (.exit .forced 1)]
      ∧ ¬ ForcedExitsOwn s := by
  refine ⟨_, Machine.reach_any_of_run forcedWhileDialling rfl, rfl, fun h => ?_⟩
  have h01 : (0 : SinkId) = 1 := h [.loop (.exit .eof 0), .loop .dialing, .loop (.raised 0),
    .loop (.swapped 1), .loop .reconnected] _ [] rfl 1 rfl 0 (by decide)
  cases h01

end OcppClient
