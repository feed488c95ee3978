import OcppClient.Proofs.SinkMutex

/-!
# The sink's mutex comes free

Whoever holds the mutex of the sink is inside an operation of the transport, and lets the mutex go
in the step in which that operation ends.
-/

namespace OcppClient

open Transition

variable {E R : Type}

/-- A step that leaves the sink free. What waits for a CALL is not touched, unless it is the task
that had the sink. -/
structure Freed (t : Task) (s s' : State E R) : Prop where
  holder : s'.holder = none
  requests : s'.requests = s.requests
  waitFors : ∀ w, t ≠ .waitFor w → s'.waitFors w = s.waitFors w

variable [ProtocolError E] (env : Env R) (cfg : ClientConfig) {s : State E R}

omit [ProtocolError E] in
theorem pingPoll_frees {p : PingId} (hop : (s.pings p).sink.isOp = true)
    (r : Except TransportError Unit) :
    ∃ s', pingPoll s p (.done r) = some s' ∧ Freed (.ping p) s s'
      ∧ ∀ x, s'.pings p ≠ .returned x := by
  cases hpc : s.pings p with
  | sending token timeout =>
    cases r with
    | ok u =>
      have hs : pingPoll s p (.done (.ok u)) = some { s.release with
          pings := Function.update s.pings p (.waiting token timeout)
          hist := s.hist ++ [.ping (.written p s.sink)] } := by
        simp only [pingPoll, hpc]
      exact ⟨_, hs, ⟨rfl, rfl, fun _ _ => rfl⟩, by simp⟩
    | error e =>
      have hs : pingPoll s p (.done (.error e))
          = some (s.release.setPing p (.forget token (.transport e))) := by
        simp only [pingPoll, hpc]
      exact ⟨_, hs, ⟨rfl, rfl, fun _ _ => rfl⟩, by simp [State.setPing]⟩
  | _ =>
    rw [hpc] at hop
    cases hop

theorem readPoll_frees (hop : s.read.sink.isOp = true) (r : Except TransportError Unit) :
    ∃ s', readPoll env cfg s (.done r) = some s' ∧ Freed .read s s' := by
  cases hpc : s.read with
  | sendNotImplemented =>
    have hs : readPoll env cfg s (.done r) = some { s.release with read := .recv } := by
      unfold readPoll
      simp only [hpc]
    exact ⟨_, hs, rfl, rfl, fun _ _ => rfl⟩
  | sendPong =>
    have hs : readPoll env cfg s (.done r) = some { s.release with read := .recv } := by
      unfold readPoll
      simp only [hpc]
    exact ⟨_, hs, rfl, rfl, fun _ _ => rfl⟩
  | sendClose =>
    have hs : readPoll env cfg s (.done r) = some { s.release with read := .clearWaiters } := by
      unfold readPoll
      simp only [hpc]
    exact ⟨_, hs, rfl, rfl, fun _ _ => rfl⟩
  | _ =>
    rw [hpc] at hop
    cases hop

omit [ProtocolError E] in
theorem callPoll_frees {c : ℕ} (hop : (s.calls c).sink.isOp = true)
    (r : Except TransportError Unit) :
    ∃ s', callPoll env s c (.done r) = some s' ∧ Freed (.call c) s s' := by
  cases hpc : s.calls c with
  | sending id action =>
    cases r with
    | ok u =>
      have hs : callPoll env s c (.done (.ok u))
          = some (s.release.setCall c (.waiting id action)) := by
        simp only [callPoll, hpc]
      exact ⟨_, hs, rfl, rfl, fun _ _ => rfl⟩
    | error e =>
      have hs : callPoll env s c (.done (.error e))
          = some (s.release.setCall c (.forget id (.transport e))) := by
        simp only [callPoll, hpc]
      exact ⟨_, hs, rfl, rfl, fun _ _ => rfl⟩
  | _ =>
    rw [hpc] at hop
    cases hop

omit [ProtocolError E] in
theorem waitForPoll_frees {v : ℕ} (hop : (s.waitFors v).sink.isOp = true)
    (r : Except TransportError Unit) :
    ∃ s', waitForPoll env s v (.done r) = some s' ∧ Freed (.waitFor v) s s' := by
  cases hpc : s.waitFors v with
  | sending action outcome =>
    have hs : waitForPoll env s v (.done r)
        = some (s.release.setWaitFor v (.unregister action outcome)) := by
      simp only [waitForPoll, hpc]
    refine ⟨_, hs, rfl, rfl, fun w hw => ?_⟩
    have hne : w ≠ v := fun h => hw (h ▸ rfl)
    simp [State.setWaitFor, State.release, hne]
  | _ =>
    rw [hpc] at hop
    cases hop

theorem done_frees {t : Task} (hin : Inside s) (hop : (sinkPc s t).isOp = true)
    (r : Except TransportError Unit) :
    ∃ s', step env cfg s (.poll t (.done r)) = some s' ∧ Freed t s s' := by
  cases t with
  | read => exact readPoll_frees env cfg hop r
  | call c => exact callPoll_frees env hop r
  | waitFor v => exact waitForPoll_frees env hop r
  | ping p =>
    obtain ⟨s', hs, hf, hret⟩ := pingPoll_frees hop r
    cases p with
    | user n => exact ⟨s', hs, hf⟩
    | keepalive n =>
      -- the loop is inside its ping, and stays there
      have hpc : s.keepalive = .pinging n := by
        rcases hin n with h | h | ⟨x, h⟩
        · exact h
        · simp [sinkPc, h, PingPc.sink, Mutex.Pc.isOp] at hop
        · simp [sinkPc, h, PingPc.sink, Mutex.Pc.isOp] at hop
      have hafter : afterPing cfg s' n = s' := by
        unfold afterPing
        split
        · next h => exact absurd h (hret _)
        · next h => exact absurd h (hret _)
        · rfl
      refine ⟨s', ?_, hf⟩
      change keepalivePingPoll cfg s n (.done r) = _
      simp only [keepalivePingPoll, hpc, if_true, hs, Option.map_some, hafter]
  | notification n =>
    cases hpc : s.sends n with
    | sending =>
      have hs : notificationPoll s n (.done r)
          = some (s.release.setSend n (.returned (r.mapError .transport))) := by
        simp only [notificationPoll, hpc]
      exact ⟨_, hs, rfl, rfl, fun _ _ => rfl⟩
    | _ => simp [sinkPc, hpc, NotificationPc.sink, Mutex.Pc.isOp] at hop
  | disconnect d =>
    cases hpc : s.disconnects d with
    | closing =>
      have hs : disconnectPoll s d (.done r)
          = some (s.release.setDisconnect d (.returned (r.mapError .transport))) := by
        simp only [disconnectPoll, hpc]
      exact ⟨_, hs, rfl, rfl, fun _ _ => rfl⟩
    | _ => simp [sinkPc, hpc, DisconnectPc.sink, Mutex.Pc.isOp] at hop
  | handler o =>
    cases hpc : s.handlers o with
    | sending =>
      have hs : handlerPoll env s o (.done r)
          = some { s.release with handlers := Function.update s.handlers o .recv } := by
        simp only [handlerPoll, hpc]
      exact ⟨_, hs, rfl, rfl, fun _ _ => rfl⟩
    | _ => simp [sinkPc, hpc, HandlerPc.sink, Mutex.Pc.isOp] at hop
  | _ => cases hop

/-- Whatever the outcome of the operation. -/
theorem freed_of_holder {P : State E R → Act E → Prop} (h : Machine.Reach (client env cfg) P s)
    {t : Task} (ht : s.holder = some t) (r : Except TransportError Unit) :
    ∃ s', step env cfg s (.poll t (.done r)) = some s' ∧ Freed t s s' := by
  have hlock := reach_sinkLock env cfg (Q := Machine.Any) (fun _ _ _ _ _ _ _ _ => trivial) h
  exact done_frees env cfg (inside_of_reach env cfg h) ((Mutex.holder_iff hlock t).1 ht) r

end OcppClient
