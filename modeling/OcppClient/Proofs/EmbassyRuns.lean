import OcppClient.EmbassyClient
import OcppClient.Proofs.CancelSafety
import OcppClient.Proofs.Receptions

/-!
# Clients on embassy-net connections

The wake signal drops the future of `recv` at any of its `await`s, and the loop makes a new one. The
calls that complete return what `recv` returns, called again and again, so a client on a stream of
frames that no read tears handles the events of those frames, in order and each once.
-/

namespace OcppClient

open Transition WebSocket EmbassyWsStream

variable {E R S ε : Type} {read : S → List UInt8 → Except ε ReadResult × S}

/-! ## What is returned is delivered -/

section Delivery

variable {s u : EmbassyWsStream S} {evs : List TransportEvent} {e : Ending ε}
  {rs : List (Except (RecvError ε) (Option TransportEvent))}

/-- A call returns the next event of what is delivered, or its end. -/
theorem delivers_of_recv {n : ℕ} {r : Except (RecvError ε) (Option TransportEvent)}
    (h : Delivers read s evs e) (hr : recv read n s = some (r, u)) :
    match yielded r with
    | some ev => ∃ evs', evs = ev :: evs' ∧ Delivers read u evs' e
    | none => evs = [] := by
  cases h with
  | closed h =>
    cases recv_unique h hr
    rfl
  | failed h =>
    cases recv_unique h hr
    rfl
  | event h hd =>
    cases recv_unique h hr
    exact ⟨_, rfl, hd⟩

/-- What was returned before the end of a stream is a beginning of what it delivers. -/
theorem delivers_of_returns (hr : Receiving.Returns read s rs u) (h : Delivers read s evs e)
    (hn : none ∉ rs.map yielded) :
    ∃ evs', evs = (rs.map yielded).reduceOption ++ evs' ∧ Delivers read u evs' e := by
  induction hr with
  | nil => exact ⟨evs, rfl, h⟩
  | @snoc t u rs r n _ hr ih =>
    rw [List.map_append, List.mem_append, not_or] at hn
    obtain ⟨evs', rfl, hd⟩ := ih hn.1
    have hlast := delivers_of_recv hd hr
    cases hy : yielded r with
    | none => exact absurd (by simp [hy]) hn.2
    | some ev =>
      rw [hy] at hlast
      obtain ⟨evs'', rfl, hd'⟩ := hlast
      exact ⟨evs'', by simp [List.reduceOption_append, hy], hd'⟩

/-- Once the end was returned, all of it was. -/
theorem reduceOption_of_returns (hr : Receiving.Returns read s rs u) (h : Delivers read s evs e)
    (hlast : none ∉ (rs.map yielded).dropLast) (hn : none ∈ rs.map yielded) :
    (rs.map yielded).reduceOption = evs := by
  cases hr with
  | nil => simp at hn
  | @snoc t _ rs r n hr hn' =>
    simp only [List.map_append, List.map_cons, List.map_nil, List.dropLast_concat] at hlast
    obtain ⟨evs', rfl, hd⟩ := delivers_of_returns hr h hlast
    have hy : yielded r = none := by
      rw [List.map_append, List.mem_append] at hn
      exact (List.mem_singleton.1 (hn.resolve_left hlast)).symm
    have hnil := delivers_of_recv hd hn'
    rw [hy] at hnil
    simp [List.reduceOption_append, hy, show evs' = [] from hnil]

end Delivery

/-! ## A client and its streams -/

theorem Receiving.finish_results (s : Receiving S ε) (t : RecvTurn S ε) :
    (s.finish t).results = s.results ∨ ∃ r, (s.finish t).results = s.results ++ [r] := by
  cases t with
  | again => exact .inl rfl
  | returned r => exact .inr ⟨r, rfl⟩

/-- A step of the future returns at most once. -/
theorem Receiving.step_results {s s' : Receiving S ε} {a : RecvAct S}
    (h : Receiving.step read s a = some s') :
    s'.results = s.results ∨ ∃ r, s'.results = s.results ++ [r] := by
  cases a with
  | call | start | drop =>
    simp only [Receiving.step] at h
    split_ifs at h
    cases h
    exact .inl rfl
  | sink f =>
    cases h
    exact .inl rfl
  | ready =>
    simp only [Receiving.step] at h
    split at h <;> cases h
    · unfold socketRead
      split
      · exact finish_results _ _
      · split_ifs
        · exact finish_results _ _
        · exact .inl rfl
    · exact finish_results _ _

section Client

variable [ProtocolError E] {env : Env R} {cfg : ClientConfig} {c c' : NetClient E R S ε}

/-- The future goes on, or it returns and the loop takes what it returned. -/
theorem NetClient.poll_cases {a : RecvAct S} (h : c.poll env cfg read a = some c') :
    ∃ r, Receiving.step read (c.receiving c.client.stream) a = some r
      ∧ c'.receiving = c.set r
      ∧ (r.results = (c.receiving c.client.stream).results ∧ c'.client = c.client
        ∨ ∃ x, r.results = (c.receiving c.client.stream).results ++ [x]
          ∧ readRecv env cfg c.client (yielded x) = some c'.client) := by
  unfold NetClient.poll at h
  split at h
  · obtain ⟨r, hr, h⟩ := Option.bind_eq_some_iff.1 h
    refine ⟨r, hr, ?_⟩
    rcases Receiving.step_results hr with he | ⟨x, he⟩
    · rw [he, List.drop_length] at h
      cases h
      exact ⟨rfl, .inl ⟨he, rfl⟩⟩
    · rw [he, List.drop_left] at h
      obtain ⟨s, hs, rfl⟩ := Option.map_eq_some_iff.1 h
      exact ⟨rfl, .inr ⟨x, he, hs⟩⟩
  · cases h

/-- A step of the client that is no `recv`, dropping the future or not, or one of the future. -/
inductive NetStep (env : Env R) (cfg : ClientConfig)
    (read : S → List UInt8 → Except ε ReadResult × S) (c c' : NetClient E R S ε) : Prop
  | act {a : Act E} (ha : ∀ e, a ≠ .recv e) (hs : step env cfg c.client a = some c'.client)
    (hr : c'.receiving = c.receiving
      ∨ c'.receiving = c.set (c.receiving c.client.stream).dropped)
  | poll {a : RecvAct S} (ha : ∀ f, a ≠ .sink f) (hs : c.poll env cfg read a = some c')

theorem netStep_of_step {a : NetAct E} (h : c.step env cfg read a = some c') :
    NetStep env cfg read c c' := by
  cases a with
  | act a =>
    cases a with
    | recv => cases h
    | _ =>
      simp only [NetClient.step, Option.map_eq_some_iff] at h
      obtain ⟨s, hs, rfl⟩ := h
      refine .act (by simp) hs ?_
      simp only []
      split_ifs
      · exact .inr rfl
      · exact .inl rfl
  | call | start | ready => exact .poll (by simp) h

/-- A client on embassy-net connections runs as one that is handed the events. -/
theorem client_of_netClient {streams : SinkId → EmbassyWsStream S}
    {P : NetClient E R S ε → NetAct E → Prop}
    (h : Machine.Reach (netClient env cfg read streams) P c) :
    Machine.Reach (client env cfg) Machine.Any c.client := by
  refine h.simulation NetClient.client rfl fun c a c' _ _ _ hs => ?_
  cases netStep_of_step hs with
  | act _ hs => exact .inr ⟨_, trivial, hs⟩
  | poll _ hs =>
    obtain ⟨r, -, -, ⟨-, hc⟩ | ⟨x, -, hx⟩⟩ := NetClient.poll_cases hs
    · exact .inl hc
    · exact .inr ⟨.recv (yielded x), trivial, hx⟩

/-- The results of the calls of `recv` on a connection, as the loop sees them. -/
def NetClient.results (c : NetClient E R S ε) (k : SinkId) : List (Option TransportEvent) :=
  (c.receiving k).results.map yielded

/-- Every stream is where `recv`, called again and again, leaves it, and the client has handled what
the calls returned. -/
structure Recovers (read : S → List UInt8 → Except ε ReadResult × S)
    (streams : SinkId → EmbassyWsStream S) (c : NetClient E R S ε) : Prop where
  reception : Reception c.client c.results
  placed : ∀ k, (c.receiving k).Placed
  followed : ∀ k, Receiving.Followed read (streams k) (c.receiving k)

variable {streams : SinkId → EmbassyWsStream S}

omit [ProtocolError E] in
/-- The stream that is read changes, and no other. -/
theorem NetClient.forall_set {P : SinkId → Receiving S ε → Prop} {r : Receiving S ε}
    (hr : P c.client.stream r) (h : ∀ k, P k (c.receiving k)) (k : SinkId) : P k (c.set r k) := by
  rcases eq_or_ne k c.client.stream with rfl | hne
  · rwa [NetClient.set, Function.update_self]
  · rw [NetClient.set, Function.update_of_ne hne]
    exact h k

omit [ProtocolError E] in
theorem NetClient.results_set {r : Receiving S ε} (hr : c'.receiving = c.set r) :
    c'.results = Function.update c.results c.client.stream (r.results.map yielded) := by
  funext k
  rw [NetClient.results, hr]
  rcases eq_or_ne k c.client.stream with rfl | hne
  · rw [NetClient.set, Function.update_self, Function.update_self]
  · rw [NetClient.set, Function.update_of_ne hne, Function.update_of_ne hne, NetClient.results]

theorem recovers_init (streams : SinkId → EmbassyWsStream S) :
    Recovers read streams (netClient env cfg read streams : Machine (NetClient E R S ε) _).init :=
  ⟨reception_new cfg, fun _ => .inl rfl, fun k => ⟨streams k, .nil, 0, fun _ => rfl⟩⟩

/-- A future dropped leaves its stream, and what was returned on it. -/
theorem Recovers.act {a : Act E} (h : Recovers read streams c) (hI : Installed c.client)
    (ha : ∀ e, a ≠ .recv e) (hs : step env cfg c.client a = some c'.client)
    (hr : c'.receiving = c.receiving
      ∨ c'.receiving = c.set (c.receiving c.client.stream).dropped) :
    Recovers read streams c' := by
  have hrec := h.reception.step hI ha hs
  rcases hr with hr | hr
  · refine ⟨?_, ?_, ?_⟩
    · rwa [show c'.results = c.results by unfold NetClient.results; rw [hr]]
    · rw [hr]
      exact h.placed
    · rw [hr]
      exact h.followed
  · refine ⟨?_, ?_, ?_⟩
    · rw [NetClient.results_set hr]
      rwa [show (c.receiving c.client.stream).dropped.results.map yielded
        = c.results c.client.stream from rfl, Function.update_eq_self]
    · rw [hr]
      exact NetClient.forall_set (P := fun _ => Receiving.Placed) (.inl rfl) h.placed
    · rw [hr]
      exact NetClient.forall_set (P := fun k => Receiving.Followed read (streams k))
        (h.followed c.client.stream) h.followed

theorem Recovers.poll {a : RecvAct S} (h : Recovers read streams c) (ha : ∀ f, a ≠ .sink f)
    (hs : c.poll env cfg read a = some c') : Recovers read streams c' := by
  obtain ⟨r, hr, hset, hres⟩ := NetClient.poll_cases hs
  have hp := h.placed c.client.stream
  refine ⟨?_, ?_, ?_⟩
  · rw [NetClient.results_set hset]
    rcases hres with ⟨he, hc⟩ | ⟨x, he, hc⟩
    · rw [he, hc, ← NetClient.results, Function.update_eq_self]
      exact h.reception
    · rw [he, List.map_append]
      exact h.reception.recv hc
  · rw [hset]
    exact NetClient.forall_set (P := fun _ => Receiving.Placed) (Receiving.step_placed hr hp)
      h.placed
  · rw [hset]
    exact NetClient.forall_set (P := fun k => Receiving.Followed read (streams k))
      ((h.followed c.client.stream).step ha hr hp) h.followed

theorem recovers_of_reach {P : NetClient E R S ε → NetAct E → Prop}
    (h : Machine.Reach (netClient env cfg read streams) P c) : Recovers read streams c := by
  refine h.invariant (recovers_init streams) fun c a c' hr _ hs hI => ?_
  cases netStep_of_step hs with
  | act ha hs hr' => exact hI.act (installed_of_reach env cfg (client_of_netClient hr)) ha hs hr'
  | poll ha hs => exact hI.poll ha hs

/-! ## Frames that no read tears -/

/-- The events that frames come to, from the first on. -/
def framesSay (fs : List Frame) : List TransportEvent :=
  (EmbassyWsStream.deliver (.closed : Ending Empty) none [] fs).1

/-- How the socket ends makes no difference to the events. -/
theorem deliver_events {δ : Type} (eof : Ending ε) (eof' : Ending δ) (m : Option Data)
    (acc : List UInt8) (fs : List Frame) :
    (EmbassyWsStream.deliver eof m acc fs).1 = (EmbassyWsStream.deliver eof' m acc fs).1 := by
  induction fs generalizing m acc with
  | nil => rfl
  | cons f fs ih =>
    unfold EmbassyWsStream.deliver
    split
    · rfl
    · split
      · rfl
      · rfl
      · rw [ih]

/-- Whatever drops the futures of `recv`, a client on a connection whose frames no read tears, and
whose fragments none cuts, has handled a beginning of what the frames say, in order and each event
once. Once `recv` has returned the end of the stream it has handled all of it, and the loop has left
the connection. -/
theorem frames_handled {At : S → Position → Prop} (hR : Reads read At) {ws : S}
    (hw : At ws (.between none)) {eof : Except TcpError Unit} {fs : List Frame}
    (hl : Legal none fs) {reads : List (List UInt8)} (hr : ∀ chunk ∈ reads, chunk ≠ [])
    (hb : reads.flatten = wire fs) (hf : FragmentsWhole (CutAt reads) none [] fs)
    (hu : Untorn (CutAt reads) none [] fs) {k : SinkId} (hk : streams k = .new ws eof reads)
    (h : Machine.Reach (netClient env cfg read streams) Machine.Any c) :
    onConnection k (heardOn 0 c.client.hist) <+: framesSay fs
      ∧ (none ∈ c.results k →
        onConnection k (heardOn 0 c.client.hist) = framesSay fs ∧ c.client.HasLeft k) := by
  have hC := recovers_of_reach h
  have hD : DeliversFrames read (.new ws eof reads) none fs :=
    (deliversFrames_new_iff hR hw eof hl hr hb hf).2 hu
  obtain ⟨last, hret, -⟩ := hC.followed k
  rw [hk] at hret
  rw [hC.reception.events k, framesSay, deliver_events (.closed : Ending Empty)
    (socketEnd eof : Ending ε)]
  have hend := reduceOption_of_returns hret hD (hC.reception.last k)
  refine ⟨?_, fun hn => ⟨hend hn, hC.reception.left k hn⟩⟩
  by_cases hn : none ∈ c.results k
  · exact (hend hn).symm ▸ List.prefix_rfl
  · obtain ⟨evs, he, -⟩ := delivers_of_returns hret hD hn
    exact ⟨evs, he.symm⟩

/-- A client that cannot reconnect is told to, twice: the future is dropped at the socket with a
fragment of the text accumulated, and at the lock of the codec with the rest of it in `pending`. The
ping is answered before the rest is read, and then the second text and the end of the stream. -/
def droppedTwice : List (NetAct WireError) :=
  [.call, .start, .ready, .ready, .act .forceReconnect, .act (.poll .read .ready),
    .call, .start, .ready, .act .forceReconnect, .act (.poll .read .ready), .call, .start, .ready,
    .act (.poll .read .ready), .act (.poll .read .ready), .act (.poll .read (.done (.ok ()))),
    .call, .start, .ready, .call, .start, .ready, .ready, .ready, .call, .start, .ready]

/-- A client whose every connection is a text in fragments with a ping between them and a text in
one frame, cut after the first fragment and inside the second text. -/
def droppingClient :
    Machine (NetClient WireError Unit WebSocket.Reader ReadError) (NetAct WireError) :=
  netClient scenarioEnv { scenarioConfig with reconnector := false } WebSocket.Reader.read
    fun _ => .new ⟨none, none⟩ (.ok ()) fragmentsCut

theorem frames_handled_of_droppedTwice :
    ∃ c, droppingClient.run droppingClient.init droppedTwice = some c
      ∧ framesSay fragmentsAndText = [.ping [7, 8], .frame "Hi", .frame "OK"]
      ∧ onConnection 0 (heardOn 0 c.client.hist) = framesSay fragmentsAndText
      ∧ c.client.HasLeft 0 :=
  ⟨_, rfl, by decide, (frames_handled WebSocket.Reader.reads rfl legal_fragmentsAndText (by decide)
    (by decide) fragmentsWhole_fragmentsCut untorn_fragmentsCut rfl
      (Machine.reach_any_of_run (M := droppingClient) droppedTwice rfl)).2 (by decide)⟩

end Client

end OcppClient
