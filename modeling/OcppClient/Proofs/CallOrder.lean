import OcppClient.Proofs.Notices

/-!
# CALLs arrive once, in order

Two clients over a transport that keeps the order: the CALLs one hands over are received in that
order, each handler of the peer is sent those of its action in that order, and answers them so.
Together with what a single client does with the CALLs it receives (`CallsServed`) this accounts
for every CALL from the call that wrote it to the frame that answers it.
-/

namespace OcppClient

open Transition Duplex

variable {E R : Type} [ProtocolError E] {env : Env R} {draw : Bool → ℕ → Uuid}
  {cfg : Bool → ClientConfig}

/-- What is noted of a client as it makes calls, and as it serves them. -/
def callLog (env : Env R) (draw : Bool → ℕ → Uuid) (x : Bool) (s : State E R) (a : Act E) :
    List (ServiceNote E ⊕ ServeNote E) :=
  (serviceNotes (sideEnv env draw x) s a).map .inl
    ++ (s.serveNotes (sideEnv env draw x) a).map .inr

/-- The notes of the calls made. -/
def askedNotes (log : List (ServiceNote E ⊕ ServeNote E)) : List (ServiceNote E) :=
  log.filterMap Sum.getLeft?

/-- The notes of the CALLs served. -/
def servedNotes (log : List (ServiceNote E ⊕ ServeNote E)) : List (ServeNote E) :=
  log.filterMap Sum.getRight?

theorem asked_callLog (x : Bool) (s : State E R) (a : Act E) :
    (callLog env draw x s a).filterMap Sum.getLeft? = serviceNotes (sideEnv env draw x) s a := by
  simp [callLog, List.filterMap_append, List.filterMap_map, Function.comp_def]

theorem served_callLog (x : Bool) (s : State E R) (a : Act E) :
    (callLog env draw x s a).filterMap Sum.getRight? = s.serveNotes (sideEnv env draw x) a := by
  simp [callLog, List.filterMap_append, List.filterMap_map, Function.comp_def]

/-- What the peer's calls have handed over, and what became of it at client `x`. -/
structure CallsDelivered (env : Env R) (x : Bool) (p : Pair E R)
    (log : List (Bool × (ServiceNote E ⊕ ServeNote E))) : Prop where
  /-- The CALLs handed over are those of some of the calls made, each once. They are received in
  the order in which they were handed over, but those on the wire. -/
  received : ∃ sent : List Ask, sent.Subperm (asks (askedNotes (sideLog (!x) log)))
    ∧ ((p.side (!x)).hist.filterMap Event.sent).filterMap (frameJob E env) = sent.map (Ask.job env)
    ∧ jobs env (p.side x).hist ++ (p.wire x).filterMap (frameJob E env) = sent.map (Ask.job env)
  /-- And each is looked up, run and answered in its turn. -/
  served : CallsServed env (p.side x) (servedNotes (sideLog x log))

/-- The client's part of such a run, with the notes of the calls it made. -/
theorem asked_of_reach {p : Pair E R × List (Bool × (ServiceNote E ⊕ ServeNote E))}
    (h : Machine.Reach ((pair env draw cfg).observed (pairLog (callLog env draw))) Machine.Any p)
    (x : Bool) :
    Machine.Reach ((client (sideEnv env draw x) (cfg x)).observed
      (serviceNotes (sideEnv env draw x))) Machine.Any
      (p.1.side x, askedNotes (sideLog x p.2)) := by
  have hx := (side_of_pairLog h x).observed_filterMap Sum.getLeft?
  simp only [asked_callLog] at hx
  exact hx

theorem served_of_reach {p : Pair E R × List (Bool × (ServiceNote E ⊕ ServeNote E))}
    (h : Machine.Reach ((pair env draw cfg).observed (pairLog (callLog env draw))) Machine.Any p)
    (x : Bool) :
    Machine.Reach ((client (sideEnv env draw x) (cfg x)).observed
      (State.serveNotes (sideEnv env draw x))) Machine.Any
      (p.1.side x, servedNotes (sideLog x p.2)) := by
  have hx := (side_of_pairLog h x).observed_filterMap Sum.getRight?
  simp only [served_callLog] at hx
  exact hx

/-- A client serves what it received whatever ids it draws. -/
theorem CallsServed.ofSide {x : Bool} {s : State E R} {log : List (ServeNote E)}
    (h : CallsServed (sideEnv env draw x) s log) : CallsServed env s log :=
  ⟨h.lookedUp, h.own, h.refused, h.answered⟩

theorem callsDelivered_of_reach (hR : env.RoundTrips)
    {p : Pair E R × List (Bool × (ServiceNote E ⊕ ServeNote E))}
    (h : Machine.Reach ((pair env draw cfg).observed (pairLog (callLog env draw))) Machine.Any p)
    (x : Bool) : CallsDelivered env x p.1 p.2 := by
  have hp : Machine.Reach (pair env draw cfg) Machine.Any p.1 := h.unobserved fun _ _ _ => trivial
  have hy := asked_of_reach h !x
  have hs : Machine.Reach (client (sideEnv env draw !x) (cfg !x)) Machine.Any (p.1.side !x) :=
    hy.unobserved fun _ _ _ => trivial
  have hF : SideFacts (sideEnv env draw !x) (p.1.side !x) (p.1.side !!x)
      (askedNotes (sideLog (!x) p.2)) :=
    ⟨askInv_of_reach _ _ hy, noticeInv_of_reach _ _ hs, replied_of_reach hy, ran_of_reach hy,
      _, fifo_of_reach hp !x⟩
  have hRy : (sideEnv env draw !x).RoundTrips := hR
  obtain ⟨sent, hsub, hsent⟩ := hF.callJobs hRy
  refine ⟨⟨sent, hsub, hsent, ?_⟩,
    (servesInOrder_of_reach (served_of_reach h x)).callsServed.ofSide⟩
  have hw := congrArg (List.filterMap (frameJob E env)) (fifo_of_reach hp x)
  rw [List.filterMap_append, ← jobs_eq] at hw
  exact hw.trans hsent

def callPair :
    Machine (Pair (Version.Error .v201) Unit
        × List (Bool × (ServiceNote (Version.Error .v201) ⊕ ServeNote (Version.Error .v201))))
      (Bool × Act (Version.Error .v201)) :=
  (pair wireEnv (fun _ => uuidV4) fun _ => scenarioConfig).observed
    (pairLog (callLog wireEnv fun _ => uuidV4))

/-- Two calls are handed over, one handler takes the first CALL and answers it. -/
def twoCalls : List (Bool × Act (Version.Error .v201)) :=
  [(true, .on 0 "A"), (true, .poll (.on 0) .ready), (false, .call 0 "A" (.ok .null)),
    (false, .poll (.call 0) .ready), (false, .poll (.call 0) .ready),
    (false, .poll (.call 0) (.done (.ok ()))), (false, .call 1 "A" (.ok .null)),
    (false, .poll (.call 1) .ready), (false, .poll (.call 1) .ready),
    (true, .recv (some (.frame firstCall))), (true, .poll .read .ready), (true, .poll .read .ready),
    (true, .poll (.handler 0) .ready), (true, .respond 0 (.ok (.ok .null))),
    (true, .poll (.handler 0) .ready)]

theorem callsDelivered_of_twoCalls :
    ∃ p, callPair.run callPair.init twoCalls = some p
      ∧ writtenBy (.handler 0) (p.1.side true).hist = [resultFrame] ∧ p.1.wire true = [secondCall]
      ∧ CallsDelivered wireEnv true p.1 p.2 := by
  have hends : (callPair.run callPair.init twoCalls).any (fun p =>
      writtenBy (.handler 0) (p.1.side true).hist = [resultFrame]
        ∧ p.1.wire true = [secondCall]) = true := by
    decide +kernel
  obtain ⟨p, hrun, hp⟩ := (Option.any_eq_true _ _).1 hends
  obtain ⟨hwritten, hwire⟩ := of_decide_eq_true hp
  exact ⟨p, hrun, hwritten, hwire, callsDelivered_of_reach wireEnv_roundTrips
    (Machine.reach_any_of_run (M := callPair) twoCalls hrun) true⟩

end OcppClient
