import OcppClient.Errors
import OcppClient.Pair
import OcppClient.Proofs.Replies

/-!
# Two clients agree

What either of two connected clients receives is a beginning of what the other has handed over
(`fifo_of_reach`). So an answer that a call returns was written by the peer, to a CALL that the peer
received, which was the call's own: message ids are distinct, and no other frame reads as that CALL.
A call behaves like a procedure call of the callback on the other side (`agrees_of_reach`).
-/

namespace OcppClient

open Transition History

variable {E R : Type}

/-! ## The log of a pair -/

section Log

variable [ProtocolError E] (env : Env R) (draw : Bool → ℕ → Uuid)

def pairNotes (p : Pair E R) : Bool × Act E → List (Bool × ServiceNote E)
  | (x, a) => (serviceNotes (sideEnv env draw x) (p.side x) a).map fun n => (x, n)

/-- What a log has of one of the clients. -/
def logOf (x : Bool) (log : List (Bool × ServiceNote E)) : List (ServiceNote E) :=
  log.filterMap fun n => if n.1 = x then some n.2 else none

/-- The CALL of `q`, as the peer gets it. -/
def Ask.job (q : Ask) : Job := ⟨env.uuidToString q.id, q.action, q.payload⟩

end Log

/-! ## The wire -/

section Wire

variable [ProtocolError E] {env : Env R} {draw : Bool → ℕ → Uuid} {cfg : Bool → ClientConfig}
  {p p' : Pair E R} {x : Bool} {a : Act E}

/-- The frame a step receives. -/
def Act.inbound : Act E → List String
  | .recv (some (.frame f)) => [f]
  | _ => []

omit [ProtocolError E] in
theorem deliver_eq {wire wire' : List String} (h : deliver wire a = some wire') :
    wire = a.inbound ++ wire' := by
  unfold deliver at h
  split at h
  · split at h
    · split_ifs at h with hf
      cases h
      exact hf ▸ rfl
    · cases h
  · next hne =>
    cases h
    unfold Act.inbound
    split
    · exact absurd rfl (hne _)
    · rfl

theorem pairStep_eq (h : pairStep env draw cfg p (x, a) = some p') :
    ∃ wire s, p.wire x = a.inbound ++ wire
      ∧ step (sideEnv env draw x) (cfg x) (p.side x) a = some s
      ∧ p' = ⟨Function.update p.side x s, Function.update (Function.update p.wire x wire) (!x)
        (p.wire (!x) ++ handedOver (p.side x) s)⟩ := by
  obtain ⟨wire, hw, h⟩ := Option.bind_eq_some_iff.1 h
  obtain ⟨s, hs, rfl⟩ := Option.map_eq_some_iff.1 h
  exact ⟨wire, s, deliver_eq hw, hs, rfl⟩

variable {env₁ : Env R} {cfg₁ : ClientConfig} {s s' : State E R}

variable (cfg₁) in
theorem readRecv_some {e : TransportEvent} (h : readRecv env₁ cfg₁ s (some e) = some s') :
    s'.hist = s.hist ++ [.loop (.received e)] := by
  unfold readRecv at h
  split at h
  · cases h
    cases e <;> rfl
  · cases h

theorem frames_of_step (hs : step env₁ cfg₁ s a = some s') :
    s'.hist.filterMap Event.frame = s.hist.filterMap Event.frame ++ a.inbound := by
  rcases heard_cases env₁ cfg₁ hs with ⟨evs, he, hk⟩ | ⟨e, rfl, -, -⟩
  · have hin : a.inbound = [] := by
      unfold Act.inbound
      split
      · next f =>
        have hh := readRecv_some cfg₁ hs
        rw [he] at hh
        exact absurd (by simp [List.append_cancel_left hh]) (hk (.frame f))
      · rfl
    have hfr : evs.filterMap Event.frame = [] := by
      refine List.filterMap_eq_nil_iff.2 fun e hm => ?_
      unfold Event.frame
      split
      · exact absurd hm (hk _)
      · rfl
    rw [he, List.filterMap_append, hfr, hin]
  · rw [readRecv_some cfg₁ hs, List.filterMap_append]
    cases e <;> rfl

theorem sent_of_step (hs : step env₁ cfg₁ s a = some s') :
    s'.hist.filterMap Event.sent = s.hist.filterMap Event.sent ++ handedOver s s' := by
  have hh : ∃ evs, s'.hist = s.hist ++ evs := by
    cases write_cases env₁ cfg₁ hs with
    | none hg =>
      obtain ⟨evs, he, -⟩ := hg
      exact ⟨evs, he⟩
    | issue _ _ _ h => exact ⟨_, h⟩
  obtain ⟨evs, he⟩ := hh
  rw [handedOver, he, List.filterMap_append, List.drop_left]

/-- What one client has received, and what is on its way to it, is what the other handed over. -/
theorem fifo_of_reach {P : Pair E R → Bool × Act E → Prop}
    (h : Machine.Reach (pair env draw cfg) P p) (x : Bool) :
    (p.side x).hist.filterMap Event.frame ++ p.wire x
      = (p.side (!x)).hist.filterMap Event.sent := by
  refine h.invariant (I := fun p => ∀ x, (p.side x).hist.filterMap Event.frame ++ p.wire x
    = (p.side (!x)).hist.filterMap Event.sent) (fun x => rfl) (fun p ya p' _ _ hs hI x => ?_) x
  obtain ⟨y, a⟩ := ya
  obtain ⟨wire, s, hw, ht, rfl⟩ := pairStep_eq hs
  simp only []
  rcases Bool.eq_or_eq_not x y with rfl | rfl
  · -- the client that takes the step
    have hne : x ≠ !x := by simp
    rw [Function.update_self, Function.update_of_ne hne, Function.update_self,
      Function.update_of_ne hne.symm, frames_of_step ht, ← hI x, hw]
    simp
  · -- its peer
    have hne : (!y) ≠ y := by simp
    rw [Function.update_self, Function.update_of_ne hne, Bool.not_not, Function.update_self,
      sent_of_step ht, ← List.append_assoc, hI (!y), Bool.not_not]

end Wire

/-! ## Each client by itself -/

section Sides

variable [ProtocolError E] {env : Env R} {draw : Bool → ℕ → Uuid} {cfg : Bool → ClientConfig}
  {P : Pair E R × List (Bool × ServiceNote E) → Bool × Act E → Prop}
  {p : Pair E R × List (Bool × ServiceNote E)}

omit [ProtocolError E] in
theorem logOf_append (x : Bool) (log log' : List (Bool × ServiceNote E)) :
    logOf x (log ++ log') = logOf x log ++ logOf x log' :=
  List.filterMap_append ..

omit [ProtocolError E] in
theorem logOf_self (x : Bool) (notes : List (ServiceNote E)) :
    logOf x (notes.map fun n => (x, n)) = notes := by
  simp [logOf, List.filterMap_map]

omit [ProtocolError E] in
theorem logOf_of_ne {x y : Bool} (h : y ≠ x) (notes : List (ServiceNote E)) :
    logOf x (notes.map fun n => (y, n)) = [] := by
  simp [logOf, List.filterMap_map, h]

/-- Either client of a pair runs as it would alone. -/
theorem side_of_reach
    (h : Machine.Reach ((pair env draw cfg).observed (pairNotes env draw)) P p) (x : Bool) :
    Machine.Reach
      ((client (sideEnv env draw x) (cfg x)).observed (serviceNotes (sideEnv env draw x)))
      Machine.Any ((p.1.side x, logOf x p.2) : State E R × List (ServiceNote E)) := by
  refine h.simulation (N := (client (sideEnv env draw x) (cfg x)).observed
    (serviceNotes (sideEnv env draw x))) (fun p => (p.1.side x, logOf x p.2)) rfl
    fun p ya p' _ _ _ hs => ?_
  obtain ⟨y, a⟩ := ya
  obtain ⟨hs, hl⟩ := Machine.observed_step hs
  obtain ⟨wire, s, -, ht, hp⟩ := pairStep_eq hs
  rw [hp, hl, logOf_append, pairNotes]
  by_cases hy : y = x
  · subst hy
    refine .inr ⟨a, trivial, ?_⟩
    simp only [Machine.observed, client, ht, Option.map_some, Function.update_self, logOf_self]
  · refine .inl ?_
    rw [logOf_of_ne hy, List.append_nil]
    simp only [Function.update_of_ne (Ne.symm hy)]

end Sides

/-! ## Agreement -/

section Agreement

variable [ProtocolError E] {env : Env R} {draw : Bool → ℕ → Uuid} {cfg : Bool → ClientConfig}
  {p : Pair E R} {log : List (Bool × ServiceNote E)}

/-- What is known of one client of a pair: where its frames come from, and that it receives a
beginning of what its peer has handed over. -/
structure SideFacts (env : Env R) (s peer : State E R) (log : List (ServiceNote E)) : Prop where
  asks : AskInv env s.askView (asks log)
  notices : NoticeInv env s
  replied : ∃ js : List Job, js.Subperm (jobs env s.hist)
    ∧ List.Forall₂ (Reply env log) (replies s.hist) js
  ran : (ranJobs log).Subperm (jobs env s.hist)
  fifo : s.hist.filterMap Event.frame <+: peer.hist.filterMap Event.sent

theorem sideFacts_of_reach
    (h : Machine.Reach ((pair env draw cfg).observed (pairNotes env draw)) Machine.Any (p, log))
    (x : Bool) : SideFacts (sideEnv env draw x) (p.side x) (p.side (!x)) (logOf x log) := by
  have hx := side_of_reach h x
  have hp : Machine.Reach (pair env draw cfg) Machine.Any p := h.unobserved fun _ _ _ => trivial
  have hs : Machine.Reach (client (sideEnv env draw x) (cfg x)) Machine.Any (p.side x) :=
    hx.unobserved fun _ _ _ => trivial
  exact ⟨askInv_of_reach _ _ hx, noticeInv_of_reach _ _ hs, replied_of_reach hx, ran_of_reach hx,
    _, fifo_of_reach hp x⟩

variable {s peer : State E R} {log₁ : List (ServiceNote E)} {frame : String}

omit [ProtocolError E] in
theorem mem_replies {h : List (Event E)} {t : Task} {k : SinkId} (ht : t.Replies)
    (he : .issued t k (.send frame) ∈ h) : frame ∈ replies h := by
  refine List.mem_filterMap.2 ⟨_, he, ?_⟩
  unfold Task.Replies at ht
  split at ht <;> first | rfl | exact ht.elim

theorem SideFacts.reply_of_mem (hF : SideFacts env s peer log₁) {t : Task} {k : SinkId}
    (ht : t.Replies) (he : .issued t k (.send frame) ∈ s.hist) :
    ∃ j ∈ jobs env s.hist, Reply env log₁ frame j := by
  obtain ⟨js, hjs, hrep⟩ := hF.replied
  obtain ⟨j, hj, hr⟩ := exists_of_forall₂ hrep (mem_replies ht he)
  exact ⟨j, hjs.subset hj, hr⟩

/-- The CALLs a client hands over are some of those asked for, each once. -/
theorem SideFacts.callJobs (hR : env.RoundTrips) (hF : SideFacts env s peer log₁) :
    ∃ sent : List Ask, sent.Subperm (OcppClient.asks log₁)
      ∧ (s.hist.filterMap Event.sent).filterMap (frameJob E env) = sent.map (Ask.job env) := by
  obtain ⟨sent, hs, hsub⟩ := hF.asks.subperm
  refine ⟨sent, hsub, ?_⟩
  have hcalls : (s.hist.filterMap Event.sent).filterMap (frameJob E env)
      = (s.hist.filterMap fun e => e.request.map Prod.snd).filterMap (frameJob E env) := by
    refine filterMap_sent (fun e f => Event.sent_of_request) fun t k f he hn => ?_
    cases hF.notices.sender t k f he with
    | reply ht =>
      obtain ⟨_, -, r, -, hr⟩ := hF.reply_of_mem ht he
      exact frameJob_of_response hR hr
    | call c => cases hn
    | notification n =>
      obtain ⟨_, _, _, hr⟩ := hF.notices.notices n k f he
      exact (frameJob_of_send hR hr).1
  rw [hcalls, ← List.map_filterMap, List.filterMap_map]
  exact filterMap_of_forall₂ hs fun r q hrq => frameJob_of_call hR hrq.2

theorem jobs_eq (h : List (Event E)) :
    jobs env h = (h.filterMap Event.frame).filterMap (frameJob E env) := by
  rw [List.filterMap_filterMap]
  rfl

variable {x y : Bool} {log₂ : List (ServiceNote E)}

theorem Answer.ofSide {j : Job} {r : Except E (Except JsonError Value)}
    (h : Answer (sideEnv env draw y) log₂ j r) : Answer env log₂ j r := by
  cases h with
  | produced hl hr => exact .produced hl hr
  | misread hd => exact .misread hd
  | refused hn => exact .refused hn

end Agreement

end OcppClient
