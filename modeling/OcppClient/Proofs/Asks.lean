import Mathlib.Data.List.Nodup
import Mathlib.Data.List.Perm.Subperm
import OcppClient.Proofs.CallCorrelation
import OcppClient.Proofs.Frames

/-!
# What the callers send

A `call` draws its message id, makes its frame and hands it to a sink, once if ever; a notification
hands over its own. `AskInv` follows the CALLs of a client from the draw to the sink: every frame
that a `call` hands over is that of a CALL asked for, and of another one each time.
-/

namespace OcppClient

open Transition

variable {E R : Type}

/-! ## The view -/

/-- How far a `call` has come with its frame. -/
inductive Asking
  | idle
  | asking (id : Uuid) (action frame : String)
  | past

def CallPc.asking : CallPc E R → Asking
  | .idle => .idle
  | .lockPending id action frame | .lockSink id action frame => .asking id action frame
  | _ => .past

/-- The frame a `call` hands to a sink. -/
def Event.request : Event E → Option (ℕ × String)
  | .issued (.call c) _ (.send frame) => some (c, frame)
  | _ => none

def Event.filing : Event E → Option (ℕ × Uuid × String)
  | .call (.registered c id action) => some (c, id, action)
  | _ => none

def ServiceNote.ask : ServiceNote E → Option Ask
  | .asked q => some q
  | _ => none

/-- The CALLs asked for. -/
def asks (log : List (ServiceNote E)) : List Ask := log.filterMap ServiceNote.ask

structure AskView where
  asking : ℕ → Asking
  draws : ℕ
  requests : List (ℕ × String)
  filings : List (ℕ × Uuid × String)

def State.askView (s : State E R) : AskView where
  asking c := (s.calls c).asking
  draws := s.draws
  requests := s.hist.filterMap Event.request
  filings := s.hist.filterMap Event.filing

variable (env : Env R)

def Ask.frame (q : Ask) : Except JsonError String :=
  requestFrame env messageTypeCall q.id q.action (.ok q.payload)

inductive AskStep (v : AskView) : AskView → List Ask → Prop
  | rest {draws : ℕ} (hd : v.draws ≤ draws) : AskStep v { v with draws := draws } []
  | ask {q : Ask} {frame : String} (hc : v.asking q.call = .idle) (hid : q.id = env.newV4 v.draws)
    (hf : q.frame env = .ok frame) :
    AskStep v
      { v with
        asking := Function.update v.asking q.call (.asking q.id q.action frame)
        draws := v.draws + 1 } [q]
  | past {c draws : ℕ} (hd : v.draws ≤ draws) :
    AskStep v { v with asking := Function.update v.asking c .past, draws := draws } []
  | file {c : ℕ} {id : Uuid} {action frame : String} (hc : v.asking c = .asking id action frame) :
    AskStep v { v with filings := v.filings ++ [(c, id, action)] } []
  | send {c : ℕ} {id : Uuid} {action frame : String} (hc : v.asking c = .asking id action frame) :
    AskStep v
      { v with
        asking := Function.update v.asking c .past
        requests := v.requests ++ [(c, frame)] } []

/-! ## Frames handed to a sink -/

theorem Event.sent_of_reply {e : Event E} {frame : String} (h : e.reply = some frame) :
    e.sent = some frame := by
  unfold Event.reply at h
  split at h <;> first | exact h | cases h

theorem Event.sent_of_request {e : Event E} {frame : String}
    (h : e.request.map Prod.snd = some frame) : e.sent = some frame := by
  unfold Event.request at h
  split at h
  · exact h
  · cases h

theorem Event.reply_eq_none {t : Task} {k : SinkId} {frame : String} :
    (Event.issued t k (.send frame) : Event E).reply = none ↔ ¬ t.Replies := by
  refine ⟨fun h ht => ?_, fun ht => Event.reply_of_task ht k _⟩
  unfold Task.Replies at ht
  split at ht <;> first | cases h | exact ht

/-- A projection of the frames handed to a sink that passes over all but those that `g` keeps. -/
theorem filterMap_sent {α : Type} {h : List (Event E)} {f : String → Option α}
    {g : Event E → Option String} (hg : ∀ e frame, g e = some frame → e.sent = some frame)
    (hf : ∀ t k frame, .issued t k (.send frame) ∈ h → g (.issued t k (.send frame)) = none →
      f frame = none) :
    (h.filterMap Event.sent).filterMap f = (h.filterMap g).filterMap f := by
  rw [List.filterMap_filterMap, List.filterMap_filterMap]
  refine List.filterMap_congr fun e he => ?_
  cases hge : g e with
  | some frame => rw [hg e frame hge]
  | none =>
    cases hs : e.sent with
    | none => rfl
    | some frame =>
      unfold Event.sent at hs
      split at hs
      · cases hs
        exact hf _ _ frame he hge
      · cases hs

/-! ## The invariant -/

structure AskInv (v : AskView) (qs : List Ask) : Prop where
  calls : (qs.map Ask.call).Nodup
  begun : ∀ q ∈ qs, v.asking q.call ≠ .idle
  asking : ∀ c id action frame, v.asking c = .asking id action frame →
    ∃ q ∈ qs, q.call = c ∧ q.id = id ∧ q.action = action ∧ q.frame env = .ok frame
  sent : ∃ sent : List Ask,
    List.Forall₂ (fun r q => q.call = r.1 ∧ q.frame env = .ok r.2) v.requests sent ∧ sent ⊆ qs
      ∧ (sent.map Ask.call).Nodup ∧ ∀ q ∈ sent, v.asking q.call = .past
  filed : ∀ c id action, (c, id, action) ∈ v.filings →
    ∃ q ∈ qs, q.call = c ∧ q.id = id ∧ q.action = action
  drawn : ∃ ns : List ℕ, qs.map Ask.id = ns.map env.newV4 ∧ ns.Nodup ∧ ∀ n ∈ ns, n < v.draws

variable {env} {v v' : AskView} {qs new : List Ask}

theorem AskInv.past (h : AskInv env v qs) {c draws : ℕ} (hd : v.draws ≤ draws) :
    AskInv env { v with asking := Function.update v.asking c .past, draws := draws } qs := by
  have hne : ∀ {x : ℕ} {a : Asking}, a ≠ .past → Function.update v.asking c .past x = a →
      v.asking x = a := by
    intro x a ha hx
    rcases eq_or_ne x c with rfl | hxc
    · rw [Function.update_self] at hx
      exact absurd hx.symm ha
    · rwa [Function.update_of_ne hxc] at hx
  obtain ⟨sent, hs, hsub, hnd, hpast⟩ := h.sent
  obtain ⟨ns, hns, hnn, hlt⟩ := h.drawn
  refine ⟨h.calls, fun q hq hi => h.begun q hq (hne (by simp) hi),
    fun x id action frame hx => h.asking x id action frame (hne (by simp) hx),
    ⟨sent, hs, hsub, hnd, fun q hq => ?_⟩, h.filed,
    ⟨ns, hns, hnn, fun n hn => Nat.lt_of_lt_of_le (hlt n hn) hd⟩⟩
  rcases eq_or_ne q.call c with hc | hc
  · rw [hc]
    exact Function.update_self ..
  · exact (Function.update_of_ne hc _ _).trans (hpast q hq)

theorem AskInv.ask (h : AskInv env v qs) {q : Ask} {frame : String}
    (hc : v.asking q.call = .idle) (hid : q.id = env.newV4 v.draws)
    (hf : q.frame env = .ok frame) :
    AskInv env
      { v with
        asking := Function.update v.asking q.call (.asking q.id q.action frame)
        draws := v.draws + 1 } (qs ++ [q]) := by
  have hnew : ∀ x ∈ qs, x.call ≠ q.call := fun x hx he => h.begun x hx (he ▸ hc)
  obtain ⟨sent, hs, hsub, hnd, hpast⟩ := h.sent
  obtain ⟨ns, hns, hnn, hlt⟩ := h.drawn
  refine ⟨?_, fun x hx => ?_, fun c id action fr hx => ?_,
    ⟨sent, hs, fun x hx => List.mem_append_left _ (hsub hx), hnd, fun x hx => ?_⟩,
    fun c id action hx => ?_, ⟨ns ++ [v.draws], ?_, ?_, ?_⟩⟩
  · rw [List.map_append, List.map_singleton, List.nodup_append]
    refine ⟨h.calls, List.nodup_singleton _, fun a ha b hb => ?_⟩
    obtain ⟨x, hx, rfl⟩ := List.mem_map.1 ha
    rw [List.mem_singleton.1 hb]
    exact hnew x hx
  · show Function.update v.asking q.call _ x.call ≠ .idle
    rcases List.mem_append.1 hx with hx | hx
    · rw [Function.update_of_ne (hnew x hx)]
      exact h.begun x hx
    · rw [List.mem_singleton.1 hx, Function.update_self]
      simp
  · replace hx : Function.update v.asking q.call _ c = .asking id action fr := hx
    rcases eq_or_ne c q.call with rfl | hne
    · rw [Function.update_self] at hx
      cases hx
      exact ⟨q, by simp, rfl, rfl, rfl, hf⟩
    · rw [Function.update_of_ne hne] at hx
      obtain ⟨x, hx, hr⟩ := h.asking c id action fr hx
      exact ⟨x, List.mem_append_left _ hx, hr⟩
  · exact (Function.update_of_ne (hnew x (hsub hx)) _ _).trans (hpast x hx)
  · obtain ⟨x, hx, hr⟩ := h.filed c id action hx
    exact ⟨x, List.mem_append_left _ hx, hr⟩
  · rw [List.map_append, List.map_append, hns, List.map_singleton, List.map_singleton, hid]
  · rw [List.nodup_append]
    refine ⟨hnn, List.nodup_singleton _, fun a ha b hb => ?_⟩
    rw [List.mem_singleton.1 hb]
    exact Nat.ne_of_lt (hlt a ha)
  · intro n hn
    rcases List.mem_append.1 hn with hn | hn
    · exact Nat.lt_succ_of_lt (hlt n hn)
    · rw [List.mem_singleton.1 hn]
      exact Nat.lt_succ_self _

/-- The frame a `call` hands over is that of its own CALL, which no other `call` has handed over. -/
theorem AskInv.send (h : AskInv env v qs) {c : ℕ} {id : Uuid} {action frame : String}
    (hc : v.asking c = .asking id action frame) :
    AskInv env
      { v with
        asking := Function.update v.asking c .past
        requests := v.requests ++ [(c, frame)] } qs := by
  have hp := h.past (c := c) (Nat.le_refl v.draws)
  obtain ⟨sent, hs, hsub, hnd, hpast⟩ := h.sent
  obtain ⟨q, hq, rfl, -, -, hf⟩ := h.asking c id action frame hc
  have hnew : q.call ∉ sent.map Ask.call := by
    intro hm
    obtain ⟨x, hx, he⟩ := List.mem_map.1 hm
    have hx' := hpast x hx
    rw [he, hc] at hx'
    cases hx'
  refine { hp with sent := ⟨sent ++ [q], ?_, ?_, ?_, ?_⟩ }
  · exact List.rel_append hs (.cons ⟨rfl, hf⟩ .nil)
  · exact List.append_subset.2 ⟨hsub, List.cons_subset.2 ⟨hq, List.nil_subset _⟩⟩
  · rw [List.map_append, List.map_singleton, List.nodup_append]
    refine ⟨hnd, List.nodup_singleton _, fun a ha b hb => ?_⟩
    rw [List.mem_singleton.1 hb]
    rintro rfl
    exact hnew ha
  · intro x hx
    rcases eq_or_ne x.call q.call with he | he
    · rw [he]
      exact Function.update_self ..
    · refine (Function.update_of_ne he _ _).trans (hpast x ?_)
      rcases List.mem_append.1 hx with hx | hx
      · exact hx
      · exact absurd (congrArg Ask.call (List.mem_singleton.1 hx)) he

theorem AskInv.step (h : AskInv env v qs) (hs : AskStep env v v' new) :
    AskInv env v' (qs ++ new) := by
  cases hs with
  | rest hd =>
    obtain ⟨ns, hns, hnn, hlt⟩ := h.drawn
    rw [List.append_nil]
    exact { h with drawn := ⟨ns, hns, hnn, fun n hn => Nat.lt_of_lt_of_le (hlt n hn) hd⟩ }
  | ask hc hid hf => exact h.ask hc hid hf
  | past hd => exact (List.append_nil qs).symm ▸ h.past hd
  | send hc => exact (List.append_nil qs).symm ▸ h.send hc
  | @file c id action frame hc =>
    rw [List.append_nil]
    refine { h with filed := fun c' id' action' hx => ?_ }
    rcases List.mem_append.1 hx with hx | hx
    · exact h.filed c' id' action' hx
    · cases List.mem_singleton.1 hx
      obtain ⟨q, hq, h₁, h₂, h₃, -⟩ := h.asking c id action frame hc
      exact ⟨q, hq, h₁, h₂, h₃⟩

/-- The frames handed over are those of some of the CALLs asked for, each once. -/
theorem AskInv.subperm (h : AskInv env v qs) :
    ∃ sent : List Ask,
      List.Forall₂ (fun r q => q.call = r.1 ∧ q.frame env = .ok r.2) v.requests sent
      ∧ sent.Subperm qs := by
  obtain ⟨sent, hs, hsub, hnd, -⟩ := h.sent
  exact ⟨sent, hs, (hnd.of_map _).subperm hsub⟩

/-! ## The steps -/

section Steps

variable [ProtocolError E] (env : Env R) (cfg : ClientConfig) {s s' : State E R} {a : Act E}

omit [ProtocolError E] in
theorem Event.request_of_kind {e : Event E} (he : e.kind ∈ unissued) : e.request = none := by
  unfold Event.request
  split
  · simp [unissued] at he
  · rfl

omit [ProtocolError E] in
theorem Event.filing_of_kind {e : Event E} (he : e.kind ≠ .call) : e.filing = none := by
  unfold Event.filing
  split
  · exact absurd rfl he
  · rfl

omit [ProtocolError E] in
/-- Only a `call` at the sink's lock hands over a request. -/
theorem Write.requests (hw : Write s s' a) :
    s'.hist.filterMap Event.request = s.hist.filterMap Event.request
      ∨ ∃ c id action frame, a = .poll (.call c) .ready ∧ s.calls c = .lockSink id action frame
        ∧ s'.hist.filterMap Event.request = s.hist.filterMap Event.request ++ [(c, frame)] := by
  cases hw with
  | none hg => exact .inl (hg.filterMap fun e he => e.request_of_kind he)
  | @issue t op ha ht _ h =>
    rw [h, List.filterMap_append]
    cases t with
    | call c =>
      unfold lockOp at ht
      simp only [] at ht
      split at ht
      · next id action frame hc =>
        cases ht
        exact .inr ⟨c, id, action, frame, ha, hc, rfl⟩
      · cases ht
    | _ => exact .inl (List.append_nil _)

omit [ProtocolError E] in
theorem AskStep.to {v : AskView} {new : List Ask} (h : AskStep env s.askView v new)
    (hc : (fun c => (s'.calls c).asking) = v.asking) (hd : s'.draws = v.draws)
    (hr : s'.hist.filterMap Event.request = v.requests)
    (hf : s'.hist.filterMap Event.filing = v.filings) : AskStep env s.askView s'.askView new := by
  have hv : s'.askView = v := by
    simp only [State.askView, hc, hd, hr, hf]
  exact hv ▸ h

omit [ProtocolError E] in
theorem asking_update (s : State E R) (c : ℕ) (pc : CallPc E R) :
    (fun x => (Function.update s.calls c pc x).asking)
      = Function.update s.askView.asking c pc.asking := by
  funext x
  rcases eq_or_ne x c with rfl | hx
  · rw [Function.update_self, Function.update_self]
  · rw [Function.update_of_ne hx, Function.update_of_ne hx]
    rfl

omit [ProtocolError E] in
theorem doSendRequest_askStep {c : ℕ} {action : String} {payload : Except JsonError Value}
    (h : doSendRequest env s c action payload = some s') :
    AskStep env s.askView s'.askView
      (asks (serviceNotes env s (.call c action payload : Act E))) := by
  unfold doSendRequest at h
  split at h
  case h_2 => cases h
  case h_1 hc =>
    split_ifs at h with hcl
    · cases h
      have hn : asks (serviceNotes env s (.call c action payload : Act E)) = [] := by
        cases payload <;> simp [serviceNotes, hcl, asks]
      rw [hn]
      exact .to env (.past (Nat.le_refl _)) (asking_update s c _) rfl rfl rfl
    · simp only [] at h
      cases hf : requestFrame env messageTypeCall (env.newV4 s.draws) action payload with
      | error e =>
        simp only [hf] at h
        cases h
        have hn : asks (serviceNotes env s (.call c action payload : Act E)) = [] := by
          cases payload <;> simp [serviceNotes, hf, asks]
        rw [hn]
        exact .to env (.past (Nat.le_succ _)) (asking_update s c _) rfl rfl rfl
      | ok frame =>
        simp only [hf] at h
        cases h
        cases payload with
        | error e => cases hf
        | ok p =>
          have hn : asks (serviceNotes env s (.call c action (.ok p) : Act E))
              = [⟨c, env.newV4 s.draws, action, p⟩] := by
            simp [serviceNotes, hc, hcl, hf, asks, ServiceNote.ask]
          have hi : s.askView.asking c = .idle := by
            simp only [State.askView, hc, CallPc.asking]
          rw [hn]
          exact .to env (.ask (q := ⟨c, env.newV4 s.draws, action, p⟩) hi rfl hf)
            (asking_update s c _) rfl rfl rfl

omit [ProtocolError E] in
/-- A `call` after its beginning, in a step that hands no request over. -/
theorem CallMove.askStep {c : ℕ} (h : CallMove env c s s')
    (hr : s'.hist.filterMap Event.request = s.hist.filterMap Event.request) :
    AskStep env s.askView s'.askView [] := by
  cases h with
  | @register id action frame hc h =>
    have ha : s.askView.asking c = .asking id action frame := by
      simp only [State.askView, hc, CallPc.asking]
    subst h
    refine .to env (.file ha) ?_ rfl hr (by simp [State.askView, Event.filing])
    refine (asking_update s c _).trans ?_
    rw [CallPc.asking, ← ha]
    exact Function.update_eq_self ..
  | @go pc _ _ hc hd hg hpc =>
    have hp : pc.asking = .past := by
      rcases hpc with ⟨_, _, _, -, rfl⟩ | ⟨_, _, -, rfl | rfl | ⟨_, rfl⟩⟩ | ⟨_, _, -, rfl⟩ <;> rfl
    refine .to env (.past (c := c) (Nat.le_refl _)) ?_ hd hr ?_
    · rw [hc, ← hp]
      exact asking_update s c pc
    · refine hg.filterMap fun e he => e.filing_of_kind ?_
      rw [List.mem_singleton.1 he]
      decide
  | take _ _ h | forget _ h =>
    subst h
    exact .to env (.past (Nat.le_refl _)) (asking_update s c _) rfl hr
      (by simp [State.askView, Event.filing])

omit [ProtocolError E] in
theorem asks_of_not_call (ha : ∀ c action payload, a ≠ .call c action payload) :
    asks (serviceNotes env s a) = [] := by
  have htake : ∀ ch act c, asks (takeNotes env ch act c : List (ServiceNote E)) = [] := by
    intro ch act c
    unfold takeNotes
    split
    · split <;> rfl
    · rfl
  unfold serviceNotes
  split
  · exact absurd rfl (ha _ _ _)
  · split
    · split_ifs <;> rfl
    · rfl
  · split
    · exact htake _ _ _
    · rfl
  · split
    · exact htake _ _ _
    · rfl
  · split <;> rfl
  · split <;> rfl
  · rfl

theorem askStep_of_step (hs : step env cfg s a = some s') :
    AskStep env s.askView s'.askView (asks (serviceNotes env s a)) := by
  by_cases ha : ∃ c action payload, a = .call c action payload
  · obtain ⟨c, action, payload, rfl⟩ := ha
    exact doSendRequest_askStep env hs
  · push Not at ha
    rw [asks_of_not_call env ha]
    rcases (write_cases env cfg hs).requests with hr | ⟨c, id, action, frame, rfl, hc, hr⟩
    · cases call_cases env cfg hs with
      | frame hf =>
        refine .to env (.rest hf.draws) ?_ rfl hr ?_
        · rw [hf.calls]
          rfl
        · refine hf.grows.filterMap fun e he => e.filing_of_kind ?_
          rintro hk
          rw [hk] at he
          simp at he
      | handle _ h =>
        subst h
        exact .to env (.rest (Nat.le_refl _)) rfl rfl hr
          (by simp [State.askView, resolvePending, Event.filing])
      | begin h => exact absurd rfl (ha _ _ _)
      | poll h => exact (callPoll_moves env h).askStep env hr
      | @drop c h =>
        have hd := callDrop_calls h
        obtain ⟨_, _, _, rfl⟩ := callDrop_footprint h
        refine .to env (.past (c := c) (Nat.le_refl _)) ?_ rfl hr rfl
        rw [hd]
        exact asking_update s c _
    · have ha : s.askView.asking c = .asking id action frame := by
        simp only [State.askView, hc, CallPc.asking]
      replace hs : callPoll env s c .ready = some s' := hs
      simp only [callPoll, hc] at hs
      obtain ⟨-, rfl⟩ := issue_map hs
      exact .to env (.send ha) (asking_update s c _) rfl hr
        (by simp [State.askView, State.setCall, Event.filing])

theorem askInv_of_reach {P : State E R × List (ServiceNote E) → Act E → Prop}
    {s : State E R × List (ServiceNote E)}
    (h : Machine.Reach ((client env cfg).observed (serviceNotes env)) P s) :
    AskInv env s.1.askView (asks s.2) := by
  refine h.invariant (I := fun s => AskInv env s.1.askView (asks s.2)) ?_ fun s a s' _ _ hs hI => ?_
  · exact ⟨.nil, by simp [Machine.observed, asks], by simp [Machine.observed, State.askView, client,
      State.new, CallPc.asking], ⟨[], .nil, by simp, .nil, by simp⟩, by simp [Machine.observed,
      State.askView, client, State.new], ⟨[], rfl, .nil, by simp⟩⟩
  · obtain ⟨hs, hl⟩ := Machine.observed_step hs
    rw [hl, asks, List.filterMap_append]
    exact hI.step (askStep_of_step env cfg hs)

/-! ## Notifications -/

/-- The frame is that of a SEND. -/
def Notice (frame : String) : Prop :=
  ∃ id action payload, requestFrame env messageTypeSend id action payload = .ok frame

inductive SendCase (s s' : State E R) : Prop
  | frame (h : s'.sends = s.sends)
  | move {n : ℕ} {pc : NotificationPc E} (h : s'.sends = Function.update s.sends n pc)
    (hpc : ∀ frame, pc = .lockSink frame → Notice env frame)

omit [ProtocolError E] in
theorem sendNotification_sends {n : ℕ} {action : String} {payload : Except JsonError Value}
    (h : sendNotification env s n action payload = some s') : SendCase env s s' := by
  unfold sendNotification at h
  split at h
  case h_2 => cases h
  case h_1 =>
    split_ifs at h
    · cases h
      exact .move rfl (by simp)
    · simp only [] at h
      split at h
      · next frame hf =>
        cases h
        refine .move rfl fun frame' he => ?_
        cases he
        exact ⟨_, _, _, hf⟩
      · cases h
        exact .move rfl (by simp)

omit [ProtocolError E] in
theorem notificationPoll_sends {n : ℕ} {p : Poll} (h : notificationPoll s n p = some s') :
    SendCase env s s' := by
  unfold notificationPoll at h
  split at h
  case h_1 =>
    obtain ⟨-, rfl⟩ := issue_map h
    exact .move rfl (by simp)
  case h_2 =>
    obtain ⟨-, rfl⟩ := pend_eq h
    exact .frame rfl
  case h_3 =>
    cases h
    exact .move rfl (by simp)
  case h_4 => cases h

theorem send_cases (hs : step env cfg s a = some s') : SendCase env s s' := by
  cases party_cases env cfg hs with
  | recv h => exact .frame (readRecv_frame env cfg h).sends
  | read h => exact .frame (readPoll_frame env cfg h).sends
  | notify h => exact sendNotification_sends env h
  | notificationPoll h => exact notificationPoll_sends env h
  | handlers h =>
    obtain ⟨_, _, _, _, _, _, _, rfl, -⟩ := h.footprint
    exact .frame rfl
  | other h => exact .frame h.sends

/-- The tasks that hand frames to a sink. -/
inductive Task.Sends : Task → Prop
  | reply {t : Task} (h : t.Replies) : Task.Sends t
  | call (c : ℕ) : Task.Sends (.call c)
  | notification (n : ℕ) : Task.Sends (.notification n)

structure NoticeInv (s : State E R) : Prop where
  lock : ∀ n frame, s.sends n = .lockSink frame → Notice env frame
  notices : ∀ n k frame, .issued (.notification n) k (.send frame) ∈ s.hist → Notice env frame
  sender : ∀ t k frame, .issued t k (.send frame) ∈ s.hist → t.Sends

omit [ProtocolError E] in
theorem sends_of_lockOp {t : Task} {frame : String} (h : lockOp s t = some (.send frame)) :
    t.Sends ∧ ∀ n, t = .notification n → s.sends n = .lockSink frame := by
  unfold lockOp at h
  split at h
  · exact ⟨.reply trivial, nofun⟩
  · exact ⟨.call _, nofun⟩
  · split at h <;> simp at h
  · next n =>
    refine ⟨.notification n, fun m hm => ?_⟩
    cases hm
    split at h
    · next hp =>
      cases h
      exact hp
    · cases h
  · split at h <;> simp at h
  · exact ⟨.reply trivial, nofun⟩
  · exact ⟨.reply trivial, nofun⟩
  · cases h

theorem noticeInv_of_reach {P : State E R → Act E → Prop}
    (h : Machine.Reach (client env cfg) P s) : NoticeInv env s := by
  refine h.invariant ⟨by simp [client, State.new], by simp [client, State.new],
    by simp [client, State.new]⟩ fun s a s' _ _ hs hI => ?_
  have hlock : ∀ n frame, s'.sends n = .lockSink frame → Notice env frame := by
    intro n frame hn
    cases send_cases env cfg hs with
    | frame h => exact hI.lock n frame (h ▸ hn)
    | @move m pc h hpc =>
      rw [h] at hn
      rcases eq_or_ne n m with rfl | hne
      · rw [Function.update_self] at hn
        exact hpc frame hn
      · rw [Function.update_of_ne hne] at hn
        exact hI.lock n frame hn
  cases write_cases env cfg hs with
  | none hg =>
    have hold : ∀ t k op, .issued t k op ∈ s'.hist → .issued t k op ∈ s.hist := fun t k op he =>
      hg.of_mem he (by simp [unissued])
    exact ⟨hlock, fun n k f he => hI.notices n k f (hold _ _ _ he),
      fun t k f he => hI.sender t k f (hold _ _ _ he)⟩
  | @issue t op _ ht _ h =>
    refine ⟨hlock, fun n k f he => ?_, fun t' k f he => ?_⟩
    · rw [h] at he
      rcases List.mem_append.1 he with he | he
      · exact hI.notices n k f he
      · cases List.mem_singleton.1 he
        exact hI.lock n f ((sends_of_lockOp ht).2 n rfl)
    · rw [h] at he
      rcases List.mem_append.1 he with he | he
      · exact hI.sender t' k f he
      · cases List.mem_singleton.1 he
        exact (sends_of_lockOp ht).1

omit [ProtocolError E] in
/-- A frame that is no reply is that of a CALL asked for, or of a SEND. -/
theorem request_or_notice {log : List (ServiceNote E)} (hA : AskInv env s.askView (asks log))
    (hN : NoticeInv env s) {t : Task} {k : SinkId} {frame : String}
    (he : .issued t k (.send frame) ∈ s.hist) (ht : ¬ t.Replies) :
    (∃ q ∈ asks log, q.frame env = .ok frame) ∨ Notice env frame := by
  cases hN.sender t k frame he with
  | reply h => exact absurd h ht
  | notification n => exact .inr (hN.notices n k frame he)
  | call c =>
    obtain ⟨sent, hs, hsub, -⟩ := hA.sent
    have hm : (c, frame) ∈ s.askView.requests := List.mem_filterMap.2 ⟨_, he, rfl⟩
    obtain ⟨q, hq, -, hf⟩ := History.exists_of_forall₂ hs hm
    exact .inl ⟨q, hsub hq, hf⟩

end Steps

end OcppClient
