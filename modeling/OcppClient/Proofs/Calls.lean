import Mathlib.Data.Set.Function
import Mathlib.Order.Interval.Set.Defs
import OcppClient.Lib.Correlation
import OcppClient.Proofs.Footprint

/-!
# Calls and their responses

`pending_responses` and the slots of the calls are a correlation table: a call files itself under
the id it drew, the read loop resolves ids, and a call that failed or timed out takes its own entry
out. The client simulates that table while the ids it draws are distinct, so a call returns what the
first response handled under its own id said, and the table holds exactly the ids still awaited.
-/

namespace OcppClient

open Transition History

variable {E R : Type}

/-- A step that does not concern the calls. -/
structure CallFrame (s s' : State E R) : Prop where
  pending : s'.pendingResponses = s.pendingResponses
  responses : s'.responses = s.responses
  calls : s'.calls = s.calls
  draws : s.draws ≤ s'.draws
  grows : Grows [.loop, .passage, .raised, .closed, .ping, .escalated, .issued] s.hist s'.hist

inductive CallCase (env : Env R) (s s' : State E R) : Act E → Prop
  | frame {a : Act E} (h : CallFrame s s') : CallCase env s s' a
  | handle {a : Act E} {id : Uuid} {v : Except E Value} (hr : s.read = .lockPending id v)
    (h : s' = resolvePending s id v) : CallCase env s s' a
  | begin {c : ℕ} {action : String} {payload : Except JsonError Value}
    (h : doSendRequest env s c action payload = some s') :
    CallCase env s s' (.call c action payload)
  | poll {c : ℕ} {p : Poll} (h : callPoll env s c p = some s') :
    CallCase env s s' (.poll (.call c) p)
  | drop {c : ℕ} (h : callDrop s c = some s') : CallCase env s s' (.dropCall c)

variable [ProtocolError E] (env : Env R) (cfg : ClientConfig) {s s' : State E R} {a : Act E}

omit [ProtocolError E] in
theorem ReadFrame.callCase (h : ReadFrame s s') : CallCase env s s' a := by
  rcases h.pending with ⟨hp, hr, hg⟩ | ⟨id, v, hr, rfl⟩
  · exact .frame ⟨hp, hr, h.calls, h.draws, hg.mono (by simp)⟩
  · exact .handle hr rfl

theorem call_cases (hs : step env cfg s a = some s') : CallCase env s s' a := by
  have hl : s.draws ≤ s.draws := Nat.le_refl _
  cases step_cases env cfg hs with
  | recv h => exact (readRecv_frame env cfg h).callCase env
  | read h => exact (readPoll_frame env cfg h).callCase env
  | keepalive h =>
    obtain ⟨_, _, _, _, _, _, _, rfl, hr⟩ := keepalivePoll_footprint cfg h
    exact .frame ⟨rfl, rfl, rfl, hl, hr.grows.mono (by simp)⟩
  | keepalivePing h =>
    obtain ⟨_, _, _, _, _, _, _, _, _, _, rfl, hr⟩ := keepalivePingPoll_footprint cfg h
    exact .frame ⟨rfl, rfl, rfl, hl, hr.grows.mono (by simp)⟩
  | callPoll h => exact .poll h
  | pingPoll h =>
    obtain ⟨_, _, _, _, _, _, _, rfl, hg⟩ := pingPoll_footprint h
    exact .frame ⟨rfl, rfl, rfl, hl, hg.mono (by simp)⟩
  | disconnectPoll h =>
    obtain ⟨_, _, _, _, rfl, hg⟩ := disconnectPoll_footprint h
    exact .frame ⟨rfl, rfl, rfl, hl, hg.mono (by simp)⟩
  | call h => exact .begin h
  | dropCall h => exact .drop h
  | ping h =>
    obtain ⟨_, rfl⟩ := sendPing_footprint cfg h
    exact .frame ⟨rfl, rfl, rfl, hl, .refl _ _⟩
  | dropPing h =>
    obtain ⟨_, _, _, rfl⟩ := pingDrop_footprint h
    exact .frame ⟨rfl, rfl, rfl, hl, .refl _ _⟩
  | disconnect h =>
    obtain ⟨_, _, _, _, _, rfl, hg⟩ := disconnect_footprint h
    exact .frame ⟨rfl, rfl, rfl, hl, hg.mono (by simp)⟩
  | forceReconnect h =>
    obtain ⟨_, _, he, hr⟩ := forceReconnect_footprint s
    subst h
    rw [he]
    exact .frame ⟨rfl, rfl, rfl, hl, hr.grows.mono (by simp)⟩
  | setPingInterval h =>
    subst h
    exact .frame ⟨rfl, rfl, rfl, hl, .refl _ _⟩
  | notificationPoll h =>
    obtain ⟨_, _, _, _, rfl, hg⟩ := notificationPoll_footprint h
    exact .frame ⟨rfl, rfl, rfl, hl, hg.mono (by simp)⟩
  | notify h =>
    obtain ⟨_, _, rfl, hd⟩ := sendNotification_footprint env h
    exact .frame ⟨rfl, rfl, rfl, hd, .refl _ _⟩
  | handlers h =>
    obtain ⟨_, _, _, _, _, _, _, rfl, hg⟩ := h.footprint
    exact .frame ⟨rfl, rfl, rfl, hl, hg.mono (by simp)⟩
  | background h =>
    obtain ⟨_, _, _, _, _, _, rfl⟩ := h
    exact .frame ⟨rfl, rfl, rfl, hl, .refl _ _⟩

/-- What a call does at each of its `await`s. -/
inductive CallMove (c : ℕ) (s s' : State E R) : Prop
  | register {id : Uuid} {action frame : String} (hc : s.calls c = .lockPending id action frame)
    (h : s' = { s with
      pendingResponses := Function.update s.pendingResponses id (some c)
      calls := Function.update s.calls c (.lockSink id action frame)
      hist := s.hist ++ [.call (.registered c id action)] })
  | go {pc : CallPc E R} (hp : s'.pendingResponses = s.pendingResponses)
    (hr : s'.responses = s.responses) (hc : s'.calls = Function.update s.calls c pc)
    (hd : s'.draws = s.draws) (hg : Grows [.issued] s.hist s'.hist)
    (hpc : (∃ id action frame, s.calls c = .lockSink id action frame ∧ pc = .sending id action)
      ∨ (∃ id action, s.calls c = .sending id action
        ∧ (pc = .sending id action ∨ pc = .waiting id action ∨ ∃ e, pc = .forget id (.transport e)))
      ∨ ∃ id action, s.calls c = .waiting id action ∧ pc = .forget id .timeout)
  | take {id : Uuid} {action : String} {v : Except E Value} (hc : s.calls c = .waiting id action)
    (hv : s.responses c = some v)
    (h : s' = { s with
      responses := Function.update s.responses c none
      calls := Function.update s.calls c (.returned (outcome env action v))
      hist := s.hist ++ [.call (.took c v)] })
  | forget {id : Uuid} {e : ClientError E} (hc : s.calls c = .forget id e)
    (h : s' = { s with
      pendingResponses := Function.update s.pendingResponses id none
      calls := Function.update s.calls c (.returned (.error e))
      hist := s.hist ++ [.call (.forgot c id)] })

omit [ProtocolError E] in
theorem callPoll_moves {c : ℕ} {p : Poll} (h : callPoll env s c p = some s') :
    CallMove env c s s' := by
  unfold callPoll at h
  split at h
  case h_1 id action frame hc =>
    cases h
    exact .register hc rfl
  case h_2 id action frame hc =>
    obtain ⟨-, rfl⟩ := issue_map h
    exact .go rfl rfl rfl rfl (.snoc (by simp)) (.inl ⟨_, _, _, hc, rfl⟩)
  case h_3 id action hc =>
    obtain ⟨-, rfl⟩ := pend_eq h
    have hu : s.calls = Function.update s.calls c (.sending id action) := by simp [← hc]
    exact .go rfl rfl hu rfl (.refl _ _) (.inr (.inl ⟨_, _, hc, .inl rfl⟩))
  case h_4 id action r hc =>
    cases h
    exact .go rfl rfl rfl rfl (.refl _ _) (.inr (.inl ⟨_, _, hc, .inr (.inl rfl)⟩))
  case h_5 id action e hc =>
    cases h
    exact .go rfl rfl rfl rfl (.refl _ _) (.inr (.inl ⟨_, _, hc, .inr (.inr ⟨e, rfl⟩)⟩))
  case h_6 id action hc =>
    unfold takeResponse at h
    split at h
    · next v hv =>
      cases h
      exact .take hc hv rfl
    · cases h
  case h_7 id action hc =>
    split_ifs at h
    cases h
    exact .go rfl rfl rfl rfl (.refl _ _) (.inr (.inr ⟨_, _, hc, rfl⟩))
  case h_8 id e hc =>
    cases h
    exact .forget hc rfl
  case h_9 => cases h

omit [ProtocolError E] in
theorem doSendRequest_calls {c : ℕ} {action : String} {payload : Except JsonError Value}
    (h : doSendRequest env s c action payload = some s') :
    s.calls c = .idle ∧ ∃ pc, s'.calls = Function.update s.calls c pc := by
  unfold doSendRequest at h
  split at h
  · next hc =>
    split_ifs at h
    · cases h
      exact ⟨hc, _, rfl⟩
    · simp only [] at h
      split at h <;> (cases h; exact ⟨hc, _, rfl⟩)
  · cases h

omit [ProtocolError E] in
theorem callDrop_calls {c : ℕ} (h : callDrop s c = some s') :
    s'.calls = Function.update s.calls c .dropped := by
  unfold callDrop at h
  split at h <;> cases h <;> rfl

/-! ## What a call has done so far -/

def Unregistered (h : List (Event E)) (c : ℕ) : Prop :=
  ∀ id action, .call (.registered c id action) ∉ h

/-- `c` registered once, under `id`, for `action`. -/
def Own (h : List (Event E)) (c : ℕ) (id : Uuid) (action : String) : Prop :=
  .call (.registered c id action) ∈ h
    ∧ ∀ id' action', .call (.registered c id' action') ∈ h → id' = id ∧ action' = action

/-- The errors of a call that no response decides. -/
inductive Failure : ClientError E → Prop
  | timeout : Failure .timeout
  | transport (e : TransportError) : Failure (.transport e)

/-- What the history says of a call that stands at `pc`. -/
def CallOk (h : List (Event E)) (c : ℕ) : CallPc E R → Prop
  | .idle => Unregistered h c
  | .lockPending id _ _ => Unregistered h c ∧ ∀ c' action, .call (.registered c' id action) ∉ h
  | .lockSink id action _ => Own h c id action
  | .sending id action => Own h c id action
  | .waiting id action => Own h c id action
  | .forget id e => (∃ action, Own h c id action) ∧ Failure e
  | .returned r =>
    Unregistered h c ∧ (r = .error .closed ∨ ∃ e, r = .error (.decode e))
      ∨ ∃ id action, Own h c id action
        ∧ ((∃ v, .call (.took c v) ∈ h ∧ r = outcome env action v) ∨ ∃ e, r = .error e ∧ Failure e)
  | .dropped => Unregistered h c ∨ ∃ id action, Own h c id action

/-- The entry of a call may be in the table: it has registered and not returned. -/
def Filed : CallPc E R → Prop
  | .lockSink _ _ _ | .sending _ _ | .waiting _ _ | .forget _ _ | .dropped => True
  | _ => False

structure CallInv (s : State E R) : Prop where
  ok : ∀ c, CallOk env s.hist c (s.calls c)
  drawn : ∀ c id action, .call (.registered c id action) ∈ s.hist → ∃ i < s.draws, env.newV4 i = id
  drawing : ∀ c id action frame, s.calls c = .lockPending id action frame →
    ∃ i < s.draws, env.newV4 i = id
  distinct : ∀ c c' id action action' frame frame', s.calls c = .lockPending id action frame →
    s.calls c' = .lockPending id action' frame' → c = c'
  entry : ∀ id c, s.pendingResponses id = some c →
    s.responses c = none ∧ Filed (s.calls c) ∧ ∃ action, .call (.registered c id action) ∈ s.hist
  slot : ∀ c, ¬ Filed (s.calls c) → (∀ r, s.calls c ≠ .returned r) → s.responses c = none

omit [ProtocolError E] in
theorem CallOk.single {h : List (Event E)} {c : ℕ} {pc : CallPc E R} (hok : CallOk env h c pc)
    {id id' : Uuid} {action action' : String} (h₁ : .call (.registered c id action) ∈ h)
    (h₂ : .call (.registered c id' action') ∈ h) : id = id' := by
  have hown : ∀ {i act}, Own h c i act → id = id' := fun ho =>
    (ho.2 _ _ h₁).1.trans (ho.2 _ _ h₂).1.symm
  cases pc with
  | idle => exact absurd h₁ (hok _ _)
  | lockPending => exact absurd h₁ (hok.1 _ _)
  | lockSink => exact hown hok
  | sending => exact hown hok
  | waiting => exact hown hok
  | forget =>
    obtain ⟨⟨_, ho⟩, -⟩ := hok
    exact hown ho
  | returned =>
    rcases hok with ⟨hu, -⟩ | ⟨_, _, ho, -⟩
    · exact absurd h₁ (hu _ _)
    · exact hown ho
  | dropped =>
    rcases hok with hu | ⟨_, _, ho⟩
    · exact absurd h₁ (hu _ _)
    · exact hown ho

/-- The history went on without a registration of `c` or of the id it is about to register. -/
structure Quiet (h h' : List (Event E)) (c : ℕ) (pc : CallPc E R) : Prop where
  sub : ∀ e, e ∈ h → e ∈ h'
  own : ∀ id action, .call (.registered c id action) ∈ h' → .call (.registered c id action) ∈ h
  fresh : ∀ id action frame c' action', pc = .lockPending id action frame →
    .call (.registered c' id action') ∈ h' → .call (.registered c' id action') ∈ h

omit [ProtocolError E] in
theorem CallOk.quiet {h h' : List (Event E)} {c : ℕ} {pc : CallPc E R} (hok : CallOk env h c pc)
    (hq : Quiet h h' c pc) : CallOk env h' c pc := by
  have hu : Unregistered h c → Unregistered h' c :=
    fun hu id action hm => hu id action (hq.own _ _ hm)
  have ho : ∀ {id action}, Own h c id action → Own h' c id action := fun ho =>
    ⟨hq.sub _ ho.1, fun _ _ hm => ho.2 _ _ (hq.own _ _ hm)⟩
  cases pc with
  | idle => exact hu hok
  | lockPending => exact ⟨hu hok.1, fun c' action hm => hok.2 c' action (hq.fresh _ _ _ _ _ rfl hm)⟩
  | lockSink => exact ho hok
  | sending => exact ho hok
  | waiting => exact ho hok
  | forget =>
    obtain ⟨⟨action, hown⟩, hf⟩ := hok
    exact ⟨⟨action, ho hown⟩, hf⟩
  | returned =>
    rcases hok with ⟨hun, hr⟩ | ⟨id, action, hown, hr⟩
    · exact .inl ⟨hu hun, hr⟩
    · refine .inr ⟨id, action, ho hown, ?_⟩
      rcases hr with ⟨v, hv, hr⟩ | hr
      · exact .inl ⟨v, hq.sub _ hv, hr⟩
      · exact .inr hr
  | dropped =>
    rcases hok with hun | ⟨id, action, hown⟩
    · exact .inl (hu hun)
    · exact .inr ⟨id, action, ho hown⟩

omit [ProtocolError E] in
theorem Grows.quiet {ks : List Kind} {h h' : List (Event E)} (hg : Grows ks h h')
    (hk : .call ∉ ks) (c : ℕ) (pc : CallPc E R) : Quiet h h' c pc :=
  ⟨fun _ => hg.mem, fun _ _ hm => hg.of_mem hm hk, fun _ _ _ _ _ _ hm => hg.of_mem hm hk⟩

/-! ## The invariant is kept -/

section Step

variable {env}

omit [ProtocolError E] in
theorem CallInv.frame (hI : CallInv env s) (hf : CallFrame s s') : CallInv env s' := by
  have hk : Kind.call ∉ [Kind.loop, .passage, .raised, .closed, .ping, .escalated, .issued] := by
    decide
  refine ⟨fun c => ?_, fun c id action hm => ?_, fun c id action frame hc => ?_, ?_,
    fun id c h => ?_, ?_⟩
  · rw [hf.calls]
    exact (hI.ok c).quiet env (hf.grows.quiet hk c _)
  · obtain ⟨i, hi, he⟩ := hI.drawn c id action (hf.grows.of_mem hm hk)
    exact ⟨i, Nat.lt_of_lt_of_le hi hf.draws, he⟩
  · rw [hf.calls] at hc
    obtain ⟨i, hi, he⟩ := hI.drawing c id action frame hc
    exact ⟨i, Nat.lt_of_lt_of_le hi hf.draws, he⟩
  · rw [hf.calls]
    exact hI.distinct
  · rw [hf.pending] at h
    obtain ⟨h₁, h₂, action, hm⟩ := hI.entry id c h
    rw [hf.responses, hf.calls]
    exact ⟨h₁, h₂, action, hf.grows.mem hm⟩
  · rw [hf.responses, hf.calls]
    exact hI.slot

omit [ProtocolError E] in
/-- A call that is not filed has no entry. -/
theorem CallInv.no_entry (hI : CallInv env s) {c : ℕ} (hc : ¬ Filed (s.calls c)) (id : Uuid) :
    s.pendingResponses id ≠ some c :=
  fun h => hc (hI.entry id c h).2.1

omit [ProtocolError E] in
/-- One call moves to `pc`, and the table and the slots stay. -/
theorem CallInv.move (hI : CallInv env s) {c : ℕ} {pc : CallPc E R} {ks : List Kind}
    (hp : s'.pendingResponses = s.pendingResponses) (hr : s'.responses = s.responses)
    (hc : s'.calls = Function.update s.calls c pc) (hd : s.draws ≤ s'.draws)
    (hg : Grows ks s.hist s'.hist) (hk : .call ∉ ks) (hok : CallOk env s.hist c pc)
    (hnew : ∀ id action frame, pc = .lockPending id action frame →
      (∃ i < s'.draws, env.newV4 i = id)
      ∧ ∀ c' action' frame', s.calls c' ≠ .lockPending id action' frame')
    (hfiled : Filed pc ∨ ∀ id, s.pendingResponses id ≠ some c)
    (hslot : ¬ Filed pc → (∀ r, pc ≠ .returned r) → s.responses c = none) : CallInv env s' := by
  refine ⟨fun c' => ?_, fun c' id action hm => ?_, fun c' id action frame h => ?_,
    fun c₁ c₂ id action action' frame frame' h₁ h₂ => ?_, fun id c' h => ?_, fun c' h₁ h₂ => ?_⟩
  · rw [hc]
    rcases eq_or_ne c' c with rfl | hne
    · rw [Function.update_self]
      exact hok.quiet env (hg.quiet hk _ _)
    · rw [Function.update_of_ne hne]
      exact (hI.ok c').quiet env (hg.quiet hk _ _)
  · obtain ⟨i, hi, he⟩ := hI.drawn c' id action (hg.of_mem hm hk)
    exact ⟨i, Nat.lt_of_lt_of_le hi hd, he⟩
  · rw [hc] at h
    rcases eq_or_ne c' c with rfl | hne
    · rw [Function.update_self] at h
      exact (hnew _ _ _ h).1
    · rw [Function.update_of_ne hne] at h
      obtain ⟨i, hi, he⟩ := hI.drawing c' id action frame h
      exact ⟨i, Nat.lt_of_lt_of_le hi hd, he⟩
  · rw [hc] at h₁ h₂
    rcases eq_or_ne c₁ c with rfl | h₁c
    · rcases eq_or_ne c₂ c₁ with rfl | h₂c
      · rfl
      · rw [Function.update_self] at h₁
        rw [Function.update_of_ne h₂c] at h₂
        exact absurd h₂ ((hnew _ _ _ h₁).2 _ _ _)
    · rw [Function.update_of_ne h₁c] at h₁
      rcases eq_or_ne c₂ c with rfl | h₂c
      · rw [Function.update_self] at h₂
        exact absurd h₁ ((hnew _ _ _ h₂).2 _ _ _)
      · rw [Function.update_of_ne h₂c] at h₂
        exact hI.distinct _ _ _ _ _ _ _ h₁ h₂
  · rw [hp] at h
    obtain ⟨h₁, h₂, action, hm⟩ := hI.entry id c' h
    refine ⟨by rw [hr]; exact h₁, ?_, action, hg.mem hm⟩
    rw [hc]
    rcases eq_or_ne c' c with rfl | hne
    · rw [Function.update_self]
      exact hfiled.resolve_right fun hn => hn id h
    · rwa [Function.update_of_ne hne]
  · rw [hc] at h₁ h₂
    rw [hr]
    rcases eq_or_ne c' c with rfl | hne
    · rw [Function.update_self] at h₁ h₂
      exact hslot h₁ h₂
    · rw [Function.update_of_ne hne] at h₁ h₂
      exact hI.slot c' h₁ h₂

omit [ProtocolError E] in
/-- `do_send_request` begins, drawing an id no earlier draw gave. -/
theorem CallInv.begin (hI : CallInv env s) {c : ℕ} {action : String}
    {payload : Except JsonError Value} (h : doSendRequest env s c action payload = some s')
    (hd : Set.InjOn env.newV4 (Set.Iio s'.draws)) : CallInv env s' := by
  unfold doSendRequest at h
  split at h
  case h_2 => cases h
  case h_1 hc =>
    have hok : Unregistered s.hist c := by have := hI.ok c; rwa [hc] at this
    have hno : ∀ id, s.pendingResponses id ≠ some c := hI.no_entry (by rw [hc]; exact id)
    split_ifs at h with hcl
    · cases h
      exact hI.move rfl rfl rfl (Nat.le_refl _) (.refl [] _) (by simp) (.inl ⟨hok, .inl rfl⟩)
        (by simp) (.inr hno) (fun _ hr => absurd rfl (hr _))
    simp only [] at h
    split at h
    · cases h
      have hfresh : ∀ i < s.draws, env.newV4 i ≠ env.newV4 s.draws := fun i hi he =>
        absurd (hd (Nat.lt_succ_of_lt hi) (Nat.lt_succ_self _) he) (Nat.ne_of_lt hi)
      refine hI.move rfl rfl rfl (Nat.le_succ _) (.refl [] _) (by simp) ⟨hok, fun c' act hm => ?_⟩
        (fun id act frame he => ?_) (.inr hno)
        (fun _ _ => hI.slot c (by rw [hc]; exact id) (by simp [hc]))
      · obtain ⟨i, hi, he⟩ := hI.drawn _ _ _ hm
        exact hfresh i hi he
      · cases he
        refine ⟨⟨s.draws, Nat.lt_succ_self _, rfl⟩, fun c' act' frame' hc' => ?_⟩
        obtain ⟨i, hi, he⟩ := hI.drawing _ _ _ _ hc'
        exact hfresh i hi he
    · cases h
      exact hI.move rfl rfl rfl (Nat.le_succ _) (.refl [] _) (by simp) (.inl ⟨hok, .inr ⟨_, rfl⟩⟩)
        (by simp) (.inr hno) (fun _ hr => absurd rfl (hr _))

omit [ProtocolError E] in
theorem CallOk.dropped {h : List (Event E)} {c : ℕ} {pc : CallPc E R} (hok : CallOk env h c pc) :
    CallOk env h c (.dropped : CallPc E R) := by
  cases pc with
  | idle => exact .inl hok
  | lockPending => exact .inl hok.1
  | lockSink => exact .inr ⟨_, _, hok⟩
  | sending => exact .inr ⟨_, _, hok⟩
  | waiting => exact .inr ⟨_, _, hok⟩
  | forget =>
    obtain ⟨⟨action, ho⟩, -⟩ := hok
    exact .inr ⟨_, action, ho⟩
  | returned =>
    rcases hok with ⟨hu, -⟩ | ⟨id, action, ho, -⟩
    · exact .inl hu
    · exact .inr ⟨id, action, ho⟩
  | dropped => exact hok

omit [ProtocolError E] in
theorem CallInv.drop (hI : CallInv env s) {c : ℕ} (h : callDrop s c = some s') :
    CallInv env s' := by
  have hok := (hI.ok c).dropped
  unfold callDrop at h
  split at h <;> cases h <;>
    exact hI.move rfl rfl rfl (Nat.le_refl _) (.refl [] _) (by simp) hok (by simp) (.inl trivial)
      (fun hn => absurd trivial hn)

omit [ProtocolError E] in
theorem CallInv.register (hI : CallInv env s) {c : ℕ} {id : Uuid} {action frame : String}
    (hc : s.calls c = .lockPending id action frame) :
    CallInv env { s with
      pendingResponses := Function.update s.pendingResponses id (some c)
      calls := Function.update s.calls c (.lockSink id action frame)
      hist := s.hist ++ [.call (.registered c id action)] } := by
  have hok := hI.ok c
  rw [hc] at hok
  have hfile : ¬ Filed (s.calls c) := by rw [hc]; exact fun h => h
  refine ⟨fun c' => ?_, fun c' id' action' hm => ?_, fun c' id' action' frame' h => ?_,
    fun c₁ c₂ id' act₁ act₂ fr₁ fr₂ h₁ h₂ => ?_, fun id' c' h => ?_, fun c' h₁ h₂ => ?_⟩
  · rcases eq_or_ne c' c with rfl | hne
    · simp only [Function.update_self]
      refine ⟨by simp, fun id' action' hm => ?_⟩
      simp only [List.mem_append, List.mem_singleton, Event.call.injEq, CallEvent.registered.injEq,
        true_and] at hm
      exact hm.resolve_left (hok.1 _ _)
    · simp only [Function.update_of_ne hne]
      refine (hI.ok c').quiet env ⟨fun e he => by simp [he], fun id' action' hm => ?_,
        fun id' action' frame' c'' action'' hpc hm => ?_⟩
      · simp only [List.mem_append, List.mem_singleton, Event.call.injEq,
          CallEvent.registered.injEq] at hm
        exact hm.resolve_right fun he => hne he.1
      · simp only [List.mem_append, List.mem_singleton, Event.call.injEq,
          CallEvent.registered.injEq] at hm
        refine hm.resolve_right fun he => hne ?_
        rw [he.2.1] at hpc
        exact hI.distinct _ _ _ _ _ _ _ hpc hc
  · simp only [List.mem_append, List.mem_singleton, Event.call.injEq,
      CallEvent.registered.injEq] at hm
    rcases hm with hm | ⟨-, rfl, -⟩
    · exact hI.drawn _ _ _ hm
    · exact hI.drawing _ _ _ _ hc
  · rcases eq_or_ne c' c with rfl | hne
    · simp at h
    · simp only [Function.update_of_ne hne] at h
      exact hI.drawing _ _ _ _ h
  · have h₁c : c₁ ≠ c := by rintro rfl; simp at h₁
    have h₂c : c₂ ≠ c := by rintro rfl; simp at h₂
    simp only [Function.update_of_ne h₁c] at h₁
    simp only [Function.update_of_ne h₂c] at h₂
    exact hI.distinct _ _ _ _ _ _ _ h₁ h₂
  · rcases eq_or_ne id' id with rfl | hid
    · simp only [Function.update_self, Option.some.injEq] at h
      subst h
      refine ⟨hI.slot c hfile (by simp [hc]), ?_, action, by simp⟩
      simp only [Function.update_self]
      trivial
    · simp only [Function.update_of_ne hid] at h
      obtain ⟨h₁, h₂, action', hm⟩ := hI.entry id' c' h
      have hne : c' ≠ c := by rintro rfl; exact hfile h₂
      refine ⟨h₁, ?_, action', by simp [hm]⟩
      simpa only [Function.update_of_ne hne] using h₂
  · rcases eq_or_ne c' c with rfl | hne
    · exact hI.slot c' hfile (by simp [hc])
    · simp only [Function.update_of_ne hne] at h₁ h₂
      exact hI.slot c' h₁ h₂

omit [ProtocolError E] in
/-- One call returns: the table may have lost an entry, and the slot of the call may be empty. -/
theorem CallInv.finish (hI : CallInv env s) {c : ℕ} {r : Except (ClientError E) R} {e : Event E}
    (hc : s'.calls = Function.update s.calls c (.returned r)) (hd : s'.draws = s.draws)
    (hh : s'.hist = s.hist ++ [e]) (he : ∀ c id action, e ≠ .call (.registered c id action))
    (hp : ∀ id c', s'.pendingResponses id = some c' → s.pendingResponses id = some c' ∧ c' ≠ c)
    (hr : ∀ c' ≠ c, s'.responses c' = s.responses c')
    (hok : CallOk env s'.hist c (.returned r : CallPc E R)) : CallInv env s' := by
  have hreg : ∀ c id action, .call (.registered c id action) ∈ s'.hist →
      .call (.registered c id action) ∈ s.hist := by
    intro c id action hm
    rw [hh, List.mem_append, List.mem_singleton] at hm
    exact hm.resolve_right fun h => he _ _ _ h.symm
  have hmem : ∀ x ∈ s.hist, x ∈ s'.hist := fun x hx => by simp [hh, hx]
  refine ⟨fun c' => ?_, fun c' id action hm => ?_, fun c' id action frame h => ?_,
    fun c₁ c₂ id act₁ act₂ fr₁ fr₂ h₁ h₂ => ?_, fun id c' h => ?_, fun c' h₁ h₂ => ?_⟩
  · rw [hc]
    rcases eq_or_ne c' c with rfl | hne
    · rwa [Function.update_self]
    · rw [Function.update_of_ne hne]
      exact (hI.ok c').quiet env ⟨hmem, fun _ _ => hreg _ _ _, fun _ _ _ _ _ _ => hreg _ _ _⟩
  · rw [hd]
    exact hI.drawn c' id action (hreg _ _ _ hm)
  · rw [hd]
    have hne : c' ≠ c := by rintro rfl; simp [hc] at h
    rw [hc, Function.update_of_ne hne] at h
    exact hI.drawing _ _ _ _ h
  · have h₁c : c₁ ≠ c := by rintro rfl; simp [hc] at h₁
    have h₂c : c₂ ≠ c := by rintro rfl; simp [hc] at h₂
    rw [hc, Function.update_of_ne h₁c] at h₁
    rw [hc, Function.update_of_ne h₂c] at h₂
    exact hI.distinct _ _ _ _ _ _ _ h₁ h₂
  · obtain ⟨h, hne⟩ := hp id c' h
    obtain ⟨h₁, h₂, action, hm⟩ := hI.entry id c' h
    rw [hr c' hne, hc, Function.update_of_ne hne]
    exact ⟨h₁, h₂, action, hmem _ hm⟩
  · have hne : c' ≠ c := by rintro rfl; exact h₂ r (by simp [hc])
    rw [hc, Function.update_of_ne hne] at h₁ h₂
    rw [hr c' hne]
    exact hI.slot c' h₁ h₂

omit [ProtocolError E] in
theorem Own.snoc {h : List (Event E)} {c : ℕ} {id : Uuid} {action : String} (ho : Own h c id action)
    {e : Event E} (he : ∀ c id action, e ≠ .call (.registered c id action)) :
    Own (h ++ [e]) c id action := by
  refine ⟨by simp [ho.1], fun id' action' hm => ?_⟩
  rw [List.mem_append, List.mem_singleton] at hm
  exact ho.2 _ _ (hm.resolve_right fun h => he _ _ _ h.symm)

omit [ProtocolError E] in
theorem CallInv.poll (hI : CallInv env s) {c : ℕ} (h : CallMove env c s s') : CallInv env s' := by
  have hok := hI.ok c
  cases h with
  | register hc h =>
    subst h
    exact hI.register hc
  | go hp hr hc hd hg hpc =>
    refine hI.move hp hr hc (Nat.le_of_eq hd.symm) hg (by simp) ?_ ?_ ?_ ?_
    all_goals
      rcases hpc with ⟨id, action, frame, hc', rfl⟩ | ⟨id, action, hc', rfl | rfl | ⟨e, rfl⟩⟩
        | ⟨id, action, hc', rfl⟩
    all_goals rw [hc'] at hok
    all_goals try simp only [Filed, reduceCtorEq, false_implies, implies_true, true_or,
      not_true_eq_false]
    · exact hok
    · exact hok
    · exact hok
    · exact ⟨⟨action, hok⟩, .transport e⟩
    · exact ⟨⟨action, hok⟩, .timeout⟩
  | @take id action v hc hv h =>
    subst h
    rw [hc] at hok
    refine hI.finish (e := .call (.took c v)) rfl rfl rfl (by simp) (fun id' c' h => ⟨h, ?_⟩)
      (fun c' hne => by simp [Function.update_of_ne hne])
      (.inr ⟨id, action, hok.snoc (by simp), .inl ⟨v, by simp, rfl⟩⟩)
    rintro rfl
    have := (hI.entry _ _ h).1
    rw [hv] at this
    cases this
  | @forget id e hc h =>
    subst h
    rw [hc] at hok
    obtain ⟨⟨action, ho⟩, hf⟩ := hok
    refine hI.finish (e := .call (.forgot c id)) rfl rfl rfl (by simp) (fun id' c' h => ?_)
      (fun _ _ => rfl) (.inr ⟨id, action, ho.snoc (by simp), .inr ⟨e, rfl, hf⟩⟩)
    rcases eq_or_ne id' id with rfl | hid
    · simp at h
    · simp only [Function.update_of_ne hid] at h
      refine ⟨h, ?_⟩
      rintro rfl
      obtain ⟨-, -, action', hm⟩ := hI.entry _ _ h
      exact hid (ho.2 _ _ hm).1

omit [ProtocolError E] in
theorem CallInv.handle (hI : CallInv env s) (id : Uuid) (v : Except E Value) :
    CallInv env (resolvePending s id v) := by
  have hreg : ∀ c id' action,
      .call (.registered c id' action) ∈ s.hist ++ [Event.call (.handled id v)] →
      .call (.registered c id' action) ∈ s.hist := by
    intro c id' action hm
    simpa using hm
  have hslot : ∀ c, (∀ id', s.pendingResponses id' ≠ some c) →
      (resolvePending s id v).responses c = s.responses c := by
    intro c hn
    unfold resolvePending
    rcases hp : s.pendingResponses id with _ | c₀
    · rfl
    · have hne : c ≠ c₀ := by rintro rfl; exact hn id hp
      simp [Function.update_of_ne hne]
  refine ⟨fun c => ?_, fun c id' action hm => hI.drawn c id' action (hreg _ _ _ hm), hI.drawing,
    hI.distinct, fun id' c h => ?_, fun c h₁ h₂ => ?_⟩
  · exact (hI.ok c).quiet env
      ⟨fun e he => by simp [resolvePending, he], fun _ _ => hreg _ _ _,
        fun _ _ _ _ _ _ => hreg _ _ _⟩
  · have hid : id' ≠ id := by rintro rfl; simp [resolvePending] at h
    simp only [resolvePending, Function.update_of_ne hid] at h
    obtain ⟨h₁, h₂, action, hm⟩ := hI.entry id' c h
    refine ⟨?_, h₂, action, by simp [resolvePending, hm]⟩
    unfold resolvePending
    rcases hp : s.pendingResponses id with _ | c₀
    · exact h₁
    · have hne : c ≠ c₀ := by
        rintro rfl
        obtain ⟨-, -, action', hm'⟩ := hI.entry id c hp
        exact hid ((hI.ok c).single env hm hm')
      simpa [Function.update_of_ne hne] using h₁
  · rw [hslot c (hI.no_entry h₁)]
    exact hI.slot c h₁ h₂

end Step

end OcppClient
