import OcppClient.Lib.Ranking
import OcppClient.Proofs.Calls
import OcppClient.Proofs.Releases

/-!
# Every future comes to its end

A call, a ping, a notification and a `disconnect` go through their `await`s in one direction. So
each of them takes a bounded number of polls, however the steps of the others fall between them,
and from any state it can be brought to its end by its own polls, once the operation that another
task has begun on the sink has ended.
-/

namespace OcppClient

open Transition

variable {E R : Type}

/-! ## How far a future has come -/

def CallPc.stage : CallPc E R → ℕ
  | .idle | .lockPending _ _ _ => 6
  | .lockSink _ _ _ => 5
  | .sending _ _ => 3
  | .waiting _ _ => 2
  | .forget _ _ => 1
  | .returned _ | .dropped => 0

def PingPc.stage : PingPc E → ℕ
  | .idle | .lockWaiters _ => 6
  | .lockSink _ _ => 5
  | .sending _ _ => 3
  | .waiting _ _ => 2
  | .forget _ _ => 1
  | .returned _ | .dropped => 0

def NotificationPc.stage : NotificationPc E → ℕ
  | .idle | .lockSink _ => 3
  | .sending => 1
  | .returned _ => 0

def DisconnectPc.stage : DisconnectPc E → ℕ
  | .idle | .lockSink => 3
  | .closing => 1
  | .returned _ | .alreadyClosed => 0

/-- The way of the read loop out, once the client is closed. -/
def ReadPc.stage : ReadPc E → ℕ
  | .dial false | .lockRequestSenders _ _ _ | .notifyPing _ => 6
  | .dial true | .lockNotImplemented _ | .lockPong _ | .lockClose => 5
  | .lockSwap _ | .lockNotificationSenders _ _ => 4
  | .notifyReconnect | .pushRequest _ _ _ | .pushNotification _ _ => 3
  | .lockPending _ _ | .lockWaiters _ => 3
  | .sendNotImplemented | .sendPong | .sendClose => 3
  | .recv | .clearWaiters => 2
  | .clearShutdown | .backoff _ => 1
  | .exited => 0

/-- The `await`s a task has before it, but for the one `Pending` of its operation on the sink. -/
def stage (s : State E R) : Task → ℕ
  | .read => s.read.stage
  | .call c => (s.calls c).stage
  | .ping p => (s.pings p).stage
  | .notification n => (s.sends n).stage
  | .disconnect d => (s.disconnects d).stage
  | _ => 0

/-- The task is inside an operation on the sink that may still return `Pending`. -/
def slack (s : State E R) (t : Task) : ℕ :=
  if (sinkPc s t).isOp = true ∧ s.pended = false then 1 else 0

def weight (s : State E R) (t : Task) : ℕ := stage s t + slack s t

variable {s s' : State E R}

theorem slack_le_one (s : State E R) (t : Task) : slack s t ≤ 1 := by
  unfold slack
  split_ifs <;> omega

/-- A task comes nearer to its end, or its operation returns `Pending`. -/
inductive Nearer (s s' : State E R) (t : Task) : Prop
  | stage (h : stage s' t + slack s' t < stage s t)
  | pend (h : OcppClient.stage s' t = OcppClient.stage s t) (hop : (sinkPc s t).isOp = true)
    (hn : s.pended = false) (hp : s'.pended = true)

theorem Nearer.weight_lt {t : Task} (h : Nearer s s' t) : weight s' t < weight s t := by
  unfold weight
  cases h with
  | stage h => omega
  | pend h hop hn hp =>
    have h₁ : slack s t = 1 := by simp [slack, hop, hn]
    have h₀ : slack s' t = 0 := by simp [slack, hp]
    omega

/-! ## The polls of a future -/

theorem callPoll_nearer {env : Env R} {c : ℕ} {p : Poll} (h : callPoll env s c p = some s') :
    Nearer s s' (.call c) := by
  unfold callPoll at h
  split at h
  case h_2 hc =>
    obtain ⟨-, rfl⟩ := issue_map h
    exact .stage (by
      simp [stage, slack, sinkPc, hc, State.setCall, CallPc.stage, CallPc.sink, Mutex.Pc.isOp])
  case h_3 hc =>
    obtain ⟨hn, rfl⟩ := pend_eq h
    exact .pend rfl (by simp [sinkPc, hc, CallPc.sink, Mutex.Pc.isOp]) hn rfl
  case h_6 hc =>
    unfold takeResponse at h
    split at h <;> cases h
    exact .stage (by simp [stage, slack, sinkPc, hc, CallPc.stage, CallPc.sink, Mutex.Pc.isOp])
  case h_7 hc =>
    split_ifs at h
    cases h
    exact .stage (by
      simp [stage, slack, sinkPc, hc, State.setCall, CallPc.stage, CallPc.sink, Mutex.Pc.isOp])
  case h_9 => cases h
  all_goals
    rename_i hc
    cases h
    exact .stage (by
      simp [stage, slack, sinkPc, hc, State.setCall, CallPc.stage, CallPc.sink, Mutex.Pc.isOp])

theorem PingMove.nearer {q : PingId} {p : Poll} (h : PingMove q s s' p) :
    Nearer s s' (.ping q) := by
  cases h with
  | pend hp hn h =>
    subst h
    exact .pend rfl (by simp [sinkPc, hp, PingPc.sink, Mutex.Pc.isOp]) hn rfl
  | acquire hp _ h =>
    subst h
    exact .stage (by simp [stage, slack, sinkPc, hp, PingPc.stage, PingPc.sink, Mutex.Pc.isOp])
  | register hp h | written hp h | failed hp h | missed hp h =>
    subst h
    exact .stage (by
      simp [stage, slack, sinkPc, hp, State.setPing, PingPc.stage, PingPc.sink, Mutex.Pc.isOp])
  | answered hp _ h | expired hp _ h =>
    subst h
    exact .stage (by
      simp [stage, slack, sinkPc, hp, State.setPing, PingPc.stage, PingPc.sink, Mutex.Pc.isOp])

theorem notificationPoll_nearer {n : ℕ} {p : Poll} (h : notificationPoll s n p = some s') :
    Nearer s s' (.notification n) := by
  unfold notificationPoll at h
  split at h
  case h_1 hc =>
    obtain ⟨-, rfl⟩ := issue_map h
    exact .stage (by
      simp [stage, slack, sinkPc, hc, State.setSend, NotificationPc.stage, NotificationPc.sink,
        Mutex.Pc.isOp])
  case h_2 hc =>
    obtain ⟨hn, rfl⟩ := pend_eq h
    exact .pend rfl (by simp [sinkPc, hc, NotificationPc.sink, Mutex.Pc.isOp]) hn rfl
  case h_3 hc =>
    cases h
    exact .stage (by
      simp [stage, slack, sinkPc, hc, State.setSend, NotificationPc.stage, NotificationPc.sink,
        Mutex.Pc.isOp])
  case h_4 => cases h

theorem disconnectPoll_nearer {d : ℕ} {p : Poll} (h : disconnectPoll s d p = some s') :
    Nearer s s' (.disconnect d) := by
  unfold disconnectPoll at h
  split at h
  case h_1 hc =>
    obtain ⟨-, rfl⟩ := issue_map h
    exact .stage (by
      simp [stage, slack, sinkPc, hc, State.setDisconnect, DisconnectPc.stage, DisconnectPc.sink,
        Mutex.Pc.isOp])
  case h_2 hc =>
    obtain ⟨hn, rfl⟩ := pend_eq h
    exact .pend rfl (by simp [sinkPc, hc, DisconnectPc.sink, Mutex.Pc.isOp]) hn rfl
  case h_3 hc =>
    cases h
    exact .stage (by
      simp [stage, slack, sinkPc, hc, State.setDisconnect, DisconnectPc.stage, DisconnectPc.sink,
        Mutex.Pc.isOp])
  case h_4 => cases h

/-! ## The steps of the others -/

/-- A task is where it was, or nearer to its end. -/
inductive Onward (s s' : State E R) (t : Task) : Prop
  | same (h : stage s' t = stage s t)
    (hk : (sinkPc s' t).isOp = true → sinkPc s' t = sinkPc s t)
  | nearer (h : stage s' t < stage s t)

theorem Onward.of_call {c : ℕ} (h : s'.calls c = s.calls c) : Onward s s' (.call c) :=
  .same (by simp only [stage, h]) fun _ => by simp only [sinkPc, h]

theorem Onward.of_ping {p : PingId} (h : s'.pings p = s.pings p) : Onward s s' (.ping p) :=
  .same (by simp only [stage, h]) fun _ => by simp only [sinkPc, h]

theorem Onward.of_send {n : ℕ} (h : s'.sends n = s.sends n) : Onward s s' (.notification n) :=
  .same (by simp only [stage, h]) fun _ => by simp only [sinkPc, h]

theorem Onward.of_disconnect {d : ℕ} (h : s'.disconnects d = s.disconnects d) :
    Onward s s' (.disconnect d) :=
  .same (by simp only [stage, h]) fun _ => by simp only [sinkPc, h]

theorem callPoll_calls {env : Env R} {c : ℕ} {p : Poll} (h : callPoll env s c p = some s') :
    ∃ pc, s'.calls = Function.update s.calls c pc := by
  cases callPoll_moves env h with
  | register _ h => subst h; exact ⟨_, rfl⟩
  | go _ _ hc _ _ _ => exact ⟨_, hc⟩
  | take _ _ h => subst h; exact ⟨_, rfl⟩
  | forget _ h => subst h; exact ⟨_, rfl⟩

theorem doSendRequest_onward {env : Env R} {c : ℕ} {action : String}
    {payload : Except JsonError Value} (h : doSendRequest env s c action payload = some s') :
    Onward s s' (.call c) := by
  unfold doSendRequest at h
  split at h
  case h_2 => cases h
  case h_1 hc =>
    split_ifs at h
    · cases h
      exact .nearer (by simp [stage, hc, State.setCall, CallPc.stage])
    · simp only [] at h
      split at h <;> cases h
      · exact .same (by simp [stage, hc, State.setCall, CallPc.stage])
          (by simp [sinkPc, State.setCall, CallPc.sink, Mutex.Pc.isOp])
      · exact .nearer (by simp [stage, hc, State.setCall, CallPc.stage])

theorem callDrop_onward {c : ℕ} (h : callDrop s c = some s') : Onward s s' (.call c) := by
  refine .nearer ?_
  simp only [stage, callDrop_calls h, Function.update_self]
  cases hc : s.calls c with
  | idle | returned | dropped => simp [callDrop, hc] at h
  | _ => simp [CallPc.stage]

theorem pingDrop_onward {n : ℕ} (h : pingDrop s n = some s') :
    Onward s s' (.ping (.user n)) := by
  refine .nearer ?_
  simp only [stage, pingDrop_pings h, Function.update_self]
  cases hc : s.pings (.user n) with
  | idle | returned | dropped => simp [pingDrop, hc] at h
  | _ => simp [PingPc.stage]

theorem sendPing_onward {cfg : ClientConfig} {n : ℕ} (h : sendPing cfg s n = some s') :
    Onward s s' (.ping (.user n)) := by
  obtain ⟨pc, hi, rfl, rfl | rfl⟩ := sendPing_pings cfg h
  · exact .nearer (by simp [stage, hi, State.setPing, PingPc.stage])
  · exact .same (by simp [stage, hi, State.setPing, PingPc.stage])
      (by simp [sinkPc, State.setPing, PingPc.sink, Mutex.Pc.isOp])

theorem sendNotification_onward {env : Env R} {n : ℕ} {action : String}
    {payload : Except JsonError Value} (h : sendNotification env s n action payload = some s')
    (m : ℕ) : Onward s s' (.notification m) := by
  unfold sendNotification at h
  split at h
  case h_2 => cases h
  case h_1 hc =>
    by_cases hm : m = n
    · subst hm
      split_ifs at h
      · cases h
        exact .nearer (by simp [stage, hc, State.setSend, NotificationPc.stage])
      · simp only [] at h
        split at h <;> cases h
        · exact .same (by simp [stage, hc, State.setSend, NotificationPc.stage])
            (by simp [sinkPc, State.setSend, NotificationPc.sink, Mutex.Pc.isOp])
        · exact .nearer (by simp [stage, hc, State.setSend, NotificationPc.stage])
    · refine .of_send ?_
      split_ifs at h
      · cases h
        exact Function.update_of_ne hm _ _
      · simp only [] at h
        split at h <;> cases h <;> exact Function.update_of_ne hm _ _

theorem disconnect_onward {d : ℕ} (h : disconnect s d = some s') (m : ℕ) :
    Onward s s' (.disconnect m) := by
  unfold disconnect at h
  split at h
  case h_2 => cases h
  case h_1 hc =>
    by_cases hm : m = d
    · subst hm
      split_ifs at h <;> cases h
      · exact .nearer (by simp [stage, hc, State.setDisconnect, DisconnectPc.stage])
      · exact .same (by simp [stage, hc, DisconnectPc.stage])
          (by simp [sinkPc, DisconnectPc.sink, Mutex.Pc.isOp])
    · refine .of_disconnect ?_
      split_ifs at h <;> cases h <;> exact Function.update_of_ne hm _ _

theorem notificationPoll_other {n m : ℕ} {p : Poll} (h : notificationPoll s n p = some s')
    (hm : m ≠ n) : s'.sends m = s.sends m := by
  unfold notificationPoll at h
  split at h
  case h_1 =>
    obtain ⟨-, rfl⟩ := issue_map h
    exact Function.update_of_ne hm _ _
  case h_2 =>
    obtain ⟨-, rfl⟩ := pend_eq h
    rfl
  case h_3 =>
    cases h
    exact Function.update_of_ne hm _ _
  case h_4 => cases h

theorem disconnectPoll_other {d m : ℕ} {p : Poll} (h : disconnectPoll s d p = some s')
    (hm : m ≠ d) : s'.disconnects m = s.disconnects m := by
  unfold disconnectPoll at h
  split at h
  case h_1 =>
    obtain ⟨-, rfl⟩ := issue_map h
    exact Function.update_of_ne hm _ _
  case h_2 =>
    obtain ⟨-, rfl⟩ := pend_eq h
    rfl
  case h_3 =>
    cases h
    exact Function.update_of_ne hm _ _
  case h_4 => cases h

section Steps

variable [ProtocolError E] {env : Env R} {cfg : ClientConfig} {a : Act E}

theorem call_onward (hs : step env cfg s a = some s') {c : ℕ} (ha : ∀ p, a ≠ .poll (.call c) p) :
    Onward s s' (.call c) := by
  cases call_cases env cfg hs with
  | frame h => exact .of_call (by rw [h.calls])
  | handle _ h => subst h; exact .of_call rfl
  | @begin c' _ _ h =>
    by_cases hc : c = c'
    · subst hc
      exact doSendRequest_onward h
    · obtain ⟨-, pc, hu⟩ := doSendRequest_calls env h
      exact .of_call (by rw [hu, Function.update_of_ne hc])
  | @poll c' p h =>
    have hc : c ≠ c' := fun hc => ha p (hc ▸ rfl)
    obtain ⟨pc, hu⟩ := callPoll_calls h
    exact .of_call (by rw [hu, Function.update_of_ne hc])
  | @drop c' h =>
    by_cases hc : c = c'
    · subst hc
      exact callDrop_onward h
    · exact .of_call (by rw [callDrop_calls h, Function.update_of_ne hc])

theorem ping_onward (hN : Numbered s) (hs : step env cfg s a = some s') {q : PingId}
    (ha : ∀ p, a ≠ .poll (.ping q) p) : Onward s s' (.ping q) := by
  cases ping_cases env cfg hs with
  | recv h => exact .of_ping (by rw [(readRecv_frame env cfg h).pings])
  | read h => exact .of_ping (by rw [(readPoll_frame env cfg h).pings])
  | @begin n h =>
    by_cases hq : q = .user n
    · subst hq
      exact sendPing_onward h
    · obtain ⟨pc, -, rfl, -⟩ := sendPing_pings cfg h
      exact .of_ping (Function.update_of_ne hq _ _)
  | @poll n p h =>
    have hq : q ≠ .user n := fun hq => ha p (hq ▸ rfl)
    obtain ⟨⟨pc, hu⟩, -⟩ := h.frame
    exact .of_ping (by rw [hu, Function.update_of_ne hq])
  | @drop n h =>
    by_cases hq : q = .user n
    · subst hq
      exact pingDrop_onward h
    · exact .of_ping (by rw [pingDrop_pings h, Function.update_of_ne hq])
  | keepalive h =>
    cases h with
    | top _ _ _ h => subst h; exact .of_ping rfl
    | ping _ _ h =>
      subst h
      -- the loop begins its next ping
      by_cases hq : q = .keepalive s.keepalivePings
      · subst hq
        have hi := hN.idle _ (Nat.le_refl _)
        exact .same (by simp [stage, hi, PingPc.stage])
          (by simp [sinkPc, PingPc.sink, Mutex.Pc.isOp])
      · exact .of_ping (Function.update_of_ne hq _ _)
  | @keepalivePing n p t _ hm hf =>
    have hq : q ≠ .keepalive n := fun hq => ha p (hq ▸ rfl)
    obtain ⟨⟨pc, hu⟩, -⟩ := hm.frame
    exact .of_ping (by rw [hf.frame.1, hu, Function.update_of_ne hq])
  | other hf _ _ _ _ => exact .of_ping (by rw [hf.pings])

theorem notification_onward (hs : step env cfg s a = some s') {n : ℕ}
    (ha : ∀ p, a ≠ .poll (.notification n) p) : Onward s s' (.notification n) := by
  cases party_cases env cfg hs with
  | recv h => exact .of_send (by rw [(readRecv_frame env cfg h).sends])
  | read h => exact .of_send (by rw [(readPoll_frame env cfg h).sends])
  | notify h => exact sendNotification_onward h n
  | @notificationPoll n' p h =>
    exact .of_send (notificationPoll_other h fun hn => ha p (hn ▸ rfl))
  | handlers h =>
    obtain ⟨_, _, _, _, _, _, _, rfl, -⟩ := h.footprint
    exact .of_send rfl
  | other h => exact .of_send (by rw [h.sends])

theorem disconnect_onward_of_step (hs : step env cfg s a = some s') {d : ℕ}
    (ha : ∀ p, a ≠ .poll (.disconnect d) p) : Onward s s' (.disconnect d) := by
  cases loop_cases env cfg hs with
  | recv h => exact .of_disconnect (by rw [(readRecv_frame env cfg h).disconnects])
  | read h => exact .of_disconnect (by rw [(readPoll_frame env cfg h).disconnects])
  | disconnect h => exact disconnect_onward h d
  | @disconnectPoll d' p h =>
    exact .of_disconnect (disconnectPoll_other h fun hd => ha p (hd ▸ rfl))
  | other h => exact .of_disconnect (by rw [h.disconnects])

/-- The futures a caller holds, and the pings of the keepalive loop. -/
def Task.isFuture : Task → Bool
  | .call _ | .ping _ | .notification _ | .disconnect _ => true
  | _ => false

theorem onward_of_step (hN : Numbered s) (hs : step env cfg s a = some s') {t : Task}
    (ht : t.isFuture = true) (ha : ∀ p, a ≠ .poll t p) : Onward s s' t := by
  cases t with
  | call c => exact call_onward hs ha
  | ping p => exact ping_onward hN hs ha
  | notification n => exact notification_onward hs ha
  | disconnect d => exact disconnect_onward_of_step hs ha
  | _ => cases ht

omit [ProtocolError E] in
theorem AfterPing.weight {n : ℕ} (h : AfterPing cfg n s s') (p : PingId) :
    OcppClient.weight s' (.ping p) = OcppClient.weight s (.ping p) := by
  have hp : s'.pended = s.pended := congrArg Mutex.Lock.pended h.sinkLock
  have hk : sinkPc s' = sinkPc s := congrArg Mutex.Lock.pc h.sinkLock
  simp only [OcppClient.weight, slack, stage, h.frame.1, hp, hk]

theorem nearer_of_poll {t : Task} {p : Poll} (hs : step env cfg s (.poll t p) = some s')
    (ht : t.isFuture = true) : weight s' t < weight s t := by
  cases t with
  | call c => exact (callPoll_nearer hs).weight_lt
  | notification n => exact (notificationPoll_nearer hs).weight_lt
  | disconnect d => exact (disconnectPoll_nearer hs).weight_lt
  | ping q =>
    cases q with
    | user n => exact (pingPoll_moves hs).nearer.weight_lt
    | keepalive n =>
      obtain ⟨-, u, hm, ha⟩ := keepalivePingPoll_moves hs
      rw [ha.weight]
      exact hm.nearer.weight_lt
  | _ => cases ht

/-- The action is a poll of the task. -/
def Act.polls (t : Task) : Act E → Bool
  | .poll u _ => u = t
  | _ => false

omit [ProtocolError E] in
theorem Act.polls_iff {t : Task} : a.polls t = true ↔ ∃ p, a = .poll t p := by
  cases a <;> simp [Act.polls]

variable {P : State E R → Act E → Prop}

theorem pended_of_step (h : Machine.Reach (client env cfg) P s) (hs : step env cfg s a = some s')
    {t : Task} (hop : (sinkPc s t).isOp = true) (hk : sinkPc s' t = sinkPc s t)
    (ha : ∀ p, a ≠ .poll t p) : s'.pended = s.pended := by
  obtain ⟨b, hb, hstep⟩ := sinkStep_of_step env cfg (numbered_of_reach env cfg h)
    (spawned_of_reach env cfg h) hs
  have hlock := reach_sinkLock env cfg (Q := Machine.Any) (fun _ _ _ _ _ _ _ _ => trivial) h
  rcases Mutex.pended_step hstep (Mutex.holder_iff hlock) hop hk with rfl | hp
  · exact absurd hb (ha _)
  · exact hp

theorem weight_le_of_onward (h : Machine.Reach (client env cfg) P s)
    (hs : step env cfg s a = some s') {t : Task} (ho : Onward s s' t)
    (ha : ∀ p, a ≠ .poll t p) : weight s' t ≤ weight s t := by
  cases ho with
  | nearer hlt =>
    have := slack_le_one s' t
    unfold weight
    omega
  | same he hk =>
    unfold weight slack
    rw [he]
    by_cases hop : (sinkPc s' t).isOp = true
    · have hk := hk hop
      rw [pended_of_step h hs (hk ▸ hop) hk ha, hk]
    · simp [hop]

theorem weight_of_step (h : Machine.Reach (client env cfg) P s) (hs : step env cfg s a = some s')
    {t : Task} (ht : t.isFuture = true) :
    weight s' t + (if a.polls t then 1 else 0) ≤ weight s t := by
  by_cases ha : a.polls t = true
  · rw [if_pos ha]
    obtain ⟨p, rfl⟩ := Act.polls_iff.1 ha
    exact nearer_of_poll hs ht
  · rw [if_neg ha, Nat.add_zero]
    have ha' : ∀ p, a ≠ .poll t p := fun p hp => ha (Act.polls_iff.2 ⟨p, hp⟩)
    exact weight_le_of_onward h hs (onward_of_step (numbered_of_reach env cfg h) hs ht ha') ha'

end Steps

/-! ## The way to the end -/

def CallPc.Settled : CallPc E R → Prop
  | .idle | .returned _ | .dropped => True
  | _ => False

def PingPc.Settled : PingPc E → Prop
  | .idle | .returned _ | .dropped => True
  | _ => False

def NotificationPc.Settled : NotificationPc E → Prop
  | .idle | .returned _ => True
  | _ => False

def DisconnectPc.Settled : DisconnectPc E → Prop
  | .idle | .returned _ | .alreadyClosed => True
  | _ => False

/-- The future has not been begun, or it is over; the read loop has exited. -/
def Settled (s : State E R) : Task → Prop
  | .read => s.read = .exited
  | .call c => (s.calls c).Settled
  | .ping p => (s.pings p).Settled
  | .notification n => (s.sends n).Settled
  | .disconnect d => (s.disconnects d).Settled
  | _ => True

/-- The task waits for the sink, and another one has it. -/
def Blocked (s : State E R) (t : Task) : Prop := sinkPc s t = .lock ∧ s.holder ≠ none

theorem holder_of_unblocked {t : Task} (hb : ¬ Blocked s t) (hl : sinkPc s t = .lock) :
    s.holder = none := by
  by_contra hh
  exact hb ⟨hl, hh⟩

theorem callPoll_enabled (env : Env R) {c : ℕ} (hn : ¬ (s.calls c).Settled)
    (hb : ¬ Blocked s (.call c)) : ∃ p, (callPoll env s c p).isSome = true := by
  cases hc : s.calls c with
  | idle | returned | dropped =>
    rw [hc] at hn
    exact absurd trivial hn
  | lockPending => exact ⟨.ready, by simp [callPoll, hc]⟩
  | lockSink =>
    have hfree := holder_of_unblocked hb (by simp [sinkPc, hc, CallPc.sink])
    exact ⟨.ready, by simp [callPoll, hc, State.issue, hfree]⟩
  | sending => exact ⟨.done (.ok ()), by simp [callPoll, hc]⟩
  | waiting =>
    -- the slot is polled before the timer
    cases hr : s.responses c with
    | none => exact ⟨.timer, by simp [callPoll, hc, hr]⟩
    | some r => exact ⟨.ready, by simp [callPoll, hc, takeResponse, hr]⟩
  | forget => exact ⟨.ready, by simp [callPoll, hc]⟩

theorem pingPoll_enabled {q : PingId} (hn : ¬ (s.pings q).Settled)
    (hb : ¬ Blocked s (.ping q)) : ∃ p, (pingPoll s q p).isSome = true := by
  cases hc : s.pings q with
  | idle | returned | dropped =>
    rw [hc] at hn
    exact absurd trivial hn
  | lockWaiters => exact ⟨.ready, by simp [pingPoll, hc]⟩
  | lockSink =>
    have hfree := holder_of_unblocked hb (by simp [sinkPc, hc, PingPc.sink])
    exact ⟨.ready, by simp [pingPoll, hc, State.issue, hfree]⟩
  | sending => exact ⟨.done (.ok ()), by simp [pingPoll, hc]⟩
  | waiting =>
    cases hr : s.pongs q with
    | false => exact ⟨.timer, by simp [pingPoll, hc, hr]⟩
    | true => exact ⟨.ready, by simp [pingPoll, hc, hr]⟩
  | forget => exact ⟨.ready, by simp [pingPoll, hc]⟩

theorem notificationPoll_enabled {n : ℕ} (hn : ¬ (s.sends n).Settled)
    (hb : ¬ Blocked s (.notification n)) : ∃ p, (notificationPoll s n p).isSome = true := by
  cases hc : s.sends n with
  | idle | returned =>
    rw [hc] at hn
    exact absurd trivial hn
  | lockSink =>
    have hfree := holder_of_unblocked hb (by simp [sinkPc, hc, NotificationPc.sink])
    exact ⟨.ready, by simp [notificationPoll, hc, State.issue, hfree]⟩
  | sending => exact ⟨.done (.ok ()), by simp [notificationPoll, hc]⟩

theorem disconnectPoll_enabled {d : ℕ} (hn : ¬ (s.disconnects d).Settled)
    (hb : ¬ Blocked s (.disconnect d)) : ∃ p, (disconnectPoll s d p).isSome = true := by
  cases hc : s.disconnects d with
  | idle | returned | alreadyClosed =>
    rw [hc] at hn
    exact absurd trivial hn
  | lockSink =>
    have hfree := holder_of_unblocked hb (by simp [sinkPc, hc, DisconnectPc.sink])
    exact ⟨.ready, by simp [disconnectPoll, hc, State.issue, hfree]⟩
  | closing => exact ⟨.done (.ok ()), by simp [disconnectPoll, hc]⟩

section Ways

variable [ProtocolError E] (env : Env R) (cfg : ClientConfig)

theorem poll_enabled (hI : Inside s) {t : Task} (ht : t.isFuture = true) (hn : ¬ Settled s t)
    (hb : ¬ Blocked s t) :
    ∃ p, (step env cfg s (.poll t p)).isSome = true := by
  cases t with
  | call c => exact callPoll_enabled env hn hb
  | notification n => exact notificationPoll_enabled hn hb
  | disconnect d => exact disconnectPoll_enabled hn hb
  | ping q =>
    obtain ⟨p, hp⟩ := pingPoll_enabled hn hb
    cases q with
    | user n => exact ⟨p, hp⟩
    | keepalive n =>
      have hk : s.keepalive = .pinging n := by
        rcases hI n with h | h | ⟨r, h⟩
        · exact h
        · exact absurd (by simp [Settled, h, PingPc.Settled]) hn
        · exact absurd (by simp [Settled, h, PingPc.Settled]) hn
      exact ⟨p, by simpa [step, pollTask, keepalivePingPoll, hk] using hp⟩
  | _ => cases ht

open Classical in
/-- The steps a future may still need: its own, and the end of the operation it waits for. -/
noncomputable def distance (s : State E R) (t : Task) : ℕ :=
  2 * weight s t + if Blocked s t then 1 else 0

/-- The end of an operation on the sink. -/
def Act.Ends (a : Act E) : Prop := ∃ u r, a = .poll u (.done r)

/-- The steps that can bring a task to its end. -/
def Brings (t : Task) (a : Act E) : Prop := a.polls t = true ∨ a.Ends

variable {env cfg} {P : State E R → Act E → Prop}

theorem nearer_of_reach (h : Machine.Reach (client env cfg) Machine.Any s) {t : Task}
    (ht : t.isFuture = true) (hn : ¬ Settled s t) :
    ∃ a s', Brings t a ∧ step env cfg s a = some s' ∧ distance s' t < distance s t := by
  unfold distance
  by_cases hb : Blocked s t
  · obtain ⟨u, hu⟩ := Option.ne_none_iff_exists'.1 hb.2
    obtain ⟨s', hs, hf⟩ := freed_of_holder env cfg h hu (.ok ())
    refine ⟨_, s', .inr ⟨u, _, rfl⟩, hs, ?_⟩
    have hw := weight_of_step h hs ht
    have hb' : ¬ Blocked s' t := fun h' => h'.2 hf.holder
    rw [if_pos hb, if_neg hb']
    omega
  · obtain ⟨p, hp⟩ := poll_enabled env cfg (inside_of_reach env cfg h) ht hn hb
    obtain ⟨s', hs⟩ := Option.isSome_iff_exists.1 hp
    refine ⟨_, s', .inl (Act.polls_iff.2 ⟨p, rfl⟩), hs, ?_⟩
    have hw := nearer_of_poll hs ht
    rw [if_neg hb]
    split_ifs <;> omega

omit [ProtocolError E] in
theorem weight_le_six (s : State E R) (t : Task) : weight s t ≤ 6 := by
  have hcall : ∀ pc : CallPc E R, pc.stage ≤ 6 ∧ (pc.sink.isOp = true → pc.stage ≤ 5) := by
    intro pc
    cases pc <;> simp [CallPc.stage, CallPc.sink, Mutex.Pc.isOp]
  have hping : ∀ pc : PingPc E, pc.stage ≤ 6 ∧ (pc.sink.isOp = true → pc.stage ≤ 5) := by
    intro pc
    cases pc <;> simp [PingPc.stage, PingPc.sink, Mutex.Pc.isOp]
  have hread : ∀ pc : ReadPc E, pc.stage ≤ 6 ∧ (pc.sink.isOp = true → pc.stage ≤ 5) := by
    intro pc
    cases pc with
    | dial b => cases b <;> simp [ReadPc.stage, ReadPc.sink, Mutex.Pc.isOp]
    | _ => simp [ReadPc.stage, ReadPc.sink, Mutex.Pc.isOp]
  have hsend : ∀ pc : NotificationPc E, pc.stage ≤ 3 := by
    intro pc
    cases pc <;> simp [NotificationPc.stage]
  have hdisc : ∀ pc : DisconnectPc E, pc.stage ≤ 3 := by
    intro pc
    cases pc <;> simp [DisconnectPc.stage]
  have hs := slack_le_one s t
  have hst : stage s t ≤ 6 ∧ ((sinkPc s t).isOp = true → stage s t ≤ 5) := by
    cases t with
    | read => exact hread _
    | call c => exact hcall _
    | ping p => exact hping _
    | notification n => exact ⟨(hsend _).trans (by omega), fun _ => (hsend _).trans (by omega)⟩
    | disconnect d => exact ⟨(hdisc _).trans (by omega), fun _ => (hdisc _).trans (by omega)⟩
    | _ => exact ⟨Nat.zero_le _, fun _ => Nat.zero_le _⟩
  by_cases hop : (sinkPc s t).isOp = true
  · have := hst.2 hop
    unfold weight
    omega
  · have h0 : slack s t = 0 := by simp [slack, hop]
    unfold weight
    omega

/-- From any reachable state on, a future gets past at most six `await`s more, whatever the other
tasks do; and thirteen steps, polls of its own and ends of operations on the sink, bring it to its
end. -/
theorem future_settles (h : Machine.Reach (client env cfg) P s) {t : Task}
    (ht : t.isFuture = true) :
    (∀ as s', (client env cfg).run s as = some s' → as.countP (Act.polls t) ≤ 6)
      ∧ ∃ as s', (client env cfg).run s as = some s' ∧ Settled s' t ∧ as.length ≤ 13
        ∧ ∀ a ∈ as, Brings t a := by
  have hr : Machine.Reach (client env cfg) Machine.Any s := h.mono fun _ _ _ => trivial
  have hsix := weight_le_six s t
  refine ⟨fun as s' hrun => ?_, ?_⟩
  · have hspent := Machine.run_spent (M := client env cfg)
      (I := Machine.Reach (client env cfg) Machine.Any) (weight · t) (Act.polls t)
      (fun _ => false) 0
      (fun _ _ _ hs hstep => ⟨hs.step trivial hstep, weight_of_step hs hstep ht⟩) as hr hrun
    omega
  · obtain ⟨as, s', hrun, hend, hlen, hfree⟩ := Machine.run_attains (M := client env cfg)
      (I := Machine.Reach (client env cfg) Machine.Any) (Settled · t) (distance · t) (Brings t)
      (fun s hs hn => by
        obtain ⟨a, s', ha, hstep, hlt⟩ := nearer_of_reach hs ht hn
        exact ⟨a, s', ha, hstep, hs.step trivial hstep, hlt⟩) hr
    refine ⟨as, s', hrun, hend, hlen.trans ?_, hfree⟩
    unfold distance
    split_ifs <;> omega

/-- A call behind the write of another, which stays pending. -/
def behindAWrite : List (Act WireError) :=
  [.call 0 "A" (.ok .null), .poll (.call 0) .ready, .poll (.call 0) .ready, .poll (.call 0) .pend,
    .call 1 "A" (.ok .null), .poll (.call 1) .ready]

theorem future_settles_of_behindAWrite :
    ∃ s, scenario.run scenario.init behindAWrite = some s ∧ s.pended = true ∧ Blocked s (.call 1)
      ∧ (∀ as s', scenario.run s as = some s' → as.countP (Act.polls (.call 1)) ≤ 6)
      ∧ ∃ as s', scenario.run s as = some s' ∧ Settled s' (.call 1) ∧ as.length ≤ 13
        ∧ ∀ a ∈ as, Brings (.call 1) a := by
  have hrun : ∃ s, scenario.run scenario.init behindAWrite = some s ∧ s.pended = true
      ∧ Blocked s (.call 1) := ⟨_, rfl, rfl, rfl, Option.some_ne_none (Task.call 0)⟩
  obtain ⟨s, hs, hp, hb⟩ := hrun
  exact ⟨s, hs, hp, hb, future_settles (Machine.reach_any_of_run behindAWrite hs) rfl⟩

end Ways

end OcppClient
