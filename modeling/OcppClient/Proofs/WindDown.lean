import OcppClient.Proofs.Endings
import OcppClient.Proofs.Finality
import OcppClient.Proofs.Wakeups

/-!
# The loops wind down

Once the client is closed, both loops are on their way out: the read loop takes a bounded number of
steps, and a bounded number more for each event that the transport still hands to it, and the
keepalive loop ends with the ping it is in. Neither can be stuck on the way, unless an operation on
the sink does not end.
-/

namespace OcppClient

open Transition

variable {E R : Type} [ProtocolError E] {env : Env R} {cfg : ClientConfig} {s s' : State E R}

/-! ## The read loop -/

omit [ProtocolError E] in
theorem Nearer.read (hop : s'.read.sink.isOp = false) (h : s'.read.stage < s.read.stage) :
    Nearer s s' .read :=
  .stage (by simp [OcppClient.stage, slack, sinkPc, hop, h])

theorem readPoll_nearer (hc : s.closed = true) {p : Poll} (hs : readPoll env cfg s p = some s') :
    Nearer s s' .read := by
  cases readPoll_moves env cfg hs with
  | wake hr h =>
    unfold readWoken at h
    split_ifs at h with hw
    cases h
    exact .read (by simp [leave, ReadPc.sink, Mutex.Pc.isOp])
      (by simp [leave, hr, ReadPc.stage])
  | acquire hr _ h =>
    subst h
    refine .stage ?_
    generalize hpc : s.read = pc₀ at hr
    cases hr <;> simp [stage, slack, sinkPc, hpc, ReadPc.stage, ReadPc.sink, Mutex.Pc.isOp]
  | pend hr hn h =>
    subst h
    exact .pend rfl hr.isOp_sink hn rfl
  | release hr h =>
    subst h
    generalize hpc : s.read = pc₀ at hr
    cases hr <;> exact .read rfl (by simp [hpc, ReadPc.stage])
  | go hr h =>
    subst h
    generalize hpc : s.read = pc₀ at hr
    cases hr <;> exact .read rfl (by simp [hpc, ReadPc.stage])
  | pong hr h =>
    refine .read ?_ ?_ <;> rw [h, resolvePong_read]
    · rfl
    · simp [hr, ReadPc.stage]
  | redial hr h =>
    subst h
    rename_i b _
    cases b <;> exact .read rfl (by simp [hr, beginBackoff, ReadPc.stage])
  | dialled hr h =>
    subst h
    rename_i b _
    cases b <;> exact .read rfl (by simp [hr, ReadPc.stage])
  | dial hr h =>
    subst h
    exact .read (by simp [beginDial, hc, ReadPc.sink, Mutex.Pc.isOp])
      (by simp [beginDial, hc, hr, ReadPc.stage])
  | wokenDial hr _ h =>
    subst h
    exact .read (by simp [beginDial, hc, ReadPc.sink, Mutex.Pc.isOp])
      (by simp [beginDial, hc, hr, ReadPc.stage])
  | lookup hr _ h => subst h; exact .read rfl (by simp [hr, ReadPc.stage])
  | push hr h => subst h; exact .read rfl (by simp [hr, ReadPc.stage])
  | resolve hr h => subst h; exact .read rfl (by simp [hr, resolvePending, ReadPc.stage])
  | notify hr h => subst h; exact .read rfl (by simp [hr, ReadPc.stage])
  | clear hr h => subst h; exact .read rfl (by simp [hr, ReadPc.stage])
  | backoff hr h => subst h; exact .read rfl (by simp [hr, beginBackoff, ReadPc.stage])
  | dialPend hr h => subst h; exact .read rfl (by simp [hr, ReadPc.stage])
  | swap hr _ h => subst h; exact .read rfl (by simp [hr, ReadPc.stage])
  | broadcast hr h => subst h; exact .read rfl (by simp [hr, ReadPc.stage])

/-- A step of the read loop. -/
def Act.reads : Act E → Bool
  | .poll .read _ | .recv _ => true
  | _ => false

/-- An event that the transport hands to the read loop. -/
def Act.receives : Act E → Bool
  | .recv (some _) => true
  | _ => false

theorem readRecv_weight (hc : s.closed = true) {e : Option TransportEvent}
    (hs : readRecv env cfg s e = some s') :
    weight s' .read + 1 ≤ weight s .read + 5 * (if e.isSome then 1 else 0) := by
  have hr := (readRecv_leads env cfg hs).1
  have hw : weight s .read = 2 := by simp [weight, stage, slack, sinkPc, hr, ReadPc.stage,
    ReadPc.sink, Mutex.Pc.isOp]
  cases e with
  | none =>
    simp only [readRecv, hr] at hs
    cases hs
    have hn : Nearer s (leave cfg s .eof) .read :=
      .read (by simp [leave, hc, ReadPc.sink, Mutex.Pc.isOp])
        (by simp [leave, hc, hr, ReadPc.stage])
    exact hn.weight_lt
  | some e =>
    have := weight_le_six s' .read
    simp only [Option.isSome_some, if_true]
    omega

theorem read_onward {a : Act E} (hs : step env cfg s a = some s') (ha : a.reads = false) :
    Onward s s' .read := by
  have hread : s'.read = s.read := by
    cases loop_cases env cfg hs with
    | recv h => cases ha
    | read h => cases ha
    | disconnect h =>
      obtain ⟨_, _, _, _, _, rfl, -⟩ := disconnect_footprint h
      rfl
    | disconnectPoll h =>
      obtain ⟨_, _, _, _, rfl, -⟩ := disconnectPoll_footprint h
      rfl
    | other h => exact h.read
  exact .same (by simp only [stage, hread]) fun _ => by simp only [sinkPc, hread]

variable {P : State E R → Act E → Prop}

theorem readWeight_of_step (h : Machine.Reach (client env cfg) P s) (hc : s.closed = true)
    {a : Act E} (hs : step env cfg s a = some s') :
    weight s' .read + (if a.reads then 1 else 0)
      ≤ weight s .read + 5 * (if a.receives then 1 else 0) := by
  cases ha : a.reads with
  | false =>
    have ha' : ∀ p, a ≠ .poll .read p := by
      rintro p rfl
      cases ha
    have := weight_le_of_onward h hs (read_onward hs ha) ha'
    simp only [Bool.false_eq_true, if_false]
    omega
  | true =>
    cases a with
    | recv e =>
      have := readRecv_weight hc hs
      cases e <;> simpa [Act.receives] using this
    | poll t p =>
      cases t with
      | read => exact (readPoll_nearer hc hs).weight_lt
      | _ => cases ha
    | _ => cases ha

theorem readPoll_enabled (h : Machine.Reach (client env cfg) P s) (hc : s.closed = true)
    (hn : s.read ≠ .exited) (hb : ¬ Blocked s .read) :
    ∃ p, (readPoll env cfg s p).isSome = true := by
  have hfree := fun hl : s.read.sink = .lock => holder_of_unblocked (t := .read) hb hl
  cases hr : s.read with
  | exited => exact absurd hr hn
  | recv =>
    have hw := Handshake.wake_of_closed h hc (.inl hr)
    exact ⟨.ready, by simp [readPoll, hr, readWoken, hw, hc]⟩
  | lockNotImplemented | lockPong | lockClose =>
    have hfree := hfree (by rw [hr]; rfl)
    exact ⟨.ready, by simp [readPoll, hr, State.issue, hfree]⟩
  | lockSwap =>
    have hfree := hfree (by rw [hr]; rfl)
    exact ⟨.ready, by simp [readPoll, hr, swapIn, hfree]⟩
  | lockNotificationSenders action payload =>
    cases hs : s.notifications.senders action <;> exact ⟨.ready, by simp [readPoll, hr, hs]⟩
  | sendNotImplemented | sendPong | sendClose =>
    exact ⟨.done (.ok ()), by simp [readPoll, hr]⟩
  | dial b => cases b <;> exact ⟨.done (.ok ()), by simp [readPoll, hr]⟩
  | backoff => exact ⟨.timer, by simp [readPoll, hr]⟩
  | _ => exact ⟨.ready, by simp [readPoll, hr]⟩

/-! ## The keepalive loop -/

/-- The ping the loop is in, and its own way out. -/
def keepaliveWeight (s : State E R) : ℕ :=
  match s.keepalive with
  | .exited => 0
  | .pinging n => weight s (.ping (.keepalive n)) + 1
  | _ => 1

/-- A step of the keepalive loop, or of the ping it is in. -/
def Act.keepsAlive : Act E → Bool
  | .poll .keepalive _ | .poll (.ping (.keepalive _)) _ => true
  | _ => false

theorem keepalive_of_step {a : Act E} (hs : step env cfg s a = some s')
    (ha : a.keepsAlive = false) : s'.keepalive = s.keepalive := by
  cases ping_cases env cfg hs with
  | recv h => exact (readRecv_frame env cfg h).keepalive
  | read h => exact (readPoll_frame env cfg h).keepalive
  | begin h =>
    obtain ⟨_, -, rfl, -⟩ := sendPing_pings cfg h
    rfl
  | poll h => exact h.frame.2.1
  | drop h =>
    obtain ⟨_, _, _, rfl⟩ := pingDrop_footprint h
    rfl
  | keepalive h => cases ha
  | keepalivePing _ _ _ => cases ha
  | other hf _ _ _ _ => exact hf.keepalive

omit [ProtocolError E] in
theorem keepalivePoll_exits (hc : s.closed = true) {p : Poll}
    (h : keepalivePoll cfg s p = some s') : keepaliveWeight s' = 0 ∧ keepaliveWeight s = 1 := by
  unfold keepalivePoll at h
  split at h
  case h_5 => cases h
  case h_1 hk =>
    cases h
    exact ⟨by simp [keepaliveWeight, keepaliveTop, hc], by simp [keepaliveWeight, hk]⟩
  case h_2 hk | h_3 hk =>
    split_ifs at h
    cases h
    exact ⟨by simp [keepaliveWeight, keepaliveTop, hc], by simp [keepaliveWeight, hk]⟩
  case h_4 hk =>
    split_ifs at h
    cases h
    exact ⟨by simp [keepaliveWeight, beginPing, hc], by simp [keepaliveWeight, hk]⟩

theorem keepaliveWeight_of_step (h : Machine.Reach (client env cfg) P s) (hc : s.closed = true)
    {a : Act E} (hs : step env cfg s a = some s') :
    keepaliveWeight s' + (if a.keepsAlive then 1 else 0) ≤ keepaliveWeight s := by
  cases ha : a.keepsAlive with
  | false =>
    simp only [Bool.false_eq_true, if_false, Nat.add_zero, keepaliveWeight,
      keepalive_of_step hs ha]
    cases s.keepalive with
    | pinging n =>
      have := weight_of_step h hs (t := .ping (.keepalive n)) rfl
      simp only
      omega
    | _ => exact Nat.le_refl _
  | true =>
    simp only [if_true]
    cases a with
    | poll t p =>
      cases t with
      | keepalive =>
        obtain ⟨h₀, h₁⟩ := keepalivePoll_exits hc hs
        omega
      | ping q =>
        cases q with
        | user n => cases ha
        | keepalive n =>
          obtain ⟨hk, u, hm, hafter⟩ := keepalivePingPoll_moves hs
          have hlt := hm.nearer.weight_lt
          have hw : keepaliveWeight s = weight s (.ping (.keepalive n)) + 1 := by
            simp [keepaliveWeight, hk]
          -- a loop that has left its ping is at most one step from its exit
          have hleft : ∀ k, (∀ n, k ≠ .pinging n) → s'.keepalive = k → keepaliveWeight s' ≤ 1 := by
            rintro k hk rfl
            unfold keepaliveWeight
            split
            · omega
            · next h => exact absurd h (hk _)
            · omega
          cases hafter with
          | inside _ h =>
            subst h
            have hk' : s'.keepalive = .pinging n := by rw [hm.frame.2.1, hk]
            simp only [keepaliveWeight, hk', hk]
            omega
          | answered _ hne h =>
            have := hleft _ hne (by rw [h])
            omega
          | missed _ hne h =>
            have := hleft _ hne (by rw [h])
            omega
      | _ => cases ha
    | _ => cases ha

/-- The loop is inside a ping only while that is under way. -/
def PingUnderWay (s : State E R) : Prop :=
  ∀ n, s.keepalive = .pinging n → ¬ (s.pings (.keepalive n)).Settled

omit [ProtocolError E] in
theorem PingMove.settled {q : PingId} {p : Poll} (h : PingMove q s s' p)
    (hs : (s'.pings q).Settled) : ∃ r, s'.pings q = .returned r := by
  cases h with
  | register _ h | written _ h | failed _ h =>
    subst h
    simp [State.setPing, PingPc.Settled] at hs
  | acquire _ _ h | expired _ _ h =>
    subst h
    simp [State.setPing, PingPc.Settled] at hs
  | pend hp _ h =>
    subst h
    simp [hp, PingPc.Settled] at hs
  | answered _ _ h =>
    subst h
    exact ⟨_, Function.update_self _ _ _⟩
  | missed _ h =>
    subst h
    exact ⟨_, Function.update_self _ _ _⟩

theorem pingUnderWay_of_reach (h : Machine.Reach (client env cfg) P s) : PingUnderWay s := by
  refine h.invariant (by simp [PingUnderWay, client, State.new]) fun s a s' _ _ hs hI => ?_
  -- the loop stays, and so does its ping
  have keep : ∀ {s' : State E R}, s'.keepalive = s.keepalive →
      (∀ n, s'.pings (.keepalive n) = s.pings (.keepalive n)) → PingUnderWay s' := by
    intro s' hk hp n hn
    rw [hp]
    exact hI n (hk ▸ hn)
  -- the loop is out of its pings
  have out : ∀ {s' : State E R}, (∀ n, s'.keepalive ≠ .pinging n) → PingUnderWay s' :=
    fun hk n hn => absurd hn (hk n)
  cases ping_cases env cfg hs with
  | recv h =>
    have hf := readRecv_frame env cfg h
    exact keep hf.keepalive fun n => by rw [hf.pings]
  | read h =>
    have hf := readPoll_frame env cfg h
    exact keep hf.keepalive fun n => by rw [hf.pings]
  | begin h =>
    obtain ⟨_, -, rfl, -⟩ := sendPing_pings cfg h
    exact keep rfl fun n => by simp [State.setPing]
  | poll h =>
    obtain ⟨⟨_, hp⟩, hk, -⟩ := h.frame
    exact keep hk fun n => by rw [hp, Function.update_of_ne (by simp)]
  | drop h =>
    obtain ⟨_, _, _, hs'⟩ := pingDrop_footprint h
    exact keep (by rw [hs']) fun n => by rw [pingDrop_pings h, Function.update_of_ne (by simp)]
  | keepalive h =>
    cases h with
    | top _ hk _ h =>
      subst h
      exact out hk
    | ping _ _ h =>
      subst h
      intro n hn
      cases hn
      simp [PingPc.Settled]
  | keepalivePing hk hm ha =>
    cases ha with
    | inside hp h =>
      subst h
      intro n hn
      rw [hm.frame.2.1, hk] at hn
      cases hn
      exact fun hset => (hm.settled hset).elim fun r hr => hp r hr
    | answered _ hne h => subst h; exact out hne
    | missed _ hne h => subst h; exact out hne
  | other hf _ _ _ _ => exact keep hf.keepalive fun n => by rw [hf.pings]

/-- A closed client whose keepalive loop waits has the loop's signal set. -/
theorem changed_of_closed (h : Machine.Reach (client env cfg) P s) (hc : s.closed = true)
    (hk : s.keepalive = .parked ∨ ∃ i, s.keepalive = .waiting i) : s.changed = true := by
  refine (Handshake.woken_of_closed h hc).2 ?_
  rcases hk with hk | ⟨i, hk⟩ <;> simp [hk, Handshake.keepaliveAt]

theorem keepalive_enabled (h : Machine.Reach (client env cfg) P s) (hc : s.closed = true)
    (hn : s.keepalive ≠ .exited)
    (hb : ∀ n, s.keepalive = .pinging n → ¬ Blocked s (.ping (.keepalive n))) :
    ∃ a : Act E, a.keepsAlive = true ∧ (step env cfg s a).isSome = true := by
  cases hk : s.keepalive with
  | exited => exact absurd hk hn
  | start => exact ⟨.poll .keepalive .ready, rfl, by simp [step, pollTask, keepalivePoll, hk]⟩
  | parked =>
    have hch := changed_of_closed h hc (.inl hk)
    exact ⟨.poll .keepalive .ready, rfl, by simp [step, pollTask, keepalivePoll, hk, hch]⟩
  | waiting i =>
    have hch := changed_of_closed h hc (.inr ⟨i, hk⟩)
    exact ⟨.poll .keepalive .ready, rfl, by simp [step, pollTask, keepalivePoll, hk, hch]⟩
  | pinging n =>
    obtain ⟨p, hp⟩ := poll_enabled env cfg (inside_of_reach env cfg h) (t := .ping (.keepalive n))
      rfl (pingUnderWay_of_reach h n hk) (hb n hk)
    exact ⟨_, rfl, hp⟩

/-! ## The way out -/

/-- The keepalive loop waits for the sink in its ping, and another task has it. -/
def KeepaliveBlocked (s : State E R) : Prop :=
  ∃ n, s.keepalive = .pinging n ∧ Blocked s (.ping (.keepalive n))

open Classical in
noncomputable def keepaliveDistance (s : State E R) : ℕ :=
  2 * keepaliveWeight s + if KeepaliveBlocked s then 1 else 0

theorem keepaliveNearer_of_reach (h : Machine.Reach (client env cfg) P s) (hc : s.closed = true)
    (hn : s.keepalive ≠ .exited) :
    ∃ a s', (a.keepsAlive = true ∨ a.Ends) ∧ step env cfg s a = some s'
      ∧ keepaliveDistance s' < keepaliveDistance s := by
  unfold keepaliveDistance
  by_cases hb : KeepaliveBlocked s
  · obtain ⟨n, -, hbn⟩ := id hb
    obtain ⟨u, hu⟩ := Option.ne_none_iff_exists'.1 hbn.2
    obtain ⟨s', hs, hf⟩ := freed_of_holder env cfg h hu (.ok ())
    refine ⟨_, s', .inr ⟨u, _, rfl⟩, hs, ?_⟩
    have hw := keepaliveWeight_of_step h hc hs
    have hb' : ¬ KeepaliveBlocked s' := fun ⟨_, _, h'⟩ => h'.2 hf.holder
    rw [if_pos hb, if_neg hb']
    omega
  · obtain ⟨a, ha, hp⟩ := keepalive_enabled h hc hn fun n hk hbn => hb ⟨n, hk, hbn⟩
    obtain ⟨s', hs⟩ := Option.isSome_iff_exists.1 hp
    refine ⟨a, s', .inl ha, hs, ?_⟩
    have hw := keepaliveWeight_of_step h hc hs
    rw [if_pos ha] at hw
    rw [if_neg hb]
    split_ifs <;> omega

theorem readNearer_of_reach (h : Machine.Reach (client env cfg) P s) (hc : s.closed = true)
    (hn : s.read ≠ .exited) :
    ∃ a s', Brings .read a ∧ step env cfg s a = some s'
      ∧ distance s' .read < distance s .read := by
  unfold distance
  by_cases hb : Blocked s .read
  · obtain ⟨u, hu⟩ := Option.ne_none_iff_exists'.1 hb.2
    obtain ⟨s', hs, hf⟩ := freed_of_holder env cfg h hu (.ok ())
    refine ⟨_, s', .inr ⟨u, _, rfl⟩, hs, ?_⟩
    have hw := readWeight_of_step h hc hs
    have hb' : ¬ Blocked s' .read := fun h' => h'.2 hf.holder
    simp only [Act.receives, Bool.false_eq_true, if_false] at hw
    rw [if_pos hb, if_neg hb']
    omega
  · obtain ⟨p, hp⟩ := readPoll_enabled h hc hn hb
    obtain ⟨s', hs⟩ := Option.isSome_iff_exists.1 hp
    refine ⟨_, s', .inl (Act.polls_iff.2 ⟨p, rfl⟩), hs, ?_⟩
    have hw := (readPoll_nearer hc hs).weight_lt
    rw [if_neg hb]
    split_ifs <;> omega

/-- A state of a client that is closed. -/
def ReachClosed (env : Env R) (cfg : ClientConfig) (s : State E R) : Prop :=
  Machine.Reach (client env cfg) Machine.Any s ∧ s.closed = true

theorem ReachClosed.step {a : Act E} (h : ReachClosed env cfg s)
    (hs : OcppClient.step env cfg s a = some s') : ReachClosed env cfg s' :=
  ⟨h.1.step trivial hs, closed_of_step env cfg hs h.2⟩

/-- What is left of the two loops of a closed client. -/
structure WindsDown (env : Env R) (cfg : ClientConfig) (s : State E R) : Prop where
  read : ∀ as s', (client env cfg).run s as = some s' →
    as.countP Act.reads ≤ 6 + 5 * as.countP Act.receives
  readExit : ∃ as s', (client env cfg).run s as = some s' ∧ s'.read = .exited ∧ as.length ≤ 13
    ∧ ∀ a ∈ as, Brings .read a
  keepalive : ∀ as s', (client env cfg).run s as = some s' → as.countP Act.keepsAlive ≤ 7
  keepaliveExit : ∃ as s', (client env cfg).run s as = some s' ∧ s'.keepalive = .exited
    ∧ as.length ≤ 15 ∧ ∀ a ∈ as, a.keepsAlive = true ∨ a.Ends

/-- Once `disconnect` has set the flag, the read loop takes at most six steps more, and five for
each event it still receives, the keepalive loop at most seven; and each of them can come to its
exit, in steps of its own and ends of operations on the sink. -/
theorem windsDown_of_closed (h : Machine.Reach (client env cfg) P s) (hc : s.closed = true) :
    WindsDown env cfg s := by
  have hI : ReachClosed env cfg s := ⟨h.mono fun _ _ _ => trivial, hc⟩
  have hread := weight_le_six s .read
  have halive : keepaliveWeight s ≤ 7 := by
    unfold keepaliveWeight
    split
    · omega
    · next n _ =>
      have := weight_le_six s (.ping (.keepalive n))
      omega
    · omega
  refine ⟨fun as s' hrun => ?_, ?_, fun as s' hrun => ?_, ?_⟩
  · have := Machine.run_spent (M := client env cfg) (I := ReachClosed env cfg) (weight · .read)
      Act.reads Act.receives 5
      (fun _ _ _ hI hs => ⟨hI.step hs, readWeight_of_step hI.1 hI.2 hs⟩) as hI hrun
    omega
  · obtain ⟨as, s', hrun, hend, hlen, hfree⟩ := Machine.run_attains (M := client env cfg)
      (I := ReachClosed env cfg) (·.read = .exited) (distance · .read) (Brings .read)
      (fun s hI hn => by
        obtain ⟨a, s', ha, hs, hlt⟩ := readNearer_of_reach hI.1 hI.2 hn
        exact ⟨a, s', ha, hs, hI.step hs, hlt⟩) hI
    refine ⟨as, s', hrun, hend, hlen.trans ?_, hfree⟩
    unfold distance
    split_ifs <;> omega
  · have := Machine.run_spent (M := client env cfg) (I := ReachClosed env cfg) keepaliveWeight
      Act.keepsAlive (fun _ => false) 0
      (fun _ _ _ hI hs => ⟨hI.step hs, keepaliveWeight_of_step hI.1 hI.2 hs⟩) as hI hrun
    omega
  · obtain ⟨as, s', hrun, hend, hlen, hfree⟩ := Machine.run_attains (M := client env cfg)
      (I := ReachClosed env cfg) (·.keepalive = .exited) keepaliveDistance
      (fun a => a.keepsAlive = true ∨ a.Ends)
      (fun s hI hn => by
        obtain ⟨a, s', ha, hs, hlt⟩ := keepaliveNearer_of_reach hI.1 hI.2 hn
        exact ⟨a, s', ha, hs, hI.step hs, hlt⟩) hI
    refine ⟨as, s', hrun, hend, hlen.trans ?_, hfree⟩
    unfold keepaliveDistance
    split_ifs <;> omega

/-- A `disconnect` that comes while a ping's pong waits behind a write of a call, and the keepalive
loop waits for its interval. -/
def closedBehindAWrite : List (Act WireError) :=
  [.poll .keepalive .ready, .call 0 "A" (.ok .null), .poll (.call 0) .ready,
    .poll (.call 0) .ready, .recv (some (.ping [])), .poll .read .ready, .disconnect 0]

theorem windsDown_of_closedBehindAWrite :
    ∃ s, scenario.run scenario.init closedBehindAWrite = some s ∧ Blocked s .read
      ∧ s.closed = true ∧ WindsDown scenarioEnv scenarioConfig s := by
  have hrun : ∃ s, scenario.run scenario.init closedBehindAWrite = some s ∧ Blocked s .read
      ∧ s.closed = true := ⟨_, rfl, ⟨rfl, Option.some_ne_none (Task.call 0)⟩, rfl⟩
  obtain ⟨s, hs, hb, hc⟩ := hrun
  exact ⟨s, hs, hb, hc, windsDown_of_closed (Machine.reach_any_of_run closedBehindAWrite hs) hc⟩

end OcppClient
