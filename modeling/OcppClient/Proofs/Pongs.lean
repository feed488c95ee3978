import OcppClient.Proofs.Passage
import OcppClient.Proofs.Writes

/-!
# Every ping is echoed

The read loop answers a Ping with a Pong of the same payload before it reads on. So the pongs that a
client hands to its sinks echo the pings it has received, in order, one each, and on the connection
each came on: the transport is replaced by the read loop alone, which has no ping in hand then. No
other task writes a pong.
-/

namespace OcppClient

open Transition

variable {E R : Type}

/-! ## The log -/

/-- A ping from the stream of a connection, and a pong to the sink of one. -/
inductive EchoNote
  | pinged (k : SinkId) (payload : List UInt8)
  | ponged (k : SinkId) (payload : List UInt8)
  deriving DecidableEq

def State.echoes (s : State E R) : Act E → List EchoNote
  | .recv (some (.ping payload)) => [.pinged s.stream payload]
  | .poll t .ready =>
    match lockOp s t with
    | some (.pong payload) => [.ponged s.sink payload]
    | _ => []
  | _ => []

def EchoNote.toPing : EchoNote → Option (SinkId × List UInt8)
  | .pinged k payload => some (k, payload)
  | .ponged _ _ => none

def EchoNote.toPong : EchoNote → Option (SinkId × List UInt8)
  | .pinged _ _ => none
  | .ponged k payload => some (k, payload)

def pingsHeard (log : List EchoNote) : List (SinkId × List UInt8) := log.filterMap EchoNote.toPing

def pongsWritten (log : List EchoNote) : List (SinkId × List UInt8) := log.filterMap EchoNote.toPong

/-- The ping that is still to be answered. -/
def ReadPc.pingInHand : ReadPc E → List (List UInt8)
  | .notifyPing payload | .lockPong payload => [payload]
  | _ => []

/-- What was written echoes what was heard, but the ping in hand. -/
def Echoes (s : State E R) (log : List EchoNote) : Prop :=
  pongsWritten log ++ s.read.pingInHand.map (fun payload => (s.sink, payload)) = pingsHeard log

variable {s s' : State E R} {log notes : List EchoNote}

theorem Echoes.keep (h : Echoes s log) (hr : s'.read.pingInHand = s.read.pingInHand)
    (hk : s.read.pingInHand = [] ∨ s'.sink = s.sink) : Echoes s' (log ++ []) := by
  unfold Echoes at h ⊢
  rw [List.append_nil, ← h, hr]
  rcases hk with hk | hk
  · simp only [hk, List.map_nil]
  · rw [hk]

/-! ## Steps -/

theorem lockOp_pong {t : Task} {payload : List UInt8} (h : lockOp s t = some (.pong payload)) :
    t = .read ∧ s.read = .lockPong payload := by
  unfold lockOp at h
  split at h
  · split at h <;> simp_all
  all_goals first | (split at h <;> simp at h) | cases h

variable [ProtocolError E] (env : Env R) (cfg : ClientConfig)

theorem readRecv_echoes {e : Option TransportEvent} (hI : Installed s) (h : Echoes s log)
    (hs : readRecv env cfg s e = some s') :
    Echoes s' (log ++ s.echoes (.recv e : Act E)) := by
  unfold readRecv at hs
  split at hs
  case h_2 => cases hs
  case h_1 hr =>
    have hnil : s.read.pingInHand = [] := by rw [hr]; rfl
    rcases e with _ | (f | pl | pl) <;> cases hs
    · refine h.keep ?_ (.inl hnil)
      rw [hnil]
      unfold leave
      simp only []
      split_ifs <;> rfl
    · refine h.keep ?_ (.inl hnil)
      rw [hnil]
      simp only [handleEvent, handleFrame]
      cases (dispatch env f : Dispatch E) <;> rfl
    · unfold Echoes pongsWritten pingsHeard at h ⊢
      rw [hnil, List.map_nil, List.append_nil] at h
      simp only [State.echoes, List.filterMap_append, h]
      simp [handleEvent, ReadPc.pingInHand, EchoNote.toPing, EchoNote.toPong, hI.stream]
    · exact h.keep hnil.symm (.inl hnil)

/-- With no ping in hand the loop comes to one by `recv` only. -/
theorem readPoll_pingInHand {p : Poll} (hs : readPoll env cfg s p = some s')
    (hnil : s.read.pingInHand = []) : s'.read.pingInHand = [] := by
  cases readPoll_moves env cfg hs with
  | wake hr h =>
    unfold readWoken at h
    split_ifs at h <;> cases h
    · unfold leave
      simp only []
      split_ifs <;> rfl
    · unfold leave
      simp only []
      split_ifs <;> rfl
    · exact hnil
  | dial _ h =>
    subst h
    unfold beginDial
    split_ifs <;> rfl
  | wokenDial _ _ h =>
    subst h
    unfold beginDial
    split_ifs <;> rfl
  | pong hr h =>
    subst h
    unfold resolvePong
    split
    · rfl
    · split <;> rfl
  | acquire ha _ h =>
    subst h
    generalize s.read = pc at ha
    cases ha <;> rfl
  | release ha h =>
    subst h
    generalize s.read = pc at ha
    cases ha <;> rfl
  | go ha h =>
    subst h
    generalize s.read = pc at ha
    cases ha <;> rfl
  | pend _ _ h =>
    subst h
    exact hnil
  | notify hr h =>
    rw [hr] at hnil
    cases hnil
  | lookup _ _ h | push _ h | resolve _ h | clear _ h | backoff _ h | redial _ h
  | dialPend _ h | dialled _ h | swap _ _ h | broadcast _ h =>
    subst h
    rfl

theorem readPoll_echoes {p : Poll} (h : Echoes s log) (hs : readPoll env cfg s p = some s') :
    Echoes s' (log ++ s.echoes (.poll .read p : Act E)) := by
  by_cases hnil : s.read.pingInHand = []
  · have hn : s.echoes (.poll .read p : Act E) = [] := by
      cases p with
      | ready =>
        simp only [State.echoes]
        split
        · next hop =>
          rw [(lockOp_pong hop).2] at hnil
          cases hnil
        · rfl
      | pend | done | timer => rfl
    rw [hn]
    exact h.keep ((readPoll_pingInHand env cfg hs hnil).trans hnil.symm) (.inl hnil)
  · unfold ReadPc.pingInHand at hnil
    split at hnil
    case h_1 pl hr =>
      unfold readPoll at hs
      rw [hr] at hs
      cases p <;> cases hs
      have hn : s.echoes (.poll .read .ready : Act E) = [] := by
        simp only [State.echoes, lockOp, hr]
      rw [hn]
      refine h.keep ?_ (.inr rfl)
      rw [hr]
      rfl
    case h_2 pl hr =>
      unfold readPoll at hs
      rw [hr] at hs
      cases p with
      | ready =>
        obtain ⟨-, rfl⟩ := issue_map hs
        unfold Echoes pongsWritten pingsHeard at h ⊢
        simp only [State.echoes, lockOp, hr, List.filterMap_append, ← h]
        simp [ReadPc.pingInHand, EchoNote.toPing, EchoNote.toPong]
      | pend | done | timer => cases hs
    case h_3 => exact absurd rfl hnil

/-- The other tasks leave the loop and its transport alone. -/
theorem otherFrame_of_step {a : Act E} (hs : step env cfg s a = some s')
    (hr : ∀ e, a ≠ .recv e) (hp : ∀ p, a ≠ .poll .read p) : OtherFrame s s' := by
  cases loop_cases env cfg hs with
  | recv => exact absurd rfl (hr _)
  | read => exact absurd rfl (hp _)
  | disconnect h =>
    obtain ⟨_, _, _, _, _, rfl, hg⟩ := disconnect_footprint h
    exact ⟨rfl, rfl, rfl, hg.mono (by simp)⟩
  | disconnectPoll h =>
    obtain ⟨_, _, _, _, rfl, hg⟩ := disconnectPoll_footprint h
    exact ⟨rfl, rfl, rfl, hg.mono (by simp)⟩
  | other h => exact h.toOtherFrame

theorem echoes_of_step {a : Act E} (hI : Installed s) (h : Echoes s log)
    (hs : step env cfg s a = some s') : Echoes s' (log ++ s.echoes a) := by
  by_cases hread : ∃ p, a = .poll .read p
  · obtain ⟨p, rfl⟩ := hread
    exact readPoll_echoes env cfg h hs
  by_cases hrecv : ∃ e, a = .recv e
  · obtain ⟨e, rfl⟩ := hrecv
    exact readRecv_echoes env cfg hI h hs
  have hf := otherFrame_of_step env cfg hs (fun e he => hrecv ⟨e, he⟩) fun p hp => hread ⟨p, hp⟩
  have hn : s.echoes a = [] := by
    unfold State.echoes
    split
    · exact absurd ⟨_, rfl⟩ hrecv
    · next t =>
      split
      · next hop => exact absurd ⟨_, congrArg (Act.poll · Poll.ready) (lockOp_pong hop).1⟩ hread
      · rfl
    · rfl
  rw [hn]
  exact h.keep (by rw [hf.read]) (.inr hf.sink)

/-! ## In the history -/

def Event.pinged : Event E → Option (List UInt8)
  | .loop (.received (.ping payload)) => some payload
  | _ => none

def Event.ponged : Event E → Option (List UInt8)
  | .issued _ _ (.pong payload) => some payload
  | _ => none

/-- The pings of the log are those of the history. -/
theorem pinged_of_step {a : Act E} (hs : step env cfg s a = some s') :
    s'.hist.filterMap Event.pinged
      = s.hist.filterMap Event.pinged ++ (pingsHeard (s.echoes a)).map Prod.snd := by
  rcases heard_cases env cfg hs with ⟨evs, he, hk⟩ | ⟨e, rfl, -, rfl⟩
  · have hnil : evs.filterMap Event.pinged = [] := by
      refine List.filterMap_eq_nil_iff.2 fun e hm => ?_
      unfold Event.pinged
      split
      · exact absurd hm (hk _)
      · rfl
    have hn : pingsHeard (s.echoes a) = [] := by
      unfold State.echoes
      split
      · next pl =>
        -- a ping received is an event received
        replace hs : readRecv env cfg s (some (.ping pl)) = some s' := hs
        unfold readRecv at hs
        split at hs <;> cases hs
        have hev : evs = [.loop (.received (.ping pl))] := (List.append_cancel_left he).symm
        exact absurd (by simp [hev]) (hk (.ping pl))
      · split <;> rfl
      · rfl
    rw [he, List.filterMap_append, hnil, hn]
    rfl
  · cases e <;> simp [handleEvent, handleFrame, State.echoes, pingsHeard, Event.pinged,
      EchoNote.toPing, List.filterMap_append]

theorem ponged_of_step {a : Act E} (hs : step env cfg s a = some s') :
    s'.hist.filterMap Event.ponged
      = s.hist.filterMap Event.ponged ++ (pongsWritten (s.echoes a)).map Prod.snd := by
  by_cases hpong : ∃ t pl, a = .poll t .ready ∧ lockOp s t = some (.pong pl)
  · obtain ⟨t, pl, rfl, hop⟩ := hpong
    obtain ⟨rfl, hr⟩ := lockOp_pong hop
    replace hs : readPoll env cfg s .ready = some s' := hs
    unfold readPoll at hs
    rw [hr] at hs
    obtain ⟨-, rfl⟩ := issue_map hs
    simp [State.echoes, hop, pongsWritten, EchoNote.toPong, Event.ponged, List.filterMap_append]
  · have hn : pongsWritten (s.echoes a) = [] := by
      unfold State.echoes
      split
      · rfl
      · split
        · next hop => exact absurd ⟨_, _, rfl, hop⟩ hpong
        · rfl
      · rfl
    rw [hn, List.map_nil, List.append_nil]
    cases write_cases env cfg hs with
    | none hg => exact hg.filterMap fun e he => by cases e <;> simp_all [unissued, Event.ponged]
    | @issue t op ha hop _ h =>
      rw [h, List.filterMap_append]
      cases op with
      | pong pl => exact absurd ⟨_, _, ha, hop⟩ hpong
      | send _ | ping _ | close => simp [Event.ponged]

/-- The log is that of the history, with the connections. -/
structure EchoLog (s : State E R) (log : List EchoNote) : Prop where
  echoes : Echoes s log
  pinged : s.hist.filterMap Event.pinged = (pingsHeard log).map Prod.snd
  ponged : s.hist.filterMap Event.ponged = (pongsWritten log).map Prod.snd

theorem echoLog_of_reach {P : State E R × List EchoNote → Act E → Prop}
    {s : State E R × List EchoNote}
    (h : Machine.Reach ((client env cfg).observed State.echoes) P s) : EchoLog s.1 s.2 := by
  refine Machine.Reach.invariant (I := fun s => EchoLog s.1 s.2) ⟨by rfl, rfl, rfl⟩
    (fun s a s' hr _ hs hI => ?_) h
  obtain ⟨hs, hl⟩ := Machine.observed_step hs
  have hc : Machine.Reach (client env cfg) Machine.Any s.1 := hr.unobserved fun _ _ _ => trivial
  rw [hl]
  refine ⟨echoes_of_step env cfg (installed_of_reach env cfg hc) hI.echoes hs, ?_, ?_⟩
  · rw [pinged_of_step env cfg hs, hI.pinged]
    simp [pingsHeard, List.filterMap_append]
  · rw [ponged_of_step env cfg hs, hI.ponged]
    simp [pongsWritten, List.filterMap_append]

theorem pongs_of_reach (h : Machine.Reach (client env cfg) Machine.Any s) :
    s.hist.filterMap Event.ponged ++ s.read.pingInHand = s.hist.filterMap Event.pinged := by
  obtain ⟨log, hlog⟩ := h.observe State.echoes
  have hI := echoLog_of_reach env cfg hlog
  have he := congrArg (List.map Prod.snd) hI.echoes
  rw [List.map_append, List.map_map] at he
  rw [hI.pinged, hI.ponged, ← he]
  simp [Function.comp_def]

/-- In every run the pongs handed to the sinks echo the pings received, payload by payload and
connection by connection, in order, but the last ping as long as the read loop has it in hand. -/
theorem pings_echoed {s : State E R × List EchoNote}
    (h : Machine.Reach ((client env cfg).observed State.echoes) Machine.Any s) :
    s.1.hist.filterMap Event.pinged = (pingsHeard s.2).map Prod.snd
      ∧ s.1.hist.filterMap Event.ponged = (pongsWritten s.2).map Prod.snd
      ∧ pongsWritten s.2 ++ s.1.read.pingInHand.map (fun payload => (s.1.sink, payload))
        = pingsHeard s.2 :=
  have hI := echoLog_of_reach env cfg h
  ⟨hI.pinged, hI.ponged, hI.echoes⟩

/-- Two pings, of which the second is still in hand. -/
def pingedTwice : List (Act WireError) :=
  [.recv (some (.ping [1])), .poll .read .ready, .poll .read .ready, .poll .read (.done (.ok ())),
    .recv (some (.ping [2])), .poll .read .ready]

theorem pings_echoed_of_pingedTwice :
    ∃ s, (scenario.observed State.echoes).run (scenario.observed State.echoes).init pingedTwice
        = some s
      ∧ pongsWritten s.2 = [(0, [1])] ∧ pingsHeard s.2 = [(0, [1]), (0, [2])]
      ∧ pongsWritten s.2 ++ s.1.read.pingInHand.map (fun payload => (s.1.sink, payload))
        = pingsHeard s.2 :=
  ⟨_, rfl, by decide, by decide, (pings_echoed scenarioEnv scenarioConfig
    (Machine.reach_any_of_run (M := scenario.observed State.echoes) pingedTwice rfl)).2.2⟩

end OcppClient
