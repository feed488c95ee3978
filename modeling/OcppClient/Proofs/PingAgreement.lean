import OcppClient.Link
import OcppClient.Proofs.PairRuns
import OcppClient.Proofs.PingCorrelation
import OcppClient.Proofs.Pongs

/-!
# An answered ping was seen by the peer

Two clients over a transport of events. What either receives is a beginning of what the other handed
over (`fifo_of_link`), so the pong that answers a ping was written by the peer, whose pongs echo the
pings it has received (`pongs_of_reach`), and these were written by this client, each token once. A
`send_ping` that returned `Ok` therefore stands for one ping that the peer received and answered,
once. The frames of such a run make it a run of `pair`, so what holds of two clients there holds
here.
-/

namespace OcppClient

open Transition

variable {E R : Type}

/-! ## The link -/

section Wire

variable [ProtocolError E] {env : Env R} {cfg : ClientConfig} {s s' : State E R} {a : Act E}

def Event.heard : Event E → Option TransportEvent
  | .loop (.received e) => some e
  | _ => none

theorem heard_of_step (hs : step env cfg s a = some s') :
    s'.hist.filterMap Event.heard = s.hist.filterMap Event.heard ++ a.heard := by
  rcases heard_cases env cfg hs with ⟨evs, he, hk⟩ | ⟨e, rfl, -, -⟩
  · have hin : a.heard = [] := by
      unfold Act.heard
      split
      · next e =>
        have hh := readRecv_some cfg hs
        rw [he] at hh
        exact absurd (by simp [List.append_cancel_left hh]) (hk e)
      · rfl
    have hnil : evs.filterMap Event.heard = [] := by
      refine List.filterMap_eq_nil_iff.2 fun e hm => ?_
      unfold Event.heard
      split
      · exact absurd hm (hk _)
      · rfl
    rw [he, List.filterMap_append, hnil, hin]
  · rw [readRecv_some cfg hs, List.filterMap_append]
    rfl

theorem outgoing_of_step (hs : step env cfg s a = some s') :
    s'.hist.filterMap Event.outgoing = s.hist.filterMap Event.outgoing ++ handedEvents s s' := by
  obtain ⟨evs, he⟩ : ∃ evs, s'.hist = s.hist ++ evs := by
    cases write_cases env cfg hs with
    | none hg =>
      obtain ⟨evs, he, -⟩ := hg
      exact ⟨evs, he⟩
    | issue _ _ _ h => exact ⟨_, h⟩
  rw [handedEvents, he, List.filterMap_append, List.drop_left]

/-- What one client has received, and what is on its way to it, is what the other handed over. -/
theorem fifo_of_link {draw : Bool → ℕ → Uuid} {cfg : Bool → ClientConfig} {l : Link E R}
    {P : Link E R → Bool × Act E → Prop} (h : Machine.Reach (link env draw cfg) P l) (x : Bool) :
    (l.side x).hist.filterMap Event.heard ++ l.wire x
      = (l.side (!x)).hist.filterMap Event.outgoing :=
  Duplex.fifo (fun s => s.hist.filterMap Event.heard) (fun s => s.hist.filterMap Event.outgoing)
    (fun _ => ⟨rfl, rfl⟩) (fun _ _ _ _ hs => heard_of_step hs)
    (fun _ _ _ _ hs => outgoing_of_step hs) h x

end Wire

/-! ## The frames of a link -/

section Frames

variable [ProtocolError E] {env : Env R} {draw : Bool → ℕ → Uuid} {cfg : Bool → ClientConfig}

def TransportEvent.toFrame : TransportEvent → Option String
  | .frame f => some f
  | _ => none

/-- The clients of a link, and the frames on their way to each. -/
def Link.frames (l : Link E R) : Pair E R :=
  ⟨l.side, fun x => (l.wire x).filterMap TransportEvent.toFrame⟩

end Frames

/-! ## The pings a client writes -/

section Pings

def Event.pingBy (p : PingId) : Event E → Option (List UInt8)
  | .issued (.ping q) _ (.ping payload) => if q = p then some payload else none
  | _ => none

/-- The pings a `send_ping` has handed to a sink. -/
def pingsBy (p : PingId) (h : List (Event E)) : List (List UInt8) := h.filterMap (Event.pingBy p)

/-- Not at the sink yet. -/
def PingPc.early : PingPc E → Bool
  | .idle | .lockWaiters _ | .lockSink _ _ => true
  | _ => false

theorem PingStep.early {v v' : PingView E} {notes : List PingNote} (h : PingStep v v' notes)
    {p : PingId} (hp : (v'.pings p).early = true) : (v.pings p).early = true := by
  have hset : ∀ {q : PingId} {pc : PingPc E},
      (Function.update v.pings q pc p).early = true →
      ((v.pings q).early = true ∨ pc.early = false) → (v.pings p).early = true := by
    intro q pc he hq
    rcases eq_or_ne p q with rfl | hne
    · rw [Function.update_self] at he
      rcases hq with hq | hq
      · exact hq
      · rw [he] at hq
        cases hq
    · rwa [Function.update_of_ne hne] at he
  cases h with
  | refuse hq | begin _ hq => exact hset hp (.inl (by rw [hq]; rfl))
  | register hq => exact hset hp (.inl (by rw [hq]; rfl))
  | issue _ | write _ | fail _ _ | answer _ _ | expire _ _ | forget _ | drop _ _ =>
    exact hset hp (.inr rfl)
  | receive _ _ | ignore _ | handle _ | clear _ _ | swap _ _ _ | loop _ => exact hp

theorem lockOp_ping {s : State E R} {t : Task} {payload : List UInt8}
    (h : lockOp s t = some (.ping payload)) :
    ∃ p token d, t = .ping p ∧ s.pings p = .lockSink token d ∧ payload = toBeBytes token := by
  unfold lockOp at h
  split at h
  case h_3 p =>
    split at h
    · next token d hp =>
      cases h
      exact ⟨p, token, d, rfl, hp, rfl⟩
    · cases h
  all_goals first | (split at h <;> simp at h) | cases h

variable [ProtocolError E] {env : Env R} {cfg : ClientConfig} {s s' : State E R} {a : Act E}

/-- A step writes no ping of `p`, or the one it stood at the lock with. -/
theorem pingsBy_of_step (hI : Installed s) (hH : PingsHold s) (hN : Numbered s)
    (hs : step env cfg s a = some s') (p : PingId) :
    pingsBy p s'.hist = pingsBy p s.hist
      ∨ (s'.pings p).early = false ∧ ∃ token d, s.pings p = .lockSink token d
        ∧ pingsBy p s'.hist = pingsBy p s.hist ++ [toBeBytes token] := by
  have hp := pingStep_of_step env cfg hI hH hN hs
  cases write_cases env cfg hs with
  | none hg =>
    exact .inl (hg.filterMap fun e he => by cases e <;> simp_all [unissued, Event.pingBy])
  | @issue t op ha hop _ h =>
    unfold pingsBy
    rw [h, List.filterMap_append]
    cases op with
    | send _ | pong _ | close => exact .inl (by simp [Event.pingBy])
    | ping payload =>
      obtain ⟨q, token, d, rfl, hq, rfl⟩ := lockOp_ping hop
      by_cases hqp : q = p
      · subst hqp
        refine .inr ⟨?_, token, d, hq, by simp [Event.pingBy]⟩
        subst ha
        simp only [pingNotes, pollNotes, hq] at hp
        generalize hv : s'.pingView = v' at hp
        cases hp with
        | @issue p' t' d' hp' =>
          have hs' : s'.pings = Function.update s.pings q (.sending t' d') :=
            congrArg PingView.pings hv
          rw [hs', Function.update_self]
          rfl
      · exact .inl (by simp [Event.pingBy, hqp])

/-- A `send_ping` hands over one ping at most, with the token it is registered under. -/
structure PingsOnce (s : State E R) (log : List PingNote) : Prop where
  early : ∀ p, (s.pings p).early = true → pingsBy p s.hist = []
  once : ∀ p, (pingsBy p s.hist).length ≤ 1
  own : ∀ p, ∀ payload ∈ pingsBy p s.hist, ∃ token, payload = toBeBytes token
    ∧ .registered p token ∈ log

theorem pingsOnce_of_reach {P : State E R × List PingNote → Act E → Prop}
    {s : State E R × List PingNote} (h : Machine.Reach (pingClient env cfg) P s) :
    PingsOnce s.1 s.2 := by
  refine Machine.Reach.invariant (I := fun s => PingsOnce s.1 s.2)
    ⟨fun _ _ => rfl, fun _ => Nat.zero_le _, fun _ _ h => by cases h⟩
    (fun s a s' hr _ hs hI => ?_) h
  have hI' := pingInv_of_reach env cfg hr
  have hc : Machine.Reach (client env cfg) Machine.Any s.1 := hr.unobserved fun _ _ _ => trivial
  have hin := installed_of_reach env cfg hc
  have hho := pingsHold_of_reach env cfg hc
  have hnu := numbered_of_reach env cfg hc
  obtain ⟨hs, hl⟩ := Machine.observed_step hs
  have hstep := pingStep_of_step env cfg hin hho hnu hs
  refine ⟨fun p hp => ?_, fun p => ?_, fun p payload hm => ?_⟩
  · rcases pingsBy_of_step hin hho hnu hs p with he | ⟨he, -⟩
    · rw [he]
      exact hI.early p (hstep.early hp)
    · rw [hp] at he
      cases he
  · rcases pingsBy_of_step hin hho hnu hs p with he | ⟨-, token, d, hp, he⟩
    · rw [he]
      exact hI.once p
    · rw [he, hI.early p (by rw [hp]; rfl)]
      exact Nat.le_refl _
  · rw [hl]
    rcases pingsBy_of_step hin hho hnu hs p with he | ⟨-, token, d, hp, he⟩
    · rw [he] at hm
      obtain ⟨token, ht, hreg⟩ := hI.own p payload hm
      exact ⟨token, ht, List.mem_append_left _ hreg⟩
    · rw [he, hI.early p (by rw [hp]; rfl), List.nil_append] at hm
      refine ⟨token, List.mem_singleton.1 hm, List.mem_append_left _ ?_⟩
      have hstory := hI'.told p
      change Story _ p (s.1.pings p) _ at hstory
      rw [hp] at hstory
      refine mem_of_ownNotes (p := p) ?_
      generalize ownNotes p s.2 = own at hstory
      cases hstory
      exact List.mem_singleton_self _

/-- The pongs of the log are received ones. -/
theorem heard_of_received {P : State E R × List PingNote → Act E → Prop}
    {s : State E R × List PingNote} (h : Machine.Reach (pingClient env cfg) P s) :
    ∀ k payload, .received k payload ∈ s.2 → .pong payload ∈ s.1.hist.filterMap Event.heard := by
  refine Machine.Reach.invariant (I := fun s => ∀ k payload, .received k payload ∈ s.2 →
    .pong payload ∈ s.1.hist.filterMap Event.heard) (by simp [Machine.observed])
    (fun s a s' _ _ hs hI k payload hm => ?_) h
  obtain ⟨hs, hl⟩ := Machine.observed_step hs
  rw [heard_of_step hs]
  rw [hl] at hm
  rcases List.mem_append.1 hm with hm | hm
  · exact List.mem_append_left _ (hI k payload hm)
  · refine List.mem_append_right _ ?_
    unfold pingNotes at hm
    split at hm
    · simp only [List.mem_singleton, PingNote.received.injEq] at hm
      simp [Act.heard, hm.2]
    · split at hm <;> simp at hm
    · unfold pollNotes at hm
      split at hm <;> simp at hm
    · simp at hm

/-- The pings handed to a sink by anyone. -/
def Event.pingOut : Event E → Option (List UInt8)
  | .issued _ _ (.ping payload) => some payload
  | _ => none

omit [ProtocolError E] in
/-- The ping with the token of `p` is written by `p` alone, so once at most. -/
theorem count_pingOut {log : List PingNote} (hO : PingsOnce s log)
    (hw : ∀ t k payload, .issued t k (.ping payload) ∈ s.hist → ∃ q, t = .ping q)
    (hu : ∀ p q t, .registered p t ∈ log → .registered q t ∈ log → p = q) {p : PingId}
    {token : Token} (hp : .registered p token ∈ log) :
    (s.hist.filterMap Event.pingOut).count (toBeBytes token) ≤ 1 := by
  refine le_trans (History.count_filterMap_le fun e he ho => ?_) (hO.once p)
  unfold Event.pingOut at ho
  split at ho
  case h_2 => cases ho
  case h_1 t k payload =>
    cases ho
    obtain ⟨q, rfl⟩ := hw t k _ he
    have hm : toBeBytes token ∈ pingsBy q s.hist :=
      List.mem_filterMap.2 ⟨_, he, by simp [Event.pingBy]⟩
    obtain ⟨token', ht, hq⟩ := hO.own q _ hm
    have htt : token = token' := by
      have := congrArg fromBeBytes ht
      rw [fromBeBytes_toBeBytes, fromBeBytes_toBeBytes] at this
      exact Option.some.inj this
    subst htt
    obtain rfl := hu p q token hp hq
    simp [Event.pingBy]

theorem pinger_of_reach {P : State E R → Act E → Prop} (h : Machine.Reach (client env cfg) P s) :
    ∀ t k payload, .issued t k (.ping payload) ∈ s.hist → ∃ q, t = .ping q := by
  refine h.invariant (I := fun s => ∀ t k payload, .issued t k (.ping payload) ∈ s.hist →
    ∃ q, t = .ping q) (by simp [client, State.new]) fun s a s' _ _ hs hI t k payload hm => ?_
  cases write_cases env cfg hs with
  | none hg => exact hI t k payload (hg.of_mem hm (by simp [unissued]))
  | @issue u op _ hop _ hh =>
    rw [hh] at hm
    rcases List.mem_append.1 hm with hm | hm
    · exact hI t k payload hm
    · cases List.mem_singleton.1 hm
      obtain ⟨q, _, _, rfl, -⟩ := lockOp_ping hop
      exact ⟨q, rfl⟩

end Pings

/-! ## Agreement -/

section Agreement

variable [ProtocolError E] {env : Env R} {draw : Bool → ℕ → Uuid} {cfg : Bool → ClientConfig}

def TransportEvent.pinged : TransportEvent → Option (List UInt8)
  | .ping payload => some payload
  | _ => none

def TransportEvent.ponged : TransportEvent → Option (List UInt8)
  | .pong payload => some payload
  | _ => none

omit [ProtocolError E] in
theorem filterMap_heard (h : List (Event E)) :
    (h.filterMap Event.heard).filterMap TransportEvent.pinged = h.filterMap Event.pinged := by
  rw [List.filterMap_filterMap]
  refine List.filterMap_congr fun e _ => ?_
  rcases e with e | e | e | ⟨t, k, op⟩
  · rfl
  · cases e with
    | received e => cases e <;> rfl
    | _ => rfl
  · rfl
  · rfl

omit [ProtocolError E] in
theorem filterMap_outgoing (h : List (Event E)) :
    (h.filterMap Event.outgoing).filterMap TransportEvent.pinged = h.filterMap Event.pingOut
      ∧ (h.filterMap Event.outgoing).filterMap TransportEvent.ponged
        = h.filterMap Event.ponged := by
  constructor
  all_goals
    rw [List.filterMap_filterMap]
    refine List.filterMap_congr fun e _ => ?_
    rcases e with e | e | e | ⟨t, k, op⟩
    · rfl
    · rfl
    · rfl
    · cases op <;> rfl

omit [ProtocolError E] in
/-- A ping that returned `Ok` is registered, and the pong with its token was received. -/
theorem PingInv.answered_by {v : PingView E} {log : List PingNote} (hI : PingInv v log)
    (hb : registrations log < 2 ^ 64) {q : PingId} (hq : v.pings q = .returned (.ok ())) :
    ∃ token k, .registered q token ∈ log ∧ .received k (toBeBytes token) ∈ log := by
  obtain ⟨j, hw⟩ : ∃ j, .written q j ∈ log := by
    have hs := hI.told q
    rw [hq] at hs
    have hm : ∀ n, n ∈ ownNotes q log → n ∈ log := fun n => mem_of_ownNotes
    generalize ownNotes q log = own at hs hm
    cases hs with
    | answered t j => exact ⟨j, hm _ (by simp)⟩
  obtain ⟨pre, token, post, rfl, hpong, ⟨pre', post', rfl, -⟩, -⟩ :=
    (hI.answered_iff hb hq hw).1 rfl
  obtain ⟨pre₂, k, mid, hlog, -⟩ := hpong
  refine ⟨token, k, by simp, List.mem_append_left _ ?_⟩
  rw [hlog]
  simp

/-- In every run of two clients over a transport of events, with fewer than 2^64 pings on one side:
a `send_ping` that returned `Ok` there stands for one ping that the peer has received, and answered
with one pong. -/
theorem ping_seen_by_peer {l : Link E R × List (Bool × PingNote)}
    (h : Machine.Reach ((link env draw cfg).observed (Duplex.log fun _ => pingNotes))
      Machine.Any l) (x : Bool) (hb : registrations (Duplex.sideLog x l.2) < 2 ^ 64) {q : PingId}
    (hq : (l.1.side x).pings q = .returned (.ok ())) :
    ∃ token, .registered q token ∈ Duplex.sideLog x l.2
      ∧ ((l.1.side !x).hist.filterMap Event.pinged).count (toBeBytes token) = 1
      ∧ ((l.1.side !x).hist.filterMap Event.ponged).count (toBeBytes token) = 1 := by
  have hx := Duplex.side_of_reach h x
  have hl : Machine.Reach (link env draw cfg) Machine.Any l.1 := h.unobserved fun _ _ _ => trivial
  have hsx : Machine.Reach (client (sideEnv env draw x) (cfg x)) Machine.Any (l.1.side x) :=
    hx.unobserved fun _ _ _ => trivial
  have hsy : Machine.Reach (client (sideEnv env draw !x) (cfg !x)) Machine.Any (l.1.side !x) :=
    (Duplex.side_of_reach h !x).unobserved fun _ _ _ => trivial
  have hI := pingInv_of_reach _ _ hx
  obtain ⟨token, k, hreg, hrec⟩ := hI.answered_by hb hq
  -- what the peer has received of this client's pings
  have hpinged : ((l.1.side !x).hist.filterMap Event.pinged).count (toBeBytes token) ≤ 1 := by
    have hfifo := congrArg (List.filterMap TransportEvent.pinged) (fifo_of_link hl !x)
    rw [Bool.not_not, List.filterMap_append, filterMap_heard, (filterMap_outgoing _).1] at hfifo
    refine le_trans ?_ (count_pingOut (pingsOnce_of_reach hx) (pinger_of_reach hsx)
      (fun p q t hp hq => (Correlation.inv_of_reach (hI.table (Nat.le_of_lt hb))).unique p q t
        (mem_labels_register.2 hp) (mem_labels_register.2 hq)) hreg)
    rw [← hfifo, List.count_append]
    exact Nat.le_add_right _ _
  -- and what this client has received of the peer's pongs
  have hponged : toBeBytes token ∈ (l.1.side !x).hist.filterMap Event.ponged := by
    have hm : .pong (toBeBytes token) ∈ (l.1.side !x).hist.filterMap Event.outgoing := by
      rw [← fifo_of_link hl x]
      exact List.mem_append_left _ (heard_of_received hx k _ hrec)
    rw [← (filterMap_outgoing _).2]
    exact List.mem_filterMap.2 ⟨_, hm, rfl⟩
  have hecho := congrArg (List.count (toBeBytes token)) (pongs_of_reach _ _ hsy)
  rw [List.count_append] at hecho
  have hpos := List.count_pos_iff.2 hponged
  exact ⟨token, hreg, by omega, by omega⟩

def pingLink : Machine (Link WireError Unit × List (Bool × PingNote)) (Bool × Act WireError) :=
  (link scenarioEnv (fun _ => uuidV4) fun _ => scenarioConfig).observed
    (Duplex.log fun _ => pingNotes)

/-- One client pings, the other answers. -/
def pingedAcross : List (Bool × Act WireError) :=
  [(true, .ping 0), (true, .poll (.ping (.user 0)) .ready), (true, .poll (.ping (.user 0)) .ready),
    (true, .poll (.ping (.user 0)) (.done (.ok ()))),
    (false, .recv (some (.ping [0, 0, 0, 0, 0, 0, 0, 0]))), (false, .poll .read .ready),
    (false, .poll .read .ready), (true, .recv (some (.pong [0, 0, 0, 0, 0, 0, 0, 0]))),
    (true, .poll .read .ready), (true, .poll (.ping (.user 0)) .ready)]

theorem ping_seen_by_peer_of_pingedAcross :
    ∃ l, pingLink.run pingLink.init pingedAcross = some l
      ∧ (l.1.side true).pings (.user 0) = .returned (.ok ())
      ∧ ∃ token, .registered (.user 0) token ∈ Duplex.sideLog true l.2
        ∧ ((l.1.side false).hist.filterMap Event.pinged).count (toBeBytes token) = 1
        ∧ ((l.1.side false).hist.filterMap Event.ponged).count (toBeBytes token) = 1 := by
  refine ⟨_, rfl, rfl, ping_seen_by_peer
    (Machine.reach_any_of_run (M := pingLink) pingedAcross rfl) true ?_ rfl⟩
  decide

end Agreement

end OcppClient
