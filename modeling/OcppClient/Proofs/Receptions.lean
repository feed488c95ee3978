import Mathlib.Data.List.ReduceOption
import OcppClient.Proofs.PingAgreement

/-!
# What `recv` returns, connection by connection

The events a client handles on a connection are those that `recv` returned there, in order and each
once, whatever wakes its read loop meanwhile. The end of a stream is the last thing `recv` returns
on it, and the loop has left the connection then.
-/

namespace OcppClient

open Transition

variable {E R : Type}

/-! ## On which connection an event came -/

/-- The connection read after an event. -/
def reading (k : SinkId) : Event E → SinkId
  | .loop (.swapped k') => k'
  | _ => k

/-- The events received, with the connection each came on, from a time when `k` is read. -/
def heardOn (k : SinkId) : List (Event E) → List (SinkId × TransportEvent)
  | [] => []
  | e :: h => (e.heard.map fun ev => (k, ev)).toList ++ heardOn (reading k e) h

theorem heardOn_append (k : SinkId) (h h' : List (Event E)) :
    heardOn k (h ++ h') = heardOn k h ++ heardOn (h.foldl reading k) h' := by
  induction h generalizing k with
  | nil => rfl
  | cons e h ih => simp only [List.cons_append, heardOn, ih, List.foldl_cons, List.append_assoc]

/-- The history goes on without an event received or a connection swapped in. -/
def Still (h h' : List (Event E)) : Prop :=
  ∃ evs, h' = h ++ evs ∧ ∀ e ∈ evs, e.heard = none ∧ ∀ k, reading k e = k

theorem Still.refl (h : List (Event E)) : Still h h := ⟨[], by simp, by simp⟩

theorem Still.snoc {h : List (Event E)} {e : Event E} (he : e.heard = none)
    (hr : ∀ k, reading k e = k) : Still h (h ++ [e]) :=
  ⟨[e], rfl, by simpa using ⟨he, hr⟩⟩

theorem Still.trans {h h' h'' : List (Event E)} (h₁ : Still h h') (h₂ : Still h' h'') :
    Still h h'' := by
  obtain ⟨evs, rfl, hk⟩ := h₁
  obtain ⟨evs', rfl, hk'⟩ := h₂
  refine ⟨evs ++ evs', by simp, fun e he => ?_⟩
  exact (List.mem_append.1 he).elim (hk e) (hk' e)

theorem still_of_grows {ks : List Kind} {h h' : List (Event E)} (hg : Grows ks h h')
    (hp : .passage ∉ ks) (hu : Unheard h h') : Still h h' := by
  obtain ⟨evs, rfl, hk⟩ := hg
  obtain ⟨evs', he, hu⟩ := hu
  obtain rfl : evs = evs' := List.append_cancel_left he
  refine ⟨evs, rfl, fun e he => ⟨?_, fun k => ?_⟩⟩
  · unfold Event.heard
    split
    · exact absurd he (hu _)
    · rfl
  · unfold reading
    split
    · exact absurd (hk _ he) hp
    · rfl

theorem Still.reading_eq {h h' : List (Event E)} (hs : Still h h') (k : SinkId) :
    h'.foldl reading k = h.foldl reading k := by
  obtain ⟨evs, rfl, hk⟩ := hs
  rw [List.foldl_append]
  generalize h.foldl reading k = k'
  induction evs with
  | nil => rfl
  | cons e evs ih =>
    rw [List.foldl_cons, (hk e (by simp)).2]
    exact ih fun e he => hk e (by simp [he])

theorem Still.heardOn_eq {h h' : List (Event E)} (hs : Still h h') (k : SinkId) :
    heardOn k h' = heardOn k h := by
  obtain ⟨evs, rfl, hk⟩ := hs
  have hnil : ∀ k, heardOn k evs = [] := by
    intro k
    induction evs generalizing k with
    | nil => rfl
    | cons e evs ih =>
      rw [heardOn, (hk e (by simp)).1, ih fun e he => hk e (by simp [he])]
      rfl
  rw [heardOn_append, hnil, List.append_nil]

section Steps

variable [ProtocolError E] {env : Env R} {cfg : ClientConfig} {s s' : State E R}

omit [ProtocolError E] in
theorem beginDial_still (s : State E R) : Still s.hist (beginDial s).hist := by
  unfold beginDial
  split_ifs
  · exact .refl _
  · exact .snoc rfl fun _ => rfl

/-- A poll of the read loop leaves the connection alone, or swaps in a later one. -/
theorem readPoll_still {p : Poll} (hs : readPoll env cfg s p = some s') :
    Still s.hist s'.hist ∧ s'.stream = s.stream
      ∨ ∃ k, s.read = .lockSwap k ∧ s' = { s with
        sink := k, stream := k, read := .notifyReconnect
        hist := s.hist ++ [.loop (.swapped k)] } := by
  have hu := readPoll_unheard env cfg hs
  cases readPoll_passage env cfg hs with
  | wake _ h =>
    unfold readWoken at h
    split_ifs at h <;> cases h <;> exact .inl ⟨.snoc rfl fun _ => rfl, rfl⟩
  | backoff _ _ h =>
    subst h
    obtain ⟨_, _, hb, -⟩ :=
      beginDial_footprint { s with wake := false, hist := s.hist ++ [.loop .woken] }
    exact .inl ⟨.trans (.snoc rfl fun _ => rfl) (beginDial_still _), by rw [hb]⟩
  | dialled _ h => subst h; exact .inl ⟨.refl _, rfl⟩
  | swap hr _ h => exact .inr ⟨_, hr, h⟩
  | broadcast _ h => subst h; exact .inl ⟨.snoc rfl fun _ => rfl, rfl⟩
  | other _ ht _ _ hg => exact .inl ⟨still_of_grows hg (by simp) hu, ht⟩

/-- The loop has left the connection it read last. -/
def ReadPc.Leaving : ReadPc E → Prop
  | .clearShutdown | .lockClose | .sendClose | .clearWaiters => True
  | .backoff _ | .dial _ | .lockSwap _ | .exited => True
  | _ => False

omit [ProtocolError E] in
theorem leave_leaving (s : State E R) (reason : LoopExit) : (leave cfg s reason).read.Leaving := by
  unfold leave
  simp only []
  split_ifs <;> trivial

omit [ProtocolError E] in
theorem beginDial_leaving (s : State E R) : (beginDial s).read.Leaving := by
  unfold beginDial
  split_ifs <;> trivial

theorem readPoll_leaving {p : Poll} (hl : s.read.Leaving) (hs : readPoll env cfg s p = some s') :
    s'.read.Leaving ∨ ∃ k, s.read = .lockSwap k ∧ s'.stream = k := by
  cases readPoll_moves env cfg hs with
  | acquire ha _ h =>
    subst h
    generalize s.read = pc at ha hl
    cases ha with
    | close => exact .inl trivial
    | notImplemented | pong => exact hl.elim
  | release ha h =>
    subst h
    generalize s.read = pc at ha hl
    cases ha with
    | close => exact .inl trivial
    | notImplemented | pong => exact hl.elim
  | go ha _ =>
    generalize s.read = pc at ha hl
    cases ha <;> exact hl.elim
  | pend _ _ h => subst h; exact .inl hl
  | dial _ h => subst h; exact .inl (beginDial_leaving s)
  | wokenDial _ _ h => subst h; exact .inl (beginDial_leaving _)
  | clear _ h | backoff _ h | redial _ h | dialPend _ h | dialled _ h => subst h; exact .inl trivial
  | swap hr _ h => subst h; exact .inr ⟨_, hr, rfl⟩
  | wake hr _ | push hr _ | resolve hr _ | pong hr _ | notify hr _ | broadcast hr _ =>
    rw [hr] at hl
    exact hl.elim
  | lookup hr _ _ =>
    rw [hr] at hl
    exact hl.elim

end Steps

/-! ## What `recv` returned -/

def onConnection (k : SinkId) (heard : List (SinkId × TransportEvent)) : List TransportEvent :=
  (heard.filter fun p => p.1 = k).map Prod.snd

/-- The loop has left the connection `k`. -/
def State.HasLeft (s : State E R) (k : SinkId) : Prop :=
  k < s.stream ∨ k = s.stream ∧ s.read.Leaving

/-- What `recv` has returned on each connection, the end of a stream as `none`. -/
structure Reception (s : State E R) (results : SinkId → List (Option TransportEvent)) : Prop where
  reading : s.hist.foldl reading 0 = s.stream
  events : ∀ k, onConnection k (heardOn 0 s.hist) = (results k).reduceOption
  unopened : ∀ k, s.stream < k → results k = []
  last : ∀ k, none ∉ (results k).dropLast
  left : ∀ k, none ∈ results k → s.HasLeft k

section Results

variable [ProtocolError E] {env : Env R} {cfg : ClientConfig} {s s' : State E R}
  {results : SinkId → List (Option TransportEvent)}

/-- A step that is no `recv` takes nothing from a connection. -/
theorem still_of_step {a : Act E} (hI : Installed s) (ha : ∀ e, a ≠ .recv e)
    (hs : step env cfg s a = some s') :
    (Still s.hist s'.hist ∧ s'.stream = s.stream ∧ (s.read.Leaving → s'.read.Leaving))
      ∨ ∃ k, s.stream < k ∧ s'.stream = k ∧ s'.hist = s.hist ++ [.loop (.swapped k)] := by
  by_cases hp : ∃ p, a = .poll .read p
  · obtain ⟨p, rfl⟩ := hp
    rcases readPoll_still hs with ⟨hst, ht⟩ | ⟨k, hr, rfl⟩
    · refine .inl ⟨hst, ht, fun hl => (readPoll_leaving hl hs).resolve_right ?_⟩
      rintro ⟨k, hr, hk⟩
      rw [ht, hI.stream] at hk
      exact (hI.swap k hr).1.ne hk
    · exact .inr ⟨k, by rw [hI.stream]; exact (hI.swap k hr).1, rfl, rfl⟩
  · have hf := otherFrame_of_step env cfg hs ha fun p h => hp ⟨p, h⟩
    exact .inl ⟨still_of_grows hf.grows (by simp) (hf.grows.unheard (by simp)), hf.stream,
      by rw [hf.read]; exact id⟩

omit [ProtocolError E] in
theorem reception_new (cfg : ClientConfig) : Reception (State.new cfg : State E R) fun _ => [] :=
  ⟨rfl, fun _ => rfl, fun _ _ => rfl, by simp, by simp⟩

/-- A step that is no `recv` adds nothing. -/
theorem Reception.step {a : Act E} (hI : Installed s) (ha : ∀ e, a ≠ .recv e)
    (hs : OcppClient.step env cfg s a = some s') (h : Reception s results) :
    Reception s' results := by
  rcases still_of_step hI ha hs with ⟨hst, ht, hl⟩ | ⟨k', hlt, ht, hh⟩
  · refine ⟨?_, fun k => ?_, fun k hk => ?_, h.last, fun k hk => ?_⟩
    · rw [hst.reading_eq, ht, h.reading]
    · rw [hst.heardOn_eq, h.events k]
    · exact h.unopened k (ht ▸ hk)
    · rw [State.HasLeft, ht]
      exact (h.left k hk).imp_right fun h => ⟨h.1, hl h.2⟩
  · refine ⟨?_, fun k => ?_, fun k hk => ?_, h.last, fun k hk => .inl ?_⟩
    · rw [hh, ht, List.foldl_append]
      rfl
    · rw [hh, heardOn_append, ← h.events k]
      simp [heardOn, Event.heard]
    · exact h.unopened k (hlt.trans (ht ▸ hk))
    · rw [ht]
      rcases h.left k hk with h | ⟨rfl, -⟩
      · exact h.trans hlt
      · exact hlt

omit [ProtocolError E] in
/-- The loop that reads has met no end of its connection yet. -/
theorem Reception.open (h : Reception s results) (hr : s.read = .recv) :
    none ∉ results s.stream := by
  intro hn
  rcases h.left _ hn with h | ⟨-, h⟩
  · exact absurd h (lt_irrefl _)
  · rw [hr] at h
    exact h.elim

/-- What a `recv` that has returned leaves of the history. -/
theorem readRecv_hist {e : Option TransportEvent} (hs : readRecv env cfg s e = some s') :
    s'.stream = s.stream ∧ s'.hist.foldl reading 0 = s.hist.foldl reading 0
      ∧ heardOn 0 s'.hist
        = heardOn 0 s.hist ++ (e.map fun e => (s.hist.foldl reading 0, e)).toList
      ∧ (e = none → s'.read.Leaving) := by
  have hrecv := (readRecv_leads env cfg hs).1
  refine ⟨(readRecv_passage env cfg hs).2.1, ?_⟩
  cases e with
  | some e =>
    rw [readRecv_some cfg hs, heardOn_append, List.foldl_append]
    exact ⟨rfl, rfl, fun h => by cases h⟩
  | none =>
    simp only [readRecv, hrecv, Option.some.injEq] at hs
    subst hs
    rw [leave, heardOn_append, List.foldl_append]
    exact ⟨rfl, rfl, fun _ => leave_leaving s _⟩

/-- A `recv` adds what it returns to the connection that is read. -/
theorem Reception.recv {e : Option TransportEvent} (hs : readRecv env cfg s e = some s')
    (h : Reception s results) :
    Reception s' (Function.update results s.stream (results s.stream ++ [e])) := by
  obtain ⟨ht, hf, hh, hl⟩ := readRecv_hist hs
  have hopen := h.open (readRecv_leads env cfg hs).1
  refine ⟨by rw [hf, ht, h.reading], fun k => ?_, fun k hk => ?_, fun k => ?_, fun k hk => ?_⟩
  · rw [hh, h.reading, onConnection, List.filter_append, List.map_append]
    change onConnection k _ ++ _ = _
    rw [h.events k]
    rcases eq_or_ne k s.stream with rfl | hne
    · rw [Function.update_self, List.reduceOption_append]
      cases e <;> simp
    · rw [Function.update_of_ne hne]
      cases e <;> simp [hne.symm]
  · rw [ht] at hk
    rw [Function.update_of_ne hk.ne']
    exact h.unopened k hk
  · rcases eq_or_ne k s.stream with rfl | hne
    · rw [Function.update_self, List.dropLast_concat]
      exact hopen
    · rw [Function.update_of_ne hne]
      exact h.last k
  · rw [State.HasLeft, ht]
    rcases eq_or_ne k s.stream with rfl | hne
    · rw [Function.update_self] at hk
      rcases List.mem_append.1 hk with hk | hk
      · exact absurd hk hopen
      · exact .inr ⟨rfl, hl (List.mem_singleton.1 hk).symm⟩
    · rw [Function.update_of_ne hne] at hk
      rcases h.left k hk with h | ⟨h, -⟩
      · exact .inl h
      · exact absurd h hne

end Results

end OcppClient
