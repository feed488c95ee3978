import OcppClient.EmbassyTransport

/-!
# How the socket cuts the stream

`recv` gives the codec what has come of the stream and takes what it says for a part of a message.
It waits for more bytes only when none are left, and takes a ping or a pong for whole at once. So a
read that ends inside a header, or inside the payload of a ping or pong, changes what is delivered,
and any other cut does not, where the fragments of a message are not cut in their payloads: what the
codec makes of the rest of such a fragment is its own affair.
-/

namespace OcppClient

open WebSocket

/-- How a stream ends: with `Ok(None)`, or with an error. -/
inductive Ending (ε : Type)
  | closed
  | failed (e : RecvError ε)

namespace EmbassyWsStream

variable {S ε : Type} (read : S → List UInt8 → Except ε ReadResult × S)

/-- A stream on which `reads` are to come. -/
def new (ws : S) (eof : Except TcpError Unit) (reads : List (List UInt8)) : EmbassyWsStream S :=
  ⟨reads, eof, ws, [], []⟩

/-- `recv` called again and again delivers these events and then this ending. -/
inductive Delivers : EmbassyWsStream S → List TransportEvent → Ending ε → Prop
  | closed {s s' : EmbassyWsStream S} {n : ℕ} (h : recv read n s = some (.ok none, s')) :
    Delivers s [] .closed
  | failed {s s' : EmbassyWsStream S} {n : ℕ} {e : RecvError ε}
    (h : recv read n s = some (.error e, s')) : Delivers s [] (.failed e)
  | event {s s' : EmbassyWsStream S} {n : ℕ} {ev : TransportEvent} {evs : List TransportEvent}
    {e : Ending ε} (h : recv read n s = some (.ok (some ev), s')) (h' : Delivers s' evs e) :
    Delivers s (ev :: evs) e

/-- The same bytes in one read. -/
def inOneRead (bytes : List UInt8) : List (List UInt8) := if bytes.isEmpty then [] else [bytes]

/-- Cut as it is, the stream delivers what it delivers in one read, and ends as it ends then. -/
def SameDelivery (ws : S) (eof : Except TcpError Unit) (reads : List (List UInt8)) : Prop :=
  ∀ evs e, Delivers read (new ws eof reads) evs e
    ↔ Delivers read (new ws eof (inOneRead reads.flatten)) evs e

/-! ## What frames say, however they come -/

/-- What becomes of a frame: an event or none and the text accumulated so far, or the end of the
stream, by a close or by text that is not UTF-8. -/
inductive Absorbed
  | goes (ev : Option TransportEvent) (accumulated : List UInt8)
  | closed
  | invalid

def absorb (k : Kind) (fin : Bool) (payload accumulated : List UInt8) : Absorbed :=
  match k with
  | .data .text =>
    if fin then
      match fromUtf8 (accumulated ++ payload) with
      | some text => .goes (some (.frame text)) []
      | none => .invalid
    else .goes none (accumulated ++ payload)
  | .data .binary => .goes none []
  | .ping => .goes (some (.ping payload)) accumulated
  | .pong => .goes (some (.pong payload)) accumulated
  | .close => .closed

/-- The events of a list of frames and how they end, where the socket ends with `eof`. -/
def deliver (eof : Ending ε) : Option Data → List UInt8 → List Frame →
    List TransportEvent × Ending ε
  | _, _, [] => ([], eof)
  | m, acc, f :: fs =>
    match f.next m with
    | none => ([], eof)
    | some (k, m') =>
      match absorb k f.fin f.payload acc with
      | .closed => ([], .closed)
      | .invalid => ([], .failed .utf8)
      | .goes ev acc' =>
        (ev.toList ++ (deliver eof m' acc' fs).1, (deliver eof m' acc' fs).2)

/-- How the socket's end is seen. -/
def socketEnd (eof : Except TcpError Unit) : Ending ε :=
  match eof with
  | .ok _ => .closed
  | .error e => .failed (.tcp e)

/-- The stream delivers what the frames `fs` say. -/
def DeliversFrames (s : EmbassyWsStream S) (m : Option Data) (fs : List Frame) : Prop :=
  let r : List TransportEvent × Ending ε := deliver (socketEnd s.eof) m s.accumulated fs
  Delivers read s r.1 r.2

/-! ## Cuts -/

/-- A read that is not the last ends `n` bytes into the stream. -/
def CutAt : List (List UInt8) → ℕ → Prop
  | [], _ => False
  | c :: cs, n => (cs ≠ [] ∧ n = c.length) ∨ ∃ j, n = c.length + j ∧ CutAt cs j

/-- `n` bytes into `f` is inside its header or, for a ping or a pong, inside its payload. -/
def Torn (f : Frame) (k : Kind) (n : ℕ) : Prop :=
  (0 < n ∧ n < f.header.length)
    ∨ (k = .ping ∨ k = .pong) ∧ f.header.length ≤ n ∧ n < f.encode.length

/-- `n` bytes into `f` is inside its payload, and `f` is a fragment. -/
def InFragment (f : Frame) (_ : Kind) (n : ℕ) : Prop :=
  ¬ f.Whole ∧ f.header.length ≤ n ∧ n < f.encode.length

/-- No cut hits a frame, up to the frame that ends the stream. -/
def Avoids (hit : Frame → Kind → ℕ → Prop) : (ℕ → Prop) → Option Data → List UInt8 →
    List Frame → Prop
  | _, _, _, [] => True
  | cut, m, acc, f :: fs =>
    match f.next m with
    | none => True
    | some (k, m') =>
      (∀ n, cut n → ¬ hit f k n)
        ∧ match absorb k f.fin f.payload acc with
          | .goes _ acc' => Avoids hit (fun n => cut (f.encode.length + n)) m' acc' fs
          | _ => True

/-- No cut tears a frame. -/
def Untorn : (ℕ → Prop) → Option Data → List UInt8 → List Frame → Prop := Avoids Torn

/-- No cut is inside the payload of a fragment. -/
def FragmentsWhole : (ℕ → Prop) → Option Data → List UInt8 → List Frame → Prop :=
  Avoids InFragment

/-- Two ways to cut one list: the first part of the one holds that of the other, or is a proper part
of it. -/
theorem append_split {α : Type} {a b c d : List α} (h : a ++ b = c ++ d) :
    (∃ c', a = c ++ c' ∧ d = c' ++ b) ∨ ∃ a', a' ≠ [] ∧ c = a ++ a' ∧ b = a' ++ d := by
  rcases List.append_eq_append_iff.1 h with ⟨a', hc, hb⟩ | ⟨c', ha, hd⟩
  · rcases eq_or_ne a' [] with rfl | hne
    · exact .inl ⟨[], by simpa using hc.symm, by simpa using hb.symm⟩
    · exact .inr ⟨a', hne, hc, hb⟩
  · exact .inl ⟨c', ha, hd⟩

section Cuts

variable {c : List UInt8} {cs : List (List UInt8)} {n : ℕ}

theorem CutAt.le (h : CutAt (c :: cs) n) : c.length ≤ n := by
  rcases h with ⟨-, rfl⟩ | ⟨j, rfl, -⟩
  · exact Nat.le_refl _
  · exact Nat.le_add_right _ _

theorem cutAt_length (h : cs ≠ []) : CutAt (c :: cs) c.length := .inl ⟨h, rfl⟩

/-- The cuts seen from further on in the first piece. -/
theorem cutAt_drop {j : ℕ} (hj : j ≤ c.length) :
    CutAt (c.drop j :: cs) n ↔ CutAt (c :: cs) (j + n) := by
  simp only [CutAt, List.length_drop]
  refine or_congr (and_congr_right fun _ => by omega) (exists_congr fun i => ?_)
  exact and_congr_left fun _ => by omega

theorem cutAt_nil_cons (hn : 0 < n) : CutAt ([] :: cs) n ↔ CutAt cs n := by
  simp only [CutAt, List.length_nil, Nat.zero_add]
  constructor
  · rintro (⟨-, rfl⟩ | ⟨j, rfl, h⟩)
    · exact absurd hn (Nat.lt_irrefl 0)
    · exact h
  · exact fun h => .inr ⟨n, rfl, h⟩

theorem Torn.pos {f : Frame} {k : Kind} (h : Torn f k n) : 0 < n := by
  rcases h with h | h
  · exact h.1
  · exact Nat.lt_of_lt_of_le (List.length_pos_iff.2 f.header_ne_nil) h.2.1

theorem Torn.lt {f : Frame} {k : Kind} (h : Torn f k n) : n < f.encode.length := by
  rcases h with h | h
  · rw [Frame.encode, List.length_append]
    omega
  · exact h.2.2

theorem InFragment.pos {f : Frame} {k : Kind} (h : InFragment f k n) : 0 < n :=
  Nat.lt_of_lt_of_le (List.length_pos_iff.2 f.header_ne_nil) h.2.1

theorem encode_length_pos (f : Frame) : 0 < f.encode.length := by
  rw [Frame.encode, List.length_append]
  exact Nat.add_pos_left (List.length_pos_iff.2 f.header_ne_nil) _

section Avoids

variable {hit : Frame → Kind → ℕ → Prop} (hpos : ∀ {f k n}, hit f k n → 0 < n)

include hpos

theorem avoids_congr {cut cut' : ℕ → Prop} (h : ∀ n, 0 < n → (cut n ↔ cut' n)) {m : Option Data}
    {acc : List UInt8} {fs : List Frame} : Avoids hit cut m acc fs ↔ Avoids hit cut' m acc fs := by
  induction fs generalizing cut cut' m acc with
  | nil => exact Iff.rfl
  | cons f fs ih =>
    simp only [Avoids]
    split
    · exact Iff.rfl
    · refine and_congr ⟨fun hc n hn ht => hc n ((h n (hpos ht)).2 hn) ht,
        fun hc n hn ht => hc n ((h n (hpos ht)).1 hn) ht⟩ ?_
      split
      · exact ih fun n _ => h _ (Nat.add_pos_left (encode_length_pos f) n)
      · exact Iff.rfl

theorem avoids_of_forall_not {cut : ℕ → Prop} (h : ∀ n, 0 < n → ¬ cut n) (m : Option Data)
    (acc : List UInt8) (fs : List Frame) : Avoids hit cut m acc fs := by
  induction fs generalizing cut m acc with
  | nil => trivial
  | cons f fs ih =>
    simp only [Avoids]
    split
    · trivial
    · refine ⟨fun n hn ht => h n (hpos ht) hn, ?_⟩
      split
      · exact ih (fun n _ => h _ (Nat.add_pos_left (encode_length_pos f) n)) _ _
      · trivial

end Avoids

theorem not_cutAt_inOneRead (bytes : List UInt8) (n : ℕ) : ¬ CutAt (inOneRead bytes) n := by
  unfold inOneRead
  split_ifs <;> simp [CutAt]

end Cuts

/-! ## Turns -/

/-- What is delivered from the end of a turn on. -/
def TurnDelivers (t : RecvTurn S ε) (evs : List TransportEvent) (e : Ending ε) : Prop :=
  match t with
  | .again s => Delivers read s evs e
  | .returned (.ok none) _ => evs = [] ∧ e = .closed
  | .returned (.ok (some ev)) s => ∃ evs', evs = ev :: evs' ∧ Delivers read s evs' e
  | .returned (.error err) _ => evs = [] ∧ e = .failed err

variable {read}

theorem delivers_of_again {s s' : EmbassyWsStream S} (h : turn read s = .again s')
    {evs : List TransportEvent} {e : Ending ε} (hd : Delivers read s' evs e) :
    Delivers read s evs e := by
  have hr : ∀ {n x}, recv read n s' = some x → recv read (n + 1) s = some x := fun hn => by
    simp only [recv, h, hn]
  cases hd with
  | closed hn => exact .closed (hr hn)
  | failed hn => exact .failed (hr hn)
  | event hn hd => exact .event (hr hn) hd

theorem delivers_iff (s : EmbassyWsStream S) (evs : List TransportEvent) (e : Ending ε) :
    Delivers read s evs e ↔ TurnDelivers read (turn read s) evs e := by
  constructor
  · intro h
    have hr : ∀ {n x}, recv read n s = some x →
        (∃ s' n', turn read s = .again s' ∧ recv read n' s' = some x)
          ∨ turn read s = .returned x.1 x.2 := fun {n x} hn => by
      rcases n with _ | n
      · cases hn
      · unfold recv at hn
        split at hn
        · next s' ht => exact .inl ⟨s', n, ht, hn⟩
        · next r s' ht => cases hn; exact .inr ht
    cases h with
    | closed hn =>
      rcases hr hn with ⟨s', n', ht, hn'⟩ | ht
      · rw [ht]; exact .closed hn'
      · rw [ht]; exact ⟨rfl, rfl⟩
    | failed hn =>
      rcases hr hn with ⟨s', n', ht, hn'⟩ | ht
      · rw [ht]; exact .failed hn'
      · rw [ht]; exact ⟨rfl, rfl⟩
    | event hn hd =>
      rcases hr hn with ⟨s', n', ht, hn'⟩ | ht
      · rw [ht]; exact .event hn' hd
      · rw [ht]; exact ⟨_, rfl, hd⟩
  · intro h
    rcases ht : turn read s with s' | ⟨r, s'⟩ <;> rw [ht] at h
    · exact delivers_of_again ht h
    · have hn : recv read 1 s = some (r, s') := by simp only [recv, ht]
      rcases r with err | _ | ev
      · obtain ⟨rfl, rfl⟩ := h
        exact .failed hn
      · obtain ⟨rfl, rfl⟩ := h
        exact .closed hn
      · obtain ⟨evs', rfl, hd⟩ := h
        exact .event hn hd

theorem recv_unique {s : EmbassyWsStream S} {n n' : ℕ}
    {x y : Except (RecvError ε) (Option TransportEvent) × EmbassyWsStream S}
    (h : recv read n s = some x) (h' : recv read n' s = some y) : x = y := by
  induction n generalizing n' s with
  | zero => cases h
  | succ n ih =>
    rcases n' with _ | n'
    · cases h'
    · unfold recv at h h'
      split at h
      · next s₁ ht =>
        rw [ht] at h'
        exact ih h h'
      · next r s₁ ht =>
        rw [ht] at h'
        exact Option.some.inj (h.symm.trans h')

/-- A call that returned needs no more turns. -/
theorem recv_add {s : EmbassyWsStream S} {n : ℕ} (k : ℕ)
    {x : Except (RecvError ε) (Option TransportEvent) × EmbassyWsStream S}
    (h : recv read n s = some x) : recv read (n + k) s = some x := by
  induction n generalizing s with
  | zero => cases h
  | succ n ih =>
    rw [Nat.succ_add]
    unfold recv at h ⊢
    split at h
    · exact ih h
    · exact h

theorem delivers_unique {s : EmbassyWsStream S} {evs evs' : List TransportEvent} {e e' : Ending ε}
    (h : Delivers read s evs e) (h' : Delivers read s evs' e') : evs = evs' ∧ e = e' := by
  induction h generalizing evs' with
  | closed h =>
    cases h' with
    | closed => exact ⟨rfl, rfl⟩
    | failed h' => cases recv_unique h h'
    | event h' => cases recv_unique h h'
  | failed h =>
    cases h' with
    | closed h' => cases recv_unique h h'
    | failed h' =>
      cases recv_unique h h'
      exact ⟨rfl, rfl⟩
    | event h' => cases recv_unique h h'
  | event h _ ih =>
    cases h' with
    | closed h' => cases recv_unique h h'
    | failed h' => cases recv_unique h h'
    | event h' hd' =>
      cases recv_unique h h'
      obtain ⟨rfl, rfl⟩ := ih hd'
      exact ⟨rfl, rfl⟩

/-- What is delivered from the absorption of a frame on, which leaves the stream at `s`. -/
def AbsorbDelivers (read : S → List UInt8 → Except ε ReadResult × S) (a : Absorbed)
    (s : EmbassyWsStream S) (evs : List TransportEvent) (e : Ending ε) : Prop :=
  match a with
  | .goes ev acc =>
    ∃ evs', evs = ev.toList ++ evs' ∧ Delivers read { s with accumulated := acc } evs' e
  | .closed => evs = [] ∧ e = .closed
  | .invalid => evs = [] ∧ e = .failed .utf8

theorem handleResult_delivers (s : EmbassyWsStream S) {k : Kind} {r : ReadResult}
    (h : k.Reported r.messageType) (evs : List TransportEvent) (e : Ending ε) :
    TurnDelivers read (handleResult s r) evs e
      ↔ AbsorbDelivers read (absorb k r.endOfMessage r.payload s.accumulated) s evs e := by
  rcases k with (_ | _) | _ | _ | _
  · rw [Kind.Reported] at h
    simp only [handleResult, absorb, h]
    split_ifs
    · rcases fromUtf8 (s.accumulated ++ r.payload) with _ | text
      · exact Iff.rfl
      · simp [TurnDelivers, AbsorbDelivers]
    · simp [TurnDelivers, AbsorbDelivers]
  · rw [Kind.Reported] at h
    simp [handleResult, absorb, h, TurnDelivers, AbsorbDelivers]
  · rcases h with h | h <;> simp only [handleResult, absorb, h] <;> exact Iff.rfl
  · rw [Kind.Reported] at h
    simp [handleResult, absorb, h, TurnDelivers, AbsorbDelivers]
  · rw [Kind.Reported] at h
    simp [handleResult, absorb, h, TurnDelivers, AbsorbDelivers]

/-- A turn that the codec answers. -/
theorem delivers_decode {s : EmbassyWsStream S} (hp : s.pending ≠ []) {k : Kind} {r : ReadResult}
    {ws : S} (hk : k.Reported r.messageType) (hr : read s.ws s.pending = (.ok r, ws))
    (evs : List TransportEvent) (e : Ending ε) :
    Delivers read s evs e ↔ AbsorbDelivers read (absorb k r.endOfMessage r.payload s.accumulated)
      { s with ws := ws, pending := s.pending.drop r.lenFrom } evs e := by
  have ht : turn read s
      = handleResult { s with ws := ws, pending := s.pending.drop r.lenFrom } r := by
    simp [turn, decode, hr, hp]
  rw [delivers_iff, ht]
  exact handleResult_delivers _ hk evs e

/-- A stream whose `pending` is used up goes on with the next read. -/
theorem delivers_fill {s : EmbassyWsStream S} {c : List UInt8} {cs : List (List UInt8)}
    (hp : s.pending = []) (hr : s.reads = c :: cs) (hc : c ≠ []) (evs : List TransportEvent)
    (e : Ending ε) :
    Delivers read s evs e ↔ Delivers read { s with pending := c, reads := cs } evs e := by
  rw [delivers_iff, delivers_iff]
  have ht : turn read s = turn read { s with pending := c, reads := cs } := by
    simp [turn, hp, hr, hc]
  rw [ht]

/-! ## One frame -/

/-- The stream stands before `fs`, with the message `m` open. -/
structure Before (At : S → Position → Prop) (s : EmbassyWsStream S) (m : Option Data)
    (fs : List Frame) : Prop where
  ready : At s.ws (.between m)
  bytes : s.pending ++ s.reads.flatten = wire fs
  reads : ∀ c ∈ s.reads, c ≠ []

/-- From `s` the payload is absorbed, wherever it is cut, and `used` bytes further on the stream
stands before `fs`. -/
def Leads (read : S → List UInt8 → Except ε ReadResult × S) (At : S → Position → Prop)
    (s : EmbassyWsStream S) (a : Absorbed) (used : ℕ) (m : Option Data) (fs : List Frame) : Prop :=
  ∃ s', s'.eof = s.eof
    ∧ (∀ evs e, Delivers read s evs e ↔ AbsorbDelivers read a s' evs e)
    ∧ (∀ ev acc, a = .goes ev acc → Before At s' m fs
      ∧ ∀ n, 0 < n → (CutAt (s'.pending :: s'.reads) n
        ↔ CutAt (s.pending :: s.reads) (used + n)))

variable {At : S → Position → Prop} {s : EmbassyWsStream S} {m m' : Option Data} {f : Frame}
  {fs : List Frame} {k : Kind}

/-- A step that delivers nothing and uses `j` bytes comes first. -/
theorem Leads.after {s₂ : EmbassyWsStream S} {a : Absorbed} {used j : ℕ}
    (h : Leads read At s₂ a used m fs) (he : s₂.eof = s.eof)
    (hd : ∀ evs e, Delivers read s evs e ↔ Delivers read s₂ evs e)
    (hc : ∀ n, 0 < n → (CutAt (s₂.pending :: s₂.reads) n ↔ CutAt (s.pending :: s.reads) (j + n)))
    (hu : 0 < used) : Leads read At s a (j + used) m fs := by
  obtain ⟨s', he', hd', hg⟩ := h
  refine ⟨s', he'.trans he, fun evs e => (hd evs e).trans (hd' evs e), fun ev acc ha => ?_⟩
  obtain ⟨hb, hcut⟩ := hg ev acc ha
  refine ⟨hb, fun n hn => ?_⟩
  rw [hcut n hn, hc _ (Nat.add_pos_left hu n), Nat.add_assoc]

theorem absorbDelivers_none {acc : List UInt8} {evs : List TransportEvent} {e : Ending ε} :
    AbsorbDelivers read (.goes none acc) s evs e
      ↔ Delivers read { s with accumulated := acc } evs e := by
  simp [AbsorbDelivers]

/-- A part of a message and then the rest of it come to the same as all of it at once. -/
theorem absorb_append (d : Data) (p acc : List UInt8) :
    ∃ acc', absorb (.data d) false p acc = .goes none acc'
      ∧ ∀ fin q, absorb (.data d) fin (p ++ q) acc = absorb (.data d) fin q acc' := by
  cases d with
  | text => exact ⟨acc ++ p, rfl, fun fin q => by simp only [absorb, List.append_assoc]⟩
  | binary => exact ⟨[], rfl, fun fin q => rfl⟩

/-- The frame is there to its last byte. -/
theorem leads_whole (hR : Reads read At) (hb : Before At s m (f :: fs))
    (hn : f.next m = some (k, m')) {c : List UInt8} (hp : s.pending = f.encode ++ c) :
    Leads read At s (absorb k f.fin f.payload s.accumulated) f.encode.length m' fs := by
  obtain ⟨t, ws, hk, hat, hr⟩ := hR.whole hb.ready hn c
  have hne : s.pending ≠ [] := by
    have := encode_length_pos f
    rw [hp]
    intro h
    simp_all
  rw [← hp] at hr
  refine ⟨{ s with ws := ws, pending := s.pending.drop f.encode.length }, rfl,
    delivers_decode hne hk hr, fun ev acc ha => ⟨⟨hat ?_, ?_, hb.reads⟩, fun n _ => ?_⟩⟩
  · rintro rfl
    cases ha
  · have hbytes := hb.bytes
    rw [hp, List.append_assoc, wire_cons, List.append_cancel_left_eq] at hbytes
    simpa [hp] using hbytes
  · exact cutAt_drop (by simp [hp])

/-- The rest of a message of one frame comes in as many reads as it likes. -/
theorem leads_inside (hR : Reads read At) {d : Data} {q : List UInt8}
    (hat : At s.ws (.inside d q)) (hq : q ≠ []) (hp : s.pending = [])
    (hb : s.reads.flatten = q ++ wire fs) (hr : ∀ c ∈ s.reads, c ≠ []) :
    Leads read At s (absorb (.data d) true q s.accumulated) q.length none fs := by
  obtain ⟨reads, eof, ws, pending, acc⟩ := s
  subst hp
  induction reads generalizing q ws acc with
  | nil => exact absurd (List.append_eq_nil_iff.1 hb.symm).1 hq
  | cons c cs ih =>
    have hc : c ≠ [] := hr c List.mem_cons_self
    have hcs : ∀ c ∈ cs, c ≠ [] := fun c h => hr c (List.mem_cons_of_mem _ h)
    have hfill : ∀ evs e, Delivers read ⟨c :: cs, eof, ws, [], acc⟩ evs e
        ↔ Delivers read ⟨cs, eof, ws, c, acc⟩ evs e := delivers_fill rfl rfl hc
    rw [List.flatten_cons] at hb
    rcases append_split hb with ⟨c', rfl, hb'⟩ | ⟨q', hq', rfl, hb'⟩
    · obtain ⟨t, ws', hk, hat', hread⟩ := hR.rest hat c'
      refine ⟨⟨cs, eof, ws', c', acc⟩, rfl, fun evs e => ?_, fun ev acc' _ =>
        ⟨⟨hat', hb'.symm, hcs⟩, fun n hn => ?_⟩⟩
      · rw [hfill, delivers_decode (s := ⟨cs, eof, ws, q ++ c', acc⟩) hc hk hread]
        simp only [List.drop_left]
      · rw [cutAt_nil_cons (Nat.add_pos_right _ hn), ← cutAt_drop (by simp), List.drop_left]
    · obtain ⟨t, ws', hk, hat', hread⟩ := hR.more hat hc hq'
      obtain ⟨acc', ha, happ⟩ := absorb_append d c acc
      have hrest := ih hq' ws' acc' hat' hb' hcs
      rw [happ, List.length_append]
      refine hrest.after rfl (fun evs e => ?_) (fun n hn => ?_) (List.length_pos_iff.2 hq')
      · rw [hfill, delivers_decode (s := ⟨cs, eof, ws, c, acc⟩) hc hk hread]
        simp only [ha, absorbDelivers_none, List.drop_length]
      · rw [cutAt_nil_cons hn, cutAt_nil_cons (Nat.add_pos_right _ hn),
          ← cutAt_drop (Nat.le_refl _), List.drop_length, cutAt_nil_cons hn]

/-- A message of one frame is cut in its payload. -/
theorem leads_part (hR : Reads read At) (hb : Before At s m (f :: fs)) {d : Data}
    (hn : f.next m = some (.data d, m')) (hw : f.Whole) {p q : List UInt8}
    (hp : s.pending = f.header ++ p) (hpq : f.payload = p ++ q) (hq : q ≠ []) :
    Leads read At s (absorb (.data d) f.fin f.payload s.accumulated) f.encode.length m' fs := by
  obtain rfl := hw.next hn
  obtain ⟨t, ws, hk, hat, hr⟩ := hR.part hb.ready hn p q hpq hq
  obtain ⟨acc, ha, happ⟩ := absorb_append d p s.accumulated
  have hne : s.pending ≠ [] := by simp [hp, f.header_ne_nil]
  have hbytes : s.reads.flatten = q ++ wire fs := by
    have := hb.bytes
    rw [hp, wire_cons, Frame.encode, hpq] at this
    simpa using this
  have hlead := leads_inside (s := ⟨s.reads, s.eof, ws, [], acc⟩) hR (hat d rfl hw) hq rfl hbytes
    hb.reads
  rw [← hp] at hr
  have hlen : f.encode.length = s.pending.length + q.length := by
    rw [Frame.encode, hpq, hp]
    simp [Nat.add_assoc]
  rw [hpq, happ, hlen, hw.1]
  refine hlead.after rfl (fun evs e => ?_) (fun n hn => ?_) (List.length_pos_iff.2 hq)
  · rw [delivers_decode hne hk hr]
    simp only [ha, absorbDelivers_none, List.drop_length]
  · rw [← cutAt_drop (Nat.le_refl _), List.drop_length]

/-- A close is taken for whole wherever its payload is cut. -/
theorem leads_close (hR : Reads read At) (hb : Before At s m (f :: fs))
    (hn : f.next m = some (.close, m')) {p q : List UInt8} (hp : s.pending = f.header ++ p)
    (hpq : f.payload = p ++ q) (hq : q ≠ []) {used : ℕ} : Leads read At s .closed used m' fs := by
  obtain ⟨t, ws, hk, -, hr⟩ := hR.part hb.ready hn p q hpq hq
  have hne : s.pending ≠ [] := by simp [hp, f.header_ne_nil]
  rw [← hp] at hr
  exact ⟨{ s with ws := ws, pending := s.pending.drop s.pending.length }, rfl,
    delivers_decode (k := .close) hne hk hr, nofun⟩

/-- A ping or pong is delivered with the part of its payload that is there. -/
theorem delivers_part_control (hR : Reads read At) (hb : Before At s m (f :: fs))
    (hn : f.next m = some (k, m')) (hk : k = .ping ∨ k = .pong) {p q : List UInt8}
    (hp : s.pending = f.header ++ p) (hpq : f.payload = p ++ q) (hq : q ≠ []) :
    ¬ DeliversFrames read s m (f :: fs) := by
  obtain ⟨t, ws, ht, -, hr⟩ := hR.part hb.ready hn p q hpq hq
  have hne : s.pending ≠ [] := by simp [hp, f.header_ne_nil]
  have hpp : p ++ q ≠ p := by simpa using hq
  rw [← hp] at hr
  rw [DeliversFrames, delivers_decode hne ht hr, deliver, hn]
  rcases hk with rfl | rfl <;> simp [absorb, AbsorbDelivers, hpq, hq]

/-! ## A cut in a header -/

/-- The stream has a part of a header and no more. -/
def Stuck (At : S → Position → Prop) (m : Option Data) (p : List UInt8) (s : EmbassyWsStream S) :
    Prop :=
  At s.ws (.between m) ∧ s.pending = p

theorem recv_stuck (hR : Reads read At) (hn : f.next m = some (k, m')) {p q : List UInt8}
    (hpq : f.header = p ++ q) (hp : p ≠ []) (hq : q ≠ []) {n : ℕ} {s' : EmbassyWsStream S}
    {r : Except (RecvError ε) (Option TransportEvent)} (hs : Stuck At m p s)
    (h : recv read n s = some (r, s')) :
    (∃ e, r = .error (.codec e)) ∨ ∃ ev, r = .ok (some ev) ∧ Stuck At m p s' := by
  induction n generalizing s with
  | zero => cases h
  | succ n ih =>
    obtain ⟨hat, rfl⟩ := hs
    have ht : turn read s = decode read s := by simp [turn, hp]
    rw [recv, ht] at h
    rcases hR.header hat hn _ q hpq hp hq with ⟨e, he⟩ | ⟨t, ws, hc, hat', hr⟩
    · simp only [decode, he, Option.some.injEq, Prod.mk.injEq] at h
      exact .inl ⟨e, h.1.symm⟩
    · simp only [decode, hr, handleResult, List.drop_zero] at h
      cases t with
      | text => exact ih (s := ⟨s.reads, s.eof, ws, s.pending, _⟩) ⟨hat', rfl⟩ h
      | binary => exact ih (s := ⟨s.reads, s.eof, ws, s.pending, _⟩) ⟨hat', rfl⟩ h
      | ping =>
        cases h
        exact .inr ⟨_, rfl, hat', rfl⟩
      | pong =>
        cases h
        exact .inr ⟨_, rfl, hat', rfl⟩
      | closeMustReply => exact absurd (.inl rfl) hc
      | closeCompleted => exact absurd (.inr rfl) hc

/-- If such a stream ends at all, it ends with an error of the codec. -/
theorem delivers_stuck (hR : Reads read At) (hn : f.next m = some (k, m')) {p q : List UInt8}
    (hpq : f.header = p ++ q) (hp : p ≠ []) (hq : q ≠ []) {evs : List TransportEvent}
    {e : Ending ε} (hs : Stuck At m p s) (h : Delivers read s evs e) :
    ∃ err, e = .failed (.codec err) := by
  induction h with
  | closed h =>
    rcases recv_stuck hR hn hpq hp hq hs h with ⟨_, he⟩ | ⟨_, he, -⟩ <;> cases he
  | failed h =>
    rcases recv_stuck hR hn hpq hp hq hs h with ⟨err, he⟩ | ⟨_, he, -⟩
    · cases he
      exact ⟨err, rfl⟩
    · cases he
  | event h _ ih =>
    rcases recv_stuck hR hn hpq hp hq hs h with ⟨_, he⟩ | ⟨_, -, hs'⟩
    · cases he
    · exact ih hs'

theorem deliver_ne_codec (eof : Except TcpError Unit) (m : Option Data) (acc : List UInt8)
    (fs : List Frame) (err : ε) : (deliver (socketEnd eof) m acc fs).2 ≠ .failed (.codec err) := by
  induction fs generalizing m acc with
  | nil => cases eof <;> simp [deliver, socketEnd]
  | cons f fs ih =>
    simp only [deliver]
    split
    · cases eof <;> simp [socketEnd]
    · split
      · simp
      · simp
      · exact ih _ _

/-! ## Any number of frames -/

/-- Before a frame, `pending` can be taken to hold something. -/
theorem Before.fill (hb : Before At s m (f :: fs))
    (read : S → List UInt8 → Except ε ReadResult × S) :
    ∃ s₁, s₁.pending ≠ [] ∧ Before At s₁ m (f :: fs)
      ∧ (∀ n, 0 < n → (CutAt (s₁.pending :: s₁.reads) n ↔ CutAt (s.pending :: s.reads) n))
      ∧ s₁.accumulated = s.accumulated
      ∧ (DeliversFrames read s m (f :: fs) ↔ DeliversFrames read s₁ m (f :: fs)) := by
  rcases eq_or_ne s.pending [] with hp | hp
  · have hbytes := hb.bytes
    rcases hr : s.reads with _ | ⟨c, cs⟩
    · rw [hp, hr, wire_cons] at hbytes
      have := congrArg List.length hbytes
      have := encode_length_pos f
      simp_all
    · have hc : c ≠ [] := hb.reads c (by simp [hr])
      refine ⟨{ s with pending := c, reads := cs }, hc, ⟨hb.ready, ?_, fun c' h => ?_⟩,
        fun n hn => ?_, rfl, delivers_fill hp hr hc _ _⟩
      · simpa [hp, hr] using hbytes
      · exact hb.reads c' (by simp [hr, h])
      · rw [hp]
        exact (cutAt_nil_cons hn).symm
  · exact ⟨s, hp, hb, fun _ _ => Iff.rfl, rfl, Iff.rfl⟩

/-- How much of the next frame `pending` holds: a part of its header, the header and a part of the
payload, or all of it. -/
theorem Before.pending_cases (hb : Before At s m (f :: fs)) :
    (∃ q, q ≠ [] ∧ f.header = s.pending ++ q)
      ∨ (∃ p q, q ≠ [] ∧ s.pending = f.header ++ p ∧ f.payload = p ++ q)
      ∨ ∃ c, s.pending = f.encode ++ c := by
  have hbytes := hb.bytes
  rw [wire_cons, Frame.encode, List.append_assoc] at hbytes
  rcases append_split hbytes with ⟨p, hp, hrest⟩ | ⟨q, hq, hh, -⟩
  · rcases append_split hrest.symm with ⟨c, rfl, -⟩ | ⟨q, hq, hpq, -⟩
    · exact .inr (.inr ⟨c, by rw [hp, Frame.encode, List.append_assoc]⟩)
    · exact .inr (.inl ⟨p, q, hq, hp, hpq⟩)
  · exact .inl ⟨q, hq, hh⟩

theorem Before.reads_ne_nil (hb : Before At s m fs) (h : s.pending.length < (wire fs).length) :
    s.reads ≠ [] := by
  intro hr
  have hbytes := hb.bytes
  rw [hr, List.flatten_nil, List.append_nil] at hbytes
  exact absurd h (by rw [hbytes]; exact Nat.lt_irrefl _)

/-- A frame that is torn is not delivered as it is, and one that is not torn is absorbed. -/
theorem torn_or_leads (hR : Reads read At) (hb : Before At s m (f :: fs)) (hp : s.pending ≠ [])
    (hn : f.next m = some (k, m'))
    (hf : ∀ n, CutAt (s.pending :: s.reads) n → ¬ InFragment f k n) :
    ((∃ n, CutAt (s.pending :: s.reads) n ∧ Torn f k n) ∧ ¬ DeliversFrames read s m (f :: fs))
      ∨ (∀ n, CutAt (s.pending :: s.reads) n → ¬ Torn f k n)
        ∧ Leads read At s (absorb k f.fin f.payload s.accumulated) f.encode.length m' fs := by
  have hwire : f.encode.length ≤ (wire (f :: fs)).length := by simp [wire_cons]
  have henc : f.encode.length = f.header.length + f.payload.length := by simp [Frame.encode]
  rcases hb.pending_cases with ⟨q, hq, hh⟩ | ⟨p, q, hq, hpend, hpq⟩ | ⟨c, hpend⟩
  · have hlen : s.pending.length < f.header.length := by
      have := List.length_pos_iff.2 hq
      rw [hh, List.length_append]
      omega
    have hreads := hb.reads_ne_nil (by omega)
    refine .inl ⟨⟨_, cutAt_length hreads, .inl ⟨List.length_pos_iff.2 hp, hlen⟩⟩, fun hd => ?_⟩
    obtain ⟨err, he⟩ := delivers_stuck hR hn hh hp hq ⟨hb.ready, rfl⟩ hd
    exact deliver_ne_codec s.eof m s.accumulated (f :: fs) err he
  · have hle : f.header.length ≤ s.pending.length := by simp [hpend]
    have hlt : s.pending.length < f.encode.length := by
      have := List.length_pos_iff.2 hq
      rw [henc, hpend, hpq, List.length_append, List.length_append]
      omega
    have hreads := hb.reads_ne_nil (by omega)
    have hsafe : k ≠ .ping → k ≠ .pong → ∀ n, CutAt (s.pending :: s.reads) n → ¬ Torn f k n := by
      rintro h₁ h₂ n hc (⟨-, h⟩ | ⟨h | h, -⟩)
      · exact absurd hc.le (by omega)
      · exact h₁ h
      · exact h₂ h
    have hw : f.Whole := by
      by_contra hw
      exact hf _ (cutAt_length hreads) ⟨hw, hle, hlt⟩
    rcases k with d | _ | _ | _
    · exact .inr ⟨hsafe (by simp) (by simp), leads_part hR hb hn hw hpend hpq hq⟩
    · exact .inr ⟨hsafe (by simp) (by simp), leads_close hR hb hn hpend hpq hq⟩
    · exact .inl ⟨⟨_, cutAt_length hreads, .inr ⟨.inl rfl, hle, hlt⟩⟩,
        delivers_part_control hR hb hn (.inl rfl) hpend hpq hq⟩
    · exact .inl ⟨⟨_, cutAt_length hreads, .inr ⟨.inr rfl, hle, hlt⟩⟩,
        delivers_part_control hR hb hn (.inr rfl) hpend hpq hq⟩
  · refine .inr ⟨fun n hc ht => ?_, leads_whole hR hb hn hpend⟩
    have hle := hc.le
    rw [hpend, List.length_append] at hle
    rcases ht with ⟨-, h⟩ | ⟨-, -, h⟩ <;> omega

/-- The stream delivers what its frames say exactly when no frame is torn. -/
theorem delivers_deliver_iff (hR : Reads read At) (hb : Before At s m fs) (hl : Legal m fs)
    (hf : FragmentsWhole (CutAt (s.pending :: s.reads)) m s.accumulated fs) :
    DeliversFrames read s m fs ↔ Untorn (CutAt (s.pending :: s.reads)) m s.accumulated fs := by
  induction fs generalizing s m with
  | nil =>
    have hbytes := hb.bytes
    rw [wire, List.flatMap_nil, List.append_eq_nil_iff] at hbytes
    have hr : s.reads = [] := by
      rcases hr : s.reads with _ | ⟨c, cs⟩
      · rfl
      · rw [hr, List.flatten_cons, List.append_eq_nil_iff] at hbytes
        exact absurd hbytes.2.1 (hb.reads c (by simp [hr]))
    rw [DeliversFrames, delivers_iff]
    simp only [turn, hbytes.1, hr, Untorn, Avoids, iff_true, deliver]
    rcases s.eof with e | u <;> exact ⟨rfl, rfl⟩
  | cons f fs ih =>
    obtain ⟨k, m', hn, -, hl'⟩ := hl
    obtain ⟨s₁, hp, hb₁, hc₁, hacc, hd₁⟩ := hb.fill read
    unfold FragmentsWhole at hf
    rw [← avoids_congr InFragment.pos hc₁, ← hacc] at hf
    rw [hd₁, Untorn, ← avoids_congr Torn.pos hc₁, ← hacc]
    simp only [Avoids, hn] at hf ⊢
    obtain ⟨hfrag, hfs⟩ := hf
    rcases torn_or_leads hR hb₁ hp hn hfrag with ⟨⟨n, hc, ht⟩, hnd⟩ | ⟨hsafe, s', he, hd, hg⟩
    · exact iff_of_false hnd fun hu => hu.1 n hc ht
    · rw [DeliversFrames, hd]
      simp only [deliver, hn, and_iff_right hsafe]
      rcases ha : absorb k f.fin f.payload s₁.accumulated with ⟨ev, acc⟩ | _ | _
      · obtain ⟨hb', hcut⟩ := hg ev acc ha
        simp only [ha] at hfs
        rw [← avoids_congr InFragment.pos hcut] at hfs
        have hi := ih (s := { s' with accumulated := acc }) ⟨hb'.ready, hb'.bytes, hb'.reads⟩ hl'
          hfs
        simp only [AbsorbDelivers, List.append_cancel_left_eq, exists_eq_left']
        rw [← he, ← avoids_congr Torn.pos hcut]
        exact hi
      · exact iff_of_true ⟨rfl, rfl⟩ trivial
      · exact iff_of_true ⟨rfl, rfl⟩ trivial

/-- A stream of frames that has not begun. -/
theorem deliversFrames_new_iff (hR : Reads read At) {ws : S} (hw : At ws (.between none))
    (eof : Except TcpError Unit) (hl : Legal none fs) {reads : List (List UInt8)}
    (hr : ∀ c ∈ reads, c ≠ []) (hb : reads.flatten = wire fs)
    (hf : FragmentsWhole (CutAt reads) none [] fs) :
    DeliversFrames read (new ws eof reads) none fs ↔ Untorn (CutAt reads) none [] fs := by
  have hcut : ∀ n, 0 < n → (CutAt ([] :: reads) n ↔ CutAt reads n) := fun n => cutAt_nil_cons
  rw [delivers_deliver_iff hR (s := new ws eof reads) ⟨hw, by simpa [new] using hb, hr⟩ hl
    ((avoids_congr InFragment.pos hcut).2 hf)]
  exact avoids_congr Torn.pos hcut

/-- For every stream of frames in a legal order and every way to cut it into reads that does not cut
the payload of a fragment, what is delivered does not depend on the cuts exactly when no frame is
torn. -/
theorem sameDelivery_iff_untorn (hR : Reads read At) {ws : S} (hw : At ws (.between none))
    (eof : Except TcpError Unit) (hl : Legal none fs) {reads : List (List UInt8)}
    (hr : ∀ c ∈ reads, c ≠ []) (hb : reads.flatten = wire fs)
    (hf : FragmentsWhole (CutAt reads) none [] fs) :
    SameDelivery read ws eof reads ↔ Untorn (CutAt reads) none [] fs := by
  have hcuts := deliversFrames_new_iff hR hw eof hl hr hb hf
  have hnone : ∀ n, 0 < n → ¬ CutAt (inOneRead reads.flatten) n :=
    fun n _ => not_cutAt_inOneRead _ n
  have hone : DeliversFrames read (new ws eof (inOneRead reads.flatten)) none fs := by
    rw [deliversFrames_new_iff hR hw eof hl ?_ ?_ (avoids_of_forall_not InFragment.pos hnone _ _ _)]
    · exact avoids_of_forall_not Torn.pos hnone _ _ _
    · unfold inOneRead
      split_ifs with h
      · simp
      · simpa using h
    · unfold inOneRead
      split_ifs with h
      · rw [← hb]
        simpa using h
      · simpa using hb
  constructor
  · exact fun h => hcuts.1 ((h _ _).2 hone)
  · intro h evs e
    have hall := hcuts.2 h
    constructor
    · intro hd
      obtain ⟨rfl, rfl⟩ := delivers_unique hd hall
      exact hone
    · intro hd
      obtain ⟨rfl, rfl⟩ := delivers_unique hd hone
      exact hall

/-- A text in two fragments with a ping between them, and a text in one frame. -/
def fragmentsAndText : List Frame :=
  [⟨false, .text, [72], by decide, nofun⟩, ⟨true, .ping, [7, 8], by decide, fun _ => by decide⟩,
    ⟨true, .continuation, [105], by decide, nofun⟩, ⟨true, .text, [79, 75], by decide, nofun⟩]

theorem legal_fragmentsAndText : Legal none fragmentsAndText :=
  ⟨_, _, rfl, nofun, _, _, rfl, nofun, _, _, rfl, nofun, _, _, rfl, nofun, trivial⟩

/-- Reads that end after the first fragment, and inside the second text. -/
def fragmentsCut : List (List UInt8) := [[1, 1, 72], [137, 2, 7, 8, 128, 1, 105, 129, 2, 79], [75]]

theorem cutAt_fragmentsCut {n : ℕ} (h : CutAt fragmentsCut n) : n = 3 ∨ n = 13 := by
  rcases h with ⟨-, rfl⟩ | ⟨_, rfl, ⟨-, rfl⟩ | ⟨_, rfl, ⟨h, -⟩ | ⟨_, -, h⟩⟩⟩
  · exact .inl rfl
  · exact .inr rfl
  · exact absurd rfl h
  · exact h.elim

theorem fragmentsWhole_fragmentsCut :
    FragmentsWhole (CutAt fragmentsCut) none [] fragmentsAndText := by
  refine ⟨fun n hn ht => ?_, fun n hn ht => ?_, fun n hn ht => ?_, fun n hn ht => ?_, trivial⟩
  · have hlt : n < 3 := ht.2.2
    rcases cutAt_fragmentsCut hn with h | h <;> omega
  · exact ht.1 ⟨rfl, nofun⟩
  · have hlt : n < 3 := ht.2.2
    have hn : 3 + (4 + n) = 3 ∨ 3 + (4 + n) = 13 := cutAt_fragmentsCut hn
    omega
  · exact ht.1 ⟨rfl, nofun⟩

theorem untorn_fragmentsCut : Untorn (CutAt fragmentsCut) none [] fragmentsAndText := by
  refine ⟨fun n hn ht => ?_, fun n hn ht => ?_, fun n hn ht => ?_, fun n hn ht => ?_, trivial⟩
  · have hlt : n < 3 := ht.lt
    rcases cutAt_fragmentsCut hn with h | h <;> omega
  · have hlt : n < 4 := ht.lt
    have hpos := ht.pos
    have hn : 3 + n = 3 ∨ 3 + n = 13 := cutAt_fragmentsCut hn
    omega
  · have hlt : n < 3 := ht.lt
    have hn : 3 + (4 + n) = 3 ∨ 3 + (4 + n) = 13 := cutAt_fragmentsCut hn
    omega
  · have hn : 3 + (4 + (3 + n)) = 3 ∨ 3 + (4 + (3 + n)) = 13 := cutAt_fragmentsCut hn
    rcases ht with ⟨-, ht⟩ | ⟨ht | ht, -⟩
    · have hlt : n < 2 := ht
      omega
    · cases ht
    · cases ht

theorem sameDelivery_fragmentsCut :
    fragmentsCut.flatten = wire fragmentsAndText
      ∧ SameDelivery Reader.read ⟨none, none⟩ (.ok ()) fragmentsCut :=
  ⟨by decide, (sameDelivery_iff_untorn Reader.reads rfl _ legal_fragmentsAndText (by decide)
    (by decide) fragmentsWhole_fragmentsCut).2 untorn_fragmentsCut⟩

/-- The ping alone. -/
def onlyPing : List Frame := [⟨true, .ping, [7, 8], by decide, fun _ => by decide⟩]

/-- Cut inside its payload a ping is delivered as two, and cut inside its header it ends the
stream. -/
theorem torn_ping :
    Legal none onlyPing ∧ [[137, 2, 7], [8]].flatten = wire onlyPing
      ∧ [[137], [2, 7, 8]].flatten = wire onlyPing
      ∧ Delivers Reader.read (new ⟨none, none⟩ (.ok ()) [[137, 2, 7, 8]]) [.ping [7, 8]] .closed
      ∧ Delivers Reader.read (new ⟨none, none⟩ (.ok ()) [[137, 2, 7], [8]])
        [.ping [7], .ping [8]] .closed
      ∧ Delivers Reader.read (new ⟨none, none⟩ (.ok ()) [[137], [2, 7, 8]]) []
        (.failed (.codec .frameIncomplete))
      ∧ ¬ SameDelivery Reader.read ⟨none, none⟩ (.ok ()) [[137, 2, 7], [8]]
      ∧ ¬ SameDelivery Reader.read ⟨none, none⟩ (.ok ()) [[137], [2, 7, 8]] := by
  have hwhole : Delivers Reader.read (new ⟨none, none⟩ (.ok ()) [[137, 2, 7, 8]]) [.ping [7, 8]]
      .closed := .event (n := 1) rfl (.closed (n := 1) rfl)
  have hpayload : Delivers Reader.read (new ⟨none, none⟩ (.ok ()) [[137, 2, 7], [8]])
      [.ping [7], .ping [8]] .closed :=
    .event (n := 1) rfl (.event (n := 1) rfl (.closed (n := 1) rfl))
  have hheader : Delivers Reader.read (new ⟨none, none⟩ (.ok ()) [[137], [2, 7, 8]]) []
      (.failed (.codec .frameIncomplete)) := .failed (n := 1) rfl
  refine ⟨⟨_, _, rfl, nofun, trivial⟩, by decide, by decide, hwhole, hpayload, hheader,
    fun h => ?_, fun h => ?_⟩
  · cases (delivers_unique hwhole ((h _ _).1 hpayload)).1
  · cases (delivers_unique hwhole ((h _ _).1 hheader)).1

end EmbassyWsStream

end OcppClient
