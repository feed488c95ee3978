import OcppClient.EmbassyTransport

/-!
# Frames on the outgoing stream

The embassy sink encodes a whole frame and writes it with one `TcpWriter::write`, whose count it
does not look at. So the bytes a call adds are its frame exactly when that one write takes all of
it, and after calls that all succeeded the stream is the frames one after the other exactly when
every write did.
-/

namespace OcppClient

open WebSocket

namespace EmbassyWsSink

variable {W ε : Type} (enc : Encoder W ε)

/-- What the codec makes of a call. -/
def encoded (s : EmbassyWsSink W) : SinkOp → Except ε (List UInt8) × W
  | .send frame => enc.write s.ws .text true frame.toUTF8.toList s.txScratch.length
  | .ping payload => enc.write s.ws .ping true payload s.txScratch.length
  | .pong payload => enc.write s.ws .pong true payload s.txScratch.length
  | .close => enc.close s.ws .normalClosure none s.txScratch.length

/-- Every call that returns `Ok` adds exactly the frame it encoded. -/
def WritesWhole (s : EmbassyWsSink W) : List (SinkOp × TcpTurn) → Prop
  | [] => True
  | (op, tcp) :: calls =>
    ((s.call enc op tcp).1 = .ok () → ∃ frame, (s.encoded enc op).1 = .ok frame
        ∧ (s.call enc op tcp).2.outgoing = s.outgoing ++ frame)
      ∧ (s.call enc op tcp).2.WritesWhole calls

/-- The frames that the calls encode, in order. -/
def frames (s : EmbassyWsSink W) : List (SinkOp × TcpTurn) → List (List UInt8)
  | [] => []
  | (op, tcp) :: calls =>
    (s.encoded enc op).1.toOption.toList ++ (s.call enc op tcp).2.frames calls

def AllOk (s : EmbassyWsSink W) : List (SinkOp × TcpTurn) → Prop
  | [] => True
  | (op, tcp) :: calls => (s.call enc op tcp).1 = .ok () ∧ (s.call enc op tcp).2.AllOk calls

/-- In every call that gets through, the socket's `write` takes the frame to its last byte. -/
def TakesWhole (s : EmbassyWsSink W) : List (SinkOp × TcpTurn) → Prop
  | [] => True
  | (op, tcp) :: calls =>
    (∀ frame n, (s.encoded enc op).1 = .ok frame → tcp.write = .ok n → tcp.flush = .ok () →
        frame.length ≤ n + 1)
      ∧ (s.call enc op tcp).2.TakesWhole calls

/-! ## One call -/

theorem call_eq (s : EmbassyWsSink W) (op : SinkOp) (tcp : TcpTurn) :
    s.call enc op tcp = s.transmit (s.encoded enc op) tcp := by
  cases op <;> rfl

/-- A call returns `Ok` when the codec, the write and the flush all do, and then it has added the
part of its frame that the write took. -/
theorem call_ok_iff (s : EmbassyWsSink W) (op : SinkOp) (tcp : TcpTurn) :
    (s.call enc op tcp).1 = .ok ()
      ↔ ∃ frame n, (s.encoded enc op).1 = .ok frame ∧ tcp.write = .ok n ∧ tcp.flush = .ok () := by
  rw [call_eq]
  unfold transmit writeScratch
  rcases (s.encoded enc op).1 with e | frame
  · simp
  rcases tcp.write with e | n
  · simp
  rcases tcp.flush with e | u
  · simp [Except.mapError]
  · simp [Except.mapError]

theorem outgoing_call (s : EmbassyWsSink W) {op : SinkOp} {tcp : TcpTurn} {frame : List UInt8}
    {n : ℕ} (hf : (s.encoded enc op).1 = .ok frame) (hw : tcp.write = .ok n) :
    (s.call enc op tcp).2.outgoing = s.outgoing ++ frame.take (n + 1) := by
  rw [call_eq]
  unfold transmit writeScratch
  simp only [hf, hw, List.take_left]

theorem outgoing_call_whole_iff (s : EmbassyWsSink W) {op : SinkOp} {tcp : TcpTurn}
    {frame : List UInt8} {n : ℕ} (hf : (s.encoded enc op).1 = .ok frame)
    (hw : tcp.write = .ok n) :
    (s.call enc op tcp).2.outgoing = s.outgoing ++ frame ↔ frame.length ≤ n + 1 := by
  rw [outgoing_call enc s hf hw, List.append_cancel_left_eq]
  refine ⟨fun h => ?_, List.take_of_length_le⟩
  rw [← h, List.length_take]
  exact Nat.min_le_left _ _

/-! ## Any number of calls -/

theorem writesWhole_iff (s : EmbassyWsSink W) (calls : List (SinkOp × TcpTurn)) :
    s.WritesWhole enc calls ↔ s.TakesWhole enc calls := by
  induction calls generalizing s with
  | nil => exact Iff.rfl
  | cons c calls ih =>
    obtain ⟨op, tcp⟩ := c
    refine and_congr ?_ (ih _)
    rw [call_ok_iff]
    constructor
    · intro h frame n hf hw hl
      obtain ⟨frame', hf', ho⟩ := h ⟨frame, n, hf, hw, hl⟩
      obtain rfl : frame = frame' := by simpa [hf] using hf'
      exact (outgoing_call_whole_iff enc s hf hw).1 ho
    · rintro h ⟨frame, n, hf, hw, hl⟩
      exact ⟨frame, hf, (outgoing_call_whole_iff enc s hf hw).2 (h frame n hf hw hl)⟩

/-- Successful calls add no more than their frames. -/
theorem length_outgoing_run_le (s : EmbassyWsSink W) (calls : List (SinkOp × TcpTurn))
    (h : s.AllOk enc calls) :
    (s.run enc calls).outgoing.length
      ≤ s.outgoing.length + (s.frames enc calls).flatten.length := by
  induction calls generalizing s with
  | nil => simp [run]
  | cons c calls ih =>
    obtain ⟨op, tcp⟩ := c
    obtain ⟨frame, n, hf, hw, -⟩ := (call_ok_iff enc s op tcp).1 h.1
    have hrest := ih _ h.2
    rw [outgoing_call enc s hf hw] at hrest
    simp only [run, frames, hf, Except.toOption, Option.toList, List.length_append,
      List.length_take, List.singleton_append, List.flatten_cons] at hrest ⊢
    omega

theorem outgoing_run_iff (s : EmbassyWsSink W) (calls : List (SinkOp × TcpTurn))
    (h : s.AllOk enc calls) :
    (s.run enc calls).outgoing = s.outgoing ++ (s.frames enc calls).flatten
      ↔ s.TakesWhole enc calls := by
  induction calls generalizing s with
  | nil => simp [run, frames, TakesWhole]
  | cons c calls ih =>
    obtain ⟨op, tcp⟩ := c
    obtain ⟨frame, n, hf, hw, hl⟩ := (call_ok_iff enc s op tcp).1 h.1
    have hone : (∀ frame n, (s.encoded enc op).1 = .ok frame → tcp.write = .ok n →
        tcp.flush = .ok () → frame.length ≤ n + 1) ↔ frame.length ≤ n + 1 := by
      simp [hf, hw, hl]
    have hout := outgoing_call enc s hf hw
    simp only [TakesWhole, run, frames, hone, ← ih _ h.2]
    simp only [hf, Except.toOption, Option.toList, List.singleton_append, List.flatten_cons]
    constructor
    · intro he
      -- A short write could only be made up for by later calls, which add at most their frames.
      have hle := length_outgoing_run_le enc _ calls h.2
      rw [he, hout] at hle
      simp only [List.length_append, List.length_take] at hle
      have hn : frame.length ≤ n + 1 := by omega
      refine ⟨hn, ?_⟩
      rw [he, hout, List.take_of_length_le hn, List.append_assoc]
    · rintro ⟨hn, he⟩
      rw [he, hout, List.take_of_length_le hn, List.append_assoc]

/-- Calls add their whole frames, and the stream is those frames in order, exactly when no write is
short. -/
theorem wholeFrames_iff_takesWhole (s : EmbassyWsSink W) (calls : List (SinkOp × TcpTurn)) :
    (s.WritesWhole enc calls ↔ s.TakesWhole enc calls)
      ∧ (s.AllOk enc calls →
        ((s.run enc calls).outgoing = s.outgoing ++ (s.frames enc calls).flatten
          ↔ s.TakesWhole enc calls)) :=
  ⟨writesWhole_iff enc s calls, outgoing_run_iff enc s calls⟩

/-! ## A concrete codec -/

inductive WriteError
  | writeBufferTooSmall
  deriving DecidableEq

/-- One masked frame, if the buffer holds it. The state counts the frames, which seeds the masks. -/
def writeMasked (n : ℕ) (o : Opcode) (fin : Bool) (payload : List UInt8) (capacity : ℕ) :
    Except WriteError (List UInt8) × ℕ :=
  let frame := encodeMasked (fun i => UInt8.ofNat (17 * n + i)) fin o payload
  if frame.length ≤ capacity then (.ok frame, n + 1) else (.error .writeBufferTooSmall, n)

def maskedEncoder : Encoder ℕ WriteError where
  write n t fin payload capacity :=
    writeMasked n (match t with | .text => .text | .ping => .ping | .pong => .pong) fin payload
      capacity
  close n _ description capacity :=
    writeMasked n .close true
      (beBytes 2 1000 ++ (description.map fun d => d.toUTF8.toList).getD []) capacity

/-- A sink with nothing sent and room for short frames. -/
def newSink : EmbassyWsSink ℕ := ⟨[], 0, List.replicate 16 0⟩

/-- A ping whose write takes all there is, and a close. -/
def pingAndClose : List (SinkOp × TcpTurn) :=
  [(.ping [1, 2, 3], ⟨.ok 99, .ok ()⟩), (.close, ⟨.ok 99, .ok ()⟩)]

theorem wholeFrames_pingAndClose :
    newSink.AllOk maskedEncoder pingAndClose
      ∧ newSink.WritesWhole maskedEncoder pingAndClose
      ∧ (newSink.run maskedEncoder pingAndClose).outgoing
        = (newSink.frames maskedEncoder pingAndClose).flatten := by
  have hok : newSink.AllOk maskedEncoder pingAndClose := ⟨rfl, rfl, trivial⟩
  have htake : newSink.TakesWhole maskedEncoder pingAndClose := by
    refine ⟨fun frame n hf hw _ => ?_, fun frame n hf hw _ => ?_, trivial⟩
    · cases hf
      cases hw
      decide
    · cases hf
      cases hw
      decide
  obtain ⟨hwhole, hstream⟩ := wholeFrames_iff_takesWhole maskedEncoder newSink pingAndClose
  exact ⟨hok, hwhole.2 htake, (hstream hok).2 htake⟩

/-- A ping of whose frame the socket takes four bytes, and a second ping. -/
def shortWrite : List (SinkOp × TcpTurn) :=
  [(.ping [1, 2, 3], ⟨.ok 3, .ok ()⟩), (.ping [], ⟨.ok 99, .ok ()⟩)]

/-- Both calls succeed, and the second frame starts inside the first. -/
theorem frame_torn_by_short_write :
    newSink.AllOk maskedEncoder shortWrite
      ∧ (newSink.run maskedEncoder shortWrite).outgoing
        = [137, 131, 0, 1, 137, 128, 17, 18, 19, 20]
      ∧ (newSink.frames maskedEncoder shortWrite)
        = [[137, 131, 0, 1, 2, 3, 1, 3, 1], [137, 128, 17, 18, 19, 20]]
      ∧ ¬ newSink.WritesWhole maskedEncoder shortWrite := by
  refine ⟨⟨rfl, rfl, trivial⟩, by decide, by decide, fun h => ?_⟩
  obtain ⟨frame, hf, ho⟩ := h.1 rfl
  cases hf
  exact absurd ho (by decide)

end EmbassyWsSink

end OcppClient
