import Mathlib.Algebra.Group.Nat.Defs
import Mathlib.Data.List.Induction
import Mathlib.Tactic.Common

/-!
# WebSocket frames

The framing of RFC 6455. A frame is a header and a payload; the header holds the final bit, the
opcode and the length of the payload in one of three forms. A message is one frame or several, with
control frames allowed between its fragments. `parseHeader` reads back what `Frame.header` writes,
and finds no header in a part of one.
-/

namespace WebSocket

inductive Opcode
  | continuation
  | text
  | binary
  | close
  | ping
  | pong
  deriving DecidableEq

namespace Opcode

def toByte : Opcode → UInt8
  | continuation => 0
  | text => 1
  | binary => 2
  | close => 8
  | ping => 9
  | pong => 10

def ofByte (b : UInt8) : Option Opcode :=
  [continuation, text, binary, close, ping, pong].find? fun o => o.toByte = b

def IsControl : Opcode → Prop
  | close | ping | pong => True
  | _ => False

end Opcode

/-- A frame. Control frames are short and never fragments. -/
structure Frame where
  fin : Bool
  opcode : Opcode
  payload : List UInt8
  fits : payload.length < 2 ^ 63
  control : opcode.IsControl → fin = true ∧ payload.length < 126

/-! ## Bytes -/

/-- `n` in `k` bytes, the most significant first. -/
def beBytes : ℕ → ℕ → List UInt8
  | 0, _ => []
  | k + 1, n => beBytes k (n / 256) ++ [UInt8.ofNat n]

def ofBeBytes (bs : List UInt8) : ℕ := bs.foldl (fun n b => n * 256 + b.toNat) 0

theorem length_beBytes (k n : ℕ) : (beBytes k n).length = k := by
  induction k generalizing n with
  | zero => rfl
  | succ k ih => simp [beBytes, ih]

theorem ofBeBytes_snoc (bs : List UInt8) (b : UInt8) :
    ofBeBytes (bs ++ [b]) = ofBeBytes bs * 256 + b.toNat := by
  simp [ofBeBytes]

theorem ofBeBytes_beBytes {k n : ℕ} (h : n < 256 ^ k) : ofBeBytes (beBytes k n) = n := by
  induction k generalizing n with
  | zero => simpa [beBytes, ofBeBytes] using (Nat.lt_one_iff.1 h).symm
  | succ k ih =>
    have hd : n / 256 < 256 ^ k := by
      rw [Nat.div_lt_iff_lt_mul (by decide)]
      rwa [Nat.pow_succ] at h
    rw [beBytes, ofBeBytes_snoc, ih hd, UInt8.toNat_ofNat']
    omega

theorem ofBeBytes_lt (bs : List UInt8) : ofBeBytes bs < 256 ^ bs.length := by
  induction bs using List.reverseRecOn with
  | nil => decide
  | append_singleton bs b ih =>
    have hb := b.toNat_lt
    rw [ofBeBytes_snoc, List.length_append, List.length_singleton, Nat.pow_succ]
    omega

theorem beBytes_ofBeBytes (bs : List UInt8) : beBytes bs.length (ofBeBytes bs) = bs := by
  induction bs using List.reverseRecOn with
  | nil => rfl
  | append_singleton bs b ih =>
    have hb := b.toNat_lt
    have hd : (ofBeBytes bs * 256 + b.toNat) / 256 = ofBeBytes bs := by omega
    rw [ofBeBytes_snoc, List.length_append, List.length_singleton, beBytes, hd, ih]
    congr 2
    rw [← UInt8.toNat_inj, UInt8.toNat_ofNat']
    omega

/-- The length of a payload, after the bit that says whether it is masked. -/
def lengthBytes (maskBit : UInt8) (n : ℕ) : List UInt8 :=
  if n < 126 then [maskBit + UInt8.ofNat n]
  else if n < 2 ^ 16 then (maskBit + 126) :: beBytes 2 n
  else (maskBit + 127) :: beBytes 8 n

def firstByte (fin : Bool) (o : Opcode) : UInt8 := (if fin then 128 else 0) + o.toByte

/-- The header of a frame sent to a client, which is not masked. -/
def Frame.header (f : Frame) : List UInt8 :=
  firstByte f.fin f.opcode :: lengthBytes 0 f.payload.length

def Frame.encode (f : Frame) : List UInt8 := f.header ++ f.payload

/-- The bytes of several frames. -/
def wire (fs : List Frame) : List UInt8 := fs.flatMap Frame.encode

theorem wire_cons (f : Frame) (fs : List Frame) : wire (f :: fs) = f.encode ++ wire fs :=
  List.flatMap_cons

/-- A frame sent by a client, its payload masked with `key`. -/
def encodeMasked (key : ℕ → UInt8) (fin : Bool) (o : Opcode) (payload : List UInt8) :
    List UInt8 :=
  firstByte fin o :: lengthBytes 128 payload.length
    ++ (List.range 4).map key ++ payload.mapIdx fun i b => b ^^^ key (i % 4)

/-- A length in `k` bytes, and the bytes after it. -/
def parseExtended (k : ℕ) (bs : List UInt8) : Option (ℕ × List UInt8) :=
  if k ≤ bs.length then some (ofBeBytes (bs.take k), bs.drop k) else none

/-- The length that `b` and what follows it say, and the bytes after it. -/
def parseLength (b : UInt8) (bs : List UInt8) : Option (ℕ × List UInt8) :=
  if b = 126 then parseExtended 2 bs
  else if b = 127 then parseExtended 8 bs
  else some (b.toNat, bs)

/-- The header at the front of `bs`, and the bytes after it. -/
def parseHeader : List UInt8 → Option (Bool × Opcode × ℕ × List UInt8)
  | b₀ :: b₁ :: bs =>
    match Opcode.ofByte (b₀ % 128), parseLength b₁ bs with
    | some o, some (n, rest) => some (decide (128 ≤ b₀), o, n, rest)
    | _, _ => none
  | _ => none

theorem parse_firstByte (fin : Bool) (o : Opcode) :
    Opcode.ofByte (firstByte fin o % 128) = some o ∧ decide (128 ≤ firstByte fin o) = fin := by
  cases fin <;> cases o <;> decide

theorem Frame.header_ne_nil (f : Frame) : f.header ≠ [] := List.cons_ne_nil _ _

theorem parseExtended_append {k n : ℕ} (h : n < 256 ^ k) (rest : List UInt8) :
    parseExtended k (beBytes k n ++ rest) = some (n, rest) := by
  have hl := length_beBytes k n
  unfold parseExtended
  rw [if_pos (by simp [hl]), List.take_left' hl, List.drop_left' hl, ofBeBytes_beBytes h]

theorem parseExtended_part {k n : ℕ} {p q : List UInt8} (h : beBytes k n = p ++ q) (hq : q ≠ []) :
    parseExtended k p = none := by
  have hl := length_beBytes k n
  have hq' := List.length_pos_iff.2 hq
  rw [h, List.length_append] at hl
  unfold parseExtended
  rw [if_neg (by omega)]

theorem parseLength_short {n : ℕ} (hn : n < 126) (bs : List UInt8) :
    parseLength (UInt8.ofNat n) bs = some (n, bs) := by
  have hb : (UInt8.ofNat n).toNat = n := by
    rw [UInt8.toNat_ofNat']
    omega
  have h₁ : UInt8.ofNat n ≠ 126 := fun h => by
    rw [h] at hb
    exact absurd hn (by rw [← hb]; decide)
  have h₂ : UInt8.ofNat n ≠ 127 := fun h => by
    rw [h] at hb
    exact absurd hn (by rw [← hb]; decide)
  unfold parseLength
  rw [if_neg h₁, if_neg h₂, hb]

/-- The bytes of a length, taken apart: they are read back whole, and not from a part of them. -/
theorem lengthBytes_parse {n : ℕ} (hn : n < 2 ^ 63) :
    ∃ b bs, lengthBytes 0 n = b :: bs
      ∧ (∀ rest, parseLength b (bs ++ rest) = some (n, rest))
      ∧ ∀ p q, bs = p ++ q → q ≠ [] → parseLength b p = none := by
  unfold lengthBytes
  split_ifs with h₁ h₂
  · refine ⟨_, [], rfl, fun rest => ?_, fun p q hpq hq => ?_⟩
    · rw [UInt8.zero_add]
      exact parseLength_short h₁ rest
    · exact absurd (List.append_eq_nil_iff.1 hpq.symm).2 hq
  · exact ⟨_, _, rfl, fun rest => parseExtended_append (k := 2) (by omega) rest,
      fun p q hpq hq => parseExtended_part (k := 2) hpq hq⟩
  · exact ⟨_, _, rfl, fun rest => parseExtended_append (k := 8) (by omega) rest,
      fun p q hpq hq => parseExtended_part (k := 8) hpq hq⟩

theorem parseHeader_append (f : Frame) (rest : List UInt8) :
    parseHeader (f.header ++ rest) = some (f.fin, f.opcode, f.payload.length, rest) := by
  obtain ⟨b, bs, hl, hp, -⟩ := lengthBytes_parse f.fits
  obtain ⟨ho, hf⟩ := parse_firstByte f.fin f.opcode
  unfold Frame.header
  rw [hl]
  simp only [List.cons_append, parseHeader, ho, hp, hf]

theorem parseHeader_part (f : Frame) {p q : List UInt8} (h : f.header = p ++ q) (hq : q ≠ []) :
    parseHeader p = none := by
  obtain ⟨b, bs, hl, -, hn⟩ := lengthBytes_parse f.fits
  unfold Frame.header at h
  rw [hl] at h
  rcases p with _ | ⟨p₀, _ | ⟨p₁, p⟩⟩
  · rfl
  · rfl
  · simp only [List.cons_append, List.cons.injEq] at h
    obtain ⟨-, rfl, h⟩ := h
    simp only [parseHeader, hn p q h hq]
    cases Opcode.ofByte (p₀ % 128) <;> rfl

/-! ## Messages -/

inductive Data
  | text
  | binary
  deriving DecidableEq

/-- What a frame is a part of. -/
inductive Kind
  | data (d : Data)
  | close
  | ping
  | pong
  deriving DecidableEq

/-- A frame of this opcode while the fragmented message `m` is open: what it is a part of, and the
message open after it. Where it may not come there is none. -/
def Opcode.next (o : Opcode) (fin : Bool) (m : Option Data) : Option (Kind × Option Data) :=
  match o, m with
  | .text, none => some (.data .text, if fin then none else some .text)
  | .binary, none => some (.data .binary, if fin then none else some .binary)
  | .continuation, some d => some (.data d, if fin then none else some d)
  | .close, m => some (.close, m)
  | .ping, m => some (.ping, m)
  | .pong, m => some (.pong, m)
  | _, _ => none

def Frame.next (f : Frame) (m : Option Data) : Option (Kind × Option Data) := f.opcode.next f.fin m

/-- The frame is a message of its own, and not a fragment of one. -/
def Frame.Whole (f : Frame) : Prop := f.fin = true ∧ f.opcode ≠ .continuation

theorem Frame.Whole.next {f : Frame} (h : f.Whole) {d : Data} {m m' : Option Data}
    (hn : f.next m = some (.data d, m')) : m' = none := by
  obtain ⟨hf, ho⟩ := h
  unfold Frame.next Opcode.next at hn
  rw [hf] at hn
  split at hn <;> cases hn
  · rfl
  · rfl
  · next hc => exact absurd hc ho

/-- The frames may come in this order, and a close comes last. -/
def Legal : Option Data → List Frame → Prop
  | _, [] => True
  | m, f :: fs => ∃ k m', f.next m = some (k, m') ∧ (k = .close → fs = []) ∧ Legal m' fs

/-! ## Reading without a socket

A reader is given the bytes that have come, from where it stopped, and says how many it used and
what they hold. -/

inductive MessageType
  | text
  | binary
  | closeMustReply
  | closeCompleted
  | ping
  | pong
  deriving DecidableEq

/-- Bytes of a frame of kind `k` are reported as `t`. -/
def Kind.Reported (k : Kind) (t : MessageType) : Prop :=
  match k with
  | .data .text => t = .text
  | .data .binary => t = .binary
  | .close => t = .closeMustReply ∨ t = .closeCompleted
  | .ping => t = .ping
  | .pong => t = .pong

structure ReadResult where
  lenFrom : ℕ
  payload : List UInt8
  messageType : MessageType
  endOfMessage : Bool

/-- Where a reader stands: before a frame, with the fragmented message that is open, or inside the
payload of a text or a binary message of one frame, with the bytes of it still to come. -/
inductive Position
  | between (m : Option Data)
  | inside (d : Data) (rest : List UInt8)

/-- What a reader does at each position with the bytes it is given: a whole frame, a frame cut in
its payload, the rest of a payload or more of it, and a part of a header, which is an error or is
left where it is. Of a frame that is cut in its payload the rest is told only where the frame is a
message of its own: of the fragments of a message, and of control frames, it is not. -/
structure Reads {S ε : Type*} (read : S → List UInt8 → Except ε ReadResult × S)
    (At : S → Position → Prop) : Prop where
  whole : ∀ {s m f k m'}, At s (.between m) → Frame.next f m = some (k, m') → ∀ rest,
    ∃ t s', k.Reported t ∧ (k ≠ .close → At s' (.between m'))
      ∧ read s (f.encode ++ rest) = (.ok ⟨f.encode.length, f.payload, t, f.fin⟩, s')
  part : ∀ {s m f k m'}, At s (.between m) → Frame.next f m = some (k, m') → ∀ p q,
    f.payload = p ++ q → q ≠ [] →
    ∃ t s', k.Reported t ∧ (∀ d, k = .data d → f.Whole → At s' (.inside d q))
      ∧ read s (f.header ++ p) = (.ok ⟨(f.header ++ p).length, p, t, false⟩, s')
  rest : ∀ {s d q}, At s (.inside d q) → ∀ rest,
    ∃ t s', (Kind.data d).Reported t ∧ At s' (.between none)
      ∧ read s (q ++ rest) = (.ok ⟨q.length, q, t, true⟩, s')
  more : ∀ {s d p q}, At s (.inside d (p ++ q)) → p ≠ [] → q ≠ [] →
    ∃ t s', (Kind.data d).Reported t ∧ At s' (.inside d q)
      ∧ read s p = (.ok ⟨p.length, p, t, false⟩, s')
  header : ∀ {s m f k m'}, At s (.between m) → Frame.next f m = some (k, m') → ∀ p q,
    f.header = p ++ q → p ≠ [] → q ≠ [] →
    (∃ e, (read s p).1 = .error e)
      ∨ ∃ t s', ¬ Kind.close.Reported t ∧ At s' (.between m)
        ∧ read s p = (.ok ⟨0, [], t, false⟩, s')

/-! ## A reader -/

inductive ReadError
  | frameIncomplete
  | unexpectedFrame
  deriving DecidableEq

/-- The message open, and of the payload being read its kind, the message open after it, whether it
is final, and how many bytes are still to come. -/
structure Reader where
  message : Option Data
  reading : Option (Kind × Option Data × Bool × ℕ)
  deriving DecidableEq

namespace Reader

def messageType : Kind → MessageType
  | .data .text => .text
  | .data .binary => .binary
  | .close => .closeMustReply
  | .ping => .ping
  | .pong => .pong

/-- The part of a payload of `n` bytes that `bs` begins with, `header` bytes before it. -/
def readPayload (header : ℕ) (k : Kind) (m : Option Data) (fin : Bool) (n : ℕ) (bs : List UInt8) :
    ReadResult × Reader :=
  let p := bs.take n
  (⟨header + p.length, p, messageType k, fin && decide (n ≤ bs.length)⟩,
    if n ≤ bs.length then ⟨m, none⟩ else ⟨m, some (k, m, fin, n - p.length)⟩)

def read (s : Reader) (bs : List UInt8) : Except ReadError ReadResult × Reader :=
  match s.reading with
  | some (k, m, fin, n) => (readPayload 0 k m fin n bs).map .ok id
  | none =>
    match parseHeader bs with
    | none => (.error .frameIncomplete, s)
    | some (fin, o, n, rest) =>
      match o.next fin s.message with
      | none => (.error .unexpectedFrame, s)
      | some (k, m) => (readPayload (bs.length - rest.length) k m fin n rest).map .ok id

def At (s : Reader) : Position → Prop
  | .between m => s = ⟨m, none⟩
  | .inside d q => s.reading = some (.data d, none, true, q.length)

theorem reported_messageType (k : Kind) : k.Reported (messageType k) := by
  rcases k with d | _ | _ | _
  · cases d <;> rfl
  · exact .inl rfl
  · rfl
  · rfl

theorem readPayload_whole (header : ℕ) (k : Kind) (m : Option Data) (fin : Bool)
    (q rest : List UInt8) :
    readPayload header k m fin q.length (q ++ rest)
      = (⟨header + q.length, q, messageType k, fin⟩, ⟨m, none⟩) := by
  simp [readPayload]

theorem readPayload_part (header : ℕ) (k : Kind) (m : Option Data) (fin : Bool)
    {p q : List UInt8} (hq : q ≠ []) :
    readPayload header k m fin (p ++ q).length p
      = (⟨header + p.length, p, messageType k, false⟩, ⟨m, some (k, m, fin, q.length)⟩) := by
  have hl := List.length_pos_iff.2 hq
  have hn : ¬ (p ++ q).length ≤ p.length := by
    rw [List.length_append]
    omega
  have ht : p.take (p ++ q).length = p := List.take_of_length_le (by simp)
  unfold readPayload
  simp only [ht, if_neg hn, decide_eq_false hn, Bool.and_false]
  simp

theorem read_header {m m' : Option Data} {f : Frame} {k : Kind} (h : f.next m = some (k, m'))
    (bs : List UInt8) :
    read ⟨m, none⟩ (f.header ++ bs)
      = (readPayload f.header.length k m' f.fin f.payload.length bs).map .ok id := by
  have hl : (f.header ++ bs).length - bs.length = f.header.length := by simp
  unfold Frame.next at h
  simp only [read, parseHeader_append, h, hl]

theorem reads : Reads read At where
  whole := by
    rintro s m f k m' rfl hn rest
    refine ⟨_, _, reported_messageType k, fun _ => rfl, ?_⟩
    rw [Frame.encode, List.append_assoc, read_header hn, readPayload_whole, List.length_append]
    rfl
  part := by
    rintro s m f k m' rfl hn p q hp hq
    refine ⟨_, ⟨m', some (k, m', f.fin, q.length)⟩, reported_messageType k, fun d hk hw => ?_, ?_⟩
    · subst hk
      obtain rfl := hw.next hn
      simp only [At, hw.1]
    · rw [read_header hn, hp, readPayload_part _ _ _ _ hq, List.length_append]
      rfl
  rest := by
    intro s d q hs rest
    refine ⟨_, _, reported_messageType (.data d), rfl, ?_⟩
    unfold At at hs
    simp only [read, hs, readPayload_whole, Nat.zero_add, Prod.map_apply, id_eq]
  more := by
    intro s d p q hs _ hq
    refine ⟨_, ⟨none, some (.data d, none, true, q.length)⟩, reported_messageType (.data d), rfl,
      ?_⟩
    unfold At at hs
    simp only [read, hs, readPayload_part _ _ _ _ hq, Nat.zero_add, Prod.map_apply, id_eq]
  header := by
    rintro s m f k m' rfl _ p q hp _ hq
    exact .inl ⟨.frameIncomplete, by simp only [read, parseHeader_part f hp hq]⟩

end Reader

end WebSocket
