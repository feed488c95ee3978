import OcppClient.EmbassyConnect

/-!
# The opening handshake, and what a dial leaves behind

The response loop reads into what is left of its buffer and asks the codec after each read. It has
room whenever it reads, reads at most as often as the buffer has bytes, and gives what it read past
the header to the stream (`OpensWhole`). A dial succeeds where a header that is granted fits the
buffer and arrives whole (`negotiate_isOk_iff`). The socket and its buffers are leaked before
anything can fail, so what is left in the stack counts the calls, not the calls that succeeded.
-/

namespace OcppClient

variable {W K ε : Type} {codec : OpeningCodec W K ε} {key : K} {size : ℕ}

namespace Opening

/-! ## Turns -/

section Turns

variable {s s' : Opening W} {r : Except (ConnectError ε) (List UInt8)}

/-- The bytes that come before the peer's end of the connection. -/
def arriving : List (List UInt8) → List UInt8
  | [] => []
  | chunk :: reads => if chunk = [] then [] else chunk ++ arriving reads

theorem arriving_cons {chunk : List UInt8} (hc : chunk ≠ []) (reads : List (List UInt8)) :
    arriving (chunk :: reads) = chunk ++ arriving reads := if_neg hc

theorem arriving_of_nonempty {reads : List (List UInt8)} (h : ∀ chunk ∈ reads, chunk ≠ []) :
    arriving reads = reads.flatten := by
  induction reads with
  | nil => rfl
  | cons chunk reads ih =>
    rw [arriving_cons (h chunk List.mem_cons_self), List.flatten_cons,
      ih fun c hc => h c (List.mem_cons_of_mem _ hc)]

/-- What the codec's answer leads to. -/
inductive AcceptCase (codec : OpeningCodec W K ε) (key : K) (size : ℕ) (s : Opening W) :
    OpeningTurn W ε → Prop
  | opened {n : ℕ} {p : Option String} {ws : W}
    (h : (codec.clientAccept s.ws key s.response).1 = .ok (n, p)) :
    AcceptCase codec key size s (.returned (.ok (s.response.drop n)) { s with ws := ws })
  | incomplete {ws : W}
    (h : (codec.clientAccept s.ws key s.response).1 = .error .httpHeaderIncomplete)
    (hlen : s.response.length ≠ size) : AcceptCase codec key size s (.again { s with ws := ws })
  | full {e : ConnectError ε} {ws : W}
    (h : (codec.clientAccept s.ws key s.response).1 = .error .httpHeaderIncomplete)
    (hlen : s.response.length = size) :
    AcceptCase codec key size s (.returned (.error e) { s with ws := ws })
  | rejected {e : ε} {ws : W}
    (h : (codec.clientAccept s.ws key s.response).1 = .error (.other e)) :
    AcceptCase codec key size s (.returned (.error (.accept e)) { s with ws := ws })

theorem accept_cases (codec : OpeningCodec W K ε) (key : K) (size : ℕ) (s : Opening W) :
    AcceptCase codec key size s (accept codec key size s) := by
  unfold accept
  simp only []
  split
  · next h => exact .opened h
  · next h =>
    split_ifs with hlen
    · exact .full h hlen
    · exact .incomplete h hlen
  · next h => exact .rejected h

/-- What one turn can do: end without an answer, or ask the codec about the response so far, whose
part `got` was just read. -/
inductive TurnCase (codec : OpeningCodec W K ε) (key : K) (size : ℕ) (s : Opening W) :
    OpeningTurn W ε → Prop
  | ended {r : Except (ConnectError ε) (List UInt8)} {reads : List (List UInt8)}
    (hr : ∀ pending, r ≠ .ok pending)
    (hend : arriving s.reads = [] ∨ size ≤ s.response.length) :
    TurnCase codec key size s (.returned r
      { s with reads := reads, rooms := s.rooms ++ [size - s.response.length] })
  | asked {got : List UInt8} {reads : List (List UInt8)} (hgot : got ≠ [])
    (hroom : got.length ≤ size - s.response.length)
    (hreads : got ++ reads.flatten = s.reads.flatten)
    (hcame : got ++ arriving reads = arriving s.reads) {t : OpeningTurn W ε}
    (ht : AcceptCase codec key size
      { s with
        reads := reads
        rooms := s.rooms ++ [size - s.response.length]
        response := s.response ++ got } t) : TurnCase codec key size s t

theorem unread_flatten (room : ℕ) (chunk : List UInt8) (reads : List (List UInt8)) :
    chunk.take room ++ (unread room chunk reads).flatten = chunk ++ reads.flatten := by
  unfold unread
  split_ifs with h
  · rw [List.take_of_length_le h]
  · rw [List.flatten_cons, ← List.append_assoc, List.take_append_drop]

theorem unread_arriving {room : ℕ} {chunk : List UInt8} (hc : chunk ≠ [])
    (reads : List (List UInt8)) :
    chunk.take room ++ arriving (unread room chunk reads) = arriving (chunk :: reads) := by
  rw [arriving_cons hc]
  unfold unread
  split_ifs with h
  · rw [List.take_of_length_le h]
  · have hdrop : chunk.drop room ≠ [] := fun hd => h (List.drop_eq_nil_iff.1 hd)
    rw [arriving_cons hdrop, ← List.append_assoc, List.take_append_drop]

theorem turn_cases (codec : OpeningCodec W K ε) (key : K) (size : ℕ) (s : Opening W) :
    TurnCase codec key size s (turn codec key size s) := by
  unfold turn
  simp only []
  split
  · next hr =>
    have hend : arriving s.reads = [] := by rw [hr, arriving]
    split
    · exact .ended nofun (.inl hend)
    · exact .ended nofun (.inl hend)
  · next chunk reads hr =>
    split_ifs with hc
    · refine .ended nofun ?_
      simp only [List.isEmpty_iff, List.take_eq_nil_iff] at hc
      rcases hc with hroom | rfl
      · exact .inr (Nat.sub_eq_zero_iff_le.1 hroom)
      · exact .inl (by rw [hr, arriving, if_pos rfl])
    · have hchunk : chunk ≠ [] := by
        rintro rfl
        simp at hc
      refine .asked (by simpa using hc) (List.length_take_le ..) ?_ ?_
        (accept_cases codec key size _)
      · rw [unread_flatten, hr, List.flatten_cons]
      · rw [unread_arriving hchunk, hr]

variable (codec key size) in
/-- What each turn keeps up to the turn that ends the loop holds where it ends. -/
theorem run_rule {P : Opening W → Prop}
    {Q : Except (ConnectError ε) (List UInt8) → Opening W → Prop}
    (hagain : ∀ s s', P s → turn codec key size s = .again s' → P s')
    (hend : ∀ s r s', P s → turn codec key size s = .returned r s' → Q r s')
    (s : Opening W) (hs : P s) : Q (run codec key size s).1 (run codec key size s).2 := by
  induction s using run.induct codec key size with
  | case1 s s' ht ih =>
    rw [run, ht]
    exact ih (hagain s s' hs ht)
  | case2 s r s' ht =>
    rw [run, ht]
    exact hend s r s' hs ht

end Turns

/-! ## The loop -/

/-- `client_accept` on the bytes of a response: it asks for more exactly on the proper prefixes of
headers, tells the length of a header, and accepts those that are granted. -/
structure Accepts (codec : OpeningCodec W K ε) (key : K) (IsHeader Granted : List UInt8 → Prop) :
    Prop where
  incomplete : ∀ ws bytes, (codec.clientAccept ws key bytes).1 = .error .httpHeaderIncomplete
    ↔ ∃ header, IsHeader header ∧ bytes <+: header ∧ bytes ≠ header
  length : ∀ ws bytes n p, (codec.clientAccept ws key bytes).1 = .ok (n, p) →
    ∃ header, IsHeader header ∧ header <+: bytes ∧ n = header.length
  granted : ∀ ws header rest, IsHeader header → Granted header →
    ∃ p, (codec.clientAccept ws key (header ++ rest)).1 = .ok (header.length, p)

/-- The loop over a buffer of `size` bytes ended with `r` in `s`, where `reads` were to come. -/
structure OpensWhole (IsHeader Granted : List UInt8 → Prop) (size : ℕ) (reads : List (List UInt8))
    (r : Except (ConnectError ε) (List UInt8)) (s : Opening W) : Prop where
  count : s.rooms.length ≤ size
  room : ∀ room ∈ s.rooms, 0 < room
  whole : ∀ pending, r = .ok pending → ∃ header, IsHeader header ∧ header <+: reads.flatten
    ∧ pending ++ s.reads.flatten = reads.flatten.drop header.length
  opens : (∀ chunk ∈ reads, chunk ≠ []) → ∀ header, IsHeader header → Granted header →
    header ≠ [] → header <+: reads.flatten → header.length ≤ size → ∃ pending, r = .ok pending

variable {IsHeader Granted : List UInt8 → Prop} {bytes : List UInt8}

/-- At the top of the loop: there is room, and every read brought a byte. -/
structure AtTop (size : ℕ) (bytes : List UInt8) (s : Opening W) : Prop where
  count : s.rooms.length ≤ s.response.length
  fits : s.response.length < size
  room : ∀ room ∈ s.rooms, 0 < room
  bytes : s.response ++ s.reads.flatten = bytes

theorem AtTop.rooms {s : Opening W} (h : AtTop size bytes s) :
    (s.rooms ++ [size - s.response.length]).length ≤ size
      ∧ ∀ room ∈ s.rooms ++ [size - s.response.length], 0 < room := by
  have hc := h.count
  have hf := h.fits
  refine ⟨?_, fun room hm => ?_⟩
  · rw [List.length_append, List.length_singleton]
    omega
  · rcases List.mem_append.1 hm with hm | hm
    · exact h.room room hm
    · rw [List.mem_singleton] at hm
      omega

theorem AtTop.again {s s' : Opening W} (h : AtTop size bytes s)
    (ht : turn codec key size s = .again s') : AtTop size bytes s' := by
  have hc := turn_cases codec key size s
  rw [ht] at hc
  cases hc with
  | @asked got _ hgot hroom hreads _ _ ha =>
    cases ha with
    | incomplete _ hlen =>
      have hpos := List.length_pos_iff.2 hgot
      have hcount := h.count
      have hfits := h.fits
      simp only [List.length_append] at hlen
      refine ⟨?_, ?_, h.rooms.2, ?_⟩
      · simp only [List.length_append, List.length_singleton]
        omega
      · simp only [List.length_append]
        omega
      · simp only [List.append_assoc, hreads, h.bytes]

theorem AtTop.returned {s s' : Opening W} {r : Except (ConnectError ε) (List UInt8)}
    (hA : Accepts codec key IsHeader Granted) (h : AtTop size bytes s)
    (ht : turn codec key size s = .returned r s') :
    s'.rooms.length ≤ size ∧ (∀ room ∈ s'.rooms, 0 < room)
      ∧ ∀ pending, r = .ok pending → ∃ header, IsHeader header ∧ header <+: bytes
        ∧ pending ++ s'.reads.flatten = bytes.drop header.length := by
  have hc := turn_cases codec key size s
  rw [ht] at hc
  cases hc with
  | ended hr _ => exact ⟨h.rooms.1, h.rooms.2, fun pending hp => absurd hp (hr pending)⟩
  | @asked got reads hgot hroom hreads _ _ ha =>
    cases ha with
    | @opened n p ws ha =>
      refine ⟨h.rooms.1, h.rooms.2, fun pending hp => ?_⟩
      obtain ⟨header, hh, ⟨rest, hrest⟩, rfl⟩ := hA.length _ _ _ _ ha
      replace hrest : header ++ rest = s.response ++ got := hrest
      have hbytes : bytes = header ++ (rest ++ reads.flatten) := by
        rw [← h.bytes, ← hreads, ← List.append_assoc, ← List.append_assoc, hrest]
      cases hp
      refine ⟨header, hh, ⟨_, hbytes.symm⟩, ?_⟩
      rw [hbytes, List.drop_left]
      simp only [← hrest, List.drop_left]
    | full => exact ⟨h.rooms.1, h.rooms.2, nofun⟩
    | rejected => exact ⟨h.rooms.1, h.rooms.2, nofun⟩

/-- A part of the header was read, and the whole is to come. -/
structure InHeader (header : List UInt8) (s : Opening W) : Prop where
  short : s.response.length < header.length
  bytes : header <+: s.response ++ arriving s.reads

/-- A turn inside the header: the read is not the last, and the codec asks for more as long as a
part of the header is missing. -/
theorem InHeader.turn_cases {header : List UInt8} {s : Opening W} {t : OpeningTurn W ε}
    (hA : Accepts codec key IsHeader Granted) (hh : IsHeader header) (hg : Granted header)
    (hsize : header.length ≤ size) (h : InHeader header s) (ht : TurnCase codec key size s t) :
    (∃ s', t = .again s' ∧ InHeader header s') ∨ ∃ pending s', t = .returned (.ok pending) s' := by
  have hshort := h.short
  cases ht with
  | ended _ hend =>
    rcases hend with hend | hend
    · have := h.bytes.length_le
      rw [hend, List.append_nil] at this
      omega
    · omega
  | @asked got reads _ _ _ hcame _ ha =>
    have hbytes : header <+: (s.response ++ got) ++ arriving reads := by
      rw [List.append_assoc, hcame]
      exact h.bytes
    rcases Nat.lt_or_ge (s.response ++ got).length header.length with hlt | hge
    · have hpre : s.response ++ got <+: header :=
        List.prefix_of_prefix_length_le (List.prefix_append ..) hbytes (Nat.le_of_lt hlt)
      have hmore := (hA.incomplete s.ws (s.response ++ got)).2
        ⟨header, hh, hpre, fun he => by rw [he] at hlt; omega⟩
      cases ha with
      | opened ha => exact absurd (ha.symm.trans hmore) nofun
      | incomplete => exact .inl ⟨_, rfl, hlt, hbytes⟩
      | full _ hlen =>
        replace hlen : (s.response ++ got).length = size := hlen
        omega
      | rejected ha => exact absurd (ha.symm.trans hmore) nofun
    · obtain ⟨rest, hrest⟩ :=
        List.prefix_of_prefix_length_le hbytes (List.prefix_append ..) hge
      obtain ⟨p, hp⟩ := hA.granted s.ws header rest hh hg
      rw [hrest] at hp
      cases ha with
      | opened => exact .inr ⟨_, _, rfl⟩
      | incomplete ha => exact absurd (ha.symm.trans hp) nofun
      | full ha => exact absurd (ha.symm.trans hp) nofun
      | rejected ha => exact absurd (ha.symm.trans hp) nofun

/-- A header that is granted, fits the buffer and arrives whole opens the connection. -/
theorem run_opens (hA : Accepts codec key IsHeader Granted) {header : List UInt8}
    (hh : IsHeader header) (hg : Granted header) (hnil : header ≠ []) (hsize : header.length ≤ size)
    {reads : List (List UInt8)} (hpre : header <+: arriving reads) (eof : Except TcpError Unit)
    (ws : W) : ∃ pending, (run codec key size ⟨reads, eof, ws, [], []⟩).1 = .ok pending := by
  have h₀ : InHeader header (⟨reads, eof, ws, [], []⟩ : Opening W) :=
    ⟨List.length_pos_iff.2 hnil, hpre⟩
  refine run_rule codec key size (Q := fun r _ => ∃ pending, r = .ok pending) (fun s s' hs ht => ?_)
    (fun s r s' hs ht => ?_) _ h₀
  · obtain ⟨_, h, hs'⟩ | ⟨_, _, h⟩ :=
      hs.turn_cases hA hh hg hsize (ht ▸ turn_cases codec key size s)
    · cases h
      exact hs'
    · cases h
  · obtain ⟨_, h, -⟩ | ⟨p, _, h⟩ :=
      hs.turn_cases hA hh hg hsize (ht ▸ turn_cases codec key size s)
    · cases h
    · cases h
      exact ⟨p, rfl⟩

/-- The loop ends with what it read past the header in hand, whatever the cutting. -/
theorem run_opensWhole (hA : Accepts codec key IsHeader Granted) (hsize : 1 ≤ size)
    (reads : List (List UInt8)) (eof : Except TcpError Unit) (ws : W) :
    OpensWhole IsHeader Granted size reads (run codec key size ⟨reads, eof, ws, [], []⟩).1
      (run codec key size ⟨reads, eof, ws, [], []⟩).2 := by
  have h₀ : AtTop size reads.flatten (⟨reads, eof, ws, [], []⟩ : Opening W) :=
    ⟨Nat.le_refl 0, hsize, nofun, rfl⟩
  obtain ⟨hcount, hroom, hwhole⟩ := run_rule codec key size
    (fun s s' => AtTop.again) (fun s r s' => AtTop.returned hA) _ h₀
  refine ⟨hcount, hroom, hwhole, fun hne header hh hg hnil hpre hlen => ?_⟩
  rw [← arriving_of_nonempty hne] at hpre
  exact run_opens hA hh hg hnil hlen hpre eof ws

/-- `client_accept` accepts nothing but a header that is granted under the key. -/
structure AcceptsOnly (codec : OpeningCodec W K ε) (key : K)
    (IsHeader Granted : List UInt8 → Prop) : Prop extends Accepts codec key IsHeader Granted where
  nonempty : ∀ header, IsHeader header → header ≠ []
  only : ∀ ws bytes n p, (codec.clientAccept ws key bytes).1 = .ok (n, p) →
    ∃ header, IsHeader header ∧ Granted header ∧ header <+: bytes

/-- The response of a turn that opens the connection is a part of what arrives, and fits. -/
theorem run_ok (hA : AcceptsOnly codec key IsHeader Granted) (reads : List (List UInt8))
    (eof : Except TcpError Unit) (ws : W) {pending : List UInt8}
    (h : (run codec key size ⟨reads, eof, ws, [], []⟩).1 = .ok pending) :
    ∃ header, IsHeader header ∧ Granted header ∧ header <+: arriving reads
      ∧ header.length ≤ size := by
  refine run_rule codec key size
    (P := fun s => s.response ++ arriving s.reads = arriving reads ∧ s.response.length ≤ size)
    (Q := fun r _ => r = .ok pending → ∃ header, IsHeader header ∧ Granted header
      ∧ header <+: arriving reads ∧ header.length ≤ size)
    (fun s s' hs ht => ?_) (fun s r s' hs ht hr => ?_) _ ⟨rfl, Nat.zero_le _⟩ h
  all_goals
    have hc := turn_cases codec key size s
    rw [ht] at hc
    obtain ⟨hcame₀, hfits⟩ := hs
  · cases hc with
    | @asked got rest _ hroom _ hcame _ ha =>
      cases ha with
      | incomplete =>
        refine ⟨?_, ?_⟩
        · simp only [List.append_assoc, hcame, hcame₀]
        · simp only [List.length_append]
          omega
  · cases hc with
    | ended hne => exact absurd hr (hne pending)
    | @asked got rest _ hroom _ hcame _ ha =>
      cases ha with
      | opened ha =>
        obtain ⟨header, hh, hg, hpre⟩ := hA.only _ _ _ _ ha
        have hresponse : s.response ++ got <+: arriving reads := by
          rw [← hcame₀, ← hcame, ← List.append_assoc]
          exact List.prefix_append ..
        have hlen := hpre.length_le
        simp only [List.length_append] at hlen
        exact ⟨header, hh, hg, hpre.trans hresponse, by omega⟩
      | full | rejected => cases hr

end Opening

/-! ## Dials that succeed -/

section Dials

variable (codec) (cfg : ConnectConfig) (IsHeader : List UInt8 → Prop)
  (Granted : K → List UInt8 → Prop)

/-- The socket connects, the request fits its buffer and goes out, and a header that is granted
under the key of the request arrives whole and fits its buffer as well. -/
structure Dial.Answered (d : Dial W) : Prop where
  connect : d.connect = .ok ()
  write : ∃ n, d.write = .ok n
  flush : d.flush = .ok ()
  header : ∃ request key header,
    (codec.clientConnect d.client cfg.options cfg.handshakeBufferSize).1 = .ok (request, key)
      ∧ IsHeader header ∧ Granted key header ∧ header <+: Opening.arriving d.reads
      ∧ header.length ≤ cfg.handshakeBufferSize

variable {IsHeader Granted}

variable {codec cfg} in
/-- Up to the response nothing has failed. -/
theorem inputs_of_negotiate {d : Dial W} (h : (negotiate codec cfg d).isOk = true) :
    d.connect = .ok () ∧ (∃ n, d.write = .ok n) ∧ d.flush = .ok () ∧ ∃ request key ws,
      codec.clientConnect d.client cfg.options cfg.handshakeBufferSize
        = (.ok (request, key), ws) := by
  unfold negotiate at h
  rcases hc : d.connect with e | _
  · rw [hc] at h
    cases h
  rcases hreq : codec.clientConnect d.client cfg.options cfg.handshakeBufferSize
    with ⟨e | ⟨request, key⟩, ws⟩
  · rw [hc, hreq] at h
    cases h
  rcases hw : d.write with e | n
  · rw [hc, hreq, hw] at h
    cases h
  rcases hf : d.flush with e | _
  · rw [hc, hreq, hw, hf] at h
    cases h
  exact ⟨rfl, ⟨n, rfl⟩, rfl, request, key, ws, rfl⟩

variable {codec cfg} in
/-- From there on the call does as the response loop does. -/
theorem negotiate_eq_run {d : Dial W} {n : ℕ} {request : List UInt8} {key : K} {ws : W}
    (hc : d.connect = .ok ()) (hw : d.write = .ok n) (hf : d.flush = .ok ())
    (hreq : codec.clientConnect d.client cfg.options cfg.handshakeBufferSize
      = (.ok (request, key), ws)) :
    (negotiate codec cfg d).isOk
      = (Opening.run codec key cfg.handshakeBufferSize ⟨d.reads, d.eof, ws, [], []⟩).1.isOk := by
  unfold negotiate
  rw [hc, hw, hf, hreq]
  rcases hr : Opening.run codec key cfg.handshakeBufferSize ⟨d.reads, d.eof, ws, [], []⟩
    with ⟨e | pending, s⟩
  · simp only [Except.mapError, Bind.bind, Except.bind, hr]
    rfl
  · simp only [Except.mapError, Bind.bind, Except.bind, hr]
    rfl

theorem negotiate_isOk_iff (hA : ∀ key, Opening.AcceptsOnly codec key IsHeader (Granted key))
    (d : Dial W) :
    (negotiate codec cfg d).isOk = true ↔ Dial.Answered codec cfg IsHeader Granted d := by
  refine ⟨fun h => ?_, fun h => ?_⟩
  · obtain ⟨hc, ⟨n, hw⟩, hf, request, key, ws, hreq⟩ := inputs_of_negotiate h
    rw [negotiate_eq_run hc hw hf hreq] at h
    rcases hr : (Opening.run codec key cfg.handshakeBufferSize ⟨d.reads, d.eof, ws, [], []⟩).1
      with e | pending
    · rw [hr] at h
      cases h
    · obtain ⟨header, hh, hg, hpre, hlen⟩ := Opening.run_ok (hA key) _ _ _ hr
      exact ⟨hc, ⟨n, hw⟩, hf, request, key, header, by rw [hreq], hh, hg, hpre, hlen⟩
  · obtain ⟨request, key, header, hreq, hh, hg, hpre, hlen⟩ := h.header
    obtain ⟨n, hw⟩ := h.write
    obtain ⟨pending, hr⟩ := Opening.run_opens (hA key).toAccepts hh hg ((hA key).nonempty header hh)
      hlen hpre d.eof (codec.clientConnect d.client cfg.options cfg.handshakeBufferSize).2
    rw [negotiate_eq_run h.connect hw h.flush (Prod.ext hreq rfl), hr]
    rfl

end Dials

/-! ## A concrete codec -/

def asciiBytes (text : String) : List UInt8 := text.toList.map fun c => UInt8.ofNat c.toNat

def openingKey : String := "dGhlIHNhbXBsZSBub25jZQ=="

def openingRequest (o : WebSocketOptions) : List UInt8 :=
  asciiBytes ("GET " ++ o.path ++ " HTTP/1.1\r\nHost: " ++ o.host
    ++ "\r\nUpgrade: websocket\r\nConnection: Upgrade\r\nSec-WebSocket-Key: " ++ openingKey
    ++ "\r\nOrigin: " ++ o.origin
    ++ (o.subProtocols.elim "" fun ps => "\r\nSec-WebSocket-Protocol: " ++ ", ".intercalate ps)
    ++ (o.additionalHeaders.elim "" fun hs => "\r\n" ++ "\r\n".intercalate hs)
    ++ "\r\nSec-WebSocket-Version: 13\r\n\r\n")

/-- The header that grants `openingKey`. -/
def switchingHeader : List UInt8 :=
  asciiBytes ("HTTP/1.1 101 Switching Protocols\r\nUpgrade: websocket\r\nConnection: Upgrade\r\n"
    ++ "Sec-WebSocket-Protocol: ocpp1.6\r\n"
    ++ "Sec-WebSocket-Accept: s3pPLMBiTxaQ9kYGzzhZRbK+xOo=\r\n\r\n")

/-- A generator that draws `openingKey`, and a server whose one response header is `header`. -/
def headerCodec (header : List UInt8) : OpeningCodec Unit String Unit where
  clientConnect _ o size :=
    (if (openingRequest o).length ≤ size then .ok (openingRequest o, openingKey) else .error (), ())
  clientAccept _ key bytes :=
    (if bytes <+: header ∧ bytes ≠ header then .error .httpHeaderIncomplete
      else if header <+: bytes ∧ key = openingKey then .ok (header.length, some "ocpp1.6")
      else .error (.other ()), ())

def Grants (header : List UInt8) (key : String) (h : List UInt8) : Prop :=
  h = header ∧ key = openingKey

theorem headerCodec_accepts {header : List UInt8} (hnil : header ≠ []) (key : String) :
    Opening.AcceptsOnly (headerCodec header) key (· = header) (Grants header key) where
  incomplete _ bytes := by
    simp only [headerCodec, exists_eq_left]
    split_ifs with h₁ h₂
    · exact ⟨fun _ => h₁, fun _ => rfl⟩
    · exact ⟨nofun, fun h => absurd h h₁⟩
    · exact ⟨nofun, fun h => absurd h h₁⟩
  length _ bytes n p h := by
    simp only [headerCodec] at h
    split_ifs at h with h₁ h₂
    cases h
    exact ⟨header, rfl, h₂.1, rfl⟩
  granted _ h rest hh hg := by
    subst hh
    have hne : ¬ (h ++ rest <+: h ∧ h ++ rest ≠ h) := fun ⟨hp, hne⟩ =>
      hne (hp.eq_of_length_le (by simp))
    simp only [headerCodec, if_neg hne, List.prefix_append, hg.2, and_self, if_true]
    exact ⟨_, rfl⟩
  nonempty h hh := hh ▸ hnil
  only _ bytes n p h := by
    simp only [headerCodec] at h
    split_ifs at h with h₁ h₂
    exact ⟨header, rfl, ⟨rfl, h₂.2⟩, h₂.1⟩

theorem headerCodec_connect (header : List UInt8) {o : WebSocketOptions}
    (h : (openingRequest o).length ≤ size) :
    ((headerCodec header).clientConnect () o size).1 = .ok (openingRequest o, openingKey) := by
  simp only [headerCodec, if_pos h]

theorem length_switchingHeader : switchingHeader.length = 162 := by
  simp only [switchingHeader, asciiBytes, List.length_map, String.length_toList,
    String.length_append]
  rfl

theorem switchingHeader_ne_nil : switchingHeader ≠ [] := by
  rw [← List.length_pos_iff, length_switchingHeader]
  decide

namespace Opening

/-- The header ends inside the second read, at the end of the buffer; the third is not read. -/
def twoReads : List (List UInt8) :=
  [switchingHeader.take 100, switchingHeader.drop 100 ++ [129, 2], [72]]

theorem run_opensWhole_of_twoReads :
    OpensWhole (· = switchingHeader) (Grants switchingHeader openingKey) 163 twoReads
      (run (headerCodec switchingHeader) openingKey 163 ⟨twoReads, .ok (), (), [], []⟩).1
      (run (headerCodec switchingHeader) openingKey 163 ⟨twoReads, .ok (), (), [], []⟩).2 :=
  run_opensWhole (headerCodec_accepts switchingHeader_ne_nil openingKey).toAccepts (by decide)
    twoReads (.ok ()) ()

end Opening

/-! ## What is left in the stack -/

variable (codec) (cfg : ConnectConfig)

/-- Each call leaks, whatever becomes of it. -/
theorem connects_eq (n : NetStack) (ds : List (Dial W)) :
    connects codec cfg n ds
      = (ds.map (negotiate codec cfg), ⟨n.sockets + ds.length, n.bufferPairs + ds.length⟩) := by
  induction ds generalizing n with
  | nil => rfl
  | cons d ds ih =>
    simp only [connects, connect, ih, NetStack.leak, List.map_cons, List.length_cons, Prod.mk.injEq,
      NetStack.mk.injEq, true_and]
    omega

/-- The calls leave no more in the stack than those of them that returned `Ok` may. -/
def LeavesOnlyOk (n : NetStack) (ds : List (Dial W)) : Prop :=
  (connects codec cfg n ds).2.sockets
      ≤ n.sockets + (connects codec cfg n ds).1.countP Except.isOk
    ∧ (connects codec cfg n ds).2.bufferPairs
      ≤ n.bufferPairs + (connects codec cfg n ds).1.countP Except.isOk

theorem leavesOnlyOk_iff_allOk (n : NetStack) (ds : List (Dial W)) :
    LeavesOnlyOk codec cfg n ds ↔ ∀ d ∈ ds, (negotiate codec cfg d).isOk = true := by
  have hle := (ds.map (negotiate codec cfg)).countP_le_length (p := Except.isOk)
  have hall : (∀ d ∈ ds, (negotiate codec cfg d).isOk = true)
      ↔ (ds.map (negotiate codec cfg)).countP Except.isOk = ds.length := by
    rw [List.countP_map, List.countP_eq_length]
    rfl
  rw [List.length_map] at hle
  rw [LeavesOnlyOk, connects_eq, hall]
  simp only []
  omega

/-- A failed dial is what leaves too much: the calls leave no more than those of them that returned
`Ok` may exactly if each of them is answered. -/
theorem leavesOnlyOk_iff_answered {IsHeader : List UInt8 → Prop} {Granted : K → List UInt8 → Prop}
    (hA : ∀ key, Opening.AcceptsOnly codec key IsHeader (Granted key)) (n : NetStack)
    (ds : List (Dial W)) :
    LeavesOnlyOk codec cfg n ds ↔ ∀ d ∈ ds, Dial.Answered codec cfg IsHeader Granted d := by
  rw [leavesOnlyOk_iff_allOk]
  exact forall₂_congr fun d _ => negotiate_isOk_iff codec cfg hA d

/-- The sizes of `ConnectConfig::new`. -/
def dialConfig : ConnectConfig := ⟨"csms", "/ocpp/CP001", "ocpp1.6", 2048, 4096⟩

/-- A dial that is answered by the header and the first byte of a frame. -/
def answered : Dial Unit := ⟨.ok (), (), .ok 0, .ok (), [switchingHeader ++ [129]], .ok ()⟩

/-- A dial that the peer refuses. -/
def refused : Dial Unit := { answered with connect := .error "ConnectionReset" }

theorem answered_answered : Dial.Answered (headerCodec switchingHeader) dialConfig
    (· = switchingHeader) (Grants switchingHeader) answered where
  connect := rfl
  write := ⟨0, rfl⟩
  flush := rfl
  header := by
    refine ⟨openingRequest dialConfig.options, openingKey, switchingHeader,
      headerCodec_connect _ ?_, rfl, ⟨rfl, rfl⟩, ?_, ?_⟩
    · simp only [openingRequest, dialConfig, ConnectConfig.options, asciiBytes, List.length_map,
        String.length_toList, String.length_append, Option.elim_some, Option.elim_none]
      decide
    · rw [answered, Opening.arriving_cons (by simp), List.append_assoc]
      exact List.prefix_append ..
    · rw [length_switchingHeader]
      decide

theorem leavesOnlyOk_of_answered :
    LeavesOnlyOk (headerCodec switchingHeader) dialConfig ⟨0, 0⟩ [answered, answered] := by
  refine (leavesOnlyOk_iff_answered _ _ (headerCodec_accepts switchingHeader_ne_nil) _ _).2 ?_
  simp only [List.mem_cons, List.not_mem_nil, or_false, or_self, forall_eq, answered_answered]

/-- Three refused dials leave three sockets with their buffers, and no call returned `Ok`. -/
theorem refused_leaves :
    (connects (headerCodec switchingHeader) dialConfig ⟨0, 0⟩ [refused, refused, refused]).2
        = ⟨3, 3⟩
      ∧ (connects (headerCodec switchingHeader) dialConfig ⟨0, 0⟩
        [refused, refused, refused]).1.countP Except.isOk = 0
      ∧ ¬ LeavesOnlyOk (headerCodec switchingHeader) dialConfig ⟨0, 0⟩
        [refused, refused, refused] := by
  refine ⟨rfl, rfl, fun h => ?_⟩
  have hle : 3 ≤ 0 := h.1
  omega

end OcppClient
