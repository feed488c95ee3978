import OcppClient.Lib.Correlation
import OcppClient.Lib.WebSocket
import OcppClient.Proofs.PingLog

/-!
# Pings and their pongs

`pong_waiters` and the slots of the pings are a correlation table too, keyed by the token a ping
draws from a counter and carries as its payload. While the counter does not wrap the tokens are
distinct, and a ping that was written returns `Ok` exactly when a pong with its own bytes was
handled while its waiter was in the table and before its deadline.
-/

namespace OcppClient

open Transition History

variable {E R : Type}

/-! ## Tokens and their bytes -/

theorem toBeBytes_eq (t : Token) : toBeBytes t = WebSocket.beBytes 8 t.toNat := by
  simp [toBeBytes, WebSocket.beBytes, List.range_succ, Nat.div_div_eq_div_mul]

theorem fromBeBytes_toBeBytes (t : Token) : fromBeBytes (toBeBytes t) = some t := by
  have hv : WebSocket.ofBeBytes (WebSocket.beBytes 8 t.toNat) = t.toNat :=
    WebSocket.ofBeBytes_beBytes t.toNat_lt
  rw [toBeBytes_eq, fromBeBytes, if_pos (WebSocket.length_beBytes 8 _)]
  exact congrArg some ((congrArg UInt64.ofNat hv).trans (UInt64.ofNat_toNat))

/-- A payload of eight bytes is the one of the token it is read as. -/
theorem toBeBytes_of_fromBeBytes {payload : List UInt8} {t : Token}
    (h : fromBeBytes payload = some t) : payload = toBeBytes t := by
  unfold fromBeBytes at h
  split_ifs at h with hl
  have ht : t = UInt64.ofNat (WebSocket.ofBeBytes payload) := (Option.some.inj h).symm
  have hlt : WebSocket.ofBeBytes payload < 2 ^ 64 := by
    have := WebSocket.ofBeBytes_lt payload
    rwa [hl] at this
  rw [toBeBytes_eq, ht, UInt64.toNat_ofNat', Nat.mod_eq_of_lt hlt, ← hl,
    WebSocket.beBytes_ofBeBytes]

/-! ## The notes of one ping -/

def PingNote.about : PingNote → Option PingId
  | .registered p _ | .issued p _ | .written p _ | .failed p _ | .answered p | .expired p
  | .forgot p _ => some p
  | .received _ _ | .handled _ | .cleared _ => none

def ownNotes (p : PingId) (log : List PingNote) : List PingNote :=
  log.filter fun n => n.about = some p

theorem mem_ownNotes {p : PingId} {log : List PingNote} {n : PingNote} (h : n ∈ log)
    (hn : n.about = some p) : n ∈ ownNotes p log :=
  List.mem_filter.2 ⟨h, by simpa using hn⟩

theorem ownNotes_append (p : PingId) (log notes : List PingNote) :
    ownNotes p (log ++ notes) = ownNotes p log ++ ownNotes p notes :=
  List.filter_append _ _

theorem mem_of_ownNotes {p : PingId} {log : List PingNote} {n : PingNote}
    (h : n ∈ ownNotes p log) : n ∈ log :=
  (List.mem_filter.1 h).1

/-- What the log says of a ping that stands at `pc`, with `k` the sink installed. -/
inductive Story (k : SinkId) (p : PingId) : PingPc E → List PingNote → Prop
  | idle : Story k p .idle []
  | lockWaiters (d : Duration) : Story k p (.lockWaiters d) []
  | closed : Story k p (.returned (.error .closed)) []
  | lockSink (t : Token) (d : Duration) : Story k p (.lockSink t d) [.registered p t]
  | sending (t : Token) (d : Duration) :
    Story k p (.sending t d) [.registered p t, .issued p k]
  | waiting (t : Token) (d : Duration) (j : SinkId) :
    Story k p (.waiting t d) [.registered p t, .issued p j, .written p j]
  | failing (t : Token) (e : TransportError) (j : SinkId) :
    Story k p (.forget t (.transport e)) [.registered p t, .issued p j, .failed p e]
  | expiring (t : Token) (j : SinkId) :
    Story k p (.forget t .timeout) [.registered p t, .issued p j, .written p j, .expired p]
  | answered (t : Token) (j : SinkId) :
    Story k p (.returned (.ok ())) [.registered p t, .issued p j, .written p j, .answered p]
  | failed (t : Token) (e : TransportError) (j : SinkId) :
    Story k p (.returned (.error (.transport e)))
      [.registered p t, .issued p j, .failed p e, .forgot p t]
  | expired (t : Token) (j : SinkId) :
    Story k p (.returned (.error .timeout))
      [.registered p t, .issued p j, .written p j, .expired p, .forgot p t]
  | dropped (notes : List PingNote) : Story k p .dropped notes

/-- The log tells of every ping where it stands. -/
def Told (v : PingView E) (log : List PingNote) : Prop :=
  ∀ p, Story v.sink p (v.pings p) (ownNotes p log)

variable {v v' : PingView E} {log notes : List PingNote}

theorem Told.note (hT : Told v log) {p : PingId} {pc : PingPc E} {n : PingNote}
    (hn : n.about = some p) (hp : v'.pings = Function.update v.pings p pc) (hk : v'.sink = v.sink)
    (hs : ∀ own, Story v.sink p (v.pings p) own → Story v.sink p pc (own ++ [n])) :
    Told v' (log ++ [n]) := by
  intro q
  rw [hp, hk, ownNotes_append]
  by_cases hq : q = p
  · subst hq
    have ho : ownNotes q [n] = [n] := by simp [ownNotes, hn]
    rw [Function.update_self, ho]
    exact hs _ (hT q)
  · have ho : ownNotes q [n] = [] := by simpa [ownNotes, hn] using Ne.symm hq
    rw [Function.update_of_ne hq, ho, List.append_nil]
    exact hT q

/-- One ping moves without a note. -/
theorem Told.move (hT : Told v log) {p : PingId} {pc : PingPc E}
    (hp : v'.pings = Function.update v.pings p pc) (hk : v'.sink = v.sink)
    (hs : ∀ own, Story v.sink p (v.pings p) own → Story v.sink p pc own) :
    Told v' (log ++ []) := by
  intro q
  rw [hp, hk, List.append_nil]
  by_cases hq : q = p
  · subst hq
    rw [Function.update_self]
    exact hs _ (hT q)
  · rw [Function.update_of_ne hq]
    exact hT q

/-- A step of the loop at a sink that stays. -/
theorem Told.keep (hT : Told v log) (hp : v'.pings = v.pings) (hk : v'.sink = v.sink)
    (hn : ∀ q, ownNotes q notes = []) : Told v' (log ++ notes) := by
  intro q
  rw [hp, hk, ownNotes_append, hn q, List.append_nil]
  exact hT q

theorem Story.sink {k : SinkId} {p : PingId} {pc : PingPc E} {own : List PingNote}
    (h : Story k p pc own) (hs : ∀ t d, pc ≠ .sending t d) (j : SinkId) : Story j p pc own := by
  cases h with
  | sending t d => exact absurd rfl (hs t d)
  | idle => exact .idle
  | lockWaiters d => exact .lockWaiters d
  | closed => exact .closed
  | lockSink t d => exact .lockSink t d
  | waiting t d i => exact .waiting t d i
  | failing t e i => exact .failing t e i
  | expiring t i => exact .expiring t i
  | answered t i => exact .answered t i
  | failed t e i => exact .failed t e i
  | expired t i => exact .expired t i
  | dropped => exact .dropped _

theorem told_step (h : PingStep v v' notes) (hT : Told v log) : Told v' (log ++ notes) := by
  cases h with
  | refuse hp =>
    refine hT.move rfl rfl fun own ho => ?_
    rw [hp] at ho
    cases ho
    exact .closed
  | begin d hp =>
    refine hT.move rfl rfl fun own ho => ?_
    rw [hp] at ho
    cases ho
    exact .lockWaiters d
  | register hp =>
    refine hT.note rfl rfl rfl fun own ho => ?_
    rw [hp] at ho
    cases ho
    exact .lockSink _ _
  | issue hp =>
    refine hT.note rfl rfl rfl fun own ho => ?_
    rw [hp] at ho
    cases ho
    exact .sending _ _
  | write hp =>
    refine hT.note rfl rfl rfl fun own ho => ?_
    rw [hp] at ho
    cases ho
    exact .waiting _ _ _
  | fail e hp =>
    refine hT.note rfl rfl rfl fun own ho => ?_
    rw [hp] at ho
    cases ho
    exact .failing _ _ _
  | answer hp _ =>
    refine hT.note rfl rfl rfl fun own ho => ?_
    rw [hp] at ho
    cases ho
    exact .answered _ _
  | expire hp _ =>
    refine hT.note rfl rfl rfl fun own ho => ?_
    rw [hp] at ho
    cases ho
    exact .expiring _ _
  | forget hp =>
    refine hT.note rfl rfl rfl fun own ho => ?_
    rw [hp] at ho
    cases ho with
    | failing => exact .failed _ _ _
    | expiring => exact .expired _ _
  | drop _ _ => exact hT.move rfl rfl fun own _ => .dropped own
  | receive _ _ => exact hT.keep rfl rfl fun _ => rfl
  | ignore _ => exact hT.keep rfl rfl fun _ => rfl
  | handle _ => exact hT.keep rfl rfl fun _ => rfl
  | clear _ _ => exact hT.keep rfl rfl fun _ => rfl
  | loop _ => exact hT.keep rfl rfl fun _ => rfl
  | swap _ _ hs =>
    intro q
    rw [List.append_nil]
    exact (hT q).sink (hs q) _

/-! ## The table -/

/-- The waiter of `p` is in the table: it was registered under `token`, and since then no pong with
that token was handled, `p` did not take it out and the table was not cleared. -/
def Waits (log : List PingNote) (p : PingId) (token : Token) : Prop :=
  ∃ pre post, log = pre ++ .registered p token :: post ∧ .handled (some token) ∉ post
    ∧ .forgot p token ∉ post ∧ ∀ z, .cleared z ∉ post

def PingNote.label : PingNote → Option (Correlation.Label Token PingId Unit)
  | .registered p t => some (.register p t)
  | .handled (some t) => some (.resolve t ())
  | .forgot p t => some (.forget p t)
  | .answered p => some (.take p ())
  | .cleared _ => some .clear
  | _ => none

theorem waits_iff_live {log : List PingNote} {p : PingId} {token : Token} :
    Waits log p token ↔ Correlation.Live (log.filterMap PingNote.label) p token := by
  constructor
  · rintro ⟨pre, post, rfl, h₁, h₂, h₃⟩
    refine ⟨pre.filterMap PingNote.label, post.filterMap PingNote.label, by
      simp [List.filterMap_append, PingNote.label], fun _ hm => ?_, fun hm => ?_, fun hm => ?_⟩ <;>
    · obtain ⟨n, hn, hl⟩ := List.mem_filterMap.1 hm
      unfold PingNote.label at hl
      split at hl <;> simp at hl
      simp_all
  · rintro ⟨pre, post, hlog, h₁, h₂, h₃⟩
    obtain ⟨pre', n, post', rfl, -, hl, rfl⟩ := split_filterMap hlog
    have hn : n = .registered p token := by
      unfold PingNote.label at hl
      split at hl <;> simp at hl
      simp [hl]
    subst hn
    exact ⟨pre', post', rfl, fun hm => h₁ () (List.mem_filterMap.2 ⟨_, hm, rfl⟩),
      fun hm => h₂ (List.mem_filterMap.2 ⟨_, hm, rfl⟩),
      fun z hm => h₃ (List.mem_filterMap.2 ⟨_, hm, rfl⟩)⟩

/-- The table and the slots, as a correlation table. -/
def pongTable (v : PingView E) (log : List PingNote) : Correlation.Table Token PingId Unit where
  entry := v.waiters
  slot := fun p => if v.pongs p then some () else none
  log := log.filterMap PingNote.label

def PingNote.isRegistered : PingNote → Bool
  | .registered _ _ => true
  | _ => false

/-- How many pings registered. -/
def registrations (log : List PingNote) : ℕ := log.countP PingNote.isRegistered

theorem registrations_append (log notes : List PingNote) :
    registrations (log ++ notes) = registrations log + registrations notes :=
  List.countP_append

/-- The tokens are drawn in order. -/
structure Counted (v : PingView E) (log : List PingNote) : Prop where
  next : v.nextToken = UInt64.ofNat (registrations log)
  drawn : ∀ p t, .registered p t ∈ log → ∃ i < registrations log, t = UInt64.ofNat i

theorem Counted.keep (hC : Counted v log) (ht : v'.nextToken = v.nextToken)
    (hn : ∀ n ∈ notes, n.isRegistered = false) : Counted v' (log ++ notes) := by
  have h₀ : registrations notes = 0 := by
    rw [registrations, List.countP_eq_zero]
    exact fun n h => by simp [hn n h]
  refine ⟨by rw [ht, registrations_append, h₀]; exact hC.next, fun p t h => ?_⟩
  rw [registrations_append, h₀]
  rcases List.mem_append.1 h with h | h
  · exact hC.drawn p t h
  · exact absurd (hn _ h) (by simp [PingNote.isRegistered])

theorem counted_step (h : PingStep v v' notes) (hC : Counted v log) :
    Counted v' (log ++ notes) := by
  cases h with
  | @register p d hp =>
    have h₁ : registrations (log ++ [.registered p v.nextToken]) = registrations log + 1 :=
      registrations_append _ _
    refine ⟨?_, fun q t h => ?_⟩
    · rw [h₁, UInt64.ofNat_add, ← hC.next]
      rfl
    · rw [h₁]
      simp only [List.mem_append, List.mem_singleton, PingNote.registered.injEq] at h
      rcases h with h | ⟨-, rfl⟩
      · obtain ⟨i, hi, rfl⟩ := hC.drawn q t h
        exact ⟨i, Nat.lt_succ_of_lt hi, rfl⟩
      · exact ⟨_, Nat.lt_succ_self _, hC.next⟩
  | refuse _ | begin _ _ | issue _ | write _ | fail _ _ | answer _ _ | expire _ _ | forget _
  | drop _ _ | receive _ _ | ignore _ | handle _ | clear _ _ | swap _ _ _ | loop _ =>
    exact hC.keep rfl (by simp [PingNote.isRegistered])

/-- The next token is a new one, unless the counter has wrapped. -/
theorem Counted.fresh (hC : Counted v log) (hb : registrations log < 2 ^ 64) (p : PingId) :
    .registered p v.nextToken ∉ log := by
  intro h
  obtain ⟨i, hi, he⟩ := hC.drawn p _ h
  rw [hC.next] at he
  have := congrArg UInt64.toNat he
  rw [UInt64.toNat_ofNat', UInt64.toNat_ofNat', Nat.mod_eq_of_lt hb,
    Nat.mod_eq_of_lt (Nat.lt_trans hi hb)] at this
  omega

theorem mem_labels_register {p : PingId} {t : Token} :
    .register p t ∈ log.filterMap PingNote.label ↔ .registered p t ∈ log := by
  refine ⟨fun h => ?_, fun h => List.mem_filterMap.2 ⟨_, h, rfl⟩⟩
  obtain ⟨n, hn, hl⟩ := List.mem_filterMap.1 h
  unfold PingNote.label at hl
  split at hl <;> simp at hl
  simpa [hl] using hn

theorem pongTable_congr (hw : v'.waiters = v.waiters) (hp : v'.pongs = v.pongs)
    (hn : notes.filterMap PingNote.label = []) : pongTable v' (log ++ notes) = pongTable v log := by
  simp only [pongTable, hw, hp, List.filterMap_append, hn, List.append_nil]

theorem pongTable_step (h : PingStep v v' notes) (hT : Told v log) (hC : Counted v log)
    (hb : registrations (log ++ notes) ≤ 2 ^ 64) :
    pongTable v' (log ++ notes) = pongTable v log
      ∨ ∃ b, Correlation.Fresh (pongTable v log) b
        ∧ Correlation.step (pongTable v log) b = some (pongTable v' (log ++ notes)) := by
  have hlog : ∀ n b, n.label = some b →
      (log ++ [n]).filterMap PingNote.label = log.filterMap PingNote.label ++ [b] := by
    intro n b hn
    simp [List.filterMap_append, hn]
  cases h with
  | @register p d hp =>
    refine .inr ⟨.register p v.nextToken, fun c hc => ?_, ?_⟩
    · refine hC.fresh ?_ c (mem_labels_register.1 hc)
      rw [registrations_append] at hb
      exact hb
    · simp [Correlation.step, pongTable, hlog (.registered p v.nextToken) _ rfl]
  | @answer p t d hp hn =>
    refine .inr ⟨.take p (), by simp [Correlation.Fresh, pongTable, hn], ?_⟩
    simp only [Correlation.step, pongTable, hn, if_true, hlog (.answered p) _ rfl,
      Option.some.injEq, Correlation.Table.mk.injEq, true_and, and_true]
    funext q
    by_cases hq : q = p
    · subst hq
      simp
    · simp [Function.update_of_ne hq]
  | @forget p t e hp =>
    refine .inr ⟨.forget p t, mem_labels_register.2 (mem_of_ownNotes (p := p) ?_), ?_⟩
    · have hs := hT p
      rw [hp] at hs
      generalize ownNotes p log = own at hs
      cases hs <;> simp
    · simp [Correlation.step, pongTable, hlog (.forgot p t) _ rfl]
  | @handle t hz =>
    refine .inr ⟨.resolve t (), trivial, ?_⟩
    simp only [Correlation.step, pongTable, hlog (.handled (some t)) _ rfl, Option.some.injEq,
      Correlation.Table.mk.injEq, true_and, and_true]
    funext q
    rcases v.waiters t with _ | p
    · rfl
    · by_cases hq : q = p
      · subst hq
        simp [Correlation.fill, fillPong]
      · simp [Correlation.fill, fillPong, Function.update_of_ne hq]
  | @clear z _ _ =>
    exact .inr ⟨.clear, trivial, by simp [Correlation.step, pongTable, hlog (.cleared z) _ rfl]⟩
  | refuse _ | begin _ _ | issue _ | write _ | fail _ _ | expire _ _ | drop _ _ | receive _ _
  | ignore _ | swap _ _ _ | loop _ =>
    exact .inl (pongTable_congr rfl rfl rfl)

/-! ## Where a waiter in the table stands -/

/-- The token a ping under way carries. -/
def PingPc.token : PingPc E → Option Token
  | .lockSink t _ | .sending t _ | .waiting t _ | .forget t _ => some t
  | _ => none

/-- A waiter in the table is one of a ping under way whose slot is empty, or was dropped. -/
structure Filing (v : PingView E) : Prop where
  entry : ∀ t p, v.waiters t = some p →
    v.pings p = .dropped ∨ (v.pings p).token = some t ∧ v.pongs p = false
  slot : ∀ p, v.pings p = .idle ∨ (∃ d, v.pings p = .lockWaiters d) → v.pongs p = false

/-- A ping moves on with the token it has, or is dropped. -/
theorem Filing.move (hF : Filing v) {p : PingId} {pc : PingPc E}
    (hpc : pc = .dropped ∨ v.pings p ≠ .dropped ∧ pc.token = (v.pings p).token)
    (hs : pc = .idle ∨ (∃ d, pc = .lockWaiters d) → v.pongs p = false) : Filing (v.set p pc) := by
  refine ⟨fun t q hq => ?_, fun q hq => ?_⟩
  · have h := hF.entry t q hq
    by_cases hqp : q = p
    · subst hqp
      simp only [PingView.set, Function.update_self]
      rcases hpc with rfl | ⟨hd, hpc⟩
      · exact .inl rfl
      · rw [hpc]
        exact .inr (h.resolve_left hd)
    · simpa only [PingView.set, Function.update_of_ne hqp] using h
  · by_cases hqp : q = p
    · subst hqp
      simp only [PingView.set, Function.update_self] at hq
      exact hs hq
    · simp only [PingView.set, Function.update_of_ne hqp] at hq
      exact hF.slot q hq

theorem Filing.register (hF : Filing v) {p : PingId} {d : Duration}
    (hp : v.pings p = .lockWaiters d) :
    Filing
      { v with
        nextToken := v.nextToken + 1
        waiters := Function.update v.waiters v.nextToken (some p)
        pings := Function.update v.pings p (.lockSink v.nextToken d) } := by
  refine ⟨fun t q hq => ?_, fun q hq => ?_⟩
  · by_cases ht : t = v.nextToken
    · subst ht
      simp only [Function.update_self, Option.some.injEq] at hq
      subst hq
      simp only [Function.update_self]
      exact .inr ⟨rfl, hF.slot p (.inr ⟨d, hp⟩)⟩
    · simp only [Function.update_of_ne ht] at hq
      have h := hF.entry t q hq
      have hqp : q ≠ p := by
        rintro rfl
        simp [hp, PingPc.token] at h
      simpa only [Function.update_of_ne hqp] using h
  · have hqp : q ≠ p := by
      rintro rfl
      simp at hq
    simp only [Function.update_of_ne hqp] at hq
    exact hF.slot q hq

/-- A ping returns and leaves no waiter behind. -/
theorem Filing.finish (hF : Filing v) {p : PingId} {r : Except (ClientError E) Unit}
    (hp : v'.pings = Function.update v.pings p (.returned r))
    (hw : ∀ t q, v'.waiters t = some q → v.waiters t = some q ∧ q ≠ p)
    (hs : ∀ q ≠ p, v'.pongs q = v.pongs q) : Filing v' := by
  refine ⟨fun t q hq => ?_, fun q hq => ?_⟩
  · obtain ⟨hq, hqp⟩ := hw t q hq
    rw [hp, Function.update_of_ne hqp, hs q hqp]
    exact hF.entry t q hq
  · have hqp : q ≠ p := by
      rintro rfl
      simp [hp] at hq
    rw [hp, Function.update_of_ne hqp] at hq
    rw [hs q hqp]
    exact hF.slot q hq

theorem Filing.handle (hF : Filing v) (t : Token) {z : Zone} :
    Filing
      { v with
        waiters := Function.update v.waiters t none
        pongs := fillPong v.pongs (v.waiters t)
        zone := z } := by
  rcases hw : v.waiters t with _ | p
  · have hu : Function.update v.waiters t none = v.waiters := by rw [← hw, Function.update_eq_self]
    rw [hu]
    exact ⟨hF.entry, hF.slot⟩
  · have hp := hF.entry t p hw
    refine ⟨fun t' q hq => ?_, fun q hq => ?_⟩
    · have ht : t' ≠ t := by
        rintro rfl
        simp at hq
      simp only [Function.update_of_ne ht] at hq
      by_cases hqp : q = p
      · subst hqp
        rcases hF.entry t' q hq with hd | ⟨h, -⟩
        · exact .inl hd
        · rcases hp with hd | ⟨h', -⟩
          · exact .inl hd
          · exact absurd (Option.some.inj (h.symm.trans h')) ht
      · simpa only [fillPong, Function.update_of_ne hqp] using hF.entry t' q hq
    · change v.pings q = .idle ∨ ∃ d, v.pings q = .lockWaiters d at hq
      have hqp : q ≠ p := by
        rintro rfl
        rcases hq with hq | ⟨d, hq⟩ <;> simp [hq, PingPc.token] at hp
      simp only [fillPong, Function.update_of_ne hqp]
      exact hF.slot q hq

theorem filing_step (h : PingStep v v' notes) (hF : Filing v) : Filing v' := by
  cases h with
  | refuse hp => exact hF.move (.inr ⟨by simp [hp], by rw [hp]; rfl⟩) (by simp)
  | begin d hp =>
    exact hF.move (.inr ⟨by simp [hp], by rw [hp]; rfl⟩) fun _ => hF.slot _ (.inl hp)
  | register hp => exact hF.register hp
  | issue hp => exact hF.move (.inr ⟨by simp [hp], by rw [hp]; rfl⟩) (by simp)
  | write hp => exact hF.move (.inr ⟨by simp [hp], by rw [hp]; rfl⟩) (by simp)
  | fail e hp => exact hF.move (.inr ⟨by simp [hp], by rw [hp]; rfl⟩) (by simp)
  | expire hp _ => exact hF.move (.inr ⟨by simp [hp], by rw [hp]; rfl⟩) (by simp)
  | drop _ _ => exact hF.move (.inl rfl) (by simp)
  | answer hp hn =>
    refine hF.finish rfl (fun t q hq => ⟨hq, ?_⟩) fun q hq => by simp [Function.update_of_ne hq]
    rintro rfl
    rcases hF.entry t q hq with hd | ⟨-, hf⟩
    · simp [hp] at hd
    · simp [hn] at hf
  | @forget p t e hp =>
    refine hF.finish rfl (fun t' q hq => ?_) fun _ _ => rfl
    have ht : t' ≠ t := by
      rintro rfl
      simp at hq
    simp only [Function.update_of_ne ht] at hq
    refine ⟨hq, ?_⟩
    rintro rfl
    rcases hF.entry t' q hq with hd | ⟨h, -⟩
    · simp [hp] at hd
    · simp only [hp, PingPc.token, Option.some.injEq] at h
      exact ht h.symm
  | receive _ _ => exact ⟨hF.entry, hF.slot⟩
  | ignore _ => exact ⟨hF.entry, hF.slot⟩
  | handle _ => exact hF.handle _
  | clear _ _ => exact ⟨by simp, hF.slot⟩
  | swap _ _ _ => exact ⟨hF.entry, hF.slot⟩
  | loop _ => exact ⟨hF.entry, hF.slot⟩

/-! ## Pongs -/

def PingNote.isPong : PingNote → Bool
  | .received _ _ => true
  | .handled _ => true
  | _ => false

/-- The last thing the loop received is a pong with the bytes of `token`, not handled yet. -/
def PongInHand (log : List PingNote) (token : Token) : Prop :=
  ∃ pre k mid, log = pre ++ .received k (toBeBytes token) :: mid ∧ ∀ n ∈ mid, n.isPong = false

/-- A pong for `p` handled now comes while the waiter of `p` is in the table and before its deadline
won. -/
structure HitAt (log : List PingNote) (p : PingId) (token : Token) : Prop where
  pong : PongInHand log token
  waits : Waits log p token
  early : .expired p ∉ log

/-- A pong with the bytes of the token of `p` was handled while its waiter was registered and before
its deadline won. -/
def Hit (log : List PingNote) (p : PingId) : Prop :=
  ∃ pre token post, log = pre ++ .handled (some token) :: post ∧ HitAt pre p token

/-- The loop has in hand the pong it received last, and every pong it handled it had in hand. -/
structure Received (v : PingView E) (log : List PingNote) : Prop where
  hand : ∀ t, v.zone = .pong (some t) → PongInHand log t
  handled : Always (fun pre n => ∀ t, n = .handled (some t) → PongInHand pre t) log

theorem PongInHand.append {token : Token} (h : PongInHand log token)
    (hn : ∀ n ∈ notes, n.isPong = false) : PongInHand (log ++ notes) token := by
  obtain ⟨pre, k, mid, rfl, hm⟩ := h
  refine ⟨pre, k, mid ++ notes, by simp, fun n hmem => ?_⟩
  rcases List.mem_append.1 hmem with h | h
  · exact hm n h
  · exact hn n h

theorem Received.keep (hR : Received v log) (hz : v'.zone = v.zone ∨ ∀ t, v'.zone ≠ .pong t)
    (hn : ∀ n ∈ notes, n.isPong = false) : Received v' (log ++ notes) := by
  refine ⟨fun t h => ?_, hR.handled.append fun n hmem pre t ht => ?_⟩
  · rcases hz with hz | hz
    · exact (hR.hand t (hz ▸ h)).append hn
    · exact absurd h (hz _)
  · have := hn n hmem
    rw [ht] at this
    cases this

theorem received_step (h : PingStep v v' notes) (hR : Received v log) :
    Received v' (log ++ notes) := by
  cases h with
  | receive payload hz =>
    refine ⟨fun t h => ⟨log, v.sink, [], ?_, by simp⟩, hR.handled.snoc (by simp)⟩
    have hb : fromBeBytes payload = some t := by simpa using h
    rw [toBeBytes_of_fromBeBytes hb]
  | ignore hz => exact ⟨by simp, hR.handled.snoc (by simp)⟩
  | @handle t hz =>
    refine ⟨by simp, hR.handled.snoc fun t' ht => ?_⟩
    simp only [PingNote.handled.injEq, Option.some.injEq] at ht
    exact ht ▸ hR.hand t hz
  | clear _ hz' =>
    refine hR.keep (.inr fun t => ?_) (by simp [PingNote.isPong])
    rcases hz' with rfl | rfl <;> simp
  | swap _ _ _ => exact hR.keep (.inr (by simp)) (by simp)
  | loop hz =>
    refine hR.keep ?_ (by simp)
    rcases hz with rfl | ⟨-, rfl⟩
    · exact .inl rfl
    · exact .inr (by simp)
  | refuse _ | begin _ _ | register _ | issue _ | write _ | fail _ _ | answer _ _ | expire _ _
  | forget _ | drop _ _ => exact hR.keep (.inl rfl) (by simp [PingNote.isPong])

/-! ## Hits -/

/-- A ping that was hit has its slot filled or was answered, and its deadline did not win. -/
def HitInv (v : PingView E) (log : List PingNote) : Prop :=
  ∀ p, Hit log p → (v.pongs p = true ∨ .answered p ∈ log) ∧ .expired p ∉ log

theorem Hit.of_snoc {n : PingNote} {p : PingId} (h : Hit (log ++ [n]) p) :
    Hit log p ∨ ∃ t, n = .handled (some t) ∧ HitAt log p t := by
  obtain ⟨pre, t, post, he, ha⟩ := h
  rcases split_snoc he with ⟨rfl, he, -⟩ | ⟨post', -, rfl⟩
  · exact .inr ⟨t, he.symm, ha⟩
  · exact .inl ⟨pre, t, post', rfl, ha⟩

theorem HitInv.keep (hH : HitInv v log) (hp : v'.pongs = v.pongs) {n : PingNote}
    (hh : ∀ t, n ≠ .handled t) (he : ∀ p, n ≠ .expired p) : HitInv v' (log ++ [n]) := by
  intro p h
  have h := h.of_snoc.resolve_right fun ⟨t, ht, _⟩ => hh _ ht
  obtain ⟨h₁, h₂⟩ := hH p h
  rw [hp]
  refine ⟨h₁.imp_right fun h => by simp [h], ?_⟩
  simpa [h₂] using (he p).symm

theorem hitInv_step (h : PingStep v v' notes) (hT : Told v log) (hH : HitInv v log)
    (htab : Machine.Reach (Correlation.machine Token PingId Unit) Correlation.Fresh
      (pongTable v log)) : HitInv v' (log ++ notes) := by
  cases h with
  | @answer p t d hp hn =>
    intro q h
    have h := h.of_snoc.resolve_right (by simp)
    obtain ⟨h₁, h₂⟩ := hH q h
    refine ⟨?_, by simpa using h₂⟩
    by_cases hq : q = p
    · subst hq
      exact .inr (by simp)
    · exact h₁.imp (fun h => by simpa [Function.update_of_ne hq] using h) fun h => by simp [h]
  | @expire p t d hp hn =>
    intro q h
    have h := h.of_snoc.resolve_right (by simp)
    obtain ⟨h₁, h₂⟩ := hH q h
    have hq : q ≠ p := by
      -- its slot is empty and it has not been answered, so it was not hit
      rintro rfl
      have ha := h₁.resolve_left (by simp [hn])
      have hs := hT q
      rw [hp] at hs
      have hm := mem_ownNotes ha rfl
      generalize ownNotes q log = own at hs hm
      cases hs
      simp at hm
    exact ⟨h₁.imp_right fun h => by simp [h], by simp [h₂, hq]⟩
  | @handle t hz =>
    intro q h
    rcases h.of_snoc with h | ⟨t', ht, ha⟩
    · obtain ⟨h₁, h₂⟩ := hH q h
      exact ⟨h₁.imp (fillPong_of_true · _) fun h => by simp [h], by simpa using h₂⟩
    · simp only [PingNote.handled.injEq, Option.some.injEq] at ht
      subst ht
      have hw : v.waiters t = some q :=
        (Correlation.entry_iff htab).2 (waits_iff_live.1 ha.waits)
      refine ⟨.inl ?_, by simpa using ha.early⟩
      simp [hw, fillPong]
  | ignore _ =>
    intro q h
    have h := h.of_snoc.resolve_right (by simp)
    simpa using hH q h
  | refuse _ | begin _ _ | drop _ _ | swap _ _ _ | loop _ =>
    rw [List.append_nil]
    exact hH
  | register _ | issue _ | write _ | fail _ _ | forget _ | receive _ _ | clear _ _ =>
    exact hH.keep rfl (by simp) (by simp)

/-- What holds of the pings in every run. -/
structure PingInv (v : PingView E) (log : List PingNote) : Prop where
  told : Told v log
  counted : Counted v log
  filing : Filing v
  received : Received v log
  table : registrations log ≤ 2 ^ 64 →
    Machine.Reach (Correlation.machine Token PingId Unit) Correlation.Fresh (pongTable v log)
  hits : registrations log ≤ 2 ^ 64 → HitInv v log

theorem pingInv_step (h : PingStep v v' notes) (hI : PingInv v log) :
    PingInv v' (log ++ notes) := by
  have hle : registrations (log ++ notes) ≤ 2 ^ 64 → registrations log ≤ 2 ^ 64 := by
    rw [registrations_append]
    omega
  refine ⟨told_step h hI.told, counted_step h hI.counted, filing_step h hI.filing,
    received_step h hI.received, fun hb => ?_, fun hb => ?_⟩
  · have ht := hI.table (hle hb)
    rcases pongTable_step h hI.told hI.counted hb with he | ⟨b, hf, hs⟩
    · exact he ▸ ht
    · exact .step ht hf hs
  · exact hitInv_step h hI.told (hI.hits (hle hb)) (hI.table (hle hb))

theorem pingInv_new (cfg : ClientConfig) : PingInv (State.new cfg : State E R).pingView [] := by
  refine ⟨fun p => .idle, ⟨rfl, by simp⟩, ⟨by simp [State.new, State.pingView], fun _ _ => rfl⟩,
    ⟨by simp [State.new, State.pingView, ReadPc.zone], .nil⟩, fun _ => .init, fun _ p h => ?_⟩
  obtain ⟨pre, t, post, he, -⟩ := h
  simp at he

/-- A step fills at most one slot. -/
theorem PingStep.fills (h : PingStep v v' notes) {p q : PingId} (hp : v.pongs p = false)
    (hp' : v'.pongs p = true) (hq : v.pongs q = false) (hq' : v'.pongs q = true) : p = q := by
  have key : ∀ o : Option PingId, fillPong v.pongs o p = true → fillPong v.pongs o q = true →
      p = q := by
    intro o h₁ h₂
    rcases o with _ | u
    · rw [fillPong, hp] at h₁
      cases h₁
    · have : ∀ w, v.pongs w = false → fillPong v.pongs (some u) w = true → w = u := by
        intro w hw h
        by_contra hne
        simp [fillPong, Function.update_of_ne hne, hw] at h
      rw [this p hp h₁, this q hq h₂]
  cases h with
  | handle _ => exact key _ hp' hq'
  | @answer u _ _ _ _ =>
    by_cases hu : p = u
    · subst hu
      simp at hp'
    · simp [Function.update_of_ne hu, hp] at hp'
  | refuse _ | begin _ _ | register _ | issue _ | write _ | fail _ _ | expire _ _ | forget _
  | drop _ _ | receive _ _ | ignore _ | clear _ _ | swap _ _ _ | loop _ =>
    exact key none hp' hq'

variable [ProtocolError E] (env : Env R) (cfg : ClientConfig)

theorem pingInv_of_reach {P : State E R × List PingNote → Act E → Prop}
    {s : State E R × List PingNote} (h : Machine.Reach (pingClient env cfg) P s) :
    PingInv s.1.pingView s.2 :=
  ping_invariant env cfg (Q := fun _ _ => True) (fun _ _ _ => trivial) (pingInv_new cfg)
    (fun _ _ _ _ h _ hI => pingInv_step h hI) h

/-- How pings and pongs are correlated in a state of a run, with the run's log: the table holds the
waiters the log says, a ping that was written returns `Ok` if and only if a pong hit it, one whose
write failed returns that error, a handled pong hits one ping and a step fills one slot at most, the
pings under way carry different tokens, and the table is empty once none is under way. -/
structure PingCorrelation (s : State E R) (log : List PingNote) : Prop where
  waiters : ∀ p t, s.waiters t = some p ↔ Waits log p t
  answered : ∀ p r k, s.pings p = .returned r → .written p k ∈ log → (r = .ok () ↔ Hit log p)
  failed : ∀ p r e, s.pings p = .returned r → .failed p e ∈ log → r = .error (.transport e)
  hits : ∀ pre token post p q, log = pre ++ .handled (some token) :: post →
    HitAt pre p token → HitAt pre q token → p = q
  fills : ∀ a s' p q, step env cfg s a = some s' → s.pongs p = false → s'.pongs p = true →
    s.pongs q = false → s'.pongs q = true → p = q
  distinct : ∀ p q t, (s.pings p).token = some t → (s.pings q).token = some t → p = q
  empty : (∀ p, s.pings p = .idle ∨ ∃ r, s.pings p = .returned r) → ∀ t, s.waiters t = none

omit [ProtocolError E] in
theorem PingInv.answered_iff (hI : PingInv v log) (hb : registrations log < 2 ^ 64) {p : PingId}
    {r : Except (ClientError E) Unit} {k : SinkId} (hp : v.pings p = .returned r)
    (hw : .written p k ∈ log) : r = .ok () ↔ Hit log p := by
  have hs := hI.told p
  have hm := mem_ownNotes hw rfl
  have ha : ∀ n, n ∈ ownNotes p log → n ∈ log := fun n => mem_of_ownNotes
  have hm' : ∀ n, n ∈ log → n.about = some p → n ∈ ownNotes p log := fun n => mem_ownNotes
  rw [hp] at hs
  generalize ownNotes p log = own at hs hm ha hm'
  cases hs with
  | closed => simp at hm
  | failed t e j => simp at hm
  | answered t j =>
    simp only [true_iff]
    -- the value it took was put in its slot by a pong that found it in the table
    obtain ⟨t', pre, post, hlog, hl⟩ := Correlation.take_spec (hI.table (Nat.le_of_lt hb))
      (c := p) (v := ()) (List.mem_filterMap.2 ⟨.answered p, ha _ (by simp), rfl⟩)
    obtain ⟨pre', n, post', rfl, rfl, hn, -⟩ := split_filterMap hlog
    have hn' : n = .handled (some t') := by
      unfold PingNote.label at hn
      split at hn <;> simp at hn
      simp [hn]
    subst hn'
    refine ⟨pre', t', post', rfl, hI.received.handled _ _ _ rfl t' rfl, waits_iff_live.2 hl, ?_⟩
    intro he
    simpa using hm' (.expired p) (List.mem_append_left _ he) rfl
  | expired t j =>
    simp only [reduceCtorEq, false_iff]
    intro hh
    exact (hI.hits (Nat.le_of_lt hb) p hh).2 (ha _ (by simp))

theorem pingCorrelation_of_reach {s : State E R × List PingNote}
    (h : Machine.Reach (pingClient env cfg) Machine.Any s) (hb : registrations s.2 < 2 ^ 64) :
    PingCorrelation env cfg s.1 s.2 := by
  have hI := pingInv_of_reach env cfg h
  have hr : Machine.Reach (client env cfg) Machine.Any s.1 := h.unobserved fun _ _ _ => trivial
  have hreg : ∀ p t, (s.1.pings p).token = some t → .registered p t ∈ s.2 := by
    intro p t ht
    have hs := hI.told p
    change Story _ p (s.1.pings p) _ at hs
    refine mem_of_ownNotes (p := p) ?_
    generalize ownNotes p s.2 = own at hs
    generalize s.1.pings p = pc at hs ht
    cases hs <;> simp_all [PingPc.token]
  refine ⟨fun p t => ?_, fun p r k hp hw => hI.answered_iff hb hp hw, fun p r e hp he => ?_, ?_, ?_,
    ?_, ?_⟩
  · rw [waits_iff_live]
    exact Correlation.entry_iff (hI.table (Nat.le_of_lt hb))
  · have hs := hI.told p
    change Story _ p (s.1.pings p) _ at hs
    have hm := mem_ownNotes he rfl
    rw [hp] at hs
    generalize ownNotes p s.2 = own at hs hm
    cases hs <;> simp at hm
    rw [hm]
  · intro pre token post p q hlog hp hq
    have hlabels : (pongTable s.1.pingView s.2).log = pre.filterMap PingNote.label
        ++ (PingNote.handled (some token) :: post).filterMap PingNote.label := by
      rw [pongTable, hlog, List.filterMap_append]
    exact Correlation.live_unique (hI.table (Nat.le_of_lt hb)) hlabels
      (waits_iff_live.1 hp.waits) (waits_iff_live.1 hq.waits)
  · intro a s' p q hs hp hp' hq hq'
    exact (pingStep_of_step env cfg (installed_of_reach env cfg hr) (pingsHold_of_reach env cfg hr)
      (numbered_of_reach env cfg hr) hs).fills hp hp' hq hq'
  · intro p q t hp hq
    exact (Correlation.inv_of_reach (hI.table (Nat.le_of_lt hb))).unique p q t
      (mem_labels_register.2 (hreg p t hp)) (mem_labels_register.2 (hreg q t hq))
  · intro hdone t
    by_contra hw
    obtain ⟨p, hp⟩ := Option.ne_none_iff_exists'.1 hw
    rcases hI.filing.entry t p hp with hd | ⟨ht, -⟩
    · change s.1.pings p = .dropped at hd
      rcases hdone p with h | ⟨r, h⟩ <;> rw [h] at hd <;> cases hd
    · change (s.1.pings p).token = some t at ht
      rcases hdone p with h | ⟨r, h⟩ <;> rw [h] at ht <;> cases ht

/-- Two pings; the pong to the second one comes first, twice, and the first one's not at all. -/
def pongTwice : List (Act WireError) :=
  [.ping 0, .ping 1, .poll (.ping (.user 0)) .ready, .poll (.ping (.user 1)) .ready,
    .poll (.ping (.user 0)) .ready, .poll (.ping (.user 0)) (.done (.ok ())),
    .poll (.ping (.user 1)) .ready, .poll (.ping (.user 1)) (.done (.ok ())),
    .recv (some (.pong [0, 0, 0, 0, 0, 0, 0, 1])), .poll .read .ready,
    .recv (some (.pong [0, 0, 0, 0, 0, 0, 0, 1])), .poll .read .ready,
    .poll (.ping (.user 1)) .ready, .poll (.ping (.user 0)) .timer,
    .poll (.ping (.user 0)) .ready]

theorem pingCorrelation_of_pongTwice :
    ∃ s, (scenario.observed pingNotes).run (scenario.observed pingNotes).init pongTwice = some s
      ∧ s.1.pings (.user 0) = .returned (.error .timeout)
      ∧ s.1.pings (.user 1) = .returned (.ok ()) ∧ registrations s.2 = 2
      ∧ PingCorrelation scenarioEnv scenarioConfig s.1 s.2 := by
  refine ⟨_, rfl, rfl, rfl, rfl, pingCorrelation_of_reach scenarioEnv scenarioConfig
    (Machine.reach_any_of_run (M := scenario.observed pingNotes) pongTwice rfl) ?_⟩
  decide

end OcppClient
