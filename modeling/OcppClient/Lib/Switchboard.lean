import Mathlib.Data.List.Forall2
import Mathlib.Data.List.ReduceOption
import Mathlib.Logic.Function.Basic

/-!
# Switchboards

Messages come in one at a time, each on a topic. The one in hand is looked up in a table of
channels, is turned away where its topic has none, and is else put last into the queue of the
channel found, from which the channel's reader takes the messages in order. The table may change at
any time, also between the look-up and the queue. The log keeps the entries of the table, what
became of each message and what was taken. Nothing is lost, doubled or overtaken on the way: `Kept`
says so in two equations, one for the messages looked up and one for each channel. `Work` says the
same of a reader, from what it takes to what it writes.
-/

namespace Switchboard

variable {T κ N : Type*}

/-- What is in hand: nothing, a message on a topic, or a message on its way to a channel. -/
inductive Hand (T κ N : Type*)
  | free
  | held (t : T) (n : N)
  | bound (ch : κ) (n : N)

/-- A channel may be entered for a topic once, until then it is not `used`. -/
structure Board (T κ N : Type*) where
  senders : T → Option κ
  used : κ → Bool
  hand : Hand T κ N
  queue : κ → List N
  came : List (T × N)

inductive Note (T κ N : Type*)
  | entered (ch : κ) (t : T)
  | routed (ch : Option κ) (t : T) (n : N)
  | taken (ch : κ) (n : N)

/-- The message in hand that was not looked up yet. -/
def Hand.waiting : Hand T κ N → List (T × N)
  | .held t n => [(t, n)]
  | _ => []

def Note.route : Note T κ N → Option (Option κ × T × N)
  | .routed ch t n => some (ch, t, n)
  | .entered _ _ | .taken _ _ => none

/-- The messages looked up, and where each of them went. -/
def routes (log : List (Note T κ N)) : List (Option κ × T × N) := log.filterMap Note.route

def Note.turnedAway : Note T κ N → Option (T × N)
  | .routed none t n => some (t, n)
  | .routed (some _) _ _ | .entered _ _ | .taken _ _ => none

/-- The messages whose topic had no channel. -/
def turnedAway (log : List (Note T κ N)) : List (T × N) := log.filterMap Note.turnedAway

variable [DecidableEq κ]

/-- The message in hand that is on its way to `ch`. -/
def Hand.boundTo (ch : κ) : Hand T κ N → List N
  | .bound c n => if c = ch then [n] else []
  | _ => []

def Note.routedTo (ch : κ) : Note T κ N → Option N
  | .routed c _ n => if c = some ch then some n else none
  | .entered _ _ | .taken _ _ => none

def Note.takenFrom (ch : κ) : Note T κ N → Option N
  | .taken c n => if c = ch then some n else none
  | .entered _ _ | .routed _ _ _ => none

/-- The messages that were sent to `ch`. -/
def routedTo (ch : κ) (log : List (Note T κ N)) : List N := log.filterMap (Note.routedTo ch)

/-- The messages that the reader of `ch` has taken. -/
def takenFrom (ch : κ) (log : List (Note T κ N)) : List N := log.filterMap (Note.takenFrom ch)

structure Kept (b : Board T κ N) (log : List (Note T κ N)) : Prop where
  /-- Every message has gone one way, or is in hand, in the order in which they came. -/
  came : (routes log).map Prod.snd ++ b.hand.waiting = b.came
  /-- What was sent to a channel was taken from it, or is in its queue, or on its way there. -/
  fifo : ∀ ch, routedTo ch log = takenFrom ch log ++ b.queue ch ++ b.hand.boundTo ch
  /-- A channel is sent messages on its own topic. -/
  topics : ∀ ch t n, .routed (some ch) t n ∈ log → .entered ch t ∈ log
  once : ∀ ch t t', .entered ch t ∈ log → .entered ch t' ∈ log → t = t'
  used : ∀ ch t, .entered ch t ∈ log → b.used ch = true
  senders : ∀ t ch, b.senders t = some ch → .entered ch t ∈ log

variable {b b' : Board T κ N} {log notes : List (Note T κ N)}

section Log

variable {ch : κ}

omit [DecidableEq κ] in
theorem routes_append : routes (log ++ notes) = routes log ++ routes notes :=
  List.filterMap_append ..

theorem routedTo_append : routedTo ch (log ++ notes) = routedTo ch log ++ routedTo ch notes :=
  List.filterMap_append ..

theorem takenFrom_append : takenFrom ch (log ++ notes) = takenFrom ch log ++ takenFrom ch notes :=
  List.filterMap_append ..

end Log

theorem Kept.init (hs : ∀ t, b.senders t = none) (hh : b.hand = .free)
    (hq : ∀ ch, b.queue ch = []) (hc : b.came = []) : Kept b [] := by
  refine ⟨by rw [hh, hc]; rfl, fun ch => by rw [hh, hq]; rfl, by simp, by simp, by simp,
    fun t ch h => ?_⟩
  rw [hs] at h
  cases h

/-- A channel that was not entered yet was sent nothing. -/
theorem Kept.routedTo_eq_nil (h : Kept b log) {ch : κ} (hu : b.used ch = false) :
    routedTo ch log = [] := by
  refine List.filterMap_eq_nil_iff.2 fun note hm => ?_
  cases note with
  | entered | taken => rfl
  | routed c t n =>
    refine if_neg fun hc => ?_
    subst hc
    rw [h.used ch t (h.topics ch t n hm)] at hu
    cases hu

theorem Kept.takenFrom_eq_nil (h : Kept b log) {ch : κ} (hu : b.used ch = false) :
    takenFrom ch log = [] := by
  have hf := h.fifo ch
  rw [h.routedTo_eq_nil hu, List.append_assoc] at hf
  exact (List.append_eq_nil_iff.1 hf.symm).1

/-! ## Steps -/

variable [DecidableEq T]

inductive Step (b : Board T κ N) : Board T κ N → List (Note T κ N) → Prop
  | rest : Step b b []
  | register {t : T} {ch : κ} (hf : b.used ch = false) :
    Step b
      { b with
        senders := Function.update b.senders t (some ch)
        used := Function.update b.used ch true } [.entered ch t]
  | withdraw {senders : T → Option κ} (hs : ∀ t ch, senders t = some ch → b.senders t = some ch) :
    Step b { b with senders := senders } []
  | come {t : T} {n : N} (hh : b.hand = .free) :
    Step b { b with hand := .held t n, came := b.came ++ [(t, n)] } []
  | turnAway {t : T} {n : N} (hh : b.hand = .held t n) (hs : b.senders t = none) :
    Step b { b with hand := .free } [.routed none t n]
  | bind {t : T} {n : N} {ch : κ} (hh : b.hand = .held t n) (hs : b.senders t = some ch) :
    Step b { b with hand := .bound ch n } [.routed (some ch) t n]
  | push {ch : κ} {n : N} (hh : b.hand = .bound ch n) :
    Step b
      { b with hand := .free, queue := Function.update b.queue ch (b.queue ch ++ [n]) } []
  | take {ch : κ} {n : N} {rest : List N} (hq : b.queue ch = n :: rest) :
    Step b { b with queue := Function.update b.queue ch rest } [.taken ch n]

omit [DecidableEq T] in
/-- Notes that enter no channel, for a board with the same table. -/
theorem Kept.note (h : Kept b log) (hn : ∀ ch t, .entered ch t ∉ notes)
    (ht : ∀ ch t n, .routed (some ch) t n ∈ notes → .entered ch t ∈ log)
    (hs : b'.senders = b.senders) (hu : b'.used = b.used)
    (hc : (routes (log ++ notes)).map Prod.snd ++ b'.hand.waiting = b'.came)
    (hf : ∀ ch, routedTo ch (log ++ notes)
      = takenFrom ch (log ++ notes) ++ b'.queue ch ++ b'.hand.boundTo ch) :
    Kept b' (log ++ notes) := by
  have hold : ∀ ch t, .entered ch t ∈ log ++ notes → .entered ch t ∈ log := fun ch t he =>
    (List.mem_append.1 he).resolve_right (hn ch t)
  refine ⟨hc, hf, fun ch t n hr => List.mem_append_left _ ?_,
    fun ch t t' he he' => h.once ch t t' (hold _ _ he) (hold _ _ he'),
    fun ch t he => hu ▸ h.used ch t (hold _ _ he),
    fun t ch he => List.mem_append_left _ (h.senders t ch (hs ▸ he))⟩
  rcases List.mem_append.1 hr with hr | hr
  · exact h.topics ch t n hr
  · exact ht ch t n hr

theorem Kept.register (h : Kept b log) {t : T} {ch : κ} (hf : b.used ch = false) :
    Kept
      { b with
        senders := Function.update b.senders t (some ch)
        used := Function.update b.used ch true } (log ++ [.entered ch t]) := by
  have hnew : ∀ t', .entered ch t' ∉ log := fun t' he => by
    rw [h.used ch t' he] at hf
    cases hf
  have hcases : ∀ {c t'}, .entered c t' ∈ log ++ [.entered ch t] →
      .entered c t' ∈ log ∨ c = ch ∧ t' = t := fun he =>
    (List.mem_append.1 he).imp_right fun he => by simpa using he
  have hr : routes (log ++ [.entered ch t]) = routes log := by simp [routes, Note.route]
  refine ⟨by rw [hr]; exact h.came, fun c => ?_, fun c t' n hm => ?_, fun c t₁ t₂ h₁ h₂ => ?_,
    fun c t' he => ?_, fun t' c hc => ?_⟩
  · rw [routedTo_append, takenFrom_append, h.fifo c]
    simp [routedTo, takenFrom, Note.routedTo, Note.takenFrom, List.filterMap_cons]
  · exact List.mem_append_left _ (h.topics c t' n (by simpa using hm))
  · rcases hcases h₁ with g₁ | ⟨rfl, rfl⟩ <;> rcases hcases h₂ with g₂ | ⟨hc, rfl⟩
    · exact h.once c t₁ t₂ g₁ g₂
    · exact absurd (hc ▸ g₁) (hnew t₁)
    · exact absurd g₂ (hnew t₂)
    · rfl
  · rcases hcases he with g | ⟨rfl, -⟩
    · have hne : c ≠ ch := by
        rintro rfl
        exact hnew t' g
      exact (Function.update_of_ne hne _ _).trans (h.used c t' g)
    · exact Function.update_self ..
  · replace hc : Function.update b.senders t (some ch) t' = some c := hc
    rcases eq_or_ne t' t with rfl | hne
    · rw [Function.update_self] at hc
      cases hc
      simp
    · rw [Function.update_of_ne hne] at hc
      exact List.mem_append_left _ (h.senders t' c hc)

theorem Kept.step (h : Kept b log) (hs : Step b b' notes) : Kept b' (log ++ notes) := by
  have hcame := h.came
  have hfifo := h.fifo
  cases hs with
  | rest => rwa [List.append_nil]
  | register hf => exact h.register hf
  | withdraw hw =>
    rw [List.append_nil]
    exact ⟨h.came, h.fifo, h.topics, h.once, h.used, fun t ch hc => h.senders t ch (hw t ch hc)⟩
  | come hh =>
    simp only [hh, Hand.waiting, Hand.boundTo, List.append_nil] at hcame hfifo
    refine h.note (by simp) (by simp) rfl rfl (by simp [Hand.waiting, hcame]) fun ch => ?_
    simp only [List.append_nil, Hand.boundTo]
    exact hfifo ch
  | @turnAway t n hh _ =>
    simp only [hh, Hand.waiting, Hand.boundTo, List.append_nil] at hcame hfifo
    refine h.note (by simp) (by simp) rfl rfl ?_ fun ch => ?_
    · rw [routes_append]
      simpa [Hand.waiting, routes, Note.route] using hcame
    · rw [routedTo_append, takenFrom_append, hfifo ch]
      simp [routedTo, takenFrom, Note.routedTo, Note.takenFrom, Hand.boundTo]
  | @bind t n c hh hc =>
    simp only [hh, Hand.waiting, Hand.boundTo, List.append_nil] at hcame hfifo
    refine h.note (by simp) (fun ch t' n' hr => ?_) rfl rfl ?_ fun ch => ?_
    · simp only [List.mem_singleton, Note.routed.injEq, Option.some.injEq] at hr
      obtain ⟨rfl, rfl, -⟩ := hr
      exact h.senders _ _ hc
    · rw [routes_append]
      simpa [Hand.waiting, routes, Note.route] using hcame
    · rw [routedTo_append, takenFrom_append, hfifo ch]
      by_cases hch : c = ch <;>
        simp [routedTo, takenFrom, Note.routedTo, Note.takenFrom, Hand.boundTo, hch]
  | @push c n hh =>
    simp only [hh, Hand.waiting, Hand.boundTo, List.append_nil] at hcame hfifo
    refine h.note (by simp) (by simp) rfl rfl (by simpa [Hand.waiting] using hcame) fun ch => ?_
    rw [List.append_nil, hfifo ch]
    by_cases hch : ch = c
    · simp [Hand.boundTo, hch]
    · simp [Hand.boundTo, hch, Ne.symm hch]
  | @take c n rest hq =>
    refine h.note (by simp) (by simp) rfl rfl ?_ fun ch => ?_
    · have hr : routes [(.taken c n : Note T κ N)] = [] := rfl
      rw [routes_append, hr, List.append_nil]
      exact hcame
    · rw [routedTo_append, takenFrom_append, hfifo ch]
      by_cases hch : ch = c
      · simp [routedTo, takenFrom, Note.routedTo, Note.takenFrom, hch, hq]
      · simp [routedTo, takenFrom, Note.routedTo, Note.takenFrom, hch, Ne.symm hch]

/-! ## Readers

A reader answers what it takes one at a time, and writes what there is to write of an answer before
it takes the next.
-/

section Reader

variable {A W : Type*} {out : N → A → Option W} {ok : N → A → Prop} {n : N} {r : A} {w : W}
  {running taken : List N} {unwritten written : List W} {answers : List A}

/-- All that was taken is answered, in order, but what is running; and what was written are the
answers, in the same order, but what is still to be written. -/
def Work (out : N → A → Option W) (ok : N → A → Prop) (running : List N) (unwritten : List W)
    (taken : List N) (answers : List A) (written : List W) : Prop :=
  ∃ done, taken = done ++ running ∧ List.Forall₂ ok done answers
    ∧ written ++ unwritten = (List.zipWith out done answers).reduceOption

theorem Work.init : Work out ok [] [] [] [] [] := ⟨[], rfl, .nil, rfl⟩

theorem Work.mono {ok' : N → A → Prop} (h : Work out ok running unwritten taken answers written)
    (hok : ∀ n r, ok n r → ok' n r) : Work out ok' running unwritten taken answers written := by
  obtain ⟨done, ht, hd, hw⟩ := h
  exact ⟨done, ht, hd.imp hok, hw⟩

theorem Work.take (h : Work out ok [] unwritten taken answers written) :
    Work out ok [n] unwritten (taken ++ [n]) answers written := by
  obtain ⟨done, rfl, hd, hw⟩ := h
  exact ⟨done, by simp, hd, hw⟩

theorem Work.answer (h : Work out ok [n] [] taken answers written) (hok : ok n r) :
    Work out ok [] (out n r).toList taken (answers ++ [r]) written := by
  obtain ⟨done, rfl, hd, hw⟩ := h
  refine ⟨done ++ [n], by simp, List.rel_append hd (.cons hok .nil), ?_⟩
  rw [List.zipWith_append hd.length_eq, List.reduceOption_append, ← hw, List.append_nil]
  cases ho : out n r <;> simp [ho]

theorem Work.write (h : Work out ok running [w] taken answers written) :
    Work out ok running [] taken answers (written ++ [w]) := by
  obtain ⟨done, ht, hd, hw⟩ := h
  exact ⟨done, ht, hd, by simpa using hw⟩

/-- A reader that has taken nothing has done nothing. -/
theorem Work.nil (h : Work out ok running unwritten [] answers written) :
    running = [] ∧ answers = [] ∧ unwritten = [] ∧ written = [] := by
  obtain ⟨done, ht, hd, hw⟩ := h
  obtain ⟨rfl, rfl⟩ := List.append_eq_nil_iff.1 ht.symm
  cases hd
  obtain ⟨rfl, rfl⟩ := List.append_eq_nil_iff.1 hw
  exact ⟨rfl, rfl, rfl, rfl⟩

end Reader

end Switchboard
