import OcppClient.Lib.Custody
import OcppClient.Proofs.Asks

/-!
# Replies

A CALL received is a job in custody: in the read loop's hand, in the queue of a channel, with the
callback that runs, with the task that writes the answer, until its answer is handed to a sink or it
is lost. Each place gives it away when it hands it on, so a CALL is answered once at most, and the
answer is the one its own callback produced, or the refusal it met on the way.
-/

namespace OcppClient

open Transition

variable {E R : Type}

/-! ## Answers -/

/-- `j` is the CALL whose callback `ch` began last. -/
def LastRan (log : List (ServiceNote E)) (ch : ChanId) (j : Job) : Prop :=
  ∃ pre post, log = pre ++ .ran ch j :: post ∧ ∀ j', .ran ch j' ∉ post

section Answer

variable [ProtocolError E] (env : Env R)

/-- An answer to `j`: what its own callback produced, or that its payload cannot be decoded, or that
its action has no handler. -/
inductive Answer (log : List (ServiceNote E)) (j : Job) : Except E (Except JsonError Value) → Prop
  | produced {ch : ChanId} {pre post : List (ServiceNote E)} {r : Except E (Except JsonError Value)}
    (hl : log = pre ++ .produced ch j.messageId r :: post) (hr : LastRan pre ch j) : Answer log j r
  | misread {e : JsonError} (hd : env.decodeRequest j.action j.payload = .error e) :
    Answer log j (OcppClient.misread j.action)
  | refused (hn : .unregistered j ∈ log) : Answer log j (refusal j)

/-- `frame` is an answer to `j`, under the message id of `j`. -/
def Reply (log : List (ServiceNote E)) (frame : String) (j : Job) : Prop :=
  ∃ r, Answer env log j r ∧ responseFrame env j.messageId r = some frame

end Answer

section Grows

variable {log notes : List (ServiceNote E)}

theorem LastRan.append {ch : ChanId} {j : Job} (h : LastRan log ch j)
    (hn : ∀ j', .ran ch j' ∉ notes) : LastRan (log ++ notes) ch j := by
  obtain ⟨pre, post, rfl, hp⟩ := h
  refine ⟨pre, post ++ notes, by simp, fun j' hj => ?_⟩
  exact (List.mem_append.1 hj).elim (hp j') (hn j')

variable [ProtocolError E] {env : Env R}

theorem Answer.append {j : Job} {r : Except E (Except JsonError Value)} (h : Answer env log j r) :
    Answer env (log ++ notes) j r := by
  cases h with
  | @produced ch pre post r hl hr =>
    have hl' : log ++ notes = pre ++ .produced ch j.messageId r :: (post ++ notes) := by
      rw [hl, List.append_assoc, List.cons_append]
    exact .produced hl' hr
  | misread hd => exact .misread hd
  | refused hn => exact .refused (List.mem_append_left _ hn)

theorem Reply.append {frame : String} {j : Job} (h : Reply env log frame j) :
    Reply env (log ++ notes) frame j := by
  obtain ⟨r, hr, hf⟩ := h
  exact ⟨r, hr.append, hf⟩

end Grows

/-! ## Places -/

inductive Place
  | hand
  | queue (ch : ChanId)
  | running (ch : ChanId)
  | refusing
  | writing (ch : ChanId)
  | done
  | lost
  deriving DecidableEq

/-- How far a CALL has come at a place. -/
def Place.rank : Place → ℕ
  | .hand => 0
  | .queue _ => 1
  | .running _ => 2
  | .refusing | .writing _ => 3
  | .done => 4
  | .lost => 5

/-- What the client has at a place. -/
inductive Slot
  | empty
  | call (j : Job)
  | route (ch : ChanId) (messageId : String) (payload : Value)
  | queue (ch : ChanId) (items : List (String × Value))
  | running (ch : ChanId) (messageId : String)
  | writing (frame : String)
  | done (frames : List String)
  | lost

def Hand.slot : Hand → Slot
  | .call j => .call j
  | .route ch messageId payload => .route ch messageId payload
  | _ => .empty

def Hand.refusalSlot : Hand → Slot
  | .refuse frame => .writing frame
  | _ => .empty

def Work.runSlot (ch : ChanId) : Work → Slot
  | .running messageId => .running ch messageId
  | _ => .empty

def Work.writeSlot : Work → Slot
  | .writing frame => .writing frame
  | _ => .empty

def ServiceView.slot (v : ServiceView) : Place → Slot
  | .hand => v.hand.slot
  | .refusing => v.hand.refusalSlot
  | .queue ch => .queue ch (v.queue ch)
  | .running ch => (v.work ch).runSlot ch
  | .writing ch => (v.work ch).writeSlot
  | .done => .done v.replies
  | .lost => .lost

/-- `ch` is, or was, the channel of `action`. -/
def Fits (g : ChanId → Registration) (ch : ChanId) (action : String) : Prop :=
  g ch = .opened action ∨ g ch = .over

section Fits

variable {g : ChanId → Registration} {ch c : ChanId} {action a : String}

theorem Fits.register (h : Fits g c a) (hr : g ch = .fresh) :
    Fits (Function.update g ch (.opened action)) c a := by
  have hne : c ≠ ch := by
    rintro rfl
    rcases h with h | h <;> rw [hr] at h <;> cases h
  unfold Fits
  rwa [Function.update_of_ne hne]

theorem Fits.leave (h : Fits g c a) : Fits (Function.update g ch .over) c a := by
  rcases eq_or_ne c ch with rfl | hne
  · exact .inr (Function.update_self ..)
  · unfold Fits
    rwa [Function.update_of_ne hne]

theorem Fits.eq_of_opened (h : Fits g ch a) (hr : g ch = .opened action) : a = action := by
  rcases h with h | h <;> rw [hr] at h <;> cases h
  rfl

end Fits

def ServiceNote.ranJob : ServiceNote E → Option Job
  | .ran _ j => some j
  | _ => none

/-- The CALLs whose callbacks ran. -/
def ranJobs (log : List (ServiceNote E)) : List Job := log.filterMap ServiceNote.ranJob

section Ran

variable {log notes : List (ServiceNote E)}

theorem ranJobs_append : ranJobs (log ++ notes) = ranJobs log ++ ranJobs notes :=
  List.filterMap_append ..

theorem ranJobs_eq_nil (hn : ∀ ch j, .ran ch j ∉ notes) : ranJobs notes = [] := by
  refine List.filterMap_eq_nil_iff.2 fun n hm => ?_
  unfold ServiceNote.ranJob
  split
  · exact absurd hm (hn _ _)
  · rfl

end Ran

section Serves

variable [ProtocolError E] (env : Env R)

/-- The jobs at a place are what the client has there. -/
def Slot.Holds (fits : ChanId → String → Prop) (log : List (ServiceNote E)) :
    Slot → List Job → Prop
  | .empty, l => l = []
  | .call j, l => l = [j]
  | .route ch messageId payload, l => ∃ action, l = [⟨messageId, action, payload⟩] ∧ fits ch action
  | .queue ch items, l =>
    l.map (fun j => (j.messageId, j.payload)) = items ∧ ∀ j ∈ l, fits ch j.action
  | .running ch messageId, l => ∃ j, l = [j] ∧ j.messageId = messageId ∧ LastRan log ch j
  | .writing frame, l => ∃ j, l = [j] ∧ Reply env log frame j
  | .done frames, l => List.Forall₂ (Reply env log) frames l
  | .lost, _ => True

/-- The custody of the CALLs of a client. -/
structure Serves (v : ServiceView) (log : List (ServiceNote E)) (d : Custody.Desk Place Job) :
    Prop where
  held : ∀ p, (v.slot p).Holds env (Fits v.registration) log (d.held p)
  senders : ∀ action ch, v.senders action = some ch → Fits v.registration ch action
  calls : d.came 0 = v.calls
  ran : d.came 2 = ranJobs log

variable {env} {v v' : ServiceView} {log notes : List (ServiceNote E)} {d : Custody.Desk Place Job}

theorem slot_running {x : Place} {ch : ChanId} {messageId : String}
    (h : v.slot x = .running ch messageId) : x = .running ch := by
  cases x with
  | hand => cases hh : v.hand <;> simp [ServiceView.slot, Hand.slot, hh] at h
  | refusing => cases hh : v.hand <;> simp [ServiceView.slot, Hand.refusalSlot, hh] at h
  | writing c => cases hw : v.work c <;> simp [ServiceView.slot, Work.writeSlot, hw] at h
  | running c =>
    cases hw : v.work c <;> simp [ServiceView.slot, Work.runSlot, hw] at h
    rw [h.1]
  | queue | done | lost => cases h

theorem slot_hand {hand : Hand} {x : Place} (h : x ≠ .hand ∨ hand.slot = v.hand.slot)
    (hr : x ≠ .refusing ∨ hand.refusalSlot = v.hand.refusalSlot) :
    ServiceView.slot { v with hand := hand } x = v.slot x := by
  cases x with
  | hand => exact h.resolve_left (· rfl)
  | refusing => exact hr.resolve_left (· rfl)
  | _ => rfl

theorem slot_queue {ch : ChanId} {items : List (String × Value)} {x : Place} (h : x ≠ .queue ch) :
    ServiceView.slot { v with queue := Function.update v.queue ch items } x = v.slot x := by
  cases x with
  | queue c =>
    have hne : c ≠ ch := fun he => h (he ▸ rfl)
    exact congrArg (Slot.queue c) (Function.update_of_ne hne ..)
  | _ => rfl

theorem slot_work {ch : ChanId} {w : Work} {x : Place}
    (hr : x ≠ .running ch ∨ w.runSlot ch = (v.work ch).runSlot ch)
    (hw : x ≠ .writing ch ∨ w.writeSlot = (v.work ch).writeSlot) :
    ServiceView.slot { v with work := Function.update v.work ch w } x = v.slot x := by
  cases x with
  | running c =>
    by_cases hc : c = ch
    · subst hc
      simpa [ServiceView.slot] using hr
    · simp only [ServiceView.slot, Function.update_of_ne hc]
  | writing c =>
    by_cases hc : c = ch
    · subst hc
      simpa [ServiceView.slot] using hw
    · simp only [ServiceView.slot, Function.update_of_ne hc]
  | _ => rfl

theorem slot_replies {frames : List String} {x : Place} (h : x ≠ .done) :
    ServiceView.slot { v with replies := frames } x = v.slot x := by
  cases x with
  | done => exact absurd rfl h
  | _ => rfl

theorem Slot.Holds.append {fits fits' : ChanId → String → Prop} {slot : Slot} {l : List Job}
    (h : slot.Holds env fits log l) (hf : ∀ ch action, fits ch action → fits' ch action)
    (hn : ∀ ch messageId, slot = .running ch messageId → ∀ j, .ran ch j ∉ notes) :
    slot.Holds env fits' (log ++ notes) l := by
  cases slot with
  | empty | call | lost => exact h
  | route ch messageId payload =>
    obtain ⟨action, hl, ha⟩ := h
    exact ⟨action, hl, hf ch action ha⟩
  | queue ch items => exact ⟨h.1, fun j hj => hf ch j.action (h.2 j hj)⟩
  | running ch messageId =>
    obtain ⟨j, hl, hm, hr⟩ := h
    exact ⟨j, hl, hm, hr.append (hn ch messageId rfl)⟩
  | writing frame =>
    obtain ⟨j, hl, hr⟩ := h
    exact ⟨j, hl, hr.append⟩
  | done frames => exact h.imp fun _ _ hr => hr.append

/-- The CALLs stay where they are. -/
theorem Serves.keep (h : Serves env v log d) (hx : ∀ x, v'.slot x = v.slot x)
    (hf : ∀ ch action, Fits v.registration ch action → Fits v'.registration ch action)
    (hs : ∀ action ch, v'.senders action = some ch → Fits v'.registration ch action)
    (hc : v'.calls = v.calls) (hn : ∀ ch j, .ran ch j ∉ notes) :
    Serves env v' (log ++ notes) d where
  held x := hx x ▸ (h.held x).append hf fun ch _ _ => hn ch
  senders := hs
  calls := h.calls.trans hc.symm
  ran := by rw [ranJobs_append, ranJobs_eq_nil hn, List.append_nil, h.ran]

/-- The first CALL at `p` goes to `q`, where its callback begins if one does. -/
theorem Serves.move (h : Serves env v log d)
    (hd : Machine.Reach (Custody.machine Place.rank) Machine.Any d) {p q : Place} {j : Job}
    {rest : List Job} (hp : d.held p = j :: rest) (hpq : p.rank < q.rank)
    (hs : v'.senders = v.senders) (hg : v'.registration = v.registration)
    (hc : v'.calls = v.calls) (hran : ranJobs notes = if q.rank = 2 then [j] else [])
    (hn : ∀ ch j, .ran ch j ∈ notes → q = .running ch)
    (hp' : (v'.slot p).Holds env (Fits v.registration) (log ++ notes) rest)
    (hq' : (v'.slot q).Holds env (Fits v.registration) (log ++ notes) (d.held q ++ [j]))
    (hx : ∀ x, x ≠ p → x ≠ q → v'.slot x = v.slot x) :
    ∃ d', Machine.Reach (Custody.machine Place.rank) Machine.Any d'
      ∧ Serves env v' (log ++ notes) d' := by
  have hne : p ≠ q := by
    rintro rfl
    exact Nat.lt_irrefl _ hpq
  refine ⟨(d.take p rest).put Place.rank q j, .step hd (a := .move p q) trivial ?_, fun x => ?_, ?_,
    ?_, ?_⟩
  · simp only [Custody.machine, Custody.step, hp, if_pos hpq]
  · rw [hg]
    by_cases hxq : x = q
    · subst hxq
      rwa [Custody.held_put_self, Custody.held_take_of_ne hne.symm]
    rw [Custody.held_put_of_ne hxq]
    by_cases hxp : x = p
    · subst hxp
      rwa [Custody.held_take_self]
    rw [Custody.held_take_of_ne hxp, hx x hxp hxq]
    refine (h.held x).append (fun _ _ => id) fun ch m hsl j hj => ?_
    exact hxq ((slot_running hsl).trans (hn ch j hj).symm)
  · rw [hs, hg]
    exact h.senders
  · rw [Custody.came_put_of_ne (by omega), Custody.came_take, h.calls, hc]
  · rw [ranJobs_append, hran, ← h.ran]
    split_ifs with hq
    · rw [← hq, Custody.came_put_self]
      rfl
    · rw [Custody.came_put_of_ne (Ne.symm hq), List.append_nil]
      rfl

theorem Serves.done_append (h : Serves env v log d) {frame : String} {j : Job}
    (hr : Reply env log frame j) :
    List.Forall₂ (Reply env (log ++ [])) (v.replies ++ [frame]) (d.held .done ++ [j]) := by
  rw [List.append_nil]
  exact List.rel_append (h.held .done) (.cons hr .nil)

/-- The CALL first in a queue, of the action its channel is open for. -/
theorem Serves.head (h : Serves env v log d) {ch : ChanId} {messageId : String} {payload : Value}
    {rest : List (String × Value)} (hq : v.queue ch = (messageId, payload) :: rest) :
    ∃ action l, d.held (.queue ch) = ⟨messageId, action, payload⟩ :: l
      ∧ Fits v.registration ch action ∧ l.map (fun j => (j.messageId, j.payload)) = rest
      ∧ ∀ j ∈ l, Fits v.registration ch j.action := by
  obtain ⟨hm, hf⟩ : (d.held (.queue ch)).map (fun j => (j.messageId, j.payload)) = v.queue ch
    ∧ ∀ j ∈ d.held (.queue ch), Fits v.registration ch j.action := h.held (.queue ch)
  rw [hq] at hm
  cases hd : d.held (.queue ch) with
  | nil =>
    rw [hd] at hm
    cases hm
  | cons j l =>
    rw [hd, List.map_cons, List.cons.injEq, Prod.mk.injEq] at hm
    rw [hd] at hf
    obtain ⟨⟨rfl, rfl⟩, hl⟩ := hm
    exact ⟨j.action, l, rfl, hf j (List.mem_cons_self ..), hl,
      fun x hx => hf x (List.mem_cons_of_mem _ hx)⟩

theorem Serves.step (h : Serves env v log d)
    (hd : Machine.Reach (Custody.machine Place.rank) Machine.Any d)
    (hs : ServiceStep env v v' notes) :
    ∃ d', Machine.Reach (Custody.machine Place.rank) Machine.Any d'
      ∧ Serves env v' (log ++ notes) d' := by
  cases hs with
  | rest hn =>
    refine ⟨d, hd, h.keep (fun _ => rfl) (fun _ _ => id) h.senders rfl fun ch j hj => ?_⟩
    cases hn _ hj
  | @register ch action hr =>
    refine ⟨d, hd, h.keep (fun _ => rfl) (fun _ _ hf => hf.register hr) (fun a c hc => ?_) rfl
      (by simp)⟩
    replace hc : Function.update v.senders action (some ch) a = some c := hc
    rcases eq_or_ne a action with rfl | ha
    · rw [Function.update_self] at hc
      cases hc
      exact .inl (Function.update_self ..)
    · rw [Function.update_of_ne ha] at hc
      exact (h.senders a c hc).register hr
  | leave hs =>
    exact ⟨d, hd, h.keep (fun _ => rfl) (fun _ _ hf => hf.leave)
      (fun a c hc => (h.senders a c (hs a c hc)).leave) rfl (by simp)⟩
  | @receive j hh =>
    have hp := h.held .hand
    simp only [ServiceView.slot, hh, Hand.slot, Slot.Holds] at hp
    refine ⟨d.put Place.rank .hand j, .step hd (a := .create .hand j) trivial rfl, fun x => ?_,
      h.senders, ?_, ?_⟩
    · by_cases hx : x = .hand
      · subst hx
        rw [Custody.held_put_self, hp]
        rfl
      · have hsl :
            ServiceView.slot { v with hand := .call j, calls := v.calls ++ [j] } x = v.slot x :=
          slot_hand (v := v) (.inl hx) (.inr (by rw [hh]; rfl))
        rw [Custody.held_put_of_ne hx, hsl]
        exact (h.held x).append (fun _ _ => id) (by simp)
    · exact Custody.came_put_self.trans (congrArg (· ++ [j]) h.calls)
    · rw [Custody.came_put_of_ne (by decide), h.ran, List.append_nil]
  | @route j ch hh hs =>
    have hp := h.held .hand
    simp only [ServiceView.slot, hh, Hand.slot, Slot.Holds] at hp
    refine ⟨d, hd, fun x => ?_, h.senders, h.calls, by rw [h.ran, List.append_nil]⟩
    by_cases hx : x = .hand
    · subst hx
      exact ⟨j.action, hp, h.senders _ _ hs⟩
    · rw [slot_hand (.inl hx) (.inr (by rw [hh]; rfl))]
      exact (h.held x).append (fun _ _ => id) (by simp)
  | @refuse j frame hh hf =>
    have hp := h.held .hand
    have hq := h.held .refusing
    simp only [ServiceView.slot, hh, Hand.slot, Hand.refusalSlot, Slot.Holds] at hp hq
    refine h.move hd hp (q := .refusing) (by decide) rfl rfl rfl rfl (by simp) rfl ?_
      fun x hxp hxq => slot_hand (.inl hxp) (.inl hxq)
    rw [hq]
    exact ⟨j, rfl, refusal j, .refused (by simp), hf⟩
  | @drop j hh =>
    have hp := h.held .hand
    simp only [ServiceView.slot, hh, Hand.slot, Slot.Holds] at hp
    exact h.move hd hp (q := .lost) (by decide) rfl rfl rfl rfl (by simp) rfl trivial
      fun x hxp _ => slot_hand (.inl hxp) (.inr (by rw [hh]; rfl))
  | @push ch messageId payload hh =>
    have hp := h.held .hand
    simp only [ServiceView.slot, hh, Hand.slot, Slot.Holds] at hp
    obtain ⟨action, hp, hfit⟩ := hp
    obtain ⟨hq, hfits⟩ : (d.held (.queue ch)).map (fun j => (j.messageId, j.payload)) = v.queue ch
      ∧ ∀ j ∈ d.held (.queue ch), Fits v.registration ch j.action := h.held (.queue ch)
    refine h.move hd hp (q := .queue ch) (by simp [Place.rank]) rfl rfl rfl rfl (by simp) rfl
      ⟨?_, fun j hj => ?_⟩ fun x hxp hxq =>
        (slot_queue hxq).trans (slot_hand (.inl hxp) (.inr (by rw [hh]; rfl)))
    · rw [List.map_append, hq]
      exact (Function.update_self ch (v.queue ch ++ [(messageId, payload)]) v.queue).symm
    · rcases List.mem_append.1 hj with hj | hj
      · exact hfits j hj
      · rwa [List.mem_singleton.1 hj]
  | @sendRefusal frame hh =>
    have hp := h.held .refusing
    simp only [ServiceView.slot, hh, Hand.refusalSlot, Slot.Holds] at hp
    obtain ⟨j, hp, hr⟩ := hp
    refine h.move hd hp (q := .done) (by decide) rfl rfl rfl rfl (by simp) rfl ?_
      fun x hxp hxq => (slot_replies hxq).trans (slot_hand (.inr (by rw [hh]; rfl)) (.inl hxp))
    exact h.done_append hr
  | @take ch action messageId payload rest hq hr hw =>
    obtain ⟨a, l, hp, hfit, hl, hfits⟩ := h.head hq
    obtain rfl := hfit.eq_of_opened hr
    have hrun := h.held (.running ch)
    simp only [ServiceView.slot, hw, Work.runSlot, Slot.Holds] at hrun
    refine h.move hd hp (q := .running ch) (by simp [Place.rank]) rfl rfl rfl rfl (by simp)
      ⟨by simp [hl], hfits⟩ ?_ fun x hxp hxq =>
        (slot_work (.inl hxq) (.inr (by rw [hw]; rfl))).trans (slot_queue hxp)
    rw [hrun]
    simp only [ServiceView.slot, Function.update_self, Work.runSlot]
    exact ⟨_, rfl, rfl, log, [], rfl, by simp⟩
  | @misread ch action messageId frame payload rest e hq hr hw hdec hf =>
    obtain ⟨a, l, hp, hfit, hl, hfits⟩ := h.head hq
    obtain rfl := hfit.eq_of_opened hr
    have hwr := h.held (.writing ch)
    simp only [ServiceView.slot, hw, Work.writeSlot, Slot.Holds] at hwr
    refine h.move hd hp (q := .writing ch) (by simp [Place.rank]) rfl rfl rfl rfl (by simp)
      ⟨by simp [hl], hfits⟩ ?_ fun x hxp hxq =>
        (slot_work (.inr (by rw [hw]; rfl)) (.inl hxq)).trans (slot_queue hxp)
    rw [hwr]
    simp only [ServiceView.slot, Function.update_self, Work.writeSlot]
    exact ⟨_, rfl, _, .misread hdec, hf⟩
  | @discard ch messageId payload rest hq =>
    obtain ⟨a, l, hp, hfit, hl, hfits⟩ := h.head hq
    exact h.move hd hp (q := .lost) (by simp [Place.rank]) rfl rfl rfl rfl (by simp)
      ⟨by simp [hl], hfits⟩ trivial fun x hxp _ => slot_queue hxp
  | @answer ch messageId frame r hw hf =>
    obtain ⟨hp, hwr⟩ := And.intro (h.held (.running ch)) (h.held (.writing ch))
    simp only [ServiceView.slot, hw, Work.runSlot, Work.writeSlot, Slot.Holds] at hp hwr
    obtain ⟨j, hp, rfl, hl⟩ := hp
    refine h.move hd hp (q := .writing ch) (by simp [Place.rank]) rfl rfl rfl rfl (by simp) ?_ ?_
      fun x hxp hxq => slot_work (.inl hxp) (.inl hxq)
    · simp [ServiceView.slot, Work.runSlot, Slot.Holds]
    · rw [hwr]
      simp only [ServiceView.slot, Function.update_self, Work.writeSlot]
      exact ⟨j, rfl, r, .produced rfl hl, hf⟩
  | @silence ch messageId r hw =>
    have hp := h.held (.running ch)
    simp only [ServiceView.slot, hw, Work.runSlot, Slot.Holds] at hp
    obtain ⟨j, hp, -, -⟩ := hp
    refine h.move hd hp (q := .lost) (by simp [Place.rank]) rfl rfl rfl rfl (by simp) ?_ trivial
      fun x hxp _ => slot_work (.inl hxp) (.inr (by rw [hw]; rfl))
    simp [ServiceView.slot, Work.runSlot, Slot.Holds]
  | @send ch frame hw =>
    have hp := h.held (.writing ch)
    simp only [ServiceView.slot, hw, Work.writeSlot, Slot.Holds] at hp
    obtain ⟨j, hp, hr⟩ := hp
    refine h.move hd hp (q := .done) (by simp [Place.rank]) rfl rfl rfl rfl (by simp) ?_
      (h.done_append hr) fun x hxp hxq =>
        (slot_replies hxq).trans (slot_work (.inr (by rw [hw]; rfl)) (.inl hxp))
    simp [ServiceView.slot, Work.writeSlot, Slot.Holds]

end Serves

/-! ## The custody of a client -/

section Client

variable [ProtocolError E] (env : Env R) (cfg : ClientConfig)

theorem serves_of_reach {P : State E R × List (ServiceNote E) → Act E → Prop}
    {s : State E R × List (ServiceNote E)}
    (h : Machine.Reach ((client env cfg).observed (serviceNotes env)) P s) :
    ∃ d, Machine.Reach (Custody.machine Place.rank) Machine.Any d
      ∧ Serves env (s.1.serviceView env) s.2 d := by
  refine h.forward (r := fun s d => Serves env (s.1.serviceView env) s.2 d) ?_
    fun s a s' d hr _ hs hd hI => ?_
  · refine ⟨fun x => ?_, nofun, rfl, rfl⟩
    cases x with
    | queue ch => exact ⟨rfl, by simp [Custody.machine]⟩
    | done => exact .nil
    | lost => trivial
    | hand | refusing => rfl
    | running ch | writing ch => cases ch <;> rfl
  · obtain ⟨hs, hl⟩ := Machine.observed_step hs
    rw [hl]
    have hreach : Machine.Reach (client env cfg) Machine.Any s.1 :=
      hr.unobserved fun _ _ _ => trivial
    have hS : Spawned s.1 := spawned_of_reach env cfg hreach
    exact hI.step hd (serviceStep_of_step env cfg hS hs)

variable {env cfg}

/-- The replies are those to some of the CALLs received, each once. -/
theorem replied_of_reach {P : State E R × List (ServiceNote E) → Act E → Prop}
    {s : State E R × List (ServiceNote E)}
    (h : Machine.Reach ((client env cfg).observed (serviceNotes env)) P s) :
    ∃ js : List Job, js.Subperm (jobs env s.1.hist)
      ∧ List.Forall₂ (Reply env s.2) (replies s.1.hist) js := by
  obtain ⟨d, hd, hS⟩ := serves_of_reach env cfg h
  have hdone := Custody.held_subperm hd .done
  rw [hS.calls] at hdone
  exact ⟨d.held .done, hdone, hS.held .done⟩

/-- A callback runs for a CALL received, once at most. -/
theorem ran_of_reach {P : State E R × List (ServiceNote E) → Act E → Prop}
    {s : State E R × List (ServiceNote E)}
    (h : Machine.Reach ((client env cfg).observed (serviceNotes env)) P s) :
    (ranJobs s.2).Subperm (jobs env s.1.hist) := by
  obtain ⟨d, hd, hS⟩ := serves_of_reach env cfg h
  have hran := Custody.came_subperm hd 2
  rw [hS.calls, hS.ran] at hran
  exact hran

end Client

end OcppClient
