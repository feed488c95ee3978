import OcppClient.Lib.History
import OcppClient.Proofs.HandlerQueues

/-!
# Registries and the readers of their channels

A `Desk` is a registry as its registrants use it: each brings a channel of its own, is entered in
the table, closing the channel it replaces, and may take its entry out again if it is still there;
each channel has one reader. The log keeps the entries made and taken out. However these steps are
mixed, a channel in the table is open, one that another entry replaced is closed, and a reader that
waits on a closed channel is woken (`DeskInv`).
-/

namespace OcppClient

open History

/-- A channel has not been registered, is held for an action, or was taken out by its registrant. -/
inductive Standing
  | fresh
  | holds (action : String)
  | over

inductive Reader
  | away
  | waiting
  | left

structure Desk (κ T : Type) where
  registry : Registry κ T
  standing : κ → Standing
  reader : κ → Reader

/-- An entry of the table made, or taken out. -/
inductive DeskEvent (κ : Type)
  | registered (action : String) (ch : κ)
  | removed (action : String) (ch : κ)
  deriving DecidableEq

def DeskEvent.action {κ : Type} : DeskEvent κ → String
  | .registered action _ => action
  | .removed action _ => action

section Log

variable {κ : Type}

/-- The last thing that happened to the entry of `action` is that `ch` was registered. -/
def Current (log : List (DeskEvent κ)) (action : String) (ch : κ) : Prop :=
  ∃ pre post, log = pre ++ .registered action ch :: post ∧ ∀ f ∈ post, f.action ≠ action

/-- The next thing that happened to the entry of `action` after `ch` was registered is that another
channel was. -/
def Superseded (log : List (DeskEvent κ)) (action : String) (ch : κ) : Prop :=
  ∃ pre mid ch' post, log = pre ++ .registered action ch :: mid ++ .registered action ch' :: post
    ∧ ∀ f ∈ mid, f.action ≠ action

theorem Current.snoc {log : List (DeskEvent κ)} {action : String} {ch : κ} {f : DeskEvent κ}
    (h : Current (log ++ [f]) action ch) :
    f = .registered action ch ∨ f.action ≠ action ∧ Current log action ch := by
  obtain ⟨pre, post, he, hpost⟩ := h
  rcases split_snoc he with ⟨rfl, rfl, rfl⟩ | ⟨post', rfl, rfl⟩
  · exact .inl rfl
  · exact .inr ⟨hpost f (by simp), pre, post', rfl, fun g hg => hpost g (by simp [hg])⟩

theorem Current.last (log : List (DeskEvent κ)) (action : String) (ch : κ) :
    Current (log ++ [.registered action ch]) action ch :=
  ⟨log, [], rfl, nofun⟩

theorem Current.of_ne {log : List (DeskEvent κ)} {action : String} {ch : κ} {f : DeskEvent κ}
    (h : Current log action ch) (hf : f.action ≠ action) : Current (log ++ [f]) action ch := by
  obtain ⟨pre, post, rfl, hpost⟩ := h
  refine ⟨pre, post ++ [f], by simp, fun g hg => ?_⟩
  rcases List.mem_append.1 hg with hg | hg
  · exact hpost g hg
  · exact List.mem_singleton.1 hg ▸ hf

theorem Superseded.snoc {log : List (DeskEvent κ)} {action : String} {ch : κ} {f : DeskEvent κ}
    (h : Superseded (log ++ [f]) action ch) :
    Superseded log action ch ∨ (∃ ch', f = .registered action ch') ∧ Current log action ch := by
  obtain ⟨pre, mid, ch', post, he, hmid⟩ := h
  rcases split_snoc he with ⟨hpre, hf, -⟩ | ⟨post', -, hlog⟩
  · exact .inr ⟨⟨ch', hf.symm⟩, pre, mid, hpre.symm, hmid⟩
  · exact .inl ⟨pre, mid, ch', post', hlog, hmid⟩

end Log

variable {κ T : Type} [DecidableEq κ]

/-! ## Steps -/

/-- What a step can do to a desk, and what it adds to the log. -/
inductive DeskStep (d : Desk κ T) : Desk κ T → List (DeskEvent κ) → Prop
  | rest : DeskStep d d []
  | register {action : String} {ch : κ} (hf : d.standing ch = .fresh) :
    DeskStep d
      ⟨d.registry.insert action ch, Function.update d.standing ch (.holds action),
        Function.update d.reader ch .away⟩ [.registered action ch]
  | send {ch : κ} {v : T} :
    DeskStep d { d with registry := d.registry.modify ch fun c => c.send v } []
  | take {ch : κ} {v : T} {rest : Chan T} (hl : d.reader ch ≠ .left)
    (hr : (d.registry.chans ch).recv = .value v rest) :
    DeskStep d
      { d with
        registry := d.registry.modify ch fun _ => rest
        reader := Function.update d.reader ch .away } []
  | waits {ch : κ} (hl : d.reader ch ≠ .left) (hr : (d.registry.chans ch).recv = .wait) :
    DeskStep d { d with reader := Function.update d.reader ch .waiting } []
  | wakes {ch : κ} (hl : d.reader ch ≠ .left) :
    DeskStep d
      { d with
        registry := d.registry.modify ch .take
        reader := Function.update d.reader ch .away } []
  | leaves {ch : κ} (hr : (d.registry.chans ch).recv = .none) :
    DeskStep d { d with reader := Function.update d.reader ch .left } []
  | works {ch : κ} (hl : d.reader ch ≠ .left) :
    DeskStep d { d with reader := Function.update d.reader ch .away } []
  | unregister {action : String} {ch : κ} (hs : d.standing ch = .holds action) :
    DeskStep d
      { d with
        registry := d.registry.removeOwn action ch
        standing := Function.update d.standing ch .over }
      (if d.registry.senders action = some ch then [.removed action ch] else [])

/-! ## The invariant -/

structure DeskInv (d : Desk κ T) (log : List (DeskEvent κ)) : Prop where
  opened : ∀ action ch, d.registry.senders action = some ch → (d.registry.chans ch).closed = false
  owner : ∀ action ch, d.registry.senders action = some ch → d.standing ch = .holds action
  held : ∀ action ch, d.standing ch = .holds action → d.registry.senders action = some ch
    ∨ (d.registry.chans ch).closed = true
  fresh : ∀ ch, d.standing ch = .fresh → (d.registry.chans ch).closed = false
  current : ∀ action ch, d.registry.senders action = some ch ↔ Current log action ch
  superseded : ∀ action ch, Superseded log action ch → (d.registry.chans ch).closed = true
  waiting : ∀ ch, d.reader ch = .waiting → (d.registry.chans ch).closed = true →
    (d.registry.chans ch).signal = true
  left : ∀ ch, d.reader ch = .left → (d.registry.chans ch).closed = true

variable {d d' : Desk κ T} {log notes : List (DeskEvent κ)}

omit [DecidableEq κ] in
theorem DeskInv.new {standing : κ → Standing} {reader : κ → Reader}
    (hs : ∀ ch, standing ch = .fresh) (hr : ∀ ch, reader ch = .away) :
    DeskInv (⟨.new, standing, reader⟩ : Desk κ T) [] := by
  refine ⟨nofun, nofun, fun _ ch h => ?_, fun _ _ => rfl, fun _ _ => ⟨nofun, fun h => ?_⟩,
    fun _ _ h => ?_, fun ch h => ?_, fun ch h => ?_⟩
  · cases (hs ch).symm.trans h
  · obtain ⟨pre, post, he, -⟩ := h
    simp at he
  · obtain ⟨pre, mid, ch', post, he, -⟩ := h
    simp at he
  · cases (hr ch).symm.trans h
  · cases (hr ch).symm.trans h

/-- The reader of `ch` moves, and its channel changes but for the closed flag. -/
theorem DeskInv.read (hI : DeskInv d log) (ch : κ) (f : Chan T → Chan T) (r : Reader)
    (hf : (f (d.registry.chans ch)).closed = (d.registry.chans ch).closed)
    (hw : r = .waiting → (d.registry.chans ch).closed = true →
      (f (d.registry.chans ch)).signal = true)
    (hl : r = .left → (d.registry.chans ch).closed = true) :
    DeskInv { d with
      registry := d.registry.modify ch f, reader := Function.update d.reader ch r } log := by
  have hc : ∀ x, ((d.registry.modify ch f).chans x).closed = (d.registry.chans x).closed :=
    Registry.modify_closed hf
  refine ⟨fun action x hx => ?_, hI.owner, fun action x hx => ?_, fun x hx => ?_, hI.current,
    fun action x hx => ?_, fun x hx hcl => ?_, fun x hx => ?_⟩
  · rw [hc]; exact hI.opened action x hx
  · rw [hc]; exact hI.held action x hx
  · rw [hc]; exact hI.fresh x hx
  · rw [hc]; exact hI.superseded action x hx
  · rw [hc] at hcl
    simp only [Registry.modify_chans]
    rcases eq_or_ne x ch with rfl | hne
    · rw [if_pos rfl]
      exact hw (by simpa using hx) hcl
    · rw [if_neg hne]
      exact hI.waiting x (by simpa [hne] using hx) hcl
  · rw [hc]
    rcases eq_or_ne x ch with rfl | hne
    · exact hl (by simpa using hx)
    · exact hI.left x (by simpa [hne] using hx)

theorem DeskInv.setReader (hI : DeskInv d log) {ch : κ} {r : Reader}
    (hw : r = .waiting → (d.registry.chans ch).closed = false)
    (hl : r = .left → (d.registry.chans ch).closed = true) :
    DeskInv { d with reader := Function.update d.reader ch r } log := by
  have h := hI.read ch id r rfl
    (fun hr hc => absurd hc (by simp [hw hr])) hl
  simpa [Registry.modify] using h

/-- An entry is made: the channel it replaces is closed, and its reader woken. -/
theorem DeskInv.register (hI : DeskInv d log) {action : String} {ch : κ}
    (hf : d.standing ch = .fresh) :
    DeskInv ⟨d.registry.insert action ch, Function.update d.standing ch (.holds action),
      Function.update d.reader ch .away⟩ (log ++ [.registered action ch]) := by
  have hne : ∀ {a x}, d.registry.senders a = some x → x ≠ ch := by
    rintro a x hx rfl
    cases (hI.owner a x hx).symm.trans hf
  refine ⟨fun a x hx => ?_, fun a x hx => ?_, fun a x hx => ?_, fun x hx => ?_, fun a x => ?_,
    fun a x hx => ?_, fun x hx hc => ?_, fun x hx => ?_⟩
  · rcases eq_or_ne a action with rfl | ha
    · obtain rfl : ch = x := by simpa [Registry.insert_senders] using hx
      rw [Registry.insert_closed fun h => hne h rfl]
      exact hI.fresh ch hf
    · have hx' : d.registry.senders a = some x := by simpa [Registry.insert_senders, ha] using hx
      rw [Registry.insert_closed fun h => ?_]
      · exact hI.opened a x hx'
      · cases (hI.owner a x hx').symm.trans (hI.owner action x h)
        exact ha rfl
  · rcases eq_or_ne a action with rfl | ha
    · obtain rfl : ch = x := by simpa [Registry.insert_senders] using hx
      simp
    · have hx' : d.registry.senders a = some x := by simpa [Registry.insert_senders, ha] using hx
      simpa [hne hx'] using hI.owner a x hx'
  · rcases eq_or_ne x ch with rfl | hx'
    · obtain rfl : action = a := by simpa using hx
      exact .inl (by simp [Registry.insert_senders])
    · rcases hI.held a x (by simpa [hx'] using hx) with hs | hc
      · rcases eq_or_ne a action with rfl | ha
        · refine .inr ?_
          rw [Registry.insert_chans, if_pos hs]
          rfl
        · exact .inl (by simpa [Registry.insert_senders, ha] using hs)
      · exact .inr (Registry.closed_insert_of_closed hc)
  · have hx' : x ≠ ch := by
      rintro rfl
      simp at hx
    have hfr : d.standing x = .fresh := by simpa [hx'] using hx
    rw [Registry.insert_closed fun h => ?_]
    · exact hI.fresh x hfr
    · cases (hI.owner action x h).symm.trans hfr
  · rcases eq_or_ne a action with rfl | ha
    · simp only [Registry.insert_senders, Function.update_self, Option.some.injEq]
      refine ⟨fun h => h ▸ .last log a ch, fun h => ?_⟩
      rcases h.snoc with he | ⟨hne, -⟩
      · cases he
        rfl
      · exact absurd rfl hne
    · simp only [Registry.insert_senders, Function.update_of_ne ha, hI.current]
      refine ⟨fun h => h.of_ne ha.symm, fun h => ?_⟩
      rcases h.snoc with he | ⟨-, h⟩
      · cases he
        exact absurd rfl ha
      · exact h
  · rcases hx.snoc with hx | ⟨⟨ch', he⟩, hx⟩
    · exact Registry.closed_insert_of_closed (hI.superseded a x hx)
    · cases he
      rw [Registry.insert_chans, if_pos ((hI.current _ x).2 hx)]
      rfl
  · have hx' : x ≠ ch := by
      rintro rfl
      simp at hx
    rw [Registry.insert_chans] at hc ⊢
    split_ifs at hc ⊢
    · rfl
    · exact hI.waiting x (by simpa [hx'] using hx) hc
  · have hx' : x ≠ ch := by
      rintro rfl
      simp at hx
    exact Registry.closed_insert_of_closed (hI.left x (by simpa [hx'] using hx))

/-- The channel of a registrant that leaves is not in the table. -/
theorem DeskInv.retire (hI : DeskInv d log) {ch : κ} (hn : ∀ a, d.registry.senders a ≠ some ch) :
    DeskInv { d with standing := Function.update d.standing ch .over } log := by
  refine ⟨hI.opened, fun a x hx => ?_, fun a x hx => ?_, fun x hx => ?_, hI.current, hI.superseded,
    hI.waiting, hI.left⟩
  · have hne : x ≠ ch := fun h => hn a (h ▸ hx)
    simpa [hne] using hI.owner a x hx
  · have hne : x ≠ ch := by
      rintro rfl
      simp at hx
    exact hI.held a x (by simpa [hne] using hx)
  · have hne : x ≠ ch := by
      rintro rfl
      simp at hx
    exact hI.fresh x (by simpa [hne] using hx)

/-- A registrant takes its own entry out. -/
theorem DeskInv.remove (hI : DeskInv d log) {action : String} {ch : κ}
    (hown : d.registry.senders action = some ch) :
    DeskInv { d with
      registry := { d.registry with senders := Function.update d.registry.senders action none }
      standing := Function.update d.standing ch .over } (log ++ [.removed action ch]) := by
  have hs : ∀ {a x}, Function.update d.registry.senders action none a = some x →
      a ≠ action ∧ d.registry.senders a = some x ∧ x ≠ ch := by
    intro a x hx
    have ha : a ≠ action := by
      rintro rfl
      simp at hx
    have hx' : d.registry.senders a = some x := by simpa [ha] using hx
    refine ⟨ha, hx', ?_⟩
    rintro rfl
    cases (hI.owner _ _ hx').symm.trans (hI.owner _ _ hown)
    exact ha rfl
  refine ⟨fun a x hx => hI.opened a x (hs hx).2.1, fun a x hx => ?_, fun a x hx => ?_,
    fun x hx => ?_, fun a x => ⟨fun hx => ?_, fun hx => ?_⟩, fun a x hx => ?_, hI.waiting, hI.left⟩
  · simpa [(hs hx).2.2] using hI.owner a x (hs hx).2.1
  · have hne : x ≠ ch := by
      rintro rfl
      simp at hx
    refine (hI.held a x (by simpa [hne] using hx)).imp_left fun h => ?_
    have ha : a ≠ action := by
      rintro rfl
      exact hne (Option.some.inj (h.symm.trans hown))
    simpa [ha] using h
  · have hne : x ≠ ch := by
      rintro rfl
      simp at hx
    exact hI.fresh x (by simpa [hne] using hx)
  · exact ((hI.current a x).1 (hs hx).2.1).of_ne (hs hx).1.symm
  · rcases hx.snoc with he | ⟨ha, hx⟩
    · cases he
    · have ha' : a ≠ action := fun h => ha h.symm
      simpa [ha'] using (hI.current a x).2 hx
  · rcases hx.snoc with hx | ⟨⟨ch', he⟩, -⟩
    · exact hI.superseded a x hx
    · cases he

theorem DeskInv.unregister (hI : DeskInv d log) {action : String} {ch : κ}
    (hs : d.standing ch = .holds action) :
    DeskInv { d with
      registry := d.registry.removeOwn action ch
      standing := Function.update d.standing ch .over }
      (log ++ if d.registry.senders action = some ch then [.removed action ch] else []) := by
  unfold Registry.removeOwn
  split_ifs with hown
  · exact hI.remove hown
  · rw [List.append_nil]
    refine hI.retire fun a ha => ?_
    cases (hI.owner a ch ha).symm.trans hs
    exact hown ha

theorem DeskInv.step (hI : DeskInv d log) (h : DeskStep d d' notes) :
    DeskInv d' (log ++ notes) := by
  cases h with
  | register hf => exact hI.register hf
  | unregister hs => exact hI.unregister hs
  | rest => rwa [List.append_nil]
  | @send ch v =>
    rw [List.append_nil]
    have h := hI.read ch (fun c => c.send v) (d.reader ch) rfl (fun _ _ => rfl) (hI.left ch)
    rwa [Function.update_eq_self] at h
  | take _ hr =>
    rw [List.append_nil]
    exact hI.read _ _ _ (Chan.recv_value hr) nofun nofun
  | waits _ hr =>
    rw [List.append_nil]
    exact hI.setReader (fun _ => (Chan.recv_wait hr).1) nofun
  | wakes =>
    rw [List.append_nil]
    exact hI.read _ _ _ rfl nofun nofun
  | leaves hr =>
    rw [List.append_nil]
    exact hI.setReader nofun fun _ => (Chan.recv_none hr).1
  | works =>
    rw [List.append_nil]
    exact hI.setReader nofun nofun

/-! ## What it gives -/

/-- The table holds for each action the channel registered last and not taken out, which is open;
the channels that were replaced are closed; and of those held for an action at most one is open. -/
structure Desk.Kept (d : Desk κ T) (log : List (DeskEvent κ)) : Prop where
  entry : ∀ action ch, d.registry.senders action = some ch ↔ Current log action ch
  opened : ∀ action ch, d.registry.senders action = some ch → (d.registry.chans ch).closed = false
  superseded : ∀ action ch, Superseded log action ch → (d.registry.chans ch).closed = true
  single : ∀ action ch ch', d.standing ch = .holds action → d.standing ch' = .holds action →
    (d.registry.chans ch).closed = false → (d.registry.chans ch').closed = false → ch = ch'

omit [DecidableEq κ] in
theorem DeskInv.kept (hI : DeskInv d log) : d.Kept log := by
  refine ⟨hI.current, hI.opened, hI.superseded, fun action ch ch' h h' ho ho' => ?_⟩
  have hs := (hI.held action ch h).resolve_right (by simp [ho])
  have hs' := (hI.held action ch' h').resolve_right (by simp [ho'])
  exact Option.some.inj (hs.symm.trans hs')

end OcppClient
