import OcppClient.Proofs.Answering
import OcppClient.Proofs.PairRuns

/-!
# A SEND arrives once, in order

The SENDs of a client go the way of its CALLs: the read loop looks each of them up in
`notification_senders` and puts it into the queue of the handler found. Over a transport that keeps
the order, a handler therefore takes what the peer's `send_notification`s have handed over for its
action, each once and in that order: what was handed over is on the wire, or in the read loop's
hand, or has gone to a handler or to none.
-/

namespace OcppClient

open Transition Duplex

variable {E R : Type}

/-! ## The board -/

def ReadPc.noticeHand : ReadPc E → Switchboard.Hand String ℕ Value
  | .lockNotificationSenders action payload => .held action payload
  | .pushNotification ch payload => .bound ch payload
  | _ => .free

variable [ProtocolError E] (env : Env R) (cfg : ClientConfig) {s s' : State E R} {a : Act E}

variable (E) in
/-- The SEND a frame reads as. -/
def frameSend (frame : String) : Option (String × Value) :=
  match (dispatch env frame : Dispatch E) with
  | .send action payload => some (action, payload)
  | _ => none

/-- The SENDs received. -/
def sendsIn (h : List (Event E)) : List (String × Value) :=
  (h.filterMap Event.frame).filterMap (frameSend E env)

def State.noticeBoard (s : State E R) : Switchboard.Board String ℕ Value where
  senders := s.notifications.senders
  used o := (s.onNotifications o).used
  hand := s.read.noticeHand
  queue o := (s.notifications.chans o).queue
  came := sendsIn env s.hist

def State.noticeNotes (s : State E R) : Act E → List (Switchboard.Note String ℕ Value)
  | .poll .read .ready =>
    match s.read with
    | .lockNotificationSenders action payload =>
      [.routed (s.notifications.senders action) action payload]
    | _ => []
  | .poll (.onNotification o) .ready =>
    match s.onNotifications o with
    | .lock action => [.entered o action]
    | _ => []
  | .poll (.notificationHandler o) .ready =>
    match s.notificationHandlers o, s.onNotifications o with
    | .recv, .registered _ => (s.notifications.chans o).queue.head?.toList.map (.taken o)
    | _, _ => []
  | _ => []

variable {env}

theorem noticeBoard_step {b : Switchboard.Board String ℕ Value}
    {notes : List (Switchboard.Note String ℕ Value)}
    (h : Switchboard.Step (s.noticeBoard env) b notes)
    (hs : s'.notifications.senders = b.senders)
    (hu : (fun o => (s'.onNotifications o).used) = b.used) (hh : s'.read.noticeHand = b.hand)
    (hq : (fun o => (s'.notifications.chans o).queue) = b.queue)
    (hc : sendsIn env s'.hist = b.came) :
    Switchboard.Step (s.noticeBoard env) (s'.noticeBoard env) notes := by
  have hb : s'.noticeBoard env = b := by simp only [State.noticeBoard, hs, hu, hh, hq, hc]
  rw [hb]
  exact h

/-- The tables and the channels are what they were. -/
theorem noticeBoard_rest (hn : s'.notifications = s.notifications)
    (ho : s'.onNotifications = s.onNotifications) (hh : s'.read.noticeHand = s.read.noticeHand)
    (hc : sendsIn env s'.hist = sendsIn env s.hist) :
    Switchboard.Step (s.noticeBoard env) (s'.noticeBoard env) [] :=
  noticeBoard_step .rest (by rw [hn]; rfl) (by rw [ho]; rfl) hh (by rw [hn]; rfl) hc

theorem sendsIn_of_unheard {h h' : List (Event E)} (hu : Unheard h h') :
    sendsIn env h' = sendsIn env h := by
  obtain ⟨evs, rfl, hk⟩ := hu
  have hf : evs.filterMap Event.frame = [] := by
    refine List.filterMap_eq_nil_iff.2 fun e hm => ?_
    unfold Event.frame
    split
    · exact absurd hm (hk _)
    · rfl
  rw [sendsIn, List.filterMap_append, hf, List.append_nil, sendsIn]

/-! ### The read loop -/

theorem readRecv_noticeBoard {e : Option TransportEvent} (h : readRecv env cfg s e = some s') :
    Switchboard.Step (s.noticeBoard env) (s'.noticeBoard env) [] := by
  unfold readRecv at h
  split at h
  case h_2 => cases h
  case h_1 hr =>
    have hfree : s.read.noticeHand = .free := by rw [hr]; rfl
    rcases e with _ | (f | pl | pl) <;> cases h
    · refine noticeBoard_rest rfl rfl ?_ (by simp [leave, sendsIn, Event.frame])
      rw [hfree]
      unfold leave
      simp only []
      split_ifs <;> rfl
    · have hc : sendsIn env (handleEvent env s (.frame f)).hist
          = sendsIn env s.hist ++ (frameSend E env f).toList := by
        simp only [handleEvent, handleFrame, sendsIn, List.filterMap_append]
        cases hd : frameSend E env f <;> simp [Event.frame, hd]
      cases hd : (dispatch env f : Dispatch E) with
      | send action payload =>
        have hf : frameSend E env f = some (action, payload) := by simp only [frameSend, hd]
        rw [hf] at hc
        refine noticeBoard_step (.come hfree) rfl rfl ?_ rfl hc
        simp only [handleEvent, handleFrame, hd]
        rfl
      | ignore | response | call =>
        have hf : frameSend E env f = none := by simp only [frameSend, hd]
        rw [hf, Option.toList_none, List.append_nil] at hc
        refine noticeBoard_rest rfl rfl ?_ hc
        rw [hfree]
        simp only [handleEvent, handleFrame, hd]
        rfl
    · exact noticeBoard_rest rfl rfl hfree.symm (by simp [handleEvent, sendsIn, Event.frame])
    · exact noticeBoard_rest rfl rfl hfree.symm (by simp [handleEvent, sendsIn, Event.frame])

omit [ProtocolError E] in
theorem leave_noticeHand (reason : LoopExit) : (leave cfg s reason).read.noticeHand = .free := by
  unfold leave
  simp only []
  split_ifs <;> rfl

omit [ProtocolError E] in
theorem beginDial_noticeHand (s : State E R) : (beginDial s).read.noticeHand = .free := by
  unfold beginDial
  split_ifs <;> rfl

/-- With free hands the loop comes to a SEND by `recv` only. -/
theorem readPoll_noticeHand {p : Poll} (hs : readPoll env cfg s p = some s')
    (hfree : s.read.noticeHand = .free) : s'.read.noticeHand = .free := by
  cases readPoll_moves env cfg hs with
  | wake hr h =>
    unfold readWoken at h
    split_ifs at h <;> cases h
    · exact leave_noticeHand cfg _
    · exact leave_noticeHand cfg _
    · exact hfree
  | dial _ h => exact h ▸ beginDial_noticeHand s
  | wokenDial _ _ h => exact h ▸ beginDial_noticeHand _
  | pong _ h =>
    rw [h, resolvePong_read]
    rfl
  | acquire ha _ h =>
    subst h
    generalize s.read = pc at ha
    cases ha <;> rfl
  | release ha h =>
    subst h
    generalize s.read = pc at ha
    cases ha <;> rfl
  | go ha h =>
    subst h
    generalize s.read = pc at ha hfree
    cases ha with
    | notification => cases hfree
    | refused | unanswered | unheard | pushed => rfl
  | pend _ _ h =>
    subst h
    exact hfree
  | lookup _ _ h | push _ h | resolve _ h | notify _ h | clear _ h | backoff _ h | redial _ h
  | dialPend _ h | dialled _ h | swap _ _ h | broadcast _ h =>
    subst h
    rfl

theorem readPoll_noticeBoard {p : Poll} (hs : readPoll env cfg s p = some s') :
    Switchboard.Step (s.noticeBoard env) (s'.noticeBoard env)
      (s.noticeNotes (.poll .read p : Act E)) := by
  have hj : sendsIn env s'.hist = sendsIn env s.hist :=
    sendsIn_of_unheard (readPoll_unheard env cfg hs)
  have hk := readPoll_frame env cfg hs
  by_cases hfree : s.read.noticeHand = .free
  · have hn : s.noticeNotes (.poll .read p : Act E) = [] := by
      cases p with
      | ready =>
        simp only [State.noticeNotes]
        split
        · next hr =>
          rw [hr] at hfree
          cases hfree
        · rfl
      | pend | done | timer => rfl
    rw [hn]
    rcases readPoll_notifications env cfg hs with hq | ⟨ch, pl, hr, -⟩
    · exact noticeBoard_rest hq hk.onNotifications
        ((readPoll_noticeHand cfg hs hfree).trans hfree.symm) hj
    · rw [hr] at hfree
      cases hfree
  · unfold readPoll at hs
    unfold ReadPc.noticeHand at hfree
    split at hfree
    case h_1 act pl hr =>
      rw [hr] at hs
      cases p with
      | ready =>
        have hh : (s.noticeBoard env).hand = .held act pl := by
          simp only [State.noticeBoard, hr, ReadPc.noticeHand]
        simp only [State.noticeNotes, hr]
        simp only [] at hs
        split at hs <;> cases hs
        · next ch hc =>
          rw [hc]
          exact noticeBoard_step (.bind hh hc) rfl rfl rfl rfl rfl
        · next hc =>
          rw [hc]
          exact noticeBoard_step (.turnAway hh hc) rfl rfl rfl rfl rfl
      | pend | done | timer => cases hs
    case h_2 ch pl hr =>
      rw [hr] at hs
      cases p <;> cases hs
      have hh : (s.noticeBoard env).hand = .bound ch pl := by
        simp only [State.noticeBoard, hr, ReadPc.noticeHand]
      simp only [State.noticeNotes, hr]
      exact noticeBoard_step (.push hh) rfl rfl rfl
        (queue_modify s.notifications ch fun c => c.send pl) rfl
    case h_3 => exact absurd rfl hfree

/-! ### Handlers -/

theorem onNotificationPoll_noticeBoard {o : ℕ} {p : Poll}
    (h : onNotificationPoll s o p = some s') :
    Switchboard.Step (s.noticeBoard env) (s'.noticeBoard env)
      (s.noticeNotes (.poll (.onNotification o) p : Act E)) := by
  unfold onNotificationPoll at h
  split at h
  case h_2 => cases h
  case h_1 act hon =>
    cases h
    simp only [State.noticeNotes, hon]
    have hf : (s.noticeBoard env).used o = false := by
      simp only [State.noticeBoard, hon, OnPc.used]
    refine noticeBoard_step (.register hf) rfl (update_comp _ _ _ _) rfl
      (funext fun x => Registry.insert_queue act o x) rfl

theorem notificationHandlerPoll_noticeBoard {o : ℕ} {p : Poll}
    (h : notificationHandlerPoll env s o p = some s') :
    Switchboard.Step (s.noticeBoard env) (s'.noticeBoard env)
      (s.noticeNotes (.poll (.notificationHandler o) p : Act E)) := by
  unfold notificationHandlerPoll at h
  split at h
  case h_1 act hp hon =>
    cases h
    simp only [State.noticeNotes, hp, hon]
    unfold notificationHandlerRecv
    split
    case h_1 pl rest hv =>
      have hq : (s.noticeBoard env).queue o = pl :: rest.queue := queue_of_recv hv
      rw [queue_of_recv hv]
      exact noticeBoard_step (.take hq) rfl rfl rfl
        (queue_modify s.notifications o fun _ => rest) rfl
    case h_2 hv | h_3 hv =>
      rw [queue_eq_nil (c := s.notifications.chans o) (by simp [hv])]
      exact noticeBoard_rest rfl rfl rfl rfl
  case h_2 hp =>
    split_ifs at h
    cases h
    simp only [State.noticeNotes, hp]
    exact noticeBoard_step .rest rfl rfl rfl (queue_of_take s.notifications o) rfl
  case h_3 hp =>
    cases h
    simp only [State.noticeNotes, hp]
    exact noticeBoard_rest rfl rfl rfl rfl
  case h_4 => cases h

theorem noticeBoard_of_step (hs : step env cfg s a = some s') :
    Switchboard.Step (s.noticeBoard env) (s'.noticeBoard env) (s.noticeNotes a) := by
  by_cases hrecv : ∃ e, a = .recv e
  · obtain ⟨e, rfl⟩ := hrecv
    exact readRecv_noticeBoard cfg hs
  have hc : sendsIn env s'.hist = sendsIn env s.hist := by
    rcases heard_cases env cfg hs with hu | ⟨e, rfl, -⟩
    · exact sendsIn_of_unheard hu
    · exact absurd ⟨_, rfl⟩ hrecv
  by_cases hread : ∃ p, a = .poll .read p
  · obtain ⟨p, rfl⟩ := hread
    exact readPoll_noticeBoard cfg hs
  have hr : s'.read = s.read := Broadcasts.read_of_other env cfg hs (fun e he => hrecv ⟨e, he⟩)
    fun p hp => hread ⟨p, hp⟩
  cases background_cases env cfg hs with
  | read h => exact absurd ⟨_, rfl⟩ hread
  | onNotificationPoll h => exact onNotificationPoll_noticeBoard h
  | notificationHandlerPoll h => exact notificationHandlerPoll_noticeBoard h
  | @onNotification o action h =>
    unfold onNotification at h
    split at h <;> cases h
    next hidle =>
    refine noticeBoard_step .rest rfl ?_ rfl rfl rfl
    rw [update_comp]
    have hu : (OnPc.lock action).used = (s.noticeBoard env).used o := by
      simp only [State.noticeBoard, hidle, OnPc.used]
    rw [hu]
    exact Function.update_eq_self (f := (s.noticeBoard env).used) o
  | subscribe h =>
    obtain ⟨_, rfl⟩ := subscribe_footprint h
    exact noticeBoard_rest rfl rfl rfl rfl
  | subscriberPoll h =>
    obtain ⟨_, _, _, rfl⟩ := subscriberPoll_footprint h
    exact noticeBoard_rest rfl rfl rfl rfl
  | other h =>
    -- a poll of a handler is one of the cases above
    unfold State.noticeNotes
    split
    · exact absurd ⟨_, rfl⟩ hread
    · exact onNotificationPoll_noticeBoard hs
    · exact notificationHandlerPoll_noticeBoard hs
    · exact noticeBoard_rest h.notifications h.onNotifications (by rw [hr]) hc

/-! ## The frames of `send_notification` -/

/-- The notification whose frame waits for the sink. -/
def NotificationPc.unwritten : NotificationPc E → List String
  | .lockSink frame => [frame]
  | _ => []

/-- `send_notification` is called with a payload that serialises. -/
def Act.posts : Act E → List (ℕ × String × Value)
  | .notify n action (.ok payload) => [(n, action, payload)]
  | _ => []

variable (env) in
/-- Each `send_notification` has handed over its own frame at most. -/
structure PostInv (s : State E R) (posts : List (ℕ × String × Value)) : Prop where
  nodup : (posts.map Prod.fst).Nodup
  begun : ∀ post ∈ posts, s.sends post.1 ≠ .idle
  idle : ∀ n, s.sends n = .idle → writtenBy (.notification n) s.hist = []
  once : ∀ n, (writtenBy (.notification n) s.hist ++ (s.sends n).unwritten).length ≤ 1
  own : ∀ n, ∀ frame ∈ writtenBy (.notification n) s.hist ++ (s.sends n).unwritten,
    ∃ id action payload, (n, action, payload) ∈ posts
      ∧ requestFrame env messageTypeSend id action (.ok payload) = .ok frame

omit [ProtocolError E] in
theorem PostInv.keep {posts : List (ℕ × String × Value)} (h : PostInv env s posts)
    (hs : s'.sends = s.sends)
    (hw : ∀ n, writtenBy (.notification n) s'.hist = writtenBy (.notification n) s.hist) :
    PostInv env s' posts := by
  refine ⟨h.nodup, ?_, ?_, ?_, ?_⟩
  · rw [hs]
    exact h.begun
  · intro n hn
    rw [hw]
    exact h.idle n (hs ▸ hn)
  · intro n
    rw [hw, hs]
    exact h.once n
  · intro n
    rw [hw, hs]
    exact h.own n

omit [ProtocolError E] in
/-- One `send_notification` moves on, with what it hands over at most once. -/
theorem PostInv.move {posts posts' : List (ℕ × String × Value)} {n : ℕ} {pc : NotificationPc E}
    (h : PostInv env s posts) (hs : s'.sends = Function.update s.sends n pc) (hpc : pc ≠ .idle)
    (hw : ∀ m, m ≠ n → writtenBy (.notification m) s'.hist = writtenBy (.notification m) s.hist)
    (hnodup : (posts'.map Prod.fst).Nodup) (hsub : posts ⊆ posts')
    (hnew : ∀ post ∈ posts', post ∈ posts ∨ post.1 = n)
    (honce : (writtenBy (.notification n) s'.hist ++ pc.unwritten).length ≤ 1)
    (hown : ∀ frame ∈ writtenBy (.notification n) s'.hist ++ pc.unwritten,
      ∃ id action payload, (n, action, payload) ∈ posts'
        ∧ requestFrame env messageTypeSend id action (.ok payload) = .ok frame) :
    PostInv env s' posts' := by
  have hself : s'.sends n = pc := by rw [hs, Function.update_self]
  have hne : ∀ m, m ≠ n → s'.sends m = s.sends m := fun m hm => by
    rw [hs, Function.update_of_ne hm]
  refine ⟨hnodup, fun post hp => ?_, fun m hm => ?_, fun m => ?_, fun m frame hf => ?_⟩
  · rcases eq_or_ne post.1 n with he | he
    · rw [he, hself]
      exact hpc
    · rw [hne _ he]
      exact h.begun post ((hnew post hp).resolve_right he)
  · rcases eq_or_ne m n with rfl | he
    · exact absurd (hself.symm.trans hm) hpc
    · rw [hw m he]
      exact h.idle m ((hne m he).symm.trans hm)
  · rcases eq_or_ne m n with rfl | he
    · rw [hself]
      exact honce
    · rw [hw m he, hne m he]
      exact h.once m
  · rcases eq_or_ne m n with rfl | he
    · rw [hself] at hf
      exact hown frame hf
    · rw [hw m he, hne m he] at hf
      obtain ⟨id, action, payload, hp, hr⟩ := h.own m frame hf
      exact ⟨id, action, payload, hsub hp, hr⟩

omit [ProtocolError E] in
theorem sendNotification_posts {posts : List (ℕ × String × Value)} {n : ℕ} {action : String}
    {payload : Except JsonError Value} (h : PostInv env s posts)
    (hs : sendNotification env s n action payload = some s') :
    PostInv env s' (posts ++ (Act.notify n action payload : Act E).posts) := by
  unfold sendNotification at hs
  split at hs
  case h_2 => cases hs
  case h_1 hidle =>
    have hnew : ∀ post ∈ (Act.notify n action payload : Act E).posts, post.1 = n := by
      cases payload <;> simp [Act.posts]
    have hfresh : n ∉ posts.map Prod.fst := fun hm => by
      obtain ⟨post, hp, rfl⟩ := List.mem_map.1 hm
      exact h.begun post hp hidle
    have hnodup : ((posts ++ (Act.notify n action payload : Act E).posts).map Prod.fst).Nodup := by
      cases payload with
      | error => simpa [Act.posts] using h.nodup
      | ok v => 
        simp only [Act.posts, List.map_append, List.map_singleton]
        exact List.nodup_append.2 ⟨h.nodup, by simp, by
          rintro m hm _ hn rfl
          exact hfresh (List.mem_singleton.1 hn ▸ hm)⟩
    have hw := h.idle n hidle
    have hmove : ∀ {t : State E R} {pc : NotificationPc E},
        t.sends = Function.update s.sends n pc → t.hist = s.hist → pc ≠ .idle →
        (∀ frame, pc = .lockSink frame → ∃ id v, payload = .ok v
          ∧ requestFrame env messageTypeSend id action payload = .ok frame) →
        PostInv env t (posts ++ (Act.notify n action payload : Act E).posts) := by
      intro t pc ht hh hpc hf
      refine h.move ht hpc (fun m _ => by rw [hh]) hnodup (List.subset_append_left ..)
        (fun post hp => (List.mem_append.1 hp).imp_right (hnew post)) ?_ fun frame hm => ?_
      · rw [hh, hw]
        cases pc <;> simp [NotificationPc.unwritten]
      · rw [hh, hw, List.nil_append] at hm
        cases pc with
        | lockSink f =>
          obtain rfl := List.mem_singleton.1 hm
          obtain ⟨id, v, rfl, hr⟩ := hf _ rfl
          exact ⟨id, action, v, by simp [Act.posts], hr⟩
        | idle | sending | returned => cases hm
    split_ifs at hs
    · cases hs
      exact hmove rfl rfl (by simp) (by simp)
    · simp only [] at hs
      split at hs
      · next frame hf =>
        cases hs
        refine hmove rfl rfl (by simp) fun frame' he => ?_
        cases he
        cases payload with
        | error e => cases hf
        | ok v => exact ⟨_, v, rfl, hf⟩
      · cases hs
        exact hmove rfl rfl (by simp) (by simp)

omit [ProtocolError E] in
theorem notificationPoll_posts {posts : List (ℕ × String × Value)} {n : ℕ} {p : Poll}
    (h : PostInv env s posts) (hs : notificationPoll s n p = some s') : PostInv env s' posts := by
  have ho := h.once n
  have hown := h.own n
  unfold notificationPoll at hs
  split at hs
  case h_1 frame hp =>
    obtain ⟨-, rfl⟩ := issue_map hs
    rw [hp] at ho hown
    refine h.move rfl (by simp) (fun m hm => writtenBy_issued (by simpa using hm.symm)) h.nodup
      (List.Subset.refl _) (fun post hp => .inl hp) ?_ ?_
    · simpa [State.setSend, writtenBy_send, NotificationPc.unwritten] using ho
    · simpa [State.setSend, writtenBy_send, NotificationPc.unwritten] using hown
  case h_2 =>
    obtain ⟨-, rfl⟩ := pend_eq hs
    exact h.keep rfl fun _ => rfl
  case h_3 hp =>
    cases hs
    rw [hp] at ho hown
    exact h.move rfl (by simp) (fun m _ => rfl) h.nodup (List.Subset.refl _)
      (fun post hp => .inl hp) ho hown
  case h_4 => cases hs

theorem posts_of_step {posts : List (ℕ × String × Value)} (h : PostInv env s posts)
    (hs : step env cfg s a = some s') : PostInv env s' (posts ++ a.posts) := by
  by_cases hn : ∃ n action payload, a = .notify n action payload
  · obtain ⟨n, action, payload, rfl⟩ := hn
    exact sendNotification_posts h hs
  have hp : a.posts = [] := by
    unfold Act.posts
    split
    · exact absurd ⟨_, _, _, rfl⟩ hn
    · rfl
  rw [hp, List.append_nil]
  by_cases hpoll : ∃ n p, a = .poll (.notification n) p
  · obtain ⟨n, p, rfl⟩ := hpoll
    exact notificationPoll_posts h hs
  have hw : ∀ n, writtenBy (.notification n) s'.hist = writtenBy (.notification n) s.hist :=
    fun n => writtenBy_of_step env cfg hs fun ha => hpoll ⟨n, _, ha⟩
  refine h.keep ?_ hw
  cases party_cases env cfg hs with
  | recv h => exact (readRecv_frame env cfg h).sends
  | read h => exact (readPoll_frame env cfg h).sends
  | notify h => exact absurd ⟨_, _, _, rfl⟩ hn
  | notificationPoll h => exact absurd ⟨_, _, rfl⟩ hpoll
  | handlers h =>
    obtain ⟨_, _, _, _, _, _, _, rfl, -⟩ := h.footprint
    rfl
  | other h => exact h.sends

/-! ## One client -/

inductive NoticeNote
  | routing (n : Switchboard.Note String ℕ Value)
  | posted (post : ℕ × String × Value)

def NoticeNote.toRouting : NoticeNote → Option (Switchboard.Note String ℕ Value)
  | .routing n => some n
  | .posted _ => none

def NoticeNote.toPost : NoticeNote → Option (ℕ × String × Value)
  | .routing _ => none
  | .posted post => some post

/-- What became of the SENDs received. -/
def routings (log : List NoticeNote) : List (Switchboard.Note String ℕ Value) :=
  log.filterMap NoticeNote.toRouting

/-- The `send_notification`s called, by the number of the call. -/
def posts (log : List NoticeNote) : List (ℕ × String × Value) := log.filterMap NoticeNote.toPost

def State.notices (s : State E R) (a : Act E) : List NoticeNote :=
  (s.noticeNotes a).map .routing ++ a.posts.map .posted

omit [ProtocolError E] in
theorem routings_append (log : List NoticeNote) (s : State E R) (a : Act E) :
    routings (log ++ s.notices a) = routings log ++ s.noticeNotes a := by
  simp [routings, State.notices, NoticeNote.toRouting, List.filterMap_append, List.filterMap_map,
    Function.comp_def]

omit [ProtocolError E] in
theorem posts_append (log : List NoticeNote) (s : State E R) (a : Act E) :
    posts (log ++ s.notices a) = posts log ++ a.posts := by
  simp [posts, State.notices, NoticeNote.toPost, List.filterMap_append, List.filterMap_map,
    Function.comp_def]

variable (env) in
structure NoticeState (s : State E R) (log : List NoticeNote) : Prop where
  board : Switchboard.Kept (s.noticeBoard env) (routings log)
  entered : ∀ o action, .entered o action ∈ routings log → s.onNotifications o = .registered action
  posts : PostInv env s (posts log)

theorem entered_notice {o : ℕ} {action : String} (hs : step env cfg s a = some s')
    (he : .entered o action ∈ s.noticeNotes a) : s'.onNotifications o = .registered action := by
  unfold State.noticeNotes at he
  split at he
  · split at he <;> simp at he
  · split at he
    · next hon =>
      obtain ⟨rfl, rfl⟩ : o = _ ∧ action = _ := by simpa using he
      replace hs : onNotificationPoll s o .ready = some s' := hs
      simp only [onNotificationPoll, hon] at hs
      cases hs
      exact Function.update_self ..
    · simp at he
  · split at he <;> simp at he
  · simp at he

theorem onNotifications_of_step {o : ℕ} {action : String} (hs : step env cfg s a = some s')
    (hon : s.onNotifications o = .registered action) :
    s'.onNotifications o = .registered action := by
  cases background_cases env cfg hs with
  | read h => rw [(readPoll_frame env cfg h).onNotifications, hon]
  | @onNotification n _ h =>
    unfold onNotification at h
    split at h <;> cases h
    next hidle =>
    have hne : o ≠ n := by
      rintro rfl
      cases hon.symm.trans hidle
    exact (Function.update_of_ne hne _ _).trans hon
  | @onNotificationPoll n _ h =>
    unfold onNotificationPoll at h
    split at h <;> cases h
    next hlock =>
    have hne : o ≠ n := by
      rintro rfl
      cases hon.symm.trans hlock
    exact (Function.update_of_ne hne _ _).trans hon
  | notificationHandlerPoll h =>
    obtain ⟨_, _, rfl⟩ := notificationHandlerPoll_footprint env h
    exact hon
  | subscribe h =>
    obtain ⟨_, rfl⟩ := subscribe_footprint h
    exact hon
  | subscriberPoll h =>
    obtain ⟨_, _, _, rfl⟩ := subscriberPoll_footprint h
    exact hon
  | other h => rw [h.onNotifications, hon]

theorem noticeState_of_reach {s : State E R × List NoticeNote}
    (h : Machine.Reach ((client env cfg).observed State.notices) Machine.Any s) :
    NoticeState env s.1 s.2 := by
  refine Machine.Reach.invariant (I := fun s => NoticeState env s.1 s.2) ?_
    (fun s a s' _ _ hs hI => ?_) h
  · refine ⟨.init (fun _ => rfl) rfl (fun _ => rfl) rfl, by simp [Machine.observed, routings], ?_⟩
    exact ⟨.nil, by simp [Machine.observed, posts], fun _ _ => rfl, fun _ => Nat.zero_le _,
      fun n frame hf => by cases hf⟩
  · obtain ⟨hs, hl⟩ := Machine.observed_step hs
    rw [hl]
    refine ⟨?_, ?_, ?_⟩
    · rw [routings_append]
      exact hI.board.step (noticeBoard_of_step cfg hs)
    · rw [routings_append]
      intro o action he
      rcases List.mem_append.1 he with he | he
      · exact onNotifications_of_step cfg hs (hI.entered o action he)
      · exact entered_notice cfg hs he
    · rw [posts_append]
      exact posts_of_step cfg hI.posts hs

/-! ## Two clients -/

variable (env) in
/-- The SEND that a `send_notification` hands over. -/
def Event.notice : Event E → Option (ℕ × String × Value)
  | .issued (.notification n) _ (.send frame) => (frameSend E env frame).map fun r => (n, r)
  | _ => none

variable (env) in
/-- The SENDs handed over, in order, each with the number of its `send_notification`. -/
def handedNotices (h : List (Event E)) : List (ℕ × String × Value) := h.filterMap (Event.notice env)

theorem frameSend_of_send (hR : env.RoundTrips) {id : Uuid} {action frame : String} {v : Value}
    (h : requestFrame env messageTypeSend id action (.ok v) = .ok frame) :
    frameSend E env frame = some (action, v) := by
  obtain ⟨p, hp, hf⟩ := fromStr_of_request hR h
  cases hp
  simp only [frameSend, dispatch_of_send hf]

theorem frameSend_of_call (hR : env.RoundTrips) {id : Uuid} {action frame : String}
    {payload : Except JsonError Value}
    (h : requestFrame env messageTypeCall id action payload = .ok frame) :
    frameSend E env frame = none := by
  obtain ⟨p, -, hf⟩ := fromStr_of_request hR h
  simp only [frameSend, dispatch_of_call hf]

theorem frameSend_of_response (hR : env.RoundTrips) {messageId frame : String}
    {r : Except E (Except JsonError Value)} (h : responseFrame env messageId r = some frame) :
    frameSend E env frame = none := by
  cases wired_of_response hR h with
  | result hw =>
    rw [frameSend, dispatch_of_result hw]
    cases env.uuidParseStr messageId <;> rfl
  | error hw =>
    rw [frameSend, dispatch_of_error hw]
    cases env.uuidParseStr messageId <;> rfl

omit [ProtocolError E] in
theorem Event.notice_eq {e : Event E} {t : Task} {k : SinkId} {frame : String}
    (he : e = .issued t k (.send frame)) (ht : ∀ n, t ≠ .notification n) [ProtocolError E] :
    e.notice env = none := by
  subst he
  cases t with
  | notification n => exact absurd rfl (ht n)
  | _ => rfl

/-- A frame reads as a SEND where a `send_notification` wrote it. -/
theorem sends_handed (hR : env.RoundTrips) {peer : State E R} {log : List (ServiceNote E)}
    (hF : SideFacts env s peer log) :
    (s.hist.filterMap Event.sent).filterMap (frameSend E env)
      = (handedNotices env s.hist).map Prod.snd := by
  rw [handedNotices, List.filterMap_filterMap, List.map_filterMap]
  refine List.filterMap_congr fun e he => ?_
  cases hsent : e.sent with
  | none =>
    have hn : e.notice env = none := by
      unfold Event.notice
      split
      · cases hsent
      · rfl
    rw [hn]
    rfl
  | some frame =>
    unfold Event.sent at hsent
    split at hsent
    case h_2 => cases hsent
    case h_1 t k frame =>
      cases hsent
      cases hF.notices.sender t k frame he with
      | notification n => cases hf : frameSend E env frame <;> simp [Event.notice, hf]
      | call c =>
        obtain ⟨sent, hs, -⟩ := hF.asks.sent
        have hm : (c, frame) ∈ s.askView.requests := List.mem_filterMap.2 ⟨_, he, rfl⟩
        obtain ⟨q, -, -, hf⟩ := History.exists_of_forall₂ hs hm
        exact frameSend_of_call hR hf
      | reply ht =>
        obtain ⟨_, -, r, -, hr⟩ := hF.reply_of_mem ht he
        rw [Event.notice_eq rfl (by rintro n rfl; exact ht)]
        exact frameSend_of_response hR hr

theorem handedNotices_nodup {log : List (ℕ × String × Value)} (h : PostInv env s log) :
    ((handedNotices env s.hist).map Prod.fst).Nodup := by
  refine List.nodup_iff_count_le_one.2 fun n => ?_
  have ho := h.once n
  rw [List.length_append] at ho
  refine le_trans ?_ ((Nat.le_add_right _ _).trans ho)
  rw [handedNotices, List.map_filterMap]
  refine History.count_filterMap_le fun e _ he => ?_
  obtain ⟨post, hn, rfl⟩ := Option.map_eq_some_iff.1 he
  unfold Event.notice at hn
  split at hn
  case h_2 => cases hn
  case h_1 m k frame =>
    obtain ⟨r, -, rfl⟩ := Option.map_eq_some_iff.1 hn
    simp [Event.sentBy]

theorem handedNotices_posted (hR : env.RoundTrips) {log : List (ℕ × String × Value)}
    (h : PostInv env s log) : handedNotices env s.hist ⊆ log := by
  intro post hp
  obtain ⟨e, he, hn⟩ := List.mem_filterMap.1 hp
  unfold Event.notice at hn
  split at hn
  case h_2 => cases hn
  case h_1 n k frame =>
    obtain ⟨r, hr, rfl⟩ := Option.map_eq_some_iff.1 hn
    have hw : frame ∈ writtenBy (.notification n) s.hist :=
      List.mem_filterMap.2 ⟨_, he, by simp [Event.sentBy]⟩
    obtain ⟨id, action, v, hm, hf⟩ := h.own n frame (List.mem_append_left _ hw)
    rw [frameSend_of_send hR hf] at hr
    cases hr
    exact hm

/-- What the peer's `send_notification`s have handed over, and what became of it at client `x`. -/
structure NoticesDelivered (env : Env R) (x : Bool) (p : Pair E R)
    (log : List (Bool × NoticeNote)) : Prop where
  /-- Each is the SEND of one `send_notification`, and of no two the same. -/
  posted : handedNotices env (p.side (!x)).hist ⊆ posts (sideLog (!x) log)
  nodup : ((handedNotices env (p.side (!x)).hist).map Prod.fst).Nodup
    ∧ ((posts (sideLog (!x) log)).map Prod.fst).Nodup
  /-- They are received in the order in which they were handed over, but those on the wire. -/
  received : sendsIn env (p.side x).hist ++ (p.wire x).filterMap (frameSend E env)
    = (handedNotices env (p.side (!x)).hist).map Prod.snd
  /-- They are looked up in the order in which they were received, but the one in hand. -/
  lookedUp : (Switchboard.routes (routings (sideLog x log))).map Prod.snd
      ++ (p.side x).read.noticeHand.waiting
    = sendsIn env (p.side x).hist
  /-- A handler is sent those of its own action. -/
  own : ∀ o action v, .routed (some o) action v ∈ routings (sideLog x log) →
    (p.side x).onNotifications o = .registered action
  /-- It takes them in the order in which they were looked up. -/
  taken : ∀ o, Switchboard.routedTo o (routings (sideLog x log))
    = Switchboard.takenFrom o (routings (sideLog x log))
      ++ ((p.side x).notifications.chans o).queue ++ (p.side x).read.noticeHand.boundTo o

theorem noticesDelivered_of_reach {draw : Bool → ℕ → Uuid} {cfg : Bool → ClientConfig}
    (hR : env.RoundTrips) {p : Pair E R × List (Bool × NoticeNote)}
    (h : Machine.Reach ((pair env draw cfg).observed (pairLog fun _ => State.notices))
      Machine.Any p) (x : Bool) : NoticesDelivered env x p.1 p.2 := by
  have hx : NoticeState (sideEnv env draw x) (p.1.side x) (sideLog x p.2) :=
    noticeState_of_reach _ (side_of_pairLog h x)
  have hy : NoticeState (sideEnv env draw !x) (p.1.side !x) (sideLog (!x) p.2) :=
    noticeState_of_reach _ (side_of_pairLog h !x)
  have hp : Machine.Reach (pair env draw cfg) Machine.Any p.1 := h.unobserved fun _ _ _ => trivial
  obtain ⟨log, hlog⟩ := hp.observe (pairNotes env draw)
  have hF := sideFacts_of_reach (hlog.mono fun _ _ _ => trivial) !x
  have hRy : (sideEnv env draw !x).RoundTrips := hR
  have hnodup := handedNotices_nodup hy.posts
  refine ⟨handedNotices_posted hRy hy.posts, ⟨hnodup, hy.posts.nodup⟩, ?_, hx.board.came,
    fun o action v hv => ?_, hx.board.fifo⟩
  · have hw := congrArg (List.filterMap (frameSend E env)) (fifo_of_reach hp x)
    rw [List.filterMap_append] at hw
    have hs := sends_handed hRy hF
    exact hw.trans hs
  · exact hx.entered o action (hx.board.topics o action v hv)

/-- One client listens, the other sends twice, and the first SEND is taken. -/
def twoNotices : List (Bool × Act (Version.Error .v21)) :=
  [(true, .onNotification 0 "A"), (true, .poll (.onNotification 0) .ready),
    (false, .notify 4 "A" (.ok .null)), (false, .poll (.notification 4) .ready),
    (false, .poll (.notification 4) (.done (.ok ()))), (false, .notify 7 "A" (.ok .null)),
    (false, .poll (.notification 7) .ready),
    (true, .recv (some (.frame "[6,\"00000000-0000-4000-8000-000000000000\",\"A\",null]"))),
    (true, .poll .read .ready), (true, .poll .read .ready),
    (true, .poll (.notificationHandler 0) .ready)]

def noticePair : Machine (Pair (Version.Error .v21) Unit × List (Bool × NoticeNote))
    (Bool × Act (Version.Error .v21)) :=
  (pair wireEnv (fun _ => uuidV4) fun _ => scenarioConfig).observed
    (pairLog fun _ => State.notices)

theorem noticesDelivered_of_twoNotices :
    ∃ p, noticePair.run noticePair.init twoNotices = some p
      ∧ Switchboard.takenFrom 0 (routings (sideLog true p.2)) = [.null]
      ∧ handedNotices wireEnv (p.1.side false).hist = [(4, "A", .null), (7, "A", .null)]
      ∧ NoticesDelivered wireEnv true p.1 p.2 := by
  have hends : (noticePair.run noticePair.init twoNotices).any (fun p =>
      Switchboard.takenFrom 0 (routings (sideLog true p.2)) = [.null]
        ∧ handedNotices wireEnv (p.1.side false).hist = [(4, "A", .null), (7, "A", .null)])
      = true := by
    decide +kernel
  obtain ⟨p, hrun, hp⟩ := (Option.any_eq_true _ _).1 hends
  obtain ⟨htaken, hhanded⟩ := of_decide_eq_true hp
  exact ⟨p, hrun, htaken, hhanded, noticesDelivered_of_reach wireEnv_roundTrips
    (Machine.reach_any_of_run (M := noticePair) twoNotices hrun) true⟩

end OcppClient
