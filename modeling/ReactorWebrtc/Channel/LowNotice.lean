/-
Whether a notice follows each send.

A caller may wait for `BufferedAmountLow` before it sends again.  `send` arms the notice once
its message is in the queue, where another thread's pump can already take it, and the notice
is given in the handler of a native low event, which finds the buffer low and the notice
armed.  Nothing else gives it, so an arming after the last of these handlers has looked is
for nothing.

`Coming` says what leads to another look: a message in the queue, a frame on its way to
libwebrtc, bytes in its buffer, a native event, or a handler that has not looked yet.  Once
there is none of these there is none until the next push, and as long as there is one and
the notice is armed the notice is still to come, so it all depends on the last arming.

The channel is open and chunked and stays so.  Any threads call `send` and `drain`.
-/
import ReactorWebrtc.Channel.Framed

namespace ReactorWebrtc

namespace Channel

/-- The call has returned: for `drain`, which `close` begins with, at the native close. -/
def Call.returned : Call → Bool
  | .idle | .done | .sent _ | .closed .. | .closeNative .. => true
  | _ => false

namespace Low

structure State where
  channel : Channel.State
  /-- The native low events that nobody has handled yet. -/
  events : Nat := 0
  /-- How many messages were accepted since the last notice.  Not the code's. -/
  unnoticed : Nat := 0

/-- The channel goes on to `t`.  A change of the native buffer that leaves it at or below the
low-water mark raises an event. -/
def State.after (s : State) (t : Channel.State) : State where
  channel := t
  events :=
    if t.shared.buffered ≠ s.channel.shared.buffered ∧ t.shared.buffered ≤ t.shared.trustBelow then
      s.events + 1
    else s.events
  unnoticed :=
    if t.shared.notified = s.channel.shared.notified then
      s.unnoticed + (t.shared.accepted.length - s.channel.shared.accepted.length)
    else 0

inductive Action
  | send (i : Nat) (data : Bytes) (binary : Bool)
  | drain (i : Nat)
  | expire (i : Nat)
  /-- The handler of a native low event begins. -/
  | event (i : Nat)
  /-- The native side has sent `n` bytes. -/
  | flow (n : Nat)
  | step (i : Nat)
  deriving DecidableEq, Repr

def machine (config : SendConfig) (valid : config.validate = .ok ()) (threshold : Nat) :
    Machine State Action where
  start :=
    { channel :=
        { shared :=
            { native := .opened
              decided := true
              userLowThreshold := threshold
              queue := { config, valid, pending := [], queued := 0 } }
          calls := fun _ => .idle } }
  step s
    | .send i data binary => (Channel.step s.channel (.call i (.send data binary))).map s.after
    | .drain i =>
      match s.channel.calls i with
      | .idle =>
        some (s.after (s.channel.goto s.channel.shared i
          (.closeRead s.channel.shared.accepted.length)))
      | _ => none
    | .expire i => (Channel.step s.channel (.expire i)).map s.after
    | .event i =>
      if s.events = 0 then none
      else
        (Channel.step s.channel (.call i .low)).map
          { s with events := s.events - 1 }.after
    | .flow n => (Channel.step s.channel (.drain n)).map s.after
    | .step i =>
      if (s.channel.calls i).returned then none
      else (advance s.channel i (s.channel.calls i)).map s.after

/-- No call is in progress, no event is pending, and nothing is buffered. -/
structure Quiet (s : State) : Prop where
  calls : ∀ i, (s.channel.calls i).returned = true
  events : s.events = 0
  queue : s.channel.shared.queue.isEmpty = true
  buffered : s.channel.shared.buffered = 0

/-- The notice is not armed then, and one has followed each send. -/
def Noticed (s : State) : Prop :=
  Quiet s → s.channel.shared.userLowArmed = false ∧ s.unnoticed = 0

/-- The call is at the arming of the notice. -/
def arming : Call → Bool
  | .arm => true
  | _ => false

def arms (s : State) : Action → Bool
  | .step i => arming (s.channel.calls i)
  | _ => false

/-- The call hands a frame over, or handles an event and will find the native buffer low
unless it changes. -/
def coming : Call → Prop
  | .store k | .tryLock k | .recheck k => k = .low
  | .inside k pc => k = .low ∨ ∃ frame, pc = .native frame
  | .fireRead | .fireSwap => True
  | .fireQueued threshold native => native ≤ threshold
  | _ => False

/-- Something is left that leads to a handler's look at the buffer. -/
def Coming (s : State) : Prop :=
  s.channel.shared.queue.isEmpty = false ∨ s.channel.shared.buffered ≠ 0 ∨ s.events ≠ 0 ∨
    ∃ i, coming (s.channel.calls i)

/-! ### What a step does

Of all that a channel's step can do, three things matter here: a message is accepted, the
notice is armed, or a handler takes the notice.  `Goes` sorts the branches of `advance` by
that, and the rest of them leave what is still to come as it was.
-/

/-- Where the threads get under the pump's lock on an open channel. -/
def inUse : Inside → Prop
  | .measure sent | .settle sent _ => sent = true
  | .native frame => frame ≠ []
  | .failed | .leave => False
  | _ => True

/-- Where `send`, `drain` and the handlers get on an open and chunked channel. -/
def usual : Call → Prop
  | .ask (.send ..) => True
  | .ask _ | .look _ | .prepare _ | .decide .. | .plain .. | .early _ | .threshold _
  | .closed .. => False
  | .inside _ pc => inUse pc
  | _ => True

/-- What is left, as far as the queue, the buffer and one call go. -/
def Left (s : Shared) (c : Call) : Prop :=
  s.queue.isEmpty = false ∨ s.buffered ≠ 0 ∨ coming c

/-- What a step of a call does. -/
inductive Goes (s : Shared) : Call → Shared → Call → Prop
  /-- Neither a message nor a notice is concerned. -/
  | other {c c' : Call} {t : Shared} (hnative : t.native = s.native)
      (hdecided : t.decided = s.decided) (hwf : t.queue.WF)
      (harmed : t.userLowArmed = s.userLowArmed) (hnotified : t.notified = s.notified)
      (haccepted : t.accepted = s.accepted) (husual : usual c') (hc : arming c = false)
      (hleft : Left t c' ↔ Left s c) (hbuffered : t.buffered ≠ s.buffered → t.buffered ≠ 0) :
      Goes s c t c'
  | accept (data : Bytes) (binary : Bool)
      (hroom : s.queue.queued + data.length ≤ s.queue.config.queueLimit) :
      Goes s (.push data binary) { s with
        queue := s.queue.accept data binary
        accepted := s.accepted ++ [(data, binary)] } .arm
  | arm : Goes s .arm { s with userLowArmed := true } (.store .send)
  | look : Goes s .fireSwap { s with
      userLowArmed := false
      notified := s.notified + if s.userLowArmed then 1 else 0 } .done

/-- A step that leaves the shared state alone. -/
theorem Goes.same {s : Shared} {c c' : Call} (hwf : s.queue.WF) (husual : usual c')
    (hc : arming c = false) (hleft : Left s c' ↔ Left s c) : Goes s c s c' :=
  .other rfl rfl hwf rfl rfl rfl husual hc hleft fun h => absurd rfl h

theorem left_congr {s t : Shared} {c c' : Call} (hqueue : t.queue = s.queue)
    (hbuffered : t.buffered = s.buffered) (hcoming : coming c' ↔ coming c) :
    Left t c' ↔ Left s c := by
  unfold Left
  rw [hqueue, hbuffered, hcoming]

/-- A step away from the queue, the buffer and the notice. -/
theorem Goes.beside {s t : Shared} {c c' : Call} (hwf : s.queue.WF)
    (hbeside : t = { s with
      lock := t.lock, pumpAgain := t.pumpAgain, nativeEst := t.nativeEst
      lastPass := t.lastPass, ownPass := t.ownPass })
    (husual : usual c') (hc : arming c = false) (hcoming : coming c' ↔ coming c) :
    Goes s c t c' := by
  rw [hbeside]
  exact .other rfl rfl hwf rfl rfl rfl husual hc (left_congr rfl rfl hcoming) fun h => absurd rfl h

theorem coming_next (k : Pumper) : coming k.next ↔ k = .low := by
  cases k with
  | low => exact iff_of_true trivial rfl
  | send => exact iff_of_false id nofun
  | drain since => exact iff_of_false id nofun

theorem usual_next (k : Pumper) : usual k.next := by
  cases k <;> trivial

/-- A frame has its header. -/
theorem emits_ne_nil {q q' : SendQueue} {amount : Nat} {frame : Bytes}
    (h : SendQueue.Emits q amount (some frame, q')) : frame ≠ [] ∧ q.isEmpty = false := by
  cases h with
  | part hb hp hmore => exact ⟨List.cons_ne_nil _ _, by rw [SendQueue.isEmpty, hp]; rfl⟩
  | last hb hp hlast => exact ⟨List.cons_ne_nil _ _, by rw [SendQueue.isEmpty, hp]; rfl⟩

theorem coming_inside {k : Pumper} {pc : Inside} (h : ∀ frame, pc ≠ .native frame) :
    coming (.inside k pc) ↔ k = .low := or_iff_left fun ⟨frame, hframe⟩ => h frame hframe

theorem goes_inside {s t : Shared} {pc : Inside} {m : Moved} (k : Pumper)
    (hopen : s.native = .opened) (hwf : s.queue.WF) (hpc : inUse pc) (h : Moves s pc t m) :
    Goes s (.inside k pc) t (m.next k) := by
  have hsame : ∀ {pc' : Inside}, (∀ frame, pc ≠ .native frame) → (∀ frame, pc' ≠ .native frame) →
      (coming (.inside k pc') ↔ coming (.inside k pc)) :=
    fun hpc hpc' => (coming_inside hpc').trans (coming_inside hpc).symm
  cases h with
  | again h =>
      exact .beside hwf rfl trivial rfl (hsame nofun nofun)
  | done h => exact .beside hwf rfl trivial rfl (hsame nofun nofun)
  | trust h => exact .beside hwf rfl trivial rfl (hsame nofun nofun)
  | doubt h => exact .beside hwf rfl trivial rfl (hsame nofun nofun)
  | read => exact .beside hwf rfl trivial rfl (hsame nofun nofun)
  | note n seen =>
      exact .beside hwf rfl trivial rfl (hsame nofun nofun)
  | @frame amount seen fresh frame queue hemits =>
      obtain ⟨hframe, hqueue⟩ := emits_ne_nil hemits
      refine .other rfl rfl (SendQueue.emits_wf hwf hemits) rfl rfl rfl hframe rfl ?_
        fun h => absurd rfl h
      exact iff_of_true (.inr (.inr (.inr ⟨frame, rfl⟩))) (.inl hqueue)
  | stop h =>
      exact .beside hwf rfl trivial rfl (hsame nofun nofun)
  | send frame h =>
      have hlength : 0 < frame.length := List.length_pos_iff.mpr hpc
      have hfilled : s.buffered + frame.length ≠ 0 := by omega
      exact .other rfl rfl hwf rfl rfl rfl rfl rfl
        (iff_of_true (.inr (.inl hfilled)) (.inr (.inr (.inr ⟨frame, rfl⟩)))) fun _ => hfilled
  | refuse frame h => exact absurd hopen h
  | measure sent => exact .beside hwf rfl hpc rfl (hsame nofun nofun)
  | settle sent after =>
      obtain rfl : sent = true := hpc
      exact .beside hwf rfl trivial rfl (hsame nofun nofun)
  | failed => cases hpc
  | leave => cases hpc
  | unlock =>
      exact .beside hwf rfl trivial rfl (coming_inside fun _ h => by cases h).symm

variable {s t : Channel.State} {i : Nat} {c : Call}

/-- The handler has read no more than its threshold, or something is in the buffer still. -/
theorem left_read (s : Shared) (threshold : Nat) :
    Left s (.fireQueued threshold s.buffered) := by
  by_cases hempty : s.buffered = 0
  · exact .inr (.inr (by rw [hempty]; exact Nat.zero_le threshold))
  · exact .inr (.inl hempty)

theorem queued_eq_zero {q : SendQueue} (h : q.WF) (hempty : q.isEmpty = true) : q.queued = 0 := by
  rw [h.queued, List.isEmpty_iff.mp hempty]
  rfl

theorem goes_queued {s : Shared} {threshold native : Nat} (hwf : s.queue.WF) :
    Goes s (.fireQueued threshold native) s
      (if native + s.queue.queued ≤ threshold then .fireSwap else .done) := by
  split
  · rename_i hle
    refine .same hwf trivial rfl (iff_of_true (.inr (.inr trivial)) (.inr (.inr ?_)))
    exact Nat.le_trans (Nat.le_add_right _ _) hle
  · rename_i hle
    refine .same hwf trivial rfl ⟨?_, ?_⟩
    · exact Or.imp_right (Or.imp_right False.elim)
    · rintro (hqueue | hbuffered | hnative)
      · exact .inl hqueue
      · exact .inr (.inl hbuffered)
      · -- what the handler did not read in the buffer is in the queue
        refine .inl (Bool.eq_false_iff.mpr fun hempty => hle ?_)
        rw [queued_eq_zero hwf hempty]
        exact hnative

theorem goes_of_advance (hopen : s.shared.native = .opened) (hdecided : s.shared.decided = true)
    (hwf : s.shared.queue.WF) (husual : usual c) (hnot : c.returned = false)
    (h : advance s i c = some t) :
    ∃ shared c', t = s.goto shared i c' ∧ Goes s.shared c shared c' := by
  cases c with
  | idle => cases hnot
  | done => cases hnot
  | sent result => cases hnot
  | closed drained since => cases hnot
  | closeNative drained since => cases hnot
  | look w => cases husual
  | prepare w => cases husual
  | decide w threshold => cases husual
  | plain data binary => cases husual
  | early n => cases husual
  | threshold n => cases husual
  | ask w =>
      cases w with
      | send data binary =>
          obtain rfl := Option.some.inj h
          rw [if_pos hdecided]
          exact ⟨_, _, rfl, .same hwf trivial rfl Iff.rfl⟩
      | _ => cases husual
  | check data binary =>
      obtain rfl := Option.some.inj h
      rw [if_pos hopen]
      exact ⟨_, _, rfl, .same hwf trivial rfl Iff.rfl⟩
  | push data binary =>
      simp only [advance] at h
      rcases s.shared.queue.push_cases data binary with ⟨hpush, -, hroom⟩ | ⟨e, hpush⟩
      · rw [hpush] at h
        obtain rfl := Option.some.inj h
        exact ⟨_, _, rfl, .accept data binary hroom⟩
      · rw [hpush] at h
        obtain rfl := Option.some.inj h
        exact ⟨_, _, rfl, .same hwf trivial rfl Iff.rfl⟩
  | arm =>
      obtain rfl := Option.some.inj h
      exact ⟨_, _, rfl, .arm⟩
  | store k =>
      obtain rfl := Option.some.inj h
      exact ⟨_, _, rfl, .beside hwf rfl trivial rfl Iff.rfl⟩
  | tryLock k =>
      simp only [advance] at h
      split at h
      · obtain rfl := Option.some.inj h
        exact ⟨_, _, rfl, .beside hwf rfl trivial rfl (coming_inside fun _ h => by cases h)⟩
      · obtain rfl := Option.some.inj h
        exact ⟨_, _, rfl, .beside hwf rfl (usual_next k) rfl (coming_next k)⟩
  | recheck k =>
      obtain rfl := Option.some.inj h
      split
      · exact ⟨_, _, rfl, .same hwf trivial rfl Iff.rfl⟩
      · exact ⟨_, _, rfl, .beside hwf rfl (usual_next k) rfl (coming_next k)⟩
  | inside k pc =>
      obtain rfl := Option.some.inj h
      exact ⟨_, _, rfl, goes_inside k hopen hwf husual (move_moves s.shared pc)⟩
  | fireRead =>
      obtain rfl := Option.some.inj h
      exact ⟨_, _, rfl, .same hwf trivial rfl
        (iff_of_true (left_read s.shared _) (.inr (.inr trivial)))⟩
  | fireQueued threshold native =>
      obtain rfl := Option.some.inj h
      exact ⟨_, _, rfl, goes_queued hwf⟩
  | fireSwap =>
      obtain rfl := Option.some.inj h
      exact ⟨_, _, rfl, .look⟩
  | closeRead since =>
      obtain rfl := Option.some.inj h
      exact ⟨_, _, rfl, .same hwf trivial rfl Iff.rfl⟩
  | closeQueued since native =>
      obtain rfl := Option.some.inj h
      split
      · exact ⟨_, _, rfl, .same hwf trivial rfl Iff.rfl⟩
      · exact ⟨_, _, rfl, .same hwf trivial rfl Iff.rfl⟩
  | closeState since =>
      obtain rfl := Option.some.inj h
      rw [if_pos hopen]
      exact ⟨_, _, rfl, .beside hwf rfl trivial rfl (iff_of_false (fun h => by cases h) id)⟩

/-! ### The last arming

Of one step, as the state shows it: whether the notice is armed afterwards, and whether
anything is left that leads to a look.
-/

structure Inv (s : State) : Prop where
  native : s.channel.shared.native = .opened
  decided : s.channel.shared.decided = true
  wf : s.channel.shared.queue.WF
  calls : ∀ i, usual (s.channel.calls i)
  unnoticed : s.unnoticed ≠ 0 →
    s.channel.shared.userLowArmed = true ∨ ∃ i, s.channel.calls i = .arm

/-- What a step does to the notice. -/
inductive Effect (s : State) (t : State) : Bool → Prop
  | none (harmed : t.channel.shared.userLowArmed = s.channel.shared.userLowArmed)
      (harm : ∀ i, s.channel.calls i = .arm → t.channel.calls i = .arm)
      (hcoming : Coming t ↔ Coming s) : Effect s t false
  | accept (harmed : t.channel.shared.userLowArmed = s.channel.shared.userLowArmed)
      (harm : ∃ i, t.channel.calls i = .arm) (hcoming : Coming t) : Effect s t false
  | arm (harmed : t.channel.shared.userLowArmed = true) (hcoming : Coming t ↔ Coming s) :
      Effect s t true
  | look (harmed : t.channel.shared.userLowArmed = false)
      (harm : ∀ i, s.channel.calls i = .arm → t.channel.calls i = .arm)
      (hcoming : Coming s) : Effect s t false

section Step

variable {s : State} {i : Nat} {shared : Shared} {c : Call}

theorem coming_iff (s : State) (i : Nat) :
    Coming s ↔ Left s.channel.shared (s.channel.calls i) ∨ s.events ≠ 0 ∨
      ∃ j, j ≠ i ∧ coming (s.channel.calls j) := by
  constructor
  · rintro (hqueue | hbuffered | hevents | ⟨j, hj⟩)
    · exact .inl (.inl hqueue)
    · exact .inl (.inr (.inl hbuffered))
    · exact .inr (.inl hevents)
    · by_cases hij : j = i
      · exact .inl (.inr (.inr (hij ▸ hj)))
      · exact .inr (.inr ⟨j, hij, hj⟩)
  · rintro ((hqueue | hbuffered | hi) | hevents | ⟨j, -, hj⟩)
    · exact .inl hqueue
    · exact .inr (.inl hbuffered)
    · exact .inr (.inr (.inr ⟨i, hi⟩))
    · exact .inr (.inr (.inl hevents))
    · exact .inr (.inr (.inr ⟨j, hj⟩))

theorem events_after (s : State) (t : Channel.State) :
    (s.after t).events ≠ 0 ↔ s.events ≠ 0 ∨
      (t.shared.buffered ≠ s.channel.shared.buffered ∧
        t.shared.buffered ≤ t.shared.trustBelow) := by
  unfold State.after
  split
  · rename_i hraised
    exact iff_of_true (Nat.succ_ne_zero _) (.inr hraised)
  · rename_i hnot
    exact (or_iff_left hnot).symm

/-- A call that leaves as much as it found. -/
theorem coming_after (hleft : Left shared c ↔ Left s.channel.shared (s.channel.calls i))
    (hbuffered : shared.buffered ≠ s.channel.shared.buffered → shared.buffered ≠ 0) :
    Coming (s.after (s.channel.goto shared i c)) ↔ Coming s := by
  have hothers : (∃ j, j ≠ i ∧ coming ((s.after (s.channel.goto shared i c)).channel.calls j)) ↔
      ∃ j, j ≠ i ∧ coming (s.channel.calls j) := by
    refine exists_congr fun j => and_congr_right fun hj => ?_
    show coming ((s.channel.goto shared i c).calls j) ↔ _
    rw [goto_of_ne _ _ _ hj]
  rw [coming_iff _ i, coming_iff s i, hothers, events_after]
  show Left shared ((s.channel.goto shared i c).calls i) ∨ _ ↔ _
  rw [goto_self, hleft]
  constructor
  · rintro (h | (h | ⟨h, -⟩) | h)
    · exact .inl h
    · exact .inr (.inl h)
    · exact .inl (hleft.mp (.inr (.inl (hbuffered h))))
    · exact .inr (.inr h)
  · rintro (h | h | h)
    · exact .inl h
    · exact .inr (.inl (.inl h))
    · exact .inr (.inr h)

/-- The calls after a step: one has moved on. -/
theorem usual_goto (h : ∀ j, usual (s.channel.calls j)) (hc : usual c) :
    ∀ j, usual ((s.channel.goto shared i c).calls j) := by
  intro j
  by_cases hj : j = i
  · subst hj
    rw [goto_self]
    exact hc
  · rw [goto_of_ne _ _ _ hj]
    exact h j

theorem arm_goto (hi : arming (s.channel.calls i) = false) {j : Nat}
    (hj : s.channel.calls j = .arm) : (s.channel.goto shared i c).calls j = .arm := by
  rw [goto_of_ne]
  · exact hj
  · rintro rfl
    rw [hj] at hi
    cases hi

/-- The count goes on where no message and no notice comes. -/
theorem unnoticed_after {t : Channel.State}
    (hnotified : t.shared.notified = s.channel.shared.notified)
    (haccepted : t.shared.accepted = s.channel.shared.accepted) :
    (s.after t).unnoticed = s.unnoticed := by
  show (if _ then _ else _) = _
  rw [if_pos hnotified, haccepted, Nat.sub_self, Nat.add_zero]

theorem unnoticed_kept {t : Channel.State} (h : (s.after t).unnoticed ≠ 0)
    (hnotified : t.shared.notified = s.channel.shared.notified)
    (haccepted : t.shared.accepted = s.channel.shared.accepted) : s.unnoticed ≠ 0 := by
  rwa [unnoticed_after hnotified haccepted] at h

/-- A notice that is armed is given, and the count starts anew. -/
theorem unnoticed_look :
    (s.after (s.channel.goto { s.channel.shared with
      userLowArmed := false
      notified := s.channel.shared.notified +
        if s.channel.shared.userLowArmed then 1 else 0 } i c)).unnoticed =
      if s.channel.shared.userLowArmed then 0 else s.unnoticed := by
  cases s.channel.shared.userLowArmed with
  | true => exact if_neg (Nat.succ_ne_self _)
  | false => exact unnoticed_after rfl rfl

theorem goes_effect (h : Inv s) (hgoes : Goes s.channel.shared (s.channel.calls i) shared c) :
    Inv (s.after (s.channel.goto shared i c)) ∧
      Effect s (s.after (s.channel.goto shared i c)) (arms s (.step i)) := by
  generalize hcall : s.channel.calls i = now at hgoes
  cases hgoes with
  | other hnative hdecided hwf harmed hnotified haccepted husual hc hleft hbuffered =>
      rw [← hcall] at hc hleft
      refine ⟨⟨hnative.trans h.native, hdecided.trans h.decided, hwf, usual_goto h.calls husual,
        fun hunnoticed => ?_⟩, ?_⟩
      · rcases h.unnoticed (unnoticed_kept hunnoticed hnotified haccepted) with hwas | ⟨j, hj⟩
        · exact .inl (harmed.trans hwas)
        · exact .inr ⟨j, arm_goto hc hj⟩
      · rw [arms, hc]
        exact .none harmed (fun j => arm_goto hc) (coming_after hleft hbuffered)
  | accept data binary hroom =>
      have harm : (s.channel.goto { s.channel.shared with
          queue := s.channel.shared.queue.accept data binary
          accepted := s.channel.shared.accepted ++ [(data, binary)] } i .arm).calls i = .arm :=
        goto_self ..
      refine ⟨⟨h.native, h.decided, SendQueue.accept_wf h.wf hroom, usual_goto h.calls trivial,
        fun _ => .inr ⟨i, harm⟩⟩, ?_⟩
      rw [arms, hcall]
      exact .accept rfl ⟨i, harm⟩ (.inl (by simp [State.after, Channel.State.goto,
        SendQueue.isEmpty, SendQueue.accept]))
  | arm =>
      refine ⟨⟨h.native, h.decided, h.wf, usual_goto h.calls trivial, fun _ => .inl rfl⟩, ?_⟩
      rw [arms, hcall]
      refine .arm rfl (coming_after ?_ fun hne => absurd rfl hne)
      rw [hcall]
      exact left_congr rfl rfl (iff_of_false (fun h => by cases h) id)
  | look =>
      have hc : arming (s.channel.calls i) = false := by
        rw [hcall]
        rfl
      refine ⟨⟨h.native, h.decided, h.wf, usual_goto h.calls trivial, fun hunnoticed => ?_⟩, ?_⟩
      · rw [unnoticed_look] at hunnoticed
        cases harmed : s.channel.shared.userLowArmed with
        | true =>
            rw [if_pos harmed] at hunnoticed
            exact absurd rfl hunnoticed
        | false =>
            rw [if_neg (Bool.not_eq_true _ ▸ harmed)] at hunnoticed
            rcases h.unnoticed hunnoticed with hwas | ⟨j, hj⟩
            · rw [harmed] at hwas
              cases hwas
            · exact .inr ⟨j, arm_goto hc hj⟩
      · rw [arms, hc]
        exact .look rfl (fun j => arm_goto hc) (.inr (.inr (.inr ⟨i, by rw [hcall]; trivial⟩)))

end Step

variable {config : SendConfig} {valid : config.validate = .ok ()} {threshold : Nat}

/-- A call begins, or a `drain` runs out of time. -/
theorem begin_effect {s : State} {i : Nat} {c : Call} (h : Inv s) (husual : usual c)
    (hwas : arming (s.channel.calls i) = false) (hbefore : ¬ coming (s.channel.calls i))
    (hc : ¬ coming c) :
    Inv (s.after (s.channel.goto s.channel.shared i c)) ∧
      Effect s (s.after (s.channel.goto s.channel.shared i c)) false := by
  have hgoes : Goes s.channel.shared (s.channel.calls i) s.channel.shared c :=
    .same h.wf husual hwas (left_congr rfl rfl (iff_of_false hc hbefore))
  have heffect := goes_effect h hgoes
  rwa [arms, hwas] at heffect

/-- The handler of an event is to look. -/
theorem event_effect {s : State} {i : Nat} (h : Inv s) (hevents : s.events ≠ 0)
    (hidle : s.channel.calls i = .idle) :
    Inv ({ s with events := s.events - 1 }.after
        (s.channel.goto s.channel.shared i (.store .low))) ∧
      Effect s ({ s with events := s.events - 1 }.after
        (s.channel.goto s.channel.shared i (.store .low))) false := by
  have hwas : arming (s.channel.calls i) = false := by
    rw [hidle]
    rfl
  have hcoming : coming ((s.channel.goto s.channel.shared i (.store .low)).calls i) := by
    rw [goto_self]
    rfl
  refine ⟨⟨h.native, h.decided, h.wf, usual_goto h.calls trivial, fun hunnoticed => ?_⟩, ?_⟩
  · rcases h.unnoticed (unnoticed_kept hunnoticed rfl rfl) with hwas' | ⟨j, hj⟩
    · exact .inl hwas'
    · exact .inr ⟨j, arm_goto hwas hj⟩
  · exact .none rfl (fun j => arm_goto hwas)
      (iff_of_true (.inr (.inr (.inr ⟨i, hcoming⟩))) (.inr (.inr (.inl hevents))))

/-- The native side sends from its buffer, and raises an event when nothing is left. -/
theorem flow_effect {s : State} (n : Nat) (h : Inv s) :
    Inv (s.after { s.channel with
      shared := { s.channel.shared with buffered := s.channel.shared.buffered - n } }) ∧
      Effect s (s.after { s.channel with
        shared := { s.channel.shared with buffered := s.channel.shared.buffered - n } }) false := by
  refine ⟨⟨h.native, h.decided, h.wf, h.calls, fun hunnoticed => ?_⟩, .none rfl (fun _ => id) ?_⟩
  · exact h.unnoticed (unnoticed_kept hunnoticed rfl rfl)
  · refine or_congr_right ?_
    rw [events_after]
    show s.channel.shared.buffered - n ≠ 0 ∨ (s.events ≠ 0 ∨
      (s.channel.shared.buffered - n ≠ s.channel.shared.buffered ∧
        s.channel.shared.buffered - n ≤ s.channel.shared.trustBelow)) ∨ _ ↔
      s.channel.shared.buffered ≠ 0 ∨ s.events ≠ 0 ∨ _
    by_cases hempty : s.channel.shared.buffered = 0
    · rw [hempty, Nat.zero_sub]
      refine or_congr_right (or_congr_left (or_iff_left fun hchanged => hchanged.1 rfl))
    · refine iff_of_true ?_ (.inl hempty)
      by_cases hleft : s.channel.shared.buffered - n = 0
      · refine .inr (.inl (.inr ⟨?_, ?_⟩))
        · rw [hleft]
          exact Ne.symm hempty
        · rw [hleft]
          exact Nat.zero_le _
      · exact .inl hleft

theorem step_effect {s t : State} {a : Action} (h : Inv s)
    (hstep : (machine config valid threshold).step s a = some t) :
    Inv t ∧ Effect s t (arms s a) := by
  cases a with
  | send i data binary =>
      obtain ⟨u, hu, rfl⟩ := Option.map_eq_some_iff.mp hstep
      simp only [Channel.step] at hu
      split at hu
      · rename_i hidle
        obtain rfl := Option.some.inj hu
        refine begin_effect h trivial ?_ ?_ ?_
        · rw [hidle]
          rfl
        · rw [hidle]
          exact id
        · exact id
      · cases hu
  | drain i =>
      simp only [machine] at hstep
      split at hstep
      · rename_i hidle
        obtain rfl := Option.some.inj hstep
        refine begin_effect h trivial ?_ ?_ ?_
        · rw [hidle]
          rfl
        · rw [hidle]
          exact id
        · exact id
      · cases hstep
  | expire i =>
      obtain ⟨u, hu, rfl⟩ := Option.map_eq_some_iff.mp hstep
      simp only [Channel.step] at hu
      split at hu
      · rename_i since hstate
        obtain rfl := Option.some.inj hu
        refine begin_effect h trivial ?_ ?_ ?_
        · rw [hstate]
          rfl
        · rw [hstate]
          exact id
        · exact id
      · cases hu
  | event i =>
      simp only [machine] at hstep
      split at hstep
      · cases hstep
      · rename_i hevents
        obtain ⟨u, hu, rfl⟩ := Option.map_eq_some_iff.mp hstep
        simp only [Channel.step] at hu
        split at hu
        · rename_i hidle
          obtain rfl := Option.some.inj hu
          simp only [Shared.enter, if_pos h.decided]
          exact event_effect h hevents hidle
        · cases hu
  | flow n =>
      obtain rfl := Option.some.inj hstep
      exact flow_effect n h
  | step i =>
      simp only [machine] at hstep
      split at hstep
      · cases hstep
      · rename_i hnot
        obtain ⟨u, hu, rfl⟩ := Option.map_eq_some_iff.mp hstep
        obtain ⟨shared, c, rfl, hgoes⟩ := goes_of_advance h.native h.decided h.wf (h.calls i)
          (Bool.eq_false_iff.mpr hnot) hu
        exact goes_effect h hgoes

/-! ### Runs

What an arming finds decides what is known from then on.  If something is to come the notice
is given or still to come, and if nothing is, it is armed for nothing until another call
pushes.
-/

theorem inv_start : Inv (machine config valid threshold).start where
  native := rfl
  decided := rfl
  wf := ⟨rfl, Nat.zero_le _, nofun, nofun⟩
  calls _ := trivial
  unnoticed h := absurd rfl h

theorem step_inv (s : State) (a : Action) (t : State) (h : Inv s)
    (hstep : (machine config valid threshold).step s a = some t) : Inv t :=
  (step_effect h hstep).1

/-- What is known after an arming in the state `r`. -/
structure Since (r s : State) : Prop where
  /-- The notice is still to come, or has come. -/
  inTime : Coming r → s.channel.shared.userLowArmed = true → Coming s
  /-- It is not, and another call is needed. -/
  late : ¬ Coming r → (s.channel.shared.userLowArmed = true ∧ ¬ Coming s) ∨
    ∃ i, s.channel.calls i = .arm

theorem since_arm (s : State) (a : Action) (t : State) (h : Inv s) (harms : arms s a = true)
    (hstep : (machine config valid threshold).step s a = some t) : Since s t := by
  have heffect := (step_effect h hstep).2
  rw [harms] at heffect
  cases heffect with
  | arm harmed hcoming =>
      exact ⟨fun hs _ => hcoming.mpr hs, fun hs => .inl ⟨harmed, fun ht => hs (hcoming.mp ht)⟩⟩

theorem since_step (r s : State) (a : Action) (t : State) (h : Inv s) (harms : arms s a = false)
    (hsince : Since r s) (hstep : (machine config valid threshold).step s a = some t) :
    Since r t := by
  have heffect := (step_effect h hstep).2
  rw [harms] at heffect
  cases heffect with
  | none harmed harm hcoming =>
      refine ⟨fun hr ht => ?_, fun hr => ?_⟩
      · exact hcoming.mpr (hsince.inTime hr (harmed.symm.trans ht))
      · rcases hsince.late hr with ⟨hs, hnot⟩ | ⟨i, hi⟩
        · exact .inl ⟨harmed.trans hs, fun ht => hnot (hcoming.mp ht)⟩
        · exact .inr ⟨i, harm i hi⟩
  | accept harmed harm hcoming => exact ⟨fun _ _ => hcoming, fun _ => .inr harm⟩
  | look harmed harm hcoming =>
      refine ⟨fun _ ht => ?_, fun hr => ?_⟩
      · rw [harmed] at ht
        cases ht
      · rcases hsince.late hr with ⟨-, hnot⟩ | ⟨i, hi⟩
        · exact absurd hcoming hnot
        · exact .inr ⟨i, harm i hi⟩

/-- Without an arming there is nothing to be noticed. -/
theorem unarmed_step (s : State) (a : Action) (t : State) (h : Inv s) (harms : arms s a = false)
    (hs : s.channel.shared.userLowArmed = false)
    (hstep : (machine config valid threshold).step s a = some t) :
    t.channel.shared.userLowArmed = false := by
  have heffect := (step_effect h hstep).2
  rw [harms] at heffect
  cases heffect with
  | none harmed harm hcoming => exact harmed.trans hs
  | accept harmed harm hcoming => exact harmed.trans hs
  | look harmed harm hcoming => exact harmed

theorem Quiet.not_arm {s : State} (h : Quiet s) (i : Nat) : s.channel.calls i ≠ .arm := by
  intro hi
  have hreturned := h.calls i
  rw [hi] at hreturned
  cases hreturned

theorem Quiet.not_coming {s : State} (h : Quiet s) : ¬ Coming s := by
  rintro (hqueue | hbuffered | hevents | ⟨i, hi⟩)
  · rw [h.queue] at hqueue
    cases hqueue
  · exact hbuffered h.buffered
  · exact hevents h.events
  · have hreturned := h.calls i
    cases hc : s.channel.calls i with
    | idle | done | sent result | closed drained since | closeNative drained since =>
        rw [hc] at hi
        exact hi
    | _ =>
        rw [hc] at hreturned
        cases hreturned

/-- Unarmed, nothing is left unnoticed. -/
theorem Quiet.unnoticed {s : State} (h : Quiet s) (hinv : Inv s)
    (hunarmed : s.channel.shared.userLowArmed = false) : s.unnoticed = 0 := by
  by_contra hunnoticed
  rcases hinv.unnoticed hunnoticed with harmed | ⟨i, hi⟩
  · rw [hunarmed] at harmed
    cases harmed
  · exact h.not_arm i hi

/-- Where nothing is left, a notice that was armed in time has come. -/
theorem unarmed_of_in_time {actions : List Action} {t : State}
    (hrun : (machine config valid threshold).run (machine config valid threshold).start actions =
      some t)
    (hquiet : Quiet t)
    (hcoming : ∀ s, (machine config valid threshold).last arms
      (machine config valid threshold).start actions = some s → Coming s) :
    t.channel.shared.userLowArmed = false := by
  cases hlast : (machine config valid threshold).last arms
      (machine config valid threshold).start actions with
  | none => exact Machine.run_none step_inv unarmed_step inv_start rfl hrun hlast
  | some r =>
      have hsince : Since r t := Machine.run_last step_inv since_arm since_step inv_start hrun hlast
      rw [Bool.eq_false_iff]
      intro harmed
      exact hquiet.not_coming (hsince.inTime (hcoming r hlast) harmed)

/-- A run in which every arming comes in time leaves nothing unnoticed. -/
theorem noticed_of_guarded {actions : List Action} {t : State}
    (hrun : (machine config valid threshold).run (machine config valid threshold).start actions =
      some t)
    (hguarded : (machine config valid threshold).Guarded (fun s a => arms s a = true → Coming s)
      (machine config valid threshold).start actions) : Noticed t := by
  intro hquiet
  have hinv : Inv t := Machine.run_invariant step_inv inv_start hrun
  have hunarmed : t.channel.shared.userLowArmed = false := by
    refine unarmed_of_in_time hrun hquiet fun s hs => ?_
    obtain ⟨a, harms, hcoming⟩ := hguarded.last hs
    exact hcoming harms
  exact ⟨hunarmed, hquiet.unnoticed hinv hunarmed⟩

/--
**When no notice for the buffer's low mark is lost.**  Where nothing is left, a notice has
followed each send exactly if the last arming of the notice came while something was; and so
in a run whose armings all come in time none is lost in any state on the way.
-/
theorem noticed_iff_armed_in_time (config : SendConfig) (valid : config.validate = .ok ())
    (threshold : Nat) (actions : List Action) {t : State}
    (hrun : (machine config valid threshold).run (machine config valid threshold).start actions =
      some t) :
    (Noticed t ↔ (Quiet t → ∀ s, (machine config valid threshold).last arms
        (machine config valid threshold).start actions = some s → Coming s)) ∧
      ((machine config valid threshold).Guarded (fun s a => arms s a = true → Coming s)
          (machine config valid threshold).start actions →
        (machine config valid threshold).Along Noticed (machine config valid threshold).start
          actions) := by
  have hinv : Inv t := Machine.run_invariant step_inv inv_start hrun
  refine ⟨imp_congr_right fun hquiet => ?_,
    fun hguarded => hguarded.along fun bs u hbs hu => noticed_of_guarded hu hbs⟩
  constructor
  · intro hnoticed r hr
    by_contra hnot
    have hsince : Since r t := Machine.run_last step_inv since_arm since_step inv_start hrun hr
    rcases hsince.late hnot with ⟨harmed, -⟩ | ⟨i, hi⟩
    · rw [hnoticed.1] at harmed
      cases harmed
    · exact hquiet.not_arm i hi
  · intro hcoming
    have hunarmed : t.channel.shared.userLowArmed = false :=
      unarmed_of_in_time hrun hquiet hcoming
    exact ⟨hunarmed, hquiet.unnoticed hinv hunarmed⟩

/-! ### Two runs -/

/-- The call an action moves. -/
def Action.of : Action → Option Nat
  | .send i _ _ | .drain i | .expire i | .event i | .step i => some i
  | .flow _ => none

theorem step_others {s t : State} {a : Action} {j : Nat} (hj : a.of ≠ some j)
    (hstep : (machine config valid threshold).step s a = some t) :
    t.channel.calls j = s.channel.calls j := by
  have hne : ∀ {i : Nat}, a.of = some i → j ≠ i := by
    rintro i hi rfl
    exact hj hi
  cases a with
  | send i data binary =>
      obtain ⟨u, hu, rfl⟩ := Option.map_eq_some_iff.mp hstep
      exact Channel.step_others hu hj
  | drain i =>
      simp only [machine] at hstep
      split at hstep
      · obtain rfl := Option.some.inj hstep
        exact goto_of_ne _ _ _ (hne rfl)
      · cases hstep
  | expire i =>
      obtain ⟨u, hu, rfl⟩ := Option.map_eq_some_iff.mp hstep
      exact Channel.step_others hu hj
  | event i =>
      simp only [machine] at hstep
      split at hstep
      · cases hstep
      · obtain ⟨u, hu, rfl⟩ := Option.map_eq_some_iff.mp hstep
        exact Channel.step_others hu hj
  | flow n =>
      obtain rfl := Option.some.inj hstep
      rfl
  | step i =>
      simp only [machine] at hstep
      split at hstep
      · cases hstep
      · obtain ⟨u, hu, rfl⟩ := Option.map_eq_some_iff.mp hstep
        exact (advance_advances hu).others (hne rfl)

/-- Of the calls of a run only those that its actions are of have to be looked at. -/
theorem returned_of_below {actions : List Action} {s t : State} (n : Nat)
    (hrun : (machine config valid threshold).run s actions = some t)
    (hidle : ∀ i, s.channel.calls i = .idle)
    (hactions : ∀ a ∈ actions, a.of.all (· < n) = true)
    (hbelow : ∀ i < n, (t.channel.calls i).returned = true) (i : Nat) :
    (t.channel.calls i).returned = true := by
  by_cases hi : i < n
  · exact hbelow i hi
  · have hstill : t.channel.calls i = .idle := by
      refine Machine.run_kept (A := fun a => a.of ≠ some i)
        (I := fun s => s.channel.calls i = .idle)
        (fun _ _ _ ha hs hstep => (step_others ha hstep).trans hs) (fun a ha hof => ?_)
        (hidle i) hrun
      have hlt := hactions a ha
      rw [hof, Option.all_some, decide_eq_true_eq] at hlt
      exact hi hlt
    rw [hstill]
    rfl

def steps (i n : Nat) : List Action := List.replicate n (.step i)

/-- A send, and what follows from it. -/
def sendAlone : List Action :=
  .send 0 [7] true :: (steps 0 19 ++ .flow 2 :: .event 1 :: (steps 1 11 ++
    .event 2 :: steps 2 11))

/-- Two sends, of which the first stops before it arms the notice and the second sends both
messages.  Then all native events are handled. -/
def sendOvertaken : List Action :=
  .send 0 [7] true :: (steps 0 3 ++ .send 1 [8] true :: (steps 1 24 ++ .flow 4 ::
    .event 2 :: (steps 2 11 ++ .event 3 :: (steps 3 11 ++ .event 4 :: (steps 4 11 ++
      steps 0 9)))))

theorem noticed_alone :
    Noticed ((machine {} default_valid 0).final (machine {} default_valid 0).start sendAlone
        (by decide +kernel)) ∧
      (machine {} default_valid 0).Along Noticed (machine {} default_valid 0).start sendAlone := by
  have hboth := noticed_iff_armed_in_time {} default_valid 0 sendAlone
    ((machine {} default_valid 0).run_final _ _ (by decide +kernel))
  refine ⟨hboth.1.mpr fun _ s hs => .inl ?_, hboth.2 ?_⟩
  · -- the message is still in the queue when the notice is armed
    have hqueue : ((machine {} default_valid 0).last arms (machine {} default_valid 0).start
        sendAlone).all (fun s => !s.channel.shared.queue.isEmpty) = true := by decide +kernel
    rw [hs, Option.all_some, Bool.not_eq_true'] at hqueue
    exact hqueue
  · have hqueued : (machine {} default_valid 0).Guarded
        (fun s a => arms s a = true → s.channel.shared.queue.isEmpty = false)
        (machine {} default_valid 0).start sendAlone := by decide +kernel
    exact hqueued.mono fun s a h harms => .inl (h harms)

/-- The notice for two sends comes, and then the first arms it once more. -/
theorem late_arming_unnoticed :
    ¬ ∀ s, (machine {} default_valid 0).Reachable s → Noticed s := by
  intro h
  have hrun := (machine {} default_valid 0).run_final (machine {} default_valid 0).start
    sendOvertaken (by decide +kernel)
  have hquiet : Quiet ((machine {} default_valid 0).final (machine {} default_valid 0).start
      sendOvertaken (by decide +kernel)) :=
    ⟨returned_of_below 5 hrun (fun _ => rfl) (by decide +kernel) (by decide +kernel),
      by decide +kernel, by decide +kernel, by decide +kernel⟩
  have hunarmed := (h _ (Machine.Reachable.start.run hrun) hquiet).1
  exact absurd hunarmed (by decide +kernel)

end Low

end Channel

end ReactorWebrtc
