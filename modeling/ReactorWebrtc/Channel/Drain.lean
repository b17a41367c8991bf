/-
What a drain that returns true has handed over.

`drain` adds up the native buffer and the bytes in the queue, and `close` takes a zero
for everything being gone.  Two things it does not count: a frame that a pump on
another thread has taken from the queue and not yet sent, and an empty message, which
waits in the queue without adding a byte.  `HandsEmpty` says that at the native close
neither is left of the messages accepted before the call, and
`drain_complete_iff_handsEmpty` that this is exactly when all of them have been handed
over: by then nothing else of theirs can be left in the queue.

A message is handed over with its last frame, the one without the MORE bit, and the
messages leave in the order in which they were accepted, so it is enough to count:
those whose last frame was returned, those still in the queue, those handed over.

Nobody but the one call of `close` closes the channel here.
-/
import Mathlib.Algebra.Order.BigOperators.Group.List
import ReactorWebrtc.Channel.Requests

namespace ReactorWebrtc

namespace Channel

/-- The frame that ends a message. -/
def isLast : Bytes → Bool
  | header :: _ =>
    match Header.decode header with
    | .ok h => !h.more
    | .error _ => false
  | [] => false

def lastFrames (frames : List Bytes) : Nat := frames.countP isLast

/-- How many messages have left with their last frame, and how many left the queue. -/
def Shared.completed (s : Shared) : Nat := lastFrames (framesOf s.handed)

def Shared.unqueued (s : Shared) : Nat := lastFrames s.returned

/-- The channel is used and drained by anybody, and closed by call 0. -/
def undisturbed : Action → Bool
  | .native next => decide (next = .opened)
  | .call i .close => decide (i = 0)
  | _ => true

/-- A drain that returned true before the native close: everything accepted before the
call has been handed over. -/
def State.Complete (s : State) : Prop :=
  ∀ i n, s.calls i = .closed true n → n ≤ s.shared.completed

/-- At the native close after such a drain, no pump has the last frame of a message
accepted before the call in its hands, and no empty one is in the queue. -/
def State.HandsEmpty (s : State) : Action → Prop
  | .step i =>
    match s.calls i with
    | .closeNative true n =>
      (∀ f ∈ inHand s.view.inside, isLast f = true → n < s.shared.unqueued) ∧
        ∀ p ∈ s.shared.queue.pending.take (n - s.shared.unqueued), p.data ≠ []
    | _ => True
  | _ => True

/-- Not closed yet. -/
def Shared.Live (s : Shared) : Prop := s.native = .connecting ∨ s.native = .opened

/-! ### Counting messages

A message in the queue is one whose last frame has not been returned.  So the accepted
messages are those in the queue and those whose last frame was returned, and a queue without
a byte in it has empty messages only.
-/

theorem lastFrames_append (fs gs : List Bytes) :
    lastFrames (fs ++ gs) = lastFrames fs + lastFrames gs := List.countP_append

theorem isLast_encode (h : Header) (payload : Bytes) :
    isLast (h.encode :: payload) = !h.more := by
  simp [isLast]

/-- A message leaves the queue with its last frame, and not before. -/
theorem unqueued_emits {q q' : SendQueue} {b : Nat} {f : Bytes}
    (h : SendQueue.Emits q b (some f, q')) :
    (isLast f = false ∧ q'.pending.map (·.data) = q.pending.map (·.data)) ∨
      (isLast f = true ∧ ∃ p, q.pending = p :: q'.pending) := by
  cases h with
  | part hb hp hmore =>
      refine .inl ⟨isLast_encode .., ?_⟩
      rw [hp]
      rfl
  | last hb hp hlast => exact .inr ⟨isLast_encode .., _, hp⟩

/-- What a channel that is not closed yet accounts for. -/
structure Shared.Account (s : Shared) : Prop where
  refused : s.refused = false
  wf : s.queue.WF
  count : s.unqueued + s.queue.pending.length = s.accepted.length

/-- Of the first `n` messages accepted, only empty ones are in the queue. -/
def Shared.OnlyEmpty (s : Shared) (n : Nat) : Prop :=
  ∀ data ∈ (s.queue.pending.map (·.data)).take (n - s.unqueued), data = []

theorem left_le_leftOf {p : Pending} {ps : List Pending} (h : p ∈ ps) :
    p.left ≤ SendQueue.leftOf ps :=
  List.le_sum_of_mem (List.mem_map_of_mem h)

/-- A queue that counts no bytes holds empty messages only. -/
theorem empty_of_no_bytes {q : SendQueue} (h : q.WF) (hzero : q.queued = 0) {p : Pending}
    (hp : p ∈ q.pending) : p.data = [] := by
  have hleft : p.data.length - p.offset = 0 := by
    have hle : p.left ≤ SendQueue.leftOf q.pending := left_le_leftOf hp
    have hsum : q.queued = SendQueue.leftOf q.pending := h.queued
    unfold Pending.left at hle
    omega
  have hoffset : p.offset = 0 := by
    obtain ⟨head, rest, hq⟩ := List.exists_cons_of_ne_nil (List.ne_nil_of_mem hp)
    rw [hq] at hp
    rcases List.mem_cons.mp hp with rfl | hrest
    · by_contra hpos
      have := h.head p (by rw [hq]; rfl) (by omega)
      omega
    · exact h.rest p (by rw [hq]; exact hrest)
  exact List.length_eq_zero_iff.mp (by omega)

/-- A drain that counts no bytes leaves nothing else. -/
theorem Shared.Account.onlyEmpty {s : Shared} (h : s.Account) (hzero : s.queue.queued = 0)
    (n : Nat) : s.OnlyEmpty n := by
  intro data hdata
  obtain ⟨p, hp, rfl⟩ := List.mem_map.mp (List.mem_of_mem_take hdata)
  exact empty_of_no_bytes h.wf hzero hp

/-! ### A channel that is not closed

As long as the channel is open, what leaves the queue leaves it as a frame: only a closed
channel has its queue cleared.
-/

variable {s t : Shared}

theorem Outside.live (h : Outside s t) (ht : t.Live) : s.Live := by
  cases h with
  | native next hnext =>
      cases hs : s.native with
      | connecting => exact .inl hs
      | opened => exact .inr hs
      | closing | closed =>
          rw [hs] at hnext
          rcases ht with ht | ht
          · rw [show next = .connecting from ht] at hnext
            cases hnext
          · rw [show next = .opened from ht] at hnext
            cases hnext
  | _ => exact ht

theorem Moves.native {pc : Inside} {m : Moved} (h : Moves s pc t m) : t.native = s.native := by
  cases h <;> rfl

theorem View.Step.live {v w : View} (h : View.Step v w) (hw : w.shared.Live) : v.shared.Live := by
  cases h with
  | outside hout => exact hout.live hw
  | take i hlock => exact hw
  | stay hmove =>
      unfold Shared.Live at hw ⊢
      rwa [hmove.native] at hw
  | leave hmove hm =>
      unfold Shared.Live at hw ⊢
      rwa [hmove.native] at hw

/-- What a step does to the queue of a channel that is not closed. -/
inductive Shared.Queued (s t : Shared) : Prop
  | same (hqueue : t.queue = s.queue) (haccepted : t.accepted = s.accepted)
      (hreturned : t.returned = s.returned)
  | accept (data : Bytes) (binary : Bool)
      (hroom : s.queue.queued + data.length ≤ s.queue.config.queueLimit)
      (hqueue : t.queue = s.queue.accept data binary)
      (haccepted : t.accepted = s.accepted ++ [(data, binary)])
      (hreturned : t.returned = s.returned)
  | frame {amount : Nat} {f : Bytes} (hemits : SendQueue.Emits s.queue amount (some f, t.queue))
      (haccepted : t.accepted = s.accepted) (hreturned : t.returned = s.returned ++ [f])

theorem View.Step.queued {v w : View} (h : View.Step v w) (hw : w.shared.Live)
    (hrefused : v.shared.refused = false)
    (hstarted : v.shared.native = .connecting → v.inside = none)
    (hrefusing : ∀ pc, v.inside = some pc → pc.refusing = true → v.shared.refused = true) :
    v.shared.Queued w.shared ∧ w.shared.refused = false := by
  cases h with
  | outside hout =>
      cases hout with
      | accept data binary hroom => exact ⟨.accept data binary hroom rfl rfl rfl, hrefused⟩
      | clear hclosed =>
          rcases hw with hw | hw <;> rw [hclosed] at hw <;> cases hw
      | _ => exact ⟨.same rfl rfl rfl, hrefused⟩
  | take i hlock => exact ⟨.same rfl rfl rfl, hrefused⟩
  | stay hmove =>
      cases hmove with
      | frame hemits => exact ⟨.frame hemits rfl rfl, hrefused⟩
      | refuse f hopen =>
          rcases hw with hw | hw
          · have hnone := hstarted hw
            cases hnone
          · exact absurd hw hopen
      | failed =>
          have hwas := hrefusing .failed rfl rfl
          rw [hrefused] at hwas
          cases hwas
      | _ => exact ⟨.same rfl rfl rfl, hrefused⟩
  | leave hmove hm =>
      cases hmove with
      | leave | unlock => exact ⟨.same rfl rfl rfl, hrefused⟩
      | _ => rcases hm with hm | hm <;> cases hm

theorem Shared.Queued.account (h : s.Queued t) (hs : s.Account) (hrefused : t.refused = false) :
    t.Account := by
  obtain ⟨-, hwf, hcount⟩ := hs
  unfold Shared.unqueued at hcount
  refine ⟨hrefused, ?_, ?_⟩
  · cases h with
    | same hqueue => rwa [hqueue]
    | accept data binary hroom hqueue =>
        rw [hqueue]
        exact SendQueue.accept_wf hwf hroom
    | frame hemits => exact SendQueue.emits_wf hwf hemits
  · unfold Shared.unqueued
    cases h with
    | same hqueue haccepted hreturned => rwa [hqueue, haccepted, hreturned]
    | accept data binary hroom hqueue haccepted hreturned =>
        rw [hqueue, haccepted, hreturned, List.length_append, ← hcount]
        simp [SendQueue.accept]
        omega
    | frame hemits haccepted hreturned =>
        rw [haccepted, hreturned, lastFrames_append, ← hcount]
        rcases unqueued_emits hemits with ⟨hlast, hsame⟩ | ⟨hlast, p, hp⟩
        · have hlength := congrArg List.length hsame
          simp only [List.length_map] at hlength
          simp [lastFrames, hlast, hlength]
        · simp [lastFrames, hlast, hp]
          omega

theorem Shared.Queued.onlyEmpty (h : s.Queued t) (hs : s.Account) {n : Nat}
    (hn : n ≤ s.accepted.length) (hempty : s.OnlyEmpty n) : t.OnlyEmpty n := by
  have hcount := hs.count
  unfold Shared.OnlyEmpty Shared.unqueued at *
  cases h with
  | same hqueue haccepted hreturned => rwa [hqueue, hreturned]
  | accept data binary hroom hqueue haccepted hreturned =>
      rw [hqueue, hreturned]
      -- the new message comes after the first `n`
      have htake : n - lastFrames s.returned ≤ (s.queue.pending.map (·.data)).length := by
        rw [List.length_map]
        omega
      simp only [SendQueue.accept, List.map_append]
      rwa [List.take_append_of_le_length htake]
  | @frame amount f hemits haccepted hreturned =>
      rw [hreturned, lastFrames_append]
      rcases unqueued_emits hemits with ⟨hlast, hsame⟩ | ⟨hlast, p, hp⟩
      · rw [hsame]
        simpa [lastFrames, hlast] using hempty
      · intro data hdata
        rw [hp] at hempty
        refine hempty data ?_
        rw [List.map_cons]
        have hone : lastFrames [f] = 1 := by simp [lastFrames, hlast]
        rw [hone] at hdata
        cases hleft : n - lastFrames s.returned with
        | zero =>
            rw [show n - (lastFrames s.returned + 1) = 0 by omega] at hdata
            simp at hdata
        | succ k =>
            rw [show n - (lastFrames s.returned + 1) = k by omega] at hdata
            rw [List.take_succ_cons]
            exact List.mem_cons_of_mem _ hdata

/-! ### Where a close stands

Between the native state that a call of `close` reads and the native close there are the
reads of the buffer and of the queue, and other threads go on sending.  `Drained` keeps, for
that one call, how many messages had been accepted before it began.
-/

/-- Past a point that a call reaches only once the channel has been open. -/
def Call.pastOpen : Call → Bool
  | .prepare _ | .decide _ _ | .check _ _ | .push _ _ | .arm | .store _ | .tryLock _ | .recheck _
  | .inside _ _ | .threshold _ | .fireRead | .fireQueued _ _ | .fireSwap | .closeRead _
  | .closeQueued _ _ | .closeState _ | .closeNative true _ | .closed true _ => true
  | _ => false

variable {s t : State} {i : Nat} {c : Call}

theorem Asker.plain_pastOpen (w : Asker) : w.plain.pastOpen = false := by
  cases w <;> rfl

/-- While the channel is connecting, nobody gets past that point, and nobody decides. -/
theorem advance_connecting (h : advance s i c = some t) (hnative : s.shared.native = .connecting)
    (hdecided : s.shared.decided = false) (hc : c.pastOpen = false) :
    t.shared.decided = false ∧ (t.calls i).pastOpen = false := by
  cases c with
  | idle | done | sent result => cases h
  | ask w =>
      obtain rfl := Option.some.inj h
      rw [hdecided, goto_self]
      exact ⟨hdecided, rfl⟩
  | look w =>
      obtain rfl := Option.some.inj h
      rw [hnative, goto_self]
      exact ⟨hdecided, w.plain_pastOpen⟩
  | plain data binary =>
      simp only [advance, hnative] at h
      obtain rfl := Option.some.inj h
      rw [goto_self]
      exact ⟨hdecided, rfl⟩
  | early n =>
      obtain rfl := Option.some.inj h
      rw [goto_self]
      exact ⟨hdecided, rfl⟩
  | closeNative drained since =>
      cases drained with
      | true => cases hc
      | false =>
          obtain rfl := Option.some.inj h
          rw [goto_self]
          exact ⟨hdecided, rfl⟩
  | closed drained since => cases h
  | _ => cases hc

/-- How a step moves the call it is of. -/
structure Turn (s : State) (a : Action) (t : State) (i : Nat) : Prop where
  since : ∀ n, (t.calls i).since? = some n →
    (s.calls i).since? = some n ∨ a = .call i .close ∧ n = s.shared.accepted.length
  drained : ∀ n, t.calls i = .closeNative true n →
    s.calls i = .closeNative true n ∨ s.shared.queue.queued = 0 ∧ t.shared = s.shared
  closed : ∀ n, t.calls i = .closed true n →
    s.calls i = .closed true n ∨ a = .step i ∧ s.calls i = .closeNative true n

theorem Turn.of_eq {a : Action} (h : t.calls i = s.calls i) : Turn s a t i := by
  constructor <;> intro n hn <;> rw [h] at hn <;> exact .inl hn

theorem Turn.of_quiet {a : Action} {shared : Shared} (h : c.Quiet (s.calls i).since?) :
    Turn s a (s.goto shared i c) i := by
  constructor <;> intro n hn <;> rw [goto_self] at hn
  · exact .inl (h.since ▸ hn)
  · exact absurd hn (h.drained n)
  · exact absurd hn (h.closed true n)

theorem Moved.next_since (k : Pumper) (m : Moved) : (m.next k).since? = k.since? := by
  cases m with
  | gone => exact k.next_quiet.since
  | _ => rfl

theorem Advances.turn (h : Advances s i (s.calls i) t) : Turn s (.step i) t i := by
  generalize hc : s.calls i = c at h
  cases h with
  | aside decided early user armed notified haside hquiet => exact .of_quiet (hc ▸ hquiet)
  | busy k j hlock => exact .of_quiet (by rw [hc]; exact k.next_quiet)
  | rest k hrest => exact .of_quiet (by rw [hc]; exact k.next_quiet)
  | @inside k pc shared m hmove =>
      constructor <;> intro n hn <;> rw [goto_self] at hn
      · rw [hc]
        exact .inl ((Moved.next_since k m).symm.trans hn)
      · cases m with
        | gone => exact absurd hn (k.next_quiet.drained n)
        | _ => cases hn
      · cases m with
        | gone => exact absurd hn (k.next_quiet.closed true n)
        | _ => cases hn
  | drained hzero =>
      constructor <;> intro n hn <;> rw [goto_self] at hn
      · rw [hc]
        exact .inl hn
      · exact .inr ⟨(Nat.add_eq_zero_iff.mp hzero).2, rfl⟩
      · cases hn
  | close drained since next hnext =>
      constructor <;> intro n hn <;> rw [goto_self] at hn
      · rw [hc]
        exact .inl hn
      · cases hn
      · cases hn
        exact .inr ⟨rfl, hc⟩
  | _ =>
      constructor <;> intro n hn <;> rw [goto_self] at hn
      · rw [hc]
        exact .inl hn
      · cases hn
      · cases hn

theorem step_turn {a : Action} (h : step s a = some t) (i : Nat) : Turn s a t i := by
  by_cases hof : a.of = some i
  · cases step_steps h with
    | start hidle hc hsince hdrained hclosed =>
        obtain rfl := Option.some.inj hof
        constructor <;> intro n hn <;> rw [goto_self] at hn
        · obtain ⟨rfl, hn⟩ := hsince n hn
          exact .inr ⟨rfl, hn⟩
        · exact absurd hn (hdrained n)
        · exact absurd hn (hclosed true n)
    | low hidle hdecided | lowPlain hidle hdecided =>
        obtain rfl := Option.some.inj hof
        constructor <;> intro n hn <;> rw [goto_self] at hn <;> cases hn
    | step j hadvance =>
        obtain rfl := Option.some.inj hof
        exact hadvance.turn
    | expire hc =>
        obtain rfl := Option.some.inj hof
        constructor <;> intro n hn <;> rw [goto_self] at hn
        · rw [hc]
          exact .inl hn
        · cases hn
        · cases hn
    | _ => cases hof
  · exact .of_eq (step_others h hof)

/-- What holds of a channel that only call 0 may close. -/
structure Drained (s : State) : Prop where
  served : Served s
  started : s.shared.native = .connecting →
    s.shared.decided = false ∧ ∀ i, (s.calls i).pastOpen = false
  account : s.shared.Live → s.shared.Account
  since : ∀ i n, (s.calls i).since? = some n → i = 0 ∧ n ≤ s.shared.accepted.length
  /-- It is closed by the native close of that call and by nothing else. -/
  closer : s.shared.Live ∨ ∃ drained n, s.calls 0 = .closed drained n
  empty : ∀ i n, s.calls i = .closeNative true n → s.shared.OnlyEmpty n

/-- Before its native close, the channel is not closed. -/
theorem live_of_closing {drained : Bool} {n : Nat}
    (h : s.shared.Live ∨ ∃ drained n, s.calls 0 = .closed drained n)
    (hc : s.calls 0 = .closeNative drained n) : s.shared.Live := by
  rcases h with hlive | ⟨_, _, hclosed⟩
  · exact hlive
  · rw [hc] at hclosed
    cases hclosed

theorem drained_start {config : SendConfig} {valid : config.validate = .ok ()} :
    Drained (machine config valid).start where
  served := served_start
  started _ := ⟨rfl, fun _ => rfl⟩
  account _ := ⟨rfl, SendQueue.clear_wf (machine config valid).start.shared.queue, rfl⟩
  since _ _ h := by cases h
  closer := .inl (.inl rfl)
  empty _ _ h := by cases h

theorem Drained.connecting (h : Drained s) (hnative : s.shared.native = .connecting) :
    s.view.inside = none := by
  cases hlock : s.shared.lock with
  | none => simp [State.view, hlock]
  | some i =>
      have hi := (h.served.kept.owns i).mpr hlock
      have hpast := (h.started hnative).2 i
      cases hc : s.calls i with
      | inside k pc =>
          rw [hc] at hpast
          cases hpast
      | _ =>
          rw [hc] at hi
          cases hi

theorem Drained.queued {a : Action} (h : Drained s) (hstep : step s a = some t)
    (hlive : t.shared.Live) :
    s.shared.Account ∧ s.shared.Queued t.shared ∧ t.shared.refused = false := by
  have hview := (step_view h.served.kept.owns hstep).1
  have haccount := h.account (hview.live hlive)
  exact ⟨haccount, hview.queued hlive haccount.refused h.connecting h.served.refused⟩

theorem View.Step.accepted {v w : View} (h : View.Step v w) :
    v.shared.accepted.length ≤ w.shared.accepted.length := by
  cases h with
  | outside hout =>
      cases hout with
      | accept data binary hroom =>
          show _ ≤ (_ ++ [_]).length
          simp
      | _ => exact Nat.le_refl _
  | take i hlock => exact Nat.le_refl _
  | stay hmove => cases hmove <;> exact Nat.le_refl _
  | leave hmove hm => cases hmove <;> exact Nat.le_refl _

/-- A call of `close` that is over stays over. -/
theorem step_closed {a : Action} {drained : Bool} {n : Nat} (h : step s a = some t)
    (hc : s.calls i = .closed drained n) : t.calls i = .closed drained n := by
  by_cases hof : a.of = some i
  · cases a with
    | call j k | step j | expire j =>
        obtain rfl := Option.some.inj hof
        simp [step, advance, hc] at h
    | _ => cases hof
  · exact (step_others h hof).trans hc

/-- A channel that is closed has been closed by a call of `close`. -/
theorem step_live {a : Action} (ha : undisturbed a = true) (h : step s a = some t)
    (hlive : s.shared.Live) (hsince : ∀ i n, (s.calls i).since? = some n → i = 0) :
    t.shared.Live ∨ ∃ drained n, t.calls 0 = .closed drained n := by
  cases step_steps h with
  | step i hadvance =>
      generalize hc : s.calls i = c at hadvance
      cases hadvance with
      | close drained since next hnext =>
          obtain rfl : i = 0 := hsince i since (by rw [hc]; rfl)
          exact .inr ⟨_, _, goto_self ..⟩
      | inside k hmove =>
          unfold Shared.Live at *
          rw [← hmove.native] at hlive
          exact .inl hlive
      | _ => exact .inl hlive
  | native hnext =>
      obtain rfl := of_decide_eq_true ha
      exact .inl (.inr rfl)
  | _ => exact .inl hlive

theorem Advances.connecting (h : Advances s i c t) (ht : t.shared.native = .connecting) :
    s.shared.native = .connecting := by
  cases h with
  | inside k hmove => exact hmove.native.symm.trans ht
  | close drained since next hnext =>
      obtain rfl : next = .connecting := ht
      rcases hnext with ⟨hnext, -⟩ | ⟨hnext, -⟩
      · cases hnext
      · exact hnext.symm
  | _ => exact ht

theorem step_connecting {a : Action} (h : step s a = some t)
    (hs : s.shared.native = .connecting →
      s.shared.decided = false ∧ ∀ i, (s.calls i).pastOpen = false)
    (ht : t.shared.native = .connecting) :
    t.shared.decided = false ∧ ∀ i, (t.calls i).pastOpen = false := by
  have hmoved : ∀ {shared : Shared} {i : Nat} {c : Call}, s.shared.native = .connecting →
      c.pastOpen = false → ∀ j, ((s.goto shared i c).calls j).pastOpen = false := by
    intro shared i c hnative hc j
    by_cases hj : j = i
    · rw [hj, goto_self]
      exact hc
    · rw [goto_of_ne s shared c hj]
      exact (hs hnative).2 j
  cases a with
  | call i k =>
      simp only [step] at h
      split at h
      · obtain rfl := Option.some.inj h
        cases k with
        | low =>
            simp only [Shared.enter] at ht ⊢
            split at ht
            · rename_i hdecided
              exact absurd hdecided (by simp [(hs ht).1])
            · rename_i hdecided
              rw [if_neg hdecided]
              exact ⟨(hs ht).1, hmoved ht rfl⟩
        | _ => exact ⟨(hs ht).1, hmoved ht rfl⟩
      · cases h
  | step i =>
      have hnative := (advance_advances h).connecting ht
      obtain ⟨hdecided, hall⟩ := hs hnative
      obtain ⟨hdecided', hi⟩ := advance_connecting h hnative hdecided (hall i)
      refine ⟨hdecided', fun j => ?_⟩
      by_cases hj : j = i
      · rw [hj]
        exact hi
      · rw [step_others h (by rintro ⟨⟩; exact hj rfl)]
        exact hall j
  | expire i =>
      simp only [step] at h
      split at h
      · obtain rfl := Option.some.inj h
        exact ⟨(hs ht).1, hmoved ht rfl⟩
      · cases h
  | native next =>
      simp only [step] at h
      split at h
      · rename_i hnext
        obtain rfl := Option.some.inj h
        rw [show next = .connecting from ht] at hnext
        cases hs : s.shared.native <;> rw [hs] at hnext <;> cases hnext
      · cases h
  | closedEvent =>
      simp only [step] at h
      split at h
      · rename_i hclosed
        have hne : s.shared.native ≠ .connecting := by
          rw [hclosed]
          exact DataChannelState.noConfusion
        split at h <;> obtain rfl := Option.some.inj h <;> exact absurd ht hne
      · cases h
  | drain n =>
      obtain rfl := Option.some.inj h
      exact hs ht

theorem Drained.next {a : Action} (h : Drained s) (ha : undisturbed a = true)
    (hstep : step s a = some t) : Drained t := by
  have hview := (step_view h.served.kept.owns hstep).1
  have hsince : ∀ i n, (t.calls i).since? = some n → i = 0 ∧ n ≤ s.shared.accepted.length := by
    intro i n hn
    rcases (step_turn hstep i).since n hn with hold | ⟨rfl, rfl⟩
    · exact h.since i n hold
    · exact ⟨of_decide_eq_true ha, Nat.le_refl _⟩
  have hcloser : t.shared.Live ∨ ∃ drained n, t.calls 0 = .closed drained n := by
    rcases h.closer with hlive | ⟨drained, n, hclosed⟩
    · exact step_live ha hstep hlive fun i n hn => (h.since i n hn).1
    · exact .inr ⟨drained, n, step_closed hstep hclosed⟩
  refine ⟨h.served.next hstep, step_connecting hstep h.started, ?_, ?_, hcloser, ?_⟩
  · intro hlive
    obtain ⟨haccount, hqueued, hrefused⟩ := h.queued hstep hlive
    exact hqueued.account haccount hrefused
  · intro i n hn
    obtain ⟨hi, hle⟩ := hsince i n hn
    exact ⟨hi, hle.trans hview.accepted⟩
  · intro i n hn
    obtain ⟨rfl, hle⟩ := hsince i n (by rw [hn]; rfl)
    have hlive := live_of_closing hcloser hn
    obtain ⟨haccount, hqueued, -⟩ := h.queued hstep hlive
    rcases (step_turn hstep 0).drained n hn with hold | ⟨hzero, hsame⟩
    · exact hqueued.onlyEmpty haccount hle (h.empty 0 n hold)
    · rw [hsame]
      exact haccount.onlyEmpty hzero n

/-! ### Complete exactly when the hands are empty -/

theorem Drained.unqueued (h : Drained s) (hlive : s.shared.Live) :
    s.shared.unqueued = s.shared.completed + lastFrames (inHand s.view.inside) := by
  have hexact := h.served.kept.ledger.exact (h.account hlive).refused
  unfold Shared.unqueued
  rw [show s.shared.returned = _ from hexact.symm, lastFrames_append]
  rfl

/-- What has left stays left. -/
theorem step_completed {a : Action} (h : step s a = some t) :
    s.shared.completed ≤ t.shared.completed := by
  unfold Shared.completed
  by_cases hplain : ∃ i data binary, a = .step i ∧ s.calls i = .plain data binary
  · obtain ⟨i, data, binary, rfl, hc⟩ := hplain
    simp only [step, hc, advance] at h
    split at h <;> obtain rfl := Option.some.inj h
    · show _ ≤ lastFrames (framesOf (s.shared.handed ++ [Handed.plain data binary]))
      rw [framesOf_append_plain]
    · exact Nat.le_refl _
  · rcases handed_step h fun i data binary ha hc => hplain ⟨i, data, binary, ha, hc⟩ with
      hsame | ⟨f, hmore⟩
    · rw [hsame]
    · rw [hmore, framesOf_append_frame, lastFrames_append]
      exact Nat.le_add_right _ _

theorem lastFrames_inHand (inside : Option Inside) : lastFrames (inHand inside) ≤ 1 := by
  refine List.countP_le_length.trans ?_
  unfold inHand
  split <;> simp

/-- **At the native close after a drain that returned true.** -/
theorem Drained.complete_close (h : Drained s) {n : Nat} (hc : s.calls i = .closeNative true n) :
    n ≤ s.shared.completed ↔ s.HandsEmpty (.step i) := by
  obtain ⟨rfl, hle⟩ := h.since i n (by rw [hc]; rfl)
  have hlive := live_of_closing h.closer hc
  have hcount := (h.account hlive).count
  have hunqueued := h.unqueued hlive
  have hempty := h.empty 0 n hc
  have hguard : s.HandsEmpty (.step 0) ↔
      (∀ f ∈ inHand s.view.inside, isLast f = true → n < s.shared.unqueued) ∧
        ∀ p ∈ s.shared.queue.pending.take (n - s.shared.unqueued), p.data ≠ [] := by
    simp [State.HandsEmpty, hc]
  rw [hguard]
  constructor
  · intro hn
    constructor
    · intro f hf hlast
      have hpos : 0 < lastFrames (inHand s.view.inside) := List.countP_pos_iff.mpr ⟨f, hf, hlast⟩
      omega
    · rw [show n - s.shared.unqueued = 0 by omega]
      intro p hp
      cases hp
  · rintro ⟨hhands, hqueue⟩
    have hnone : s.shared.queue.pending.take (n - s.shared.unqueued) = [] := by
      rw [List.eq_nil_iff_forall_not_mem]
      intro p hp
      refine hqueue p hp (hempty p.data ?_)
      rw [← List.map_take]
      exact List.mem_map_of_mem hp
    have hgone : n ≤ s.shared.unqueued := by
      rcases List.take_eq_nil_iff.mp hnone with hzero | hnil
      · omega
      · rw [hnil] at hcount
        simp at hcount
        omega
    rcases Nat.eq_zero_or_pos (lastFrames (inHand s.view.inside)) with hzero | hpos
    · omega
    · obtain ⟨f, hf, hlast⟩ := List.countP_pos_iff.mp hpos
      have := hhands f hf hlast
      have := lastFrames_inHand s.view.inside
      omega

theorem Drained.complete_step {a : Action} (h : Drained s) (hcomplete : s.Complete)
    (hstep : step s a = some t) : t.Complete ↔ s.HandsEmpty a := by
  have hmore := step_completed hstep
  by_cases hclose : ∃ i n, a = .step i ∧ s.calls i = .closeNative true n
  · obtain ⟨i, n, rfl, hc⟩ := hclose
    rw [← h.complete_close hc]
    have hclosed : t.calls i = .closed true n ∧ t.shared.completed = s.shared.completed := by
      simp only [step, hc, advance] at hstep
      obtain rfl := Option.some.inj hstep
      exact ⟨goto_self .., rfl⟩
    constructor
    · intro ht
      rw [← hclosed.2]
      exact ht i n hclosed.1
    · intro hn j m hm
      rcases (step_turn hstep j).closed m hm with hold | ⟨hj, hm⟩
      · exact (hcomplete j m hold).trans hmore
      · obtain rfl : i = j := by
          cases hj
          rfl
        rw [hc] at hm
        cases hm
        exact hn.trans hmore
  · refine iff_of_true ?_ ?_
    · intro i n hn
      rcases (step_turn hstep i).closed n hn with hold | ⟨ha, hold⟩
      · exact (hcomplete i n hold).trans hmore
      · exact absurd ⟨i, n, ha, hold⟩ hclose
    · unfold State.HandsEmpty
      split
      · rename_i i
        split
        · rename_i n hc
          exact absurd ⟨i, n, rfl, hc⟩ hclose
        · trivial
      · trivial

/--
**A drain that returned true has handed over every message accepted before the call,
all along a run, exactly when at the native close no pump had the last frame of one in
its hands and no empty one was in the queue.**
-/
theorem drain_complete_iff_handsEmpty (config : SendConfig) (valid : config.validate = .ok ())
    {as : List Action}
    (hrun : ((machine config valid).restrict undisturbed).run (machine config valid).start as
      = some s) :
    ((machine config valid).restrict undisturbed).Along State.Complete
        (machine config valid).start as ↔
      ((machine config valid).restrict undisturbed).Guarded State.HandsEmpty
        (machine config valid).start as := by
  refine Machine.along_iff_guarded (I := Drained) ?_ ?_ drained_start ?_ hrun
  · intro u a v hu huv
    obtain ⟨ha, hstep⟩ := (machine config valid).restrict_step.mp huv
    exact hu.next ha hstep
  · intro u a v hu hcomplete huv
    obtain ⟨ha, hstep⟩ := (machine config valid).restrict_step.mp huv
    exact hu.complete_step hcomplete hstep
  · intro i n hn
    cases hn

instance (s : State) (a : Action) : Decidable (s.HandsEmpty a) :=
  match a with
  | .step i =>
    match h : s.calls i with
    | .closeNative true n => decidable_of_iff
        ((∀ f ∈ inHand s.view.inside, isLast f = true → n < s.shared.unqueued) ∧
          ∀ p ∈ s.shared.queue.pending.take (n - s.shared.unqueued), p.data ≠ [])
        (by simp [State.HandsEmpty, h])
    | .closeNative false _ => .isTrue (by simp [State.HandsEmpty, h])
    | .idle | .ask _ | .look _ | .prepare _ | .decide _ _ | .plain _ _ | .check _ _ | .push _ _
    | .arm | .sent _ | .store _ | .tryLock _ | .recheck _ | .inside _ _ | .early _ | .threshold _
    | .fireRead | .fireQueued _ _ | .fireSwap | .closeRead _ | .closeQueued _ _
    | .closeState _ | .closed _ _ | .done => .isTrue (by simp [State.HandsEmpty, h])
  | .call _ _ | .expire _ | .native _ | .closedEvent | .drain _ => .isTrue trivial

/-- The channel opens, and call 1 sends; while call 2, for the low-buffer callback, has the
lock, its message is accepted, and it finds the lock busy and returns. -/
def acceptedMeanwhile : List Action :=
  .native .opened :: .call 1 (.send [7] true) :: (steps 1 4 ++
    .call 2 .low :: (steps 2 2 ++ steps 1 5))

/-- Call 2 takes the frame, and call 0 closes the channel. -/
def closedInHand : List Action :=
  acceptedMeanwhile ++ steps 2 5 ++ .call 0 .close :: steps 0 4

/-- Call 2 sends the frame, the buffer drains, and call 0 closes the channel. -/
def closedAfterwards : List Action :=
  acceptedMeanwhile ++ steps 2 6 ++ .drain 2 :: .call 0 .close :: steps 0 4

theorem drain_complete_iff_handsEmpty_afterwards :
    ((machine {} default_valid).restrict undisturbed).Along State.Complete
      (machine {} default_valid).start closedAfterwards :=
  (drain_complete_iff_handsEmpty {} default_valid
    (((machine {} default_valid).restrict undisturbed).run_final _ _ (by decide +kernel))).mpr
    (by decide +kernel)

theorem drain_can_leave_a_frame :
    ¬ ∀ s, ((machine {} default_valid).restrict undisturbed).Reachable s → s.Complete := by
  intro h
  have hrun := ((machine {} default_valid).restrict undisturbed).run_final
    (machine {} default_valid).start closedInHand (by decide +kernel)
  have hcomplete := h _ (Machine.Reachable.start.run hrun) 0 1 (by rfl)
  exact absurd hcomplete (by decide +kernel)

end Channel

end ReactorWebrtc
