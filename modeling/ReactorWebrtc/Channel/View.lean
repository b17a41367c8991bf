/-
What the pump's lock protects, seen apart from the calls.

Most of what is to be known about a channel does not depend on which calls are where,
only on what is shared and on what the one thread under the pump's lock is doing.
`State.view` keeps just that, and `step_view` says what a step of any call can do to
it: the thread under the lock takes a step of `Shared.move`, a thread takes the lock,
or something outside happens, one of the few things `Outside` lists.  An invariant of
views is then a case analysis of `Shared.move`, and no longer one of every call.
-/
import ReactorWebrtc.Channel.Core

namespace ReactorWebrtc

namespace Channel

/-- What happens to the shared state outside the pump's lock. -/
inductive Outside (s : Shared) : Shared → Prop
  /-- The decision, the thresholds and what belongs to the low-buffer handler. -/
  | aside (decided : Bool) (early user : Nat) (armed : Bool) (notified : Nat) :
      Outside s { s with
        decided, earlyLowThreshold := early, userLowThreshold := user, userLowArmed := armed
        notified }
  | accept (data : Bytes) (binary : Bool)
      (hroom : s.queue.queued + data.length ≤ s.queue.config.queueLimit) :
      Outside s { s with
        queue := s.queue.accept data binary, accepted := s.accepted ++ [(data, binary)] }
  | request : Outside s { s with pumpAgain := true }
  /-- A message `send` hands over unframed. -/
  | plain (data : Bytes) (binary : Bool) (hopen : s.native = .opened) :
      Outside s { s with
        buffered := s.buffered + data.length, handed := s.handed ++ [.plain data binary] }
  | native (next : DataChannelState) (hnext : allowed s.native next = true) :
      Outside s { s with native := next }
  | drain (n : Nat) : Outside s { s with buffered := s.buffered - n }
  | clear (hclosed : s.native = .closed) : Outside s { s with queue := s.queue.clear }

theorem Outside.same (s : Shared) : Outside s s :=
  .aside s.decided s.earlyLowThreshold s.userLowThreshold s.userLowArmed s.notified

/-- The branches of `Shared.move`. -/
inductive Moves (s : Shared) : Inside → Shared → Moved → Prop
  | again (h : s.pumpAgain = true) :
      Moves s .swap { s with pumpAgain := false } (.stay .load)
  | done (h : s.pumpAgain = false) : Moves s .swap s (.stay .unlock)
  | trust (h : s.nativeEst ≤ s.trustBelow) :
      Moves s .load s (.stay (.build s.nativeEst false s.accepted.length))
  | doubt (h : s.trustBelow < s.nativeEst) : Moves s .load s (.stay .read)
  | read : Moves s .read s (.stay (.note s.buffered s.accepted.length))
  | note (n seen : Nat) :
      Moves s (.note n seen) { s with nativeEst := n } (.stay (.build n true seen))
  | frame {amount seen : Nat} {fresh : Bool} {frame : Bytes} {queue : SendQueue}
      (h : SendQueue.Emits s.queue amount (some frame, queue)) :
      Moves s (.build amount fresh seen) { s with queue, returned := s.returned ++ [frame] }
        (.stay (.native frame))
  | stop {amount seen : Nat} {fresh : Bool}
      (h : s.queue.config.highWater ≤ amount ∨ s.queue.pending = []) :
      Moves s (.build amount fresh seen) { s with
        lastPass := some { amount, fresh, seen }, ownPass := some { amount, fresh, seen } }
        (.stay .swap)
  | send (frame : Bytes) (h : s.native = .opened) :
      Moves s (.native frame)
        { s with buffered := s.buffered + frame.length, handed := s.handed ++ [.frame frame] }
        (.stay (.measure true))
  | refuse (frame : Bytes) (h : s.native ≠ .opened) :
      Moves s (.native frame) { s with refused := true } (.stay (.measure false))
  | measure (sent : Bool) : Moves s (.measure sent) s (.stay (.settle sent s.buffered))
  | settle (sent : Bool) (after : Nat) :
      Moves s (.settle sent after) { s with nativeEst := after }
        (.stay (if sent then .load else .failed))
  | failed : Moves s .failed { s with queue := s.queue.clear } (.stay .leave)
  | leave : Moves s .leave { s with lock := none } .gone
  | unlock : Moves s .unlock { s with lock := none } .recheck

theorem move_moves (s : Shared) (pc : Inside) : Moves s pc (s.move pc).1 (s.move pc).2 := by
  cases pc with
  | swap =>
      simp only [Shared.move]
      split
      · rename_i h
        exact .again h
      · rename_i h
        exact .done (Bool.eq_false_iff.mpr h)
  | load =>
      simp only [Shared.move]
      split
      · rename_i h
        exact .trust h
      · rename_i h
        exact .doubt (Nat.lt_of_not_le h)
  | build amount fresh seen =>
      have hemits := s.queue.nextFrame_emits amount
      simp only [Shared.move]
      split
      · rename_i frame queue hq
        rw [hq] at hemits
        exact .frame hemits
      · rename_i queue hq
        rw [hq] at hemits
        cases hemits with
        | held h => exact .stop h
  | native frame =>
      simp only [Shared.move]
      split
      · rename_i h
        exact .send frame h
      · rename_i h
        exact .refuse frame h
  | read => exact .read
  | note n seen => exact .note n seen
  | measure sent => exact .measure sent
  | settle sent after => exact .settle sent after
  | failed => exact .failed
  | leave => exact .leave
  | unlock => exact .unlock

/-- The shared state, and where the thread under the lock is. -/
structure View where
  shared : Shared
  inside : Option Inside

inductive View.Step : View → View → Prop
  | outside {s t : Shared} {pc : Option Inside} (h : Outside s t) : Step ⟨s, pc⟩ ⟨t, pc⟩
  | take {s : Shared} (i : Nat) (h : s.lock = none) :
      Step ⟨s, none⟩ ⟨{ s with lock := some i, ownPass := none }, some .swap⟩
  | stay {s t : Shared} {pc pc' : Inside} (h : Moves s pc t (.stay pc')) :
      Step ⟨s, some pc⟩ ⟨t, some pc'⟩
  | leave {s t : Shared} {pc : Inside} {m : Moved} (h : Moves s pc t m)
      (hm : m = .recheck ∨ m = .gone) : Step ⟨s, some pc⟩ ⟨t, none⟩

def Call.holds : Call → Bool
  | .inside _ _ => true
  | _ => false

/-- Where a call is under the lock. -/
def Call.pc : Call → Option Inside
  | .inside _ pc => some pc
  | _ => none

def State.view (s : State) : View where
  shared := s.shared
  inside := s.shared.lock.bind fun i => (s.calls i).pc

/-- The lock word and the calls agree. -/
def State.Owns (s : State) : Prop := Lock.Owns Call.holds s.shared.lock s.calls

variable {s t : State} {i : Nat} {c : Call}

theorem goto_self (s : State) (shared : Shared) (i : Nat) (c : Call) :
    (s.goto shared i c).calls i = c := Function.update_self ..

theorem goto_of_ne (s : State) (shared : Shared) {i j : Nat} (c : Call) (h : j ≠ i) :
    (s.goto shared i c).calls j = s.calls j := Function.update_of_ne h ..

/-- A call that is not under the lock, and does not get there, moves outside the view. -/
theorem view_goto (howns : s.Owns) {shared : Shared} (hlock : shared.lock = s.shared.lock)
    (hnow : (s.calls i).holds = false) (hc : c.holds = false) :
    (s.goto shared i c).view = ⟨shared, s.view.inside⟩ ∧ (s.goto shared i c).Owns := by
  constructor
  · show View.mk shared (shared.lock.bind fun j => (Function.update s.calls i c j).pc) = _
    rw [hlock]
    congr 1
    cases hholder : s.shared.lock with
    | none => simp [State.view, hholder]
    | some j =>
        have hj : (s.calls j).holds = true := (howns j).mpr hholder
        have hne : j ≠ i := by
          rintro rfl
          rw [hnow] at hj
          cases hj
        simp [State.view, hholder, Function.update_of_ne hne]
  · show Lock.Owns Call.holds shared.lock (Function.update s.calls i c)
    rw [hlock]
    exact Lock.Owns.keep howns (hc.trans hnow.symm)

/-! ### The branches of a step

`advance` has a branch for every place a call can be at, and most of them only move the
call.  Those are one case here (`Call.Quiet`), for which it is enough that no lock is taken
or given back and that the messages a `close` has counted stay as they are.
-/

/-- In the pump, and under its lock or not. -/
def Call.inPump : Call → Bool
  | .store _ | .tryLock _ | .recheck _ | .inside _ _ => true
  | _ => false

/-- Away from the queue and the pump. -/
def Call.aside (c : Call) : Bool :=
  !c.inPump && match c with
    | .arm => false
    | _ => true

def Pumper.since? : Pumper → Option Nat
  | .drain since => some since
  | _ => none

def Asker.since? : Asker → Option Nat
  | .close since => some since
  | _ => none

/-- How many messages had been accepted when a `close` was called. -/
def Call.since? : Call → Option Nat
  | .ask w | .look w | .prepare w | .decide w _ => w.since?
  | .store k | .tryLock k | .recheck k | .inside k _ => k.since?
  | .closeRead since | .closeQueued since _ | .closeState since | .closeNative _ since
  | .closed _ since => some since
  | _ => none

/-- A point away from the pump at which a `close` has not heard that it drained. -/
structure Call.Quiet (c : Call) (since : Option Nat) : Prop where
  aside : c.aside = true
  since : c.since? = since
  drained : ∀ n, c ≠ .closeNative true n
  closed : ∀ b n, c ≠ .closed b n

/-- The branches of `advance`. -/
inductive Advances (s : State) (i : Nat) : Call → State → Prop
  /-- Neither the queue nor the pump is concerned. -/
  | aside {c c' : Call} (decided : Bool) (early user : Nat) (armed : Bool) (notified : Nat)
      (hc : c.aside = true) (hc' : c'.Quiet c.since?) :
      Advances s i c (s.goto { s.shared with
        decided, earlyLowThreshold := early, userLowThreshold := user, userLowArmed := armed
        notified } i c')
  | plain {data : Bytes} {binary : Bool} (hopen : s.shared.native = .opened) :
      Advances s i (.plain data binary) (s.goto { s.shared with
        buffered := s.shared.buffered + data.length
        handed := s.shared.handed ++ [.plain data binary] } i (.sent (.ok ())))
  | accept {data : Bytes} {binary : Bool}
      (hroom : s.shared.queue.queued + data.length ≤ s.shared.queue.config.queueLimit) :
      Advances s i (.push data binary) (s.goto { s.shared with
        queue := s.shared.queue.accept data binary
        accepted := s.shared.accepted ++ [(data, binary)] } i .arm)
  | arm : Advances s i .arm (s.goto { s.shared with userLowArmed := true } i (.store .send))
  | store (k : Pumper) :
      Advances s i (.store k) (s.goto { s.shared with pumpAgain := true } i (.tryLock k))
  | take (k : Pumper) (hlock : s.shared.lock = none) :
      Advances s i (.tryLock k)
        (s.goto { s.shared with lock := some i, ownPass := none } i (.inside k .swap))
  | busy (k : Pumper) (j : Nat) (hlock : s.shared.lock = some j) :
      Advances s i (.tryLock k) (s.goto s.shared i k.next)
  | again (k : Pumper) (h : s.shared.pumpAgain = true) :
      Advances s i (.recheck k) (s.goto s.shared i (.store k))
  | rest (k : Pumper) (h : s.shared.pumpAgain = false) :
      Advances s i (.recheck k) (s.goto s.shared i k.next)
  | inside (k : Pumper) {pc : Inside} {shared : Shared} {m : Moved}
      (h : Moves s.shared pc shared m) :
      Advances s i (.inside k pc) (s.goto shared i (m.next k))
  | drained {since native : Nat} (h : native + s.shared.queue.queued = 0) :
      Advances s i (.closeQueued since native) (s.goto s.shared i (.closeNative true since))
  | refill {since : Nat} (hopen : s.shared.native = .opened) :
      Advances s i (.closeState since) (s.goto s.shared i (.store (.drain since)))
  | close (drained : Bool) (since : Nat) (next : DataChannelState)
      (hnext : next = .closing ∧ (s.shared.native = .connecting ∨ s.shared.native = .opened) ∨
        next = s.shared.native ∧ (s.shared.native = .closing ∨ s.shared.native = .closed)) :
      Advances s i (.closeNative drained since)
        (s.goto { s.shared with native := next } i (.closed drained since))

/-- A step that changes nothing shared. -/
theorem Advances.quiet {c' : Call} (hc : c.aside = true) (hc' : c'.Quiet c.since?) :
    Advances s i c (s.goto s.shared i c') :=
  .aside s.shared.decided s.shared.earlyLowThreshold s.shared.userLowThreshold
    s.shared.userLowArmed s.shared.notified hc hc'

theorem Pumper.next_quiet (k : Pumper) : k.next.Quiet k.since? := by
  cases k <;> exact ⟨rfl, rfl, nofun, nofun⟩

theorem Asker.chunked_quiet (w : Asker) : w.chunked.Quiet w.since? := by
  cases w <;> exact ⟨rfl, rfl, nofun, nofun⟩

theorem Asker.plain_quiet (w : Asker) : w.plain.Quiet w.since? := by
  cases w <;> exact ⟨rfl, rfl, nofun, nofun⟩

theorem advance_advances (h : advance s i c = some t) : Advances s i c t := by
  cases c with
  | idle | done | sent result | closed drained since => cases h
  | ask w =>
      obtain rfl := Option.some.inj h
      split
      · exact .quiet rfl w.chunked_quiet
      · exact .quiet rfl ⟨rfl, rfl, nofun, nofun⟩
  | look w =>
      obtain rfl := Option.some.inj h
      split
      · exact .quiet rfl ⟨rfl, rfl, nofun, nofun⟩
      · exact .quiet rfl w.plain_quiet
  | prepare w =>
      obtain rfl := Option.some.inj h
      exact .quiet rfl ⟨rfl, rfl, nofun, nofun⟩
  | decide w threshold =>
      simp only [advance] at h
      split at h
      · obtain rfl := Option.some.inj h
        exact .quiet rfl w.chunked_quiet
      · obtain rfl := Option.some.inj h
        exact .aside true s.shared.earlyLowThreshold threshold s.shared.userLowArmed
          s.shared.notified rfl w.chunked_quiet
  | plain data binary =>
      simp only [advance] at h
      split at h
      · rename_i hopen
        obtain rfl := Option.some.inj h
        exact .plain hopen
      · obtain rfl := Option.some.inj h
        exact .quiet rfl ⟨rfl, rfl, nofun, nofun⟩
  | check data binary =>
      obtain rfl := Option.some.inj h
      split <;> exact .quiet rfl ⟨rfl, rfl, nofun, nofun⟩
  | push data binary =>
      simp only [advance] at h
      rcases s.shared.queue.push_cases data binary with ⟨hpush, -, hroom⟩ | ⟨e, hpush⟩
      · rw [hpush] at h
        obtain rfl := Option.some.inj h
        exact .accept hroom
      · rw [hpush] at h
        obtain rfl := Option.some.inj h
        exact .quiet rfl ⟨rfl, rfl, nofun, nofun⟩
  | arm =>
      obtain rfl := Option.some.inj h
      exact .arm
  | store k =>
      obtain rfl := Option.some.inj h
      exact .store k
  | tryLock k =>
      simp only [advance] at h
      split at h
      · rename_i hlock
        obtain rfl := Option.some.inj h
        exact .take k hlock
      · rename_i j hlock
        obtain rfl := Option.some.inj h
        exact .busy k j hlock
  | recheck k =>
      obtain rfl := Option.some.inj h
      split
      · rename_i hagain
        exact .again k hagain
      · rename_i hagain
        exact .rest k (Bool.eq_false_iff.mpr hagain)
  | inside k pc =>
      obtain rfl := Option.some.inj h
      exact .inside k (move_moves s.shared pc)
  | early n =>
      obtain rfl := Option.some.inj h
      exact .aside s.shared.decided n s.shared.userLowThreshold s.shared.userLowArmed
        s.shared.notified rfl ⟨rfl, rfl, nofun, nofun⟩
  | threshold n =>
      obtain rfl := Option.some.inj h
      exact .aside s.shared.decided s.shared.earlyLowThreshold n s.shared.userLowArmed
        s.shared.notified rfl ⟨rfl, rfl, nofun, nofun⟩
  | fireRead =>
      obtain rfl := Option.some.inj h
      exact .quiet rfl ⟨rfl, rfl, nofun, nofun⟩
  | fireQueued threshold native =>
      obtain rfl := Option.some.inj h
      split <;> exact .quiet rfl ⟨rfl, rfl, nofun, nofun⟩
  | fireSwap =>
      obtain rfl := Option.some.inj h
      exact .aside s.shared.decided s.shared.earlyLowThreshold s.shared.userLowThreshold false _
        rfl ⟨rfl, rfl, nofun, nofun⟩
  | closeRead since =>
      obtain rfl := Option.some.inj h
      exact .quiet rfl ⟨rfl, rfl, nofun, nofun⟩
  | closeQueued since native =>
      obtain rfl := Option.some.inj h
      split
      · rename_i hzero
        exact .drained hzero
      · exact .quiet rfl ⟨rfl, rfl, nofun, nofun⟩
  | closeState since =>
      obtain rfl := Option.some.inj h
      split
      · rename_i hopen
        exact .refill hopen
      · exact .quiet rfl ⟨rfl, rfl, nofun, nofun⟩
  | closeNative drained since =>
      obtain rfl := Option.some.inj h
      refine .close drained since _ ?_
      cases s.shared.native with
      | connecting => exact .inl ⟨rfl, .inl rfl⟩
      | opened => exact .inl ⟨rfl, .inr rfl⟩
      | closing => exact .inr ⟨rfl, .inl rfl⟩
      | closed => exact .inr ⟨rfl, .inr rfl⟩

/-- The branches of `step`. -/
inductive Steps (s : State) : Action → State → Prop
  | start {i : Nat} {k : Kind} {c : Call} (hidle : s.calls i = .idle) (hc : c.aside = true)
      (hsince : ∀ n, c.since? = some n → k = .close ∧ n = s.shared.accepted.length)
      (hdrained : ∀ n, c ≠ .closeNative true n) (hclosed : ∀ b n, c ≠ .closed b n) :
      Steps s (.call i k) (s.goto s.shared i c)
  | low {i : Nat} (hidle : s.calls i = .idle) (hdecided : s.shared.decided = true) :
      Steps s (.call i .low) (s.goto s.shared i (.store .low))
  | lowPlain {i : Nat} (hidle : s.calls i = .idle) (hdecided : s.shared.decided = false) :
      Steps s (.call i .low)
        (s.goto { s.shared with notified := s.shared.notified + 1 } i .done)
  | step (i : Nat) {t : State} (h : Advances s i (s.calls i) t) : Steps s (.step i) t
  | expire {i since : Nat} (hc : s.calls i = .closeState since) :
      Steps s (.expire i) (s.goto s.shared i (.closeNative false since))
  | native {next : DataChannelState} (h : allowed s.shared.native next = true) :
      Steps s (.native next) { s with shared := { s.shared with native := next } }
  | clear (hclosed : s.shared.native = .closed) (hdecided : s.shared.decided = true) :
      Steps s .closedEvent { s with shared := { s.shared with queue := s.shared.queue.clear } }
  | ignore : Steps s .closedEvent s
  | drain (n : Nat) :
      Steps s (.drain n) { s with shared := { s.shared with buffered := s.shared.buffered - n } }

theorem step_steps {a : Action} (h : step s a = some t) : Steps s a t := by
  cases a with
  | call i k =>
      simp only [step] at h
      split at h
      · rename_i hidle
        obtain rfl := Option.some.inj h
        cases k with
        | low =>
            simp only [Shared.enter]
            split
            · rename_i hdecided
              exact .low hidle hdecided
            · rename_i hdecided
              exact .lowPlain hidle (Bool.eq_false_iff.mpr hdecided)
        | close =>
            exact .start hidle rfl (fun n hn => ⟨rfl, (Option.some.inj hn).symm⟩) nofun nofun
        | _ => exact .start hidle rfl nofun nofun nofun
      · cases h
  | step i => exact .step i (advance_advances h)
  | expire i =>
      simp only [step] at h
      split at h
      · rename_i since hc
        obtain rfl := Option.some.inj h
        exact .expire hc
      · cases h
  | native next =>
      simp only [step] at h
      split at h
      · rename_i hnext
        obtain rfl := Option.some.inj h
        exact .native hnext
      · cases h
  | closedEvent =>
      simp only [step] at h
      split at h
      · rename_i hclosed
        split at h
        · rename_i hdecided
          obtain rfl := Option.some.inj h
          exact .clear hclosed hdecided
        · obtain rfl := Option.some.inj h
          exact .ignore
      · cases h
  | drain n =>
      obtain rfl := Option.some.inj h
      exact .drain n

/-- The call an action moves. -/
def Action.of : Action → Option Nat
  | .call i _ | .step i | .expire i => some i
  | _ => none

theorem Advances.others (h : Advances s i c t) {j : Nat} (hj : j ≠ i) : t.calls j = s.calls j := by
  cases h <;> exact goto_of_ne s _ _ hj

/-- A call that no action is of stays where it is. -/
theorem step_others {a : Action} (h : step s a = some t) {j : Nat} (hj : a.of ≠ some j) :
    t.calls j = s.calls j := by
  have hne : ∀ {i : Nat}, a.of = some i → j ≠ i := by
    rintro i hi rfl
    exact hj hi
  cases step_steps h with
  | start | low | lowPlain | expire => exact goto_of_ne s _ _ (hne rfl)
  | step i hadvance => exact hadvance.others (hne rfl)
  | _ => rfl

theorem run_others {config : SendConfig} {valid : config.validate = .ok ()} {as : List Action}
    (h : (machine config valid).run s as = some t) {j : Nat} (hj : ∀ a ∈ as, a.of ≠ some j) :
    t.calls j = s.calls j :=
  Machine.run_kept (A := fun a => a.of ≠ some j) (I := fun u => u.calls j = s.calls j)
    (fun _ _ _ ha hu hstep => (step_others hstep ha).trans hu) hj rfl h

/-! ### The view of a step

A step of the thread under the lock is a step of the view.  A step of any other thread takes
the lock, changes something outside it, or is not seen at all.
-/

/-- What is at the lock, in the view of a state. -/
theorem view_holder (howns : s.Owns) {k : Pumper} {pc : Inside} (hc : s.calls i = .inside k pc) :
    s.shared.lock = some i ∧ s.view = ⟨s.shared, some pc⟩ := by
  have hlock : s.shared.lock = some i := (howns i).mp (by rw [hc]; rfl)
  refine ⟨hlock, ?_⟩
  simp [State.view, hlock, hc, Call.pc]

/-- The lock changes hands only where a thread leaves. -/
theorem Moves.lock {s t : Shared} {pc : Inside} {m : Moved} (h : Moves s pc t m) :
    ((∃ pc', m = .stay pc') ∧ t.lock = s.lock) ∨ ((m = .recheck ∨ m = .gone) ∧ t.lock = none) := by
  cases h with
  | leave => exact .inr ⟨.inr rfl, rfl⟩
  | unlock => exact .inr ⟨.inl rfl, rfl⟩
  | _ => exact .inl ⟨⟨_, rfl⟩, rfl⟩


theorem Call.holds_of_aside {c : Call} (h : c.aside = true) : c.holds = false := by
  cases c with
  | inside k pc => cases h
  | _ => rfl

/-- A call that moves outside the lock is a step outside the view. -/
theorem view_outside (howns : s.Owns) {shared : Shared} (hnow : (s.calls i).holds = false)
    (hc : c.holds = false) (hout : Outside s.shared shared) :
    View.Step s.view (s.goto shared i c).view ∧ (s.goto shared i c).Owns := by
  have hlock : shared.lock = s.shared.lock := by cases hout <;> rfl
  obtain ⟨hview, howns'⟩ := view_goto howns hlock hnow hc
  refine ⟨?_, howns'⟩
  rw [hview]
  exact .outside hout

theorem Advances.view (h : Advances s i c t) (hcall : s.calls i = c) (howns : s.Owns) :
    View.Step s.view t.view ∧ t.Owns := by
  have hnow : ∀ {x : Call}, c = x → x.holds = false → (s.calls i).holds = false := by
    rintro x rfl hx
    rw [hcall]
    exact hx
  cases h with
  | aside decided early user armed notified hc hc' =>
      exact view_outside howns (hnow rfl (Call.holds_of_aside hc)) (Call.holds_of_aside hc'.aside)
        (.aside decided early user armed notified)
  | plain hopen => exact view_outside howns (hnow rfl rfl) rfl (.plain _ _ hopen)
  | accept hroom => exact view_outside howns (hnow rfl rfl) rfl (.accept _ _ hroom)
  | arm =>
      exact view_outside howns (hnow rfl rfl) rfl (.aside s.shared.decided
        s.shared.earlyLowThreshold s.shared.userLowThreshold true s.shared.notified)
  | store k => exact view_outside howns (hnow rfl rfl) rfl .request
  | take k hlock =>
      have hnone : s.view = ⟨s.shared, none⟩ := by simp [State.view, hlock]
      have howns' : Lock.Owns Call.holds none s.calls := by
        have h := howns
        unfold State.Owns at h
        rwa [hlock] at h
      have hview :
          (s.goto { s.shared with lock := some i, ownPass := none } i (.inside k .swap)).view
            = ⟨{ s.shared with lock := some i, ownPass := none }, some .swap⟩ := by
        simp [State.view, State.goto, Call.pc]
      refine ⟨?_, howns'.take rfl⟩
      rw [hnone, hview]
      exact .take i hlock
  | busy k j hlock =>
      exact view_outside howns (hnow rfl rfl) (Call.holds_of_aside k.next_quiet.aside) (.same _)
  | again k h => exact view_outside howns (hnow rfl rfl) rfl (.same _)
  | rest k h =>
      exact view_outside howns (hnow rfl rfl) (Call.holds_of_aside k.next_quiet.aside) (.same _)
  | @inside k pc shared m hmove =>
      obtain ⟨hlock, hview⟩ := view_holder howns hcall
      rw [hview]
      rcases hmove.lock with ⟨⟨pc', rfl⟩, hkeep⟩ | ⟨hm, hfree⟩
      · have hview' : (s.goto shared i (.inside k pc')).view = ⟨shared, some pc'⟩ := by
          simp [State.view, State.goto, hkeep, hlock, Call.pc]
        refine ⟨?_, ?_⟩
        · show View.Step _ (s.goto shared i (.inside k pc')).view
          rw [hview']
          exact .stay hmove
        · show Lock.Owns Call.holds shared.lock (Function.update s.calls i (.inside k pc'))
          rw [hkeep]
          exact Lock.Owns.keep howns (by rw [hcall]; rfl)
      · have hnext : (m.next k).holds = false := by
          rcases hm with rfl | rfl
          · rfl
          · exact Call.holds_of_aside k.next_quiet.aside
        have hview' : (s.goto shared i (m.next k)).view = ⟨shared, none⟩ := by
          simp [State.view, State.goto, hfree]
        refine ⟨?_, ?_⟩
        · rw [hview']
          exact .leave hmove hm
        · show Lock.Owns Call.holds shared.lock (Function.update s.calls i (m.next k))
          rw [hfree]
          exact Lock.Owns.release howns (by rw [hcall]; rfl) hnext
  | drained h => exact view_outside howns (hnow rfl rfl) rfl (.same _)
  | refill hopen => exact view_outside howns (hnow rfl rfl) rfl (.same _)
  | close drained since next hnext =>
      refine view_outside howns (hnow rfl rfl) rfl ?_
      rcases hnext with ⟨rfl, hnative⟩ | ⟨rfl, -⟩
      · refine .native _ ?_
        rcases hnative with hnative | hnative <;> rw [hnative] <;> rfl
      · exact .same _

/-- **A step of the channel is a step of its view.** -/
theorem step_view (howns : s.Owns) {a : Action} (h : step s a = some t) :
    View.Step s.view t.view ∧ t.Owns := by
  cases step_steps h with
  | start hidle hc =>
      exact view_outside howns (by rw [hidle]; rfl) (Call.holds_of_aside hc) (.same _)
  | low hidle hdecided => exact view_outside howns (by rw [hidle]; rfl) rfl (.same _)
  | lowPlain hidle hdecided =>
      exact view_outside howns (by rw [hidle]; rfl) rfl (.aside s.shared.decided
        s.shared.earlyLowThreshold s.shared.userLowThreshold s.shared.userLowArmed _)
  | step i hadvance => exact hadvance.view rfl howns
  | expire hc => exact view_outside howns (by rw [hc]; rfl) rfl (.same _)
  | native hnext => exact ⟨.outside (.native _ hnext), howns⟩
  | clear hclosed hdecided => exact ⟨.outside (.clear hclosed), howns⟩
  | ignore => exact ⟨.outside (.same _), howns⟩
  | drain n => exact ⟨.outside (.drain n), howns⟩

end Channel

end ReactorWebrtc
