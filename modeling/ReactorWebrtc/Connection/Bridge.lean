/-
Waiting for an answer that a native thread gives.

An operation of libwebrtc answers through a callback, on a thread of its own, and the
function that asked for it blocks.  The two meet in a channel for one message.  Its sender is
boxed and the box shared: one strong reference is the caller's, the other travels through
the C interface as a raw pointer and is the callback's to give up.  The caller stops waiting
after a while, so either side may be the last to touch the box, and an answer may come when
nobody reads it any more.

`Dispatch` is what the glue makes of a request: it answers itself, on the caller's thread,
or hands the request over.  The machine has the moves of both sides, in any order.  What the
native side answers, and whether it answers at all, is part of the label; that it answers
once is its contract, and the machine has no second answer.

`memory_safe` is about the box, `returns_answer` about what the caller gets.

A run is told by its labels: what was answered, and that the wait timed out, are in the list
of actions.  So `Returns` relates that list to what the caller gets, and the theorem about a
request speaks of what happened before the wait was over and needs no state in between.

Everything that waits in this way is built on this: the descriptions and candidates of
`Connection.Calls` and `Connection.Created` take what they say of a wait from
`returns_answer`, and `Stats.Collect` puts an object beside the same machine.
-/
import ReactorWebrtc.Lib.Counted
import ReactorWebrtc.Lib.Machine
import ReactorWebrtc.Metadata.Gate

namespace ReactorWebrtc

/-- What the glue makes of a request: an answer of its own, or libwebrtc has it now. -/
inductive Dispatch (ρ : Type)
  | answered (r : ρ)
  | handedOver
  deriving DecidableEq, Repr

namespace Bridge

/-- Where the thread that asked is. -/
inductive Caller (ρ : Type)
  /-- The channel is made and its sender boxed. -/
  | made
  /-- The second reference is a raw pointer. -/
  | shared
  /-- In `call`. -/
  | inGlue
  /-- In `recv_timeout`. -/
  | waiting
  | received (r : Option ρ)
  /-- Past `drop(tx)`. -/
  | dropped (r : Option ρ)
  /-- The receiver is gone too. -/
  | returned (r : Option ρ)
  deriving DecidableEq, Repr

/-- Where the callback is. -/
inductive Callback (ρ : Type)
  | unshared
  /-- The raw pointer has not been passed on. -/
  | shared
  /-- The native side has the pointer, and owes an answer. -/
  | due
  /-- In the callback, the reference reclaimed. -/
  | entered (a : ρ)
  /-- Past `try_send`. -/
  | sent (a : ρ)
  | ended (a : ρ)
  /-- The native side dropped the request without an answer. -/
  | lost
  deriving DecidableEq, Repr

structure State (ρ : Type) where
  /-- The box with the sender in it. -/
  box : Counted := {}
  /-- The message in the channel. -/
  channel : Option ρ := none
  /-- The receiver is there. -/
  receiving : Bool := true
  caller : Caller ρ := .made
  callback : Callback ρ := .unshared
  deriving DecidableEq, Repr

inductive Action (ρ : Type)
  | share
  | call
  | fire (a : ρ)
  | lose
  | send
  | finish
  | leave
  | receive
  | timeout
  /-- `recv_timeout` finds the sender gone. -/
  | hangUp
  | dropTx
  | dropRx
  deriving DecidableEq, Repr

variable {ρ : Type}

/-- Whether the callback is still to come back, if it runs on the caller's thread. -/
def Dispatch.onStack : Dispatch ρ → Callback ρ → Bool
  | .answered _, .ended _ => false
  | .answered _, _ => true
  | .handedOver, _ => false

/-- `try_send`: refused when the receiver is gone, or a message is there already. -/
def State.trySend (s : State ρ) (a : ρ) : Option ρ :=
  if s.receiving && s.channel.isNone then some a else s.channel

def step (d : Dispatch ρ) (s : State ρ) : Action ρ → Option (State ρ)
  | .share =>
    match s.caller with
    | .made => some { s with box := s.box.retain, caller := .shared, callback := .shared }
    | _ => none
  | .call =>
    match s.caller with
    | .shared =>
      match d with
      | .answered a => some { s with caller := .inGlue, callback := .entered a }
      | .handedOver => some { s with caller := .inGlue, callback := .due }
    | _ => none
  | .fire a =>
    match s.callback with
    | .due => some { s with callback := .entered a }
    | _ => none
  | .lose =>
    match s.callback with
    | .due => some { s with callback := .lost }
    | _ => none
  | .send =>
    match s.callback with
    | .entered a => some { s with box := s.box.use, channel := s.trySend a, callback := .sent a }
    | _ => none
  | .finish =>
    match s.callback with
    | .sent a => some { s with box := s.box.release, callback := .ended a }
    | _ => none
  | .leave =>
    match s.caller with
    | .inGlue => if Dispatch.onStack d s.callback then none else some { s with caller := .waiting }
    | _ => none
  | .receive =>
    match s.caller, s.channel with
    | .waiting, some a => some { s with caller := .received (some a), channel := none }
    | _, _ => none
  | .timeout =>
    match s.caller, s.channel with
    | .waiting, none => some { s with caller := .received none }
    | _, _ => none
  | .hangUp =>
    match s.caller, s.channel with
    | .waiting, none => if s.box.freed = 0 then none else some { s with caller := .received none }
    | _, _ => none
  | .dropTx =>
    match s.caller with
    | .received r => some { s with box := s.box.release, caller := .dropped r }
    | _ => none
  | .dropRx =>
    match s.caller with
    | .dropped r => some { s with receiving := false, channel := none, caller := .returned r }
    | _ => none

def machine (d : Dispatch ρ) : Machine (State ρ) (Action ρ) := { start := {}, step := step d }

/-! ### What one step does

The step function has both sides' moves under guards.  `Moves` is the same as a relation,
with a constructor for each branch that is taken, and every invariant goes by its cases.
-/

/-- The callback as the glue leaves it. -/
def Dispatch.begin : Dispatch ρ → Callback ρ
  | .answered a => .entered a
  | .handedOver => .due

/-- The moves, one by one. -/
inductive Moves (d : Dispatch ρ) (s : State ρ) : Action ρ → State ρ → Prop
  | share (hc : s.caller = .made) :
    Moves d s .share { s with box := s.box.retain, caller := .shared, callback := .shared }
  | call (hc : s.caller = .shared) :
    Moves d s .call { s with caller := .inGlue, callback := Dispatch.begin d }
  | fire (a : ρ) (hb : s.callback = .due) : Moves d s (.fire a) { s with callback := .entered a }
  | lose (hb : s.callback = .due) : Moves d s .lose { s with callback := .lost }
  | send (a : ρ) (hb : s.callback = .entered a) :
    Moves d s .send { s with box := s.box.use, channel := s.trySend a, callback := .sent a }
  | finish (a : ρ) (hb : s.callback = .sent a) :
    Moves d s .finish { s with box := s.box.release, callback := .ended a }
  | leave (hc : s.caller = .inGlue) (hstack : Dispatch.onStack d s.callback = false) :
    Moves d s .leave { s with caller := .waiting }
  | receive (a : ρ) (hc : s.caller = .waiting) (hmsg : s.channel = some a) :
    Moves d s .receive { s with caller := .received (some a), channel := none }
  | timeout (hc : s.caller = .waiting) (hmsg : s.channel = none) :
    Moves d s .timeout { s with caller := .received none }
  | hangUp (hc : s.caller = .waiting) (hmsg : s.channel = none) (hfreed : s.box.freed ≠ 0) :
    Moves d s .hangUp { s with caller := .received none }
  | dropTx (r : Option ρ) (hc : s.caller = .received r) :
    Moves d s .dropTx { s with box := s.box.release, caller := .dropped r }
  | dropRx (r : Option ρ) (hc : s.caller = .dropped r) :
    Moves d s .dropRx { s with receiving := false, channel := none, caller := .returned r }

variable {d : Dispatch ρ} {s t : State ρ} {a : Action ρ}

theorem moves_of_step (h : step d s a = some t) : Moves d s a t := by
  cases a with
  | share =>
      simp only [step] at h
      split at h
      · rename_i hc
        exact Option.some.inj h ▸ .share hc
      · cases h
  | call =>
      simp only [step] at h
      split at h
      · rename_i hc
        cases d <;> exact Option.some.inj h ▸ .call hc
      · cases h
  | fire a =>
      simp only [step] at h
      split at h
      · rename_i hb
        exact Option.some.inj h ▸ .fire a hb
      · cases h
  | lose =>
      simp only [step] at h
      split at h
      · rename_i hb
        exact Option.some.inj h ▸ .lose hb
      · cases h
  | send =>
      simp only [step] at h
      split at h
      · rename_i a hb
        exact Option.some.inj h ▸ .send a hb
      · cases h
  | finish =>
      simp only [step] at h
      split at h
      · rename_i a hb
        exact Option.some.inj h ▸ .finish a hb
      · cases h
  | leave =>
      simp only [step] at h
      split at h
      · rename_i hc
        split at h
        · cases h
        · rename_i hstack
          exact Option.some.inj h ▸ .leave hc (Bool.eq_false_iff.mpr hstack)
      · cases h
  | receive =>
      simp only [step] at h
      split at h
      · rename_i a hc hmsg
        exact Option.some.inj h ▸ .receive a hc hmsg
      · cases h
  | timeout =>
      simp only [step] at h
      split at h
      · rename_i hc hmsg
        exact Option.some.inj h ▸ .timeout hc hmsg
      · cases h
  | hangUp =>
      simp only [step] at h
      split at h
      · rename_i hc hmsg
        split at h
        · cases h
        · rename_i hfreed
          exact Option.some.inj h ▸ .hangUp hc hmsg hfreed
      · cases h
  | dropTx =>
      simp only [step] at h
      split at h
      · rename_i r hc
        exact Option.some.inj h ▸ .dropTx r hc
      · cases h
  | dropRx =>
      simp only [step] at h
      split at h
      · rename_i r hc
        exact Option.some.inj h ▸ .dropRx r hc
      · cases h

/-! ### Who holds the box

The box has as many strong references as there are sides that have not let go.  What is on
its way, and what was answered, depends on how far the callback is; what the caller has is
either that or nothing.
-/

/-- The strong references of the caller. -/
def Caller.refs : Caller ρ → Nat
  | .dropped _ | .returned _ => 0
  | _ => 1

/-- The strong reference behind the raw pointer, until the callback has given it up. -/
def Callback.refs : Callback ρ → Nat
  | .unshared | .ended _ => 0
  | _ => 1

/-- The answer the callback was given. -/
def Callback.answer : Callback ρ → Option ρ
  | .entered a | .sent a | .ended a => some a
  | _ => none

/-- The answer, once it has been sent. -/
def Callback.delivered : Callback ρ → Option ρ
  | .sent a | .ended a => some a
  | _ => none

/-- What the wait came to. -/
def Caller.outcome : Caller ρ → Option (Option ρ)
  | .received r | .dropped r | .returned r => some r
  | _ => none

/-- Before the native side has anything. -/
def Caller.before : Caller ρ → Bool
  | .made | .shared => true
  | _ => false

def Callback.before : Callback ρ → Bool
  | .unshared | .shared => true
  | _ => false

theorem Callback.none_of_before {c : Callback ρ} (h : c.before = true) :
    c.answer = none ∧ c.delivered = none := by
  cases c with
  | unshared | shared => exact ⟨rfl, rfl⟩
  | due | entered | sent | ended | lost => cases h

/-- What holds after any moves of the two sides. -/
structure Inv (d : Dispatch ρ) (s : State ρ) : Prop where
  held : s.box.Held (s.caller.refs + s.callback.refs)
  unshared : s.caller = .made ↔ s.callback = .unshared
  before : s.caller.before = s.callback.before
  /-- While the caller may still look, what was sent is in the channel. -/
  waiting : s.caller.outcome = none → s.channel = s.callback.delivered ∧ s.receiving = true
  /-- What the caller has is what was sent. -/
  got : ∀ a, s.caller.outcome = some (some a) → s.callback.delivered = some a
  /-- Nothing is waited for that the glue answers. -/
  answered : ∀ a, d = .answered a → s.callback.before = false →
    s.callback.answer = some a ∧ s.caller.outcome ≠ some none
  /-- An answer of the glue has been given before the wait begins. -/
  stack : ∀ a, d = .answered a → s.caller.before = false → s.caller ≠ .inGlue →
    s.callback = .ended a

theorem inv_start : Inv d (ρ := ρ) {} where
  held := .new
  unshared := iff_of_true rfl rfl
  before := rfl
  waiting _ := ⟨rfl, rfl⟩
  got a h := by cases h
  answered a _ h := by cases h
  stack a _ h := by cases h

/-- What has a reference is counted, whoever moves. -/
theorem Inv.held_moves (h : Inv d s) (hm : Moves d s a t) :
    t.box.Held (t.caller.refs + t.callback.refs) := by
  have hheld := h.held
  cases hm with
  | share hc =>
      rw [hc, h.unshared.mp hc] at hheld
      exact hheld.retain Nat.one_pos
  | call hc =>
      have hb := h.before
      rw [hc] at hheld hb
      cases hcb : s.callback with
      | shared =>
          rw [hcb] at hheld
          cases d <;> exact hheld
      | unshared => cases hc.symm.trans (h.unshared.mpr hcb)
      | due | entered | sent | ended | lost =>
          rw [hcb] at hb
          cases hb
  | fire a hb | lose hb =>
      rw [hb] at hheld
      exact hheld
  | send a hb =>
      rw [hb] at hheld
      exact hheld.use (Nat.succ_pos _)
  | finish a hb =>
      rw [hb] at hheld
      exact hheld.release
  | leave hc _ | receive a hc _ | timeout hc _ | hangUp hc _ _ =>
      rw [hc] at hheld
      exact hheld
  | dropTx r hc =>
      rw [hc] at hheld
      show s.box.release.Held (0 + s.callback.refs)
      rw [Nat.zero_add]
      refine Counted.Held.release ?_
      rw [Nat.add_comm]
      exact hheld
  | dropRx r hc =>
      rw [hc] at hheld
      exact hheld

/-- What was sent stays where the caller can find it. -/
theorem Inv.waiting_moves (h : Inv d s) (hm : Moves d s a t) (hout : t.caller.outcome = none) :
    t.channel = t.callback.delivered ∧ t.receiving = true := by
  have hwaiting := h.waiting
  cases hm with
  | share hc =>
      rw [hc, h.unshared.mp hc] at hwaiting
      exact hwaiting rfl
  | call hc =>
      have hb := h.before
      rw [hc] at hwaiting hb
      have hnone : s.callback.delivered = none := (Callback.none_of_before hb.symm).2
      refine ⟨(hwaiting rfl).1.trans (hnone.trans ?_), (hwaiting rfl).2⟩
      cases d <;> rfl
  | fire a hb | lose hb =>
      rw [hb] at hwaiting
      exact hwaiting hout
  | send a hb =>
      obtain ⟨hempty, hreceiving⟩ := hwaiting hout
      rw [hb] at hempty
      refine ⟨?_, hreceiving⟩
      show s.trySend a = some a
      rw [State.trySend, hreceiving, hempty]
      rfl
  | finish a hb =>
      rw [hb] at hwaiting
      exact hwaiting hout
  | leave hc _ =>
      rw [hc] at hwaiting
      exact hwaiting rfl
  | receive | timeout | hangUp | dropTx | dropRx => cases hout

theorem Inv.got_moves (h : Inv d s) (hm : Moves d s a t) (b : ρ)
    (hout : t.caller.outcome = some (some b)) : t.callback.delivered = some b := by
  have hgot := h.got b
  cases hm with
  | share | call | leave | timeout | hangUp => cases hout
  | fire a hb | lose hb =>
      rw [hb] at hgot
      cases hgot hout
  | send a hb =>
      rw [hb] at hgot
      cases hgot hout
  | finish a hb =>
      rw [hb] at hgot
      exact hgot hout
  | receive a hc hmsg =>
      obtain rfl := Option.some.inj (Option.some.inj hout)
      rw [← (h.waiting (by rw [hc]; rfl)).1]
      exact hmsg
  | dropTx r hc | dropRx r hc =>
      rw [hc] at hgot
      exact hgot hout

/-- Both sides begin with the hand-over. -/
theorem Inv.before_moves (h : Inv d s) (hm : Moves d s a t) :
    (t.caller = .made ↔ t.callback = .unshared) ∧ t.caller.before = t.callback.before := by
  have hbefore := h.before
  have hunshared := h.unshared
  cases hm with
  | share hc => exact ⟨iff_of_false nofun nofun, rfl⟩
  | call hc => cases d <;> exact ⟨iff_of_false nofun nofun, rfl⟩
  | fire a hb | lose hb | send a hb | finish a hb =>
      rw [hb] at hbefore hunshared
      exact ⟨hunshared.trans (iff_of_false nofun nofun), hbefore⟩
  | leave hc _ | receive a hc _ | timeout hc _ | hangUp hc _ _ | dropTx r hc | dropRx r hc =>
      rw [hc] at hbefore hunshared
      exact ⟨(iff_of_false nofun nofun).trans hunshared, hbefore⟩

/-- The glue's own answer is the only one there is, and comes before the wait. -/
theorem Inv.stack_moves (h : Inv d s) (hm : Moves d s a t) (b : ρ) (hd : d = .answered b)
    (hafter : t.caller.before = false) (hout : t.caller ≠ .inGlue) : t.callback = .ended b := by
  have hstack := h.stack b hd
  cases hm with
  | share => cases hafter
  | call => exact absurd rfl hout
  | fire a hb | lose hb | send a hb | finish a hb => cases hb.symm.trans (hstack hafter hout)
  | leave hc hback =>
      subst hd
      have hsome := (h.answered b rfl (by rw [← h.before, hc]; rfl)).1
      change Dispatch.onStack (.answered b) s.callback = false at hback
      show s.callback = .ended b
      cases hcb : s.callback with
      | ended a =>
          rw [hcb] at hsome
          exact congrArg _ (Option.some.inj hsome)
      | _ =>
          rw [hcb] at hback
          cases hback
  | receive a hc _ | timeout hc _ | hangUp hc _ _ | dropTx r hc | dropRx r hc =>
      rw [hc] at hstack
      exact hstack rfl nofun

theorem Inv.answered_moves (h : Inv d s) (hm : Moves d s a t) (b : ρ) (hd : d = .answered b)
    (hafter : t.callback.before = false) :
    t.callback.answer = some b ∧ t.caller.outcome ≠ some none := by
  have hanswered := h.answered b hd
  -- a wait without an answer in the channel is not to be had
  have hthere : s.caller = .waiting → s.channel = some b := fun hc => by
    have hover := h.stack b hd (by rw [hc]; rfl) (by rw [hc]; nofun)
    rw [(h.waiting (by rw [hc]; rfl)).1, hover]
    rfl
  cases hm with
  | share => cases hafter
  | call =>
      subst hd
      exact ⟨rfl, nofun⟩
  | fire a hb | lose hb =>
      rw [hb] at hanswered
      cases (hanswered rfl).1
  | send a hb | finish a hb =>
      rw [hb] at hanswered
      exact hanswered rfl
  | leave hc _ => exact ⟨(hanswered hafter).1, nofun⟩
  | receive a hc _ => exact ⟨(hanswered hafter).1, nofun⟩
  | timeout hc hmsg | hangUp hc hmsg _ => cases hmsg.symm.trans (hthere hc)
  | dropTx r hc | dropRx r hc =>
      rw [hc] at hanswered
      exact hanswered hafter

theorem inv_moves (h : Inv d s) (hm : Moves d s a t) : Inv d t where
  held := h.held_moves hm
  unshared := (h.before_moves hm).1
  before := (h.before_moves hm).2
  waiting := h.waiting_moves hm
  got := h.got_moves hm
  answered := h.answered_moves hm
  stack := h.stack_moves hm

theorem inv_step (s : State ρ) (a : Action ρ) (t : State ρ) (h : Inv d s)
    (hstep : step d s a = some t) : Inv d t :=
  inv_moves h (moves_of_step hstep)

theorem inv_of_reachable (h : (machine d).Reachable s) : Inv d s :=
  Machine.invariant inv_start inv_step h

/-! ### The box

The two sides let go in either order, and the last one frees the box.  Both counts are at
most one, so there is nothing left exactly when both are through.
-/

/-- The caller has dropped its sender. -/
def Caller.letGo : Caller ρ → Bool
  | .dropped _ | .returned _ => true
  | _ => false

theorem Caller.refs_eq_zero_iff {c : Caller ρ} : c.refs = 0 ↔ c.letGo = true := by
  cases c <;> simp [refs, letGo]

/-- A callback that gave its reference up was given an answer. -/
theorem Callback.refs_eq_zero_iff {c : Callback ρ} :
    c.refs = 0 ↔ c = .unshared ∨ ∃ a, c = .ended a := by
  cases c <;> simp [refs]

/--
**Whichever side finishes last frees the box.**  However the two sides interleave, and
whether the answer comes in time, late or never, nobody touches the box after it is freed
and it is freed at most once: exactly when the caller has dropped its sender and the callback
has run to its end.  While the caller waits the channel cannot be cut off from the other side.
-/
theorem memory_safe (d : Dispatch ρ) :
    ∀ s, (machine d).Reachable s →
      s.box.stale = 0 ∧ s.box.freed ≤ 1 ∧
        (s.box.freed = 1 ↔ s.caller.letGo = true ∧ ∃ a, s.callback = .ended a) ∧
        (machine d).step s .hangUp = none := by
  intro s hs
  have h : Inv d s := inv_of_reachable hs
  refine ⟨h.held.stale, h.held.freed_le_one, ?_, ?_⟩
  · rw [h.held.freed_eq_one_iff, Nat.add_eq_zero_iff, Caller.refs_eq_zero_iff,
      Callback.refs_eq_zero_iff]
    refine and_congr_right fun hgone => or_iff_right fun hun => ?_
    rw [h.unshared.mpr hun] at hgone
    cases hgone
  · cases hstep : (machine d).step s .hangUp with
    | none => rfl
    | some t =>
        cases moves_of_step (show step d s .hangUp = some t from hstep) with
        | hangUp hc _ hfreed =>
            have hpos : 0 < s.caller.refs + s.callback.refs := by
              rw [hc]
              exact Nat.lt_of_lt_of_le Nat.one_pos (Nat.le_add_right ..)
            exact absurd (h.held.alive hpos) hfreed

/-- The callback is the last to touch the box, after the caller has gone. -/
theorem memory_safe_late :
    let s : State Nat :=
      { box := { count := 0, freed := 1 }, receiving := false, caller := .returned none,
        callback := .ended 7 }
    s.box.stale = 0 ∧ s.box.freed ≤ 1 ∧
      (s.box.freed = 1 ↔ s.caller.letGo = true ∧ ∃ a, s.callback = .ended a) ∧
      (machine .handedOver).step s .hangUp = none :=
  memory_safe .handedOver _
    ⟨[.share, .call, .leave, .timeout, .fire 7, .dropTx, .dropRx, .send, .finish], rfl⟩

/-! ### The answer

Once the wait has timed out nothing that comes is read, and before that whatever comes is.
Whether the answer came in time is therefore a matter of which of two actions stands first.
-/

theorem timedOut_flag (s : State ρ) (a : Action ρ) (t : State ρ) (h : Inv d s)
    (hstep : step d s a = some t) :
    t.caller.outcome = some none ↔ s.caller.outcome = some none ∨ a = .timeout := by
  cases moves_of_step hstep with
  | hangUp hc _ hfreed =>
      have hpos : 0 < s.caller.refs + s.callback.refs := by
        rw [hc]
        exact Nat.lt_of_lt_of_le Nat.one_pos (Nat.le_add_right ..)
      exact absurd (h.held.alive hpos) hfreed
  | timeout hc _ => simp [Caller.outcome]
  | share hc | call hc | leave hc _ | receive a hc _ | dropTx r hc | dropRx r hc =>
      simp [hc, Caller.outcome]
  | fire | lose | send | finish => simp

theorem answer_flag (b : ρ) (s : State ρ) (a : Action ρ) (t : State ρ) (h : Inv d s)
    (hstep : step d s a = some t) :
    t.callback.answer = some b ↔
      s.callback.answer = some b ∨ (a = .fire b ∨ a = .call ∧ d = .answered b) := by
  cases moves_of_step hstep with
  | share hc => simp [h.unshared.mp hc, Callback.answer]
  | call hc =>
      have hb := h.before
      rw [hc] at hb
      rw [(Callback.none_of_before hb.symm).1]
      cases d <;> simp [Dispatch.begin, Callback.answer]
  | fire a hb => simp [hb, Callback.answer, eq_comm]
  | lose hb | send a hb | finish a hb => simp [hb, Callback.answer]
  | leave | receive | timeout | hangUp | dropTx | dropRx => simp

theorem sent_flag (s : State ρ) (a : Action ρ) (t : State ρ) (h : Inv d s)
    (hstep : step d s a = some t) :
    t.callback.delivered.isSome = true ↔ s.callback.delivered.isSome = true ∨ a = .send := by
  cases moves_of_step hstep with
  | share hc => simp [h.unshared.mp hc, Callback.delivered]
  | call hc =>
      have hb := h.before
      rw [hc] at hb
      rw [(Callback.none_of_before hb.symm).2]
      cases d <;> simp [Dispatch.begin, Callback.delivered]
  | fire a hb | lose hb | send a hb | finish a hb => simp [hb, Callback.delivered]
  | leave | receive | timeout | hangUp | dropTx | dropRx => simp

/-- A wait that times out has not been answered yet. -/
theorem unsent_before_timeout {bs cs : List (Action ρ)} {s : State ρ}
    (hrun : (machine d).run {} (bs ++ .timeout :: cs) = some s) : .send ∉ bs := by
  rw [Machine.run_append, Option.bind_eq_some_iff] at hrun
  obtain ⟨u, hbs, hrest⟩ := hrun
  obtain ⟨v, hstep, -⟩ := (machine d).run_cons_eq_some.mp hrest
  have hu : Inv d u := Machine.run_invariant inv_step inv_start hbs
  intro hmem
  have hsent : u.callback.delivered.isSome = true :=
    (Machine.run_flag (K := (· = .send)) inv_step sent_flag inv_start hbs).mpr
      (.inr ⟨_, hmem, rfl⟩)
  cases moves_of_step (show step d u .timeout = some v from hstep) with
  | timeout hc hmsg =>
      rw [← (hu.waiting (by rw [hc]; rfl)).1, hmsg] at hsent
      cases hsent

/-- The run has the call return, with an answer or without. -/
def Returns (d : Dispatch ρ) (as : List (Action ρ)) (r : Option ρ) : Prop :=
  ∃ s, (machine d).run {} as = some s ∧ s.caller = .returned r

/-- The answer comes while the caller waits. -/
def inTime (a : ρ) : List (Action ρ) :=
  [.share, .call, .leave, .fire a, .send, .receive, .finish, .dropTx, .dropRx]

theorem returns_inTime (a : ρ) : Returns .handedOver (inTime a) (some a) :=
  ⟨{ box := { count := 0, freed := 1 }, receiving := false, caller := .returned (some a),
     callback := .ended a }, rfl, rfl⟩

/-- A call returns without an answer iff its wait timed out. -/
theorem Returns.none_iff {as : List (Action ρ)} {r : Option ρ} (h : Returns d as r) :
    r = none ↔ .timeout ∈ as := by
  obtain ⟨s, hrun, hret⟩ := h
  have hout : s.caller.outcome = some r := by rw [hret]; rfl
  have hflag := Machine.run_flag (K := (· = Action.timeout)) inv_step timedOut_flag inv_start hrun
  rw [hout, Option.some.injEq] at hflag
  rw [hflag]
  simp [Caller.outcome]

/--
**The caller gets the answer, unless it stopped waiting before it was sent.**  In every run
that has the call return, what it returns is the one answer there is exactly when the wait
did not time out; a wait times out only before the answer is sent; and what the glue answers
itself is always what the call returns.
-/
theorem returns_answer (d : Dispatch ρ) (as : List (Action ρ)) (r : Option ρ)
    (h : Returns d as r) :
    (∀ a, r = some a ↔ .timeout ∉ as ∧ (d = .answered a ∨ .fire a ∈ as)) ∧
      (∀ bs cs, as = bs ++ .timeout :: cs → .send ∉ bs) ∧
      ∀ a, d = .answered a → r = some a := by
  have htimeout := h.none_iff
  obtain ⟨s, hrun, hret⟩ := h
  have h : Inv d s := Machine.run_invariant inv_step inv_start hrun
  have hout : s.caller.outcome = some r := by rw [hret]; rfl
  have hafter : s.callback.before = false := by rw [← h.before, hret]; rfl
  -- the answer leaves a trace
  have hfire : ∀ b, s.callback.answer = some b ↔
      ∃ x ∈ as, x = .fire b ∨ x = .call ∧ d = .answered b := by
    intro b
    rw [Machine.run_flag inv_step (answer_flag b) inv_start hrun]
    simp [Callback.answer]
  -- what the caller has is the answer
  have hanswer : ∀ a, r = some a → s.callback.answer = some a := by
    rintro a rfl
    have := h.got a hout
    cases hcb : s.callback <;> rw [hcb] at this <;> first | exact this | cases this
  have hown : ∀ a, d = .answered a → r = some a := by
    intro a hd
    obtain ⟨ha, hnone⟩ := h.answered a hd hafter
    cases r with
    | none => exact absurd hout hnone
    | some b => exact (hanswer b rfl).symm.trans ha
  refine ⟨fun a => ?_, fun bs cs has => unsent_before_timeout (has ▸ hrun), hown⟩
  rw [← htimeout]
  constructor
  · intro hr
    obtain ⟨x, hx, rfl | ⟨-, hd⟩⟩ := (hfire a).mp (hanswer a hr)
    · exact ⟨by rw [hr]; nofun, .inr hx⟩
    · exact ⟨by rw [hr]; nofun, .inl hd⟩
  · rintro ⟨hsome, hd | ha⟩
    · exact hown a hd
    · obtain ⟨b, hb⟩ := Option.ne_none_iff_exists'.mp hsome
      have hboth := (hfire a).mpr ⟨_, ha, .inl rfl⟩
      rw [hb, ← hanswer b hb, hboth]

/-- An answer that is sent after the wait has ended. -/
theorem late_answer_lost :
    (machine (.handedOver : Dispatch Nat)).run {}
        [.share, .call, .leave, .timeout, .fire 7, .dropTx, .send, .finish, .dropRx]
      = some { box := { count := 0, freed := 1 }, receiving := false,
               caller := .returned none, callback := .ended 7 } ∧
      ∀ a, (none : Option Nat) = some a ↔ False := by
  have hrun : (machine (.handedOver : Dispatch Nat)).run {}
      [.share, .call, .leave, .timeout, .fire 7, .dropTx, .send, .finish, .dropRx]
      = some { box := { count := 0, freed := 1 }, receiving := false,
               caller := .returned none, callback := .ended 7 } := by decide
  refine ⟨hrun, fun a => ?_⟩
  rw [(returns_answer _ _ none ⟨_, hrun, rfl⟩).1 a]
  simp

end Bridge

end ReactorWebrtc
