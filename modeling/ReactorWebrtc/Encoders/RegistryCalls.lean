/-
Calls to the encoder registry, from any threads.

The registry is behind two locks, that of the reservations in line and that of the slots that
are bound, and each slot has locks of its own, under which its callback and its feedback
listener run.  Some calls take the line's lock inside the other, some take one after the
other, and what runs under a slot's lock may call the registry again.  Every lock that is
taken or given back is a step here; what a call does with the data under a lock is part of
the step that takes it.

All take the slots' locks first and the line's lock last, so the calls can always be brought
to an end (`Each.exists_ready`).  A slot on its way from the line to an instance is in neither
structure, but then the lock of the second is held, which is what the two answers rest on.

What runs under a slot's lock is the caller's and may do anything that does not wait for
that very lock.  Dropping a slot runs no code of the caller's here: `retract` drops
callbacks under the lock of the bound slots, and one that owned the last handle of a track
would come back to `retract` there and wait for itself.
-/
import Mathlib.Algebra.Order.BigOperators.Group.Finset
import Mathlib.Data.Finset.Range
import ReactorWebrtc.Encoders.Recreation
import ReactorWebrtc.Lib.Lock

namespace ReactorWebrtc

namespace EncoderRegistry

/-- The slot that a track of this kind reserves. -/
def slotOf (number : Nat) : TrackEncoder → RegistrySlot
  | .raw backend => .builtin backend
  | .preEncoded => .custom number
  | .inline => .inline number

/-- Anything custom is in line. -/
def hasPending (r : EncoderRegistry) : Bool := r.pending.any (!·.slot.isBuiltin)

/-- Anything custom is bound. -/
def hasAssigned (r : EncoderRegistry) : Bool := r.assigned.any (!·.2.slot.isBuiltin)

end EncoderRegistry

namespace RegistryCalls

/-- The mutexes of a slot, by the number of its reservation, and of the registry. -/
inductive RegistryLock
  | callback (k : Nat)
  | feedback (k : Nat)
  | queue (k : Nat)
  | assigned
  | pending
  deriving DecidableEq, Repr

/-- The calls that a callback may make. -/
inductive PlainOp
  | add (nativeId : Nat) (encoder : TrackEncoder)
  | hasCustom
  | retract (nativeId : Nat)
  deriving DecidableEq, Repr

/-- Where such a call is: before a lock it is about to take, before one it is about to give
back, or at its end. -/
inductive Plain
  | add (nativeId : Nat) (encoder : TrackEncoder)
  /-- `has_custom` -/
  | hasPending
  | hasAssigned
  /-- `retract` -/
  | retain (nativeId : Nat)
  | anyPending (nativeId : Nat)
  | anyAssigned (nativeId : Nat)
  | degrade (nativeId : Nat)
  | unlock (l : RegistryLock) (next : Plain)
  | done (answer : Option Bool)
  deriving DecidableEq, Repr

/-- Which of the two asks for the slot of an instance. -/
inductive Ask
  | useBuiltinFor
  | encodeFor (requestKeyFrame : Bool)
  deriving DecidableEq, Repr

/-- The calls there are. -/
inductive Op
  | plain (op : PlainOp)
  | ask (encoderId : Nat) (a : Ask)
  | rateUpdate (encoderId : Nat)
  deriving DecidableEq, Repr

/-- What runs under a lock of its slot.  A listener that is not there does nothing. -/
inductive Callee
  | encoder (k : Nat)
  | listener (k : Nat)
  deriving DecidableEq, Repr

/-- The lock under which it runs. -/
def Callee.lock : Callee → RegistryLock
  | .encoder k => .callback k
  | .listener k => .feedback k

/-- Where a call is, in the same way; the calls that run a callback have more places. -/
inductive Call
  | plain (p : Plain)
  | ask (encoderId : Nat) (a : Ask)
  /-- In want of a reservation, with the bound slots locked, and with what was in line. -/
  | pop (encoderId : Nat) (a : Ask)
  | popped (encoderId : Nat) (a : Ask) (r : Option RegistryReservation)
  /-- Whether anything custom is left in line. -/
  | anyCustomLeft
  /-- About to call, in the call with a call of its own, and the queue to turn to after it. -/
  | call (callee : Callee) (queue : Option Nat)
  | running (callee : Callee) (nested : Option Plain) (queue : Option Nat)
  | pull (queue : Nat)
  | rateUpdate (encoderId : Nat)
  | unlock (l : RegistryLock) (next : Call)
  | returned (answer : Option Bool)
  deriving DecidableEq, Repr

/-- The registry, and how many reservations were made. -/
structure Shared where
  registry : EncoderRegistry := {}
  reserved : Nat := 0
  deriving DecidableEq, Repr

/-- The registry, its locks, and the calls by their threads. -/
structure State extends Shared where
  locked : RegistryLock → Bool := fun _ => false
  calls : Nat → Option Call := fun _ => none

/-- A call begins or goes on, or what runs in it does something. -/
inductive Action
  | begin (i : Nat) (op : Op)
  | step (i : Nat)
  /-- What runs in the call makes a call of its own, or returns. -/
  | nest (i : Nat) (op : PlainOp)
  | finish (i : Nat)
  deriving DecidableEq, Repr

/-- Where the call begins. -/
def PlainOp.start : PlainOp → Plain
  | .add nativeId encoder => .add nativeId encoder
  | .hasCustom => .hasPending
  | .retract nativeId => .retain nativeId

/-- Where the call begins. -/
def Op.start : Op → Call
  | .plain op => .plain op.start
  | .ask encoderId a => .ask encoderId a
  | .rateUpdate encoderId => .rateUpdate encoderId

/-! ### Locks -/

/-- The lock that the next step takes. -/
def Plain.wants : Plain → Option RegistryLock
  | .add .. | .hasPending | .retain _ | .anyPending _ => some .pending
  | .hasAssigned | .anyAssigned _ | .degrade _ => some .assigned
  | .unlock .. | .done _ => none

/-- The lock that the next step gives back. -/
def Plain.gives : Plain → Option RegistryLock
  | .unlock l _ => some l
  | _ => none

/-- The locks that are held, the last one taken first. -/
def Plain.holds : Plain → List RegistryLock
  | .unlock l next => l :: next.holds
  | _ => []

/-- The lock that the next step takes. -/
def Call.wants : Call → Option RegistryLock
  | .plain p | .running _ (some p) _ => p.wants
  | .ask .. | .rateUpdate _ => some .assigned
  | .pop .. | .anyCustomLeft => some .pending
  | .call callee _ => some callee.lock
  | .pull queue => some (.queue queue)
  | .popped .. | .running _ none _ | .unlock .. | .returned _ => none

/-- The lock that the next step gives back. -/
def Call.gives : Call → Option RegistryLock
  | .plain p | .running _ (some p) _ => p.gives
  | .popped .. => some .pending
  | .unlock l _ => some l
  | _ => none

/-- The locks that are held, the last one taken first. -/
def Call.holds : Call → List RegistryLock
  | .plain p => p.holds
  | .pop .. | .anyCustomLeft => [.assigned]
  | .popped .. => [.pending, .assigned]
  | .running callee (some p) _ => p.holds ++ [callee.lock]
  | .running callee none _ => [callee.lock]
  | .unlock l next => l :: next.holds
  | _ => []

/-! ### Steps -/

/-- A new reservation, at the end of the line. -/
def Shared.reserve (r : Shared) (nativeId : Nat) (encoder : TrackEncoder) : Shared where
  registry := r.registry.reserve
    { nativeId, slot := EncoderRegistry.slotOf r.reserved encoder, number := r.reserved }
  reserved := r.reserved + 1

/-- What the track had in line is taken out of it. -/
def Shared.retain (r : Shared) (nativeId : Nat) : Shared :=
  { r with registry.pending := r.registry.pending.filter (·.nativeId ≠ nativeId) }

/-- What the track had bound is bound to the builtin encoder now. -/
def Shared.degrade (r : Shared) (nativeId : Nat) : Shared :=
  { r with registry.assigned :=
      r.registry.assigned.map fun (id, a) => (id, EncoderRegistry.degrade nativeId a) }

/-- The first in line is out of it. -/
def Shared.pop (r : Shared) : Shared :=
  { r with registry.pending := r.registry.pending.tail }

/-- The instance is bound to this. -/
def Shared.bind (r : Shared) (encoderId : Nat) (a : AssignedSlot) : Shared :=
  { r with registry.assigned := r.registry.assigned ++ [(encoderId, a)] }

/-- A step, with the lock it wants. -/
def Plain.next (r : Shared) : Plain → Option (Shared × Plain)
  | .add nativeId encoder => some (r.reserve nativeId encoder, .unlock .pending (.done none))
  | .hasPending =>
    -- the answer is there before the other structure is looked at
    some (r, .unlock .pending (if r.registry.hasPending then .done (some true) else .hasAssigned))
  | .hasAssigned => some (r, .unlock .assigned (.done (some r.registry.hasAssigned)))
  | .retain nativeId => some (r.retain nativeId, .unlock .pending (.anyPending nativeId))
  | .anyPending nativeId =>
    some (r, .unlock .pending
      (if r.registry.hasPending then .degrade nativeId else .anyAssigned nativeId))
  -- what is found is for the log
  | .anyAssigned nativeId => some (r, .unlock .assigned (.degrade nativeId))
  | .degrade nativeId => some (r.degrade nativeId, .unlock .assigned (.done none))
  | .unlock _ next => some (r, next)
  | .done _ => none

/-- Back from the slot's lock to what is left of the call. -/
def afterCall : Option Nat → Call
  | some queue => .pull queue
  | none => .returned none

/-- With the slot of the instance known, the bound slots are unlocked first. -/
def routed (slot : RegistrySlot) : Ask → Call
  | .useBuiltinFor => .unlock .assigned (.returned (some slot.isBuiltin))
  | .encodeFor requestKeyFrame => .unlock .assigned (match slot with
    | .custom k => if requestKeyFrame then .call (.listener k) (some k) else .pull k
    | .inline k => .call (.encoder k) none
    | .builtin _ => .returned none)

/-- Where a rate update goes. -/
def rateRouted : Option AssignedSlot → Call
  | some { slot := .custom k, .. } | some { slot := .inline k, .. } => .call (.listener k) none
  | _ => .returned none

/-- A step, with the lock it wants. -/
def Call.next (r : Shared) : Call → Option (Shared × Call)
  | .plain p => (p.next r).map fun (r, p) => (r, .plain p)
  | .ask encoderId a =>
    match r.registry.assigned.lookup encoderId with
    | some x => some (r, routed x.slot a)
    | none => some (r, .pop encoderId a)
  | .pop encoderId a => some (r.pop, .popped encoderId a r.registry.pending.head?)
  | .popped encoderId a (some x) => some (r.bind encoderId x.assigned, routed x.slot a)
  | .popped _ .useBuiltinFor none =>
    if r.registry.hasAssigned then some (r, .unlock .assigned (.returned (some true)))
    else some (r, .anyCustomLeft)
  | .popped encoderId (.encodeFor requestKeyFrame) none =>
    some (r.bind encoderId EncoderRegistry.fallback,
      routed EncoderRegistry.fallback.slot (.encodeFor requestKeyFrame))
  | .anyCustomLeft => some (r, .unlock .pending (.unlock .assigned (.returned (some true))))
  | .call callee queue => some (r, .running callee none queue)
  | .running callee (some p) queue =>
    (p.next r).map fun (r, p) => (r, .running callee (some p) queue)
  | .running _ none _ => none
  | .pull queue => some (r, .unlock (.queue queue) (.returned none))
  | .rateUpdate encoderId =>
    some (r, .unlock .assigned (rateRouted (r.registry.assigned.lookup encoderId)))
  | .unlock _ next => some (r, next)
  | .returned _ => none

/-- A lock that is taken, or else one that is given back. -/
def relock (locked : RegistryLock → Bool) : Option RegistryLock → Option RegistryLock →
    RegistryLock → Bool
  | some l, _ => Function.update locked l true
  | none, some l => Function.update locked l false
  | none, none => locked

/-- What runs in the call is not in a call of its own. -/
def Call.idle : Call → Option (Callee × Option Nat)
  | .running callee none queue | .running callee (some (.done _)) queue => some (callee, queue)
  | _ => none

/-- The call is there. -/
def State.goto (s : State) (i : Nat) (c : Call) : State :=
  { s with calls := Function.update s.calls i (some c) }

/-- One step of one call, or of what runs in it. -/
def step (s : State) : Action → Option State
  | .begin i op => if (s.calls i).isNone then some (s.goto i op.start) else none
  | .step i => (s.calls i).bind fun c =>
    -- a lock that is held is waited for, whoever holds it
    if c.wants.any s.locked then none
    else (c.next s.toShared).map fun (r, c') =>
      { s with toShared := r, locked := relock s.locked c.wants c.gives }.goto i c'
  | .nest i op => ((s.calls i).bind Call.idle).map fun (callee, queue) =>
    s.goto i (.running callee (some op.start) queue)
  | .finish i => ((s.calls i).bind Call.idle).map fun (callee, queue) =>
    s.goto i (.unlock callee.lock (afterCall queue))

/-- A registry that is new, and no call. -/
def machine : Machine State Action where
  start := {}
  step := step

/-! ### What is asked of the calls

Three things, of any interleaving: every call can be brought to its end, an answer that
there is no custom slot is right at some moment of the call, and a `retract` that has
returned has left nothing of its track's that was there when it began.
-/

/-- The call has returned. -/
def Call.finished : Call → Bool
  | .plain (.done _) | .returned _ => true
  | _ => false

/-- The call of the registry's that this one is, or that was made from within it. -/
def Call.innermost : Call → Option Plain
  | .plain p => some p
  | .running _ nested _ => nested
  | .unlock _ next => next.innermost
  | _ => none

/-- What is on its way to the bound slots. -/
def Call.transit : Call → Option RegistryReservation
  | .popped _ _ r => r
  | .unlock _ next => next.transit
  | _ => none

/-- The innermost call on a thread. -/
def State.innermost (s : State) (i : Nat) : Option Plain := (s.calls i).bind Call.innermost

variable (P : AssignedSlot → Prop)

/-- Something with `P` is in line. -/
def InPending (s : State) : Prop := ∃ x ∈ s.registry.pending, P x.assigned

/-- Something with `P` is on its way. -/
def InTransit (s : State) : Prop :=
  ∃ i c x, s.calls i = some c ∧ c.transit = some x ∧ P x.assigned

/-- Something with `P` is bound. -/
def InAssigned (s : State) : Prop := ∃ p ∈ s.registry.assigned, P p.2

/-- The custom slot of this number. -/
def IsCustom (n : Nat) (a : AssignedSlot) : Prop := a.number = some n ∧ a.slot.isBuiltin = false

/-- A custom slot of this track. -/
def IsCustomOf (nativeId : Nat) (a : AssignedSlot) : Prop :=
  a.nativeId = nativeId ∧ a.slot.isBuiltin = false

/-- The slot exists, in line, bound or on its way. -/
def Exists (s : State) : Prop := InPending P s ∨ InTransit P s ∨ InAssigned P s

/-- The step reserves such a slot. -/
def Reserves (s : State) : Action → Prop
  | .step i => ∃ nativeId encoder, s.innermost i = some (.add nativeId encoder) ∧
    P { nativeId, slot := EncoderRegistry.slotOf s.reserved encoder, number := some s.reserved }
  | _ => False

/-- In a call of `has_custom`, and in one of `retract`. -/
def Plain.ofHasCustom : Plain → Bool
  | .hasPending | .hasAssigned | .done (some _) => true
  | .unlock _ next => next.ofHasCustom
  | _ => false

/-- What a `retract` of this track can be at. -/
def Plain.ofRetract (nativeId : Nat) : Plain → Bool
  | .retain t | .anyPending t | .anyAssigned t | .degrade t => t == nativeId
  | .done none => true
  | .unlock _ next => next.ofRetract nativeId
  | _ => false

/-- The calls go on, and what runs in them returns; nothing is begun. -/
def Action.proceeds : Action → Bool
  | .step _ | .finish _ => true
  | _ => false

/-- Every call can be brought to its end. -/
def Completes (s : State) : Prop :=
  ∃ as t, (∀ a ∈ as, a.proceeds = true) ∧ machine.run s as = some t ∧
    ∀ i, s.calls i ≠ none → ∃ c, t.calls i = some c ∧ c.finished = true

/-- `has_custom`, begun here, answers true if one custom slot exists throughout. -/
def SeesCustom (s : State) : Prop :=
  ∀ i n as t answer, s.innermost i = some .hasPending → machine.run s as = some t →
    machine.Along (fun u => (u.innermost i).any Plain.ofHasCustom ∧ Exists (IsCustom n) u) s as →
    t.innermost i = some (.done (some answer)) → answer = true

/-- From the return of a `retract` begun here the track has no custom slot, unless one was
reserved since the call took the line. -/
def Retracts (s : State) : Prop :=
  ∀ i nativeId as t bs u, s.innermost i = some (.retain nativeId) →
    machine.run s as = some t →
    machine.Along (fun v => (v.innermost i).any (Plain.ofRetract nativeId)) s as →
    t.innermost i = some (.done none) → machine.run t bs = some u →
    machine.Guarded (fun v a => v.innermost i ≠ some (.retain nativeId) →
      ¬ Reserves (IsCustomOf nativeId) v a) s as →
    machine.Guarded (fun v a => ¬ Reserves (IsCustomOf nativeId) v a) t bs →
    ¬ Exists (IsCustomOf nativeId) u

/-! ### Locks -/

namespace RegistryLock

/-- Locks are taken in this order. -/
def rank : RegistryLock → Nat
  | .callback _ | .feedback _ | .queue _ => 0
  | .assigned => 1
  | .pending => 2

theorem rank_le (l : RegistryLock) : l.rank ≤ 2 := by
  cases l <;> simp [rank]

end RegistryLock

variable {p p' : Plain} {c c' : Call} {r r' : Shared} {l : RegistryLock}

/-- What is held after a step. -/
def Passes : Option RegistryLock → Option RegistryLock → List RegistryLock →
    List RegistryLock → Prop
  | some l, _, before, after => after = l :: before
  | none, some l, before, after => before = l :: after
  | none, none, before, after => after = before

theorem Plain.next_passes (h : p.next r = some (r', p')) :
    Passes p.wants p.gives p.holds p'.holds := by
  cases p with
  | hasPending =>
      obtain ⟨rfl, rfl⟩ := Prod.mk.inj (Option.some.inj h)
      show RegistryLock.pending :: Plain.holds (if _ then _ else _) = [.pending]
      split <;> rfl
  | anyPending t =>
      obtain ⟨rfl, rfl⟩ := Prod.mk.inj (Option.some.inj h)
      show RegistryLock.pending :: Plain.holds (if _ then _ else _) = [.pending]
      split <;> rfl
  | done answer => cases h
  | _ =>
      obtain ⟨rfl, rfl⟩ := Prod.mk.inj (Option.some.inj h)
      rfl

theorem Passes.append {wants gives : Option RegistryLock} {before after : List RegistryLock}
    (h : Passes wants gives before after) (l : RegistryLock) :
    Passes wants gives (before ++ [l]) (after ++ [l]) := by
  cases wants with
  | some k => exact congrArg (· ++ [l]) h
  | none =>
      cases gives with
      | some k => exact congrArg (· ++ [l]) h
      | none => exact congrArg (· ++ [l]) h

/-- Nothing is held by a call of its own that wants a lock, which is one of the registry's. -/
theorem Plain.holds_of_wants (h : p.wants = some l) : p.holds = [] ∧ 1 ≤ l.rank := by
  cases p with
  | unlock => cases h
  | done => cases h
  | _ =>
      obtain rfl := Option.some.inj h
      exact ⟨rfl, by decide⟩

/-- A lock that is wanted comes after all that are held. -/
theorem Call.rank_lt_of_wants (h : c.wants = some l) : ∀ k ∈ c.holds, k.rank < l.rank := by
  have hnone : c.holds = [] → ∀ k ∈ c.holds, k.rank < l.rank := fun hnil k hk => by
    rw [hnil] at hk
    cases hk
  cases c with
  | plain p => exact hnone (Plain.holds_of_wants h).1
  | pop encoderId a =>
      obtain rfl := Option.some.inj h
      intro k hk
      rw [List.mem_singleton.mp hk]
      decide
  | anyCustomLeft =>
      obtain rfl := Option.some.inj h
      intro k hk
      rw [List.mem_singleton.mp hk]
      decide
  | running callee nested queue =>
      cases nested with
      | none => cases h
      | some p =>
          obtain ⟨hnil, hrank⟩ := Plain.holds_of_wants h
          intro k hk
          change k ∈ p.holds ++ [callee.lock] at hk
          rw [hnil] at hk
          rw [List.mem_singleton.mp hk]
          cases callee <;> exact hrank
  | ask => exact hnone rfl
  | call => exact hnone rfl
  | pull => exact hnone rfl
  | rateUpdate => exact hnone rfl
  | popped => cases h
  | unlock => cases h
  | returned => cases h

/-! ### Calls come to an end -/

/-- How many steps a call of its own has left, at most. -/
def Plain.left : Plain → Nat
  | .done _ => 0
  | .unlock _ next => next.left + 1
  | .add .. | .hasAssigned | .degrade _ => 2
  | .hasPending | .anyAssigned _ => 4
  | .anyPending _ => 6
  | .retain _ => 8

/-- How many steps a call has left, at most, if what runs in it makes no further calls. -/
def Call.left : Call → Nat
  | .plain p => p.left
  | .returned _ => 0
  | .unlock _ next => next.left + 1
  | .pull _ => 2
  | .running _ nested _ => (nested.elim 0 Plain.left) + 4
  | .call .. => 5
  | .anyCustomLeft => 3
  | .popped .. | .rateUpdate _ => 7
  | .pop .. => 8
  | .ask .. => 9

theorem Plain.next_left (h : p.next r = some (r', p')) : p'.left < p.left := by
  cases p with
  | hasPending =>
      obtain ⟨rfl, rfl⟩ := Prod.mk.inj (Option.some.inj h)
      show Plain.left (if _ then _ else _) + 1 < 4
      split <;> simp [Plain.left]
  | anyPending t =>
      obtain ⟨rfl, rfl⟩ := Prod.mk.inj (Option.some.inj h)
      show Plain.left (if _ then _ else _) + 1 < 6
      split <;> simp [Plain.left]
  | done answer => cases h
  | _ =>
      obtain ⟨rfl, rfl⟩ := Prod.mk.inj (Option.some.inj h)
      simp [Plain.left]

/-! ### Where a call goes

Most steps only take or give back a lock.  `Goes` sorts the rest: what they take out of the
line, put among the bound slots, or degrade.
-/

/-- About to take a lock of a slot's, or at its end. -/
structure Call.Quiet (c : Call) : Prop where
  holds : c.holds = []
  transit : c.transit = none
  innermost : c.innermost = none
  left : c.left < 6

theorem returned_quiet (answer : Option Bool) : (Call.returned answer).Quiet :=
  ⟨rfl, rfl, rfl, Nat.succ_pos 5⟩

theorem afterCall_left (queue : Option Nat) : (afterCall queue).left < 3 := by
  cases queue <;> simp [afterCall, Call.left]

theorem afterCall_quiet (queue : Option Nat) : (afterCall queue).Quiet := by
  have hleft := Nat.lt_trans (afterCall_left queue) (by decide : 3 < 6)
  cases queue <;> exact ⟨rfl, rfl, rfl, hleft⟩

theorem call_quiet (callee : Callee) (queue : Option Nat) : (Call.call callee queue).Quiet :=
  ⟨rfl, rfl, rfl, Nat.lt_succ_self 5⟩

theorem rateRouted_quiet (a : Option AssignedSlot) : (rateRouted a).Quiet := by
  unfold rateRouted
  split
  · exact call_quiet _ none
  · exact call_quiet _ none
  · exact returned_quiet none

theorem routed_quiet (slot : RegistrySlot) (a : Ask) :
    ∃ rest : Call, routed slot a = .unlock .assigned rest ∧ rest.Quiet := by
  cases a with
  | useBuiltinFor => exact ⟨_, rfl, returned_quiet _⟩
  | encodeFor requestKeyFrame =>
      cases slot with
      | custom k =>
          cases requestKeyFrame with
          | true => exact ⟨_, rfl, call_quiet _ _⟩
          | false => exact ⟨_, rfl, afterCall_quiet (some k)⟩
      | inline k => exact ⟨_, rfl, call_quiet _ _⟩
      | builtin backend => exact ⟨_, rfl, returned_quiet none⟩

/-- All that one step of a call may be. -/
inductive Goes (r : Shared) : Call → Shared → Call → Prop
  | plain {p p' : Plain} {r' : Shared} (h : p.next r = some (r', p')) :
      Goes r (.plain p) r' (.plain p')
  | nested {callee : Callee} {p p' : Plain} {queue : Option Nat} {r' : Shared}
      (h : p.next r = some (r', p')) :
      Goes r (.running callee (some p) queue) r' (.running callee (some p') queue)
  | found {encoderId : Nat} {a : Ask} {rest : Call} (h : rest.Quiet) :
      Goes r (.ask encoderId a) r (.unlock .assigned rest)
  | unknown {encoderId : Nat} {a : Ask} : Goes r (.ask encoderId a) r (.pop encoderId a)
  | pop {encoderId : Nat} {a : Ask} :
      Goes r (.pop encoderId a) r.pop (.popped encoderId a r.registry.pending.head?)
  | bind {encoderId : Nat} {a : Ask} {x : RegistryReservation} {rest : Call} (h : rest.Quiet) :
      Goes r (.popped encoderId a (some x)) (r.bind encoderId x.assigned) (.unlock .assigned rest)
  | fallback {encoderId : Nat} {a : Ask} {rest : Call} (h : rest.Quiet) :
      Goes r (.popped encoderId a none) (r.bind encoderId EncoderRegistry.fallback)
        (.unlock .assigned rest)
  | leave {encoderId : Nat} {a : Ask} {rest : Call} (h : rest.Quiet) :
      Goes r (.popped encoderId a none) r (.unlock .assigned rest)
  | look {encoderId : Nat} {a : Ask} : Goes r (.popped encoderId a none) r .anyCustomLeft
  | looked {answer : Option Bool} :
      Goes r .anyCustomLeft r (.unlock .pending (.unlock .assigned (.returned answer)))
  | call {callee : Callee} {queue : Option Nat} :
      Goes r (.call callee queue) r (.running callee none queue)
  | pull {queue : Nat} : Goes r (.pull queue) r (.unlock (.queue queue) (.returned none))
  | rate {encoderId : Nat} {rest : Call} (h : rest.Quiet) :
      Goes r (.rateUpdate encoderId) r (.unlock .assigned rest)
  | unlock {l : RegistryLock} {next : Call} : Goes r (.unlock l next) r next

theorem Call.next_goes (h : c.next r = some (r', c')) : Goes r c r' c' := by
  cases c with
  | plain p =>
      obtain ⟨⟨r₁, p₁⟩, hp, heq⟩ := Option.map_eq_some_iff.mp h
      obtain ⟨rfl, rfl⟩ := Prod.mk.inj heq
      exact .plain hp
  | ask encoderId a =>
      simp only [Call.next] at h
      split at h
      · rename_i x hx
        obtain ⟨rfl, rfl⟩ := Prod.mk.inj (Option.some.inj h)
        obtain ⟨rest, hrest, hquiet⟩ := routed_quiet x.slot a
        rw [hrest]
        exact .found hquiet
      · obtain ⟨rfl, rfl⟩ := Prod.mk.inj (Option.some.inj h)
        exact .unknown
  | popped encoderId a x =>
      cases x with
      | some x =>
          obtain ⟨rfl, rfl⟩ := Prod.mk.inj (Option.some.inj h)
          obtain ⟨rest, hrest, hquiet⟩ := routed_quiet x.slot a
          rw [hrest]
          exact .bind hquiet
      | none =>
          cases a with
          | useBuiltinFor =>
              simp only [Call.next] at h
              split at h
              · obtain ⟨rfl, rfl⟩ := Prod.mk.inj (Option.some.inj h)
                exact .leave (returned_quiet _)
              · obtain ⟨rfl, rfl⟩ := Prod.mk.inj (Option.some.inj h)
                exact .look
          | encodeFor requestKeyFrame =>
              obtain ⟨rfl, rfl⟩ := Prod.mk.inj (Option.some.inj h)
              exact .fallback (returned_quiet none)
  | running callee nested queue =>
      cases nested with
      | some p =>
          obtain ⟨⟨r₁, p₁⟩, hp, heq⟩ := Option.map_eq_some_iff.mp h
          obtain ⟨rfl, rfl⟩ := Prod.mk.inj heq
          exact .nested hp
      | none => cases h
  | returned answer => cases h
  | pop encoderId a =>
      obtain ⟨rfl, rfl⟩ := Prod.mk.inj (Option.some.inj h)
      exact .pop
  | anyCustomLeft =>
      obtain ⟨rfl, rfl⟩ := Prod.mk.inj (Option.some.inj h)
      exact .looked
  | call callee queue =>
      obtain ⟨rfl, rfl⟩ := Prod.mk.inj (Option.some.inj h)
      exact .call
  | pull queue =>
      obtain ⟨rfl, rfl⟩ := Prod.mk.inj (Option.some.inj h)
      exact .pull
  | rateUpdate encoderId =>
      obtain ⟨rfl, rfl⟩ := Prod.mk.inj (Option.some.inj h)
      exact .rate (rateRouted_quiet _)
  | unlock l next =>
      obtain ⟨rfl, rfl⟩ := Prod.mk.inj (Option.some.inj h)
      exact .unlock

theorem Goes.passes (h : Goes r c r' c') : Passes c.wants c.gives c.holds c'.holds := by
  cases h with
  | plain h => exact Plain.next_passes h
  | @nested callee _ _ _ _ h => exact (Plain.next_passes h).append callee.lock
  | found h => exact congrArg (RegistryLock.assigned :: ·) h.holds
  | bind h =>
      exact congrArg (RegistryLock.pending :: RegistryLock.assigned :: ·) h.holds.symm
  | fallback h =>
      exact congrArg (RegistryLock.pending :: RegistryLock.assigned :: ·) h.holds.symm
  | leave h =>
      exact congrArg (RegistryLock.pending :: RegistryLock.assigned :: ·) h.holds.symm
  | rate h => exact congrArg (RegistryLock.assigned :: ·) h.holds
  | _ => rfl

theorem Goes.left (h : Goes r c r' c') : c'.left < c.left := by
  cases h with
  | plain h => exact Plain.next_left h
  | nested h => exact Nat.add_lt_add_right (Plain.next_left h) 4
  | found h => exact Nat.lt_trans (Nat.succ_lt_succ h.left) (by decide : 7 < 9)
  | bind h => exact Nat.succ_lt_succ h.left
  | fallback h => exact Nat.succ_lt_succ h.left
  | leave h => exact Nat.succ_lt_succ h.left
  | rate h => exact Nat.succ_lt_succ h.left
  | unlock => exact Nat.lt_succ_self _
  | _ => simp [Call.left]

/-- The innermost call is as before, or takes the step. -/
theorem Goes.innermost (h : Goes r c r' c') (hp : c'.innermost = some p') :
    c.innermost = some p' ∨
      ∃ p, c.innermost = some p ∧ p.next r = some (r', p') ∧ c.wants = p.wants := by
  have hnot {d : Call} (hd : d.Quiet) (h : d.innermost = some p') : False := by
    cases hd.innermost.symm.trans h
  cases h with
  | @plain p _ _ h =>
      obtain rfl := Option.some.inj hp
      exact .inr ⟨p, rfl, h, rfl⟩
  | @nested _ p _ _ _ h =>
      obtain rfl := Option.some.inj hp
      exact .inr ⟨p, rfl, h, rfl⟩
  | found h => exact (hnot h hp).elim
  | bind h => exact (hnot h hp).elim
  | fallback h => exact (hnot h hp).elim
  | leave h => exact (hnot h hp).elim
  | rate h => exact (hnot h hp).elim
  | unlock => exact .inl hp
  | _ => cases hp

variable {callee : Callee} {queue : Option Nat}

/-- What runs in a call that is idle may return, and holds the slot's lock alone. -/
theorem Call.of_idle (h : c.idle = some (callee, queue)) :
    c.holds = [callee.lock] ∧ c.transit = none ∧ 4 ≤ c.left := by
  unfold Call.idle at h
  split at h
  · obtain ⟨rfl, rfl⟩ := Prod.mk.inj (Option.some.inj h)
    exact ⟨rfl, rfl, Nat.le_refl 4⟩
  · obtain ⟨rfl, rfl⟩ := Prod.mk.inj (Option.some.inj h)
    exact ⟨rfl, rfl, Nat.le_refl 4⟩
  · cases h

theorem Plain.next_of_not_done (h : ∀ answer, p ≠ .done answer) :
    ∃ r' p', p.next r = some (r', p') := by
  cases p with
  | done answer => exact absurd rfl (h answer)
  | _ => exact ⟨_, _, rfl⟩

/-- An unfinished call has a next step, or what runs in it may return. -/
theorem Call.goes_on (h : c.finished = false) :
    (∃ r' c', c.next r = some (r', c')) ∨ ∃ callee queue, c.idle = some (callee, queue) := by
  cases c with
  | plain p =>
      refine .inl ?_
      obtain ⟨r', p', hp⟩ := Plain.next_of_not_done (p := p) (r := r) fun answer hp => by
        rw [hp] at h
        cases h
      exact ⟨r', .plain p', congrArg (Option.map _) hp⟩
  | ask encoderId a =>
      refine .inl ?_
      simp only [Call.next]
      split <;> exact ⟨_, _, rfl⟩
  | popped encoderId a x =>
      refine .inl ?_
      cases x with
      | some x => exact ⟨_, _, rfl⟩
      | none =>
          cases a with
          | useBuiltinFor =>
              simp only [Call.next]
              split <;> exact ⟨_, _, rfl⟩
          | encodeFor requestKeyFrame => exact ⟨_, _, rfl⟩
  | running callee nested queue =>
      cases nested with
      | none => exact .inr ⟨callee, queue, rfl⟩
      | some p =>
          by_cases hdone : ∃ answer, p = .done answer
          · obtain ⟨answer, rfl⟩ := hdone
            exact .inr ⟨callee, queue, rfl⟩
          · obtain ⟨r', p', hp⟩ := Plain.next_of_not_done (r := r) (not_exists.mp hdone)
            exact .inl ⟨r', .running callee (some p') queue, congrArg (Option.map _) hp⟩
  | returned answer => cases h
  | _ => exact .inl ⟨_, _, rfl⟩

/-- A finished call holds nothing and wants nothing. -/
theorem Call.holds_of_finished (h : c.finished = true) : c.holds = [] := by
  unfold Call.finished at h
  split at h
  · rfl
  · rfl
  · cases h

/-! ### What a step does -/

/-- To the registry, and to what is on its way. -/
inductive Effect (r : Shared) (c : Call) : Shared → Call → Prop
  | same {c' : Call} (hc' : c'.transit = none ∨ c'.transit = c.transit) : Effect r c r c'
  | reserve {c' : Call} {nativeId : Nat} {encoder : TrackEncoder}
      (hc : c.innermost = some (.add nativeId encoder)) (hc' : c'.transit = none) :
      Effect r c (r.reserve nativeId encoder) c'
  | retain {c' : Call} (nativeId : Nat) (hc' : c'.transit = none) :
      Effect r c (r.retain nativeId) c'
  | degrade {c' : Call} (nativeId : Nat) (hc' : c'.transit = none) :
      Effect r c (r.degrade nativeId) c'
  | pop {c' : Call} (hc' : c'.transit = r.registry.pending.head?) : Effect r c r.pop c'
  | bind {c' : Call} (encoderId : Nat) {x : RegistryReservation} (hc : c.transit = some x)
      (hc' : c'.transit = none) : Effect r c (r.bind encoderId x.assigned) c'
  | fallback {c' : Call} (encoderId : Nat) (hc' : c'.transit = none) :
      Effect r c (r.bind encoderId EncoderRegistry.fallback) c'

theorem Plain.next_effect (h : p.next r = some (r', p')) (hc : c.innermost = some p)
    (hc' : c'.transit = none) : Effect r c r' c' := by
  cases p with
  | add nativeId encoder =>
      obtain ⟨rfl, rfl⟩ := Prod.mk.inj (Option.some.inj h)
      exact .reserve hc hc'
  | retain nativeId =>
      obtain ⟨rfl, rfl⟩ := Prod.mk.inj (Option.some.inj h)
      exact .retain nativeId hc'
  | degrade nativeId =>
      obtain ⟨rfl, rfl⟩ := Prod.mk.inj (Option.some.inj h)
      exact .degrade nativeId hc'
  | done answer => cases h
  | _ =>
      obtain ⟨rfl, rfl⟩ := Prod.mk.inj (Option.some.inj h)
      exact .same (.inl hc')

theorem Goes.effect (h : Goes r c r' c') : Effect r c r' c' := by
  cases h with
  | plain h => exact Plain.next_effect h rfl rfl
  | nested h => exact Plain.next_effect h rfl rfl
  | found h => exact .same (.inl h.transit)
  | pop => exact .pop rfl
  | @bind encoderId _ _ _ h => exact .bind encoderId rfl h.transit
  | @fallback encoderId _ _ h => exact .fallback encoderId h.transit
  | leave h => exact .same (.inl h.transit)
  | rate h => exact .same (.inl h.transit)
  | unlock => exact .same (.inr rfl)
  | _ => exact .same (.inl rfl)

variable {s t : State} {a : Action} {i j : Nat} {P}

/-- After a step from the one place to the other. -/
def State.moved (s : State) (i : Nat) (c : Call) (r : Shared) (c' : Call) : State :=
  { s with toShared := r, locked := relock s.locked c.wants c.gives }.goto i c'

/-- A call goes from one place to another. -/
inductive Moves (s : State) : Action → State → Prop
  | begin {i : Nat} {op : Op} (hnew : s.calls i = none) :
      Moves s (.begin i op) (s.goto i op.start)
  | step {i : Nat} {c c' : Call} {r : Shared} (hcall : s.calls i = some c)
      (hfree : ∀ l, c.wants = some l → s.locked l = false)
      (hnext : c.next s.toShared = some (r, c')) : Moves s (.step i) (s.moved i c r c')
  | nest {i : Nat} {op : PlainOp} {c : Call} {callee : Callee} {queue : Option Nat}
      (hcall : s.calls i = some c) (hidle : c.idle = some (callee, queue)) :
      Moves s (.nest i op) (s.goto i (.running callee (some op.start) queue))
  | finish {i : Nat} {c : Call} {callee : Callee} {queue : Option Nat}
      (hcall : s.calls i = some c) (hidle : c.idle = some (callee, queue)) :
      Moves s (.finish i) (s.goto i (.unlock callee.lock (afterCall queue)))

theorem step_moves (hstep : step s a = some t) : Moves s a t := by
  cases a with
  | begin i op =>
      rw [step, Option.ite_none_right_eq_some, Option.isNone_iff_eq_none] at hstep
      obtain ⟨hnew, hstep⟩ := hstep
      obtain rfl := Option.some.inj hstep
      exact .begin hnew
  | step i =>
      obtain ⟨c, hcall, hstep⟩ := Option.bind_eq_some_iff.mp hstep
      obtain ⟨hfree, hstep⟩ := Option.ite_none_left_eq_some.mp hstep
      obtain ⟨⟨r, c'⟩, hnext, rfl⟩ := Option.map_eq_some_iff.mp hstep
      refine .step hcall (fun l hl => ?_) hnext
      rw [hl] at hfree
      exact Bool.eq_false_iff.mpr hfree
  | nest i op =>
      obtain ⟨⟨callee, queue⟩, hidle, rfl⟩ := Option.map_eq_some_iff.mp hstep
      obtain ⟨c, hcall, hidle⟩ := Option.bind_eq_some_iff.mp hidle
      exact .nest hcall hidle
  | finish i =>
      obtain ⟨⟨callee, queue⟩, hidle, rfl⟩ := Option.map_eq_some_iff.mp hstep
      obtain ⟨c, hcall, hidle⟩ := Option.bind_eq_some_iff.mp hidle
      exact .finish hcall hidle

theorem goto_self : (s.goto i c).calls i = some c := Function.update_self _ _ _

theorem goto_of_ne (h : j ≠ i) : (s.goto i c).calls j = s.calls j := Function.update_of_ne h _ _

/-- A predicate on slots that a slot does not come to meet by being degraded, nor one that
nobody reserved. -/
structure Lasting (P : AssignedSlot → Prop) : Prop where
  degrade : ∀ nativeId a, P (EncoderRegistry.degrade nativeId a) → P a
  fallback : ¬ P EncoderRegistry.fallback

theorem lasting_number (n : Nat) : Lasting fun a => a.number = some n where
  degrade nativeId a h := (EncoderRegistry.degrade_nativeId nativeId a).2.symm.trans h
  fallback h := by cases h

theorem degrade_custom {nativeId : Nat} {a : AssignedSlot}
    (h : (EncoderRegistry.degrade nativeId a).slot.isBuiltin = false) :
    EncoderRegistry.degrade nativeId a = a := by
  unfold EncoderRegistry.degrade at h ⊢
  split at h
  · cases h
  · rename_i hnot
    rw [if_neg hnot]

theorem lasting_custom (n : Nat) : Lasting (IsCustom n) where
  degrade nativeId a h := degrade_custom h.2 ▸ h
  fallback h := by cases h.2

theorem lasting_customOf (nativeId : Nat) : Lasting (IsCustomOf nativeId) where
  degrade nativeId' a h := degrade_custom h.2 ▸ h
  fallback h := by cases h.2

/-- Something is on the way that was before, or it is on the way with this call. -/
theorem inTransit_goto (h : InTransit P (s.goto i c)) :
    InTransit P s ∨ ∃ x, c.transit = some x ∧ P x.assigned := by
  obtain ⟨j, d, x, hj, hx, hP⟩ := h
  by_cases hji : j = i
  · rw [hji, goto_self] at hj
    obtain rfl := Option.some.inj hj
    exact .inr ⟨x, hx, hP⟩
  · rw [goto_of_ne hji] at hj
    exact .inl ⟨j, d, x, hj, hx, hP⟩

/-- Slots enter by the line, and go on from there. -/
structure Entries (P : AssignedSlot → Prop) (s : State) (a : Action) (t : State) : Prop where
  pending : InPending P t → InPending P s ∨ Reserves P s a ∧ t.reserved = s.reserved + 1
  transit : InTransit P t → InTransit P s ∨ InPending P s
  assigned : InAssigned P t → InAssigned P s ∨ InTransit P s
  reserved : s.reserved ≤ t.reserved

theorem Entries.of_goto (hc : c.transit = none) : Entries P s a (s.goto i c) where
  pending := .inl
  transit h := by
    rcases inTransit_goto h with hold | ⟨x, hx, -⟩
    · exact .inl hold
    · cases hc.symm.trans hx
  assigned := .inl
  reserved := Nat.le_refl _

theorem Effect.entries (hP : Lasting P) (hcall : s.calls i = some c)
    (h : Effect s.toShared c r c') : Entries P s (.step i) (s.moved i c r c') := by
  -- the calls of the others are where they were
  have htransit : c'.transit = none ∨ c'.transit = c.transit ∨
      c'.transit = s.registry.pending.head? → InTransit P (s.moved i c r c') →
      InTransit P s ∨ InPending P s := by
    intro hc' hin
    rcases inTransit_goto hin with hold | ⟨x, hx, hPx⟩
    · exact .inl hold
    · rcases hc' with hnone | hsame | hhead
      · cases hnone.symm.trans hx
      · exact .inl ⟨i, c, x, hcall, hsame.symm.trans hx, hPx⟩
      · exact .inr ⟨x, List.mem_of_mem_head? (hhead.symm.trans hx), hPx⟩
  cases h with
  | same hc' => exact ⟨.inl, htransit (hc'.imp_right .inl), .inl, Nat.le_refl _⟩
  | @reserve c' nativeId encoder hc hc' =>
      refine ⟨fun ⟨x, hx, hPx⟩ => ?_, htransit (.inl hc'), .inl, Nat.le_succ _⟩
      rcases List.mem_append.mp hx with hold | hnew
      · exact .inl ⟨x, hold, hPx⟩
      · obtain rfl := List.mem_singleton.mp hnew
        refine .inr ⟨⟨nativeId, encoder, ?_, hPx⟩, rfl⟩
        rw [State.innermost, hcall]
        exact hc
  | retain nativeId hc' =>
      exact ⟨fun ⟨x, hx, hPx⟩ => .inl ⟨x, List.mem_of_mem_filter hx, hPx⟩, htransit (.inl hc'),
        .inl, Nat.le_refl _⟩
  | degrade nativeId hc' =>
      refine ⟨.inl, htransit (.inl hc'), fun ⟨q, hq, hPq⟩ => ?_, Nat.le_refl _⟩
      obtain ⟨⟨id, x⟩, hx, rfl⟩ := List.mem_map.mp hq
      exact .inl ⟨(id, x), hx, hP.degrade nativeId x hPq⟩
  | pop hc' =>
      exact ⟨fun ⟨x, hx, hPx⟩ => .inl ⟨x, List.mem_of_mem_tail hx, hPx⟩,
        htransit (.inr (.inr hc')), .inl, Nat.le_refl _⟩
  | bind encoderId hc hc' =>
      refine ⟨.inl, htransit (.inl hc'), fun ⟨q, hq, hPq⟩ => ?_, Nat.le_refl _⟩
      rcases List.mem_append.mp hq with hold | hnew
      · exact .inl ⟨q, hold, hPq⟩
      · obtain rfl := List.mem_singleton.mp hnew
        exact .inr ⟨i, c, _, hcall, hc, hPq⟩
  | fallback encoderId hc' =>
      refine ⟨.inl, htransit (.inl hc'), fun ⟨q, hq, hPq⟩ => ?_, Nat.le_refl _⟩
      rcases List.mem_append.mp hq with hold | hnew
      · exact .inl ⟨q, hold, hPq⟩
      · obtain rfl := List.mem_singleton.mp hnew
        exact absurd hPq hP.fallback

theorem Op.start_transit (op : Op) : op.start.transit = none := by
  cases op <;> rfl

theorem Moves.entries (hP : Lasting P) (hmoves : Moves s a t) : Entries P s a t := by
  cases hmoves with
  | begin hnew => exact .of_goto (Op.start_transit _)
  | step hcall hfree hnext => exact (Call.next_goes hnext).effect.entries hP hcall
  | nest hcall hidle => exact .of_goto rfl
  | finish hcall hidle => exact .of_goto (afterCall_quiet _).transit

/-! ### What holds at any time -/

/-- The locks that a thread holds. -/
def owned : Option Call → List RegistryLock
  | some c => c.holds
  | none => []

/-- The locks are those the calls hold, the calls are finitely many, and the numbers of the
slots have been given. -/
structure Inv (s : State) : Prop where
  locks : Lock.Each (owned ∘ s.calls) s.locked
  few : ∃ m, ∀ i, m ≤ i → s.calls i = none
  numbered : ∀ n, Exists (fun a => a.number = some n) s → n < s.reserved

theorem each_goto {locked : RegistryLock → Bool}
    (h : Lock.Each (Function.update (owned ∘ s.calls) i c.holds) locked) :
    Lock.Each (owned ∘ (s.goto i c).calls) locked := by
  show Lock.Each (owned ∘ Function.update s.calls i (some c)) locked
  rwa [Function.comp_update]

/-- What a call holds changes with the locks. -/
theorem each_moved (h : Lock.Each (owned ∘ s.calls) s.locked) (hcall : s.calls i = some c)
    (hfree : ∀ l, c.wants = some l → s.locked l = false)
    (hpasses : Passes c.wants c.gives c.holds c'.holds) :
    Lock.Each (owned ∘ (s.moved i c r c').calls) (s.moved i c r c').locked := by
  have hheld : (owned ∘ s.calls) i = c.holds := by
    rw [Function.comp_apply, hcall]
    rfl
  refine each_goto ?_
  show Lock.Each (Function.update (owned ∘ s.calls) i c'.holds) (relock s.locked c.wants c.gives)
  cases hwants : c.wants with
  | some l =>
      rw [hwants] at hpasses
      rw [show c'.holds = l :: (owned ∘ s.calls) i from hpasses.trans (by rw [hheld])]
      exact h.take (hfree l hwants)
  | none =>
      cases hgives : c.gives with
      | some l =>
          rw [hwants, hgives] at hpasses
          exact h.release (hheld.trans hpasses)
      | none =>
          rw [hwants, hgives] at hpasses
          exact h.same (hpasses.trans hheld.symm)

theorem Op.start_holds (op : Op) : op.start.holds = [] := by
  cases op with
  | plain op => cases op <;> rfl
  | _ => rfl

theorem PlainOp.start_holds (op : PlainOp) : op.start.holds = [] := by
  cases op <;> rfl

theorem few_goto (h : ∃ m, ∀ i, m ≤ i → s.calls i = none) (i : Nat) (c : Call) :
    ∃ m, ∀ j, m ≤ j → (s.goto i c).calls j = none := by
  obtain ⟨m, hm⟩ := h
  refine ⟨max m (i + 1), fun j hj => ?_⟩
  rw [goto_of_ne (by omega)]
  exact hm j (by omega)

theorem Moves.inv (hmoves : Moves s a t) (hs : Inv s) : Inv t := by
  have hnumbered : ∀ n, Exists (fun a => a.number = some n) t → n < t.reserved := by
    intro n hexists
    have hentries := hmoves.entries (lasting_number n)
    have hold : Exists (fun a => a.number = some n) s → n < t.reserved := fun h =>
      Nat.lt_of_lt_of_le (hs.numbered n h) hentries.reserved
    rcases hexists with hpending | htransit | hassigned
    · rcases hentries.pending hpending with hpending | ⟨hreserves, hmore⟩
      · exact hold (.inl hpending)
      · cases a with
        | step i =>
            obtain ⟨nativeId, encoder, -, hn⟩ := hreserves
            rw [hmore, Option.some.inj hn]
            exact Nat.lt_succ_self n
        | _ => cases hreserves
    · rcases hentries.transit htransit with htransit | hpending
      · exact hold (.inr (.inl htransit))
      · exact hold (.inl hpending)
    · rcases hentries.assigned hassigned with hassigned | htransit
      · exact hold (.inr (.inr hassigned))
      · exact hold (.inr (.inl htransit))
  refine ⟨?_, ?_, hnumbered⟩
  · cases hmoves with
    | @begin i op hnew =>
        refine each_goto (hs.locks.same ?_)
        rw [Op.start_holds, Function.comp_apply, hnew]
        rfl
    | step hcall hfree hnext => exact each_moved hs.locks hcall hfree (Call.next_goes hnext).passes
    | @nest i op c callee queue hcall hidle =>
        refine each_goto (hs.locks.same ?_)
        rw [Function.comp_apply, hcall]
        show op.start.holds ++ [callee.lock] = c.holds
        rw [PlainOp.start_holds, (Call.of_idle hidle).1]
        rfl
    | @finish i c callee queue hcall hidle =>
        refine each_goto (hs.locks.same ?_)
        rw [Function.comp_apply, hcall]
        show callee.lock :: (afterCall queue).holds = c.holds
        rw [(afterCall_quiet queue).holds, (Call.of_idle hidle).1]
  · cases hmoves with
    | begin hnew => exact few_goto hs.few _ _
    | step hcall hfree hnext => exact few_goto (s := { s with .. }) hs.few _ _
    | nest hcall hidle => exact few_goto hs.few _ _
    | finish hcall hidle => exact few_goto hs.few _ _

theorem inv_start : Inv machine.start where
  locks := by
    refine ⟨fun l => ?_, fun i => List.nodup_nil, fun i j _ l hl => by cases hl⟩
    exact iff_of_false (fun h => by cases h) fun ⟨i, hi⟩ => by cases hi
  few := ⟨0, fun i _ => rfl⟩
  numbered n h := by
    rcases h with ⟨x, hx, -⟩ | ⟨i, c, x, hc, -⟩ | ⟨q, hq, -⟩
    · cases hx
    · cases hc
    · cases hq

/-! ### Every call can be brought to its end

Some call can always take a step, and each step leaves less to do; that the other calls
begin nothing new meanwhile is part of what is asked.
-/

/-- How many steps the first calls have left, at most. -/
def State.left (s : State) (m : Nat) : Nat :=
  ∑ i ∈ Finset.range m, (s.calls i).elim 0 Call.left

theorem left_goto {m : Nat} (hcall : s.calls i = some c) (hi : i < m) (hless : c'.left < c.left) :
    (s.goto i c').left m < s.left m := by
  refine Finset.sum_lt_sum (fun j _ => ?_) ⟨i, Finset.mem_range.mpr hi, ?_⟩
  · by_cases hj : j = i
    · rw [hj, goto_self, hcall]
      exact Nat.le_of_lt hless
    · rw [goto_of_ne hj]
  · rw [goto_self, hcall]
    exact hless

/-- The call that is stepped on is still there, and so are the others. -/
theorem goto_ne_none (h : s.calls j ≠ none) : (s.goto i c).calls j ≠ none := by
  by_cases hj : j = i
  · rw [hj, goto_self]
    exact Option.some_ne_none c
  · rwa [goto_of_ne hj]

/-- Some call can proceed wherever one is unfinished. -/
theorem Inv.exists_proceeds (hs : Inv s) (hcall : s.calls i = some c) (hc : c.finished = false) :
    ∃ a j d d', a.proceeds = true ∧ s.calls j = some d ∧ d'.left < d.left ∧
      ∃ u : State, step s a = some (u.goto j d') ∧ u.calls = s.calls := by
  have hup : ∀ j l, (s.calls j).bind Call.wants = some l →
      ∀ k ∈ (owned ∘ s.calls) j, k.rank < l.rank := by
    intro j l hl
    obtain ⟨d, hd, hwants⟩ := Option.bind_eq_some_iff.mp hl
    rw [Function.comp_apply, hd]
    exact Call.rank_lt_of_wants hwants
  obtain ⟨j, hj, hfree⟩ := hs.locks.exists_ready RegistryLock.rank_le hup i
  -- whoever is ready is unfinished
  obtain ⟨d, hd, hunfinished⟩ : ∃ d, s.calls j = some d ∧ d.finished = false := by
    rcases hj with rfl | hj
    · exact ⟨c, hcall, hc⟩
    · cases hd : s.calls j with
      | none =>
          rw [Function.comp_apply, hd] at hj
          exact absurd rfl hj
      | some d =>
          rw [Function.comp_apply, hd] at hj
          refine ⟨d, rfl, Bool.eq_false_iff.mpr fun hfinished => hj ?_⟩
          exact Call.holds_of_finished hfinished
  rcases Call.goes_on (r := s.toShared) hunfinished with ⟨r, d', hnext⟩ | ⟨callee, queue, hidle⟩
  · refine ⟨.step j, j, d, d', rfl, hd, (Call.next_goes hnext).left,
      { s with toShared := r, locked := relock s.locked d.wants d.gives }, ?_, rfl⟩
    have hready : ¬ d.wants.any s.locked = true := by
      cases hwants : d.wants with
      | none => exact Bool.false_ne_true
      | some l =>
          have hl := hfree l (by rw [hd]; exact hwants)
          exact ne_true_of_eq_false hl
    show (s.calls j).bind _ = _
    rw [hd, Option.bind_some, if_neg hready, hnext]
    rfl
  · refine ⟨.finish j, j, d, .unlock callee.lock (afterCall queue), rfl, hd, ?_, s, ?_, rfl⟩
    · have hleft := (Call.of_idle hidle).2.2
      have hafter := afterCall_left queue
      show (afterCall queue).left + 1 < d.left
      omega
    · show ((s.calls j).bind Call.idle).map _ = _
      rw [hd, Option.bind_some, hidle]
      rfl

theorem Inv.completes (hs : Inv s) : Completes s := by
  obtain ⟨m, hm⟩ := hs.few
  obtain ⟨as, t, has, hrun, ⟨-, hkeep, -⟩, hdone⟩ := Machine.exists_run_done (M := machine)
    (fun a => a.proceeds = true)
    (fun u => Inv u ∧ (∀ i, s.calls i ≠ none → u.calls i ≠ none) ∧ ∀ i, m ≤ i → u.calls i = none)
    (fun u => ∀ i c, u.calls i = some c → c.finished = true) (fun u => u.left m)
    (fun u hu hnot => by
      obtain ⟨hinv, hkeep, hfew⟩ := hu
      push Not at hnot
      obtain ⟨i, c, hcall, hc⟩ := hnot
      obtain ⟨a, j, d, d', ha, hd, hless, v, hstep, hv⟩ :=
        hinv.exists_proceeds hcall (Bool.eq_false_iff.mpr hc)
      have hj : j < m := by
        refine Nat.lt_of_not_le fun hle => ?_
        cases hd.symm.trans (hfew j hle)
      refine ⟨a, v.goto j d', ha, hstep, ⟨(step_moves hstep).inv hinv, fun k hk => ?_,
        fun k hk => ?_⟩, ?_⟩
      · exact goto_ne_none (hv ▸ hkeep k hk)
      · rw [goto_of_ne (by omega), hv]
        exact hfew k hk
      · have hleft := left_goto (s := v) (hv ▸ hd) hj hless
        rwa [State.left, State.left, hv] at hleft)
    ⟨hs, fun _ h => h, hm⟩
  refine ⟨as, t, has, hrun, fun i hi => ?_⟩
  obtain ⟨c, hc⟩ := Option.ne_none_iff_exists'.mp (hkeep i hi)
  exact ⟨c, hc, hdone i c hc⟩

/-! ### What a call finds

A call looks at the line and at the bound slots one after the other, and the slot it looks
for may be on its way from the one to the other.  It is then in the hands of a call that
holds the second lock, so whoever gets that lock finds it.
-/

/-- A call that a step leaves at some place was there before, came there with the step, or has
just begun. -/
theorem Moves.innermost (hmoves : Moves s a t) (hp : t.innermost i = some p') :
    s.innermost i = some p' ∨
      (∃ p, s.innermost i = some p ∧ p.next s.toShared = some (t.toShared, p') ∧
        ∀ l, p.wants = some l → s.locked l = false) ∨
      ∃ op : PlainOp, p' = op.start := by
  have hothers : ∀ {u : State} {k : Nat} {d : Call}, u.calls = s.calls → i ≠ k →
      (u.goto k d).innermost i = some p' → s.innermost i = some p' := by
    intro u k d hu hne h
    rw [State.innermost, goto_of_ne hne, hu] at h
    exact h
  cases hmoves with
  | @begin k op hnew =>
      by_cases hk : i = k
      · rw [hk, State.innermost, goto_self] at hp
        cases op with
        | plain op => exact .inr (.inr ⟨op, (Option.some.inj hp).symm⟩)
        | _ => cases hp
      · exact .inl (hothers rfl hk hp)
  | @step k c c' r hcall hfree hnext =>
      by_cases hk : i = k
      · rw [hk]
        rw [hk, State.moved, State.innermost, goto_self] at hp
        rw [State.innermost, hcall]
        rcases (Call.next_goes hnext).innermost hp with hsame | ⟨q, hq, hp', hwants⟩
        · exact .inl hsame
        · exact .inr (.inl ⟨q, hq, hp', hwants ▸ hfree⟩)
      · exact .inl (hothers rfl hk hp)
  | @nest k op c callee queue hcall hidle =>
      by_cases hk : i = k
      · rw [hk, State.innermost, goto_self] at hp
        exact .inr (.inr ⟨op, (Option.some.inj hp).symm⟩)
      · exact .inl (hothers rfl hk hp)
  | @finish k c callee queue hcall hidle =>
      by_cases hk : i = k
      · rw [hk, State.innermost, goto_self] at hp
        cases (afterCall_quiet queue).innermost.symm.trans hp
      · exact .inl (hothers rfl hk hp)

theorem Call.holds_of_transit {x : RegistryReservation} (h : c.transit = some x) :
    RegistryLock.assigned ∈ c.holds := by
  induction c with
  | popped encoderId a y => exact List.mem_cons_of_mem _ List.mem_cons_self
  | unlock l next ih => exact List.mem_cons_of_mem l (ih h)
  | _ => cases h

/-- Nothing is on the way while the bound slots are not locked. -/
theorem Inv.not_inTransit (hs : Inv s) (hfree : s.locked .assigned = false) : ¬ InTransit P s := by
  rintro ⟨i, c, x, hcall, hx, -⟩
  have hheld : RegistryLock.assigned ∈ (owned ∘ s.calls) i := by
    rw [Function.comp_apply, hcall]
    exact Call.holds_of_transit hx
  rw [(hs.locks.locked _).mpr ⟨i, hheld⟩] at hfree
  cases hfree

/-- The slot is not in line, nor will it be. -/
def Gone (n : Nat) (s : State) : Prop := ¬ InPending (IsCustom n) s ∧ n < s.reserved

theorem Moves.gone {n : Nat} (hmoves : Moves s a t) (h : Gone n s) : Gone n t := by
  have hentries := hmoves.entries (lasting_custom n)
  refine ⟨fun hpending => ?_, Nat.lt_of_lt_of_le h.2 hentries.reserved⟩
  rcases hentries.pending hpending with hold | ⟨hreserves, -⟩
  · exact h.1 hold
  · cases a with
    | step i =>
        obtain ⟨nativeId, encoder, -, hn, -⟩ := hreserves
        have hlt := h.2
        rw [Option.some.inj hn] at hlt
        exact Nat.lt_irrefl _ hlt
    | _ => cases hreserves

/-- What a `has_custom` has found so far of a slot that exists. -/
def Plain.sees (gone : Prop) : Plain → Prop
  | .hasAssigned => gone
  | .done (some answer) => answer = true
  | .unlock _ next => next.sees gone
  | _ => True

theorem Plain.sees_mono {gone gone' : Prop} (himp : gone → gone') (h : p.sees gone) :
    p.sees gone' := by
  induction p with
  | hasAssigned => exact himp h
  | done answer =>
      cases answer with
      | none => trivial
      | some answer => exact h
  | unlock l next ih => exact ih h
  | _ => trivial

theorem PlainOp.start_sees (op : PlainOp) (gone : Prop) : op.start.sees gone := by
  cases op <;> trivial

theorem Exists.number {n : Nat} (h : Exists (IsCustom n) s) :
    Exists (fun a => a.number = some n) s :=
  h.imp (fun ⟨x, hx, hP⟩ => ⟨x, hx, hP.1⟩) <|
    Or.imp (fun ⟨i, c, x, hc, hx, hP⟩ => ⟨i, c, x, hc, hx, hP.1⟩) fun ⟨q, hq, hP⟩ => ⟨q, hq, hP.1⟩

/-- A `has_custom` passes on what it has found. -/
theorem next_sees {n : Nat} {r : Shared} (hs : Inv s) (hexists : Exists (IsCustom n) s)
    (hp : p.ofHasCustom = true) (hnext : p.next s.toShared = some (r, p'))
    (hfree : ∀ l, p.wants = some l → s.locked l = false) (h : p.sees (Gone n s)) :
    p'.sees (Gone n s) := by
  cases p with
  | hasPending =>
      obtain ⟨rfl, rfl⟩ := Prod.mk.inj (Option.some.inj hnext)
      show Plain.sees _ (if _ then _ else _)
      split
      · exact rfl
      · rename_i hnone
        refine ⟨fun ⟨x, hx, hP⟩ => hnone ?_, hs.numbered n hexists.number⟩
        exact List.any_eq_true.mpr ⟨x, hx, by rw [← Bool.not_false]; exact congrArg _ hP.2⟩
  | hasAssigned =>
      obtain ⟨rfl, rfl⟩ := Prod.mk.inj (Option.some.inj hnext)
      rcases hexists with hpending | htransit | ⟨q, hq, hP⟩
      · exact absurd hpending h.1
      · exact absurd htransit (hs.not_inTransit (hfree _ rfl))
      · exact List.any_eq_true.mpr ⟨q, hq, by rw [← Bool.not_false]; exact congrArg _ hP.2⟩
  | unlock l next =>
      obtain ⟨rfl, rfl⟩ := Prod.mk.inj (Option.some.inj hnext)
      exact h
  | done answer => cases hnext
  | _ => cases hp

theorem Inv.seesCustom (hs : Inv s) : SeesCustom s := by
  intro i n as t answer hstart hrun halong hend
  have hsees := Machine.run_invariant_along (M := machine)
    (I := fun u => Inv u ∧ ∀ p, u.innermost i = some p → p.sees (Gone n u))
    (fun u a v hu _ hI hstep => by
      obtain ⟨hinv, hknown⟩ := hI
      have hmoves := step_moves hstep
      refine ⟨hmoves.inv hinv, fun p' hp' => ?_⟩
      rcases hmoves.innermost hp' with hsame | ⟨p, hp, hnext, hfree⟩ | ⟨op, rfl⟩
      · exact Plain.sees_mono hmoves.gone (hknown p' hsame)
      · have hcustom : p.ofHasCustom = true := by
          have := hu.1
          rwa [hp] at this
        exact Plain.sees_mono hmoves.gone
          (next_sees hinv hu.2 hcustom hnext hfree (hknown p hp))
      · exact op.start_sees _)
    halong ⟨hs, fun p hp => by
      obtain rfl := Option.some.inj (hstart.symm.trans hp)
      trivial⟩ hrun
  exact hsees.2 _ hend

/-- What a `retract` has seen to so far. -/
def Plain.clears (notInLine nowhere : Prop) : Plain → Prop
  | .anyPending _ | .anyAssigned _ | .degrade _ => notInLine
  | .done none => nowhere
  | .unlock _ next => next.clears notInLine nowhere
  | _ => True

theorem Plain.clears_mono {inLine inLine' nowhere nowhere' : Prop} (himp : inLine → inLine')
    (himp' : nowhere → nowhere') (h : p.clears inLine nowhere) : p.clears inLine' nowhere' := by
  induction p with
  | anyPending => exact himp h
  | anyAssigned => exact himp h
  | degrade => exact himp h
  | done answer =>
      cases answer with
      | none => exact himp' h
      | some answer => trivial
  | unlock l next ih => exact ih h
  | _ => trivial

theorem PlainOp.start_clears (op : PlainOp) (notInLine nowhere : Prop) :
    op.start.clears notInLine nowhere := by
  cases op <;> trivial

variable {nativeId : Nat}

theorem Moves.not_inPending (hmoves : Moves s a t) (hnot : ¬ Reserves (IsCustomOf nativeId) s a)
    (h : ¬ InPending (IsCustomOf nativeId) s) : ¬ InPending (IsCustomOf nativeId) t := by
  intro hpending
  rcases (hmoves.entries (lasting_customOf nativeId)).pending hpending with hold | ⟨hreserves, -⟩
  · exact h hold
  · exact hnot hreserves

/-- What is nowhere comes back only with a reservation. -/
theorem Moves.not_exists (hmoves : Moves s a t) (hnot : ¬ Reserves (IsCustomOf nativeId) s a)
    (h : ¬ Exists (IsCustomOf nativeId) s) : ¬ Exists (IsCustomOf nativeId) t := by
  have hentries := hmoves.entries (lasting_customOf nativeId)
  rintro (hpending | htransit | hassigned)
  · exact hmoves.not_inPending hnot (fun hold => h (.inl hold)) hpending
  · rcases hentries.transit htransit with hold | hold
    · exact h (.inr (.inl hold))
    · exact h (.inl hold)
  · rcases hentries.assigned hassigned with hold | hold
    · exact h (.inr (.inr hold))
    · exact h (.inr (.inl hold))

/-- A `retract` goes on with what it has seen to. -/
theorem next_clears (hs : Inv s) (hmoves : Moves s a t)
    (hnot : p ≠ .retain nativeId → ¬ Reserves (IsCustomOf nativeId) s a)
    (hp : p.ofRetract nativeId = true)
    (hnext : p.next s.toShared = some (t.toShared, p'))
    (hfree : ∀ l, p.wants = some l → s.locked l = false)
    (h : p.clears (¬ InPending (IsCustomOf nativeId) s) (¬ Exists (IsCustomOf nativeId) s)) :
    p'.clears (¬ InPending (IsCustomOf nativeId) t) (¬ Exists (IsCustomOf nativeId) t) := by
  have hkeep hne := hmoves.not_inPending (hnot hne)
  cases p with
  | retain id =>
      obtain rfl := beq_iff_eq.mp hp
      obtain ⟨hr, rfl⟩ := Prod.mk.inj (Option.some.inj hnext)
      rintro ⟨x, hx, hP⟩
      have hline : t.registry.pending = s.registry.pending.filter (·.nativeId ≠ id) := by
        rw [← hr]
        rfl
      rw [hline] at hx
      exact of_decide_eq_true (List.mem_filter.mp hx).2 hP.1
  | anyPending id =>
      obtain ⟨-, rfl⟩ := Prod.mk.inj (Option.some.inj hnext)
      show Plain.clears _ _ (if _ then _ else _)
      split
      · exact hkeep (fun h => by cases h) h
      · exact hkeep (fun h => by cases h) h
  | anyAssigned id =>
      obtain ⟨-, rfl⟩ := Prod.mk.inj (Option.some.inj hnext)
      exact hkeep (fun h => by cases h) h
  | degrade id =>
      obtain rfl := beq_iff_eq.mp hp
      obtain ⟨hr, rfl⟩ := Prod.mk.inj (Option.some.inj hnext)
      rintro (hpending | htransit | ⟨q, hq, hP⟩)
      · exact hkeep (fun h => by cases h) h hpending
      · rcases (hmoves.entries (lasting_customOf id)).transit htransit with hold | hold
        · exact hs.not_inTransit (hfree _ rfl) hold
        · exact h hold
      · have hbound : t.registry.assigned = s.registry.assigned.map fun (k, x) =>
            (k, EncoderRegistry.degrade id x) := by
          rw [← hr]
          rfl
        rw [hbound] at hq
        obtain ⟨⟨k, x⟩, -, rfl⟩ := List.mem_map.mp hq
        have hof := (EncoderRegistry.degrade_nativeId id x).1.symm.trans hP.1
        cases (EncoderRegistry.degrade_isBuiltin hof).symm.trans hP.2
  | unlock l next =>
      obtain ⟨-, rfl⟩ := Prod.mk.inj (Option.some.inj hnext)
      exact Plain.clears_mono (hkeep (fun h => by cases h))
        (hmoves.not_exists (hnot fun h => by cases h)) h
  | done answer => cases hnext
  | _ => cases hp

theorem Inv.retracts (hs : Inv s) : Retracts s := by
  intro i nativeId as t bs u hstart hrun halong hend hrun' hfirst hlater
  have hclears := Machine.run_guarded (M := machine)
    (I := fun v => Inv v ∧ ∀ p, v.innermost i = some p →
      p.clears (¬ InPending (IsCustomOf nativeId) v) (¬ Exists (IsCustomOf nativeId) v))
    (fun v a w hv hI hstep => by
      obtain ⟨hinv, hknown⟩ := hI
      have hmoves := step_moves hstep
      refine ⟨hmoves.inv hinv, fun p' hp' => ?_⟩
      rcases hmoves.innermost hp' with hsame | ⟨p, hp, hnext, hfree⟩ | ⟨op, rfl⟩
      · by_cases hretain : p' = .retain nativeId
        · rw [hretain]
          trivial
        · have hnot := hv.2 fun h => hretain (Option.some.inj (hsame.symm.trans h))
          exact Plain.clears_mono (hmoves.not_inPending hnot) (hmoves.not_exists hnot)
            (hknown p' hsame)
      · have hof : p.ofRetract nativeId = true := by
          have := hv.1
          rwa [hp] at this
        exact next_clears hinv hmoves
          (fun hne => hv.2 fun h => hne (Option.some.inj (hp.symm.trans h))) hof hnext hfree
          (hknown p hp)
      · exact op.start_clears _ _)
    (halong.and_guarded hfirst) ⟨hs, fun p hp => by
      obtain rfl := Option.some.inj (hstart.symm.trans hp)
      trivial⟩ hrun
  have hnone : ¬ Exists (IsCustomOf nativeId) t := hclears.2 _ hend
  exact Machine.run_guarded (M := machine)
    (fun v a w hv hI hstep => (step_moves hstep).not_exists hv hI) hlater hnone hrun'

/--
**The registry under concurrency.**  Wherever a run of calls has come, every call can be
brought to its end, a `has_custom` that begins there answers true if a custom slot exists
throughout it, and a `retract` that begins there leaves its track without a custom slot until
one is reserved again.
-/
theorem registryCalls_orderly {as : List Action} {s : State}
    (hrun : machine.run machine.start as = some s) :
    Completes s ∧ SeesCustom s ∧ Retracts s := by
  have hs : Inv s := Machine.invariant (M := machine) inv_start
    (fun _ _ _ h hstep => (step_moves hstep).inv h) ⟨as, hrun⟩
  exact ⟨hs.completes, hs.seesCustom, hs.retracts⟩

/-- An inline encoder is called with a frame, and asks in there whether there is anything
custom, while another call takes the line. -/
def nested : List Action :=
  [.begin 0 (.plain (.add 5 .inline)), .step 0, .step 0,
    .begin 1 (.ask 9 (.encodeFor false)), .step 1, .step 1, .step 1, .step 1, .step 1,
    .nest 1 .hasCustom, .begin 2 (.plain (.retract 5)), .step 2]

theorem registryCalls_orderly_nested :
    Completes (machine.final machine.start nested (by decide +kernel)) ∧
      SeesCustom (machine.final machine.start nested (by decide +kernel)) ∧
      Retracts (machine.final machine.start nested (by decide +kernel)) :=
  registryCalls_orderly (machine.run_final machine.start nested (by decide +kernel))

end RegistryCalls

end ReactorWebrtc
