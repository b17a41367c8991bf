/-
How held messages are handed to a handler.

Until `on_message` is set, whole messages are held.  It publishes its callback already
locked, takes what is held with the slot's lock, and calls the callback with each, so a
message that finds this callback in the slot waits for its lock.  A message that finds
another there does not: `on_message` can be called again meanwhile.

A chunked channel has decided.  `deliver` is called on one thread, number 0, and any thread
can call `on_message`, the one that runs a handler included; what a thread is in is a stack,
the innermost first.  A step is a section under the slot's lock, the taking of a callback's
lock, the start of a handler's run, or its end.

What a message is numbered with, and the last five fields of `Held`, are not the code's.

That nobody waits for good is said as well: a thread waits only in `deliver`, which holds no
lock by then (`quiet_of_stuck`).
-/
import Mathlib.Logic.Function.Basic
import ReactorWebrtc.Chunking.Frame
import ReactorWebrtc.Lib.Lock
import ReactorWebrtc.Lib.Machine

namespace ReactorWebrtc

/-- A whole message, and how many came before it. -/
structure HeldMessage where
  number : Nat
  data : Bytes
  binary : Bool
  deriving DecidableEq, Repr

/-- What a thread is in. -/
inductive Doing
  /-- `deliver`: at the slot's lock, at the callback's lock, at the call, and in it. -/
  | deciding (m : HeldMessage)
  | waiting (m : HeldMessage) (cb : Nat)
  | calling (m : HeldMessage) (cb : Nat)
  | running (cb : Nat)
  /-- `on_message`: at the slot's lock, with what is held still to be called with, and in a
  call. -/
  | publishing (cb : Nat)
  | flushing (cb : Nat) (held : List HeldMessage)
  | flushed
  deriving DecidableEq, Repr

/-- A message refused, and how many bytes were held by then. -/
structure Refusal where
  message : HeldMessage
  pendingBytes : Nat
  deriving DecidableEq, Repr

structure Held where
  /-- The callback in the slot, and which callbacks are locked. -/
  slot : Option Nat := none
  locked : Nat → Bool := fun _ => false
  pending : List HeldMessage := []
  pendingBytes : Nat := 0
  threads : Nat → List Doing := fun _ => []
  /-- How many callbacks there have been. -/
  callbacks : Nat := 0
  arrived : Nat := 0
  /-- The messages that were not refused, those that were, and each handler run. -/
  accepted : List HeldMessage := []
  refused : List Refusal := []
  runs : List (HeldMessage × Nat) := []

namespace Held

/-- Thread `i` is in these now. -/
def goto (s : Held) (i : Nat) (stack : List Doing) : Held :=
  { s with threads := Function.update s.threads i stack }

/-- Whether a thread that is in these runs the caller's code. -/
def free : List Doing → Bool
  | [] => true
  | .running _ :: _ | .flushed :: _ => true
  | _ => false

/-- The first section of `deliver`. -/
def decide (s : Held) (pendingLimit i : Nat) (m : HeldMessage) (below : List Doing) : Held :=
  match s.slot with
  | some cb => { s with accepted := s.accepted ++ [m] }.goto i (.waiting m cb :: below)
  | none =>
    if s.pendingBytes + m.data.length ≤ pendingLimit then
      { s with
        pendingBytes := s.pendingBytes + m.data.length
        pending := s.pending ++ [m]
        accepted := s.accepted ++ [m] }.goto i below
    else
      { s with refused := s.refused ++ [Refusal.mk m s.pendingBytes] }.goto i below

inductive Action
  /-- A whole message on the callback thread. -/
  | deliver (data : Bytes) (binary : Bool)
  /-- A call of `on_message`, whose callback is new and locked. -/
  | onMessage (i : Nat)
  | step (i : Nat)
  deriving DecidableEq, Repr

/-- Thread `i` goes on. -/
def advance (s : Held) (pendingLimit i : Nat) : Option Held :=
  match s.threads i with
  | [] => none
  | .deciding m :: below => some (s.decide pendingLimit i m below)
  | .waiting m cb :: below =>
    if s.locked cb then none
    else
      some ({ s with locked := Function.update s.locked cb true }.goto i (.calling m cb :: below))
  | .calling m cb :: below =>
    some ({ s with runs := s.runs ++ [(m, cb)] }.goto i (.running cb :: below))
  | .running cb :: below =>
    some ({ s with locked := Function.update s.locked cb false }.goto i below)
  | .publishing cb :: below =>
    some ({ s with slot := some cb, pendingBytes := 0, pending := [] }.goto i
      (.flushing cb s.pending :: below))
  | .flushing cb (m :: held) :: below =>
    some ({ s with runs := s.runs ++ [(m, cb)] }.goto i (.flushed :: .flushing cb held :: below))
  | .flushing cb [] :: below =>
    some ({ s with locked := Function.update s.locked cb false }.goto i below)
  | .flushed :: below => some (s.goto i below)

def machine (pendingLimit : Nat) : Machine Held Action where
  start := {}
  step s
    | .deliver data binary =>
      match s.threads 0 with
      | [] => some ({ s with arrived := s.arrived + 1 }.goto 0
          [.deciding { number := s.arrived, data, binary }])
      | _ :: _ => none
    | .onMessage i =>
      if free (s.threads i) then
        some ({ s with
          locked := Function.update s.locked s.callbacks true
          callbacks := s.callbacks + 1 }.goto i (.publishing s.callbacks :: s.threads i))
      else none
    | .step i => s.advance pendingLimit i

/-- Each message that is not refused is passed on once, in the order of arrival. -/
structure Ordered (pendingLimit : Nat) (s : Held) : Prop where
  arrival : s.accepted.Pairwise fun m n => m.number < n.number
  runs : s.runs.map Prod.fst <+: s.accepted
  pendingBytes : s.pendingBytes = (s.pending.map (·.data.length)).sum
  limit : s.pendingBytes ≤ pendingLimit
  refused : ∀ r ∈ s.refused, pendingLimit < r.pendingBytes + r.message.data.length
  /-- When no thread can go on, every call has returned, and each message that came was held,
  passed on or refused; with a callback set none is held. -/
  quiet : (∀ i, s.advance pendingLimit i = none) →
    (∀ i, s.threads i = []) ∧
      (∀ n < s.arrived, (∃ m ∈ s.accepted, m.number = n) ∨
        ∃ r ∈ s.refused, r.message.number = n) ∧
      (s.slot ≠ none → s.runs.map Prod.fst = s.accepted)

/-- Where a message is passed to a callback, no `on_message` call has messages left for
another. -/
def NoneLeft (s : Held) : Action → Prop
  | .step i => ∀ m cb below, s.threads i = .calling m cb :: below →
      ∀ j cb' held, .flushing cb' held ∈ s.threads j → cb' ≠ cb → held = []
  | .deliver .. | .onMessage _ => True

/-! ### What a step does -/

/-- Every way in which the machine moves. -/
inductive Moves (pendingLimit : Nat) (s : Held) : Action → Held → Prop
  | deliver (data : Bytes) (binary : Bool) (hidle : s.threads 0 = []) :
      Moves pendingLimit s (.deliver data binary) ({ s with arrived := s.arrived + 1 }.goto 0
        [.deciding { number := s.arrived, data, binary }])
  | onMessage (i : Nat) (hfree : free (s.threads i) = true) :
      Moves pendingLimit s (.onMessage i) ({ s with
        locked := Function.update s.locked s.callbacks true
        callbacks := s.callbacks + 1 }.goto i (.publishing s.callbacks :: s.threads i))
  | choose {i cb : Nat} {m : HeldMessage} {below : List Doing}
      (htop : s.threads i = .deciding m :: below) (hslot : s.slot = some cb) :
      Moves pendingLimit s (.step i)
        ({ s with accepted := s.accepted ++ [m] }.goto i (.waiting m cb :: below))
  | hold {i : Nat} {m : HeldMessage} {below : List Doing}
      (htop : s.threads i = .deciding m :: below) (hslot : s.slot = none)
      (hroom : s.pendingBytes + m.data.length ≤ pendingLimit) :
      Moves pendingLimit s (.step i) ({ s with
        pendingBytes := s.pendingBytes + m.data.length
        pending := s.pending ++ [m]
        accepted := s.accepted ++ [m] }.goto i below)
  | refuse {i : Nat} {m : HeldMessage} {below : List Doing}
      (htop : s.threads i = .deciding m :: below) (hslot : s.slot = none)
      (hfull : pendingLimit < s.pendingBytes + m.data.length) :
      Moves pendingLimit s (.step i)
        ({ s with refused := s.refused ++ [Refusal.mk m s.pendingBytes] }.goto i below)
  | lock {i cb : Nat} {m : HeldMessage} {below : List Doing}
      (htop : s.threads i = .waiting m cb :: below) (hfree : s.locked cb = false) :
      Moves pendingLimit s (.step i) ({ s with
        locked := Function.update s.locked cb true }.goto i (.calling m cb :: below))
  | call {i cb : Nat} {m : HeldMessage} {below : List Doing}
      (htop : s.threads i = .calling m cb :: below) :
      Moves pendingLimit s (.step i)
        ({ s with runs := s.runs ++ [(m, cb)] }.goto i (.running cb :: below))
  | publish {i cb : Nat} {below : List Doing} (htop : s.threads i = .publishing cb :: below) :
      Moves pendingLimit s (.step i) ({ s with
        slot := some cb, pendingBytes := 0, pending := [] }.goto i
          (.flushing cb s.pending :: below))
  | flush {i cb : Nat} {m : HeldMessage} {held : List HeldMessage} {below : List Doing}
      (htop : s.threads i = .flushing cb (m :: held) :: below) :
      Moves pendingLimit s (.step i) ({ s with
        runs := s.runs ++ [(m, cb)] }.goto i (.flushed :: .flushing cb held :: below))
  /-- A call of `deliver` or `on_message` is over, and its callback is unlocked. -/
  | unlock {i cb : Nat} {below : List Doing}
      (htop : s.threads i = .running cb :: below ∨ s.threads i = .flushing cb [] :: below) :
      Moves pendingLimit s (.step i)
        ({ s with locked := Function.update s.locked cb false }.goto i below)
  | flushed {i : Nat} {below : List Doing} (htop : s.threads i = .flushed :: below) :
      Moves pendingLimit s (.step i) (s.goto i below)

variable {pendingLimit : Nat} {s t : Held} {a : Action}

theorem advance_moves {i : Nat} (h : s.advance pendingLimit i = some t) :
    Moves pendingLimit s (.step i) t := by
  unfold advance at h
  split at h
  · cases h
  · rename_i m below htop
    obtain rfl := Option.some.inj h
    unfold decide
    split
    · rename_i cb hslot
      exact .choose htop hslot
    · rename_i hslot
      split
      · rename_i hroom
        exact .hold htop hslot hroom
      · rename_i hfull
        exact .refuse htop hslot (Nat.not_le.mp hfull)
  · rename_i m cb below htop
    split at h
    · cases h
    · rename_i hfree
      obtain rfl := Option.some.inj h
      exact .lock htop (Bool.eq_false_iff.mpr hfree)
  · rename_i m cb below htop
    obtain rfl := Option.some.inj h
    exact .call htop
  · rename_i cb below htop
    obtain rfl := Option.some.inj h
    exact .unlock (.inl htop)
  · rename_i cb below htop
    obtain rfl := Option.some.inj h
    exact .publish htop
  · rename_i cb m held below htop
    obtain rfl := Option.some.inj h
    exact .flush htop
  · rename_i cb below htop
    obtain rfl := Option.some.inj h
    exact .unlock (.inr htop)
  · rename_i below htop
    obtain rfl := Option.some.inj h
    exact .flushed htop

theorem step_moves (h : (machine pendingLimit).step s a = some t) : Moves pendingLimit s a t := by
  cases a with
  | deliver data binary =>
      change (match s.threads 0 with
        | [] => some _
        | _ :: _ => none) = some t at h
      split at h
      · rename_i hidle
        obtain rfl := Option.some.inj h
        exact .deliver data binary hidle
      · cases h
  | onMessage i =>
      change (if free (s.threads i) = true then some _ else none) = some t at h
      split at h
      · rename_i hfree
        obtain rfl := Option.some.inj h
        exact .onMessage i hfree
      · cases h
  | step i => exact advance_moves h

/-! ### What each thread is in

A thread that is not thread 0 runs handlers only because it has called `on_message`, and one
that runs a handler may call it again.  So the locks a thread holds are those of the calls
on its stack, the innermost first, and `Lock.Each` is what makes them each other's.
-/

/-- The callback whose lock goes with it. -/
def owned : Doing → Option Nat
  | .calling _ cb | .running cb | .publishing cb | .flushing cb _ => some cb
  | .deciding _ | .waiting .. | .flushed => none

/-- The message that `deliver` has a callback for. -/
def inHand : Doing → List HeldMessage
  | .waiting m _ | .calling m _ => [m]
  | _ => []

/-- The messages that an `on_message` call has left. -/
def left : Doing → List HeldMessage
  | .flushing _ held => held
  | _ => []

def isDeliver : Doing → Bool
  | .deciding _ | .waiting .. | .calling .. | .running _ => true
  | .publishing _ | .flushing .. | .flushed => false

/-- `deliver` is called on thread 0 and from nothing else, and calls nothing while it decides. -/
def Proper (i : Nat) : List Doing → Prop
  | [] => True
  | d :: below =>
    (isDeliver d = true → i = 0 ∧ below = []) ∧ (∀ m, .deciding m ∉ below) ∧ Proper i below

def owners (s : Held) (i : Nat) : List Nat := (s.threads i).filterMap owned

/-- Thread `i` moves on, the others are where they were. -/
theorem threads_goto (s : Held) (i : Nat) (stack : List Doing) (j : Nat) :
    (s.goto i stack).threads j = if j = i then stack else s.threads j :=
  Function.update_apply s.threads i stack j

theorem owners_goto (s : Held) (i : Nat) (stack : List Doing) :
    owners (s.goto i stack) = Function.update (owners s) i (stack.filterMap owned) :=
  Function.comp_update (List.filterMap owned) s.threads i stack

/-- The callbacks known, locked and waited for. -/
structure Callbacks (s : Held) : Prop where
  locks : Lock.Each (owners s) s.locked
  locked : ∀ cb, s.locked cb = true → cb < s.callbacks
  slot : ∀ cb, s.slot = some cb → cb < s.callbacks
  waiting : ∀ i m cb, .waiting m cb ∈ s.threads i → cb < s.callbacks

theorem waiting_goto {n i : Nat} {stack : List Doing}
    (h : ∀ j m cb, .waiting m cb ∈ s.threads j → cb < n)
    (hstack : ∀ m cb, .waiting m cb ∈ stack → cb < n) :
    ∀ j m cb, .waiting m cb ∈ (s.goto i stack).threads j → cb < n := by
  intro j m cb hmem
  rw [threads_goto] at hmem
  split at hmem
  · exact hstack m cb hmem
  · exact h j m cb hmem

/-- The thread lists the same locks, and waits for none that it did not wait for. -/
theorem Callbacks.same {i : Nat} {old stack : List Doing} (h : Callbacks s)
    (htop : s.threads i = old) (howned : stack.filterMap owned = old.filterMap owned)
    (hwaiting : ∀ m cb, .waiting m cb ∈ stack → cb < s.callbacks) : Callbacks (s.goto i stack) := by
  refine ⟨?_, h.locked, h.slot, waiting_goto h.waiting hwaiting⟩
  rw [owners_goto]
  refine h.locks.same ?_
  rw [howned, owners, htop]

theorem callbacks_step (h : Callbacks s) (hmoves : Moves pendingLimit s a t) : Callbacks t := by
  have hbelow : ∀ {i : Nat} {d : Doing} {below : List Doing}, s.threads i = d :: below →
      ∀ m cb, .waiting m cb ∈ below → cb < s.callbacks := by
    intro i d below htop m cb hmem
    exact h.waiting i m cb (htop ▸ List.mem_cons_of_mem d hmem)
  cases hmoves with
  | deliver data binary hidle =>
      have hs : Callbacks { s with arrived := s.arrived + 1 } :=
        ⟨h.locks, h.locked, h.slot, h.waiting⟩
      refine hs.same hidle rfl fun m cb hmem => ?_
      rcases List.mem_cons.mp hmem with hmem | hmem
      · cases hmem
      · cases hmem
  | onMessage i hfree =>
      have hnew : s.locked s.callbacks = false :=
        Bool.eq_false_iff.mpr fun hlocked => Nat.lt_irrefl _ (h.locked _ hlocked)
      refine ⟨?_, fun cb hcb => ?_, fun cb hcb => Nat.lt_succ_of_lt (h.slot cb hcb), ?_⟩
      · rw [owners_goto]
        exact h.locks.take hnew
      · by_cases heq : cb = s.callbacks
        · rw [heq]
          exact Nat.lt_succ_self _
        · refine Nat.lt_succ_of_lt (h.locked cb ?_)
          have hcb' : Function.update s.locked s.callbacks true cb = true := hcb
          rwa [Function.update_of_ne heq] at hcb'
      · refine waiting_goto (fun j m cb hmem => Nat.lt_succ_of_lt (h.waiting j m cb hmem))
          fun m cb hmem => ?_
        rcases List.mem_cons.mp hmem with hmem | hmem
        · cases hmem
        · exact Nat.lt_succ_of_lt (h.waiting i m cb hmem)
  | @choose i cb m below htop hslot =>
      have hs : Callbacks { s with accepted := s.accepted ++ [m] } :=
        ⟨h.locks, h.locked, h.slot, h.waiting⟩
      refine hs.same htop rfl fun m' cb' hmem => ?_
      rcases List.mem_cons.mp hmem with heq | hmem
      · obtain ⟨-, rfl⟩ := Doing.waiting.inj heq
        exact h.slot cb' hslot
      · exact hbelow htop m' cb' hmem
  | @hold i m below htop hslot hroom =>
      have hs : Callbacks { s with
          pendingBytes := s.pendingBytes + m.data.length
          pending := s.pending ++ [m]
          accepted := s.accepted ++ [m] } := ⟨h.locks, h.locked, h.slot, h.waiting⟩
      exact hs.same htop rfl (hbelow htop)
  | @refuse i m below htop hslot hfull =>
      have hs : Callbacks { s with refused := s.refused ++ [Refusal.mk m s.pendingBytes] } :=
        ⟨h.locks, h.locked, h.slot, h.waiting⟩
      exact hs.same htop rfl (hbelow htop)
  | @lock i cb m below htop hfree =>
      have hmine : owners s i = below.filterMap owned := by
        rw [owners, htop]
        rfl
      refine ⟨?_, fun cb' hcb => ?_, h.slot, waiting_goto h.waiting fun m' cb' hmem => ?_⟩
      · rw [owners_goto]
        have htake := h.locks.take (i := i) hfree
        rwa [hmine] at htake
      · by_cases heq : cb' = cb
        · rw [heq]
          exact h.waiting i m cb (htop ▸ List.mem_cons_self)
        · have hcb' : Function.update s.locked cb true cb' = true := hcb
          rw [Function.update_of_ne heq] at hcb'
          exact h.locked cb' hcb'
      · rcases List.mem_cons.mp hmem with hmem | hmem
        · cases hmem
        · exact hbelow htop m' cb' hmem
  | @call i cb m below htop =>
      have hs : Callbacks { s with runs := s.runs ++ [(m, cb)] } :=
        ⟨h.locks, h.locked, h.slot, h.waiting⟩
      refine hs.same htop rfl fun m' cb' hmem => ?_
      rcases List.mem_cons.mp hmem with hmem | hmem
      · cases hmem
      · exact hbelow htop m' cb' hmem
  | @publish i cb below htop =>
      have hmine : cb ∈ owners s i := by
        rw [owners, htop]
        exact List.mem_cons_self
      have hs : Callbacks { s with slot := some cb, pendingBytes := 0, pending := [] } := by
        refine ⟨h.locks, h.locked, fun cb' hcb => ?_, h.waiting⟩
        obtain rfl := Option.some.inj hcb
        exact h.locked cb ((h.locks.locked cb).mpr ⟨i, hmine⟩)
      refine hs.same htop rfl fun m' cb' hmem => ?_
      rcases List.mem_cons.mp hmem with hmem | hmem
      · cases hmem
      · exact hbelow htop m' cb' hmem
  | @flush i cb m held below htop =>
      have hs : Callbacks { s with runs := s.runs ++ [(m, cb)] } :=
        ⟨h.locks, h.locked, h.slot, h.waiting⟩
      refine hs.same htop rfl fun m' cb' hmem => ?_
      rcases List.mem_cons.mp hmem with hmem | hmem
      · cases hmem
      · rcases List.mem_cons.mp hmem with hmem | hmem
        · cases hmem
        · exact hbelow htop m' cb' hmem
  | @unlock i cb below htop =>
      have hmine : owners s i = cb :: below.filterMap owned := by
        rw [owners]
        rcases htop with htop | htop
        · rw [htop]
          rfl
        · rw [htop]
          rfl
      refine ⟨?_, fun cb' hcb => ?_, h.slot, waiting_goto h.waiting ?_⟩
      · rw [owners_goto]
        exact h.locks.release hmine
      · have hcb' : Function.update s.locked cb false cb' = true := hcb
        by_cases heq : cb' = cb
        · rw [heq, Function.update_self] at hcb'
          cases hcb'
        · rw [Function.update_of_ne heq] at hcb'
          exact h.locked cb' hcb'
      · rcases htop with htop | htop
        · exact hbelow htop
        · exact hbelow htop
  | @flushed i below htop =>
      exact h.same htop rfl (hbelow htop)

theorem proper_top {i : Nat} {d : Doing} {below : List Doing} (h : ∀ j, Proper j (s.threads j))
    (htop : s.threads i = d :: below) : Proper i (d :: below) := htop ▸ h i

theorem proper_goto {i : Nat} {stack : List Doing} (h : ∀ j, Proper j (s.threads j))
    (hstack : Proper i stack) : ∀ j, Proper j ((s.goto i stack).threads j) := by
  intro j
  rw [threads_goto]
  split
  · rename_i hj
    rwa [hj]
  · exact h j

theorem not_deciding_of_free {i : Nat} {stack : List Doing} (h : Proper i stack)
    (hfree : free stack = true) (m : HeldMessage) : .deciding m ∉ stack := by
  cases stack with
  | nil => exact List.not_mem_nil
  | cons d below =>
      intro hmem
      rcases List.mem_cons.mp hmem with rfl | hmem
      · cases hfree
      · exact h.2.1 m hmem

theorem proper_step (h : ∀ i, Proper i (s.threads i)) (hmoves : Moves pendingLimit s a t) :
    ∀ i, Proper i (t.threads i) := by
  cases hmoves with
  | deliver data binary hidle =>
      exact proper_goto h ⟨fun _ => ⟨rfl, rfl⟩, fun m => List.not_mem_nil, trivial⟩
  | onMessage i hfree =>
      exact proper_goto h ⟨(fun hd => by cases hd), not_deciding_of_free (h i) hfree, h i⟩
  | @choose i cb m below htop hslot =>
      have hi := proper_top h htop
      exact proper_goto h ⟨fun _ => hi.1 rfl, hi.2⟩
  | @hold i m below htop hslot hroom =>
      have hi := proper_top h htop
      exact proper_goto h hi.2.2
  | @refuse i m below htop hslot hfull =>
      have hi := proper_top h htop
      exact proper_goto h hi.2.2
  | @lock i cb m below htop hfree =>
      have hi := proper_top h htop
      exact proper_goto h ⟨fun _ => hi.1 rfl, hi.2⟩
  | @call i cb m below htop =>
      have hi := proper_top h htop
      exact proper_goto h ⟨fun _ => hi.1 rfl, hi.2⟩
  | @publish i cb below htop =>
      have hi := proper_top h htop
      exact proper_goto h ⟨(fun hd => by cases hd), hi.2⟩
  | @flush i cb m held below htop =>
      have hi := proper_top h htop
      refine proper_goto h
        ⟨(fun hd => by cases hd), fun m' hmem => ?_, (fun hd => by cases hd), hi.2⟩
      rcases List.mem_cons.mp hmem with hmem | hmem
      · cases hmem
      · exact hi.2.1 m' hmem
  | @unlock i cb below htop =>
      rcases htop with htop | htop
      · exact proper_goto h (proper_top h htop).2.2
      · exact proper_goto h (proper_top h htop).2.2
  | @flushed i below htop =>
      have hi := proper_top h htop
      exact proper_goto h hi.2.2

/-! ### What is accounted for

A message is in one place at any time: accepted and refused for want of room, held, taken
along by a call of `on_message`, in the hands of `deliver`, or with a handler.
-/

/-- The messages that came, and the bytes of those held. -/
structure Counted (pendingLimit : Nat) (s : Held) : Prop where
  pendingBytes : s.pendingBytes = (s.pending.map (·.data.length)).sum
  limit : s.pendingBytes ≤ pendingLimit
  refused : ∀ r ∈ s.refused, pendingLimit < r.pendingBytes + r.message.data.length
  arrival : s.accepted.Pairwise fun m n => m.number < n.number
  arrived : ∀ m ∈ s.accepted, m.number < s.arrived
  deciding : ∀ m, s.threads 0 = [.deciding m] →
    m.number + 1 = s.arrived ∧ ∀ m' ∈ s.accepted, m'.number < m.number
  all : ∀ n < s.arrived, (∃ m ∈ s.accepted, m.number = n) ∨
    (∃ r ∈ s.refused, r.message.number = n) ∨ ∃ m, s.threads 0 = [.deciding m] ∧ m.number = n

/-- A thread that is not deciding goes on to something else. -/
theorem Counted.same {i : Nat} {stack : List Doing} (h : Counted pendingLimit s)
    (hold : ∀ m, s.threads i ≠ [.deciding m]) (hnew : ∀ m, stack ≠ [.deciding m]) :
    Counted pendingLimit (s.goto i stack) := by
  have hsame : ∀ m, (s.goto i stack).threads 0 = [.deciding m] ↔ s.threads 0 = [.deciding m] := by
    intro m
    rw [threads_goto]
    by_cases hi : 0 = i
    · rw [if_pos hi, hi]
      exact iff_of_false (hnew m) (hold m)
    · rw [if_neg hi]
  refine ⟨h.pendingBytes, h.limit, h.refused, h.arrival, h.arrived, fun m hm => ?_, fun n hn => ?_⟩
  · exact h.deciding m ((hsame m).mp hm)
  · refine (h.all n hn).imp_right (Or.imp_right ?_)
    rintro ⟨m, hm, hnumber⟩
    exact ⟨m, (hsame m).mpr hm, hnumber⟩

/-- One more message is accepted by the thread that decides. -/
theorem arrival_append {m : HeldMessage} (h : Counted pendingLimit s)
    (hm : s.threads 0 = [.deciding m]) :
    ((s.accepted ++ [m]).Pairwise fun m n => m.number < n.number) ∧
      ∀ m' ∈ s.accepted ++ [m], m'.number < s.arrived := by
  obtain ⟨hnumber, hlast⟩ := h.deciding m hm
  constructor
  · rw [List.pairwise_append]
    refine ⟨h.arrival, List.pairwise_singleton _ _, fun x hx y hy => ?_⟩
    rw [List.mem_singleton.mp hy]
    exact hlast x hx
  · intro x hx
    rcases List.mem_append.mp hx with hx | hx
    · exact h.arrived x hx
    · rw [List.mem_singleton.mp hx, ← hnumber]
      exact Nat.lt_succ_self _

/-- Every message is accounted for once this one has been decided on. -/
theorem all_decided {m : HeldMessage} (h : Counted pendingLimit s)
    (hm : s.threads 0 = [.deciding m]) {accepted : List HeldMessage} {refused : List Refusal}
    (haccepted : s.accepted ⊆ accepted) (hrefused : s.refused ⊆ refused)
    (hnew : m ∈ accepted ∨ ∃ r ∈ refused, r.message = m) :
    ∀ n < s.arrived, (∃ m ∈ accepted, m.number = n) ∨ ∃ r ∈ refused, r.message.number = n := by
  intro n hn
  rcases h.all n hn with ⟨m', hm', hnumber⟩ | ⟨r, hr, hnumber⟩ | ⟨m', hm', hnumber⟩
  · exact .inl ⟨m', haccepted hm', hnumber⟩
  · exact .inr ⟨r, hrefused hr, hnumber⟩
  · have heq : m' = m := Doing.deciding.inj (List.cons.inj (hm'.symm.trans hm)).1
    subst heq
    rcases hnew with hnew | ⟨r, hr, hmessage⟩
    · exact .inl ⟨m', hnew, hnumber⟩
    · exact .inr ⟨r, hr, by rw [hmessage, hnumber]⟩

theorem counted_step (hproper : ∀ i, Proper i (s.threads i)) (h : Counted pendingLimit s)
    (hmoves : Moves pendingLimit s a t) : Counted pendingLimit t := by
  -- who decides is thread 0, and in nothing else
  have hdecider : ∀ {i : Nat} {m : HeldMessage} {below : List Doing},
      s.threads i = .deciding m :: below → i = 0 ∧ below = [] := by
    intro i m below htop
    have hi := proper_top hproper htop
    exact hi.1 rfl
  have hbelow : ∀ {i : Nat} {d : Doing} {below : List Doing}, s.threads i = d :: below →
      ∀ m, below ≠ [.deciding m] := by
    intro i d below htop m hlist
    have hi := proper_top hproper htop
    rw [hlist] at hi
    exact hi.2.1 m List.mem_cons_self
  have hnot : ∀ {i : Nat} {d : Doing} {below : List Doing}, s.threads i = d :: below →
      (∀ m, d ≠ .deciding m) → ∀ m, s.threads i ≠ [.deciding m] := by
    intro i d below htop hd m hlist
    exact hd m (List.cons.inj (htop.symm.trans hlist)).1
  cases hmoves with
  | deliver data binary hidle =>
      have hnew : ∀ m, ({ s with arrived := s.arrived + 1 }.goto 0
          [.deciding { number := s.arrived, data, binary }]).threads 0 = [.deciding m] ↔
            { number := s.arrived, data, binary } = m := by
        intro m
        rw [threads_goto, if_pos rfl, List.cons.injEq, Doing.deciding.injEq]
        exact and_iff_left rfl
      refine ⟨h.pendingBytes, h.limit, h.refused, h.arrival,
        fun m hm => Nat.lt_succ_of_lt (h.arrived m hm), fun m hm => ?_, fun n hn => ?_⟩
      · rw [← (hnew m).mp hm]
        exact ⟨rfl, h.arrived⟩
      · rcases Nat.lt_succ_iff_lt_or_eq.mp hn with hold | rfl
        · rcases h.all n hold with hall | hall | ⟨m, hm, -⟩
          · exact .inl hall
          · exact .inr (.inl hall)
          · rw [hidle] at hm
            cases hm
        · exact .inr (.inr ⟨_, (hnew _).mpr rfl, rfl⟩)
  | onMessage i hfree =>
      have hs : Counted pendingLimit { s with
          locked := Function.update s.locked s.callbacks true
          callbacks := s.callbacks + 1 } :=
        ⟨h.pendingBytes, h.limit, h.refused, h.arrival, h.arrived, h.deciding, h.all⟩
      refine hs.same (fun m hm => ?_) fun m hm => ?_
      · change s.threads i = _ at hm
        rw [hm] at hfree
        cases hfree
      · cases hm
  | @choose i cb m below htop hslot =>
      obtain ⟨rfl, rfl⟩ := hdecider htop
      obtain ⟨harrival, harrived⟩ := arrival_append h htop
      refine ⟨h.pendingBytes, h.limit, h.refused, harrival, harrived, fun m' hm' => ?_,
        fun n hn => ?_⟩
      · rw [threads_goto, if_pos rfl] at hm'
        cases hm'
      · exact (all_decided h htop (List.subset_append_left _ _) (List.Subset.refl _)
          (.inl (List.mem_append_right _ List.mem_cons_self)) n hn).imp_right .inl
  | @hold i m below htop hslot hroom =>
      obtain ⟨rfl, rfl⟩ := hdecider htop
      obtain ⟨harrival, harrived⟩ := arrival_append h htop
      refine ⟨?_, hroom, h.refused, harrival, harrived, fun m' hm' => ?_, fun n hn => ?_⟩
      · show _ = ((s.pending ++ [m]).map (·.data.length)).sum
        rw [List.map_append, List.sum_append, ← h.pendingBytes]
        rfl
      · rw [threads_goto, if_pos rfl] at hm'
        cases hm'
      · exact (all_decided h htop (List.subset_append_left _ _) (List.Subset.refl _)
          (.inl (List.mem_append_right _ List.mem_cons_self)) n hn).imp_right .inl
  | @refuse i m below htop hslot hfull =>
      obtain ⟨rfl, rfl⟩ := hdecider htop
      refine ⟨h.pendingBytes, h.limit, fun r hr => ?_, h.arrival, h.arrived, fun m' hm' => ?_,
        fun n hn => ?_⟩
      · rcases List.mem_append.mp hr with hr | hr
        · exact h.refused r hr
        · rw [List.mem_singleton.mp hr]
          exact hfull
      · rw [threads_goto, if_pos rfl] at hm'
        cases hm'
      · exact (all_decided h htop (List.Subset.refl _) (List.subset_append_left _ _)
          (.inr ⟨_, List.mem_append_right _ List.mem_cons_self, rfl⟩) n hn).imp_right .inl
  | @lock i cb m below htop hfree =>
      have hs : Counted pendingLimit { s with locked := Function.update s.locked cb true } :=
        ⟨h.pendingBytes, h.limit, h.refused, h.arrival, h.arrived, h.deciding, h.all⟩
      exact hs.same (hnot htop fun m hm => by cases hm) fun m hm => by cases hm
  | @call i cb m below htop =>
      have hs : Counted pendingLimit { s with runs := s.runs ++ [(m, cb)] } :=
        ⟨h.pendingBytes, h.limit, h.refused, h.arrival, h.arrived, h.deciding, h.all⟩
      exact hs.same (hnot htop fun m hm => by cases hm) fun m hm => by cases hm
  | @publish i cb below htop =>
      have hs : Counted pendingLimit { s with slot := some cb, pendingBytes := 0, pending := [] } :=
        ⟨rfl, Nat.zero_le _, h.refused, h.arrival, h.arrived, h.deciding, h.all⟩
      exact hs.same (hnot htop fun m hm => by cases hm) fun m hm => by cases hm
  | @flush i cb m held below htop =>
      have hs : Counted pendingLimit { s with runs := s.runs ++ [(m, cb)] } :=
        ⟨h.pendingBytes, h.limit, h.refused, h.arrival, h.arrived, h.deciding, h.all⟩
      exact hs.same (hnot htop fun m hm => by cases hm) fun m hm => by cases hm
  | @unlock i cb below htop =>
      have hs : Counted pendingLimit { s with locked := Function.update s.locked cb false } :=
        ⟨h.pendingBytes, h.limit, h.refused, h.arrival, h.arrived, h.deciding, h.all⟩
      rcases htop with htop | htop
      · exact hs.same (hnot htop fun m hm => by cases hm) (hbelow htop)
      · exact hs.same (hnot htop fun m hm => by cases hm) (hbelow htop)
  | @flushed i below htop =>
      exact h.same (hnot htop fun m hm => by cases hm) (hbelow htop)

/-! ### The order

Handlers get messages in the order in which these came, unless a new one overtakes those
that a call of `on_message` has still to hand over.  `NoneLeft` rules that out, of the step
in which a callback is chosen for it.
-/

/-- What `on_message` calls of the thread have left, and what `deliver` has a callback for. -/
def leftBy (s : Held) (i : Nat) : List HeldMessage := (s.threads i).flatMap left

def handed (s : Held) : List HeldMessage := (s.threads 0).flatMap inHand

/-- As long as no message is passed on before those that one thread has left. -/
structure InTurn (s : Held) : Prop where
  order : ∃ i, (∀ j, j ≠ i → leftBy s j = []) ∧
    s.accepted = s.runs.map Prod.fst ++ (leftBy s i ++ (handed s ++ s.pending))
  unset : s.slot = none → s.accepted = s.pending
  set : s.slot ≠ none → s.pending = []

/-- Thread `i` has the same messages left. -/
theorem leftBy_same {i : Nat} {stack : List Doing} (h : stack.flatMap left = leftBy s i) :
    leftBy (s.goto i stack) = leftBy s := by
  have hgoto : leftBy (s.goto i stack) = Function.update (leftBy s) i (stack.flatMap left) :=
    Function.comp_update (List.flatMap left) s.threads i stack
  rw [hgoto, h]
  exact Function.update_eq_self i (leftBy s)

theorem leftBy_self (s : Held) (i : Nat) (stack : List Doing) :
    leftBy (s.goto i stack) i = stack.flatMap left := by
  rw [leftBy, threads_goto, if_pos rfl]

theorem leftBy_other {i j : Nat} (stack : List Doing) (h : j ≠ i) :
    leftBy (s.goto i stack) j = leftBy s j := by
  rw [leftBy, threads_goto, if_neg h, leftBy]

theorem handed_goto (s : Held) (i : Nat) (stack : List Doing) :
    handed (s.goto i stack) = if 0 = i then stack.flatMap inHand else handed s := by
  rw [handed, threads_goto]
  split
  · rfl
  · rfl

/-- Thread `i` has the same messages in hand. -/
theorem handed_same {i : Nat} {stack : List Doing}
    (h : stack.flatMap inHand = (s.threads i).flatMap inHand) :
    handed (s.goto i stack) = handed s := by
  rw [handed_goto]
  split
  · rename_i hi
    rw [h, handed, hi]
  · rfl

theorem InTurn.same {i : Nat} {old stack : List Doing} (h : InTurn s) (htop : s.threads i = old)
    (hleft : stack.flatMap left = old.flatMap left)
    (hhand : stack.flatMap inHand = old.flatMap inHand) : InTurn (s.goto i stack) := by
  have hleftBy : leftBy (s.goto i stack) = leftBy s := leftBy_same (by rw [hleft, leftBy, htop])
  have hhanded : handed (s.goto i stack) = handed s := handed_same (by rw [hhand, htop])
  refine ⟨?_, h.unset, h.set⟩
  rw [hleftBy, hhanded]
  exact h.order

theorem mem_leftBy {i cb : Nat} {held : List HeldMessage} (h : .flushing cb held ∈ s.threads i) :
    ∀ m ∈ held, m ∈ leftBy s i :=
  fun _ hm => List.mem_flatMap.mpr ⟨_, h, hm⟩

/-- What a thread has left, its calls of `on_message` have. -/
theorem leftBy_eq_nil {i : Nat}
    (h : ∀ cb held, .flushing cb held ∈ s.threads i → held = []) : leftBy s i = [] := by
  rw [leftBy, List.flatMap_eq_nil_iff]
  intro d hd
  cases d with
  | flushing cb held => exact h cb held hd
  | _ => rfl

/-- Where the guard lets a message be passed on, nothing is left by anyone. -/
theorem leftBy_of_noneLeft (hlocks : Lock.Each (owners s) s.locked) {i cb : Nat}
    {m : HeldMessage} (htop : s.threads i = [.calling m cb]) (hguard : NoneLeft s (.step i))
    (j : Nat) : leftBy s j = [] := by
  refine leftBy_eq_nil fun cb' held hmem => ?_
  by_cases hcb : cb' = cb
  · -- `deliver` holds that callback's lock, so no `on_message` call does
    subst hcb
    have hmine : cb' ∈ owners s i := by
      rw [owners, htop]
      exact List.mem_cons_self
    have hother : cb' ∈ owners s j := List.mem_filterMap.mpr ⟨.flushing cb' held, hmem, rfl⟩
    rw [hlocks.unique hother hmine, htop] at hmem
    cases List.mem_singleton.mp hmem
  · exact hguard m cb [] htop j cb' held hmem hcb

/-- As long as no callback is set, everything that came is held. -/
theorem InTurn.all_held (h : InTurn s) (hslot : s.slot = none) :
    s.runs.map Prod.fst = [] ∧ handed s = [] ∧ ∀ j, leftBy s j = [] := by
  obtain ⟨k, hothers, horder⟩ := h.order
  have hlength := congrArg List.length (horder.symm.trans (h.unset hslot))
  simp only [List.length_append] at hlength
  have hmine : leftBy s k = [] := List.eq_nil_of_length_eq_zero (by omega)
  refine ⟨List.eq_nil_of_length_eq_zero (by omega), List.eq_nil_of_length_eq_zero (by omega),
    fun j => ?_⟩
  by_cases hj : j = k
  · rw [hj]
    exact hmine
  · exact hothers j hj

/-- A message that finds a callback comes after all that have not been passed on. -/
theorem InTurn.choose {cb : Nat} {m : HeldMessage} (h : InTurn s)
    (htop : s.threads 0 = [.deciding m]) (hslot : s.slot = some cb) :
    InTurn ({ s with accepted := s.accepted ++ [m] }.goto 0 [.waiting m cb]) := by
  obtain ⟨k, hothers, horder⟩ := h.order
  have hpending : s.pending = [] := h.set (by rw [hslot]; nofun)
  have hhanded : handed s = [] := by
    rw [handed, htop]
    rfl
  have hsame : leftBy ({ s with accepted := s.accepted ++ [m] }.goto 0 [.waiting m cb]) =
      leftBy s := by
    refine leftBy_same ?_
    rw [leftBy]
    dsimp only
    rw [htop]
    rfl
  refine ⟨⟨k, ?_, ?_⟩, fun hnone => ?_, h.set⟩
  · rw [hsame]
    exact hothers
  · rw [hsame, handed_goto]
    show s.accepted ++ [m] = s.runs.map Prod.fst ++ (leftBy s k ++ ([m] ++ s.pending))
    rw [horder, hhanded, hpending]
    simp only [List.append_assoc, List.append_nil]
  · cases hnone.symm.trans hslot

/-- Where nothing is left, the message in hand is the next. -/
theorem InTurn.call {cb : Nat} {m : HeldMessage} (h : InTurn s)
    (htop : s.threads 0 = [.calling m cb]) (hnil : ∀ j, leftBy s j = []) :
    InTurn ({ s with runs := s.runs ++ [(m, cb)] }.goto 0 [.running cb]) := by
  obtain ⟨k, hothers, horder⟩ := h.order
  have hhanded : handed s = [m] := by
    rw [handed, htop]
    rfl
  have hsame : leftBy ({ s with runs := s.runs ++ [(m, cb)] }.goto 0 [.running cb]) =
      leftBy s := by
    refine leftBy_same ?_
    rw [leftBy]
    dsimp only
    rw [htop]
    rfl
  refine ⟨⟨k, ?_, ?_⟩, h.unset, h.set⟩
  · rw [hsame]
    exact hothers
  · rw [hsame, handed_goto]
    show s.accepted = (s.runs ++ [(m, cb)]).map Prod.fst ++ (leftBy s k ++ ([] ++ s.pending))
    rw [horder, hnil k, hhanded, List.map_append]
    simp only [List.append_assoc, List.nil_append, List.map_cons, List.map_nil]

/-- The first `on_message` call takes everything that came, a later one finds nothing. -/
theorem InTurn.publish {i cb : Nat} {below : List Doing} (h : InTurn s)
    (htop : s.threads i = .publishing cb :: below) :
    InTurn ({ s with slot := some cb, pendingBytes := 0, pending := [] }.goto i
      (.flushing cb s.pending :: below)) := by
  obtain ⟨k, hothers, horder⟩ := h.order
  have hbelow : below.flatMap left = leftBy s i := by
    rw [leftBy, htop]
    rfl
  have hhanded : handed ({ s with slot := some cb, pendingBytes := 0, pending := [] }.goto i
      (.flushing cb s.pending :: below)) = handed s := by
    refine handed_same ?_
    dsimp only
    rw [htop]
    rfl
  by_cases hslot : s.slot = none
  · obtain ⟨hruns, hhand, hnil⟩ := h.all_held hslot
    refine ⟨⟨i, fun j hj => ?_, ?_⟩, nofun, fun _ => rfl⟩
    · rw [leftBy_other _ hj]
      exact hnil j
    · rw [leftBy_self, hhanded, hhand]
      show s.accepted = s.runs.map Prod.fst ++ (s.pending ++ below.flatMap left ++ ([] ++ []))
      rw [h.unset hslot, hruns, hbelow, hnil i]
      simp only [List.nil_append, List.append_nil]
  · have hpending : s.pending = [] := h.set hslot
    have hsame : leftBy ({ s with slot := some cb, pendingBytes := 0, pending := [] }.goto i
        (.flushing cb s.pending :: below)) = leftBy s := by
      refine leftBy_same ?_
      rw [hpending]
      exact hbelow
    refine ⟨⟨k, ?_, ?_⟩, nofun, fun _ => rfl⟩
    · rw [hsame]
      exact hothers
    · rw [hsame, hhanded]
      show s.accepted = s.runs.map Prod.fst ++ (leftBy s k ++ (handed s ++ []))
      rw [horder, hpending]

/-- What one thread has left comes first. -/
theorem InTurn.flush {i cb : Nat} {m : HeldMessage} {held : List HeldMessage}
    {below : List Doing} (h : InTurn s) (htop : s.threads i = .flushing cb (m :: held) :: below) :
    InTurn ({ s with runs := s.runs ++ [(m, cb)] }.goto i
      (.flushed :: .flushing cb held :: below)) := by
  obtain ⟨k, hothers, horder⟩ := h.order
  have hmine : leftBy s i = m :: (held ++ below.flatMap left) := by
    rw [leftBy, htop]
    rfl
  obtain rfl : i = k := by
    by_contra hne
    rw [hothers i hne] at hmine
    cases hmine
  have hhanded : handed ({ s with runs := s.runs ++ [(m, cb)] }.goto i
      (.flushed :: .flushing cb held :: below)) = handed s := by
    refine handed_same ?_
    dsimp only
    rw [htop]
    rfl
  refine ⟨⟨i, fun j hj => ?_, ?_⟩, h.unset, h.set⟩
  · rw [leftBy_other _ hj]
    exact hothers j hj
  · rw [leftBy_self, hhanded]
    show s.accepted = (s.runs ++ [(m, cb)]).map Prod.fst ++
      (held ++ below.flatMap left ++ (handed s ++ s.pending))
    rw [horder, hmine, List.map_append]
    simp only [List.append_assoc, List.map_cons, List.map_nil, List.cons_append, List.nil_append]

theorem inTurn_step (hlocks : Lock.Each (owners s) s.locked)
    (hproper : ∀ i, Proper i (s.threads i)) (h : InTurn s) (hguard : NoneLeft s a)
    (hmoves : Moves pendingLimit s a t) : InTurn t := by
  cases hmoves with
  | deliver data binary hidle =>
      have hs : InTurn { s with arrived := s.arrived + 1 } := ⟨h.order, h.unset, h.set⟩
      exact hs.same hidle rfl rfl
  | onMessage i hfree =>
      have hs : InTurn { s with
          locked := Function.update s.locked s.callbacks true
          callbacks := s.callbacks + 1 } := ⟨h.order, h.unset, h.set⟩
      exact hs.same rfl rfl rfl
  | choose htop hslot =>
      obtain ⟨rfl, rfl⟩ := (proper_top hproper htop).1 rfl
      exact h.choose htop hslot
  | @hold i m below htop hslot hroom =>
      obtain ⟨k, hothers, horder⟩ := h.order
      have hs : InTurn { s with
          pendingBytes := s.pendingBytes + m.data.length
          pending := s.pending ++ [m]
          accepted := s.accepted ++ [m] } := by
        refine ⟨⟨k, hothers, ?_⟩, fun hnone => ?_, fun hsome => absurd hslot hsome⟩
        · show s.accepted ++ [m] =
            s.runs.map Prod.fst ++ (leftBy s k ++ (handed s ++ (s.pending ++ [m])))
          rw [horder]
          simp only [List.append_assoc]
        · show s.accepted ++ [m] = s.pending ++ [m]
          rw [h.unset hslot]
      exact hs.same htop rfl rfl
  | @refuse i m below htop hslot hfull =>
      have hs : InTurn { s with refused := s.refused ++ [Refusal.mk m s.pendingBytes] } :=
        ⟨h.order, h.unset, h.set⟩
      exact hs.same htop rfl rfl
  | @lock i cb m below htop hfree =>
      have hs : InTurn { s with locked := Function.update s.locked cb true } :=
        ⟨h.order, h.unset, h.set⟩
      exact hs.same htop rfl rfl
  | call htop =>
      obtain ⟨rfl, rfl⟩ := (proper_top hproper htop).1 rfl
      exact h.call htop (leftBy_of_noneLeft hlocks htop hguard)
  | publish htop => exact h.publish htop
  | flush htop => exact h.flush htop
  | @unlock i cb below htop =>
      have hs : InTurn { s with locked := Function.update s.locked cb false } :=
        ⟨h.order, h.unset, h.set⟩
      rcases htop with htop | htop
      · exact hs.same htop rfl rfl
      · exact hs.same htop rfl rfl
  | flushed htop => exact h.same htop rfl rfl

/-! ### Runs -/

structure Inv (pendingLimit : Nat) (s : Held) : Prop where
  callbacks : Callbacks s
  proper : ∀ i, Proper i (s.threads i)
  counted : Counted pendingLimit s
  inTurn : InTurn s

theorem inv_start (pendingLimit : Nat) : Inv pendingLimit {} where
  callbacks := {
    locks := ⟨fun _ => iff_of_false nofun nofun, fun _ => List.nodup_nil, nofun⟩
    locked := nofun
    slot := nofun
    waiting := nofun }
  proper _ := trivial
  counted := {
    pendingBytes := rfl
    limit := Nat.zero_le _
    refused := nofun
    arrival := .nil
    arrived := nofun
    deciding := nofun
    all := nofun }
  inTurn := ⟨⟨0, fun _ _ => rfl, rfl⟩, fun _ => rfl, fun _ => rfl⟩

theorem inv_step (h : Inv pendingLimit s) (hguard : NoneLeft s a)
    (hstep : (machine pendingLimit).step s a = some t) : Inv pendingLimit t :=
  have hmoves := step_moves hstep
  ⟨callbacks_step h.callbacks hmoves, proper_step h.proper hmoves,
    counted_step h.proper h.counted hmoves,
    inTurn_step h.callbacks.locks h.proper h.inTurn hguard hmoves⟩

/-- A thread that cannot go on waits for a callback that is locked. -/
theorem waiting_of_stuck {i : Nat} {d : Doing} {below : List Doing}
    (htop : s.threads i = d :: below) (hstuck : s.advance pendingLimit i = none) :
    ∃ m cb, d = .waiting m cb ∧ s.locked cb = true := by
  unfold advance at hstuck
  rw [htop] at hstuck
  cases d with
  | waiting m cb =>
      refine ⟨m, cb, rfl, ?_⟩
      by_contra hfree
      dsimp only at hstuck
      rw [if_neg hfree] at hstuck
      cases hstuck
  | flushing cb held =>
      cases held with
      | nil => cases hstuck
      | cons m held => cases hstuck
  | _ => cases hstuck

/-- `deliver` holds no lock while it waits, so what it waits for is given back. -/
theorem quiet_of_stuck (hlocks : Lock.Each (owners s) s.locked)
    (hproper : ∀ i, Proper i (s.threads i)) (hstuck : ∀ i, s.advance pendingLimit i = none) :
    ∀ i, s.threads i = [] := by
  have hwaiting : ∀ i, s.threads i ≠ [] →
      ∃ m cb, s.threads i = [.waiting m cb] ∧ s.locked cb = true := by
    intro i hne
    obtain ⟨d, below, htop⟩ := List.exists_cons_of_ne_nil hne
    obtain ⟨m, cb, rfl, hlocked⟩ := waiting_of_stuck htop (hstuck i)
    have hi := proper_top hproper htop
    exact ⟨m, cb, by rw [htop, (hi.1 rfl).2], hlocked⟩
  have hnone : ∀ i, owners s i = [] := by
    intro i
    by_cases hi : s.threads i = []
    · rw [owners, hi]
      rfl
    · obtain ⟨m, cb, htop, -⟩ := hwaiting i hi
      rw [owners, htop]
      rfl
  intro i
  by_contra hi
  obtain ⟨m, cb, -, hlocked⟩ := hwaiting i hi
  obtain ⟨j, hj⟩ := (hlocks.locked cb).mp hlocked
  rw [hnone j] at hj
  cases hj

theorem Inv.ordered (h : Inv pendingLimit s) : Ordered pendingLimit s := by
  obtain ⟨k, -, horder⟩ := h.inTurn.order
  refine ⟨h.counted.arrival, ⟨_, horder.symm⟩, h.counted.pendingBytes, h.counted.limit,
    h.counted.refused, fun hstuck => ?_⟩
  have hquiet := quiet_of_stuck h.callbacks.locks h.proper hstuck
  refine ⟨hquiet, fun n hn => ?_, fun hslot => ?_⟩
  · rcases h.counted.all n hn with haccepted | hrefused | ⟨m, hm, -⟩
    · exact .inl haccepted
    · exact .inr hrefused
    · rw [hquiet 0] at hm
      cases hm
  · have hleft : leftBy s k = [] := by
      rw [leftBy, hquiet k]
      rfl
    have hhanded : handed s = [] := by
      rw [handed, hquiet 0]
      rfl
    rw [horder, hleft, hhanded, h.inTurn.set hslot]
    exact (List.append_nil _).symm

/-- What is left is passed on in order, so a message that is in hand comes after it. -/
theorem not_prefix_of_left {runs accepted rest : List HeldMessage} {x m : HeldMessage}
    (harrival : accepted.Pairwise fun m n => m.number < n.number)
    (horder : accepted = runs ++ x :: rest) (hm : m ∈ rest) : ¬ runs ++ [m] <+: accepted := by
  intro hpassed
  rw [horder, List.prefix_append_right_inj, List.cons_prefix_cons] at hpassed
  rw [horder, List.pairwise_append, List.pairwise_cons] at harrival
  have hlt : x.number < m.number := harrival.2.1.1 m hm
  rw [hpassed.1] at hlt
  exact Nat.lt_irrefl _ hlt

/-- A message passed on while an `on_message` call has messages left overtakes them. -/
theorem not_ordered_of_left (h : Inv pendingLimit s)
    (hstep : (machine pendingLimit).step s a = some t) (hguard : ¬ NoneLeft s a) :
    ¬ Ordered pendingLimit t := by
  cases a with
  | deliver data binary => exact absurd trivial hguard
  | onMessage i => exact absurd trivial hguard
  | step i =>
      simp only [NoneLeft, not_forall] at hguard
      obtain ⟨m, cb, below, htop, j, cb', held, hmem, -, hheld⟩ := hguard
      have hi := proper_top h.proper htop
      obtain ⟨rfl, rfl⟩ := hi.1 rfl
      obtain ⟨k, hothers, horder⟩ := h.inTurn.order
      obtain ⟨x, hx⟩ := List.exists_mem_of_ne_nil held hheld
      have hmine : x ∈ leftBy s j := mem_leftBy hmem x hx
      obtain rfl : j = k := by
        by_contra hne
        rw [hothers j hne] at hmine
        cases hmine
      obtain ⟨y, rest, hleft⟩ := List.exists_cons_of_ne_nil (List.ne_nil_of_mem hmine)
      have hhand : m ∈ rest ++ (handed s ++ s.pending) := by
        refine List.mem_append_right _ (List.mem_append_left _ ?_)
        rw [handed, htop]
        exact List.mem_cons_self
      have hmove : (machine pendingLimit).step s (.step 0) =
          some ({ s with runs := s.runs ++ [(m, cb)] }.goto 0 [.running cb]) := by
        show s.advance pendingLimit 0 = _
        unfold advance
        rw [htop]
      obtain rfl := Option.some.inj (hmove.symm.trans hstep)
      intro hordered
      have hruns : (s.runs ++ [(m, cb)]).map Prod.fst <+: s.accepted := hordered.runs
      rw [List.map_append] at hruns
      rw [hleft, List.cons_append] at horder
      exact not_prefix_of_left h.counted.arrival horder hhand hruns

/-- **Held messages keep their order in a run exactly if no message is passed on ahead of
what an `on_message` call has left.** -/
theorem ordered_along_iff (pendingLimit : Nat) (actions : List Action)
    (hrun : (machine pendingLimit).run {} actions = some t) :
    (machine pendingLimit).Along (Ordered pendingLimit) {} actions ↔
      (machine pendingLimit).Guarded NoneLeft {} actions := by
  refine (machine pendingLimit).along_iff_guarded_kept (I := Inv pendingLimit)
    (fun s a t hI _ hguard hstep => inv_step hI hguard hstep) (fun s a t hI _ hstep => ?_)
    (inv_start pendingLimit) (inv_start pendingLimit).ordered hrun
  constructor
  · intro hordered
    by_contra hguard
    exact not_ordered_of_left hI hstep hguard hordered
  · intro hguard
    exact (inv_step hI hguard hstep).ordered

/-- A message that is held is passed to the handler that is set. -/
theorem ordered_held : (machine 10).Along (Ordered 10) {}
    [.deliver [1] true, .step 0, .onMessage 1, .step 1, .step 1, .step 1, .step 1] := by
  refine (ordered_along_iff 10 _ ((machine 10).run_final {} _ (by decide +kernel))).mpr ?_
  -- no step of these passes a message on for `deliver`
  refine ⟨trivial, fun s₁ h₁ => ?_⟩
  obtain rfl := Option.some.inj h₁
  refine ⟨nofun, fun s₂ h₂ => ?_⟩
  obtain rfl := Option.some.inj h₂
  refine ⟨trivial, fun s₃ h₃ => ?_⟩
  obtain rfl := Option.some.inj h₃
  refine ⟨nofun, fun s₄ h₄ => ?_⟩
  obtain rfl := Option.some.inj h₄
  refine ⟨nofun, fun s₅ h₅ => ?_⟩
  obtain rfl := Option.some.inj h₅
  refine ⟨nofun, fun s₆ h₆ => ?_⟩
  obtain rfl := Option.some.inj h₆
  exact ⟨nofun, fun s₇ _ => trivial⟩

/-- A handler that is replaced while it is called with what was held leaves some of that
behind a message that arrives now. -/
theorem replaced_handler_overtakes :
    ¬ ∀ s, (machine 10).Reachable s → Ordered 10 s := by
  intro h
  have hrun := (machine 10).run_final {}
    [.deliver [1] true, .step 0, .deliver [2] true, .step 0, .onMessage 1, .step 1, .step 1,
      .onMessage 1, .step 1, .step 1, .deliver [3] true, .step 0, .step 0, .step 0]
    (by decide +kernel)
  have hordered := h _ (Machine.Reachable.start.run hrun)
  exact absurd hordered.runs (by decide +kernel)

end Held

end ReactorWebrtc
