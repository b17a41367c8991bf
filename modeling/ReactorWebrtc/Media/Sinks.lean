/-
Attaching a sink to a track, from several threads, while frames are delivered.

A sink is two objects: the boxed closure on the Rust side, and the native sink that points at
it.  Attaching takes the old native sink off the track's broadcaster, replaces it, puts the
new one on, and only then stores the new box, which drops the old one.  All of it happens
under one lock.  The broadcaster has a lock of its own, held while a frame goes round, so
taking a sink off waits for the deliveries under way.

The machine has any number of attach calls, the frames, and the drop of the track, each step
of the glue and of the safe crate a step of its own.  A call's number names the box and the
native sink it makes.  `order` and `heard` are what the code does not have: the calls in the
order in which they took the lock, and the frames that reached a closure.

`sinks_safe` is what comes of it: no closure is called that is not there, and the last call to
take the lock is the one whose sink stays.

A delivery is one step here, whatever its closure does with the frame.  What becomes of a
closure that calls back into its own track is for `SinkClosures`, over this machine.  Totals
count in whole numbers where the source counts frames in 64 bits, which no track outlives.
-/
import Mathlib.Algebra.Order.Ring.Nat
import ReactorWebrtc.Lib.Arena
import ReactorWebrtc.Lib.Lock
import ReactorWebrtc.Lib.Machine

namespace ReactorWebrtc

/-- How long a video sink took, and for how many frames. -/
structure VideoSinkTimings where
  /-- In nanoseconds. -/
  convert : Nat := 0
  frames : Nat := 0
  deriving DecidableEq, Repr

/-- The longest duration there is, in nanoseconds. -/
def durationMax : Nat := (2 ^ 64 - 1) * 10 ^ 9 + (10 ^ 9 - 1)

/-- The native sink's share and the trampoline's, in whole nanoseconds. -/
def convertTime (convertNs : Int) (hereNs : Nat) : Nat :=
  min (2 ^ 64 - 1) ((max convertNs 0).toNat + min (2 ^ 64 - 1) hereNs)

def VideoSinkTimings.record (t : VideoSinkTimings) (convert : Nat) : VideoSinkTimings where
  convert := min durationMax (t.convert + convert)
  frames := t.frames + 1

namespace Sinks

/-- Where one attach call is. -/
inductive Call
  | idle
  /-- The closure is boxed; at the lock. -/
  | waiting
  | locked
  /-- Past `RemoveSink`. -/
  | removed
  /-- The old native sink is destroyed, the new one made. -/
  | replaced
  /-- Back from the glue. -/
  | added
  | stored
  /-- The totals are the new sink's. -/
  | timed
  | done
  deriving DecidableEq, Repr

/-- How far the drop of the track is. -/
inductive Dropping
  | alive
  /-- The native sink is off the broadcaster. -/
  | detached
  /-- The native handle is deleted. -/
  | deleted
  /-- The boxes are dropped. -/
  | gone
  deriving DecidableEq, Repr

structure State where
  /-- Who is inside the sink's lock. -/
  lock : Option Nat := none
  stored : Option Nat := none
  /-- Whose totals a reading is of. -/
  timings : Option Nat := none
  boxes : Arena Nat := {}
  /-- The native sink of the handle. -/
  native : Option Nat := none
  sinks : Arena Nat := {}
  /-- The sinks on the broadcaster. -/
  registered : List Nat := []
  /-- The sinks a frame has still to go to, under the broadcaster's lock. -/
  delivering : Option (List Nat) := none
  totals : Nat → VideoSinkTimings := fun _ => {}
  calls : Nat → Call := fun _ => .idle
  drop : Dropping := .alive
  started : List Nat := []
  order : List Nat := []
  heard : List (Nat × Nat) := []

inductive Action
  | call (i : Nat)
  | acquire (i : Nat)
  | remove (i : Nat)
  | replace (i : Nat)
  | add (i : Nat)
  | store (i : Nat)
  | setTimings (i : Nat)
  | release (i : Nat)
  | frame
  /-- The frame goes to the next sink; `passes` if that calls the closure. -/
  | deliver (passes : Bool) (convertNs : Int) (hereNs : Nat)
  | frameEnd
  | detach
  | delete
  | dropBox
  deriving DecidableEq, Repr

/-- Call `i` goes on to `c`. -/
def State.goto (s : State) (i : Nat) (c : Call) : State :=
  { s with calls := Function.update s.calls i c }

/-- The broadcaster's lock is free, or there is no sink to take off. -/
def State.canRemove (s : State) : Prop := s.native = none ∨ s.delivering = none

instance (s : State) : Decidable s.canRemove := inferInstanceAs (Decidable (_ ∨ _))

def State.removeSink (s : State) : List Nat :=
  match s.native with
  | some k => s.registered.erase k
  | none => s.registered

/-- A delivery: the sink reads itself, then the closure behind it.  Totals are kept of video. -/
def State.hear (s : State) (video : Bool) (k : Nat) (rest : List Nat) (passes : Bool)
    (convert : Nat) : State :=
  if passes then
    { s with
      sinks := s.sinks.read k
      boxes := s.boxes.read k
      totals :=
        if video then Function.update s.totals k ((s.totals k).record convert) else s.totals
      heard := s.heard ++ [(k, convert)]
      delivering := some rest }
  else { s with sinks := s.sinks.read k, delivering := some rest }

def enabled (s : State) : Action → Prop
  | .call i => s.drop = .alive ∧ s.calls i = .idle
  | .acquire i => s.calls i = .waiting ∧ s.lock = none
  | .remove i => s.calls i = .locked ∧ s.canRemove
  | .replace i => s.calls i = .removed
  | .add i => s.calls i = .replaced ∧ s.delivering = none
  | .store i => s.calls i = .added
  | .setTimings i => s.calls i = .stored
  | .release i => s.calls i = .timed
  | .frame => s.delivering = none
  | .deliver _ _ _ => s.delivering ≠ none ∧ s.delivering ≠ some []
  | .frameEnd => s.delivering = some []
  -- the drop has the track for itself: no call of it is under way
  | .detach => s.drop = .alive ∧ (∀ i ∈ s.started, s.calls i = .done) ∧ s.canRemove
  | .delete => s.drop = .detached
  | .dropBox => s.drop = .deleted

instance (s : State) : ∀ a, Decidable (enabled s a)
  | .call _ | .acquire _ | .remove _ | .add _ | .deliver _ _ _ | .detach =>
    inferInstanceAs (Decidable (_ ∧ _))
  | .replace _ | .store _ | .setTimings _ | .release _ | .frame | .frameEnd | .delete | .dropBox =>
    inferInstanceAs (Decidable (_ = _))

/-- `accepts`: the native track is of the sink's kind; the glue does nothing otherwise. -/
def effect (accepts video : Bool) (s : State) : Action → State
  | .call i =>
    { s.goto i .waiting with boxes := s.boxes.alloc i, started := s.started ++ [i] }
  | .acquire i => { s.goto i .locked with lock := some i, order := s.order ++ [i] }
  | .remove i =>
    if accepts then { s.goto i .removed with registered := s.removeSink } else s.goto i .added
  | .replace i =>
    { s.goto i .replaced with
      sinks := (s.sinks.alloc i).freeAll s.native
      native := some i }
  | .add i => { s.goto i .added with registered := s.registered ++ [i] }
  | .store i =>
    { s.goto i .stored with boxes := s.boxes.freeAll s.stored, stored := some i }
  | .setTimings i => { s.goto i .timed with timings := if video then some i else s.timings }
  | .release i => { s.goto i .done with lock := none }
  | .frame => { s with delivering := some s.registered }
  | .deliver passes convertNs hereNs =>
    match s.delivering with
    | some (k :: rest) => s.hear video k rest passes (convertTime convertNs hereNs)
    | _ => s
  | .frameEnd => { s with delivering := none }
  | .detach => { s with registered := s.removeSink, drop := .detached }
  | .delete => { s with sinks := s.sinks.freeAll s.native, native := none, drop := .deleted }
  | .dropBox => { s with boxes := s.boxes.freeAll s.stored, stored := none, drop := .gone }

def machine (accepts video : Bool) : Machine State Action :=
  .ofEffect {} enabled (effect accepts video)

/-! ### Where the lock's holder is -/

namespace Call

/-- Inside the lock. -/
def holds : Call → Bool
  | .locked | .removed | .replaced | .added | .stored | .timed => true
  | _ => false

/-- The box is the call's own, not yet the track's. -/
def ownsBox : Call → Bool
  | .waiting | .locked | .removed | .replaced | .added => true
  | _ => false

/-- The native sink is made. -/
def made : Call → Bool
  | .replaced | .added | .stored | .timed | .done => true
  | _ => false

/-- The old native sink is off the broadcaster, the new one not on it. -/
def between : Call → Bool
  | .removed | .replaced => true
  | _ => false

/-- The native sink is the new one, the stored box still the old one. -/
def ahead : Call → Bool
  | .replaced | .added => true
  | _ => false

end Call

/-- Where the call inside the lock is; with nobody inside, where the last one ended. -/
def State.phase (s : State) : Call :=
  match s.lock with
  | some i => s.calls i
  | none => .done

variable {accepts video : Bool} {s t : State} {i : Nat} {a : Action}

theorem goto_self (s : State) (i : Nat) (c : Call) : (s.goto i c).calls i = c :=
  Function.update_self ..

theorem goto_of_ne (s : State) {i j : Nat} (c : Call) (h : j ≠ i) :
    (s.goto i c).calls j = s.calls j := Function.update_of_ne h ..

/-- Who is inside the lock, and who has not begun. -/
structure Control (lock : Option Nat) (calls : Nat → Call) (drop : Dropping)
    (started : List Nat) : Prop where
  owns : Lock.Owns Call.holds lock calls
  started : ∀ i, i ∈ started ↔ calls i ≠ .idle
  /-- The track is dropped when nobody uses it any more. -/
  dropping : drop ≠ .alive → ∀ i, calls i = .idle ∨ calls i = .done

def State.Control (s : State) : Prop := Sinks.Control s.lock s.calls s.drop s.started

/-- What points where. -/
structure Places (accepts video : Bool) (s : State) : Prop where
  /-- The native sink goes with the stored box, and comes before it. -/
  native : s.native =
    if accepts && (s.drop = .alive || s.drop = .detached) then
      if s.phase.ahead then s.lock else s.stored
    else none
  registered : s.registered =
    if s.phase.between || s.drop ≠ .alive then [] else s.native.toList
  accepting : s.phase.between = true → accepts = true
  delivering : ∀ l, s.delivering = some l → ∀ k ∈ l, k ∈ s.registered
  /-- The box stored is that of the last call in line, once it has stored it. -/
  last : s.drop ≠ .gone →
    s.order.getLast? = if s.phase.holds && s.phase.ownsBox then s.lock else s.stored
  mine : s.phase = .stored → s.stored = s.lock
  timings : video = true → s.drop ≠ .gone → s.phase ≠ .stored → s.timings = s.stored

/-- What is there, and what has never been made. -/
structure Storage (boxes : Arena Nat) (stored : Option Nat) (sinks : Arena Nat)
    (native : Option Nat) (calls : Nat → Call) : Prop where
  held : boxes.Holds fun i => (calls i).ownsBox = true ∨ stored = some i
  apart : ∀ i, stored = some i → (calls i).ownsBox = false ∧ calls i ≠ .idle
  boxless : ∀ i, boxes.life i = .unborn ↔ calls i = .idle
  one : sinks.Holds fun i => native = some i
  unmade : ∀ i, (calls i).made = false → sinks.life i = .unborn

def State.Storage (s : State) : Prop := Sinks.Storage s.boxes s.stored s.sinks s.native s.calls

/-- Every sink's totals are of the frames its closure was called with. -/
def Heard (s : State) : Prop :=
  ∀ i, s.totals i = (s.heard.filter (·.1 = i)).foldl (fun t e => t.record e.2) {}

/-! ### Who is inside -/

theorem State.Control.holder (h : s.Control) (hi : (s.calls i).holds = true) :
    s.lock = some i ∧ s.phase = s.calls i := by
  have hlock : s.lock = some i := (h.owns i).mp hi
  exact ⟨hlock, by rw [State.phase, hlock]⟩

section

variable {lock : Option Nat} {calls : Nat → Call} {drop : Dropping} {started : List Nat} {c : Call}

theorem Control.alive (h : Control lock calls drop started) (hc : calls i ≠ .idle)
    (hd : calls i ≠ .done) : drop = .alive := by
  by_contra hdrop
  rcases h.dropping hdrop i with hi | hi
  · exact hc hi
  · exact hd hi

/-- A call that has begun moves on, whatever it does with the lock. -/
theorem Control.goto {lock' : Option Nat} (h : Control lock calls drop started)
    (howns : Lock.Owns Call.holds lock' (Function.update calls i c)) (hold : calls i ≠ .idle)
    (hdone : calls i ≠ .done) (hnew : c ≠ .idle) :
    Control lock' (Function.update calls i c) drop started where
  owns := howns
  started j := by
    rw [h.started j]
    by_cases hj : j = i
    · subst hj
      rw [Function.update_self]
      exact iff_of_true hold hnew
    · rw [Function.update_of_ne hj]
  dropping hdrop := absurd (h.alive hold hdone) hdrop

/-- A call goes on inside the lock. -/
theorem Control.inside (h : Control lock calls drop started) (hi : (calls i).holds = true)
    (hc : c.holds = true) : Control lock (Function.update calls i c) drop started := by
  refine h.goto (h.owns.keep (hc.trans hi.symm)) ?_ ?_ ?_
  · intro hidle
    rw [hidle] at hi
    cases hi
  · intro hdone
    rw [hdone] at hi
    cases hi
  · rintro rfl
    cases hc

end

theorem control_step (h : s.Control) (hen : enabled s a) :
    (effect accepts video s a).Control := by
  cases a with
  | call i =>
      obtain ⟨halive, hidle⟩ := hen
      refine ⟨h.owns.keep (by rw [hidle]; rfl), fun j => ?_, fun hdrop => absurd halive hdrop⟩
      show j ∈ s.started ++ [i] ↔ Function.update s.calls i .waiting j ≠ _
      by_cases hj : j = i
      · subst hj
        rw [Function.update_self]
        exact iff_of_true (by simp) nofun
      · rw [Function.update_of_ne hj, List.mem_append, List.mem_singleton, or_iff_left hj,
          h.started j]
  | acquire i =>
      obtain ⟨hpc, hfree⟩ := hen
      have howns := h.owns
      rw [hfree] at howns
      exact h.goto (howns.take rfl) (by rw [hpc]; nofun) (by rw [hpc]; nofun) nofun
  | remove i =>
      have hin : (s.calls i).holds = true := by rw [hen.1]; rfl
      cases accepts with
      | true => exact h.inside hin rfl
      | false => exact h.inside hin rfl
  | replace i => exact h.inside (by rw [show s.calls i = .removed from hen]; rfl) rfl
  | add i => exact h.inside (by rw [hen.1]; rfl) rfl
  | store i => exact h.inside (by rw [show s.calls i = .added from hen]; rfl) rfl
  | setTimings i => exact h.inside (by rw [show s.calls i = .stored from hen]; rfl) rfl
  | release i =>
      have hpc : s.calls i = .timed := hen
      exact h.goto (h.owns.release (by rw [hpc]; rfl) rfl) (by rw [hpc]; nofun)
        (by rw [hpc]; nofun) nofun
  | frame | frameEnd => exact h
  | deliver passes c n =>
      simp only [effect]
      split
      · unfold State.hear
        split <;> exact h
      · exact h
  | detach =>
      refine ⟨h.owns, h.started, fun _ i => ?_⟩
      by_cases hi : s.calls i = .idle
      · exact .inl hi
      · exact .inr (hen.2.1 i ((h.started i).mpr hi))
  | delete =>
      refine ⟨h.owns, h.started, fun _ => h.dropping ?_⟩
      rw [show s.drop = .detached from hen]
      nofun
  | dropBox =>
      refine ⟨h.owns, h.started, fun _ => h.dropping ?_⟩
      rw [show s.drop = .deleted from hen]
      nofun

/-! ### What is there

A box is there from the call that makes it until it has been replaced or the track is
dropped, and a native sink from its making until it has been taken off and deleted.
-/

section

variable {boxes sinks : Arena Nat} {stored native : Option Nat} {calls : Nat → Call} {c : Call}

/-- A feature of the calls that the move of one of them does not change. -/
private theorem update_feature {β : Type} (f : Call → β) (h : f c = f (calls i)) (j : Nat) :
    f (Function.update calls i c j) = f (calls j) := by
  by_cases hj : j = i
  · subst hj
    rw [Function.update_self, h]
  · rw [Function.update_of_ne hj]

/-- A call moves on and leaves what there is alone. -/
theorem Storage.goto (h : Storage boxes stored sinks native calls)
    (hbox : c.ownsBox = (calls i).ownsBox) (hidle : c = .idle ↔ calls i = .idle)
    (hmade : c.made = false → (calls i).made = false) :
    Storage boxes stored sinks native (Function.update calls i c) where
  held := h.held.congr fun j => by rw [update_feature Call.ownsBox hbox]
  apart j hj := by
    rw [update_feature Call.ownsBox hbox, ne_eq, update_feature (· = .idle) (propext hidle)]
    exact h.apart j hj
  boxless j := by
    rw [h.boxless j, update_feature (· = .idle) (propext hidle)]
  one := h.one
  unmade j hj := by
    refine h.unmade j ?_
    by_cases hji : j = i
    · subst hji
      rw [Function.update_self] at hj
      exact hmade hj
    · rwa [Function.update_of_ne hji] at hj

/-- The closure is boxed. -/
theorem Storage.call (h : Storage boxes stored sinks native calls) (hidle : calls i = .idle) :
    Storage (boxes.alloc i) stored sinks native (Function.update calls i .waiting) where
  held := h.held.alloc ((h.boxless i).mpr hidle) fun j => by
    by_cases hj : j = i
    · subst hj
      simp [Call.ownsBox]
    · simp [hj]
  apart j hj := by
    have hne : j ≠ i := by
      rintro rfl
      exact (h.apart j hj).2 hidle
    rw [Function.update_of_ne hne]
    exact h.apart j hj
  boxless j := by
    rw [Arena.alloc_unborn, h.boxless]
    by_cases hj : j = i
    · subst hj
      simp
    · simp [hj]
  one := h.one
  unmade j hj := by
    rw [update_feature Call.made (by rw [hidle]; rfl)] at hj
    exact h.unmade j hj

/-- The new native sink is made and the old one destroyed. -/
theorem Storage.replace (h : Storage boxes stored sinks native calls)
    (hpc : calls i = .removed) :
    Storage boxes stored ((sinks.alloc i).freeAll native) (some i)
      (Function.update calls i .replaced) := by
  have hunmade : sinks.life i = .unborn := h.unmade i (by rw [hpc]; rfl)
  have hne : native ≠ some i := fun hi => h.one.ne_unborn hi hunmade
  have hpcs : ∀ j, (Function.update calls i .replaced j).ownsBox = (calls j).ownsBox :=
    update_feature Call.ownsBox (by rw [hpc]; rfl)
  have hidle : ∀ j, (Function.update calls i .replaced j = .idle) = (calls j = .idle) :=
    update_feature (· = .idle) (propext (by rw [hpc]; exact iff_of_false nofun nofun))
  have hmade : (sinks.alloc i).Holds fun j => native = some j ∨ j = i :=
    h.one.alloc hunmade fun _ => Iff.rfl
  refine ⟨h.held.congr fun j => by rw [hpcs], fun j hj => ?_, fun j => ?_, ?_, fun j hj => ?_⟩
  · rw [hpcs, ne_eq, hidle]
    exact h.apart j hj
  · rw [hidle, h.boxless]
  · refine hmade.freeAll (fun k hk => .inl hk) fun j => ?_
    constructor
    · rintro ⟨⟩
      exact ⟨.inr rfl, hne⟩
    · rintro ⟨hj | rfl, hother⟩
      · exact absurd hj hother
      · rfl
  · have hj' : j ≠ i := by
      rintro rfl
      rw [Function.update_self] at hj
      cases hj
    rw [Function.update_of_ne hj'] at hj
    rw [Arena.freeAll_unborn fun k hk => hmade.ne_unborn (.inl hk), Arena.alloc_unborn]
    exact ⟨h.unmade j hj, hj'⟩

/-- The new box is stored, which drops the old one. -/
theorem Storage.store (h : Storage boxes stored sinks native calls) (hpc : calls i = .added) :
    Storage (boxes.freeAll stored) (some i) sinks native (Function.update calls i .stored) := by
  have hmine : (calls i).ownsBox = true := by rw [hpc]; rfl
  have hne : ∀ j, stored = some j → j ≠ i := by
    rintro j hj rfl
    rw [(h.apart j hj).1] at hmine
    cases hmine
  have hidle : ∀ j, (Function.update calls i .stored j = .idle) = (calls j = .idle) :=
    update_feature (· = .idle) (propext (by rw [hpc]; exact iff_of_false nofun nofun))
  have hmade : ∀ j, (Function.update calls i .stored j).made = (calls j).made :=
    update_feature Call.made (by rw [hpc]; rfl)
  refine ⟨h.held.freeAll (fun k hk => .inr hk) fun j => ?_, ?_, fun j => ?_, h.one, fun j hj => ?_⟩
  · by_cases hj : j = i
    · subst hj
      simp only [Function.update_self]
      exact iff_of_true (.inr trivial) ⟨.inl hmine, fun hs => hne j hs rfl⟩
    · rw [Function.update_of_ne hj, Option.some.injEq, or_iff_left (Ne.symm hj)]
      constructor
      · exact fun hown => ⟨.inl hown, fun hs => by rw [(h.apart j hs).1] at hown; cases hown⟩
      · exact fun hown => hown.1.resolve_right hown.2
  · rintro j ⟨⟩
    rw [Function.update_self]
    exact ⟨rfl, nofun⟩
  · rw [hidle, ← h.boxless]
    exact Arena.freeAll_unborn (fun k hk => h.held.ne_unborn (.inr hk)) j
  · rw [hmade] at hj
    exact h.unmade j hj

/-- The native handle is deleted, its sink with it. -/
theorem Storage.delete (h : Storage boxes stored sinks native calls) :
    Storage boxes stored (sinks.freeAll native) none calls where
  held := h.held
  apart := h.apart
  boxless := h.boxless
  one := h.one.freeAll (fun _ hk => hk) fun j => by simp
  unmade j hj :=
    (Arena.freeAll_unborn (fun _ hk => h.one.ne_unborn hk) j).mpr (h.unmade j hj)

/-- The stored box is dropped, and there is no other place for one. -/
theorem Storage.dropBox (h : Storage boxes stored sinks native calls) :
    Storage (boxes.freeAll stored) none sinks native calls where
  held := h.held.freeAll (fun _ hk => .inr hk) fun j => by
    constructor
    · rintro (hown | hnone)
      · exact ⟨.inl hown, fun hs => by rw [(h.apart j hs).1] at hown; cases hown⟩
      · cases hnone
    · exact fun hown => .inl (hown.1.resolve_right hown.2)
  apart _ hj := by cases hj
  boxless j := by
    rw [← h.boxless]
    exact Arena.freeAll_unborn (fun k hk => h.held.ne_unborn (.inr hk)) j
  one := h.one
  unmade := h.unmade

end

/-! ### What points where

What is stored, what is on the broadcaster and what the timings are of need not be of one
call while the lock is held; when it is free they are.
-/

theorem phase_of_lock (hlock : s.lock = some i) : s.phase = s.calls i := by
  rw [State.phase, hlock]

/-- A call outside the lock does not change who is inside and where. -/
theorem Places.outside (h : Places accepts video s) (hphase : t.phase = s.phase)
    (hlock : t.lock = s.lock) (hstored : t.stored = s.stored) (htimings : t.timings = s.timings)
    (hnative : t.native = s.native) (hregistered : t.registered = s.registered)
    (hdelivering : ∀ l, t.delivering = some l → ∀ k ∈ l, k ∈ s.registered)
    (hdrop : t.drop = s.drop) (horder : t.order = s.order) : Places accepts video t where
  native := by rw [hnative, hdrop, hphase, hlock, hstored, ← h.native]
  registered := by rw [hregistered, hphase, hdrop, hnative, ← h.registered]
  accepting := by
    rw [hphase]
    exact h.accepting
  delivering := by
    rw [hregistered]
    exact hdelivering
  last := by
    rw [hdrop, horder, hphase, hlock, hstored]
    exact h.last
  mine := by
    rw [hphase, hstored, hlock]
    exact h.mine
  timings := by
    rw [hdrop, hphase, htimings, hstored]
    exact h.timings

theorem Places.call (h : Places accepts video s) (hc : s.Control) (hidle : s.calls i = .idle) :
    Places accepts video (effect accepts video s (.call i)) := by
  refine h.outside ?_ rfl rfl rfl rfl rfl h.delivering rfl rfl
  show (match s.lock with
    | some j => Function.update s.calls i .waiting j
    | none => Call.done) = s.phase
  unfold State.phase
  cases hlock : s.lock with
  | none => rfl
  | some j =>
      refine Function.update_of_ne ?_ ..
      rintro rfl
      have := (hc.owns j).mpr hlock
      rw [hidle] at this
      cases this

theorem Places.acquire (h : Places accepts video s) (hfree : s.lock = none) :
    Places accepts video (effect accepts video s (.acquire i)) := by
  have hphase : (effect accepts video s (.acquire i)).phase = .locked := by
    rw [phase_of_lock rfl]
    exact Function.update_self ..
  have hbefore : s.phase = .done := by rw [State.phase, hfree]
  have hnative := h.native
  have hregistered := h.registered
  have htimings := h.timings
  rw [hbefore] at hnative hregistered htimings
  refine ⟨?_, ?_, ?_, h.delivering, fun _ => ?_, ?_, fun hv hd _ => htimings hv hd nofun⟩
  · rw [hphase]
    exact hnative
  · rw [hphase]
    exact hregistered
  · rw [hphase]
    nofun
  · rw [hphase]
    exact List.getLast?_concat ..
  · rw [hphase]
    nofun

/-- With the broadcaster's lock free, or no sink of ours on it, no frame has one to go to. -/
theorem Places.idle (h : Places accepts video s) (hcan : s.canRemove) :
    ∀ l, s.delivering = some l → ∀ k ∈ l, k ∈ s.removeSink := by
  intro l hl k hk
  rcases hcan with hnone | hfree
  · rw [State.removeSink, hnone]
    exact h.delivering l hl k hk
  · rw [hfree] at hl
    cases hl

theorem Places.remove (h : Places accepts video s) (hc : s.Control) (hpc : s.calls i = .locked)
    (hcan : s.canRemove) : Places accepts video (effect accepts video s (.remove i)) := by
  obtain ⟨hlock, hphase⟩ := hc.holder (i := i) (by rw [hpc]; rfl)
  have halive : s.drop = .alive := hc.alive (by rw [hpc]; nofun) (by rw [hpc]; nofun)
  rw [hpc] at hphase
  have hnative := h.native
  have hregistered := h.registered
  have hlast := h.last
  have htimings := h.timings
  have hidle := h.idle hcan
  rw [hphase] at hnative hregistered hlast htimings
  simp only [halive] at hnative hregistered
  cases accepts with
  | true =>
      have hphase' : (effect true video s (.remove i)).phase = .removed := by
        rw [phase_of_lock (show (effect true video s (.remove i)).lock = some i from hlock)]
        exact Function.update_self ..
      have hempty : s.removeSink = [] := by
        rw [State.removeSink, hregistered]
        cases s.native <;> simp [Call.between]
      refine ⟨?_, ?_, fun _ => rfl, hidle, ?_, ?_, fun hv hd _ => htimings hv hd nofun⟩
      · rw [hphase']
        show s.native = if true && (s.drop = .alive || s.drop = .detached) then s.stored else none
        rw [halive]
        exact hnative
      · rw [hphase']
        exact hempty
      · rw [hphase']
        exact hlast
      · rw [hphase']
        nofun
  | false =>
      have hphase' : (effect false video s (.remove i)).phase = .added := by
        rw [phase_of_lock (show (effect false video s (.remove i)).lock = some i from hlock)]
        exact Function.update_self ..
      refine ⟨hnative, ?_, ?_, h.delivering, ?_, ?_, fun hv hd _ => htimings hv hd nofun⟩
      · rw [hphase']
        show s.registered = if Call.between .added || s.drop ≠ .alive then [] else s.native.toList
        rw [halive]
        exact hregistered
      · rw [hphase']
        nofun
      · rw [hphase']
        exact hlast
      · rw [hphase']
        nofun

/-- Where the holder of the lock is after a step of its own. -/
theorem phase_inside {c : Call} (hc : s.Control) (hi : (s.calls i).holds = true)
    (hlock : t.lock = s.lock) (hcalls : t.calls = Function.update s.calls i c) : t.phase = c := by
  rw [phase_of_lock (hlock.trans (hc.holder hi).1), hcalls]
  exact Function.update_self ..

theorem Places.replace (h : Places accepts video s) (hc : s.Control)
    (hpc : s.calls i = .removed) : Places accepts video (effect accepts video s (.replace i)) := by
  obtain ⟨hlock, hphase⟩ := hc.holder (i := i) (by rw [hpc]; rfl)
  have halive : s.drop = .alive := hc.alive (by rw [hpc]; nofun) (by rw [hpc]; nofun)
  have hphase' : (effect accepts video s (.replace i)).phase = .replaced :=
    phase_inside hc (by rw [hpc]; rfl) rfl rfl
  rw [hpc] at hphase
  have haccepts : accepts = true := h.accepting (by rw [hphase]; rfl)
  have hregistered := h.registered
  have hlast := h.last
  have htimings := h.timings
  rw [hphase] at hregistered hlast htimings
  refine ⟨?_, ?_, fun _ => haccepts, h.delivering, ?_, ?_, fun hv hd _ => htimings hv hd nofun⟩
  · rw [hphase']
    show some i = if accepts && (s.drop = .alive || s.drop = .detached) then s.lock else none
    rw [haccepts, halive, hlock]
    rfl
  · rw [hphase']
    exact hregistered
  · rw [hphase']
    exact hlast
  · rw [hphase']
    nofun

theorem Places.add (h : Places accepts video s) (hc : s.Control) (hpc : s.calls i = .replaced)
    (hfree : s.delivering = none) : Places accepts video (effect accepts video s (.add i)) := by
  obtain ⟨hlock, hphase⟩ := hc.holder (i := i) (by rw [hpc]; rfl)
  have halive : s.drop = .alive := hc.alive (by rw [hpc]; nofun) (by rw [hpc]; nofun)
  have hphase' : (effect accepts video s (.add i)).phase = .added :=
    phase_inside hc (by rw [hpc]; rfl) rfl rfl
  rw [hpc] at hphase
  have haccepts : accepts = true := h.accepting (by rw [hphase]; rfl)
  have hnative := h.native
  have hregistered := h.registered
  have hlast := h.last
  have htimings := h.timings
  rw [hphase] at hnative hregistered hlast htimings
  have hmine : s.native = some i := by
    rw [hnative, haccepts, halive, hlock]
    rfl
  refine ⟨?_, ?_, ?_, ?_, ?_, ?_, fun hv hd _ => htimings hv hd nofun⟩
  · rw [hphase']
    exact hnative
  · rw [hphase']
    show s.registered ++ [i] =
      if Call.between .added || s.drop ≠ .alive then [] else s.native.toList
    rw [hregistered, halive, hmine]
    rfl
  · rw [hphase']
    nofun
  · intro l hl
    cases hfree.symm.trans hl
  · rw [hphase']
    exact hlast
  · rw [hphase']
    nofun

theorem Places.store (h : Places accepts video s) (hc : s.Control) (hpc : s.calls i = .added) :
    Places accepts video (effect accepts video s (.store i)) := by
  obtain ⟨hlock, hphase⟩ := hc.holder (i := i) (by rw [hpc]; rfl)
  have hphase' : (effect accepts video s (.store i)).phase = .stored :=
    phase_inside hc (by rw [hpc]; rfl) rfl rfl
  rw [hpc] at hphase
  have hnative := h.native
  have hregistered := h.registered
  have hlast := h.last
  rw [hphase] at hnative hregistered hlast
  refine ⟨?_, ?_, ?_, h.delivering, fun hd => ?_, fun _ => hlock.symm,
    fun _ _ hne => absurd hphase' hne⟩
  · rw [hphase']
    show s.native = if accepts && (s.drop = .alive || s.drop = .detached) then some i else none
    rw [hnative, hlock]
    rfl
  · rw [hphase']
    exact hregistered
  · rw [hphase']
    nofun
  · rw [hphase']
    exact (hlast hd).trans hlock

theorem Places.setTimings (h : Places accepts video s) (hc : s.Control)
    (hpc : s.calls i = .stored) :
    Places accepts video (effect accepts video s (.setTimings i)) := by
  obtain ⟨hlock, hphase⟩ := hc.holder (i := i) (by rw [hpc]; rfl)
  have hphase' : (effect accepts video s (.setTimings i)).phase = .timed :=
    phase_inside hc (by rw [hpc]; rfl) rfl rfl
  rw [hpc] at hphase
  have hnative := h.native
  have hregistered := h.registered
  have hlast := h.last
  rw [hphase] at hnative hregistered hlast
  refine ⟨?_, ?_, ?_, h.delivering, ?_, ?_, fun hv _ _ => ?_⟩
  · rw [hphase']
    exact hnative
  · rw [hphase']
    exact hregistered
  · rw [hphase']
    nofun
  · rw [hphase']
    exact hlast
  · rw [hphase']
    nofun
  · show (if video then some i else s.timings) = s.stored
    rw [if_pos hv, h.mine hphase, hlock]

theorem Places.release (h : Places accepts video s) (hc : s.Control) (hpc : s.calls i = .timed) :
    Places accepts video (effect accepts video s (.release i)) := by
  obtain ⟨hlock, hphase⟩ := hc.holder (i := i) (by rw [hpc]; rfl)
  rw [hpc] at hphase
  have hnative := h.native
  have hregistered := h.registered
  have hlast := h.last
  have htimings := h.timings
  rw [hphase] at hnative hregistered hlast htimings
  exact ⟨hnative, hregistered, nofun, h.delivering, hlast, nofun,
    fun hv hd _ => htimings hv hd nofun⟩

/-- The drop, in its three steps. -/
theorem Places.detach (h : Places accepts video s) (hdone : s.lock = none)
    (halive : s.drop = .alive) (hcan : s.canRemove) :
    Places accepts video (effect accepts video s .detach) := by
  have hphase : s.phase = .done := by rw [State.phase, hdone]
  have hnative := h.native
  have hregistered := h.registered
  have hlast := h.last
  have htimings := h.timings
  rw [hphase, halive] at hnative hregistered hlast htimings
  have hempty : s.removeSink = [] := by
    rw [State.removeSink, hregistered]
    cases s.native <;> simp [Call.between]
  have hphase' : (effect accepts video s .detach).phase = .done := hphase
  refine ⟨?_, ?_, ?_, h.idle hcan, fun _ => ?_, ?_, fun hv _ _ => htimings hv nofun nofun⟩
  · rw [hphase']
    exact hnative
  · rw [hphase']
    exact hempty
  · rw [hphase']
    nofun
  · rw [hphase']
    exact hlast nofun
  · rw [hphase']
    nofun

theorem Places.delete (h : Places accepts video s) (hdone : s.lock = none)
    (hdrop : s.drop = .detached) : Places accepts video (effect accepts video s .delete) := by
  have hphase : s.phase = .done := by rw [State.phase, hdone]
  have hphase' : (effect accepts video s .delete).phase = .done := hphase
  have hregistered := h.registered
  have hlast := h.last
  have htimings := h.timings
  rw [hphase, hdrop] at hregistered hlast htimings
  refine ⟨?_, ?_, ?_, h.delivering, fun _ => ?_, ?_, fun hv _ _ => htimings hv nofun nofun⟩
  · show none = if accepts && (false || false) then _ else none
    rw [Bool.or_self, Bool.and_false]
    rfl
  · rw [hphase']
    exact hregistered
  · rw [hphase']
    nofun
  · rw [hphase']
    exact hlast nofun
  · rw [hphase']
    nofun

theorem Places.dropBox (h : Places accepts video s) (hdone : s.lock = none)
    (hdrop : s.drop = .deleted) : Places accepts video (effect accepts video s .dropBox) := by
  have hphase : s.phase = .done := by rw [State.phase, hdone]
  have hphase' : (effect accepts video s .dropBox).phase = .done := hphase
  have hnative := h.native
  have hregistered := h.registered
  rw [hphase, hdrop] at hnative hregistered
  have hnone : s.native = none := by
    rw [hnative]
    simp
  refine ⟨?_, ?_, ?_, h.delivering, fun hd => absurd rfl hd, ?_, fun _ hd => absurd rfl hd⟩
  · show s.native = if accepts && (false || false) then _ else none
    rw [hnone, Bool.or_self, Bool.and_false]
    rfl
  · rw [hphase']
    exact hregistered
  · rw [hphase']
    nofun
  · rw [hphase']
    nofun

/-! ### A step of any kind -/

/-- The closure behind the native sink is there, whichever end of the swap it is. -/
theorem native_boxed (hp : Places accepts video s) {k : Nat}
    (hk : s.native = some k) : (s.calls k).ownsBox = true ∨ s.stored = some k := by
  have hnative := hp.native
  rw [hk] at hnative
  split at hnative
  · split at hnative
    · rename_i hahead
      have hphase := phase_of_lock hnative.symm
      rw [hphase] at hahead
      cases hcall : s.calls k <;> rw [hcall] at hahead <;> first | exact .inl rfl | cases hahead
    · exact .inr hnative.symm
  · cases hnative

/-- A sink a frame has still to go to is the native one. -/
theorem heading_native (hp : Places accepts video s) {k : Nat} {rest : List Nat}
    (hd : s.delivering = some (k :: rest)) : s.native = some k := by
  have hk := hp.delivering _ hd k List.mem_cons_self
  rw [hp.registered] at hk
  split at hk
  · cases hk
  · exact Option.mem_toList.mp hk

/-- What a delivery has no business with. -/
theorem hear_rest (video : Bool) (s : State) (k : Nat) (rest : List Nat) (passes : Bool)
    (convert : Nat) :
    (s.hear video k rest passes convert).stored = s.stored ∧
      (s.hear video k rest passes convert).native = s.native ∧
      (s.hear video k rest passes convert).calls = s.calls ∧
      (s.hear video k rest passes convert).drop = s.drop := by
  unfold State.hear
  split <;> exact ⟨rfl, rfl, rfl, rfl⟩

/-- A delivery touches nothing that is not there. -/
theorem hear_eq (hp : Places accepts video s) (hst : s.Storage) {k : Nat}
    {rest : List Nat} (hd : s.delivering = some (k :: rest)) (passes : Bool) (convert : Nat) :
    (s.hear video k rest passes convert).boxes = s.boxes ∧
      (s.hear video k rest passes convert).sinks = s.sinks := by
  have hk := heading_native hp hd
  have hbox : s.boxes.read k = s.boxes := hst.held.read (native_boxed hp hk)
  have hsink : s.sinks.read k = s.sinks := hst.one.read hk
  unfold State.hear
  split
  · exact ⟨hbox, hsink⟩
  · exact ⟨rfl, hsink⟩

structure Inv (accepts video : Bool) (s : State) : Prop where
  control : s.Control
  places : Places accepts video s
  storage : s.Storage
  heard : video = true → Heard s
  gone : s.drop = .gone → s.stored = none

theorem storage_step (h : Inv accepts video s) (hen : enabled s a) :
    (effect accepts video s a).Storage := by
  have hst := h.storage
  -- a call on its way, past the boxing of its closure
  have hgoto : ∀ (i : Nat) (c : Call), c ≠ .idle → s.calls i ≠ .idle →
      c.ownsBox = (s.calls i).ownsBox → (c.made = false → (s.calls i).made = false) →
      Storage s.boxes s.stored s.sinks s.native (Function.update s.calls i c) :=
    fun i c hc hi hbox hmade => hst.goto hbox (iff_of_false hc hi) hmade
  cases a with
  | call i => exact hst.call hen.2
  | acquire i =>
      have hpc := hen.1
      exact hgoto i .locked nofun (by rw [hpc]; nofun) (by rw [hpc]; rfl) (by rw [hpc]; exact id)
  | remove i =>
      have hpc := hen.1
      cases accepts with
      | true =>
          exact hgoto i .removed nofun (by rw [hpc]; nofun) (by rw [hpc]; rfl)
            (by rw [hpc]; exact id)
      | false => exact hgoto i .added nofun (by rw [hpc]; nofun) (by rw [hpc]; rfl) nofun
  | replace i => exact hst.replace hen
  | add i =>
      have hpc := hen.1
      exact hgoto i .added nofun (by rw [hpc]; nofun) (by rw [hpc]; rfl) nofun
  | store i => exact hst.store hen
  | setTimings i =>
      have hpc : s.calls i = .stored := hen
      exact hgoto i .timed nofun (by rw [hpc]; nofun) (by rw [hpc]; rfl) nofun
  | release i =>
      have hpc : s.calls i = .timed := hen
      exact hgoto i .done nofun (by rw [hpc]; nofun) (by rw [hpc]; rfl) nofun
  | frame | frameEnd | detach => exact hst
  | deliver passes c n =>
      simp only [effect]
      split
      · rename_i k rest hd
        obtain ⟨hboxes, hsinks⟩ := hear_eq h.places hst hd passes (convertTime c n)
        obtain ⟨hstored, hnative, hcalls, -⟩ := hear_rest video s k rest passes
          (convertTime c n)
        rw [State.Storage, hboxes, hsinks, hstored, hnative, hcalls]
        exact hst
      · exact hst
  | delete => exact hst.delete
  | dropBox => exact hst.dropBox

theorem Control.unlocked (hc : s.Control) (hdrop : s.drop ≠ .alive) : s.lock = none := by
  cases hlock : s.lock with
  | none => rfl
  | some i =>
      have hi := (hc.owns i).mpr hlock
      rcases hc.dropping hdrop i with hpc | hpc <;> rw [hpc] at hi <;> cases hi

theorem places_step (h : Inv accepts video s) (hen : enabled s a) :
    Places accepts video (effect accepts video s a) := by
  have hp := h.places
  have hc := h.control
  cases a with
  | call i => exact hp.call hc hen.2
  | acquire i => exact hp.acquire hen.2
  | remove i => exact hp.remove hc hen.1 hen.2
  | replace i => exact hp.replace hc hen
  | add i => exact hp.add hc hen.1 hen.2
  | store i => exact hp.store hc hen
  | setTimings i => exact hp.setTimings hc hen
  | release i => exact hp.release hc hen
  | frame =>
      refine hp.outside rfl rfl rfl rfl rfl rfl (fun l hl k hk => ?_) rfl rfl
      obtain rfl := Option.some.inj hl
      exact hk
  | frameEnd =>
      refine hp.outside rfl rfl rfl rfl rfl rfl (fun l hl => ?_) rfl rfl
      cases hl
  | deliver passes c n =>
      simp only [effect]
      split
      · rename_i k rest hd
        have hsub : ∀ l, some rest = some l → ∀ j ∈ l, j ∈ s.registered := by
          rintro l ⟨⟩ j hj
          exact hp.delivering _ hd j (List.mem_cons_of_mem k hj)
        unfold State.hear
        split <;> exact hp.outside rfl rfl rfl rfl rfl rfl hsub rfl rfl
      · exact hp
  | detach =>
      obtain ⟨halive, hdone, hcan⟩ := hen
      refine hp.detach ?_ halive hcan
      cases hlock : s.lock with
      | none => rfl
      | some i =>
          have hi := (hc.owns i).mpr hlock
          have hstarted : i ∈ s.started := (hc.started i).mpr fun hidle => by
            rw [hidle] at hi
            cases hi
          rw [hdone i hstarted] at hi
          cases hi
  | delete =>
      have hdrop : s.drop = .detached := hen
      exact hp.delete (Control.unlocked hc (by rw [hdrop]; nofun)) hdrop
  | dropBox =>
      have hdrop : s.drop = .deleted := hen
      exact hp.dropBox (Control.unlocked hc (by rw [hdrop]; nofun)) hdrop

theorem heard_step (h : Heard s) (hvideo : video = true) :
    Heard (effect accepts video s a) := by
  cases a with
  | deliver passes c n =>
      simp only [effect]
      split
      · rename_i k rest hd
        unfold State.hear
        split
        · intro i
          simp only [List.filter_append]
          by_cases hi : i = k
          · subst hi
            simp [h i]
          · rw [Function.update_of_ne hi, h i]
            simp [Ne.symm hi]
        · exact h
      · exact h
  | remove i => cases accepts <;> exact h
  | _ => exact h

theorem gone_step (h : Inv accepts video s) (hen : enabled s a)
    (hgone : (effect accepts video s a).drop = .gone) :
    (effect accepts video s a).stored = none := by
  cases a with
  | store i =>
      have hpc : s.calls i = .added := hen
      have halive := Control.alive h.control (i := i) (by rw [hpc]; nofun) (by rw [hpc]; nofun)
      cases halive.symm.trans hgone
  | remove i => cases accepts <;> exact h.gone hgone
  | deliver passes c n =>
      obtain ⟨l, hd⟩ := Option.ne_none_iff_exists'.mp hen.1
      cases l with
      | nil => exact absurd hd hen.2
      | cons k rest =>
          simp only [effect, hd] at hgone ⊢
          obtain ⟨hstored, -, -, hdrop⟩ := hear_rest video s k rest passes
            (convertTime c n)
          rw [hdrop] at hgone
          rw [hstored, h.gone hgone]
  | detach | delete => cases hgone
  | dropBox => rfl
  | _ => exact h.gone hgone

theorem inv_start : Inv accepts video {} where
  control := ⟨fun i => iff_of_false nofun nofun, fun i => iff_of_false nofun (absurd rfl),
    fun _ _ => .inl rfl⟩
  places := ⟨by simp [State.phase, Call.ahead], rfl, nofun, nofun, fun _ => rfl, nofun,
    fun _ _ _ => rfl⟩
  storage := ⟨.congr .empty fun i => by simp [Call.ownsBox], nofun, fun _ => iff_of_true rfl rfl,
    .congr .empty fun i => by simp, fun _ _ => rfl⟩
  heard _ _ := rfl
  gone := nofun

theorem inv_step (s : State) (a : Action) (t : State) (h : Inv accepts video s)
    (hstep : (machine accepts video).step s a = some t) : Inv accepts video t := by
  obtain ⟨hen, rfl⟩ := Machine.ofEffect_step.mp hstep
  exact ⟨control_step h.control hen, places_step h hen, storage_step h hen,
    fun hv => heard_step (h.heard hv) hv, gone_step h hen⟩

theorem inv_of_reachable (h : (machine accepts video).Reachable s) : Inv accepts video s :=
  Machine.invariant inv_start inv_step h

/-! ### What comes of it -/

/-- What `sink_timings` reads. -/
def State.sinkTimings (s : State) : VideoSinkTimings :=
  match s.timings with
  | some i => s.totals i
  | none => {}

/-- The totals of the frames that one call's closure was called with. -/
def State.heardBy (s : State) (i : Nat) : VideoSinkTimings :=
  (s.heard.filter (·.1 = i)).foldl (fun t e => t.record e.2) {}

/--
**No frame reaches a sink that is gone, and the last sink attached is the one that stays.**  In
every interleaving of attach calls, deliveries and the drop of the track, no closure or native
sink is called, freed or made again when it is not there to be.  Whenever the lock is free the
stored closure is that of the call that took it last, on the broadcaster is its native sink and
no other, and a reading of the timings is of the frames that closure was called with.  Once the
track is dropped, nothing that it was given is left.
-/
theorem sinks_safe (accepts video : Bool) (s : State)
    (h : (machine accepts video).Reachable s) :
    s.boxes.stale = 0 ∧ s.sinks.stale = 0 ∧
      (s.lock = none → s.drop = .alive →
        s.stored = s.order.getLast? ∧
        s.registered = (if accepts then s.stored.toList else []) ∧
        (video = true → ∀ i, s.stored = some i → s.sinkTimings = s.heardBy i)) ∧
      (s.drop = .gone → s.registered = [] ∧
        ∀ i, s.boxes.life i ≠ .live ∧ s.sinks.life i ≠ .live) := by
  have hinv := inv_of_reachable h
  obtain ⟨hc, hp, hst, hheard, hdropped⟩ := hinv
  refine ⟨hst.held.stale, hst.one.stale, fun hfree halive => ?_, fun hgone => ?_⟩
  · have hphase : s.phase = .done := by rw [State.phase, hfree]
    have hnative := hp.native
    have hregistered := hp.registered
    have hlast := hp.last
    have htimings := hp.timings
    rw [hphase, halive] at hnative hregistered hlast htimings
    refine ⟨(hlast nofun).symm, ?_, fun hv i hi => ?_⟩
    · rw [hregistered, hnative]
      cases accepts <;> rfl
    · rw [State.sinkTimings, htimings hv nofun nofun, hi]
      exact hheard hv i
  · have hnone : s.native = none := by
      rw [hp.native, hgone]
      simp
    refine ⟨?_, fun i => ⟨?_, ?_⟩⟩
    · rw [hp.registered, hgone]
      simp
    · rw [ne_eq, hst.held.live, hdropped hgone]
      rcases hc.dropping (by rw [hgone]; nofun) i with hi | hi <;> simp [hi, Call.ownsBox]
    · rw [ne_eq, hst.one.live, hnone]
      nofun

/-- Call 1 waits for call 0, and then for the frame that is going round. -/
theorem sinks_safe_swapped : ∃ s, (machine true true).Reachable s ∧ s.stored = some 1 ∧
    s.registered = [1] ∧ s.boxes.stale = 0 := by
  have h : (machine true true).Reachable _ :=
    ⟨[.call 0, .call 1, .acquire 0, .remove 0, .replace 0, .add 0, .store 0, .setTimings 0,
      .release 0, .frame, .acquire 1, .deliver true 5 7, .frameEnd, .remove 1, .replace 1, .add 1,
      .store 1, .setTimings 1, .release 1], rfl⟩
  exact ⟨_, h, rfl, rfl, (sinks_safe true true _ h).1⟩

end Sinks

end ReactorWebrtc
