/-
Closures that call back into their own track.

A closure runs on the thread that delivers the frame, under the broadcaster's lock.  What it
does there is the caller's, and this machine has the one thing that can matter to the track:
it may attach a sink to it, from inside, and go on when that call has returned.  Reading the
timings is no such thing, as the lock they have is held only to swap them; and whatever else a
closure does is taken to return.

The steps of the track are those of `Sinks`, so what holds there holds here (`run_track`).  A
delivery that passes the frame on is two steps now, the closure's call and its return, with
any number of calls of its own between, and the frame goes no further before it returns.

Everything the parties do comes to an end, unless a closure waits for an attach of its own
track: that call must take the old sink off the broadcaster, and waits for the lock that the
frame holds, which waits for the closure.  `attach_finishes` has both halves.  Without such a
closure every run in which nobody starts anything new is bounded, and can be gone on with until
all calls have returned; with one, nothing that anybody does brings its call to an end.
-/
import ReactorWebrtc.Media.Sinks

namespace ReactorWebrtc.SinkClosures

open Sinks (Call)

/-- A closure that runs: whose it is, and the call of its own that it waits for. -/
structure Running where
  sink : Nat
  waitsFor : Option Nat := none
  deriving DecidableEq, Repr

structure State where
  track : Sinks.State := {}
  running : Option Running := none

inductive Action
  /-- A step of the track, or of a call from elsewhere. -/
  | track (a : Sinks.Action)
  /-- The closure attaches a sink to its own track: call `i`. -/
  | asks (i : Nat)
  /-- That call has returned. -/
  | resumes
  | returns
  deriving DecidableEq, Repr

/-- The call that the closure waits for. -/
def State.waitsFor (s : State) : Option Nat := s.running.bind (·.waitsFor)

/-- A closure runs and waits for nothing. -/
def State.atWork (s : State) : Bool := s.running.any (·.waitsFor.isNone)

/-- The frame's own steps, which are those of the thread that the closure runs on. -/
def ofFrame : Sinks.Action → Bool
  | .deliver .. | .frameEnd => true
  | _ => false

def enabled (s : State) : Action → Prop
  | .track a => Sinks.enabled s.track a ∧ (ofFrame a = true → s.running = none)
  | .asks i => s.atWork = true ∧ Sinks.enabled s.track (.call i)
  | .resumes => s.waitsFor.any (fun i => s.track.calls i = .done) = true
  | .returns => s.atWork = true

instance (s : State) : ∀ a, Decidable (enabled s a)
  | .track _ | .asks _ => inferInstanceAs (Decidable (_ ∧ _))
  | .resumes | .returns => inferInstanceAs (Decidable (_ = _))

/-- The closure that a step calls, if it calls one. -/
def called (s : Sinks.State) : Sinks.Action → Option Running
  | .deliver true _ _ => (s.delivering.bind List.head?).map fun k => { sink := k }
  | _ => none

def effect (accepts video : Bool) (s : State) : Action → State
  | .track a =>
    { track := Sinks.effect accepts video s.track a, running := s.running.or (called s.track a) }
  | .asks i =>
    { track := Sinks.effect accepts video s.track (.call i)
      running := s.running.map fun r => { r with waitsFor := some i } }
  | .resumes => { s with running := s.running.map fun r => { r with waitsFor := none } }
  | .returns => { s with running := none }

def machine (accepts video : Bool) : Machine State Action :=
  .ofEffect {} enabled (effect accepts video)

variable {accepts video : Bool} {s t : State} {i : Nat} {a : Action}

/-! ### The track underneath

A step is one of the track's or leaves the track alone, so a reachable state has a track that
`Sinks` can reach.
-/

/-- What a step is to the track. -/
def proj : Action → Option Sinks.Action
  | .track a => some a
  | .asks i => some (.call i)
  | .resumes | .returns => none

theorem run_track {as : List Action} (hrun : (machine accepts video).run {} as = some s) :
    (Sinks.machine accepts video).run {} (as.filterMap proj) = some s.track := by
  refine Machine.run_project (π := State.track) (fun s a t b hstep hb => ?_)
    (fun s a t hstep hb => ?_) hrun
  · obtain ⟨hen, rfl⟩ := Machine.ofEffect_step.mp hstep
    refine Machine.ofEffect_step.mpr ?_
    cases a with
    | track a =>
        obtain rfl := Option.some.inj hb
        exact ⟨hen.1, rfl⟩
    | asks i =>
        obtain rfl := Option.some.inj hb
        exact ⟨hen.2, rfl⟩
    | resumes | returns => cases hb
  · obtain ⟨-, rfl⟩ := Machine.ofEffect_step.mp hstep
    cases a with
    | track a | asks i => cases hb
    | resumes | returns => rfl

/-! ### A closure that runs

The frame it has is under way, and came from a sink on the broadcaster.  That sink is the
track's own, so nobody can take it off; a call that comes this far stays there.
-/

/-- What is so while a closure runs. -/
structure Busy (s : Sinks.State) : Prop where
  frame : s.delivering ≠ none
  sink : s.registered ≠ []

structure Inv (accepts video : Bool) (s : State) : Prop where
  track : Sinks.Inv accepts video s.track
  busy : s.running ≠ none → Busy s.track
  /-- The call that a closure waits for has not come past the lock's holder, or is he. -/
  waits : ∀ i, s.waitsFor = some i → s.track.calls i = .waiting ∨ s.track.calls i = .locked

/-- While a closure runs, no sink can be taken off. -/
theorem Busy.not_canRemove {s : Sinks.State} (h : Busy s) (hinv : Sinks.Inv accepts video s) :
    ¬ s.canRemove := by
  rintro (hnone | hfree)
  · refine h.sink ?_
    rw [hinv.places.registered, hnone]
    split <;> rfl
  · exact h.frame hfree

/-- A step of the track that is not the frame's leaves the frame and its sink where they are. -/
theorem Busy.step {s : Sinks.State} {a : Sinks.Action} (h : Busy s)
    (hinv : Sinks.Inv accepts video s) (hen : Sinks.enabled s a) (hframe : ofFrame a = false) :
    Busy (Sinks.effect accepts video s a) := by
  cases a with
  | remove i => exact absurd hen.2 (h.not_canRemove hinv)
  | add i => exact absurd hen.2 h.frame
  | frame => exact absurd hen h.frame
  | deliver passes c n | frameEnd => cases hframe
  | detach => exact absurd hen.2.2 (h.not_canRemove hinv)
  | call i | acquire i | replace i | store i | setTimings i | release i | delete | dropBox =>
      exact ⟨h.frame, h.sink⟩

/-- Nor does it bring the waiting call any further than into the lock. -/
theorem Busy.waits {s : Sinks.State} {a : Sinks.Action} (h : Busy s)
    (hinv : Sinks.Inv accepts video s) (hen : Sinks.enabled s a) (hframe : ofFrame a = false)
    (hi : s.calls i = .waiting ∨ s.calls i = .locked) :
    (Sinks.effect accepts video s a).calls i = .waiting ∨
      (Sinks.effect accepts video s a).calls i = .locked := by
  -- a call moves from where it is, and that is not where this one is
  have hother : ∀ (j : Nat) (c : Call), s.calls j ≠ .waiting → s.calls j ≠ .locked →
      (s.goto j c).calls i = .waiting ∨ (s.goto j c).calls i = .locked := by
    intro j c hwaiting hlocked
    rw [Sinks.goto_of_ne s c]
    · exact hi
    · rintro rfl
      exact hi.elim hwaiting hlocked
  cases a with
  | call j => exact hother j .waiting (by rw [hen.2]; nofun) (by rw [hen.2]; nofun)
  | acquire j =>
      by_cases hj : i = j
      · exact .inr (by rw [hj]; exact Sinks.goto_self s j .locked)
      · exact (Sinks.goto_of_ne s .locked hj).symm ▸ hi
  | remove j => exact absurd hen.2 (h.not_canRemove hinv)
  | add j => exact absurd hen.2 h.frame
  | replace j =>
      exact hother j .replaced (by rw [show s.calls j = .removed from hen]; nofun)
        (by rw [show s.calls j = .removed from hen]; nofun)
  | store j =>
      exact hother j .stored (by rw [show s.calls j = .added from hen]; nofun)
        (by rw [show s.calls j = .added from hen]; nofun)
  | setTimings j =>
      exact hother j .timed (by rw [show s.calls j = .stored from hen]; nofun)
        (by rw [show s.calls j = .stored from hen]; nofun)
  | release j =>
      exact hother j .done (by rw [show s.calls j = .timed from hen]; nofun)
        (by rw [show s.calls j = .timed from hen]; nofun)
  | deliver passes c n | frameEnd => cases hframe
  | frame | detach | delete | dropBox => exact hi

/-- A closure that was called just now waits for nothing. -/
theorem called_waitsFor (s : Sinks.State) (a : Sinks.Action) :
    (called s a).bind (·.waitsFor) = none := by
  unfold called
  split
  · cases s.delivering.bind List.head? <;> rfl
  · rfl

theorem inv_start : Inv accepts video {} where
  track := Sinks.inv_start
  busy h := absurd rfl h
  waits i h := by cases h

/-- A delivery calls the closure of a sink that is on the broadcaster. -/
theorem called_busy {s : Sinks.State} {a : Sinks.Action} (hinv : Sinks.Inv accepts video s)
    (hcalled : called s a ≠ none) : Busy (Sinks.effect accepts video s a) := by
  cases a with
  | deliver passes c n =>
      cases passes with
      | false => exact absurd rfl hcalled
      | true =>
          unfold called at hcalled
          cases hd : s.delivering with
          | none =>
              rw [hd] at hcalled
              exact absurd rfl hcalled
          | some l =>
              rw [hd] at hcalled
              cases l with
              | nil => exact absurd rfl hcalled
              | cons k rest =>
                  have hk := hinv.places.delivering _ hd k List.mem_cons_self
                  unfold Sinks.effect
                  rw [hd]
                  exact ⟨nofun, List.ne_nil_of_mem hk⟩
  | _ => exact absurd rfl hcalled

theorem inv_step (s : State) (a : Action) (t : State) (h : Inv accepts video s)
    (hstep : (machine accepts video).step s a = some t) : Inv accepts video t := by
  obtain ⟨hen, rfl⟩ := Machine.ofEffect_step.mp hstep
  cases a with
  | track a =>
      have htrack : Sinks.Inv accepts video (Sinks.effect accepts video s.track a) :=
        Sinks.inv_step _ _ _ h.track (Machine.ofEffect_step.mpr ⟨hen.1, rfl⟩)
      cases hrunning : s.running with
      | none =>
          have hafter : (effect accepts video s (.track a)).running = called s.track a := by
            simp only [effect, hrunning, Option.none_or]
          refine ⟨htrack, fun hcalled => called_busy h.track (hafter ▸ hcalled), fun i hi => ?_⟩
          rw [State.waitsFor, hafter, called_waitsFor] at hi
          cases hi
      | some r =>
          have hbusy := h.busy (by rw [hrunning]; nofun)
          have hframe : ofFrame a = false := by
            refine Bool.eq_false_iff.mpr fun hframe => ?_
            rw [hen.2 hframe] at hrunning
            cases hrunning
          have hafter : (effect accepts video s (.track a)).running = s.running := by
            simp only [effect, hrunning, Option.some_or]
          refine ⟨htrack, fun _ => hbusy.step h.track hen.1 hframe, fun i hi => ?_⟩
          rw [State.waitsFor, hafter] at hi
          exact hbusy.waits h.track hen.1 hframe (h.waits i hi)
  | asks j =>
      have htrack : Sinks.Inv accepts video (Sinks.effect accepts video s.track (.call j)) :=
        Sinks.inv_step _ _ _ h.track (Machine.ofEffect_step.mpr ⟨hen.2, rfl⟩)
      have hsome : s.running ≠ none := by
        intro hnone
        have hwork := hen.1
        rw [State.atWork, hnone] at hwork
        cases hwork
      have hbusy := h.busy hsome
      refine ⟨htrack, fun _ => hbusy.step h.track hen.2 rfl, fun i hi => ?_⟩
      obtain ⟨r, hr, hwaits⟩ := Option.bind_eq_some_iff.mp hi
      obtain ⟨r', -, rfl⟩ := Option.map_eq_some_iff.mp hr
      obtain rfl := Option.some.inj hwaits
      exact .inl (Sinks.goto_self s.track j .waiting)
  | resumes =>
      refine ⟨h.track, fun hsome => h.busy fun hnone => hsome ?_, fun i hi => ?_⟩
      · simp only [effect, hnone, Option.map_none]
      · obtain ⟨r, hr, hwaits⟩ := Option.bind_eq_some_iff.mp hi
        obtain ⟨r', -, rfl⟩ := Option.map_eq_some_iff.mp hr
        cases hwaits
  | returns =>
      refine ⟨h.track, fun hsome => absurd rfl hsome, fun i hi => ?_⟩
      cases hi

theorem inv_of_reachable (h : (machine accepts video).Reachable s) : Inv accepts video s :=
  Machine.invariant inv_start inv_step h

/-- A closure that waits does not go on: its call is not done. -/
theorem Inv.not_resumes (h : Inv accepts video s) : ¬ enabled s .resumes := by
  intro hen
  obtain ⟨i, hi, hdone⟩ := (Option.any_eq_true _ _).mp hen
  rw [decide_eq_true_iff] at hdone
  rcases h.waits i hi with hpc | hpc
  · rw [hpc] at hdone
    cases hdone
  · rw [hpc] at hdone
    cases hdone

/-- **A call that a closure waits for is never done.** -/
theorem waits_forever (h : Inv accepts video s) (hi : s.waitsFor = some i) {as : List Action}
    (hrun : (machine accepts video).run s as = some t) :
    Inv accepts video t ∧ t.waitsFor = some i := by
  refine Machine.run_invariant (I := fun s => Inv accepts video s ∧ s.waitsFor = some i)
    (fun s a t hs hstep => ⟨inv_step s a t hs.1 hstep, ?_⟩) ⟨h, hi⟩ hrun
  obtain ⟨hinv, hwaits⟩ := hs
  obtain ⟨hen, rfl⟩ := Machine.ofEffect_step.mp hstep
  obtain ⟨r, hr, hri⟩ := Option.bind_eq_some_iff.mp hwaits
  have hidle : s.atWork = false := by
    rw [State.atWork, hr, Option.any_some, hri]
    rfl
  cases a with
  | track a =>
      rw [State.waitsFor]
      simp only [effect, hr, Option.some_or]
      exact hri
  | asks j =>
      have hwork := hen.1
      rw [hidle] at hwork
      cases hwork
  | resumes => exact absurd hen hinv.not_resumes
  | returns =>
      have hwork : s.atWork = true := hen
      rw [hidle] at hwork
      cases hwork

/-! ### How far everything has to go

Every step that starts nothing new leaves less to do, whoever takes it and whether or not the
frame is passed on; and as long as no closure waits, somebody can take one.
-/

/-- The steps that start nothing new. -/
def Action.settles : Action → Bool
  | .track (.call _) | .track .frame | .track .detach | .track .delete | .track .dropBox
  | .asks _ => false
  | _ => true

/-- How many steps a call has to go. -/
def callLeft : Call → Nat
  | .waiting => 7
  | .locked => 6
  | .removed => 5
  | .replaced => 4
  | .added => 3
  | .stored => 2
  | .timed => 1
  | .idle | .done => 0

/-- A sink that the frame has still to go to may have its closure called. -/
def toDeliver : Option (List Nat) → Nat
  | some l => 2 * l.length + 1
  | none => 0

/-- How many steps there are to be taken. -/
def State.left (s : State) : Nat :=
  (s.track.started.map fun i => callLeft (s.track.calls i)).sum + toDeliver s.track.delivering +
    s.running.isSome.toNat

/-- Nothing that was started is under way. -/
def State.Settled (s : State) : Prop :=
  s.running = none ∧ s.track.delivering = none ∧ ∀ i ∈ s.track.started, s.track.calls i = .done

theorem sum_update_lt {calls : Nat → Call} {c : Call} {l : List Nat} (hi : i ∈ l)
    (hless : callLeft c < callLeft (calls i)) :
    (l.map fun j => callLeft (Function.update calls i c j)).sum <
      (l.map fun j => callLeft (calls j)).sum := by
  have hle : ∀ j, callLeft (Function.update calls i c j) ≤ callLeft (calls j) := by
    intro j
    by_cases hj : j = i
    · rw [hj, Function.update_self]
      exact Nat.le_of_lt hless
    · rw [Function.update_of_ne hj]
  have hall : ∀ l : List Nat, (l.map fun j => callLeft (Function.update calls i c j)).sum ≤
      (l.map fun j => callLeft (calls j)).sum := by
    intro l
    induction l with
    | nil => exact Nat.le_refl _
    | cons j l ih =>
        rw [List.map_cons, List.map_cons, List.sum_cons, List.sum_cons]
        exact Nat.add_le_add (hle j) ih
  induction l with
  | nil => cases hi
  | cons j l ih =>
      rw [List.map_cons, List.map_cons, List.sum_cons, List.sum_cons]
      rcases List.mem_cons.mp hi with rfl | hi
      · rw [Function.update_self]
        exact Nat.add_lt_add_of_lt_of_le hless (hall l)
      · exact Nat.add_lt_add_of_le_of_lt (hle j) (ih hi)

/-- Where no call moves, what there is to do changes with the frame and the closure. -/
theorem left_of_frame (hstarted : t.track.started = s.track.started)
    (hcalls : t.track.calls = s.track.calls) :
    t.left + toDeliver s.track.delivering + s.running.isSome.toNat =
      s.left + toDeliver t.track.delivering + t.running.isSome.toNat := by
  unfold State.left
  rw [hstarted, hcalls]
  omega

/-- A call that moves on leaves less to do. -/
theorem goto_left {track : Sinks.State} {c : Call} (hinv : Sinks.Inv accepts video s.track)
    (hstarted : track.started = s.track.started)
    (hcalls : track.calls = Function.update s.track.calls i c)
    (hframe : track.delivering = s.track.delivering)
    (hless : callLeft c < callLeft (s.track.calls i)) :
    ({ track, running := s.running } : State).left < s.left := by
  have hi : i ∈ s.track.started := by
    refine (hinv.control.started i).mpr fun hidle => ?_
    rw [hidle] at hless
    cases hless
  unfold State.left
  dsimp only
  rw [hstarted, hcalls, hframe]
  have hsum := sum_update_lt hi hless
  omega

/-- What a delivery leaves of the track. -/
theorem deliver_left {track : Sinks.State} {k : Nat} {rest : List Nat} {passes : Bool} {c : Int}
    {n : Nat} (hd : track.delivering = some (k :: rest)) :
    (Sinks.effect accepts video track (.deliver passes c n)).started = track.started ∧
      (Sinks.effect accepts video track (.deliver passes c n)).calls = track.calls ∧
      (Sinks.effect accepts video track (.deliver passes c n)).delivering = some rest := by
  simp only [Sinks.effect, hd]
  unfold Sinks.State.hear
  split <;> exact ⟨rfl, rfl, rfl⟩

/-- Every step that starts nothing new leaves less to do. -/
theorem settles_left (s : State) (a : Action) (t : State) (ha : a.settles = true)
    (h : Inv accepts video s) (hstep : (machine accepts video).step s a = some t) :
    t.left < s.left := by
  obtain ⟨hen, rfl⟩ := Machine.ofEffect_step.mp hstep
  -- a call of the track, which calls no closure
  have hcall : ∀ (b : Sinks.Action) (i : Nat) (c : Call), called s.track b = none →
      (Sinks.effect accepts video s.track b).started = s.track.started →
      (Sinks.effect accepts video s.track b).calls = Function.update s.track.calls i c →
      (Sinks.effect accepts video s.track b).delivering = s.track.delivering →
      callLeft c < callLeft (s.track.calls i) →
      (effect accepts video s (.track b)).left < s.left := by
    intro b i c hnone hstarted hcalls hframe hless
    rw [effect, hnone, Option.or_none]
    exact goto_left h.track hstarted hcalls hframe hless
  cases a with
  | asks i => cases ha
  | resumes => exact absurd hen h.not_resumes
  | returns =>
      obtain ⟨r, hr, -⟩ := (Option.any_eq_true _ _).mp hen
      show ({ s with running := none } : State).left < s.left
      unfold State.left
      rw [hr]
      exact Nat.lt_succ_self _
  | track b =>
      obtain ⟨hen, hthread⟩ := hen
      cases b with
      | acquire i => exact hcall (.acquire i) i .locked rfl rfl rfl rfl (by rw [hen.1]; decide)
      | remove i =>
          cases accepts with
          | true => exact hcall (.remove i) i .removed rfl rfl rfl rfl (by rw [hen.1]; decide)
          | false => exact hcall (.remove i) i .added rfl rfl rfl rfl (by rw [hen.1]; decide)
      | replace i =>
          exact hcall (.replace i) i .replaced rfl rfl rfl rfl
            (by rw [show s.track.calls i = .removed from hen]; decide)
      | add i => exact hcall (.add i) i .added rfl rfl rfl rfl (by rw [hen.1]; decide)
      | store i =>
          exact hcall (.store i) i .stored rfl rfl rfl rfl
            (by rw [show s.track.calls i = .added from hen]; decide)
      | setTimings i =>
          exact hcall (.setTimings i) i .timed rfl rfl rfl rfl
            (by rw [show s.track.calls i = .stored from hen]; decide)
      | release i =>
          exact hcall (.release i) i .done rfl rfl rfl rfl
            (by rw [show s.track.calls i = .timed from hen]; decide)
      | deliver passes c n =>
          have hnone := hthread rfl
          obtain ⟨l, hd⟩ := Option.ne_none_iff_exists'.mp hen.1
          cases l with
          | nil => exact absurd hd hen.2
          | cons k rest =>
              obtain ⟨hstarted, hcalls, hframe⟩ :=
                @deliver_left accepts video s.track k rest passes c n hd
              have hleft := left_of_frame (s := s)
                (t := effect accepts video s (.track (.deliver passes c n))) hstarted hcalls
              have hone := Bool.toNat_le
                (effect accepts video s (.track (.deliver passes c n))).running.isSome
              have hafter : (effect accepts video s (.track (.deliver passes c n))).track.delivering
                  = some rest := hframe
              rw [hafter, hd, hnone, toDeliver, toDeliver, List.length_cons] at hleft
              simp only [Option.isSome_none, Bool.toNat_false] at hleft
              omega
      | frameEnd =>
          have hd : s.track.delivering = some [] := hen
          have hleft := left_of_frame (s := s) (t := effect accepts video s (.track .frameEnd))
            rfl rfl
          have hrunning : (effect accepts video s (.track .frameEnd)).running = s.running :=
            Option.or_none
          have hafter : (effect accepts video s (.track .frameEnd)).track.delivering = none := rfl
          rw [hafter, hrunning, hd, toDeliver, toDeliver] at hleft
          simp only [List.length_nil] at hleft
          omega
      | call i | frame | detach | delete | dropBox => cases ha

/-! ### Somebody can go on -/

/-- Whoever is inside the lock can go on when no frame is under way. -/
theorem inside_enabled {s : Sinks.State} (hd : s.delivering = none)
    (hi : (s.calls i).holds = true) :
    ∃ a, Action.settles (.track a) = true ∧ ofFrame a = false ∧ Sinks.enabled s a := by
  cases hpc : s.calls i with
  | idle | waiting | done =>
      rw [hpc] at hi
      cases hi
  | locked => exact ⟨.remove i, rfl, rfl, hpc, .inr hd⟩
  | removed => exact ⟨.replace i, rfl, rfl, hpc⟩
  | replaced => exact ⟨.add i, rfl, rfl, hpc, hd⟩
  | added => exact ⟨.store i, rfl, rfl, hpc⟩
  | stored => exact ⟨.setTimings i, rfl, rfl, hpc⟩
  | timed => exact ⟨.release i, rfl, rfl, hpc⟩

/-- As long as no closure waits, somebody can go on, or nothing is under way. -/
theorem settled_or_enabled (h : Inv accepts video s) (hwaits : s.waitsFor = none) :
    s.Settled ∨ ∃ a, a.settles = true ∧ enabled s a := by
  cases hrunning : s.running with
  | some r =>
      refine .inr ⟨.returns, rfl, ?_⟩
      rw [State.waitsFor, hrunning, Option.bind_some] at hwaits
      show s.atWork = true
      rw [State.atWork, hrunning, Option.any_some, hwaits]
      rfl
  | none =>
      cases hd : s.track.delivering with
      | some l =>
          cases l with
          | nil => exact .inr ⟨.track .frameEnd, rfl, hd, fun _ => hrunning⟩
          | cons k rest =>
              refine .inr ⟨.track (.deliver true 0 0), rfl, ⟨?_, ?_⟩, fun _ => hrunning⟩
              · rw [hd]
                nofun
              · rw [hd]
                nofun
      | none =>
          by_cases hdone : ∀ i ∈ s.track.started, s.track.calls i = .done
          · exact .inl ⟨hrunning, hd, hdone⟩
          · refine .inr ?_
            obtain ⟨i, hi⟩ := not_forall.mp hdone
            obtain ⟨hstarted, hpc⟩ := Classical.not_imp.mp hi
            cases hlock : s.track.lock with
            | some j =>
                obtain ⟨a, ha, hframe, hen⟩ :=
                  inside_enabled hd ((h.track.control.owns j).mpr hlock)
                exact ⟨.track a, ha, hen, fun htrue => absurd (hframe.symm.trans htrue) nofun⟩
            | none =>
                -- nobody is inside, so a call that is not done is still at the lock
                have hout : (s.track.calls i).holds = false := by
                  refine Bool.eq_false_iff.mpr fun hin => ?_
                  rw [(h.track.control.owns i).mp hin] at hlock
                  cases hlock
                have hidle := (h.track.control.started i).mp hstarted
                refine ⟨.track (.acquire i), rfl, ⟨?_, hlock⟩, nofun⟩
                cases hcall : s.track.calls i with
                | waiting => rfl
                | idle => exact absurd hcall hidle
                | done => exact absurd hcall hpc
                | locked | removed | replaced | added | stored | timed =>
                    rw [hcall] at hout
                    cases hout

/-- A closure waits only if it asks. -/
theorem settles_waitsFor {a : Action} (ha : a.settles = true) (h : Inv accepts video s)
    (hstep : (machine accepts video).step s a = some t) (hwaits : s.waitsFor = none) :
    t.waitsFor = none := by
  obtain ⟨hen, rfl⟩ := Machine.ofEffect_step.mp hstep
  cases a with
  | asks i => cases ha
  | resumes => exact absurd hen h.not_resumes
  | returns => rfl
  | track b =>
      cases hrunning : s.running with
      | some r =>
          rw [State.waitsFor, hrunning] at hwaits
          rw [State.waitsFor]
          simp only [effect, hrunning, Option.some_or]
          exact hwaits
      | none =>
          rw [State.waitsFor]
          simp only [effect, hrunning, Option.none_or]
          exact called_waitsFor s.track b

/--
**An attach call waits for nothing that waits for it, unless a closure makes it.**  From every
state that can be reached, with a track as `Sinks` has it: if no closure waits for an attach of its own track, no run in which
nobody starts anything new is longer than `left`, whatever becomes of the frame on its way, and
wherever one ends it can be gone on with, or every call has returned, the frame is through and
no closure runs.  If one waits, then whatever anybody does, its call is not done, the closure
does not return and the frame stays where it is.
-/
theorem attach_finishes (accepts video : Bool) (s : State)
    (h : (machine accepts video).Reachable s) :
    (Sinks.machine accepts video).Reachable s.track ∧
    (s.waitsFor = none → ∀ as t, (∀ a ∈ as, a.settles = true) →
      (machine accepts video).run s as = some t →
        as.length + t.left ≤ s.left ∧
        (t.Settled ∨ ∃ a u, a.settles = true ∧ (machine accepts video).step t a = some u)) ∧
    ∀ i, s.waitsFor = some i → ∀ as t, (machine accepts video).run s as = some t →
      t.waitsFor = some i ∧ t.track.calls i ≠ .done ∧ t.track.delivering ≠ none := by
  have hinv := inv_of_reachable h
  have htrack : (Sinks.machine accepts video).Reachable s.track := by
    obtain ⟨as, has⟩ := h
    exact ⟨_, run_track has⟩
  refine ⟨htrack, fun hnone as t hall hrun => ?_, fun i hi as t hrun => ?_⟩
  · have hkeep : ∀ s a t, Action.settles a = true →
        (Inv accepts video s ∧ s.waitsFor = none) → (machine accepts video).step s a = some t →
        Inv accepts video t ∧ t.waitsFor = none := fun s a t ha hs hstep =>
      ⟨inv_step s a t hs.1 hstep, settles_waitsFor ha hs.1 hstep hs.2⟩
    have hlength := Machine.run_length_le State.left (A := fun a => a.settles = true)
      (I := fun s => Inv accepts video s ∧ s.waitsFor = none) hkeep
      (fun s a t ha hs hstep => settles_left s a t ha hs.1 hstep) hall ⟨hinv, hnone⟩ hrun
    have hend := Machine.run_kept (A := fun a => a.settles = true)
      (I := fun s => Inv accepts video s ∧ s.waitsFor = none) hkeep hall ⟨hinv, hnone⟩ hrun
    refine ⟨hlength, (settled_or_enabled hend.1 hend.2).imp id ?_⟩
    rintro ⟨a, ha, hen⟩
    exact ⟨a, _, ha, Machine.ofEffect_step.mpr ⟨hen, rfl⟩⟩
  · obtain ⟨ht, hwaits⟩ := waits_forever hinv hi hrun
    refine ⟨hwaits, ?_, (ht.busy fun hidle => ?_).frame⟩
    · rcases ht.waits i hwaits with hpc | hpc
      · rw [hpc]
        nofun
      · rw [hpc]
        nofun
    · rw [State.waitsFor, hidle] at hwaits
      cases hwaits

/-- One track: a sink is on it, a frame has reached its closure, and another call is in the lock. -/
def underFrame : List Action :=
  [.track (.call 0), .track (.acquire 0), .track (.remove 0), .track (.replace 0), .track (.add 0),
   .track (.store 0), .track (.setTimings 0), .track (.release 0), .track .frame,
   .track (.call 1), .track (.acquire 1), .track (.deliver true 5 7)]

/-- The other call comes to its end; but not one that the closure makes. -/
theorem attach_finishes_under_frame :
    (∀ t, (machine true true).run
        ((machine true true).final {} underFrame (by decide +kernel))
        [.returns, .track .frameEnd, .track (.remove 1)] = some t →
      3 + t.left ≤ ((machine true true).final {} underFrame (by decide +kernel)).left) ∧
    ((machine true true).final {} underFrame (by decide +kernel)).left = 8 ∧
    ∀ as t, (machine true true).run
        ((machine true true).final {} (underFrame ++ [.asks 2]) (by decide +kernel)) as = some t →
      t.track.calls 2 ≠ .done := by
  refine ⟨fun t hrun => ?_, by decide +kernel, fun as t hrun => ?_⟩
  · exact ((attach_finishes true true _ ⟨_, (machine true true).run_final _ _ _⟩).2.1
      (by decide +kernel) _ t (by decide) hrun).1
  · exact ((attach_finishes true true _ ⟨_, (machine true true).run_final _ _ _⟩).2.2 2
      (by decide +kernel) as t hrun).2.1

end ReactorWebrtc.SinkClosures
