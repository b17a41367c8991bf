/-
A stats request, with the observer that libwebrtc answers to.

`get_stats` waits over the bridge like any other request.  The difference is the object the
answer comes through: it is counted, `GetStats` is posted to another thread with a bare
pointer to it, and that thread takes a reference of its own only when it gets there.  The
glue function may long have let go of its own by then, so it takes one more beforehand, which
the delivery gives up as its last act.

The machine is the bridge with the object beside it.  The moves of the bridge that happen
inside the object's methods are taken there, the others are the caller's own, and a run of
the whole is a run of the bridge.

The delivery may be late, after the caller has timed out, or may never come.  In the first
case the object outlives the glue function and the delivery frees it; in the second it
stays, which is why `stats_memory_safe` says when it is freed and not that it is.
-/
import ReactorWebrtc.Connection.Bridge

namespace ReactorWebrtc.StatsCall

/-- Where the caller is in `reactor_webrtc_peer_connection_get_stats`. -/
inductive Glue
  | outside
  | made
  /-- The extra reference is taken. -/
  | extra
  | asked
  | left
  deriving DecidableEq, Repr

/-- Where the native side is with the request. -/
inductive Native
  | idle
  /-- Posted, with a bare pointer. -/
  | queued
  /-- In `GetStats` and after it, with a reference of its own. -/
  | collecting
  | delivering
  /-- Past the delivery's `Release`. -/
  | released
  | done
  /-- The connection went away before the posted call ran. -/
  | dropped
  /-- The connection went away before there was a report. -/
  | abandoned
  deriving DecidableEq, Repr

structure State (ρ : Type) where
  bridge : Bridge.State ρ := {}
  /-- The `StatsCallback`, from when it is made. -/
  object : Counted := {}
  glue : Glue := .outside
  native : Native := .idle
  deriving DecidableEq, Repr

inductive Action (ρ : Type)
  /-- A move of the caller outside the glue. -/
  | caller (a : Bridge.Action ρ)
  | make
  | addRef
  | getStats
  | leave
  | collect
  | deliver (report : ρ)
  /-- A move of the callback that the delivery calls. -/
  | send
  | finish
  | release
  | forget
  | drop
  | abandon
  deriving DecidableEq, Repr

variable {ρ : Type}

/-- The moves of the bridge that the caller makes by itself. -/
def ofCaller : Bridge.Action ρ → Bool
  | .share | .receive | .timeout | .hangUp | .dropTx | .dropRx => true
  | _ => false

/-- The move of the bridge that goes with an action. -/
def proj : Action ρ → Option (Bridge.Action ρ)
  | .caller a => some a
  | .make => some .call
  | .leave => some .leave
  | .deliver report => some (.fire report)
  | .send => some .send
  | .finish => some .finish
  | .drop | .abandon => some .lose
  | _ => none

/-- What the object's methods and its holders do, beside the bridge. -/
def move (s : State ρ) : Action ρ → Option (State ρ)
  | .caller a => if ofCaller a then some s else none
  | .make =>
    match s.glue with
    | .outside => some { s with glue := .made }
    | _ => none
  | .addRef =>
    match s.glue with
    | .made => some { s with object := s.object.retain, glue := .extra }
    | _ => none
  | .getStats =>
    match s.glue with
    | .extra => some { s with object := s.object.use, glue := .asked, native := .queued }
    | _ => none
  | .leave =>
    match s.glue with
    | .asked => some { s with object := s.object.release, glue := .left }
    | _ => none
  | .collect =>
    match s.native with
    | .queued => some { s with object := s.object.retain, native := .collecting }
    | _ => none
  | .deliver _ =>
    match s.native with
    | .collecting => some { s with object := s.object.use, native := .delivering }
    | _ => none
  | .send | .finish =>
    match s.native with
    | .delivering => some { s with object := s.object.use }
    | _ => none
  | .release =>
    match s.native, s.bridge.callback with
    | .delivering, .ended _ => some { s with object := s.object.release, native := .released }
    | _, _ => none
  | .forget =>
    match s.native with
    | .released => some { s with object := s.object.release, native := .done }
    | _ => none
  | .drop =>
    match s.native with
    | .queued => some { s with native := .dropped }
    | _ => none
  | .abandon =>
    match s.native with
    | .collecting => some { s with object := s.object.release, native := .abandoned }
    | _ => none

/-- Both halves of a step, or neither. -/
def step (s : State ρ) (a : Action ρ) : Option (State ρ) :=
  (move s a).bind fun t =>
    match proj a with
    | some b => (Bridge.step .handedOver s.bridge b).map fun bridge => { t with bridge }
    | none => some t

def machine : Machine (State ρ) (Action ρ) := { start := {}, step }

/-! ### What one step does

A step is a move of the glue, of the native thread or of the caller, and some of them are
moves of the bridge as well.
-/

open Bridge (Moves moves_of_step)

/-- The steps, each with its half of the bridge. -/
inductive Steps (s : State ρ) : Action ρ → State ρ → Prop
  | caller (a : Bridge.Action ρ) (bridge : Bridge.State ρ) (ha : ofCaller a = true)
    (hb : Moves .handedOver s.bridge a bridge) : Steps s (.caller a) { s with bridge }
  | make (bridge : Bridge.State ρ) (hg : s.glue = .outside)
    (hb : Moves .handedOver s.bridge .call bridge) : Steps s .make { s with glue := .made, bridge }
  | addRef (hg : s.glue = .made) :
    Steps s .addRef { s with object := s.object.retain, glue := .extra }
  | getStats (hg : s.glue = .extra) :
    Steps s .getStats { s with object := s.object.use, glue := .asked, native := .queued }
  | leave (bridge : Bridge.State ρ) (hg : s.glue = .asked)
    (hb : Moves .handedOver s.bridge .leave bridge) :
    Steps s .leave { s with object := s.object.release, glue := .left, bridge }
  | collect (hn : s.native = .queued) :
    Steps s .collect { s with object := s.object.retain, native := .collecting }
  | deliver (report : ρ) (bridge : Bridge.State ρ) (hn : s.native = .collecting)
    (hb : Moves .handedOver s.bridge (.fire report) bridge) :
    Steps s (.deliver report) { s with object := s.object.use, native := .delivering, bridge }
  | send (bridge : Bridge.State ρ) (hn : s.native = .delivering)
    (hb : Moves .handedOver s.bridge .send bridge) :
    Steps s .send { s with object := s.object.use, bridge }
  | finish (bridge : Bridge.State ρ) (hn : s.native = .delivering)
    (hb : Moves .handedOver s.bridge .finish bridge) :
    Steps s .finish { s with object := s.object.use, bridge }
  | release (r : ρ) (hn : s.native = .delivering) (hc : s.bridge.callback = .ended r) :
    Steps s .release { s with object := s.object.release, native := .released }
  | forget (hn : s.native = .released) :
    Steps s .forget { s with object := s.object.release, native := .done }
  | drop (bridge : Bridge.State ρ) (hn : s.native = .queued)
    (hb : Moves .handedOver s.bridge .lose bridge) :
    Steps s .drop { s with native := .dropped, bridge }
  | abandon (bridge : Bridge.State ρ) (hn : s.native = .collecting)
    (hb : Moves .handedOver s.bridge .lose bridge) :
    Steps s .abandon { s with object := s.object.release, native := .abandoned, bridge }

variable {s t : State ρ} {a : Action ρ}

theorem steps_of_step (h : step s a = some t) : Steps s a t := by
  obtain ⟨u, hu, hrest⟩ := Option.bind_eq_some_iff.mp h
  have hbridge : ∀ b, proj a = some b →
      ∃ bridge, Moves .handedOver s.bridge b bridge ∧ t = { u with bridge } := by
    intro b hb
    rw [hb] at hrest
    obtain ⟨bridge, hbridge, rfl⟩ := Option.map_eq_some_iff.mp hrest
    exact ⟨bridge, moves_of_step hbridge, rfl⟩
  have hsame : proj a = none → t = u := by
    intro hb
    rw [hb] at hrest
    exact (Option.some.inj hrest).symm
  cases a with
  | caller a =>
      simp only [move] at hu
      split at hu
      · rename_i ha
        cases hu
        obtain ⟨bridge, hb, rfl⟩ := hbridge a rfl
        exact .caller a bridge ha hb
      · cases hu
  | make =>
      simp only [move] at hu
      split at hu
      · rename_i hg
        cases hu
        obtain ⟨bridge, hb, rfl⟩ := hbridge _ rfl
        exact .make bridge hg hb
      · cases hu
  | addRef =>
      simp only [move] at hu
      split at hu
      · rename_i hg
        cases hu
        obtain rfl := hsame rfl
        exact .addRef hg
      · cases hu
  | getStats =>
      simp only [move] at hu
      split at hu
      · rename_i hg
        cases hu
        obtain rfl := hsame rfl
        exact .getStats hg
      · cases hu
  | leave =>
      simp only [move] at hu
      split at hu
      · rename_i hg
        cases hu
        obtain ⟨bridge, hb, rfl⟩ := hbridge _ rfl
        exact .leave bridge hg hb
      · cases hu
  | collect =>
      simp only [move] at hu
      split at hu
      · rename_i hn
        cases hu
        obtain rfl := hsame rfl
        exact .collect hn
      · cases hu
  | deliver report =>
      simp only [move] at hu
      split at hu
      · rename_i hn
        cases hu
        obtain ⟨bridge, hb, rfl⟩ := hbridge _ rfl
        exact .deliver report bridge hn hb
      · cases hu
  | send =>
      simp only [move] at hu
      split at hu
      · rename_i hn
        cases hu
        obtain ⟨bridge, hb, rfl⟩ := hbridge _ rfl
        exact .send bridge hn hb
      · cases hu
  | finish =>
      simp only [move] at hu
      split at hu
      · rename_i hn
        cases hu
        obtain ⟨bridge, hb, rfl⟩ := hbridge _ rfl
        exact .finish bridge hn hb
      · cases hu
  | release =>
      simp only [move] at hu
      split at hu
      · rename_i r hn hc
        cases hu
        obtain rfl := hsame rfl
        exact .release r hn hc
      · cases hu
  | forget =>
      simp only [move] at hu
      split at hu
      · rename_i hn
        cases hu
        obtain rfl := hsame rfl
        exact .forget hn
      · cases hu
  | drop =>
      simp only [move] at hu
      split at hu
      · rename_i hn
        cases hu
        obtain ⟨bridge, hb, rfl⟩ := hbridge _ rfl
        exact .drop bridge hn hb
      · cases hu
  | abandon =>
      simp only [move] at hu
      split at hu
      · rename_i hn
        cases hu
        obtain ⟨bridge, hb, rfl⟩ := hbridge _ rfl
        exact .abandon bridge hn hb
      · cases hu

/-! ### A run is a run of the bridge

The moves of the bridge among the steps, in their order, are a run of it to the same state.
So what is known of any wait is known of this one.
-/

/-- The object's half of a step leaves the bridge to the other half. -/
theorem move_bridge (h : move s a = some t) : t.bridge = s.bridge := by
  cases a <;> simp only [move] at h <;> split at h <;>
    first | cases h; rfl | cases h

theorem step_bridge {b : Bridge.Action ρ} (h : step s a = some t) (hb : proj a = some b) :
    Bridge.step .handedOver s.bridge b = some t.bridge := by
  obtain ⟨u, hu, hrest⟩ := Option.bind_eq_some_iff.mp h
  rw [hb] at hrest
  obtain ⟨bridge, hbridge, rfl⟩ := Option.map_eq_some_iff.mp hrest
  exact hbridge

theorem step_beside (h : step s a = some t) (hb : proj a = none) : t.bridge = s.bridge := by
  obtain ⟨u, hu, hrest⟩ := Option.bind_eq_some_iff.mp h
  rw [hb] at hrest
  obtain rfl := Option.some.inj hrest
  exact move_bridge hu

theorem run_bridge {as : List (Action ρ)} (h : machine.run {} as = some s) :
    (Bridge.machine .handedOver).run {} (as.filterMap proj) = some s.bridge :=
  Machine.run_project (N := Bridge.machine .handedOver) (π := State.bridge)
    (fun _ _ _ _ => step_bridge) (fun _ _ _ => step_beside) h

/-! ### Who holds the object

There are three references at most: the glue function's own, the one it took for the
delivery, and that of the thread `GetStats` runs on.  How far the glue is and how far the
bridge's caller is go together, and so do the native thread and the callback.
-/

/-- The reference that the glue function lets go of when it returns. -/
def Glue.local : Glue → Nat
  | .left => 0
  | _ => 1

/-- The reference that the delivery gives up. -/
def Glue.extraRef : Glue → Nat
  | .outside | .made => 0
  | _ => 1

def Glue.posted : Glue → Bool
  | .asked | .left => true
  | _ => false

def Native.gaveUp : Native → Bool
  | .released | .done => true
  | _ => false

/-- The reference that the native side takes. -/
def Native.own : Native → Nat
  | .collecting | .delivering | .released => 1
  | _ => 0

/-- How many references there are in all. -/
def State.refs (s : State ρ) : Nat :=
  s.glue.local + (if s.native.gaveUp then 0 else s.glue.extraRef) + s.native.own

/-- Where the glue is goes with where the bridge's caller is. -/
def Glue.agrees (g : Glue) (c : Bridge.Caller ρ) : Prop :=
  match g with
  | .outside => c.before = true
  | .left => c.before = false ∧ c ≠ .inGlue
  | _ => c = .inGlue

/-- Where the native side is goes with where the bridge's callback is. -/
def Native.agrees (n : Native) (c : Bridge.Callback ρ) : Prop :=
  match n with
  | .idle => c.before = true ∨ c = .due
  | .queued | .collecting => c = .due
  | .delivering => c.answer.isSome = true
  | .released | .done => ∃ r, c = .ended r
  | .dropped | .abandoned => c = .lost

structure Inv (s : State ρ) : Prop where
  bridge : Bridge.Inv .handedOver s.bridge
  held : s.object.Held s.refs
  caller : s.glue.agrees s.bridge.caller
  callback : s.native.agrees s.bridge.callback
  posted : s.native = .idle ↔ s.glue.posted = false

theorem inv_start : Inv (ρ := ρ) {} where
  bridge := Bridge.inv_start
  held := .new
  caller := rfl
  callback := .inl rfl
  posted := iff_of_true rfl rfl

/-- The caller's own moves keep it where the glue needs it. -/
theorem agrees_of_caller {b : Bridge.Action ρ} {u v : Bridge.State ρ} (ha : ofCaller b = true)
    (hb : Moves .handedOver u b v) (hu : Bridge.Inv .handedOver u) :
    (∀ g : Glue, g.agrees u.caller → g.agrees v.caller) ∧
      ∀ n : Native, n.agrees u.callback → n.agrees v.callback := by
  cases hb with
  | share hc =>
      refine ⟨fun g hg => ?_, fun n hn => ?_⟩
      · rw [hc] at hg
        cases g with
        | outside => rfl
        | left => cases hg.1
        | made | extra | asked => cases hg
      · rw [hu.unshared.mp hc] at hn
        cases n with
        | idle => exact .inl rfl
        | released | done => obtain ⟨r, hr⟩ := hn; cases hr
        | queued | collecting | delivering | dropped | abandoned => cases hn
  | receive a hc | timeout hc | hangUp hc | dropTx r hc | dropRx r hc =>
      refine ⟨fun g hg => ?_, fun n hn => hn⟩
      rw [hc] at hg
      cases g with
      | left => exact ⟨rfl, nofun⟩
      | outside | made | extra | asked => cases hg
  | call | fire | lose | send | finish | leave => cases ha

/-- The request is posted with the extra reference taken. -/
theorem Inv.extraRef (h : Inv s) (hn : s.native ≠ .idle) : s.glue.extraRef = 1 := by
  have hposted : s.glue.posted ≠ false := fun hp => hn (h.posted.mpr hp)
  cases hg : s.glue with
  | asked | left => rfl
  | outside | made | extra =>
      rw [hg] at hposted
      exact absurd rfl hposted

theorem Inv.idle (h : Inv s) (hp : s.glue.posted = false) : s.native = .idle := h.posted.mpr hp

/-- Every reference is counted, whoever moves. -/
theorem Inv.held_steps (h : Inv s) (hstep : Steps s a t) : t.object.Held t.refs := by
  have hheld := h.held
  have hextra := h.extraRef
  unfold State.refs at hheld ⊢
  cases hstep with
  | caller => exact hheld
  | make bridge hg =>
      rw [hg] at hheld
      exact hheld
  | addRef hg =>
      rw [h.idle (by rw [hg]; rfl), hg] at hheld
      rw [h.idle (by rw [hg]; rfl)]
      exact hheld.retain Nat.one_pos
  | getStats hg =>
      rw [h.idle (by rw [hg]; rfl), hg] at hheld
      exact hheld.use Nat.two_pos
  | leave bridge hg =>
      rw [hg, Nat.add_assoc, Nat.add_comm] at hheld
      show Counted.Held (0 + _ + _) _
      rw [Nat.zero_add]
      exact hheld.release
  | collect hn =>
      rw [hn] at hheld hextra
      rw [hextra nofun] at hheld ⊢
      exact hheld.retain (Nat.succ_pos _)
  | deliver report bridge hn hb =>
      rw [hn] at hheld
      exact hheld.use (Nat.succ_pos _)
  | send bridge hn hb | finish bridge hn hb =>
      rw [hn] at hheld ⊢
      exact hheld.use (Nat.succ_pos _)
  | release r hn hc =>
      rw [hn] at hheld hextra
      rw [hextra nofun] at hheld
      exact hheld.release
  | forget hn =>
      rw [hn] at hheld
      exact hheld.release
  | drop bridge hn hb =>
      rw [hn] at hheld
      exact hheld
  | abandon bridge hn hb =>
      rw [hn] at hheld
      exact hheld.release

/-- The moves of the callback leave the caller where it is, and the other way round. -/
theorem Inv.agrees_steps (h : Inv s) (hstep : Steps s a t) :
    t.glue.agrees t.bridge.caller ∧ t.native.agrees t.bridge.callback := by
  have hcaller := h.caller
  have hcallback := h.callback
  cases hstep with
  | caller b bridge hb hmove =>
      obtain ⟨hg, hn⟩ := agrees_of_caller hb hmove h.bridge
      exact ⟨hg _ hcaller, hn _ hcallback⟩
  | make bridge hg hb =>
      cases hb with
      | call hc =>
          show _ ∧ s.native.agrees .due
          rw [h.idle (by rw [hg]; rfl)]
          exact ⟨rfl, .inr rfl⟩
  | addRef hg =>
      rw [hg] at hcaller
      exact ⟨hcaller, hcallback⟩
  | getStats hg =>
      rw [hg] at hcaller
      rw [h.idle (by rw [hg]; rfl)] at hcallback
      refine ⟨hcaller, hcallback.resolve_left fun hbefore => ?_⟩
      rw [← h.bridge.before, hcaller] at hbefore
      cases hbefore
  | leave bridge hg hb =>
      cases hb with
      | leave => exact ⟨⟨rfl, nofun⟩, hcallback⟩
  | collect hn =>
      rw [hn] at hcallback
      exact ⟨hcaller, hcallback⟩
  | deliver report bridge hn hb =>
      cases hb with
      | fire => exact ⟨hcaller, rfl⟩
  | send bridge hn hb =>
      cases hb with
      | send r =>
          rw [hn]
          exact ⟨hcaller, rfl⟩
  | finish bridge hn hb =>
      cases hb with
      | finish r =>
          rw [hn]
          exact ⟨hcaller, rfl⟩
  | release r hn hc => exact ⟨hcaller, r, hc⟩
  | forget hn =>
      rw [hn] at hcallback
      exact ⟨hcaller, hcallback⟩
  | drop bridge hn hb | abandon bridge hn hb =>
      cases hb with
      | lose => exact ⟨hcaller, rfl⟩

theorem Inv.posted_steps (h : Inv s) (hstep : Steps s a t) :
    t.native = .idle ↔ t.glue.posted = false := by
  have hposted := h.posted
  cases hstep with
  | caller | send | finish => exact hposted
  | make bridge hg | addRef hg =>
      rw [hg] at hposted
      exact hposted
  | getStats hg => exact iff_of_false nofun nofun
  | leave bridge hg =>
      rw [hg] at hposted
      exact hposted
  | collect hn | deliver report bridge hn hb | release r hn hc | forget hn | drop bridge hn hb
  | abandon bridge hn hb =>
      rw [hn] at hposted
      exact (iff_of_false nofun nofun).trans hposted

theorem inv_step (s : State ρ) (a : Action ρ) (t : State ρ) (h : Inv s)
    (hstep : step s a = some t) : Inv t where
  bridge := by
    cases hb : proj a with
    | none =>
        rw [step_beside hstep hb]
        exact h.bridge
    | some b => exact Bridge.inv_step _ _ _ h.bridge (step_bridge hstep hb)
  held := h.held_steps (steps_of_step hstep)
  caller := (h.agrees_steps (steps_of_step hstep)).1
  callback := (h.agrees_steps (steps_of_step hstep)).2
  posted := h.posted_steps (steps_of_step hstep)

theorem State.refs_eq_zero_iff (h : Inv s) :
    s.refs = 0 ↔ s.glue = .left ∧ s.native = .done := by
  have hposted := h.posted
  unfold State.refs
  cases hg : s.glue <;> cases hn : s.native <;> rw [hg, hn] at hposted <;>
    simp [Glue.local, Glue.extraRef, Native.gaveUp, Native.own]

/--
**The observer outlives its request, and no longer.**  In every interleaving of the caller, the
glue function and the native thread, with the report early, late or never: neither the
observer nor the box is touched after it is freed, and each is freed at most once.  The observer
is freed exactly when the glue function has returned and the native side is through with it, by
which time the callback has run and given its own reference up.
-/
theorem stats_memory_safe (as : List (Action ρ)) (s : State ρ)
    (hrun : machine.run {} as = some s) :
    s.object.stale = 0 ∧ s.object.freed ≤ 1 ∧
      s.bridge.box.stale = 0 ∧ s.bridge.box.freed ≤ 1 ∧
      (s.object.freed = 1 ↔ s.glue = .left ∧ s.native = .done) ∧
      (s.object.freed = 1 → ∃ r, s.bridge.callback = .ended r) ∧
      (s.bridge.box.freed = 1 ↔
        s.bridge.caller.letGo = true ∧ ∃ r, s.bridge.callback = .ended r) := by
  have h : Inv s := Machine.run_invariant inv_step inv_start hrun
  obtain ⟨hstale, hfreed, hboth, -⟩ := Bridge.memory_safe .handedOver s.bridge
    ⟨_, run_bridge hrun⟩
  have hdone : s.object.freed = 1 ↔ s.glue = .left ∧ s.native = .done := by
    rw [h.held.freed_eq_one_iff, State.refs_eq_zero_iff h]
  refine ⟨h.held.stale, h.held.freed_le_one, hstale, hfreed, hdone, fun hgone => ?_, hboth⟩
  have hcallback := h.callback
  rw [(hdone.mp hgone).2] at hcallback
  exact hcallback

/-- The native thread gets to the request after the glue function has returned. -/
theorem stats_memory_safe_queued :
    let s : State Nat :=
      { bridge :=
          { box := { count := 0, freed := 1 }, receiving := false, caller := .returned (some 7),
            callback := .ended 7 }
        object := { count := 0, freed := 1 }, glue := .left, native := .done }
    s.object.stale = 0 ∧ s.object.freed ≤ 1 ∧
      s.bridge.box.stale = 0 ∧ s.bridge.box.freed ≤ 1 ∧
      (s.object.freed = 1 ↔ s.glue = .left ∧ s.native = .done) ∧
      (s.object.freed = 1 → ∃ r, s.bridge.callback = .ended r) ∧
      (s.bridge.box.freed = 1 ↔
        s.bridge.caller.letGo = true ∧ ∃ r, s.bridge.callback = .ended r) :=
  stats_memory_safe
    [.caller .share, .make, .addRef, .getStats, .leave, .collect, .deliver 7, .send,
      .caller .receive, .caller .dropTx, .finish, .release, .caller .dropRx, .forget] _ rfl

/--
**The caller gets the report of its own request, if it came in time.**  The observer in between
changes nothing: what a call returns is the report its observer was given exactly if the wait
did not run out first.
-/
theorem stats_answer {as : List (Action ρ)} {s : State ρ} {r : Option ρ}
    (hrun : machine.run {} as = some s) (hret : s.bridge.caller = .returned r) (report : ρ) :
    r = some report ↔ .caller .timeout ∉ as ∧ .deliver report ∈ as := by
  have hanswer := (Bridge.returns_answer _ _ r ⟨_, run_bridge hrun, hret⟩).1 report
  -- the moves of the bridge that are not the caller's come from nowhere else
  have hown : ∀ b, .caller b ∈ as → ofCaller b = true := by
    intro b hb
    obtain ⟨u, v, hstep⟩ := Machine.run_mem hrun hb
    cases steps_of_step hstep with
    | caller _ _ hb => exact hb
  have htimeout : .timeout ∈ as.filterMap proj ↔ .caller .timeout ∈ as := by
    rw [List.mem_filterMap]
    constructor
    · rintro ⟨a, ha, hproj⟩
      cases a <;> cases hproj
      exact ha
    · exact fun ha => ⟨_, ha, rfl⟩
  have hfire : .fire report ∈ as.filterMap proj ↔ .deliver report ∈ as := by
    rw [List.mem_filterMap]
    constructor
    · rintro ⟨a, ha, hproj⟩
      cases a <;> cases hproj
      · cases hown _ ha
      · exact ha
    · exact fun ha => ⟨_, ha, rfl⟩
  rw [hanswer, htimeout, hfire, or_iff_right nofun]

/-- The report comes after the wait has run out. -/
def lateReport : List (Action Nat) :=
  [.caller .share, .make, .addRef, .getStats, .leave, .caller .timeout, .caller .dropTx,
    .caller .dropRx, .collect, .deliver 7, .send, .finish]

/-- The caller has gone without it. -/
theorem stats_answer_late : (∃ s, machine.run {} lateReport = some s ∧
      s.bridge.caller = .returned none ∧ s.bridge.callback = .ended 7) ∧
    ((none : Option Nat) = some 7 ↔
      .caller .timeout ∉ lateReport ∧ .deliver 7 ∈ lateReport) :=
  ⟨⟨_, rfl, rfl, rfl⟩, @stats_answer _ lateReport _ none rfl rfl 7⟩

end ReactorWebrtc.StatsCall
