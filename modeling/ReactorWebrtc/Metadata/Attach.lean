/-
Calls that attach to one side of one transceiver, from any threads.

A call stores its part, claims the slot, and if it is the one that claimed it attaches the
native transformer; when that fails it gives the claim back.  These are separate steps, and
between any two of them other calls take theirs.  A claim is held by one call at a time, so
at most one transformer is ever attached.

But a call that finds the slot claimed returns `Ok` before it is known whether the attach
succeeds, and one whose attach fails leaves its callback in the slot for the next that
succeeds.  `Truthful` says what the results are worth at any moment, and
`along_truthful_iff` says which steps they do not survive.
-/
import ReactorWebrtc.Lib.Lock
import ReactorWebrtc.Lib.Machine

namespace ReactorWebrtc.Attaching

/-- A transform call with its callback, or a metadata install with its step. -/
inductive Kind
  | transform
  | install
  deriving DecidableEq, Repr

inductive Stage
  /-- At the slot's part, at the claim, at the native attach, and at giving the claim back. -/
  | setting
  | claiming
  | attaching
  | releasing
  /-- There is no slot; another had claimed it; the native attach succeeded, or failed. -/
  | refused
  | relied
  | attached
  | failed
  deriving DecidableEq, Repr

/-- Whether a call that is over returned `Ok`. -/
def Stage.result : Stage → Option Bool
  | .refused | .failed => some false
  | .relied | .attached => some true
  | _ => none

structure Call where
  kind : Kind
  stage : Stage
  deriving DecidableEq, Repr

structure State where
  /-- Whose callback and whose metadata step the slot has. -/
  caller : Option Nat := none
  metaStep : Option Nat := none
  installed : Bool := false
  calls : Nat → Option Call := fun _ => none
  /-- How many native transformers have been attached, and who registered a callback. -/
  attached : Nat := 0
  registered : List Nat := []

inductive Action
  | begin (i : Nat) (kind : Kind)
  | step (i : Nat)
  /-- The native attach, and whether it succeeds. -/
  | native (i : Nat) (ok : Bool)
  deriving DecidableEq, Repr

def State.goto (s : State) (i : Nat) (kind : Kind) (stage : Stage) : State :=
  { s with calls := Function.update s.calls i (some { kind, stage }) }

/-- `set_caller`, or `set_meta`. -/
def State.setPart (s : State) (i : Nat) : Kind → State
  | .transform => { s with caller := some i, registered := s.registered ++ [i] }
  | .install => { s with metaStep := some i }

def advance (s : State) (i : Nat) : Call → Option State
  | ⟨kind, .setting⟩ => some ((s.setPart i kind).goto i kind .claiming)
  | ⟨kind, .claiming⟩ =>
    -- one swap: whoever finds the flag set relies on the one that set it
    if s.installed then some (s.goto i kind .relied)
    else some ({ s with installed := true }.goto i kind .attaching)
  | ⟨kind, .releasing⟩ => some ({ s with installed := false }.goto i kind .failed)
  | _ => none

def attachNative (s : State) (i : Nat) (ok : Bool) : Call → Option State
  | ⟨kind, .attaching⟩ =>
    if ok then some ({ s with attached := s.attached + 1 }.goto i kind .attached)
    else some (s.goto i kind .releasing)
  | _ => none

/-- A transceiver without a native identity has no slot. -/
def begin (transceiverId : Nat) (s : State) (i : Nat) (kind : Kind) : State :=
  if transceiverId = 0 then s.goto i kind .refused else s.goto i kind .setting

def step (transceiverId : Nat) (s : State) : Action → Option State
  | .begin i kind => if (s.calls i).isNone then some (begin transceiverId s i kind) else none
  | .step i => (s.calls i).bind (advance s i)
  | .native i ok => (s.calls i).bind (attachNative s i ok)

def machine (transceiverId : Nat) : Machine State Action where
  start := {}
  step := step transceiverId

/-- The call has claimed the slot and has not attached. -/
def holds : Option Call → Bool
  | some ⟨_, .attaching⟩ | some ⟨_, .releasing⟩ => true
  | _ => false

/-- The transform call returned this. -/
def Returned (s : State) (i : Nat) (ok : Bool) : Prop :=
  ∃ stage, s.calls i = some ⟨.transform, stage⟩ ∧ stage.result = some ok

/-- What the results are worth at any moment. -/
structure Truthful (s : State) : Prop where
  once : s.attached ≤ 1
  /-- Unless an attach is still to come. -/
  backed : ∀ i, Returned s i true → (∀ j, holds (s.calls j) = false) →
    s.attached = 1 ∧ s.caller = s.registered.getLast?
  withdrawn : s.attached = 1 → ∀ i, s.caller = some i → ¬ Returned s i false

/-- All calls have returned. -/
def Quiet (s : State) : Prop := ∀ i call, s.calls i = some call → call.stage.result ≠ none

/-- What is told of a slot when all calls have returned. -/
structure Told (s : State) : Prop where
  once : s.attached ≤ 1
  backed : ∀ i, Returned s i true → s.attached = 1 ∧ s.caller = s.registered.getLast?
  withdrawn : ∀ i, Returned s i false → ¬ (s.attached = 1 ∧ s.caller = some i)

/-- A claim is not given back once a transform call has found the slot claimed, and a
transformer is not attached while the slot has the callback of a call whose attach failed. -/
def Kept (s : State) : Action → Prop
  | .step i => ∀ kind, s.calls i = some ⟨kind, .releasing⟩ →
    ∀ j, s.calls j ≠ some ⟨.transform, .relied⟩
  | .native _ true => ∀ j, s.caller = some j → s.calls j ≠ some ⟨.transform, .failed⟩
  | _ => True

/-! ### Who has claimed the slot

The flag in the slot is set from the claim on, and stays set once the transformer is
attached.  So a call that finds it set knows that somebody is responsible, and not whether
it has worked.
-/

/-- The call has been let at the slot. -/
def Begun (s : State) (i : Nat) : Prop :=
  ∃ kind stage, s.calls i = some ⟨kind, stage⟩ ∧ stage ≠ .refused

/-- One call holds the claim, or a transformer is attached, or neither; and the callback in
the slot is the last that was registered, by a call that has begun. -/
structure Inv (s : State) : Prop where
  claim : ∃ lock, Lock.Owns holds lock s.calls ∧ s.installed = (lock.isSome || s.attached == 1) ∧
    (s.attached = 0 ∨ s.attached = 1 ∧ lock = none)
  caller : s.caller = s.registered.getLast?
  begun : ∀ i, s.caller = some i → Begun s i
  own : ∀ i kind, s.calls i = some ⟨kind, .attached⟩ → s.attached = 1

/-- What a step does. -/
inductive Moves (s : State) : Action → State → Prop
  | begin {i : Nat} {kind : Kind} {stage : Stage} (hnew : s.calls i = none)
      (hstage : stage = .setting ∨ stage = .refused) :
      Moves s (.begin i kind) (s.goto i kind stage)
  | set {i : Nat} {kind : Kind} (hcall : s.calls i = some ⟨kind, .setting⟩) :
      Moves s (.step i) ((s.setPart i kind).goto i kind .claiming)
  | rely {i : Nat} {kind : Kind} (hcall : s.calls i = some ⟨kind, .claiming⟩)
      (hclaimed : s.installed = true) :
      Moves s (.step i) (s.goto i kind .relied)
  | claim {i : Nat} {kind : Kind} (hcall : s.calls i = some ⟨kind, .claiming⟩)
      (hfree : s.installed = false) :
      Moves s (.step i) ({ s with installed := true }.goto i kind .attaching)
  | release {i : Nat} {kind : Kind} (hcall : s.calls i = some ⟨kind, .releasing⟩) :
      Moves s (.step i) ({ s with installed := false }.goto i kind .failed)
  | attach {i : Nat} {kind : Kind} (hcall : s.calls i = some ⟨kind, .attaching⟩) :
      Moves s (.native i true) ({ s with attached := s.attached + 1 }.goto i kind .attached)
  | fail {i : Nat} {kind : Kind} (hcall : s.calls i = some ⟨kind, .attaching⟩) :
      Moves s (.native i false) (s.goto i kind .releasing)

variable {s t : State} {a : Action} {i j : Nat} {kind : Kind} {stage : Stage} {ok : Bool}

theorem step_moves {transceiverId : Nat} (hstep : step transceiverId s a = some t) :
    Moves s a t := by
  cases a with
  | begin i kind =>
      rw [step, Option.ite_none_right_eq_some, Option.isNone_iff_eq_none] at hstep
      obtain ⟨hnew, hstep⟩ := hstep
      obtain rfl := Option.some.inj hstep
      unfold begin
      split
      · exact .begin hnew (.inr rfl)
      · exact .begin hnew (.inl rfl)
  | step i =>
      obtain ⟨⟨kind, stage⟩, hcall, hstep⟩ := Option.bind_eq_some_iff.mp hstep
      cases stage with
      | setting =>
          obtain rfl := Option.some.inj hstep
          exact .set hcall
      | claiming =>
          simp only [advance] at hstep
          split at hstep
          · rename_i hclaimed
            obtain rfl := Option.some.inj hstep
            exact .rely hcall hclaimed
          · rename_i hfree
            obtain rfl := Option.some.inj hstep
            exact .claim hcall (Bool.eq_false_iff.mpr hfree)
      | attaching => cases hstep
      | releasing =>
          obtain rfl := Option.some.inj hstep
          exact .release hcall
      | _ => cases hstep
  | native i ok =>
      obtain ⟨⟨kind, stage⟩, hcall, hstep⟩ := Option.bind_eq_some_iff.mp hstep
      cases stage with
      | attaching =>
          cases ok with
          | true =>
              obtain rfl := Option.some.inj hstep
              exact .attach hcall
          | false =>
              obtain rfl := Option.some.inj hstep
              exact .fail hcall
      | _ => cases hstep

theorem goto_self : (s.goto i kind stage).calls i = some ⟨kind, stage⟩ :=
  Function.update_self _ _ _

theorem goto_of_ne (h : j ≠ i) : (s.goto i kind stage).calls j = s.calls j :=
  Function.update_of_ne h _ _

theorem returned_goto_of_ne (h : j ≠ i) :
    Returned (s.goto i kind stage) j ok ↔ Returned s j ok := by
  rw [Returned, Returned, goto_of_ne h]

/-- A call that returns nothing of the kind was not the one. -/
theorem returned_goto (h : stage.result ≠ some ok) (hold : ¬ Returned s i ok) :
    Returned (s.goto i kind stage) j ok ↔ Returned s j ok := by
  by_cases hj : j = i
  · rw [hj]
    refine iff_of_false (fun ⟨stage', hret, hok⟩ => h ?_) hold
    obtain ⟨-, rfl⟩ := Call.mk.inj (Option.some.inj (goto_self.symm.trans hret))
    exact hok
  · exact returned_goto_of_ne hj

theorem begun_goto (h : Begun s j) (hstage : stage ≠ .refused) :
    Begun (s.goto i kind stage) j := by
  by_cases hj : j = i
  · exact ⟨kind, stage, hj ▸ goto_self, hstage⟩
  · obtain ⟨kind', stage', hcall, hne⟩ := h
    exact ⟨kind', stage', (goto_of_ne hj).trans hcall, hne⟩

theorem own_goto (h : ∀ i kind, s.calls i = some ⟨kind, .attached⟩ → s.attached = 1)
    (hstage : stage ≠ .attached) (j : Nat) (k : Kind)
    (hj : (s.goto i kind stage).calls j = some ⟨k, .attached⟩) : s.attached = 1 := by
  by_cases hji : j = i
  · rw [hji, goto_self] at hj
    obtain ⟨-, hsame⟩ := Call.mk.inj (Option.some.inj hj)
    exact absurd hsame hstage
  · exact h j k ((goto_of_ne hji).symm.trans hj)

theorem Moves.inv (hmoves : Moves s a t) (hs : Inv s) : Inv t := by
  obtain ⟨lock, howns, hinstalled, hattached⟩ := hs.claim
  cases hmoves with
  | @begin i kind stage hnew hstage =>
      have hkeep : holds (some ⟨kind, stage⟩) = holds (s.calls i) := by
        rw [hnew]
        rcases hstage with rfl | rfl <;> rfl
      have hnot : stage ≠ .attached := by rcases hstage with rfl | rfl <;> decide
      refine ⟨⟨lock, howns.keep hkeep, hinstalled, hattached⟩, hs.caller, fun j hj => ?_,
        own_goto hs.own hnot⟩
      obtain ⟨kind', stage', hcall, hne⟩ := hs.begun j hj
      have hji : j ≠ i := by
        rintro rfl
        cases hnew.symm.trans hcall
      exact ⟨kind', stage', (goto_of_ne hji).trans hcall, hne⟩
  | @set i kind hcall =>
      have hkeep : holds (some ⟨kind, .claiming⟩) = holds (s.calls i) := by rw [hcall]; rfl
      cases kind with
      | install =>
          exact ⟨⟨lock, howns.keep hkeep, hinstalled, hattached⟩, hs.caller,
            fun j hj => begun_goto (hs.begun j hj) (by decide),
            own_goto (s := s.setPart i .install) hs.own (by decide)⟩
      | transform =>
          refine ⟨⟨lock, howns.keep hkeep, hinstalled, hattached⟩, ?_, fun j hj => ?_,
            own_goto (s := s.setPart i .transform) hs.own (by decide)⟩
          · exact (List.getLast?_concat).symm
          · obtain rfl := Option.some.inj hj
            exact ⟨_, _, goto_self, by decide⟩
  | @rely i kind hcall hclaimed =>
      have hkeep : holds (some ⟨kind, .relied⟩) = holds (s.calls i) := by rw [hcall]; rfl
      exact ⟨⟨lock, howns.keep hkeep, hinstalled, hattached⟩, hs.caller,
        fun j hj => begun_goto (hs.begun j hj) (by decide), own_goto hs.own (by decide)⟩
  | @claim i kind hcall hfree =>
      rw [hfree] at hinstalled
      obtain ⟨hlock, hnone⟩ := Bool.or_eq_false_iff.mp hinstalled.symm
      obtain rfl := Option.isNone_iff_eq_none.mp (by rw [← Option.not_isSome, hlock]; rfl)
      have hzero : s.attached = 0 := by
        rcases hattached with hzero | ⟨hone, -⟩
        · exact hzero
        · rw [hone] at hnone
          cases hnone
      exact ⟨⟨some i, howns.take rfl, rfl, .inl hzero⟩, hs.caller,
        fun j hj => begun_goto (hs.begun j hj) (by decide),
        own_goto (s := { s with installed := true }) hs.own (by decide)⟩
  | @release i kind hcall =>
      have hmine : lock = some i := (howns i).mp (by rw [hcall]; rfl)
      have hzero : s.attached = 0 := by
        rcases hattached with hzero | ⟨-, hnone⟩
        · exact hzero
        · cases hmine.symm.trans hnone
      refine ⟨⟨none, howns.release (i := i) (by rw [hcall]; rfl) rfl, ?_, .inl hzero⟩, hs.caller,
        fun j hj => begun_goto (hs.begun j hj) (by decide),
        own_goto (s := { s with installed := false }) hs.own (by decide)⟩
      show false = (none.isSome || s.attached == 1)
      rw [hzero]
      rfl
  | @attach i kind hcall =>
      have hmine : lock = some i := (howns i).mp (by rw [hcall]; rfl)
      have hzero : s.attached = 0 := by
        rcases hattached with hzero | ⟨-, hnone⟩
        · exact hzero
        · cases hmine.symm.trans hnone
      refine ⟨⟨none, howns.release (i := i) (by rw [hcall]; rfl) rfl, ?_, .inr ⟨?_, rfl⟩⟩,
        hs.caller, fun j hj => begun_goto (hs.begun j hj) (by decide), fun _ _ _ => ?_⟩
      · show s.installed = (none.isSome || s.attached + 1 == 1)
        rw [hinstalled, hmine, hzero]
        rfl
      · show s.attached + 1 = 1
        rw [hzero]
      · show s.attached + 1 = 1
        rw [hzero]
  | @fail i kind hcall =>
      have hkeep : holds (some ⟨kind, .releasing⟩) = holds (s.calls i) := by rw [hcall]; rfl
      exact ⟨⟨lock, howns.keep hkeep, hinstalled, hattached⟩, hs.caller,
        fun j hj => begun_goto (hs.begun j hj) (by decide), own_goto hs.own (by decide)⟩

/-! ### What the results are worth

As long as a claim is held its outcome is open, and what has been returned meanwhile is
owed.  A claim that is given back is where the debt is not paid, if anybody relied on it.
-/

theorem Inv.once (h : Inv s) : s.attached ≤ 1 := by
  obtain ⟨lock, -, -, hzero | ⟨hone, -⟩⟩ := h.claim
  · rw [hzero]
    exact Nat.zero_le _
  · exact Nat.le_of_eq hone

/-- A slot that nobody has claimed any more, or that has its transformer. -/
theorem Inv.attached (h : Inv s) (hclaimed : s.installed = true)
    (hfree : ∀ j, holds (s.calls j) = false) : s.attached = 1 := by
  obtain ⟨lock, howns, hinstalled, -⟩ := h.claim
  cases lock with
  | some i =>
      have hi := (howns i).mpr rfl
      rw [hfree i] at hi
      cases hi
  | none =>
      rw [hclaimed, Option.isSome_none, Bool.false_or] at hinstalled
      exact beq_iff_eq.mp hinstalled.symm

/-- Nobody has claimed a slot whose flag is not set. -/
theorem Inv.free (h : Inv s) (hnot : s.installed = false) (j : Nat) :
    holds (s.calls j) = false := by
  obtain ⟨lock, howns, hinstalled, -⟩ := h.claim
  rw [hnot] at hinstalled
  cases lock with
  | some i => cases hinstalled
  | none => exact howns.free j

theorem Inv.not_attached (h : Inv s) (hi : holds (s.calls i) = true) : s.attached = 0 := by
  obtain ⟨lock, howns, -, hzero | ⟨-, hnone⟩⟩ := h.claim
  · exact hzero
  · cases ((howns i).mp hi).symm.trans hnone

/-- While nothing is attached, a call that returned `Ok` found the slot claimed. -/
theorem Inv.returned_iff_relied (h : Inv s) (hzero : s.attached = 0) (j : Nat) :
    Returned s j true ↔ s.calls j = some ⟨.transform, .relied⟩ := by
  constructor
  · rintro ⟨stage, hcall, hok⟩
    cases stage with
    | relied => exact hcall
    | attached => cases hzero.symm.trans (h.own j _ hcall)
    | _ => cases hok
  · exact fun hcall => ⟨.relied, hcall, rfl⟩

/-- A call whose callback the slot has returned an error if its attach failed. -/
theorem Inv.returned_iff_failed (h : Inv s) (hcaller : s.caller = some j) :
    Returned s j false ↔ s.calls j = some ⟨.transform, .failed⟩ := by
  constructor
  · rintro ⟨stage, hcall, hok⟩
    cases stage with
    | failed => exact hcall
    | refused =>
        obtain ⟨kind', stage', hcall', hne⟩ := h.begun j hcaller
        obtain ⟨-, rfl⟩ := Call.mk.inj (Option.some.inj (hcall.symm.trans hcall'))
        exact absurd rfl hne
    | _ => cases hok
  · exact fun hcall => ⟨.failed, hcall, rfl⟩

theorem truthful_of (ht : Inv t)
    (hbacked : ∀ j, Returned t j true → (∀ k, holds (t.calls k) = false) → t.attached = 1)
    (hwithdrawn : t.attached = 1 → ∀ j, t.caller = some j → ¬ Returned t j false) :
    Truthful t :=
  ⟨ht.once, fun j hj hfree => ⟨hbacked j hj hfree, ht.caller⟩, hwithdrawn⟩

/-- A call that held no claim moves on, and the claim is where it was. -/
theorem free_of_goto (hi : holds (s.calls i) = false)
    (h : ∀ j, holds ((s.goto i kind stage).calls j) = false) (j : Nat) :
    holds (s.calls j) = false := by
  by_cases hj : j = i
  · rwa [hj]
  · have := h j
    rwa [goto_of_ne hj] at this

theorem not_returned (h : s.calls i = some ⟨kind, stage⟩) (hstage : stage.result ≠ some ok) :
    ¬ Returned s i ok := by
  rintro ⟨stage', hret, hok⟩
  obtain ⟨-, rfl⟩ := Call.mk.inj (Option.some.inj (h.symm.trans hret))
  exact hstage hok

theorem Moves.truthful_iff (hmoves : Moves s a t) (hs : Inv s) (h : Truthful s) :
    Truthful t ↔ Kept s a := by
  have ht := hmoves.inv hs
  cases hmoves with
  | @begin i kind stage hnew hstage =>
      refine iff_of_true ?_ trivial
      have hnot : ∀ ok, ¬ Returned s i ok := by
        rintro ok ⟨stage', hret, -⟩
        cases hnew.symm.trans hret
      have hfree : holds (s.calls i) = false := by rw [hnew]; rfl
      refine truthful_of ht (fun j hj hall => ?_) fun hone j hcaller hret => ?_
      · have htrue : stage.result ≠ some true := by rcases hstage with rfl | rfl <;> decide
        exact (h.backed j ((returned_goto htrue (hnot true)).mp hj) (free_of_goto hfree hall)).1
      · have hj : j ≠ i := by
          rintro rfl
          obtain ⟨kind', stage', hcall, -⟩ := hs.begun j hcaller
          cases hnew.symm.trans hcall
        exact h.withdrawn hone j hcaller ((returned_goto_of_ne hj).mp hret)
  | @set i kind hcall =>
      refine iff_of_true ?_ fun kind' hrel => (by cases hcall.symm.trans hrel)
      have hnot : ∀ ok, ¬ Returned (s.setPart i kind) i ok := fun ok => by
        cases kind <;> exact not_returned hcall (fun h => by cases h)
      have hfree : holds (s.calls i) = false := by rw [hcall]; rfl
      refine truthful_of ht (fun j hj hall => ?_) fun hone j hcaller hret => ?_
      · have hj' := (returned_goto (fun h => by cases h) (hnot true)).mp hj
        cases kind with
        | transform => exact (h.backed j hj' (free_of_goto hfree hall)).1
        | install => exact (h.backed j hj' (free_of_goto hfree hall)).1
      · have hret' := (returned_goto (fun h => by cases h) (hnot false)).mp hret
        cases kind with
        | transform =>
            obtain rfl := Option.some.inj hcaller
            exact hnot false hret'
        | install => exact h.withdrawn hone j hcaller hret'
  | @rely i kind hcall hclaimed =>
      refine iff_of_true ?_ fun kind' hrel => (by cases hcall.symm.trans hrel)
      refine truthful_of ht (fun j hj hall => ht.attached hclaimed hall)
        fun hone j hcaller hret => ?_
      have hnot : ¬ Returned s i false := not_returned hcall fun h => by cases h
      exact h.withdrawn hone j hcaller ((returned_goto (fun h => by cases h) hnot).mp hret)
  | @claim i kind hcall hfree =>
      refine iff_of_true ?_ fun kind' hrel => (by cases hcall.symm.trans hrel)
      refine truthful_of ht (fun j hj hall => ht.attached rfl hall) fun hone j hcaller hret => ?_
      have hnot : ¬ Returned { s with installed := true } i false :=
        not_returned hcall fun h => by cases h
      exact h.withdrawn hone j hcaller ((returned_goto (fun h => by cases h) hnot).mp hret)
  | @release i kind hcall =>
      have hzero := hs.not_attached (i := i) (by rw [hcall]; rfl)
      have hnot : ¬ Returned { s with installed := false } i true :=
        not_returned hcall fun h => by cases h
      have hreturned : ∀ j,
          Returned ({ s with installed := false }.goto i kind .failed) j true ↔
            s.calls j = some ⟨.transform, .relied⟩ := fun j =>
        Iff.trans (returned_goto (fun h => by cases h) hnot) (hs.returned_iff_relied hzero j)
      constructor
      · intro htruth kind' hrel j hj
        have hone := (htruth.backed j ((hreturned j).mpr hj) (ht.free rfl)).1
        cases hzero.symm.trans hone
      · intro hkept
        refine truthful_of ht (fun j hj _ => absurd ((hreturned j).mp hj) (hkept kind hcall j))
          fun hone => ?_
        cases hzero.symm.trans hone
  | @attach i kind hcall =>
      have hzero := hs.not_attached (i := i) (by rw [hcall]; rfl)
      have hnot : ¬ Returned { s with attached := s.attached + 1 } i false :=
        not_returned hcall fun h => by cases h
      have hreturned : ∀ j, Returned
          ({ s with attached := s.attached + 1 }.goto i kind .attached) j false ↔
            Returned s j false := fun j => returned_goto (fun h => by cases h) hnot
      have hone : s.attached + 1 = 1 := by rw [hzero]
      constructor
      · intro htruth j hcaller hj
        have hfailed := (hreturned j).mpr ((hs.returned_iff_failed hcaller).mpr hj)
        exact htruth.withdrawn hone j hcaller hfailed
      · intro hkept
        refine truthful_of ht (fun _ _ _ => hone) fun _ j hcaller hj => ?_
        exact hkept j hcaller ((hs.returned_iff_failed hcaller).mp ((hreturned j).mp hj))
  | @fail i kind hcall =>
      refine iff_of_true ?_ trivial
      have hzero := hs.not_attached (i := i) (by rw [hcall]; rfl)
      refine truthful_of ht (fun j _ hall => ?_) fun hone => ?_
      · have hi := hall i
        rw [goto_self] at hi
        cases hi
      · cases hzero.symm.trans hone

theorem inv_start (transceiverId : Nat) : Inv (machine transceiverId).start where
  claim := ⟨none, fun i => iff_of_false (fun h => by cases h) (fun h => by cases h), rfl, .inl rfl⟩
  caller := rfl
  begun i h := by cases h
  own i kind h := by cases h

/-- When all have returned nobody has the claim. -/
theorem Truthful.told (h : Truthful s) (hquiet : Quiet s) : Told s := by
  have hfree : ∀ j, holds (s.calls j) = false := by
    intro j
    cases hcall : s.calls j with
    | none => rfl
    | some call =>
        have hover := hquiet j call hcall
        obtain ⟨kind, stage⟩ := call
        cases stage with
        | attaching => exact absurd rfl hover
        | releasing => exact absurd rfl hover
        | _ => rfl
  exact ⟨h.once, fun i hi => h.backed i hi hfree,
    fun i hi hboth => h.withdrawn hboth.1 i hboth.2 hi⟩

/--
**When attach results tell the truth.**  The results are worth what they say at any moment of
a run exactly if no claim is given back once a transform call has found the slot claimed, and
no transformer is attached to the callback of a call whose own attach failed; and then they
are when all calls have returned.
-/
theorem along_truthful_iff (transceiverId : Nat) {as : List Action} {t : State}
    (hrun : (machine transceiverId).run (machine transceiverId).start as = some t) :
    ((machine transceiverId).Along Truthful (machine transceiverId).start as ↔
        (machine transceiverId).Guarded Kept (machine transceiverId).start as) ∧
      ((machine transceiverId).Guarded Kept (machine transceiverId).start as →
        (machine transceiverId).Along (fun s => Quiet s → Told s)
          (machine transceiverId).start as) := by
  have htruthful : Truthful (machine transceiverId).start :=
    truthful_of (inv_start transceiverId) (fun j ⟨stage, hj, _⟩ => by cases hj)
      fun hone => by cases hone
  have hiff := Machine.along_iff_guarded (M := machine transceiverId) (I := Inv) (P := Truthful)
    (G := Kept) (fun _ _ _ hs hstep => (step_moves hstep).inv hs)
    (fun _ _ _ hs h hstep => (step_moves hstep).truthful_iff hs h)
    (inv_start transceiverId) htruthful hrun
  exact ⟨hiff, fun hguarded => (hiff.mpr hguarded).mono fun s h hquiet => h.told hquiet⟩

/-- The second call finds the slot claimed by the first, whose attach then succeeds. -/
def backed : List Action :=
  [.begin 0 .transform, .step 0, .step 0, .begin 1 .transform, .step 1, .step 1, .native 0 true]

theorem quiet_backed :
    Quiet ((machine 5).final (machine 5).start backed (by decide +kernel)) := by
  intro i call hcall
  match i with
  | 0 =>
      obtain rfl : call = ⟨.transform, .attached⟩ := Option.some.inj (hcall.symm.trans rfl)
      decide
  | 1 =>
      obtain rfl : call = ⟨.transform, .relied⟩ := Option.some.inj (hcall.symm.trans rfl)
      decide
  | j + 2 => cases hcall.symm.trans (rfl : _ = none)

theorem kept_backed : (machine 5).Guarded Kept (machine 5).start backed := by
  -- no call of the run ever gives its claim back
  refine (Machine.guarded_cons _ rfl).mpr ⟨trivial, (Machine.guarded_cons _ rfl).mpr ⟨nofun,
    (Machine.guarded_cons _ rfl).mpr ⟨nofun, (Machine.guarded_cons _ rfl).mpr ⟨trivial,
      (Machine.guarded_cons _ rfl).mpr ⟨nofun, (Machine.guarded_cons _ rfl).mpr ⟨nofun,
        (Machine.guarded_cons _ rfl).mpr ⟨?_, trivial⟩⟩⟩⟩⟩⟩⟩
  intro j hcaller hfailed
  obtain rfl := Option.some.inj hcaller
  cases hfailed

/-- Both calls have returned, and the one transformer runs the second one's callback. -/
theorem along_truthful_iff_backed :
    Told ((machine 5).final (machine 5).start backed (by decide +kernel)) ∧
    Returned ((machine 5).final (machine 5).start backed (by decide +kernel)) 1 true ∧
    ((machine 5).final (machine 5).start backed (by decide +kernel)).attached = 1 ∧
    ((machine 5).final (machine 5).start backed (by decide +kernel)).caller = some 1 :=
  ⟨(((along_truthful_iff 5 ((machine 5).run_final _ backed (by decide +kernel))).2 kept_backed).last
      ((machine 5).run_final _ backed (by decide +kernel))) quiet_backed,
    ⟨.relied, rfl, rfl⟩, rfl, rfl⟩

/-- The second call finds the slot claimed by the first, whose attach then fails. -/
def relied : List Action :=
  [.begin 0 .transform, .step 0, .step 0, .begin 1 .transform, .step 1, .step 1,
    .native 0 false, .step 0]

/-- Both calls have returned, the second with `Ok`, and nothing is attached. -/
theorem relied_on_failure :
    ∃ t, (machine 5).run (machine 5).start relied = some t ∧ Quiet t ∧ ¬ Told t := by
  refine ⟨_, (machine 5).run_final (machine 5).start relied (by decide +kernel), ?_, ?_⟩
  · intro i call hcall
    match i with
    | 0 =>
        obtain rfl : call = ⟨.transform, .failed⟩ := Option.some.inj (hcall.symm.trans rfl)
        decide
    | 1 =>
        obtain rfl : call = ⟨.transform, .relied⟩ := Option.some.inj (hcall.symm.trans rfl)
        decide
    | j + 2 => cases hcall.symm.trans (rfl : _ = none)
  · intro h
    have hnone : ((machine 5).final (machine 5).start relied (by decide +kernel)).attached = 0 := by
      decide +kernel
    have hone := (h.backed 1 ⟨.relied, by decide +kernel, rfl⟩).1
    cases hnone.symm.trans hone

end ReactorWebrtc.Attaching
