/-
Applying descriptions from several threads.

`DcNegotiation::apply` records a description, hands it to libwebrtc and, when that
refuses it, puts the record back, all of it under one lock.  Here every one of those
is a step of its own, for any number of calls: a call waits for the lock, records,
hears from the native side whenever that answers, undoes, and lets go.  What the
native side answers is part of the step's label.  A connection without settings does
not take part and hands the description straight on.

`order` is the only thing the code does not have: the calls in the order in which
they took the lock.  `Inv` says what the record is at every moment in terms of it.
Between two calls the state is what recording the descriptions that were not rejected
gives, in that order; inside a call it is one description ahead, and the snapshot the
call keeps is the state without it.
-/
import ReactorWebrtc.Lib.Lock
import ReactorWebrtc.Lib.Machine
import ReactorWebrtc.Negotiation.Record

namespace ReactorWebrtc

/-- How a description's native apply failed. -/
inductive ApplyError
  /-- libwebrtc refused the description: it was never applied. -/
  | rejected (e : Text)
  /-- libwebrtc did not answer in time. It may still apply the description. -/
  | unconfirmed (e : Text)
  deriving DecidableEq, Repr

def ApplyError.intoError : ApplyError → Text
  | .rejected e => e
  | .unconfirmed e => e

def isRejected : Except ApplyError Unit → Bool
  | .error (.rejected _) => true
  | _ => false

namespace Apply

/-- A description and the side it is applied on. -/
abbrev Request := Side × SessionDescription

/-- Where one `apply_local` or `apply_remote` call is. -/
inductive Call
  | idle
  /-- At the native call, on a connection without settings. -/
  | passing (r : Request)
  /-- At `self.applying.lock()`. -/
  | waiting (r : Request)
  | locked (r : Request)
  /-- The record is made, `before` kept; the native side has not answered. -/
  | recorded (r : Request) (before : NegotiationState)
  | answered (r : Request) (before : NegotiationState) (result : Except ApplyError Unit)
  /-- Past the undo, still under the lock. -/
  | undone (r : Request) (result : Except ApplyError Unit)
  | done (r : Request) (result : Except ApplyError Unit)
  /-- Done, without having taken part. -/
  | passed (r : Request) (result : Except ApplyError Unit)

structure State where
  state : NegotiationState := {}
  applying : Option Nat := none
  calls : Nat → Call := fun _ => .idle
  order : List Nat := []

inductive Action
  | call (i : Nat) (r : Request)
  | acquire (i : Nat)
  | record (i : Nat)
  | native (i : Nat) (result : Except ApplyError Unit)
  | undo (i : Nat)
  | release (i : Nat)

/-- What a call returns once it is over. -/
def Call.returned : Call → Option (Except Text Unit)
  | .done _ result | .passed _ result => some (result.mapError ApplyError.intoError)
  | _ => none

/-- Call `i` goes on to `c`. -/
def State.goto (s : State) (i : Nat) (c : Call) : State :=
  { s with calls := Function.update s.calls i c }

def step (settings : Option DcChunking) (s : State) : Action → Option State
  | .call i r =>
    match s.calls i with
    | .idle => some (s.goto i (if settings.isNone then .passing r else .waiting r))
    | _ => none
  | .acquire i =>
    match s.calls i, s.applying with
    | .waiting r, none =>
      some { s.goto i (.locked r) with applying := some i, order := s.order ++ [i] }
    | _, _ => none
  | .record i =>
    match s.calls i with
    | .locked r =>
      some { s.goto i (.recorded r s.state) with state := s.state.record r.1 r.2 }
    | _ => none
  | .native i result =>
    match s.calls i with
    | .recorded r before => some (s.goto i (.answered r before result))
    | .passing r =>
      some (s.goto i (.passed r result))
    | _ => none
  | .undo i =>
    match s.calls i with
    | .answered r before result =>
      some { s.goto i (.undone r result) with
        state := if isRejected result then before else s.state }
    | _ => none
  | .release i =>
    match s.calls i with
    | .undone r result =>
      some { s.goto i (.done r result) with applying := none }
    | _ => none

def machine (settings : Option DcChunking) : Machine State Action :=
  { start := {}, step := step settings }

/-! ### What one step does

One lemma a label, with the stage the call was at and the state it leaves.
-/

variable {settings : Option DcChunking} {s t : State} {i : Nat}

theorem step_call {r : Request} (h : step settings s (.call i r) = some t) :
    s.calls i = .idle ∧ t = s.goto i (if settings.isNone then .passing r else .waiting r) := by
  simp only [step] at h
  split at h
  · rename_i hc
    exact ⟨hc, (Option.some.inj h).symm⟩
  · cases h

theorem step_acquire (h : step settings s (.acquire i) = some t) :
    ∃ r, s.calls i = .waiting r ∧ s.applying = none ∧
      t = { s.goto i (.locked r) with applying := some i, order := s.order ++ [i] } := by
  simp only [step] at h
  split at h
  · rename_i r hc hlock
    exact ⟨r, hc, hlock, (Option.some.inj h).symm⟩
  · cases h

theorem step_record (h : step settings s (.record i) = some t) :
    ∃ r, s.calls i = .locked r ∧
      t = { s.goto i (.recorded r s.state) with state := s.state.record r.1 r.2 } := by
  simp only [step] at h
  split at h
  · rename_i r hc
    exact ⟨r, hc, (Option.some.inj h).symm⟩
  · cases h

theorem step_native {result : Except ApplyError Unit}
    (h : step settings s (.native i result) = some t) :
    (∃ r before, s.calls i = .recorded r before ∧ t = s.goto i (.answered r before result)) ∨
      ∃ r, s.calls i = .passing r ∧ t = s.goto i (.passed r result) := by
  simp only [step] at h
  split at h
  · rename_i r before hc
    exact .inl ⟨r, before, hc, (Option.some.inj h).symm⟩
  · rename_i r hc
    exact .inr ⟨r, hc, (Option.some.inj h).symm⟩
  · cases h

theorem step_undo (h : step settings s (.undo i) = some t) :
    ∃ r before result, s.calls i = .answered r before result ∧
      t = { s.goto i (.undone r result) with
        state := if isRejected result then before else s.state } := by
  simp only [step] at h
  split at h
  · rename_i r before result hc
    exact ⟨r, before, result, hc, (Option.some.inj h).symm⟩
  · cases h

theorem step_release (h : step settings s (.release i) = some t) :
    ∃ r result, s.calls i = .undone r result ∧
      t = { s.goto i (.done r result) with applying := none } := by
  simp only [step] at h
  split at h
  · rename_i r result hc
    exact ⟨r, result, hc, (Option.some.inj h).symm⟩
  · cases h

/-! ### The record, call by call

The lock makes the calls come one after another, and what a call leaves of itself is known
only when it is answered.  So each stage says what its call has added so far (`ahead`) and
what the record would be without it.
-/

namespace Call

/-- Inside the lock. -/
def holds : Call → Bool
  | .locked _ | .recorded _ _ | .answered _ _ _ | .undone _ _ => true
  | _ => false

/-- Has taken the lock. -/
def entered : Call → Bool
  | .locked _ | .recorded _ _ | .answered _ _ _ | .undone _ _ | .done _ _ => true
  | _ => false

def finished : Call → Bool
  | .done _ _ | .passed _ _ => true
  | _ => false

def passes : Call → Bool
  | .passing _ | .passed _ _ => true
  | _ => false

/-- The description a call leaves recorded, once it is past its undo. -/
def survivor : Call → Option Request
  | .undone r result | .done r result => if isRejected result then none else some r
  | _ => none

/-- The description a call has recorded and may still undo, and the state without it. -/
def ahead : Call → Option (Request × NegotiationState)
  | .recorded r before | .answered r before _ => some (r, before)
  | _ => none

/-- What the call would put back: nothing, once it knows that it will not. -/
def undoTo : Call → Option NegotiationState
  | .recorded _ before => some before
  | .answered _ before result => if isRejected result then some before else none
  | _ => none

theorem holds_of_ahead {c : Call} {x : Request × NegotiationState} (h : c.ahead = some x) :
    c.holds = true := by
  cases c <;> first | rfl | cases h

end Call

/-- The descriptions that were not rejected, in the order their calls took the lock. -/
def State.survivors (s : State) : List Request := s.order.filterMap fun i => (s.calls i).survivor

/-- The state that recording those, and nothing else, gives. -/
def State.serial (s : State) : NegotiationState :=
  NegotiationState.recordAll {} s.survivors

/-- A call not in the list does not change what the list survives with. -/
private theorem filterMap_update {calls : Nat → Call} {c : Call} {js : List Nat} (h : i ∉ js) :
    js.filterMap (fun j => (Function.update calls i c j).survivor)
      = js.filterMap fun j => (calls j).survivor := by
  refine List.filterMap_congr fun j hj => ?_
  rw [Function.update_of_ne]
  rintro rfl
  exact h hj

/-- Only the survivor of the call that moves can change. -/
theorem serial_goto_same {c : Call} (h : c.survivor = (s.calls i).survivor) :
    (s.goto i c).serial = s.serial := by
  unfold State.serial State.survivors
  congr 1
  refine List.filterMap_congr fun j _ => ?_
  show (Function.update s.calls i c j).survivor = _
  by_cases hj : j = i
  · subst hj
    rw [Function.update_self, h]
  · rw [Function.update_of_ne hj]

/-- The last call to have taken the lock adds its own survivor at the end. -/
theorem serial_goto_last {c : Call} {earlier : List Nat} (horder : s.order = earlier ++ [i])
    (hi : i ∉ earlier) (hnone : (s.calls i).survivor = none) :
    (s.goto i c).serial = s.serial.recordAll c.survivor.toList := by
  have hold : s.survivors = earlier.filterMap fun j => (s.calls j).survivor := by
    unfold State.survivors
    rw [horder, List.filterMap_append]
    simp [hnone]
  have hnew : (s.goto i c).survivors
      = (earlier.filterMap fun j => (s.calls j).survivor) ++ c.survivor.toList := by
    show s.order.filterMap (fun j => (Function.update s.calls i c j).survivor) = _
    rw [horder, List.filterMap_append, filterMap_update hi]
    cases hc : c.survivor <;> simp [hc]
  unfold State.serial
  rw [hnew, hold, NegotiationState.recordAll_append]

/-- What holds between any two steps of any calls. -/
structure Inv (settings : Option DcChunking) (s : State) : Prop where
  owns : Lock.Owns Call.holds s.applying s.calls
  entered : ∀ i, i ∈ s.order ↔ (s.calls i).entered = true
  nodup : s.order.Nodup
  /-- The call inside is the last to have taken the lock. -/
  last : ∀ i, s.applying = some i → ∃ earlier, s.order = earlier ++ [i]
  /-- With nothing recorded ahead, the state is the serial one. -/
  between : (∀ i, (s.calls i).ahead = none) → s.state = s.serial
  /-- Otherwise it is one description ahead of it, and the snapshot is the serial one. -/
  ahead : ∀ i r before, (s.calls i).ahead = some (r, before) →
    before = s.serial ∧ s.state = before.record r.1 r.2
  takesPart : settings.isSome = true → ∀ i, (s.calls i).passes = false

theorem goto_self (s : State) (i : Nat) (c : Call) : (s.goto i c).calls i = c :=
  Function.update_self ..

theorem goto_of_ne (s : State) {i j : Nat} (c : Call) (h : j ≠ i) :
    (s.goto i c).calls j = s.calls j := Function.update_of_ne h ..

/-- A feature of the calls that the move of one of them does not change. -/
private theorem goto_feature {β : Type} (f : Call → β) {c : Call} (h : f c = f (s.calls i))
    (j : Nat) : f ((s.goto i c).calls j) = f (s.calls j) := by
  by_cases hj : j = i
  · subst hj
    rw [goto_self, h]
  · rw [goto_of_ne s c hj]

theorem inv_start (settings : Option DcChunking) : Inv settings {} where
  owns i := by
    constructor
    · intro h
      cases h
    · intro h
      cases h
  entered i := by
    constructor
    · intro h
      cases h
    · intro h
      cases h
  nodup := List.nodup_nil
  last i h := by cases h
  between _ := rfl
  ahead i r before h := by cases h
  takesPart _ _ := rfl

/-- A call that moves on without touching the lock, the record or its own outcome. -/
theorem Inv.goto (h : Inv settings s) {c : Call} (hholds : c.holds = (s.calls i).holds)
    (hentered : c.entered = (s.calls i).entered) (hsurvivor : c.survivor = (s.calls i).survivor)
    (hahead : c.ahead = (s.calls i).ahead)
    (hpasses : settings.isSome = true → c.passes = false) : Inv settings (s.goto i c) where
  owns := h.owns.keep hholds
  entered j := by
    rw [goto_feature Call.entered hentered j]
    exact h.entered j
  nodup := h.nodup
  last := h.last
  between hnone := by
    rw [serial_goto_same hsurvivor]
    exact h.between fun j => by rw [← goto_feature Call.ahead hahead j]; exact hnone j
  ahead j r before hj := by
    rw [goto_feature Call.ahead hahead j] at hj
    rw [serial_goto_same hsurvivor]
    exact h.ahead j r before hj
  takesPart hs j := by
    by_cases hj : j = i
    · subst hj
      rw [goto_self]
      exact hpasses hs
    · rw [goto_of_ne s c hj]
      exact h.takesPart hs j

/-- Nothing is recorded ahead while another call is inside, or none is. -/
theorem Inv.ahead_none (h : Inv settings s) (hi : s.applying = some i ∨ s.applying = none)
    (hc : (s.calls i).ahead = none) (j : Nat) : (s.calls j).ahead = none := by
  by_contra hne
  obtain ⟨x, hx⟩ := Option.ne_none_iff_exists'.mp hne
  have hj : s.applying = some j := (h.owns j).mp (Call.holds_of_ahead hx)
  rcases hi with hi | hi
  · obtain rfl : i = j := Option.some.inj (hi.symm.trans hj)
    rw [hc] at hx
    cases hx
  · rw [hi] at hj
    cases hj

theorem Inv.acquire (h : Inv settings s) {r : Request} (hc : s.calls i = .waiting r)
    (hlock : s.applying = none) :
    Inv settings { s.goto i (.locked r) with applying := some i, order := s.order ++ [i] } := by
  have hfresh : i ∉ s.order := by
    rw [h.entered i, hc]
    simp [Call.entered]
  have hserial : State.serial { s.goto i (.locked r) with
      applying := some i, order := s.order ++ [i] } = s.serial := by
    unfold State.serial State.survivors
    show NegotiationState.recordAll {} ((s.order ++ [i]).filterMap
      fun j => (Function.update s.calls i (.locked r) j).survivor) = _
    rw [List.filterMap_append, filterMap_update hfresh]
    simp [Call.survivor]
  have hnone : ∀ j, (s.calls j).ahead = none :=
    h.ahead_none (.inr hlock) (by rw [hc]; rfl)
  refine ⟨?_, ?_, ?_, ?_, ?_, ?_, ?_⟩
  · have howns := h.owns
    rw [hlock] at howns
    exact howns.take rfl
  · intro j
    show j ∈ s.order ++ [i] ↔ ((s.goto i (.locked r)).calls j).entered = true
    rw [List.mem_append, List.mem_singleton, h.entered j]
    by_cases hj : j = i
    · subst hj
      simp [goto_self, Call.entered]
    · simp [goto_of_ne s _ hj, hj]
  · refine List.nodup_append.mpr ⟨h.nodup, by simp, ?_⟩
    intro a ha b hb hab
    rw [List.mem_singleton] at hb
    exact hfresh (by rwa [← hb, ← hab])
  · intro j hj
    obtain rfl : i = j := Option.some.inj hj
    exact ⟨s.order, rfl⟩
  · intro _
    rw [hserial]
    exact h.between hnone
  · intro j r' before hj
    have hahead := goto_feature (s := s) (i := i) (c := .locked r) Call.ahead (by rw [hc]; rfl) j
    have hj' : ((s.goto i (.locked r)).calls j).ahead = some (r', before) := hj
    rw [hahead, hnone j] at hj'
    cases hj'
  · intro hs j
    have hpass := goto_feature (s := s) (i := i) (c := .locked r) Call.passes (by rw [hc]; rfl) j
    exact hpass.trans (h.takesPart hs j)

theorem Inv.record (h : Inv settings s) {r : Request} (hc : s.calls i = .locked r) :
    Inv settings { s.goto i (.recorded r s.state) with state := s.state.record r.1 r.2 } := by
  have hlock : s.applying = some i := (h.owns i).mp (by rw [hc]; rfl)
  have hnone : ∀ j, (s.calls j).ahead = none :=
    h.ahead_none (.inl hlock) (by rw [hc]; rfl)
  have hserial : (s.goto i (.recorded r s.state)).serial = s.serial :=
    serial_goto_same (by rw [hc]; rfl)
  have hbetween : s.state = s.serial := h.between hnone
  refine ⟨h.owns.keep (by rw [hc]; rfl), ?_, h.nodup, h.last, ?_, ?_, ?_⟩
  · intro j
    exact (h.entered j).trans (by rw [goto_feature Call.entered (by rw [hc]; rfl) j])
  · intro hall
    have hi := hall i
    have hi' : ((s.goto i (.recorded r s.state)).calls i).ahead = none := hi
    rw [goto_self] at hi'
    cases hi'
  · intro j r' before hj
    show before = (s.goto i (.recorded r s.state)).serial ∧ _
    have hj' : ((s.goto i (.recorded r s.state)).calls j).ahead = some (r', before) := hj
    by_cases hji : j = i
    · subst hji
      rw [goto_self] at hj'
      obtain ⟨rfl, rfl⟩ : r = r' ∧ s.state = before := by simpa [Call.ahead] using hj'
      exact ⟨by rw [hserial]; exact hbetween, rfl⟩
    · rw [goto_of_ne s _ hji, hnone j] at hj'
      cases hj'
  · intro hs j
    exact (goto_feature Call.passes (by rw [hc]; rfl) j).trans (h.takesPart hs j)

theorem Inv.undo (h : Inv settings s) {r : Request} {before : NegotiationState}
    {result : Except ApplyError Unit} (hc : s.calls i = .answered r before result) :
    Inv settings { s.goto i (.undone r result) with
      state := if isRejected result then before else s.state } := by
  have hlock : s.applying = some i := (h.owns i).mp (by rw [hc]; rfl)
  obtain ⟨hbefore, hstate⟩ := h.ahead i r before (by rw [hc]; rfl)
  obtain ⟨earlier, horder⟩ := h.last i hlock
  have hi : i ∉ earlier := by
    have hnodup := h.nodup
    rw [horder] at hnodup
    intro hmem
    exact (List.nodup_append.mp hnodup).2.2 i hmem i (by simp) rfl
  have hserial : (s.goto i (.undone r result)).serial
      = s.serial.recordAll (Call.undone r result).survivor.toList :=
    serial_goto_last horder hi (by rw [hc]; rfl)
  have hothers : ∀ j, j ≠ i → (s.calls j).ahead = none := by
    intro j hj
    by_contra hne
    obtain ⟨x, hx⟩ := Option.ne_none_iff_exists'.mp hne
    exact hj (h.owns.unique (Call.holds_of_ahead hx) (by rw [hc]; rfl))
  refine ⟨h.owns.keep (by rw [hc]; rfl), ?_, h.nodup, h.last, ?_, ?_, ?_⟩
  · intro j
    exact (h.entered j).trans (by rw [goto_feature Call.entered (by rw [hc]; rfl) j])
  · intro _
    show (if isRejected result then before else s.state) = (s.goto i (.undone r result)).serial
    rw [hserial]
    by_cases hrej : isRejected result = true
    · rw [if_pos hrej, hbefore]
      simp [Call.survivor, hrej]
    · rw [if_neg hrej, hstate, hbefore]
      simp [Call.survivor, hrej, NegotiationState.recordAll]
  · intro j r' b hj
    have hj' : ((s.goto i (.undone r result)).calls j).ahead = some (r', b) := hj
    by_cases hji : j = i
    · subst hji
      rw [goto_self] at hj'
      cases hj'
    · rw [goto_of_ne s _ hji, hothers j hji] at hj'
      cases hj'
  · intro hs j
    exact (goto_feature Call.passes (by rw [hc]; rfl) j).trans (h.takesPart hs j)

theorem Inv.release (h : Inv settings s) {r : Request} {result : Except ApplyError Unit}
    (hc : s.calls i = .undone r result) :
    Inv settings { s.goto i (.done r result) with applying := none } := by
  have hlock : s.applying = some i := (h.owns i).mp (by rw [hc]; rfl)
  have hserial : (s.goto i (.done r result)).serial = s.serial :=
    serial_goto_same (by rw [hc]; rfl)
  have hnone : ∀ j, (s.calls j).ahead = none :=
    h.ahead_none (.inl hlock) (by rw [hc]; rfl)
  refine ⟨h.owns.release (by rw [hc]; rfl) rfl, ?_, h.nodup, ?_, ?_, ?_, ?_⟩
  · intro j
    exact (h.entered j).trans (by rw [goto_feature Call.entered (by rw [hc]; rfl) j])
  · intro j hj
    cases hj
  · intro _
    exact (h.between hnone).trans hserial.symm
  · intro j r' b hj
    have hahead := goto_feature (s := s) (i := i) (c := .done r result) Call.ahead
      (by rw [hc]; rfl) j
    have hj' : ((s.goto i (.done r result)).calls j).ahead = some (r', b) := hj
    rw [hahead, hnone j] at hj'
    cases hj'
  · intro hs j
    exact (goto_feature Call.passes (by rw [hc]; rfl) j).trans (h.takesPart hs j)

theorem inv_step (h : Inv settings s) {a : Action} (hstep : step settings s a = some t) :
    Inv settings t := by
  cases a with
  | call i r =>
      obtain ⟨hc, rfl⟩ := step_call hstep
      cases hs : settings with
      | none =>
          rw [hs] at h
          exact h.goto (by rw [hc]; rfl) (by rw [hc]; rfl) (by rw [hc]; rfl) (by rw [hc]; rfl)
            (fun hsome => by cases hsome)
      | some settings =>
          rw [hs] at h
          exact h.goto (by rw [hc]; rfl) (by rw [hc]; rfl) (by rw [hc]; rfl) (by rw [hc]; rfl)
            (fun _ => rfl)
  | acquire i =>
      obtain ⟨r, hc, hlock, rfl⟩ := step_acquire hstep
      exact h.acquire hc hlock
  | record i =>
      obtain ⟨r, hc, rfl⟩ := step_record hstep
      exact h.record hc
  | native i result =>
      rcases step_native hstep with ⟨r, before, hc, rfl⟩ | ⟨r, hc, rfl⟩
      · exact h.goto (by rw [hc]; rfl) (by rw [hc]; rfl) (by rw [hc]; rfl) (by rw [hc]; rfl)
          (fun _ => rfl)
      · refine h.goto (by rw [hc]; rfl) (by rw [hc]; rfl) (by rw [hc]; rfl) (by rw [hc]; rfl) ?_
        intro hs
        have hi := h.takesPart hs i
        rw [hc] at hi
        exact hi
  | undo i =>
      obtain ⟨r, before, result, hc, rfl⟩ := step_undo hstep
      exact h.undo hc
  | release i =>
      obtain ⟨r, result, hc, rfl⟩ := step_release hstep
      exact h.release hc

theorem inv_reachable (h : (machine settings).Reachable s) : Inv settings s :=
  Machine.invariant (I := Inv settings) (inv_start settings)
    (fun _ _ _ hinv hstep => inv_step hinv hstep) h

/-! ### A rejected call

The snapshot is taken under the lock that the call still has when it puts it back, so
nothing that another call has recorded can be lost with it.
-/

/-- How far the call that took the lock in the state `before` has come. -/
def Since (before : NegotiationState) (i : Nat) (t : State) : Prop :=
  match t.calls i with
  | .locked _ => t.state = before
  | .recorded _ b | .answered _ b _ => b = before
  | .undone _ result => isRejected result = true → t.state = before
  | .done _ _ => True
  | _ => False

/-- Another call cannot disturb it: the lock keeps the state, the snapshot is its own. -/
private theorem Since.other {before : NegotiationState} {j : Nat} {c : Call}
    {state : NegotiationState} {applying : Option Nat} {order : List Nat} (h : Since before i s)
    (hj : j ≠ i) (hstate : (s.calls i).holds = true → state = s.state) :
    Since before i { s.goto j c with state, applying, order } := by
  have hcalls : (s.goto j c).calls i = s.calls i := goto_of_ne s c (Ne.symm hj)
  unfold Since at h ⊢
  simp only [hcalls]
  cases hc : s.calls i with
  | locked r =>
      rw [hc] at h hstate
      exact (hstate rfl).trans h
  | undone r result =>
      rw [hc] at h hstate
      intro hrej
      exact (hstate rfl).trans (h hrej)
  | _ =>
      rw [hc] at h
      exact h

theorem Since.step {before : NegotiationState} {a : Action} (hinv : Inv settings s)
    (h : Since before i s) (hstep : step settings s a = some t) : Since before i t := by
  have hholder : ∀ {j : Nat}, j ≠ i → (s.calls j).holds = true → (s.calls i).holds = true → False :=
    fun hj hjh hih => hj (hinv.owns.unique hjh hih)
  unfold Since at h
  cases a with
  | call j r =>
      obtain ⟨hc, rfl⟩ := step_call hstep
      refine Since.other h ?_ fun _ => rfl
      rintro rfl
      rw [hc] at h
      exact h
  | acquire j =>
      obtain ⟨r, hc, hlock, rfl⟩ := step_acquire hstep
      refine Since.other h ?_ fun _ => rfl
      rintro rfl
      rw [hc] at h
      exact h
  | record j =>
      obtain ⟨r, hc, rfl⟩ := step_record hstep
      by_cases hj : j = i
      · subst hj
        rw [hc] at h
        unfold Since
        simp only [goto_self]
        exact h
      · exact Since.other h hj fun hi => (hholder hj (by rw [hc]; rfl) hi).elim
  | native j result =>
      rcases step_native hstep with ⟨r, b, hc, rfl⟩ | ⟨r, hc, rfl⟩
      · by_cases hj : j = i
        · subst hj
          rw [hc] at h
          unfold Since
          simp only [goto_self]
          exact h
        · exact Since.other h hj fun _ => rfl
      · refine Since.other h ?_ fun _ => rfl
        rintro rfl
        rw [hc] at h
        exact h
  | undo j =>
      obtain ⟨r, b, result, hc, rfl⟩ := step_undo hstep
      by_cases hj : j = i
      · subst hj
        rw [hc] at h
        unfold Since
        simp only [goto_self]
        intro hrej
        rw [if_pos hrej]
        exact h
      · exact Since.other h hj fun hi => (hholder hj (by rw [hc]; rfl) hi).elim
  | release j =>
      obtain ⟨r, result, hc, rfl⟩ := step_release hstep
      by_cases hj : j = i
      · subst hj
        unfold Since
        simp only [goto_self]
      · exact Since.other h hj fun _ => rfl

/-- A call that comes out rejected leaves the state it found when it took the lock. -/
theorem rejected_restores (h : (machine settings).Reachable s) {as : List Action}
    (hrun : (machine settings).run s as = some t) {r r' : Request} {e : Text}
    (hs : s.calls i = .locked r) (ht : t.calls i = .undone r' (.error (.rejected e))) :
    t.state = s.state := by
  have hsince : Since s.state i s := by
    unfold Since
    rw [hs]
  have hboth : Inv settings t ∧ Since s.state i t :=
    Machine.run_invariant (I := fun u => Inv settings u ∧ Since s.state i u)
      (fun u a v hu huv => ⟨inv_step hu.1 huv, hu.2.step hu.1 huv⟩)
      ⟨inv_reachable h, hsince⟩ hrun
  have hend := hboth.2
  unfold Since at hend
  rw [ht] at hend
  exact hend rfl

/-! ### A settled state that has survived -/

/-- Settled, and no call under way would put back a state that is not. -/
def State.Survived (s : State) : Prop :=
  s.state.settled = true ∧ ∀ i b, (s.calls i).undoTo = some b → b.settled = true

/-- Settled with these parameters, in every state that can still come back. -/
structure Fixed (params : Option Params) (s : State) : Prop where
  settled : s.state.settled = true
  remote : s.state.remote = params
  undo : ∀ i b, (s.calls i).undoTo = some b → b.settled = true ∧ b.remote = params

private theorem ahead_of_undoTo {c : Call} {b : NegotiationState} (h : c.undoTo = some b) :
    ∃ r, c.ahead = some (r, b) := by
  cases c with
  | recorded r before =>
      obtain rfl : before = b := Option.some.inj h
      exact ⟨r, rfl⟩
  | answered r before result =>
      simp only [Call.undoTo] at h
      split at h
      · obtain rfl : before = b := Option.some.inj h
        exact ⟨r, rfl⟩
      · cases h
  | _ => cases h

theorem State.Survived.fixed (h : s.Survived) (hinv : Inv settings s) :
    Fixed s.state.remote s where
  settled := h.1
  remote := rfl
  undo i b hb := by
    obtain ⟨r, hr⟩ := ahead_of_undoTo hb
    have hsettled : b.settled = true := h.2 i b hb
    rw [(hinv.ahead i r b hr).2]
    exact ⟨hsettled, (NegotiationState.record_of_settled hsettled r.1 r.2).2.symm⟩

/-- A call that moves keeps it when what it may put back is fixed too. -/
private theorem Fixed.goto {params : Option Params} (h : Fixed params s) {c : Call}
    {state : NegotiationState} {applying : Option Nat} {order : List Nat}
    (hstate : state.settled = true ∧ state.remote = params)
    (hundo : ∀ b, c.undoTo = some b → b.settled = true ∧ b.remote = params) :
    Fixed params { s.goto i c with state, applying, order } where
  settled := hstate.1
  remote := hstate.2
  undo j b hb := by
    have hb' : ((s.goto i c).calls j).undoTo = some b := hb
    by_cases hj : j = i
    · subst hj
      rw [goto_self] at hb'
      exact hundo b hb'
    · rw [goto_of_ne s c hj] at hb'
      exact h.undo j b hb'

theorem Fixed.step {params : Option Params} {a : Action} (h : Fixed params s)
    (hstep : step settings s a = some t) : Fixed params t := by
  have hstate : s.state.settled = true ∧ s.state.remote = params := ⟨h.settled, h.remote⟩
  cases a with
  | call j r =>
      obtain ⟨-, rfl⟩ := step_call hstep
      refine h.goto hstate fun b hb => ?_
      split at hb <;> cases hb
  | acquire j =>
      obtain ⟨r, -, -, rfl⟩ := step_acquire hstep
      exact h.goto hstate fun b hb => by cases hb
  | record j =>
      obtain ⟨r, -, rfl⟩ := step_record hstep
      have hrecord := NegotiationState.record_of_settled h.settled r.1 r.2
      refine h.goto ⟨hrecord.1, hrecord.2.trans h.remote⟩ fun b hb => ?_
      obtain rfl : s.state = b := Option.some.inj hb
      exact hstate
  | native j result =>
      rcases step_native hstep with ⟨r, before, hc, rfl⟩ | ⟨r, -, rfl⟩
      · refine h.goto hstate fun b hb => ?_
        obtain rfl : before = b := by
          simp only [Call.undoTo] at hb
          split at hb
          · exact Option.some.inj hb
          · cases hb
        exact h.undo j before (by rw [hc]; rfl)
      · exact h.goto hstate fun b hb => by cases hb
  | undo j =>
      obtain ⟨r, before, result, hc, rfl⟩ := step_undo hstep
      refine h.goto ?_ fun b hb => by cases hb
      split
      · rename_i hrej
        exact h.undo j before (by rw [hc]; simp [Call.undoTo, hrej])
      · exact hstate
  | release j =>
      obtain ⟨r, result, -, rfl⟩ := step_release hstep
      exact h.goto hstate fun b hb => by cases hb

theorem survived_fixed (h : (machine settings).Reachable s) (hs : s.Survived) {as : List Action}
    (hrun : (machine settings).run s as = some t) :
    t.state.settled = true ∧ t.state.remote = s.state.remote := by
  have hfixed : Fixed s.state.remote t :=
    Machine.run_invariant (fun _ _ _ hu huv => hu.step huv) (hs.fixed (inv_reachable h)) hrun
  exact ⟨hfixed.settled, hfixed.remote⟩

/--
**Concurrent applies are serial.**  With no call inside the lock, the state is what
recording the descriptions that were not rejected gives, in the order in which their
calls took the lock; a rejected call leaves the state it found; and a settled state
that no call can undo any more keeps `settled` and `remote` for good.
-/
theorem apply_serialisable (settings : Option DcChunking) {s t : State} {as : List Action}
    (h : (machine settings).Reachable s) (hrun : (machine settings).run s as = some t) :
    ((∀ i, (t.calls i).holds = false) → t.state = NegotiationState.recordAll {} t.survivors) ∧
    (t.order.Nodup ∧
      ∀ i, settings.isSome = true → (t.calls i).finished = true → i ∈ t.order) ∧
    (∀ i r r' e, s.calls i = .locked r → t.calls i = .undone r' (.error (.rejected e)) →
      t.state = s.state) ∧
    (s.Survived → t.state.settled = true ∧ t.state.remote = s.state.remote) := by
  have hinv : Inv settings t := inv_reachable (h.run hrun)
  refine ⟨?_, ⟨hinv.nodup, ?_⟩, ?_, fun hs => survived_fixed h hs hrun⟩
  · intro hfree
    refine hinv.between fun i => ?_
    by_contra hne
    obtain ⟨x, hx⟩ := Option.ne_none_iff_exists'.mp hne
    have hholds := Call.holds_of_ahead hx
    rw [hfree i] at hholds
    cases hholds
  · intro i hsome hfinished
    rw [hinv.entered i]
    have hpasses := hinv.takesPart hsome i
    cases hc : t.calls i with
    | done r result => rfl
    | passed r result =>
        rw [hc] at hpasses
        cases hpasses
    | _ =>
        rw [hc] at hfinished
        cases hfinished
  · intro i r r' e hs ht
    exact rejected_restores h hrun hs ht

/-- Two answers on their way, the first of them inside the lock. -/
def twoAnswers : State :=
  (machine (some {})).final {} [.call 0 (.remote, ⟨.answer, []⟩),
    .call 1 (.remote, ⟨.answer, []⟩), .acquire 0] rfl

/-- libwebrtc refuses the first. -/
def firstRefused : State :=
  (machine (some {})).final twoAnswers
    [.record 0, .native 0 (.error (.rejected [])), .undo 0] rfl

/-- It accepts the second. -/
def secondApplied : State :=
  (machine (some {})).final firstRefused
    [.release 0, .acquire 1, .record 1, .native 1 (.ok ()), .undo 1, .release 1] rfl

theorem apply_serialisable_two_answers :
    firstRefused.state = twoAnswers.state ∧
      secondApplied.state = NegotiationState.recordAll {} secondApplied.survivors ∧
      secondApplied.survivors = [(.remote, ⟨.answer, []⟩)] := by
  have htwo : (machine (some {})).Reachable twoAnswers :=
    Machine.Reachable.start.run (Machine.run_final ..)
  have hfirst : (machine (some {})).Reachable firstRefused := htwo.run (Machine.run_final ..)
  refine ⟨?_, ?_, rfl⟩
  · exact (apply_serialisable _ htwo (Machine.run_final ..)).2.2.1 0 _ _ _ rfl rfl
  · refine (apply_serialisable _ hfirst (Machine.run_final ..)).1 fun i => ?_
    match i with
    | 0 => rfl
    | 1 => rfl
    | _ + 2 => rfl

end Apply

end ReactorWebrtc
