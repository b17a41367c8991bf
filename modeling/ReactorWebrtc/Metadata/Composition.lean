/-
What a slot does once its parts are attached, whatever the order.

A caller's callback and a metadata step are attached to one slot, each any number of times.
Whichever is first hands out the native transformer, and the others find it installed.  So a
slot is what was attached last of each kind (`attachAll_eq`), and nothing else of the order
is left.

The callback keeps a state of its own, and so does the source of an Embed step.  Between
frames the track pushes to the source, the sink takes from the queue and the gate opens or
shuts, so these may change in any way (`Event`).

That two orders come to the same thing would be true as well of a slot that did nothing, so
`Treats` says what a frame must meet: the callback first, on the bytes as they came; then
nothing more if it drops the frame; else the step, on what the callback left, with the bytes
that result.  It is put in terms of the callback, the step and the source alone, and
`composition_unordered` has it of every slot that something was attached to, for every frame
that comes at it, whatever came before.
-/
import ReactorWebrtc.Metadata.Pipeline

namespace ReactorWebrtc

/-- A callback as the state it is in: what it makes of a frame, and its next state. -/
class EncodedCb (γ : Type) where
  call : γ → EncodedFrame → Answer × γ

/-- There may be no source. -/
instance {σ : Type} [SenderMetaSource σ] : SenderMetaSource (Option σ) where
  take
    | some source, frame =>
      let (m, source) := SenderMetaSource.take source frame
      (m, some source)
    | none, _ => (none, none)

/-- A slot with its callback, and with the source of its Embed step. -/
structure AttachedSlot (γ σ : Type) where
  caller : Option γ := none
  metaStep : Option MetaStep := none
  source : Option σ := none
  installed : Bool := false
  deriving DecidableEq, Repr

/-- A call of `attach_caller`, `attach_embed` or `attach_strip`. -/
inductive Attach (γ σ : Type)
  | caller (cb : γ)
  | embed (source : σ) (gate : Bool)
  | strip (queue : List (FrameKey × FrameMetadata))
  deriving DecidableEq, Repr

/-- What comes at the slot, or at what it shares with others, once all is attached. -/
inductive Event (σ : Type)
  | frame (f : EncodedFrame)
  | source (change : σ → σ)
  | gate (isOpen : Bool)
  | queue (change : List (FrameKey × FrameMetadata) → List (FrameKey × FrameMetadata))

/-- What is seen of one frame: the answer, the frame, and what was taken or queued. -/
structure Seen (σ : Type) where
  action : FrameAction
  frame : EncodedFrame
  source : Option σ
  metaStep : Option MetaStep
  deriving DecidableEq, Repr

namespace AttachedSlot

variable {γ σ : Type}

def setCaller (s : AttachedSlot γ σ) (cb : γ) : AttachedSlot γ σ := { s with caller := some cb }

/-- `set_meta`: the step, and its source if it has one. -/
def setMeta (s : AttachedSlot γ σ) (step : MetaStep) (source : Option σ) : AttachedSlot γ σ :=
  { s with metaStep := some step, source }

/-- True the first time it is called. -/
def claimInstall (s : AttachedSlot γ σ) : Bool × AttachedSlot γ σ :=
  (!s.installed, { s with installed := true })

/-- Whether there is a native transformer to attach, and the slot. -/
def attach (s : AttachedSlot γ σ) : Attach γ σ → Bool × AttachedSlot γ σ
  | .caller cb => (s.setCaller cb).claimInstall
  | .embed source gate => (s.setMeta (.embed gate) (some source)).claimInstall
  | .strip queue => (s.setMeta (.strip queue []) none).claimInstall

/-- How many native transformers are attached, all of them with success, and the slot. -/
def attachAll : AttachedSlot γ σ → List (Attach γ σ) → Nat × AttachedSlot γ σ
  | s, [] => (0, s)
  | s, a :: as =>
    let (native, s) := s.attach a
    let (attached, s) := attachAll s as
    (attached + if native then 1 else 0, s)

/-- The callback that was attached last. -/
def lastCaller : List (Attach γ σ) → Option γ
  | [] => none
  | a :: as => (lastCaller as).or (match a with | .caller cb => some cb | _ => none)

/-- The metadata step that was attached last, as it began. -/
def lastMeta : List (Attach γ σ) → Option (MetaStep × Option σ)
  | [] => none
  | a :: as => (lastMeta as).or (match a with
    | .caller _ => none
    | .embed source gate => some (.embed gate, some source)
    | .strip queue => some (.strip queue [], none))

variable [EncodedCb γ] [SenderMetaSource σ]

/-- What the callback makes of a frame. -/
def answer (s : AttachedSlot γ σ) (f : EncodedFrame) : Answer × Option γ :=
  match s.caller with
  | some cb =>
    let (answer, cb) := EncodedCb.call cb f
    (answer, some cb)
  | none => ({ action := .forward }, none)

/-- A frame passes: `ComposedSlot.run`, on what the callback makes of it. -/
def run (prost : Prost) (s : AttachedSlot γ σ) (f : EncodedFrame) :
    Outcome (Option σ) × AttachedSlot γ σ :=
  let answered := s.answer f
  let outcome := ComposedSlot.run { caller := s.caller.isSome, metaStep := s.metaStep } s.source
    prost answered.1 f
  (outcome, { s with
    caller := answered.2, metaStep := outcome.slot.metaStep, source := outcome.source })

/-- Without a transformer a frame passes as it is. -/
def pass (prost : Prost) (s : AttachedSlot γ σ) (f : EncodedFrame) :
    Seen σ × AttachedSlot γ σ :=
  if s.installed then
    let (outcome, s) := s.run prost f
    ({ action := outcome.action, frame := outcome.frame, source := s.source,
       metaStep := s.metaStep }, s)
  else
    ({ action := .forward, frame := f, source := s.source, metaStep := s.metaStep }, s)

/-- The slot after an event, and what is seen if it is a frame. -/
def next (prost : Prost) (s : AttachedSlot γ σ) : Event σ → Option (Seen σ) × AttachedSlot γ σ
  | .frame f =>
    let (seen, s) := s.pass prost f
    (some seen, s)
  | .source change => (none, { s with source := s.source.map change })
  | .gate isOpen => (none, { s with metaStep := s.metaStep.map fun
      | .embed _ => .embed isOpen
      | step => step })
  | .queue change => (none, { s with metaStep := s.metaStep.map fun
      | .strip queue seen => .strip (change queue) seen
      | step => step })

/-- What is seen of the frames, in order. -/
def observe (prost : Prost) : AttachedSlot γ σ → List (Event σ) → List (Seen σ)
  | _, [] => []
  | s, e :: es =>
    let (seen, s) := s.next prost e
    seen.toList ++ observe prost s es

/-! ### What the order leaves

The last callback and the last step decide, and the flag only counts the native
transformers: there is one as soon as anything is attached, and never a second.
-/

omit [EncodedCb γ] [SenderMetaSource σ] in
/-- The slot is what was attached last of each kind, and one transformer is attached. -/
theorem attachAll_eq (s : AttachedSlot γ σ) (as : List (Attach γ σ)) :
    s.attachAll as =
      (if as = [] ∨ s.installed then 0 else 1,
        { caller := (lastCaller as).or s.caller
          metaStep := ((lastMeta as).map Prod.fst).or s.metaStep
          source := ((lastMeta as).map Prod.snd).getD s.source
          installed := s.installed || !as.isEmpty }) := by
  induction as generalizing s with
  | nil => simp [attachAll, lastCaller, lastMeta]
  | cons a as ih =>
      rw [attachAll]
      dsimp only
      rw [ih]
      cases a with
      | caller cb =>
          cases hlast : lastCaller as <;> cases hinstalled : s.installed <;>
            simp [attach, setCaller, claimInstall, lastCaller, lastMeta, hlast, hinstalled]
      | embed source gate =>
          cases hlast : lastMeta as <;> cases hinstalled : s.installed <;>
            simp [attach, setMeta, claimInstall, lastCaller, lastMeta, hlast, hinstalled]
      | strip queue =>
          cases hlast : lastMeta as <;> cases hinstalled : s.installed <;>
            simp [attach, setMeta, claimInstall, lastCaller, lastMeta, hlast, hinstalled]

omit [EncodedCb γ] [SenderMetaSource σ] in
/-- Where nothing of either kind was attached, nothing was. -/
theorem isEmpty_iff (as : List (Attach γ σ)) :
    as.isEmpty = ((lastCaller as).isNone && (lastMeta as).isNone) := by
  cases as with
  | nil => rfl
  | cons a as =>
      cases a with
      | caller cb => cases hlast : lastCaller as <;> simp [lastCaller, hlast]
      | embed source gate => cases hlast : lastMeta as <;> simp [lastMeta, hlast]
      | strip queue => cases hlast : lastMeta as <;> simp [lastMeta, hlast]

omit [EncodedCb γ] [SenderMetaSource σ] in
theorem attachAll_congr (s : AttachedSlot γ σ) {as bs : List (Attach γ σ)}
    (hcaller : lastCaller as = lastCaller bs) (hmeta : lastMeta as = lastMeta bs) :
    (s.attachAll as).2 = (s.attachAll bs).2 := by
  simp only [attachAll_eq, isEmpty_iff, hcaller, hmeta]

/-! ### What one frame meets

`left` and `Drops` are what the callback makes of a frame; the step, if there is one, goes on
from there.
-/

/-- The frame as the callback leaves it. -/
def left (s : AttachedSlot γ σ) (f : EncodedFrame) : EncodedFrame :=
  match (s.answer f).1.data with
  | some data => f.replaceData data
  | none => f

/-- The callback drops the frame. -/
def Drops (s : AttachedSlot γ σ) (f : EncodedFrame) : Prop := (s.answer f).1.action = .drop

/-- What is to be seen of a frame that comes at the slot. -/
structure Treats (prost : Prost) (s : AttachedSlot γ σ) (f : EncodedFrame) (seen : Seen σ) :
    Prop where
  /-- Nothing is taken and nothing queued for a frame that the callback drops. -/
  dropped : s.Drops f → seen.action = .drop ∧ seen.metaStep = s.metaStep ∧ seen.source = s.source
  forwarded : ¬ s.Drops f → seen.action = .forward
  plain : ¬ s.Drops f → s.metaStep = none →
    seen.frame = s.left f ∧ seen.metaStep = none ∧ seen.source = s.source
  /-- The source of an Embed step is asked, with the gate open or shut. -/
  taken : ¬ s.Drops f → ∀ gate, s.metaStep = some (.embed gate) →
    seen.metaStep = some (.embed gate) ∧
      seen.source = (SenderMetaSource.take s.source (s.left f)).2
  shut : ¬ s.Drops f → s.metaStep = some (.embed false) → seen.frame = s.left f
  bare : ¬ s.Drops f → ∀ gate, s.metaStep = some (.embed gate) →
    (SenderMetaSource.take s.source (s.left f)).1 = none → seen.frame = s.left f
  embedded : ¬ s.Drops f → s.metaStep = some (.embed true) →
    ∀ m, (SenderMetaSource.take s.source (s.left f)).1 = some m →
      seen.frame = (s.left f).replaceData ((s.left f).currentData ++ encodeTrailer prost m)
  stripped : ¬ s.Drops f → ∀ queue keys, s.metaStep = some (.strip queue keys) →
    ∀ m rest, decodeAndStripTrailer prost (s.left f).currentData = some (m, rest) →
      seen.frame = (s.left f).replaceData rest ∧ seen.source = s.source ∧
      seen.metaStep = some (MetaStep.stripped queue keys
        { ssrc := f.ssrc, rtpTimestamp := f.timestamp } m)
  untouched : ¬ s.Drops f → ∀ queue keys, s.metaStep = some (.strip queue keys) →
    decodeAndStripTrailer prost (s.left f).currentData = none →
      seen.frame = s.left f ∧ seen.source = s.source ∧ seen.metaStep = s.metaStep

omit [SenderMetaSource σ] in
/-- Only a callback drops. -/
theorem drops_iff (s : AttachedSlot γ σ) (f : EncodedFrame) :
    s.Drops f ↔ s.caller.isSome = true ∧ (s.answer f).1.action = .drop := by
  refine ⟨fun h => ⟨?_, h⟩, And.right⟩
  unfold Drops answer at h
  cases hcaller : s.caller with
  | none =>
      rw [hcaller] at h
      cases h
  | some cb => rfl

omit [SenderMetaSource σ] in
theorem called_eq_left (s : AttachedSlot γ σ) (metaStep : Option MetaStep) (f : EncodedFrame) :
    ComposedSlot.called { caller := s.caller.isSome, metaStep } (s.answer f).1 f = s.left f := by
  unfold ComposedSlot.called left answer
  cases s.caller with
  | none => rfl
  | some cb =>
      dsimp only
      cases (EncodedCb.call cb f).1.data <;> rfl

/-- Whatever the step, the callback is called with the frame as it came. -/
theorem run_caller (prost : Prost) (s : AttachedSlot γ σ) (f : EncodedFrame) :
    (s.run prost f).2.caller = s.caller.map fun cb => (EncodedCb.call cb f).2 := by
  unfold run answer
  cases s.caller <;> rfl

/-- What is seen where the transformer is installed. -/
def seenOf (r : Outcome (Option σ) × AttachedSlot γ σ) : Seen σ :=
  { action := r.1.action, frame := r.1.frame, source := r.2.source, metaStep := r.2.metaStep }

theorem pass_installed (prost : Prost) {s : AttachedSlot γ σ} (h : s.installed = true)
    (f : EncodedFrame) : s.pass prost f = (seenOf (s.run prost f), (s.run prost f).2) := by
  unfold pass
  rw [if_pos h]
  rfl

theorem run_drop (prost : Prost) {s : AttachedSlot γ σ} {f : EncodedFrame} (h : s.Drops f) :
    (s.run prost f).1.action = .drop ∧ (s.run prost f).2.metaStep = s.metaStep ∧
      (s.run prost f).2.source = s.source := by
  obtain ⟨hcaller, hdrop⟩ := (drops_iff s f).mp h
  have hrun := @ComposedSlot.run_drop _ _ s.source prost ⟨s.caller.isSome, s.metaStep⟩ _ f
    hcaller hdrop
  unfold run
  dsimp only
  rw [hrun]
  exact ⟨rfl, rfl, rfl⟩

theorem run_plain (prost : Prost) {s : AttachedSlot γ σ} {f : EncodedFrame} (h : ¬ s.Drops f)
    (hstep : s.metaStep = none) :
    seenOf (s.run prost f) =
      { action := .forward, frame := s.left f, source := s.source, metaStep := none } := by
  have hrun := @ComposedSlot.run_plain _ _ s.source prost ⟨s.caller.isSome, s.metaStep⟩
    (s.answer f).1 f hstep (fun hd => h ((drops_iff s f).mpr hd))
  rw [called_eq_left] at hrun
  unfold run
  dsimp only
  rw [hrun]
  exact congrArg (Seen.mk _ _ _) hstep

theorem run_embed (prost : Prost) {s : AttachedSlot γ σ} {f : EncodedFrame} (h : ¬ s.Drops f)
    {gate : Bool} (hstep : s.metaStep = some (.embed gate)) :
    seenOf (s.run prost f) =
      { action := .forward
        frame :=
          match if gate then (SenderMetaSource.take s.source (s.left f)).1 else none with
          | some m => (s.left f).replaceData ((s.left f).currentData ++ encodeTrailer prost m)
          | none => s.left f
        source := (SenderMetaSource.take s.source (s.left f)).2
        metaStep := some (.embed gate) } := by
  have hrun := @ComposedSlot.run_embed _ _ s.source prost ⟨s.caller.isSome, s.metaStep⟩
    (s.answer f).1 f _ hstep (fun hd => h ((drops_iff s f).mpr hd))
  rw [called_eq_left] at hrun
  unfold run
  dsimp only
  rw [hrun]
  exact congrArg (Seen.mk _ _ _) hstep

theorem run_strip (prost : Prost) {s : AttachedSlot γ σ} {f : EncodedFrame} (h : ¬ s.Drops f)
    {queue : List (FrameKey × FrameMetadata)} {keys : List FrameKey}
    (hstep : s.metaStep = some (.strip queue keys)) :
    seenOf (s.run prost f) =
      match decodeAndStripTrailer prost (s.left f).currentData with
      | some (m, rest) =>
        { action := .forward, frame := (s.left f).replaceData rest, source := s.source
          metaStep := some (MetaStep.stripped queue keys
            { ssrc := f.ssrc, rtpTimestamp := f.timestamp } m) }
      | none =>
        { action := .forward, frame := s.left f, source := s.source
          metaStep := some (.strip queue keys) } := by
  have hrun := @ComposedSlot.run_strip _ _ s.source prost ⟨s.caller.isSome, s.metaStep⟩
    (s.answer f).1 f _ _ hstep (fun hd => h ((drops_iff s f).mpr hd)) _ rfl
  rw [called_eq_left] at hrun
  unfold run
  dsimp only
  rw [hrun]
  cases decodeAndStripTrailer prost (s.left f).currentData with
  | none => exact congrArg (Seen.mk _ _ _) hstep
  | some stripped => rfl

/-- The slot treats every frame as its callback and its step have it. -/
theorem run_treats (prost : Prost) (s : AttachedSlot γ σ) (f : EncodedFrame) :
    Treats prost s f (seenOf (s.run prost f)) where
  dropped h := run_drop prost h
  forwarded h := by
    cases hstep : s.metaStep with
    | none => rw [run_plain prost h hstep]
    | some step =>
        cases step with
        | embed gate => rw [run_embed prost h hstep]
        | strip queue keys =>
            rw [run_strip prost h hstep]
            cases decodeAndStripTrailer prost (s.left f).currentData <;> rfl
  plain h hstep := by
    rw [run_plain prost h hstep]
    exact ⟨rfl, rfl, rfl⟩
  taken h gate hstep := by
    rw [run_embed prost h hstep]
    exact ⟨rfl, rfl⟩
  shut h hstep := by
    rw [run_embed prost h hstep]
    rfl
  bare h gate hstep hnone := by
    rw [run_embed prost h hstep, hnone]
    cases gate <;> rfl
  embedded h hstep m hm := by
    rw [run_embed prost h hstep, hm]
    rfl
  stripped h queue keys hstep m rest hdecoded := by
    rw [run_strip prost h hstep, hdecoded]
    exact ⟨rfl, rfl, rfl⟩
  untouched h queue keys hstep hdecoded := by
    rw [run_strip prost h hstep, hdecoded]
    exact ⟨rfl, rfl, hstep.symm⟩

/-! ### All that follows

The events after the attaching are taken one by one; the transformer stays installed, and a
frame among them meets the slot as the events before it left it.
-/

/-- The frames among the events, as they come. -/
def frames : List (Event σ) → List EncodedFrame
  | [] => []
  | .frame f :: es => f :: frames es
  | _ :: es => frames es

/-- The slot once the events are over. -/
def after (prost : Prost) : AttachedSlot γ σ → List (Event σ) → AttachedSlot γ σ
  | s, [] => s
  | s, e :: es => after prost (s.next prost e).2 es

theorem after_append (prost : Prost) (s : AttachedSlot γ σ) (es es' : List (Event σ)) :
    after prost s (es ++ es') = after prost (after prost s es) es' := by
  induction es generalizing s with
  | nil => rfl
  | cons e es ih => exact ih _

theorem observe_append (prost : Prost) (s : AttachedSlot γ σ) (es es' : List (Event σ)) :
    observe prost s (es ++ es') = observe prost s es ++ observe prost (after prost s es) es' := by
  induction es generalizing s with
  | nil => rfl
  | cons e es ih =>
      rw [List.cons_append, observe, observe]
      dsimp only
      rw [ih, List.append_assoc]
      rfl

theorem next_installed (prost : Prost) {s : AttachedSlot γ σ} (h : s.installed = true)
    (e : Event σ) : (s.next prost e).2.installed = true := by
  cases e with
  | frame f =>
      show (s.pass prost f).2.installed = true
      rw [pass_installed prost h]
      exact h
  | source change | gate isOpen | queue change => exact h

theorem after_installed (prost : Prost) {s : AttachedSlot γ σ} (h : s.installed = true)
    (es : List (Event σ)) : (after prost s es).installed = true := by
  induction es generalizing s with
  | nil => exact h
  | cons e es ih => exact ih (next_installed prost h e)

/-- The callback has seen the frames as they came, each once and in order. -/
theorem after_caller (prost : Prost) {s : AttachedSlot γ σ} (h : s.installed = true)
    (events : List (Event σ)) :
    (after prost s events).caller = s.caller.map fun cb =>
      (frames events).foldl (fun cb f => (EncodedCb.call cb f).2) cb := by
  induction events generalizing s with
  | nil => exact (Option.map_id' (x := s.caller)).symm
  | cons e events ih =>
      have hinstalled := next_installed prost h e
      cases e with
      | frame f =>
          have hnext : (s.next prost (.frame f)).2 = (s.run prost f).2 := by
            show (s.pass prost f).2 = _
            rw [pass_installed prost h]
          rw [hnext] at hinstalled
          rw [after, hnext, ih hinstalled, run_caller, Option.map_map]
          rfl
      | source change | gate isOpen | queue change => exact ih hinstalled

/-- A frame after other events is seen as it is treated, and so is what it leaves. -/
theorem observe_frame (prost : Prost) {s : AttachedSlot γ σ} (h : s.installed = true)
    (events : List (Event σ)) (f : EncodedFrame) :
    ∃ seen, Treats prost (after prost s events) f seen ∧
      observe prost s (events ++ [.frame f]) = observe prost s events ++ [seen] ∧
      (after prost s (events ++ [.frame f])).metaStep = seen.metaStep ∧
      (after prost s (events ++ [.frame f])).source = seen.source := by
  have hpass := pass_installed prost (after_installed prost h events) f
  have hseen : observe prost (after prost s events) [.frame f] =
      [((after prost s events).pass prost f).1] := rfl
  have hafter : after prost s (events ++ [.frame f]) =
      ((after prost s events).pass prost f).2 := after_append prost s events [.frame f]
  refine ⟨_, run_treats prost (after prost s events) f, ?_, ?_, ?_⟩
  · rw [observe_append, hseen, hpass]
  · rw [hafter, hpass]
    rfl
  · rw [hafter, hpass]
    rfl

/--
**Composition does not depend on the order of attachment.**  Two slots to which the same
callback and the same step were attached last treat all that follows alike.  A slot to which
anything was attached holds the callback and the step that were attached last, behind one
native transformer; the callback sees every frame as it came; and each frame is treated as
the callback and the step then have it.
-/
theorem composition_unordered (prost : Prost) :
    (∀ (s : AttachedSlot γ σ) as bs, lastCaller as = lastCaller bs → lastMeta as = lastMeta bs →
      ∀ events, observe prost (s.attachAll as).2 events
        = observe prost (s.attachAll bs).2 events) ∧
    ∀ as : List (Attach γ σ), as ≠ [] →
      (({} : AttachedSlot γ σ).attachAll as).1 = 1 ∧
      (({} : AttachedSlot γ σ).attachAll as).2 =
        { caller := lastCaller as, metaStep := (lastMeta as).map Prod.fst
          source := (lastMeta as).bind Prod.snd, installed := true } ∧
      ∀ events,
        (after prost (({} : AttachedSlot γ σ).attachAll as).2 events).caller =
          (lastCaller as).map
            (fun cb => (frames events).foldl (fun cb f => (EncodedCb.call cb f).2) cb) ∧
        ∀ f, ∃ seen,
          Treats prost (after prost (({} : AttachedSlot γ σ).attachAll as).2 events) f seen ∧
          observe prost (({} : AttachedSlot γ σ).attachAll as).2 (events ++ [.frame f]) =
            observe prost (({} : AttachedSlot γ σ).attachAll as).2 events ++ [seen] ∧
          (after prost (({} : AttachedSlot γ σ).attachAll as).2
            (events ++ [.frame f])).metaStep = seen.metaStep ∧
          (after prost (({} : AttachedSlot γ σ).attachAll as).2
            (events ++ [.frame f])).source = seen.source := by
  refine ⟨fun s as bs hcaller hmeta events => ?_, fun as has => ?_⟩
  · rw [attachAll_congr s hcaller hmeta]
  · have hslot : ({} : AttachedSlot γ σ).attachAll as =
        (1, { caller := lastCaller as, metaStep := (lastMeta as).map Prod.fst
              source := (lastMeta as).bind Prod.snd, installed := true }) := by
      rw [attachAll_eq]
      cases lastMeta as <;> simp [has]
    refine ⟨by rw [hslot], by rw [hslot], fun events => ⟨?_, fun f => ?_⟩⟩
    · rw [hslot]
      exact after_caller prost rfl events
    · rw [hslot]
      exact observe_frame prost rfl events f

/-- A callback that answers from a list, and forwards once it is used up. -/
instance : EncodedCb (List Answer) where
  call
    | [], _ => ({ action := .forward }, [])
    | answer :: answers, _ => (answer, answers)

/-- A callback that replaces the payload of the first frame and drops the second. -/
def replaceThenDrop : List Answer := [{ action := .forward, data := some [9] }, { action := .drop }]

def oneEntry : FifoMeta where
  entries := [{ metadata := { frameId := 7 }, push := 0 }]

/-- The step first and then the callback, twice. -/
def stepFirst : List (Attach (List Answer) FifoMeta) :=
  [.embed oneEntry true, .caller [], .caller replaceThenDrop]

/-- The callback first, and a step that is replaced. -/
def callerFirst : List (Attach (List Answer) FifoMeta) :=
  [.caller replaceThenDrop, .strip [], .embed oneEntry true]

/-- Three frames; the gate is shut before the third. -/
def threeFrames : List (Event FifoMeta) :=
  [.frame { ssrc := 1, timestamp := 10, currentData := [1] },
   .frame { ssrc := 1, timestamp := 20, currentData := [2] },
   .gate false, .source fun _ => oneEntry,
   .frame { ssrc := 1, timestamp := 30, currentData := [3] }]

/-- In both orders the first frame leaves with the callback's byte and the trailer after it,
the second is dropped, and the third leaves as it came. -/
theorem composition_unordered_two_orders :
    observe proto3 (({} : AttachedSlot (List Answer) FifoMeta).attachAll stepFirst).2 threeFrames =
      observe proto3 (({} : AttachedSlot (List Answer) FifoMeta).attachAll callerFirst).2
        threeFrames ∧
    (({} : AttachedSlot (List Answer) FifoMeta).attachAll callerFirst).1 = 1 ∧
    ((observe proto3 (({} : AttachedSlot (List Answer) FifoMeta).attachAll callerFirst).2
        threeFrames).map fun seen => (seen.action, seen.frame.currentData)) =
      [(.forward, [9, 8, 7, 2, 0, 0, 0, 82, 88, 77, 84]), (.drop, [2]), (.forward, [3])] :=
  ⟨(composition_unordered proto3).1 {} stepFirst callerFirst (by decide) (by decide) threeFrames,
    ((composition_unordered proto3).2 callerFirst (by decide)).1, by decide⟩

end AttachedSlot

end ReactorWebrtc
