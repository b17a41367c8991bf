/-
What the process knows of a native track, and the wrappers that know it.

Four maps are keyed by a native track's address: its metadata source, the queue for the
metadata it receives, whether it carries metadata at all, and who listens for encoder
feedback.  A wrapper fills them when it is made and clears them when it is dropped.  The first
two hold weak references, and a wrapper takes out its own; from the other two it takes out
whatever is there.

Several wrappers may be about one native track, and then they share its entries: the last to
be made has them.  So whichever of them goes first takes what the others rely on
(`follows_iff_alone`).  An address is used again only after the last wrapper on it is gone, so
wrappers of one address are of one track.

Somebody who looked a source up may keep it, as the slot of a sender does.
-/
import ReactorWebrtc.Lib.Machine
import ReactorWebrtc.Lib.WeakMap

namespace ReactorWebrtc.TrackRegistries

/-- What a wrapper registers depends on its encoder. -/
inductive Kind
  /-- A `Track`, without a custom encoder or with an inline one. -/
  | raw
  | inline
  /-- An `EncodedVideoTrack` around a `Track`. -/
  | encoded
  deriving DecidableEq, Repr

/-- A wrapper of a native video track. -/
structure Wrapper where
  nativeId : Nat
  kind : Kind
  metadataEnabled : Bool
  deriving DecidableEq, Repr

/-- A metadata source, by the wrapper that owns it. -/
inductive Source
  | senderMeta (owner : Nat)
  | senderMetaFifo (owner : Nat)
  deriving DecidableEq, Repr

/-- The wrapper it came with. -/
def Source.owner : Source → Nat
  | .senderMeta i | .senderMetaFifo i => i

/-- The wrappers there are, the four maps, and what is kept of them elsewhere. -/
structure State where
  wrappers : Nat → Option Wrapper := fun _ => none
  /-- How many wrappers have been made. -/
  made : Nat := 0
  registry : WeakMap Nat Source := fun _ => none
  /-- The queue of which wrapper. -/
  recvRegistry : WeakMap Nat Nat := fun _ => none
  /-- The flag, and who registered it, which the code does not know. -/
  allowedRegistry : Nat → Option (Bool × Nat) := fun _ => none
  /-- The listeners of which wrapper. -/
  feedbackBindings : Nat → Option Nat := fun _ => none
  /-- What others keep that they looked up. -/
  heldSources : List Source := []
  heldQueues : List Nat := []

namespace State

/-- A source lives as long as its wrapper, or as somebody keeps it. -/
def sourceAlive (s : State) (x : Source) : Bool :=
  (s.wrappers x.owner).isSome || decide (x ∈ s.heldSources)

/-- The same of a queue of received metadata. -/
def queueAlive (s : State) (i : Nat) : Bool :=
  (s.wrappers i).isSome || decide (i ∈ s.heldQueues)

/-- The source under the address from now on, in place of any other. -/
def register (s : State) (trackId : Nat) (source : Source) : State :=
  if trackId = 0 then s else { s with registry := s.registry.register trackId source }

/-- Take the entry out, if it is this source. -/
def deregister (s : State) (trackId : Nat) (source : Source) : State :=
  if trackId = 0 then s else { s with registry := s.registry.deregister trackId source }

/-- What is under the address; an entry that is dead is taken out. -/
def lookup (s : State) (trackId : Nat) : Option Source × State :=
  if trackId = 0 then (none, s)
  else
    let (source, registry) := s.registry.lookup s.sourceAlive trackId
    (source, { s with registry })

/-- The same of a queue. -/
def registerReceiver (s : State) (trackId i : Nat) : State :=
  if trackId = 0 then s else { s with recvRegistry := s.recvRegistry.register trackId i }

/-- Take the entry out, if it is this queue. -/
def deregisterReceiver (s : State) (trackId i : Nat) : State :=
  if trackId = 0 then s else { s with recvRegistry := s.recvRegistry.deregister trackId i }

/-- The queue under the address. -/
def lookupReceiver (s : State) (trackId : Nat) : Option Nat × State :=
  if trackId = 0 then (none, s)
  else
    let (queue, recvRegistry) := s.recvRegistry.lookup s.queueAlive trackId
    (queue, { s with recvRegistry })

/-- The flag under the address from now on. -/
def registerAllowed (s : State) (trackId : Nat) (allowed : Bool) (i : Nat) : State :=
  if trackId = 0 then s
  else { s with allowedRegistry := Function.update s.allowedRegistry trackId (some (allowed, i)) }

/-- Take the flag out, whoever registered it. -/
def deregisterAllowed (s : State) (trackId : Nat) : State :=
  if trackId = 0 then s
  else { s with allowedRegistry := Function.update s.allowedRegistry trackId none }

/-- Unknown tracks default to true. -/
def allowed (s : State) (trackId : Nat) : Bool :=
  if trackId = 0 then true else ((s.allowedRegistry trackId).map Prod.fst).getD true

/-- The listeners under the address from now on. -/
def registerFeedbackBinding (s : State) (nativeId i : Nat) : State :=
  if nativeId = 0 then s
  else { s with feedbackBindings := Function.update s.feedbackBindings nativeId (some i) }

/-- Take the listeners out, whoever registered them. -/
def deregisterFeedbackBinding (s : State) (nativeId : Nat) : State :=
  { s with feedbackBindings := Function.update s.feedbackBindings nativeId none }

/-- The listeners under the address. -/
def feedbackBinding (s : State) (nativeId : Nat) : Option Nat := s.feedbackBindings nativeId

/-- `Track::from_raw_with_registry`, for wrapper `i`. -/
def fromRaw (s : State) (i nativeId : Nat) (metadataEnabled : Bool) : State :=
  ((s.register nativeId (.senderMeta i)).registerReceiver nativeId i).registerAllowed nativeId
    metadataEnabled i

/-- Make a wrapper; one with a custom encoder registers more. -/
def create (s : State) (w : Wrapper) : State :=
  let i := s.made
  let s := s.fromRaw i w.nativeId w.metadataEnabled
  let s :=
    match w.kind with
    | .raw => s
    | .inline => s.registerFeedbackBinding w.nativeId i
    | .encoded =>
      (s.register w.nativeId (.senderMetaFifo i)).registerFeedbackBinding w.nativeId i
  { s with wrappers := Function.update s.wrappers i (some w), made := i + 1 }

/-- `Drop for Track`; a FIFO goes with the wrapper and is not deregistered. -/
def drop (s : State) (i : Nat) (w : Wrapper) : State :=
  let s := s.deregister w.nativeId (.senderMeta i)
  let s := s.deregisterReceiver w.nativeId i
  let s := s.deregisterAllowed w.nativeId
  let s := s.deregisterFeedbackBinding w.nativeId
  { s with wrappers := Function.update s.wrappers i none }

/-- Wrapper `i` is one of this native track. -/
def Wraps (s : State) (i trackId : Nat) : Prop :=
  ∃ w, s.wrappers i = some w ∧ w.nativeId = trackId

end State

/-- What applications and connections do, in any order. -/
inductive Action
  | create (w : Wrapper)
  | drop (i : Nat)
  /-- A lookup, by somebody who keeps what is found or not. -/
  | lookup (trackId : Nat) (keep : Bool)
  | lookupReceiver (trackId : Nat) (keep : Bool)
  | letGo (source : Source)
  | letGoQueue (i : Nat)
  deriving DecidableEq, Repr

/-- A native track has an address. -/
def step (s : State) : Action → Option State
  | .create w => if w.nativeId = 0 then none else some (s.create w)
  | .drop i => (s.wrappers i).map (s.drop i)
  | .lookup trackId keep =>
    let (source, s) := s.lookup trackId
    some (if keep then { s with heldSources := source.toList ++ s.heldSources } else s)
  | .lookupReceiver trackId keep =>
    let (queue, s) := s.lookupReceiver trackId
    some (if keep then { s with heldQueues := queue.toList ++ s.heldQueues } else s)
  | .letGo source => some { s with heldSources := s.heldSources.erase source }
  | .letGoQueue i => some { s with heldQueues := s.heldQueues.erase i }

/-- No wrapper has been made. -/
def machine : Machine State Action where
  start := {}
  step := step

/-- The registries know of a native track what one of its wrappers registered, and nothing
where it has none. -/
structure Follows (s : State) : Prop where
  source : ∀ trackId, (∃ i, s.Wraps i trackId) →
    ∃ x, (s.lookup trackId).1 = some x ∧ s.Wraps x.owner trackId
  receiver : ∀ trackId, (∃ i, s.Wraps i trackId) →
    ∃ j, (s.lookupReceiver trackId).1 = some j ∧ s.Wraps j trackId
  allowed : ∀ trackId, (∃ i, s.Wraps i trackId) →
    ∃ j w, s.wrappers j = some w ∧ w.nativeId = trackId ∧ s.allowed trackId = w.metadataEnabled
  feedback : ∀ trackId j, s.feedbackBinding trackId = some j →
    ∃ w, s.wrappers j = some w ∧ w.nativeId = trackId ∧ w.kind ≠ .raw
  listened : ∀ i w, s.wrappers i = some w → w.kind ≠ .raw →
    (s.feedbackBinding w.nativeId).isSome
  gone : ∀ trackId, (¬ ∃ i, s.Wraps i trackId) → (s.lookup trackId).1 = none ∧
    (s.lookupReceiver trackId).1 = none ∧ s.allowed trackId = true ∧
    s.feedbackBinding trackId = none

/-- Dropping a wrapper removes no entry that another registered. -/
def Spares (s : State) : Action → Prop
  | .drop i => ∀ w, s.wrappers i = some w → ∀ trackId,
    (∀ x, s.registry trackId = some x → x.owner ≠ i →
      (s.drop i w).registry trackId = some x) ∧
    (∀ j, s.recvRegistry trackId = some j → j ≠ i →
      (s.drop i w).recvRegistry trackId = some j) ∧
    (∀ flag j, s.allowedRegistry trackId = some (flag, j) → j ≠ i →
      (s.drop i w).allowedRegistry trackId = some (flag, j)) ∧
    ∀ j, s.feedbackBindings trackId = some j → j ≠ i →
      (s.drop i w).feedbackBindings trackId = some j
  | _ => True

/-- The wrapper that is dropped is the only one of its native track, and if it is of a
pre-encoded one nobody keeps its FIFO. -/
def Kept (s : State) : Action → Prop
  | .drop i => ∀ w, s.wrappers i = some w →
    (∀ j, s.Wraps j w.nativeId → j = i) ∧
      (w.kind = .encoded → .senderMetaFifo i ∉ s.heldSources)
  | _ => True

/-- The source a wrapper is found by. -/
def Wrapper.source (w : Wrapper) (i : Nat) : Source :=
  match w.kind with
  | .encoded => .senderMetaFifo i
  | _ => .senderMeta i

/-- The entries of a native track are those of this wrapper. -/
structure Registered (s : State) (trackId i : Nat) (w : Wrapper) : Prop where
  wrapper : s.wrappers i = some w
  track : w.nativeId = trackId
  source : s.registry trackId = some (w.source i)
  queue : s.recvRegistry trackId = some i
  flag : s.allowedRegistry trackId = some (w.metadataEnabled, i)

/-- Each native track with a wrapper has the entries of one of them, and the others have none
that is alive. -/
structure Inv (s : State) : Prop where
  fresh : ∀ i, s.made ≤ i → s.wrappers i = none
  address : ∀ i w, s.wrappers i = some w → w.nativeId ≠ 0
  old : ∀ trackId x, s.registry trackId = some x → x.owner < s.made
  registered : ∀ trackId, (∃ i, s.Wraps i trackId) → ∃ i w, Registered s trackId i w
  feedback : ∀ trackId j, s.feedbackBindings trackId = some j →
    ∃ w, s.wrappers j = some w ∧ w.nativeId = trackId ∧ w.kind ≠ .raw
  listened : ∀ i w, s.wrappers i = some w → w.kind ≠ .raw →
    (s.feedbackBindings w.nativeId).isSome
  gone : ∀ trackId, (¬ ∃ i, s.Wraps i trackId) →
    (∀ x, s.registry trackId = some x → s.sourceAlive x = false) ∧
    s.recvRegistry trackId = none ∧ s.allowedRegistry trackId = none ∧
    s.feedbackBindings trackId = none

variable {s s' : State} {w v : Wrapper} {i j trackId : Nat} {x : Source} {a : Action}

theorem source_owner (w : Wrapper) (i : Nat) : (w.source i).owner = i := by
  unfold Wrapper.source
  cases w.kind <;> rfl

/-- A source that is not the one of the `Track` itself is a FIFO. -/
theorem source_eq_fifo (h : w.source i ≠ .senderMeta i) :
    w.kind = .encoded ∧ w.source i = .senderMetaFifo i := by
  unfold Wrapper.source at h ⊢
  cases hkind : w.kind with
  | encoded => exact ⟨rfl, rfl⟩
  | raw =>
    rw [hkind] at h
    exact absurd rfl h
  | inline =>
    rw [hkind] at h
    exact absurd rfl h

/-! ### What the calls do -/

/-- All that a new wrapper writes. -/
theorem create_eq (hw : w.nativeId ≠ 0) : s.create w = { s with
    wrappers := Function.update s.wrappers s.made (some w)
    made := s.made + 1
    registry := Function.update s.registry w.nativeId (some (w.source s.made))
    recvRegistry := Function.update s.recvRegistry w.nativeId (some s.made)
    allowedRegistry :=
      Function.update s.allowedRegistry w.nativeId (some (w.metadataEnabled, s.made))
    feedbackBindings :=
      if w.kind = .raw then s.feedbackBindings
      else Function.update s.feedbackBindings w.nativeId (some s.made) } := by
  obtain ⟨nativeId, kind, enabled⟩ := w
  cases kind with
  | raw => simp [State.create, State.fromRaw, State.register, State.registerReceiver,
      State.registerAllowed, WeakMap.register, Wrapper.source, hw]
  | inline => simp [State.create, State.fromRaw, State.register, State.registerReceiver,
      State.registerAllowed, State.registerFeedbackBinding, WeakMap.register, Wrapper.source, hw]
  | encoded => simp [State.create, State.fromRaw, State.register, State.registerReceiver,
      State.registerAllowed, State.registerFeedbackBinding, WeakMap.register, Wrapper.source, hw]

/-- All that a wrapper takes out. -/
theorem drop_eq (hw : w.nativeId ≠ 0) : s.drop i w = { s with
    wrappers := Function.update s.wrappers i none
    registry := s.registry.deregister w.nativeId (.senderMeta i)
    recvRegistry := s.recvRegistry.deregister w.nativeId i
    allowedRegistry := Function.update s.allowedRegistry w.nativeId none
    feedbackBindings := Function.update s.feedbackBindings w.nativeId none } := by
  simp [State.drop, State.deregister, State.deregisterReceiver, State.deregisterAllowed,
    State.deregisterFeedbackBinding, hw]

theorem drop_wrappers (hw : w.nativeId ≠ 0) :
    (s.drop i w).wrappers j = some v ↔ j ≠ i ∧ s.wrappers j = some v := by
  rw [drop_eq hw]
  dsimp only
  by_cases hji : j = i
  · rw [hji, Function.update_self]
    exact iff_of_false (fun hv => by cases hv) fun hv => hv.1 rfl
  · rw [Function.update_of_ne hji, and_iff_right hji]

theorem lookup_fst (ht : trackId ≠ 0) :
    (s.lookup trackId).1 = (s.registry trackId).filter s.sourceAlive := by
  rw [State.lookup, if_neg ht]
  exact WeakMap.lookup_fst

theorem lookup_snd (ht : trackId ≠ 0) : (s.lookup trackId).2 =
    { s with registry := (s.registry.lookup s.sourceAlive trackId).2 } := by
  rw [State.lookup, if_neg ht]

theorem lookupReceiver_fst (ht : trackId ≠ 0) :
    (s.lookupReceiver trackId).1 = (s.recvRegistry trackId).filter s.queueAlive := by
  rw [State.lookupReceiver, if_neg ht]
  exact WeakMap.lookup_fst

theorem lookupReceiver_snd (ht : trackId ≠ 0) : (s.lookupReceiver trackId).2 =
    { s with recvRegistry := (s.recvRegistry.lookup s.queueAlive trackId).2 } := by
  rw [State.lookupReceiver, if_neg ht]

theorem allowed_eq (ht : trackId ≠ 0) :
    s.allowed trackId = ((s.allowedRegistry trackId).map Prod.fst).getD true := if_neg ht

theorem sourceAlive_of_wrapper (h : s.wrappers x.owner = some w) : s.sourceAlive x = true := by
  rw [State.sourceAlive, h]
  rfl

theorem sourceAlive_of_held (h : x ∈ s.heldSources) : s.sourceAlive x = true := by
  rw [State.sourceAlive, decide_eq_true h, Bool.or_true]

theorem queueAlive_of_wrapper (h : s.wrappers i = some w) : s.queueAlive i = true := by
  rw [State.queueAlive, h]
  rfl

theorem sourceAlive_eq_false : s.sourceAlive x = false ↔
    s.wrappers x.owner = none ∧ x ∉ s.heldSources := by
  rw [State.sourceAlive, Bool.or_eq_false_iff, Option.isSome_eq_false_iff,
    Option.isNone_iff_eq_none, decide_eq_false_iff_not]

/-! ### What the registries say

Whoever is alone on an address and last to have registered finds itself in all four maps.
-/

theorem Inv.nonzero (h : Inv s) (hlive : ∃ i, s.Wraps i trackId) : trackId ≠ 0 := by
  obtain ⟨i, w, hi, rfl⟩ := hlive
  exact h.address i w hi

/-- The only wrapper of a native track has its entries. -/
theorem Inv.registered_alone (h : Inv s) (hi : s.wrappers i = some w)
    (honly : ∀ j, s.Wraps j w.nativeId → j = i) : Registered s w.nativeId i w := by
  obtain ⟨k, u, hreg⟩ := h.registered w.nativeId ⟨i, w, hi, rfl⟩
  obtain rfl : k = i := honly k ⟨u, hreg.wrapper, hreg.track⟩
  obtain rfl : w = u := Option.some.inj (hi.symm.trans hreg.wrapper)
  exact hreg

theorem Inv.follows (h : Inv s) : Follows s where
  source trackId hlive := by
    obtain ⟨i, w, hreg⟩ := h.registered trackId hlive
    have halive : s.sourceAlive (w.source i) = true :=
      sourceAlive_of_wrapper ((source_owner w i).symm ▸ hreg.wrapper)
    refine ⟨w.source i, ?_, w, ?_, hreg.track⟩
    · rw [lookup_fst (h.nonzero hlive), hreg.source]
      exact Option.filter_eq_some_iff.mpr ⟨rfl, halive⟩
    · rw [source_owner]
      exact hreg.wrapper
  receiver trackId hlive := by
    obtain ⟨i, w, hreg⟩ := h.registered trackId hlive
    refine ⟨i, ?_, w, hreg.wrapper, hreg.track⟩
    rw [lookupReceiver_fst (h.nonzero hlive), hreg.queue]
    exact Option.filter_eq_some_iff.mpr ⟨rfl, queueAlive_of_wrapper hreg.wrapper⟩
  allowed trackId hlive := by
    obtain ⟨i, w, hreg⟩ := h.registered trackId hlive
    refine ⟨i, w, hreg.wrapper, hreg.track, ?_⟩
    rw [allowed_eq (h.nonzero hlive), hreg.flag]
    rfl
  feedback := h.feedback
  listened := h.listened
  gone trackId hnone := by
    obtain ⟨hdead, hqueue, hflag, hfeedback⟩ := h.gone trackId hnone
    by_cases hzero : trackId = 0
    · rw [State.lookup, State.lookupReceiver, State.allowed, if_pos hzero, if_pos hzero,
        if_pos hzero]
      exact ⟨rfl, rfl, rfl, hfeedback⟩
    · refine ⟨?_, ?_, ?_, hfeedback⟩
      · rw [lookup_fst hzero, Option.filter_eq_none_iff]
        intro x hx
        rw [hdead x hx]
        exact Bool.false_ne_true
      · rw [lookupReceiver_fst hzero, hqueue]
        rfl
      · rw [allowed_eq hzero, hflag]
        rfl

/-! ### What the steps keep -/

theorem Inv.start : Inv machine.start where
  fresh _ _ := rfl
  address i w h := by cases h
  old trackId x h := by cases h
  registered trackId h := by
    obtain ⟨i, w, hw, -⟩ := h
    cases hw
  feedback trackId j h := by cases h
  listened i w h := by cases h
  gone trackId _ := by
    refine ⟨fun x hx => ?_, rfl, rfl, rfl⟩
    cases hx

theorem Inv.lt_made (h : Inv s) (hi : s.wrappers i = some w) : i < s.made := by
  by_contra hle
  rw [h.fresh i (Nat.not_lt.mp hle)] at hi
  cases hi

/-- The wrappers there are now. -/
theorem Inv.create_wrappers (h : Inv s) (hw : w.nativeId ≠ 0) :
    (s.create w).wrappers j = some v ↔ j = s.made ∧ v = w ∨ s.wrappers j = some v := by
  rw [create_eq hw]
  dsimp only
  by_cases hmade : j = s.made
  · rw [hmade, Function.update_self, h.fresh s.made (Nat.le_refl _)]
    constructor
    · intro hv
      exact .inl ⟨rfl, (Option.some.inj hv).symm⟩
    · rintro (⟨-, rfl⟩ | hv)
      · rfl
      · cases hv
  · rw [Function.update_of_ne hmade, or_iff_right fun hnew => hmade hnew.1]

/-- The entries of another native track are as they were. -/
theorem create_of_ne (hw : w.nativeId ≠ 0) (ht : trackId ≠ w.nativeId) :
    (s.create w).registry trackId = s.registry trackId ∧
      (s.create w).recvRegistry trackId = s.recvRegistry trackId ∧
      (s.create w).allowedRegistry trackId = s.allowedRegistry trackId ∧
      (s.create w).feedbackBindings trackId = s.feedbackBindings trackId := by
  rw [create_eq hw]
  refine ⟨Function.update_of_ne ht _ _, Function.update_of_ne ht _ _,
    Function.update_of_ne ht _ _, ?_⟩
  dsimp only
  split
  · rfl
  · exact Function.update_of_ne ht _ _

/-- The new wrapper has the entries of its native track. -/
theorem Inv.create_registered (h : Inv s) (hw : w.nativeId ≠ 0) :
    Registered (s.create w) w.nativeId s.made w := by
  refine ⟨(h.create_wrappers hw).mpr (.inl ⟨rfl, rfl⟩), rfl, ?_, ?_, ?_⟩
  · rw [create_eq hw]
    exact Function.update_self _ _ _
  · rw [create_eq hw]
    exact Function.update_self _ _ _
  · rw [create_eq hw]
    exact Function.update_self _ _ _

/-- Who listens on the native track of a new wrapper: that one, or who did. -/
theorem create_feedback (hw : w.nativeId ≠ 0) :
    (s.create w).feedbackBindings w.nativeId =
      if w.kind = .raw then s.feedbackBindings w.nativeId else some s.made := by
  rw [create_eq hw]
  dsimp only
  split
  · rfl
  · exact Function.update_self _ _ _

theorem Inv.create (h : Inv s) (hw : w.nativeId ≠ 0) : Inv (s.create w) where
  fresh i hi := by
    have hmade : (s.create w).made = s.made + 1 := by rw [create_eq hw]
    rw [hmade] at hi
    refine Option.eq_none_iff_forall_ne_some.mpr fun v hv => ?_
    rcases (h.create_wrappers hw).mp hv with ⟨rfl, -⟩ | hv
    · exact Nat.lt_irrefl _ hi
    · exact Nat.lt_irrefl _ (Nat.lt_trans (h.lt_made hv) hi)
  address i v hi := by
    rcases (h.create_wrappers hw).mp hi with ⟨-, rfl⟩ | hi
    · exact hw
    · exact h.address i v hi
  old trackId x hx := by
    have hmade : (s.create w).made = s.made + 1 := by rw [create_eq hw]
    rw [hmade]
    by_cases ht : trackId = w.nativeId
    · rw [ht, (h.create_registered hw).source] at hx
      obtain rfl := Option.some.inj hx
      rw [source_owner]
      exact Nat.lt_succ_self _
    · rw [(create_of_ne hw ht).1] at hx
      exact Nat.lt_succ_of_lt (h.old trackId x hx)
  registered trackId hlive := by
    by_cases ht : trackId = w.nativeId
    · rw [ht]
      exact ⟨s.made, w, h.create_registered hw⟩
    · obtain ⟨hsource, hqueue, hflag, -⟩ := create_of_ne (s := s) hw ht
      obtain ⟨i, v, hi, htrack⟩ := hlive
      have hlive : ∃ i, s.Wraps i trackId := by
        rcases (h.create_wrappers hw).mp hi with ⟨-, rfl⟩ | hi
        · exact absurd htrack.symm ht
        · exact ⟨i, v, hi, htrack⟩
      obtain ⟨j, u, hreg⟩ := h.registered trackId hlive
      exact ⟨j, u, (h.create_wrappers hw).mpr (.inr hreg.wrapper), hreg.track,
        hsource.trans hreg.source, hqueue.trans hreg.queue, hflag.trans hreg.flag⟩
  feedback trackId j hj := by
    -- A binding that was there is of a wrapper that was there.
    have hkeep : s.feedbackBindings trackId = some j →
        ∃ v, (s.create w).wrappers j = some v ∧ v.nativeId = trackId ∧ v.kind ≠ .raw := by
      intro hj
      obtain ⟨v, hv, hrest⟩ := h.feedback trackId j hj
      exact ⟨v, (h.create_wrappers hw).mpr (.inr hv), hrest⟩
    by_cases ht : trackId = w.nativeId
    · subst ht
      rw [create_feedback hw] at hj
      split at hj
      · exact hkeep hj
      · rename_i hkind
        obtain rfl := Option.some.inj hj
        exact ⟨w, (h.create_wrappers hw).mpr (.inl ⟨rfl, rfl⟩), rfl, hkind⟩
    · exact hkeep ((create_of_ne hw ht).2.2.2.symm.trans hj)
  listened i v hi hkind := by
    by_cases ht : v.nativeId = w.nativeId
    · rw [ht, create_feedback hw]
      split
      · rename_i hraw
        rcases (h.create_wrappers hw).mp hi with ⟨-, rfl⟩ | hi
        · exact absurd hraw hkind
        · rw [← ht]
          exact h.listened i v hi hkind
      · rfl
    · rw [(create_of_ne hw ht).2.2.2]
      rcases (h.create_wrappers hw).mp hi with ⟨-, rfl⟩ | hi
      · exact absurd rfl ht
      · exact h.listened i v hi hkind
  gone trackId hnone := by
    have ht : trackId ≠ w.nativeId := by
      rintro rfl
      exact hnone ⟨s.made, w, (h.create_registered hw).wrapper, rfl⟩
    obtain ⟨hsource, hqueue, hflag, hfeedback⟩ := create_of_ne (s := s) hw ht
    rw [hsource, hqueue, hflag, hfeedback]
    obtain ⟨hdead, hrest⟩ := h.gone trackId fun hlive => by
      obtain ⟨i, v, hi, htrack⟩ := hlive
      exact hnone ⟨i, v, (h.create_wrappers hw).mpr (.inr hi), htrack⟩
    refine ⟨fun x hx => ?_, hrest⟩
    obtain ⟨howner, hheld⟩ := sourceAlive_eq_false.mp (hdead x hx)
    rw [create_eq hw]
    refine sourceAlive_eq_false.mpr ⟨?_, hheld⟩
    -- It is of a wrapper made before.
    exact (Function.update_of_ne (Nat.ne_of_lt (h.old trackId x hx)) _ _).trans howner

/-- What becomes of a wrapper's entries when it is dropped. -/
theorem Registered.dropped (hreg : Registered s w.nativeId i w) (hw : w.nativeId ≠ 0)
    (hfifo : w.kind = .encoded → .senderMetaFifo i ∉ s.heldSources) :
    (∀ x, (s.drop i w).registry w.nativeId = some x → (s.drop i w).sourceAlive x = false) ∧
      (s.drop i w).recvRegistry w.nativeId = none ∧
      (s.drop i w).allowedRegistry w.nativeId = none ∧
      (s.drop i w).feedbackBindings w.nativeId = none := by
  rw [drop_eq hw]
  dsimp only
  refine ⟨fun x hx => ?_, ?_, Function.update_self _ _ _, Function.update_self _ _ _⟩
  · rw [WeakMap.deregister_self, hreg.source] at hx
    split at hx
    · cases hx
    · -- The FIFO stays, and is dead.
      rename_i hsource
      obtain rfl := Option.some.inj hx
      obtain ⟨hkind, hsource⟩ := source_eq_fifo fun heq => hsource (congrArg some heq)
      rw [hsource]
      exact sourceAlive_eq_false.mpr ⟨Function.update_self _ _ _, hfifo hkind⟩
  · rw [WeakMap.deregister_self, hreg.queue, if_pos rfl]

/-- With the only wrapper of a native track, and its FIFO if it has one, go its entries. -/
theorem Inv.drop (h : Inv s) (hi : s.wrappers i = some w) (hkept : Kept s (.drop i)) :
    Inv (s.drop i w) := by
  have hw : w.nativeId ≠ 0 := h.address i w hi
  obtain ⟨honly, hfifo⟩ := hkept w hi
  have hown := (h.registered_alone hi honly).dropped hw hfifo
  -- What is left of the wrappers, and of which tracks.
  have hleft : ∀ j v, (s.drop i w).wrappers j = some v →
      s.wrappers j = some v ∧ v.nativeId ≠ w.nativeId := by
    intro j v hj
    obtain ⟨hji, hj⟩ := (drop_wrappers hw).mp hj
    exact ⟨hj, fun htrack => hji (honly j ⟨v, hj, htrack⟩)⟩
  have hstill : ∀ j v, s.wrappers j = some v → v.nativeId ≠ w.nativeId →
      (s.drop i w).wrappers j = some v := by
    intro j v hj hne
    refine (drop_wrappers hw).mpr ⟨?_, hj⟩
    rintro rfl
    exact hne (congrArg Wrapper.nativeId (Option.some.inj (hj.symm.trans hi)))
  have hgone : ∀ j, s.wrappers j = none → (s.drop i w).wrappers j = none := by
    intro j hj
    refine Option.eq_none_iff_forall_ne_some.mpr fun v hv => ?_
    cases hj.symm.trans (hleft j v hv).1
  rw [drop_eq hw] at hown hleft hstill hgone ⊢
  dsimp only at hown hleft hstill hgone
  constructor
  case fresh =>
    intro j hj
    exact hgone j (h.fresh j hj)
  case address =>
    intro j v hj
    exact h.address j v (hleft j v hj).1
  case old =>
    intro trackId x hx
    exact h.old trackId x (WeakMap.of_deregister hx)
  case registered =>
    rintro trackId ⟨j, v, hj, htrack⟩
    obtain ⟨hj, hne⟩ := hleft j v hj
    rw [htrack] at hne
    obtain ⟨k, u, hreg⟩ := h.registered trackId ⟨j, v, hj, htrack⟩
    exact ⟨k, u, hstill k u hreg.wrapper (hreg.track ▸ hne), hreg.track,
      (WeakMap.deregister_of_ne hne).trans hreg.source,
      (WeakMap.deregister_of_ne hne).trans hreg.queue,
      (Function.update_of_ne hne _ _).trans hreg.flag⟩
  case feedback =>
    intro trackId j hj
    have hne : trackId ≠ w.nativeId := by
      rintro rfl
      cases hown.2.2.2.symm.trans hj
    obtain ⟨v, hv, htrack, hkind⟩ :=
      h.feedback trackId j ((Function.update_of_ne hne _ _).symm.trans hj)
    exact ⟨v, hstill j v hv (htrack ▸ hne), htrack, hkind⟩
  case listened =>
    intro j v hj hkind
    obtain ⟨hj, hne⟩ := hleft j v hj
    dsimp only
    rw [Function.update_of_ne hne]
    exact h.listened j v hj hkind
  case gone =>
    intro trackId hnone
    by_cases ht : trackId = w.nativeId
    · rw [ht]
      exact hown
    · obtain ⟨hdead, hqueue, hflag, hfeedback⟩ := h.gone trackId fun hlive => by
        obtain ⟨j, v, hj, rfl⟩ := hlive
        exact hnone ⟨j, v, hstill j v hj ht, rfl⟩
      refine ⟨fun x hx => ?_, (WeakMap.deregister_of_ne ht).trans hqueue,
        (Function.update_of_ne ht _ _).trans hflag, (Function.update_of_ne ht _ _).trans hfeedback⟩
      obtain ⟨howner, hheld⟩ := sourceAlive_eq_false.mp (hdead x (WeakMap.of_deregister hx))
      exact sourceAlive_eq_false.mpr ⟨hgone _ howner, hheld⟩

/-- A lookup by which an entry may go that is dead, and something be kept that is alive. -/
theorem Inv.looked (h : Inv s) {registry : WeakMap Nat Source} {heldSources : List Source}
    (hthin : WeakMap.Thinned s.sourceAlive s.registry registry)
    (hheld : ∀ x ∈ heldSources, s.sourceAlive x = true) :
    Inv { s with registry, heldSources } where
  fresh := h.fresh
  address := h.address
  old trackId x hx := h.old trackId x (hthin.was trackId x hx)
  registered trackId hlive := by
    obtain ⟨i, w, hreg⟩ := h.registered trackId hlive
    have hsource : s.sourceAlive (w.source i) = true :=
      sourceAlive_of_wrapper ((source_owner w i).symm ▸ hreg.wrapper)
    exact ⟨i, w, hreg.wrapper, hreg.track, hthin.stays trackId _ hreg.source hsource, hreg.queue,
      hreg.flag⟩
  feedback := h.feedback
  listened := h.listened
  gone trackId hnone := by
    obtain ⟨hdead, hrest⟩ := h.gone trackId hnone
    refine ⟨fun x hx => ?_, hrest⟩
    have hx : s.sourceAlive x = false := hdead x (hthin.was trackId x hx)
    refine sourceAlive_eq_false.mpr ⟨(sourceAlive_eq_false.mp hx).1, fun hmem => ?_⟩
    rw [hheld x hmem] at hx
    cases hx

/-- The same of the queues; a queue that nobody finds may be kept. -/
theorem Inv.lookedReceiver (h : Inv s) {recvRegistry : WeakMap Nat Nat} {heldQueues : List Nat}
    (hthin : WeakMap.Thinned s.queueAlive s.recvRegistry recvRegistry) :
    Inv { s with recvRegistry, heldQueues } where
  fresh := h.fresh
  address := h.address
  old := h.old
  registered trackId hlive := by
    obtain ⟨i, w, hreg⟩ := h.registered trackId hlive
    exact ⟨i, w, hreg.wrapper, hreg.track, hreg.source,
      hthin.stays trackId i hreg.queue (queueAlive_of_wrapper hreg.wrapper), hreg.flag⟩
  feedback := h.feedback
  listened := h.listened
  gone trackId hnone := by
    obtain ⟨hdead, hqueue, hrest⟩ := h.gone trackId hnone
    refine ⟨hdead, Option.eq_none_iff_forall_ne_some.mpr fun i hi => ?_, hrest⟩
    rw [hthin.was trackId i hi] at hqueue
    cases hqueue

theorem step_lookup (keep : Bool) : step s (.lookup trackId keep) = some
    (if keep then { (s.lookup trackId).2 with
      heldSources := (s.lookup trackId).1.toList ++ (s.lookup trackId).2.heldSources }
    else (s.lookup trackId).2) := rfl

theorem step_lookupReceiver (keep : Bool) : step s (.lookupReceiver trackId keep) = some
    (if keep then { (s.lookupReceiver trackId).2 with
      heldQueues := (s.lookupReceiver trackId).1.toList ++ (s.lookupReceiver trackId).2.heldQueues }
    else (s.lookupReceiver trackId).2) := rfl

/-- What a lookup may do. -/
theorem lookup_cases {keep : Bool} (hstep : step s (.lookup trackId keep) = some s') :
    ∃ registry heldSources, s' = { s with registry, heldSources } ∧
      WeakMap.Thinned s.sourceAlive s.registry registry ∧
      ∀ x ∈ heldSources, s.sourceAlive x = true := by
  have hheld : ∀ x ∈ s.heldSources, s.sourceAlive x = true := fun x => sourceAlive_of_held
  rw [step_lookup, Option.some.injEq] at hstep
  by_cases hzero : trackId = 0
  · subst hzero
    refine ⟨s.registry, s.heldSources, ?_, .refl _ _, hheld⟩
    cases keep with
    | true => exact hstep.symm
    | false => exact hstep.symm
  · refine ⟨(s.registry.lookup s.sourceAlive trackId).2,
      if keep then (s.lookup trackId).1.toList ++ s.heldSources else s.heldSources, ?_,
      WeakMap.thinned_lookup _ _ _, fun x hx => ?_⟩
    · rw [← hstep, lookup_snd hzero]
      cases keep with
      | true => rfl
      | false => rfl
    · rw [lookup_fst hzero] at hx
      split at hx
      · rcases List.mem_append.mp hx with hx | hx
        · exact (Option.filter_eq_some_iff.mp (Option.mem_toList.mp hx)).2
        · exact hheld x hx
      · exact hheld x hx

theorem lookupReceiver_cases {keep : Bool}
    (hstep : step s (.lookupReceiver trackId keep) = some s') :
    ∃ recvRegistry heldQueues, s' = { s with recvRegistry, heldQueues } ∧
      WeakMap.Thinned s.queueAlive s.recvRegistry recvRegistry := by
  rw [step_lookupReceiver, Option.some.injEq] at hstep
  by_cases hzero : trackId = 0
  · subst hzero
    refine ⟨s.recvRegistry, s.heldQueues, ?_, .refl _ _⟩
    cases keep with
    | true => exact hstep.symm
    | false => exact hstep.symm
  · refine ⟨(s.recvRegistry.lookup s.queueAlive trackId).2,
      if keep then (s.lookupReceiver trackId).1.toList ++ s.heldQueues else s.heldQueues, ?_,
      WeakMap.thinned_lookup _ _ _⟩
    rw [← hstep, lookupReceiver_snd hzero]
    cases keep with
    | true => rfl
    | false => rfl

theorem Inv.step (h : Inv s) (hkept : Kept s a) (hstep : step s a = some s') : Inv s' := by
  cases a with
  | create w =>
    rw [TrackRegistries.step] at hstep
    split at hstep
    · cases hstep
    · rename_i hw
      obtain rfl := Option.some.inj hstep
      exact h.create hw
  | drop i =>
    obtain ⟨w, hi, rfl⟩ := Option.map_eq_some_iff.mp hstep
    exact h.drop hi hkept
  | lookup trackId keep =>
    obtain ⟨registry, heldSources, rfl, hthin, hheld⟩ := lookup_cases hstep
    exact h.looked hthin hheld
  | lookupReceiver trackId keep =>
    obtain ⟨recvRegistry, heldQueues, rfl, hthin⟩ := lookupReceiver_cases hstep
    exact h.lookedReceiver hthin
  | letGo source =>
    obtain rfl := Option.some.inj hstep
    exact h.looked (.refl _ _) fun x hx => sourceAlive_of_held (List.mem_of_mem_erase hx)
  | letGoQueue i =>
    obtain rfl := Option.some.inj hstep
    exact h.lookedReceiver (.refl _ _)

/-! ### Whom a drop leaves without

A wrapper that goes takes out the entries under its address, and these are its own only if
no other wrapper has the address.
-/

/-- The only wrapper of a native track removes no entry of another's. -/
theorem Inv.spares (h : Inv s) (hkept : Kept s a) : Spares s a := by
  cases a with
  | drop i =>
    intro w hi trackId
    obtain ⟨honly, -⟩ := hkept w hi
    rw [drop_eq (h.address i w hi)]
    refine ⟨fun x hx hne => ?_, fun j hj hne => ?_, fun flag j hj hne => ?_, fun j hj hne => ?_⟩
    · refine WeakMap.deregister_of_other hx ?_
      rintro rfl
      exact hne rfl
    · exact WeakMap.deregister_of_other hj hne
    · refine (Function.update_of_ne ?_ _ _).trans hj
      rintro rfl
      have hreg := h.registered_alone hi honly
      exact hne (congrArg Prod.snd (Option.some.inj (hj.symm.trans hreg.flag)))
    · refine (Function.update_of_ne ?_ _ _).trans hj
      rintro rfl
      obtain ⟨u, hu, htrack, -⟩ := h.feedback w.nativeId j hj
      exact hne (honly j ⟨u, hu, htrack⟩)
  | _ => trivial

/-- Of two wrappers of a native track, the one that goes takes either its own source, by which
the other was found, or the flag that the other registered. -/
theorem alone_of_follows (h : Inv s) (hi : s.wrappers i = some w)
    (hfollows : Follows (s.drop i w)) (hspares : Spares s (.drop i)) (hj : s.Wraps j w.nativeId) :
    j = i := by
  have hw : w.nativeId ≠ 0 := h.address i w hi
  by_contra hne
  obtain ⟨k, u, hreg⟩ := h.registered w.nativeId ⟨i, w, hi, rfl⟩
  by_cases hki : k = i
  · subst hki
    have hlive : (s.drop k w).Wraps j w.nativeId := by
      obtain ⟨v, hv, htrack⟩ := hj
      exact ⟨v, (drop_wrappers hw).mpr ⟨hne, hv⟩, htrack⟩
    obtain ⟨x, hx, v, hv, -⟩ := hfollows.source w.nativeId ⟨j, hlive⟩
    rw [lookup_fst hw, Option.filter_eq_some_iff, drop_eq hw] at hx
    have hsource : u.source k = x :=
      Option.some.inj (hreg.source.symm.trans (WeakMap.of_deregister hx.1))
    rw [← hsource, source_owner, drop_wrappers hw] at hv
    exact hv.1 rfl
  · obtain ⟨-, -, hflag, -⟩ := hspares w hi w.nativeId
    have hleft := hflag u.metadataEnabled k hreg.flag hki
    rw [drop_eq hw] at hleft
    dsimp only at hleft
    rw [Function.update_self] at hleft
    cases hleft

/-- A FIFO that somebody keeps is found without its wrapper. -/
theorem fifo_free_of_follows (h : Inv s) (hi : s.wrappers i = some w)
    (hfollows : Follows (s.drop i w)) (honly : ∀ j, s.Wraps j w.nativeId → j = i)
    (hkind : w.kind = .encoded) : .senderMetaFifo i ∉ s.heldSources := by
  have hw : w.nativeId ≠ 0 := h.address i w hi
  intro hheld
  have hsource : s.registry w.nativeId = some (.senderMetaFifo i) := by
    rw [(h.registered_alone hi honly).source, Wrapper.source, hkind]
  have hnone : ¬ ∃ j, (s.drop i w).Wraps j w.nativeId := by
    rintro ⟨j, v, hv, htrack⟩
    obtain ⟨hji, hj⟩ := (drop_wrappers hw).mp hv
    exact hji (honly j ⟨v, hj, htrack⟩)
  have hfound : (s.drop i w).registry w.nativeId = some (.senderMetaFifo i) := by
    rw [drop_eq hw]
    exact WeakMap.deregister_of_other hsource fun heq => by cases heq
  have halive : (s.drop i w).sourceAlive (.senderMetaFifo i) = true := by
    refine sourceAlive_of_held ?_
    rw [drop_eq hw]
    exact hheld
  obtain ⟨hlookup, -⟩ := hfollows.gone w.nativeId hnone
  rw [lookup_fst hw, hfound] at hlookup
  exact Option.filter_eq_none_iff.mp hlookup _ rfl halive

theorem step_follows_iff (h : Inv s) (hstep : step s a = some s') :
    Follows s' ∧ Spares s a ↔ Kept s a := by
  refine ⟨fun hgood => ?_, fun hkept => ⟨(h.step hkept hstep).follows, h.spares hkept⟩⟩
  cases a with
  | drop i =>
    obtain ⟨hfollows, hspares⟩ := hgood
    intro w hi
    obtain rfl : s.drop i w = s' := by
      rw [TrackRegistries.step, hi] at hstep
      exact Option.some.inj hstep
    have honly : ∀ j, s.Wraps j w.nativeId → j = i := fun j =>
      alone_of_follows h hi hfollows hspares
    exact ⟨honly, fifo_free_of_follows h hi hfollows honly⟩
  | _ => trivial

/--
**The registries follow the live wrappers, and no wrapper removes an entry of another, in just
the runs in which no wrapper is dropped beside another of its native track, and no
pre-encoded one while somebody keeps its FIFO.**
-/
theorem follows_iff_alone {actions : List Action}
    (hrun : machine.run machine.start actions = some s) :
    machine.Along Follows machine.start actions ∧ machine.Guarded Spares machine.start actions ↔
      machine.Guarded Kept machine.start actions :=
  Machine.along_guarded_iff_guarded (I := Inv) (fun _ _ _ h _ hkept => h.step hkept)
    (fun _ _ _ h _ => step_follows_iff h) Inv.start Inv.start.follows hrun

/-- An address is used again, and then by two wrappers. -/
theorem follows_iff_alone_reused :
    let actions : List Action := [.create ⟨1, .encoded, false⟩, .lookup 1 false, .drop 0,
      .create ⟨1, .raw, true⟩, .create ⟨1, .inline, true⟩]
    machine.Along Follows machine.start actions ∧
      machine.Guarded Spares machine.start actions := by
  refine (follows_iff_alone (machine.run_final _ _ (by decide +kernel))).mpr ?_
  refine ⟨trivial, fun s hs => ⟨trivial, fun t ht => ⟨fun w _ => ?_, fun _ _ => ?_⟩⟩⟩
  · obtain rfl := Option.some.inj hs
    obtain rfl := Option.some.inj ht
    refine ⟨fun j hj => ?_, fun _ => List.not_mem_nil⟩
    obtain ⟨v, hv, -⟩ := hj
    by_contra hne
    have hnone : (none : Option Wrapper) = some v := (Function.update_of_ne hne _ _).symm.trans hv
    cases hnone
  · exact ⟨trivial, fun _ _ => ⟨trivial, fun _ _ => trivial⟩⟩

/-- The second wrapper of a native track is dropped, and the first is not found any more. -/
theorem first_not_found :
    ∃ s, machine.run machine.start
        [.create ⟨1, .raw, true⟩, .create ⟨1, .raw, false⟩, .drop 1] = some s ∧
      s.Wraps 0 1 ∧ (s.lookup 1).1 = none ∧ (s.lookupReceiver 1).1 = none ∧ ¬ Follows s := by
  refine ⟨_, rfl, ⟨_, rfl, rfl⟩, rfl, rfl, fun hfollows => ?_⟩
  obtain ⟨x, hx, -⟩ := hfollows.source 1 ⟨0, _, rfl, rfl⟩
  cases hx

end ReactorWebrtc.TrackRegistries
