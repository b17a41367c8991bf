/-
The native transformer, and who keeps it alive.

One is made per sender and per receiver, around a boxed callback.  The binding's handle is one
reference to it, the senders and receivers it is attached to have theirs, and the box goes
with the last of them.  The transformer in turn holds the sinks the transformed frames go to,
which are counted too and come and go while frames are on their way: a frame takes its sink
under the lock, and goes through the callback and on to the sink without it.

The machine has any number of frames at once, each of them a call at some stage.  A call comes
through a reference of its caller that lasts as long as the call, so a sender or receiver in a
call is not among the `users`.  `frames`, `passedOn` and `dropped` are what the code does not
have: which frame is which, and what became of it.  That they say what the sinks registered and
the callback's answers would have them say is for `TransformedFrames`, over this machine.

`safe_of_reachable` is about what is there to be used, and `transformer_lets_go` that all of it
is let go of in the end.
-/
import Mathlib.Algebra.Order.Ring.Nat
import ReactorWebrtc.Lib.Counted
import ReactorWebrtc.Lib.Machine
import ReactorWebrtc.Lib.Shared

namespace ReactorWebrtc.NativeTransform

/-- Where one `Transform` is. -/
inductive Stage
  /-- The sink is picked and the lock given back. -/
  | picked
  /-- In the callback. -/
  | running
  /-- The callback said 0, or something else. -/
  | answered (emit : Int)
  /-- Back from the sink. -/
  | passed
  deriving DecidableEq, Repr

/-- One `Transform`: its frame, the sink it is to go to, and how far it is. -/
structure Call where
  frame : Nat
  sink : Option Nat
  stage : Stage := .picked
  deriving DecidableEq, Repr

/-- The frame is to go to the sink. -/
def Call.goes (c : Call) : Bool := c.stage == .answered 0 && c.sink.isSome

/-- Nothing is left of the call but to return. -/
def Call.ended (c : Call) : Bool :=
  match c.stage with
  | .passed => true
  | .answered emit => emit != 0 || c.sink.isNone
  | _ => false

/-- The call has the frame still. -/
def Call.holdsFrame (c : Call) : Bool := c.stage != .passed

/-- The transformer, its sinks, who has them, and what has become of the frames. -/
structure State where
  /-- The binding's handle is there. -/
  handle : Bool := true
  /-- The references of senders and receivers that are not in a call. -/
  users : Nat := 0
  object : Counted := {}
  /-- The boxed callback. -/
  box : Counted := {}
  sinks : Shared Nat := {}
  /-- The references that libwebrtc's streams have to sinks of theirs. -/
  owned : List Nat := []
  sendSink : Option Nat := none
  recvSinks : List (Nat × Nat) := []
  calls : List Call := []
  frames : Nat := 0
  passedOn : List (Nat × Nat) := []
  dropped : List Nat := []

/-- What the binding, the senders and receivers, the streams and the calls do. -/
inductive Action
  /-- `set_sender_transform` or `set_receiver_transform`. -/
  | attach
  | share
  | detach
  /-- The binding's handle is dropped. -/
  | destroy
  | makeSink (i : Nat)
  | shareSink (i : Nat)
  | dropSink (i : Nat)
  /-- The sender's sink, or the sink of an ssrc. -/
  | register (key : Option Nat) (i : Nat)
  | unregister (key : Option Nat)
  | transform (ssrc : Nat)
  | invoke (k : Nat)
  | answer (k : Nat) (emit : Int)
  | pass (k : Nat)
  | finish (k : Nat)
  deriving DecidableEq, Repr

namespace State

/-- The sinks under a key. -/
def under (s : State) : Option Nat → List Nat
  | none => s.sendSink.toList
  | some ssrc => (s.recvSinks.filter (·.1 == ssrc)).map Prod.snd

/-- Nothing is under the key. -/
def clear (s : State) : Option Nat → State
  | none => { s with sendSink := none }
  | some ssrc => { s with recvSinks := s.recvSinks.filter (·.1 != ssrc) }

/-- The sink is put under the key, whatever is there. -/
def put (s : State) : Option Nat → Nat → State
  | none, i => { s with sendSink := some i }
  | some ssrc, i => { s with recvSinks := (ssrc, i) :: s.recvSinks }

/-- The sink of the frame's ssrc, or else the sender's. -/
def pick (s : State) (ssrc : Nat) : Option Nat := (s.recvSinks.lookup ssrc).or s.sendSink

/-- The sinks the transformer holds, in the order in which it lets go of them at its end. -/
def registered (s : State) : List Nat := s.recvSinks.map Prod.snd ++ s.sendSink.toList

/-- One reference to the transformer less.  With the last one the box goes, and then what the
transformer holds. -/
def letGo (s : State) : State :=
  if s.object.count = 1 then
    { s with
      object := s.object.release
      box := s.box.release
      sinks := s.sinks.releaseAll s.registered
      sendSink := none
      recvSinks := [] }
  else { s with object := s.object.release }

/-- The sink a call was picked for. -/
def sinkOf (s : State) (k : Nat) : Option Nat := s.calls[k]?.bind Call.sink

/-- The frame of a call. -/
def frameOf (s : State) (k : Nat) : List Nat := (s.calls[k]?.map Call.frame).toList

/-- One call is further on. -/
def goto (s : State) (k : Nat) (stage : Stage) : List Call :=
  s.calls.modify k fun c => { c with stage }

/-- The call of that number is one of these. -/
def callIs (s : State) (k : Nat) (p : Call → Bool) : Prop := s.calls[k]?.any p = true

instance (s : State) (k : Nat) (p : Call → Bool) : Decidable (s.callIs k p) :=
  inferInstanceAs (Decidable (_ = _))

end State

/-- A call goes through its stages; whoever has a reference may use it and let it go. -/
def enabled (s : State) : Action → Prop
  | .attach | .destroy => s.handle = true
  | .share | .detach | .unregister _ | .transform _ => 0 < s.users
  | .makeSink i => s.sinks.objects.life i = .unborn
  | .shareSink i | .dropSink i => i ∈ s.owned
  | .register _ i => 0 < s.users ∧ i ∈ s.owned
  | .invoke k => s.callIs k (·.stage == .picked)
  | .answer k _ => s.callIs k (·.stage == .running)
  | .pass k => s.callIs k Call.goes
  | .finish k => s.callIs k Call.ended

instance (s : State) : ∀ a, Decidable (enabled s a)
  | .attach | .destroy | .makeSink _ => inferInstanceAs (Decidable (_ = _))
  | .share | .detach | .unregister _ | .transform _ => inferInstanceAs (Decidable (_ < _))
  | .shareSink _ | .dropSink _ => inferInstanceAs (Decidable (_ ∈ _))
  | .register _ _ => inferInstanceAs (Decidable (_ ∧ _))
  | .invoke _ | .answer _ _ | .pass _ | .finish _ =>
    inferInstanceAs (Decidable (State.callIs _ _ _))

/-- What each leaves; a reference that is let go of may be the last. -/
def effect (s : State) : Action → State
  | .attach | .share => { s with object := s.object.retain, users := s.users + 1 }
  | .detach => { s with users := s.users - 1 }.letGo
  | .destroy => { s with handle := false }.letGo
  | .makeSink i => { s with sinks := s.sinks.make i, owned := i :: s.owned }
  | .shareSink i => { s with sinks := s.sinks.retain i, owned := i :: s.owned }
  | .dropSink i => { s with sinks := s.sinks.release i, owned := s.owned.erase i }
  | .register key i =>
    { (s.clear key).put key i with
      object := s.object.use
      sinks := (s.sinks.retain i).releaseAll (s.under key) }
  | .unregister key =>
    { s.clear key with
      object := s.object.use
      sinks := s.sinks.releaseAll (s.under key) }
  | .transform ssrc =>
    { s with
      object := s.object.use
      users := s.users - 1
      sinks := (s.pick ssrc).elim s.sinks s.sinks.retain
      calls := s.calls ++ [{ frame := s.frames, sink := s.pick ssrc }]
      frames := s.frames + 1 }
  | .invoke k => { s with object := s.object.use, box := s.box.use, calls := s.goto k .running }
  | .answer k emit =>
    { s with object := s.object.use, box := s.box.use, calls := s.goto k (.answered emit) }
  | .pass k =>
    { s with
      sinks := (s.sinkOf k).elim s.sinks s.sinks.use
      calls := s.goto k .passed
      passedOn := (s.frameOf k).zip (s.sinkOf k).toList ++ s.passedOn }
  | .finish k =>
    { s with
      object := s.object.use
      users := s.users + 1
      sinks := s.sinks.releaseAll (s.sinkOf k).toList
      calls := s.calls.eraseIdx k
      dropped := (if s.calls[k]?.any Call.holdsFrame then s.frameOf k else []) ++ s.dropped }

/-- A transformer just made. -/
def machine : Machine State Action := .ofEffect {} enabled effect

/-! ### What is kept

Two counts, and who has them: the transformer's references are the handle, the users and the
calls, and a sink's those of its owners, of the registrations and of the calls it was picked
for.
-/

variable {s t : State} {a : Action} {k : Nat} {c : Call}

namespace State

/-- The references to the transformer. -/
def refs (s : State) : Nat := s.handle.toNat + s.users + s.calls.length

/-- The references to sinks. -/
def kept (s : State) : List Nat := s.owned ++ s.registered ++ s.calls.filterMap Call.sink

/-- What became of the frames, with those that are still under way. -/
def fates (s : State) : List Nat :=
  s.passedOn.map Prod.fst ++ s.dropped ++ (s.calls.filter Call.holdsFrame).map Call.frame

end State

/-- Two counts, by who has a reference, and the frames by where they are. -/
structure Inv (s : State) : Prop where
  object : s.object.Held s.refs
  box : s.box.Held (if s.refs = 0 then 0 else 1)
  sinks : s.sinks.Held (s.kept : Multiset Nat)
  /-- A transformer that is gone holds nothing. -/
  empty : s.refs = 0 → s.registered = []
  fates : s.fates.Perm (List.range s.frames)

/-! ### One call of many

Calls are named by their places, so a call that goes on changes one place of the list and
one that returns takes it out.
-/

/-- A call stands between others, and stays where it is until it is over. -/
theorem State.callIs_split {p : Call → Bool} (h : s.callIs k p) :
    ∃ l c r, p c = true ∧ s.calls[k]? = some c ∧ s.calls = l ++ c :: r ∧
      (∀ stage, s.goto k stage = l ++ { c with stage } :: r) ∧ s.calls.eraseIdx k = l ++ r := by
  unfold State.callIs at h
  obtain ⟨c, hc, hp⟩ := (Option.any_eq_true _ _).mp h
  obtain ⟨hk, hck⟩ := List.getElem?_eq_some_iff.mp hc
  have hsplit : s.calls = s.calls.take k ++ c :: s.calls.drop (k + 1) := by
    rw [← hck, List.getElem_cons_drop, List.take_append_drop]
  refine ⟨s.calls.take k, c, s.calls.drop (k + 1), hp, hc, hsplit, fun stage => ?_,
    List.eraseIdx_eq_take_drop_succ ..⟩
  unfold State.goto
  rw [List.modify_eq_take_cons_drop hk, hck]

/-- Where the call goes, the references stay as they are. -/
theorem goto_same {p : Call → Bool} (h : s.callIs k p) (stage : Stage) :
    (s.goto k stage).length = s.calls.length ∧
      (s.goto k stage).filterMap Call.sink = s.calls.filterMap Call.sink := by
  obtain ⟨l, c, r, -, -, hcalls, hgoto, -⟩ := State.callIs_split h
  rw [hgoto, hcalls]
  constructor
  · simp
  · rw [List.filterMap_append, List.filterMap_append, List.filterMap_cons, List.filterMap_cons]

/-- A call that keeps its frame keeps it under way. -/
theorem goto_frames {p : Call → Bool} (h : s.callIs k p)
    (hp : ∀ c, p c = true → c.holdsFrame = true) {stage : Stage} (hstage : stage ≠ .passed) :
    ((s.goto k stage).filter Call.holdsFrame).map Call.frame =
      (s.calls.filter Call.holdsFrame).map Call.frame := by
  obtain ⟨l, c, r, hc, -, hcalls, hgoto, -⟩ := State.callIs_split h
  have hnew : ({ c with stage } : Call).holdsFrame = true := bne_iff_ne.mpr hstage
  rw [hgoto, hcalls, List.filter_append, List.filter_append, List.filter_cons_of_pos hnew,
    List.filter_cons_of_pos (hp c hc), List.map_append, List.map_append]
  rfl

/-! ### The keys -/

theorem registered_perm (s : State) (key : Option Nat) :
    s.registered.Perm (s.under key ++ (s.clear key).registered) := by
  unfold State.registered
  cases key with
  | none =>
      show (s.recvSinks.map Prod.snd ++ s.sendSink.toList).Perm
        (s.sendSink.toList ++ (s.recvSinks.map Prod.snd ++ []))
      rw [List.append_nil]
      exact List.perm_append_comm
  | some ssrc =>
      have hsplit := (List.filter_append_perm (·.1 == ssrc) s.recvSinks).map Prod.snd
      rw [List.map_append] at hsplit
      show (s.recvSinks.map Prod.snd ++ s.sendSink.toList).Perm
        (s.under (some ssrc) ++ ((s.recvSinks.filter fun x => !(x.1 == ssrc)).map Prod.snd ++
          s.sendSink.toList))
      rw [← List.append_assoc]
      exact hsplit.symm.append_right _

theorem put_registered (s : State) (key : Option Nat) (i : Nat) :
    ((s.clear key).put key i).registered.Perm (i :: (s.clear key).registered) := by
  cases key with
  | none =>
      show (s.recvSinks.map Prod.snd ++ [i]).Perm (i :: (s.recvSinks.map Prod.snd ++ []))
      rw [List.append_nil]
      exact List.perm_append_singleton i _
  | some ssrc => exact List.Perm.refl _

@[simp] theorem clear_calls (s : State) (key : Option Nat) : (s.clear key).calls = s.calls := by
  cases key <;> rfl

@[simp] theorem clear_owned (s : State) (key : Option Nat) : (s.clear key).owned = s.owned := by
  cases key <;> rfl

theorem pick_mem {ssrc i : Nat} (h : s.pick ssrc = some i) : i ∈ s.registered := by
  unfold State.registered
  rcases Option.or_eq_some_iff.mp h with hlookup | ⟨-, hsend⟩
  · obtain ⟨l, r, hrecv, -⟩ := List.lookup_eq_some_iff.mp hlookup
    rw [hrecv]
    simp
  · rw [hsend]
    exact List.mem_append_right _ List.mem_cons_self

/-! ### Step by step -/

namespace Inv

theorem boxed (h : Inv s) (hrefs : 0 < s.refs) : s.box.Held 1 := by
  have hbox := h.box
  rwa [if_neg (Nat.ne_of_gt hrefs)] at hbox

/-- A step that leaves as many references to the transformer as there were. -/
theorem of_refs (hrefs : t.refs = s.refs) (hpos : 0 < s.refs) (hobject : t.object.Held s.refs)
    (hbox : t.box.Held 1) (hsinks : t.sinks.Held (t.kept : Multiset Nat))
    (hfates : t.fates.Perm (List.range t.frames)) : Inv t where
  object := hrefs.symm ▸ hobject
  box := by
    rw [hrefs, if_neg hpos.ne']
    exact hbox
  sinks := hsinks
  empty h0 := absurd (hrefs ▸ h0) hpos.ne'
  fates := hfates

/-- One reference less, of those that were counted. -/
theorem letGo (hobject : s.object.Held (s.refs + 1)) (hbox : s.box.Held 1)
    (hsinks : s.sinks.Held (s.kept : Multiset Nat)) (hfates : s.fates.Perm (List.range s.frames)) :
    Inv s.letGo := by
  unfold State.letGo
  by_cases hlast : s.object.count = 1
  · have hrefs : s.refs = 0 := by
      have hcount := hobject.count
      omega
    have hcalls : s.calls = [] := by
      unfold State.refs at hrefs
      exact List.eq_nil_of_length_eq_zero (by omega)
    rw [if_pos hlast]
    refine ⟨hobject.release, ?_, ?_, fun _ => rfl, hfates⟩
    · show s.box.release.Held (if s.refs = 0 then 0 else 1)
      rw [if_pos hrefs]
      exact hbox.release
    · refine Shared.Held.releaseAll (hsinks.congr ?_)
      rw [Multiset.coe_add, Multiset.coe_eq_coe]
      show (s.owned ++ s.registered ++ s.calls.filterMap Call.sink).Perm
        (s.registered ++ (s.owned ++ [] ++ s.calls.filterMap Call.sink))
      rw [hcalls, List.filterMap_nil, List.append_nil, List.append_nil, List.append_nil]
      exact List.perm_append_comm
  · have hrefs : s.refs ≠ 0 := by
      have hcount := hobject.count
      omega
    rw [if_neg hlast]
    refine ⟨hobject.release, ?_, hsinks, fun h => absurd h hrefs, hfates⟩
    show s.box.Held (if s.refs = 0 then 0 else 1)
    rw [if_neg hrefs]
    exact hbox

theorem retain (h : Inv s) (hrefs : 0 < s.refs) :
    Inv { s with object := s.object.retain, users := s.users + 1 } := by
  have hmore : ({ s with object := s.object.retain, users := s.users + 1 } : State).refs =
      s.refs + 1 := by
    show s.handle.toNat + (s.users + 1) + s.calls.length = _
    unfold State.refs
    omega
  refine ⟨?_, ?_, h.sinks, fun h0 => by omega, h.fates⟩
  · rw [hmore]
    exact h.object.retain hrefs
  · rw [hmore]
    exact h.boxed hrefs

theorem detach (h : Inv s) (hen : 0 < s.users) :
    Inv ({ s with users := s.users - 1 } : State).letGo := by
  have hrefs : s.refs = ({ s with users := s.users - 1 } : State).refs + 1 := by
    show s.handle.toNat + s.users + s.calls.length =
      s.handle.toNat + (s.users - 1) + s.calls.length + 1
    omega
  exact letGo (hrefs ▸ h.object) (h.boxed (by omega)) h.sinks h.fates

theorem destroy (h : Inv s) (hen : s.handle = true) :
    Inv ({ s with handle := false } : State).letGo := by
  have hrefs : s.refs = ({ s with handle := false } : State).refs + 1 := by
    show s.handle.toNat + s.users + s.calls.length =
      false.toNat + s.users + s.calls.length + 1
    rw [hen]
    simp only [Bool.toNat_true, Bool.toNat_false]
    omega
  exact letGo (hrefs ▸ h.object) (h.boxed (by omega)) h.sinks h.fates

theorem makeSink (h : Inv s) {i : Nat} (hen : s.sinks.objects.life i = .unborn) :
    Inv { s with sinks := s.sinks.make i, owned := i :: s.owned } :=
  { h with sinks := h.sinks.make hen }

theorem kept_of_owned {i : Nat} (hi : i ∈ s.owned) : i ∈ (s.kept : Multiset Nat) :=
  Multiset.mem_coe.mpr (List.mem_append_left _ (List.mem_append_left _ hi))

theorem shareSink (h : Inv s) {i : Nat} (hen : i ∈ s.owned) :
    Inv { s with sinks := s.sinks.retain i, owned := i :: s.owned } :=
  { h with sinks := h.sinks.retain (kept_of_owned hen) }

theorem dropSink (h : Inv s) {i : Nat} (hen : i ∈ s.owned) :
    Inv { s with sinks := s.sinks.release i, owned := s.owned.erase i } := by
  refine { h with sinks := Shared.Held.release (h.sinks.congr ?_) }
  rw [Multiset.cons_coe, Multiset.coe_eq_coe]
  exact ((List.perm_cons_erase hen).append_right _).append_right _

theorem refs_pos_of_users (hen : 0 < s.users) : 0 < s.refs := by
  unfold State.refs
  omega

/-- What a key held goes. -/
theorem unregister (h : Inv s) {key : Option Nat} (hen : 0 < s.users) :
    Inv { s.clear key with
      object := s.object.use
      sinks := s.sinks.releaseAll (s.under key) } := by
  have hrefs := refs_pos_of_users hen
  have hkept : s.kept.Perm (s.under key ++ (s.clear key).kept) := by
    refine List.perm_iff_count.mpr fun x => ?_
    have hold := (registered_perm s key).count_eq x
    simp only [State.kept, clear_owned, clear_calls, List.count_append] at hold ⊢
    omega
  have hsinks : (s.sinks.releaseAll (s.under key)).Held ((s.clear key).kept : Multiset Nat) :=
    Shared.Held.releaseAll (h.sinks.congr (Multiset.coe_eq_coe.mpr hkept))
  have hobject := h.object.use hrefs
  cases key with
  | none => exact ⟨hobject, h.box, hsinks, fun h0 => absurd h0 hrefs.ne', h.fates⟩
  | some ssrc => exact ⟨hobject, h.box, hsinks, fun h0 => absurd h0 hrefs.ne', h.fates⟩

/-- A sink takes the place of what the key held. -/
theorem register (h : Inv s) {key : Option Nat} {i : Nat} (hen : 0 < s.users ∧ i ∈ s.owned) :
    Inv { (s.clear key).put key i with
      object := s.object.use
      sinks := (s.sinks.retain i).releaseAll (s.under key) } := by
  have hrefs := refs_pos_of_users hen.1
  have hkept : (i :: s.kept).Perm (s.under key ++ ((s.clear key).put key i).kept) := by
    have hput : ((s.clear key).put key i).kept =
        s.owned ++ ((s.clear key).put key i).registered ++ s.calls.filterMap Call.sink := by
      cases key <;> rfl
    rw [hput]
    refine List.perm_iff_count.mpr fun x => ?_
    have hold := (registered_perm s key).count_eq x
    have hnew := (put_registered s key i).count_eq x
    simp only [State.kept, List.count_append, List.count_cons] at hold hnew ⊢
    omega
  have hsinks : ((s.sinks.retain i).releaseAll (s.under key)).Held
      (((s.clear key).put key i).kept : Multiset Nat) :=
    Shared.Held.releaseAll ((h.sinks.retain (kept_of_owned hen.2)).congr
      (Multiset.coe_eq_coe.mpr hkept))
  have hobject := h.object.use hrefs
  cases key with
  | none => exact ⟨hobject, h.box, hsinks, fun h0 => absurd h0 hrefs.ne', h.fates⟩
  | some ssrc => exact ⟨hobject, h.box, hsinks, fun h0 => absurd h0 hrefs.ne', h.fates⟩

theorem call_refs {p : Call → Bool} (h : s.callIs k p) : 0 < s.refs := by
  obtain ⟨l, c, r, -, -, hcalls, -, -⟩ := State.callIs_split h
  unfold State.refs
  rw [hcalls, List.length_append, List.length_cons]
  omega

theorem sinkOf_kept {p : Call → Bool} (h : s.callIs k p) {i : Nat} (hi : s.sinkOf k = some i) :
    i ∈ (s.kept : Multiset Nat) := by
  obtain ⟨l, c, r, -, hck, hcalls, -, -⟩ := State.callIs_split h
  unfold State.sinkOf at hi
  rw [hck] at hi
  rw [Multiset.mem_coe]
  refine List.mem_append_right _ (List.mem_filterMap.mpr ⟨c, ?_, hi⟩)
  rw [hcalls]
  simp

theorem transform (h : Inv s) {ssrc : Nat} (hen : 0 < s.users) :
    Inv { s with
      object := s.object.use
      users := s.users - 1
      sinks := (s.pick ssrc).elim s.sinks s.sinks.retain
      calls := s.calls ++ [{ frame := s.frames, sink := s.pick ssrc }]
      frames := s.frames + 1 } := by
  have hpos := refs_pos_of_users hen
  have hrefs : s.handle.toNat + (s.users - 1) +
      (s.calls ++ [{ frame := s.frames, sink := s.pick ssrc : Call }]).length = s.refs := by
    unfold State.refs
    rw [List.length_append, List.length_singleton]
    omega
  refine of_refs hrefs hpos (h.object.use hpos) (h.boxed hpos) ?_ ?_
  · show ((s.pick ssrc).elim s.sinks s.sinks.retain).Held
      ((s.owned ++ s.registered ++ (s.calls ++ [_]).filterMap Call.sink : List Nat) : Multiset Nat)
    rw [List.filterMap_append, ← List.append_assoc]
    cases hpick : s.pick ssrc with
    | none => exact h.sinks.congr (congrArg _ (List.append_nil _).symm)
    | some i =>
        have hi : i ∈ (s.kept : Multiset Nat) :=
          Multiset.mem_coe.mpr (List.mem_append_left _ (List.mem_append_right _ (pick_mem hpick)))
        refine (h.sinks.retain hi).congr ?_
        rw [Multiset.cons_coe, Multiset.coe_eq_coe]
        exact (List.perm_append_singleton i s.kept).symm
  · show (s.passedOn.map Prod.fst ++ s.dropped ++
      ((s.calls ++ [_]).filter Call.holdsFrame).map Call.frame).Perm (List.range (s.frames + 1))
    rw [List.filter_append, List.map_append, ← List.append_assoc, List.range_succ]
    exact h.fates.append_right _

/-- The callback runs, and is there. -/
theorem call (h : Inv s) {p : Call → Bool} (hen : s.callIs k p)
    (hp : ∀ c, p c = true → c.holdsFrame = true) {stage : Stage} (hstage : stage ≠ .passed) :
    Inv { s with object := s.object.use, box := s.box.use, calls := s.goto k stage } := by
  have hpos := call_refs hen
  obtain ⟨hlength, hsinks⟩ := goto_same hen stage
  have hrefs : s.handle.toNat + s.users + (s.goto k stage).length = s.refs := by
    rw [hlength]
    rfl
  refine of_refs hrefs hpos (h.object.use hpos) ((h.boxed hpos).use Nat.one_pos) ?_ ?_
  · show s.sinks.Held
      ((s.owned ++ s.registered ++ (s.goto k stage).filterMap Call.sink : List Nat) : Multiset Nat)
    rw [hsinks]
    exact h.sinks
  · show (s.passedOn.map Prod.fst ++ s.dropped ++
      ((s.goto k stage).filter Call.holdsFrame).map Call.frame).Perm (List.range s.frames)
    rw [goto_frames hen hp hstage]
    exact h.fates

theorem pass (h : Inv s) (hen : s.callIs k Call.goes) :
    Inv { s with
      sinks := (s.sinkOf k).elim s.sinks s.sinks.use
      calls := s.goto k .passed
      passedOn := (s.frameOf k).zip (s.sinkOf k).toList ++ s.passedOn } := by
  have hpos := call_refs hen
  obtain ⟨hlength, hsinks⟩ := goto_same hen .passed
  have hrefs : s.handle.toNat + s.users + (s.goto k .passed).length = s.refs := by
    rw [hlength]
    rfl
  obtain ⟨l, c, r, hc, hck, hcalls, hgoto, -⟩ := State.callIs_split hen
  unfold Call.goes at hc
  rw [Bool.and_eq_true, beq_iff_eq, Option.isSome_iff_exists] at hc
  obtain ⟨hstage, i, hi⟩ := hc
  have hsink : s.sinkOf k = some i := by
    unfold State.sinkOf
    rw [hck]
    exact hi
  have hframe : s.frameOf k = [c.frame] := by
    unfold State.frameOf
    rw [hck]
    rfl
  refine of_refs hrefs hpos h.object (h.boxed hpos) ?_ ?_
  · show ((s.sinkOf k).elim s.sinks s.sinks.use).Held
      ((s.owned ++ s.registered ++ (s.goto k .passed).filterMap Call.sink : List Nat) :
        Multiset Nat)
    rw [hsinks, hsink, Option.elim_some, h.sinks.use (sinkOf_kept hen hsink)]
    exact h.sinks
  · have holds : c.holdsFrame = true := by
      unfold Call.holdsFrame
      rw [hstage]
      rfl
    have hgone : ({ c with stage := .passed } : Call).holdsFrame = false := rfl
    refine List.Perm.trans (List.perm_iff_count.mpr fun x => ?_) h.fates
    show (((s.frameOf k).zip (s.sinkOf k).toList ++ s.passedOn).map Prod.fst ++ s.dropped ++
      ((s.goto k .passed).filter Call.holdsFrame).map Call.frame).count x = s.fates.count x
    unfold State.fates
    rw [hgoto, hcalls, hsink, hframe]
    simp [List.count_append, List.count_cons, hgone, holds]
    omega

theorem finish (h : Inv s) (hen : s.callIs k Call.ended) :
    Inv { s with
      object := s.object.use
      users := s.users + 1
      sinks := s.sinks.releaseAll (s.sinkOf k).toList
      calls := s.calls.eraseIdx k
      dropped := (if s.calls[k]?.any Call.holdsFrame then s.frameOf k else []) ++ s.dropped } := by
  have hpos := call_refs hen
  obtain ⟨l, c, r, -, hck, hcalls, -, herase⟩ := State.callIs_split hen
  have hrefs : s.handle.toNat + (s.users + 1) + (s.calls.eraseIdx k).length = s.refs := by
    unfold State.refs
    rw [herase, hcalls, List.length_append, List.length_append, List.length_cons]
    omega
  have hsink : s.sinkOf k = c.sink := by
    unfold State.sinkOf
    rw [hck]
    rfl
  have hframe : s.frameOf k = [c.frame] := by
    unfold State.frameOf
    rw [hck]
    rfl
  refine of_refs hrefs hpos (h.object.use hpos) (h.boxed hpos) ?_ ?_
  · refine Shared.Held.releaseAll (h.sinks.congr (Multiset.coe_eq_coe.mpr ?_))
    show s.kept.Perm ((s.sinkOf k).toList ++
      (s.owned ++ s.registered ++ (s.calls.eraseIdx k).filterMap Call.sink))
    refine List.perm_iff_count.mpr fun x => ?_
    unfold State.kept
    rw [herase, hcalls, hsink]
    cases hc : c.sink <;>
      simp [List.count_append, List.count_cons, hc]
    omega
  · refine List.Perm.trans (List.perm_iff_count.mpr fun x => ?_) h.fates
    show (s.passedOn.map Prod.fst ++
      ((if s.calls[k]?.any Call.holdsFrame then s.frameOf k else []) ++ s.dropped) ++
      ((s.calls.eraseIdx k).filter Call.holdsFrame).map Call.frame).count x = s.fates.count x
    unfold State.fates
    rw [herase, hck, hcalls, hframe, Option.any_some]
    by_cases holds : c.holdsFrame = true
    · simp [List.count_append, List.count_cons, holds]
      omega
    · simp [List.count_append, holds]

end Inv

theorem inv_start : Inv machine.start where
  object := Counted.Held.new
  box := Counted.Held.new
  sinks := Shared.Held.none
  empty h := by cases h
  fates := List.Perm.refl []

theorem inv_step (s : State) (a : Action) (t : State) (h : Inv s)
    (hstep : machine.step s a = some t) : Inv t := by
  obtain ⟨hen, rfl⟩ := Machine.ofEffect_step.mp hstep
  cases a with
  | attach =>
      refine h.retain ?_
      unfold State.refs
      rw [show s.handle = true from hen, Bool.toNat_true]
      omega
  | share => exact h.retain (Inv.refs_pos_of_users hen)
  | detach => exact h.detach hen
  | destroy => exact h.destroy hen
  | makeSink i => exact h.makeSink hen
  | shareSink i => exact h.shareSink hen
  | dropSink i => exact h.dropSink hen
  | register key i => exact h.register hen
  | unregister key => exact h.unregister hen
  | transform ssrc => exact h.transform hen
  | invoke k =>
      refine h.call hen (fun c hc => ?_) (by decide)
      unfold Call.holdsFrame
      rw [eq_of_beq hc]
      rfl
  | answer k emit =>
      refine h.call hen (fun c hc => ?_) nofun
      unfold Call.holdsFrame
      rw [eq_of_beq hc]
      rfl
  | pass k => exact h.pass hen
  | finish k => exact h.finish hen

theorem inv_of_reachable (h : machine.Reachable s) : Inv s :=
  Machine.invariant inv_start inv_step h

/-! ### What comes of it -/

/-- Nobody has a reference to the transformer any more, nor is in it. -/
def State.Alone (s : State) : Prop := s.handle = false ∧ s.users = 0 ∧ s.calls = []

theorem State.refs_eq_zero_iff (s : State) : s.refs = 0 ↔ s.Alone := by
  unfold State.refs State.Alone
  rw [Nat.add_eq_zero_iff, Nat.add_eq_zero_iff, List.length_eq_zero_iff, Bool.toNat_eq_zero,
    and_assoc]

structure Safe (s : State) : Prop where
  /-- Nothing was touched, and nothing freed, that was not there. -/
  object : s.object.stale = 0
  box : s.box.stale = 0
  sinks : s.sinks.objects.stale = 0
  /-- The callback is dropped once, when nobody is left, and not before. -/
  freed : s.box.freed ≤ 1 ∧ (s.box.freed = 1 ↔ s.Alone)
  /-- A sink is there as long as its stream, the transformer or a frame on its way has it. -/
  live : ∀ i, s.sinks.objects.life i = .live ↔
    i ∈ s.owned ∨ i ∈ s.registered ∨ ∃ c ∈ s.calls, c.sink = some i
  /-- Every frame goes on to one sink once, or is dropped once, or is on its way. -/
  fates : s.fates.Perm (List.range s.frames)

theorem safe_of_reachable (h : machine.Reachable s) : Safe s := by
  have hinv := inv_of_reachable h
  refine ⟨hinv.object.stale, hinv.box.stale, hinv.sinks.objects.stale, ⟨hinv.box.freed_le_one, ?_⟩,
    fun i => ?_, hinv.fates⟩
  · rw [hinv.box.freed_eq_one_iff, ← s.refs_eq_zero_iff]
    split <;> simp_all
  · rw [hinv.sinks.objects.live, Multiset.mem_coe]
    unfold State.kept
    rw [List.mem_append, List.mem_append, List.mem_filterMap, or_assoc]

/-- The sink of a frame is taken off, and dropped by its stream, with the frame in the
callback; the binding has let go of the transformer before. -/
def inFlight : List Action :=
  [.attach, .share, .makeSink 0, .register (some 7) 0, .destroy, .transform 7, .invoke 0,
    .unregister (some 7), .dropSink 0, .detach, .answer 0 0, .pass 0]

/-! ### Letting go

Every party can come to its end by itself: a call goes through its stages, a user lets go,
the handle is dropped.  None of them waits for another.
-/

/-- What is done to come to an end: nothing new is taken. -/
def Action.winds : Action → Bool
  | .detach | .destroy | .dropSink _ | .invoke _ | .answer _ _ | .pass _ | .finish _ => true
  | _ => false

def Stage.left : Stage → Nat
  | .picked => 5
  | .running => 4
  | .answered _ => 3
  | .passed => 2

def Call.left (c : Call) : Nat := c.stage.left

namespace State

def left (s : State) : Nat :=
  s.handle.toNat + s.users + s.owned.length + (s.calls.map Call.left).sum

theorem letGo_left (s : State) : s.letGo.left = s.left := by
  unfold State.letGo
  split <;> rfl

/-- Taking the first call on leaves less to do. -/
theorem goto_left {c : Call} {cs : List Call} (hcalls : s.calls = c :: cs) (stage : Stage)
    (hless : stage.left < c.left) :
    s.handle.toNat + s.users + s.owned.length + ((s.goto 0 stage).map Call.left).sum < s.left := by
  refine Nat.add_lt_add_left ?_ _
  unfold State.goto
  rw [hcalls]
  show (({ c with stage } :: cs : List Call).map Call.left).sum < ((c :: cs).map Call.left).sum
  rw [List.map_cons, List.sum_cons, List.map_cons, List.sum_cons]
  exact Nat.add_lt_add_right hless _

/-- So does a return, though it gives the caller's reference back. -/
theorem eraseIdx_left {c : Call} {cs : List Call} (hcalls : s.calls = c :: cs) :
    s.handle.toNat + (s.users + 1) + s.owned.length + ((s.calls.eraseIdx 0).map Call.left).sum <
      s.left := by
  have hc : 2 ≤ c.left := by
    unfold Call.left
    cases c.stage <;> simp [Stage.left]
  unfold State.left
  rw [hcalls, List.eraseIdx_cons_zero, List.map_cons, List.sum_cons]
  omega

end State

/-- Whoever is left can go one step further. -/
theorem exists_winding (h : ¬ (s.Alone ∧ s.owned = [])) :
    ∃ a, a.winds = true ∧ enabled s a ∧ (effect s a).left < s.left := by
  cases hcalls : s.calls with
  | cons c cs =>
      have hhead (p : Call → Bool) (hp : p c = true) : s.callIs 0 p := by
        unfold State.callIs
        rw [hcalls]
        exact hp
      have hleft {stage : Stage} (hstage : c.stage = stage) : c.left = stage.left :=
        congrArg Stage.left hstage
      cases hstage : c.stage with
      | picked =>
          exact ⟨.invoke 0, rfl, hhead _ (beq_iff_eq.mpr hstage),
            s.goto_left hcalls .running (by rw [hleft hstage]; decide)⟩
      | running =>
          exact ⟨.answer 0 0, rfl, hhead _ (beq_iff_eq.mpr hstage),
            s.goto_left hcalls (.answered 0) (by rw [hleft hstage]; decide)⟩
      | answered emit =>
          by_cases hgoes : c.goes = true
          · exact ⟨.pass 0, rfl, hhead _ hgoes,
              s.goto_left hcalls .passed (by rw [hleft hstage]; exact Nat.lt_succ_self 2)⟩
          · refine ⟨.finish 0, rfl, hhead _ ?_, s.eraseIdx_left hcalls⟩
            unfold Call.goes at hgoes
            unfold Call.ended
            rw [hstage] at hgoes ⊢
            simp only [Bool.and_eq_true, beq_iff_eq, Stage.answered.injEq, not_and,
              Bool.not_eq_true, Option.isSome_eq_false_iff] at hgoes
            by_cases hemit : emit = 0
            · simp [hgoes hemit]
            · simp [hemit]
      | passed =>
          refine ⟨.finish 0, rfl, hhead _ ?_, s.eraseIdx_left hcalls⟩
          unfold Call.ended
          rw [hstage]
  | nil =>
      by_cases husers : 0 < s.users
      · refine ⟨.detach, rfl, husers, ?_⟩
        show ({ s with users := s.users - 1 } : State).letGo.left < s.left
        rw [State.letGo_left]
        show s.handle.toNat + (s.users - 1) + s.owned.length + (s.calls.map Call.left).sum <
          s.handle.toNat + s.users + s.owned.length + (s.calls.map Call.left).sum
        omega
      · cases hhandle : s.handle with
        | true =>
            refine ⟨.destroy, rfl, hhandle, ?_⟩
            show ({ s with handle := false } : State).letGo.left < s.left
            rw [State.letGo_left]
            show false.toNat + s.users + s.owned.length + (s.calls.map Call.left).sum <
              s.handle.toNat + s.users + s.owned.length + (s.calls.map Call.left).sum
            rw [hhandle, Bool.toNat_false, Bool.toNat_true]
            omega
        | false =>
            have halone : s.Alone := ⟨hhandle, Nat.eq_zero_of_not_pos husers, hcalls⟩
            obtain ⟨i, owned, howned⟩ := List.exists_cons_of_ne_nil fun he => h ⟨halone, he⟩
            refine ⟨.dropSink i, rfl, ?_, ?_⟩
            · show i ∈ s.owned
              rw [howned]
              exact List.mem_cons_self
            · show s.handle.toNat + s.users + (s.owned.erase i).length +
                (s.calls.map Call.left).sum < s.left
              unfold State.left
              rw [howned, List.erase_cons_head, List.length_cons]
              omega

/-- Whatever is under way, everybody can come to an end, and then nothing is left: the
callback is dropped, once, and every sink is gone. -/
theorem transformer_lets_go (h : machine.Reachable s) :
    ∃ as t, (∀ a ∈ as, a.winds = true) ∧ machine.run s as = some t ∧ t.box.freed = 1 ∧
      t.object.freed = 1 ∧ ∀ i, t.sinks.objects.life i ≠ .live := by
  have hprogress : ∀ s, Inv s → ¬ (s.Alone ∧ s.owned = []) → ∃ a t, a.winds = true ∧
      machine.step s a = some t ∧ Inv t ∧ t.left < s.left := by
    intro s hinv hmore
    obtain ⟨a, ha, hen, hless⟩ := exists_winding hmore
    have hstep : machine.step s a = some (effect s a) := Machine.ofEffect_step.mpr ⟨hen, rfl⟩
    exact ⟨a, _, ha, hstep, inv_step _ _ _ hinv hstep, hless⟩
  obtain ⟨as, t, has, hrun, hinv, halone, howned⟩ :=
    Machine.exists_run_done (M := machine) _ _ _ State.left hprogress (inv_of_reachable h)
  have hrefs : t.refs = 0 := t.refs_eq_zero_iff.mpr halone
  have hbox := hinv.box
  have hobject := hinv.object
  rw [hrefs] at hobject hbox
  refine ⟨as, t, has, hrun, hbox.freed, hobject.freed, fun i hi => ?_⟩
  rw [hinv.sinks.objects.live] at hi
  unfold State.kept at hi
  rw [howned, hinv.empty hrefs, halone.2.2] at hi
  simp at hi

theorem transformer_lets_go_inFlight : ∃ s, machine.run machine.start inFlight = some s ∧
    ∃ as t, (∀ a ∈ as, a.winds = true) ∧ machine.run s as = some t ∧ t.box.freed = 1 ∧
      t.object.freed = 1 ∧ ∀ i, t.sinks.objects.life i ≠ .live :=
  ⟨_, rfl, transformer_lets_go ⟨inFlight, rfl⟩⟩

end ReactorWebrtc.NativeTransform
