/-
What keeps a factory's threads running, and what it takes with it.

A factory owns the network, worker and signaling threads of libwebrtc, and everything made
from it works on them, its own destruction included.  So the factory's handle is shared: the
value the application has, every connection, the observer's box of every connection, every
track and every channel has a reference, and the last one to go stops the threads.  A
transceiver has none.

The observer's box is addressed by the native connection through a raw pointer, and read by
every callback on the way in, to find the handler, and on the way out, to unlock it.  The
drop of a connection closes and deletes the native side first, which waits for a callback
that runs, unless it is that callback that drops it.

A run is made of what the application does and what the signaling thread does, in any order.
`teardown_safe` says exactly which runs are safe, and what is left when one is;
`teardown_finishes` that dropping what there is stops the threads.

The handle is a `Counted`, the boxes an `Arena`; both say of themselves when they are used
after their end, so a run that goes wrong is still a run and its state tells.  Safety is
that neither has anything to tell, and that the connection whose callback runs is there.
-/
import Mathlib.Algebra.BigOperators.Group.List.Basic
import ReactorWebrtc.Lib.Arena
import ReactorWebrtc.Lib.Counted
import ReactorWebrtc.Lib.Machine
import ReactorWebrtc.Lib.Traverse

namespace ReactorWebrtc.Teardown

/-- How far a connection is, in its creation and in its drop. -/
inductive Stage
  /-- `into_state` has made the observer's box. -/
  | boxed
  /-- The creation has failed; the box is still there. -/
  | refused
  /-- The native connection is made, and may call back. -/
  | created
  /-- `PeerConnection::new` has it. -/
  | opened
  /-- The native connection is closed and deleted. -/
  | closed
  /-- The observer's box is freed. -/
  | unboxed
  | gone
  deriving DecidableEq, Repr

/-- The references to the factory: one in the box, and the connection's own. -/
def Stage.refs : Stage → Nat
  | .boxed | .refused | .created | .unboxed => 1
  | .opened | .closed => 2
  | .gone => 0

/-- The observer's box is there. -/
def Stage.hasBox : Stage → Bool
  | .unboxed | .gone => false
  | _ => true

/-- There is a native connection. -/
def Stage.native : Stage → Bool
  | .created | .opened => true
  | _ => false

/-- `create_peer_connection` has not returned. -/
def Stage.creating : Stage → Bool
  | .boxed | .refused | .created => true
  | _ => false

/-- How far the signaling thread is in a callback. -/
inductive Callback
  | entered
  /-- A track or a channel is made of the native handle. -/
  | made
  /-- In the application's handler. -/
  | inHandler
  deriving DecidableEq, Repr

/-- The factory, the connections with their boxes, and everything that was made from them.
-/
structure State where
  /-- The factory, and the threads it owns. -/
  handle : Counted := {}
  /-- The application has the factory's value. -/
  factory : Bool := true
  conns : List Stage := []
  /-- The observers' boxes, by connection. -/
  boxes : Arena Nat := {}
  /-- The callback that runs, and whose it is. -/
  running : Option (Nat × Callback) := none
  /-- Tracks and channels whose native handle is there. -/
  products : Nat := 0
  /-- References of tracks and channels whose native handle is gone. -/
  leaving : Nat := 0
  /-- Handles of transceivers, each by what it is a handle of. -/
  transceivers : List Nat := []

/-- What the application and the signaling thread do, in any order. -/
inductive Action
  /-- `create_peer_connection`, one by one: the box, the failure, the native call, the value. -/
  | intoState
  /-- Refused by `to_native`, or by the native call. -/
  | refuse (k : Nat) (native : Bool)
  | dropRefused (k : Nat)
  | create (k : Nat)
  | wrap (k : Nat)
  /-- A method of a connection that makes nothing. -/
  | call (k : Nat)
  | callback (k : Nat)
  | makeProduct
  | callHandler
  | returns
  | createTrack
  | createChannel (k : Nat)
  | callProduct
  | getTransceiver (k t : Nat)
  | callTransceiver
  | dropTransceiver (t : Nat)
  /-- The drop of a connection, by the handler that runs or by another thread. -/
  | close (k : Nat) (inHandler : Bool)
  | dropObserver (k : Nat)
  | dropConnection (k : Nat)
  | destroyProduct
  /-- A channel dropped in a channel's callback: a thread destroys it. -/
  | detach
  | dropProduct
  | dropFactory
  deriving DecidableEq, Repr

/-- The callback runs the application's handler. -/
def State.inHandler (s : State) : Bool := s.running.any (·.2 = .inHandler)

/-- What borrowing and the one signaling thread leave possible. -/
def enabled (s : State) : Action → Prop
  | .intoState | .createTrack => s.factory = true
  | .refuse k _ | .create k => s.conns[k]? = some .boxed
  | .dropRefused k => s.conns[k]? = some .refused
  | .wrap k => s.conns[k]? = some .created
  | .call k | .createChannel k | .getTransceiver k _ => s.conns[k]? = some .opened
  -- one signaling thread, one callback
  | .callback k => s.conns[k]?.any Stage.native = true ∧ s.running = none
  | .makeProduct => s.running.any (·.2 = .entered) = true
  | .callHandler => s.running.any (·.2 ≠ .inHandler) = true
  | .returns => s.running.isSome = true
  | .callProduct | .destroyProduct | .detach => 0 < s.products
  | .callTransceiver => s.transceivers ≠ []
  | .dropTransceiver t => t ∈ s.transceivers
  -- from another thread it waits for the signaling thread
  | .close k inHandler =>
    s.conns[k]? = some .opened ∧ if inHandler then s.inHandler = true else s.running = none
  | .dropObserver k => s.conns[k]? = some .closed
  | .dropConnection k => s.conns[k]? = some .unboxed
  | .dropProduct => 0 < s.leaving
  -- who creates a connection borrows the factory
  | .dropFactory => s.factory = true ∧ ∀ c ∈ s.conns, c.creating = false

instance (s : State) : ∀ a, Decidable (enabled s a)
  | .intoState | .createTrack | .refuse _ _ | .create _ | .dropRefused _ | .wrap _ | .call _
  | .createChannel _ | .getTransceiver _ _ | .makeProduct | .callHandler | .returns
  | .dropObserver _ | .dropConnection _ => inferInstanceAs (Decidable (_ = _))
  | .callProduct | .destroyProduct | .detach | .dropProduct => inferInstanceAs (Decidable (_ < _))
  | .callTransceiver => inferInstanceAs (Decidable (_ ≠ _))
  | .dropTransceiver _ => inferInstanceAs (Decidable (_ ∈ _))
  | .callback _ | .dropFactory => inferInstanceAs (Decidable (_ ∧ _))
  | .close _ true | .close _ false => inferInstanceAs (Decidable (_ ∧ _ = _))

/-- The connection is at this stage. -/
def State.goto (s : State) (k : Nat) (c : Stage) : State := { s with conns := s.conns.set k c }

/-- The signaling thread reads the box of the connection whose callback it runs. -/
def State.readBox (s : State) : State :=
  { s with boxes := s.running.elim s.boxes fun r => s.boxes.read r.1 }

/-- The last handle of a transceiver takes it apart on the signaling thread. -/
def State.dropTransceiver (s : State) (t : Nat) : State :=
  { s with
    transceivers := s.transceivers.erase t
    handle := if t ∈ s.transceivers.erase t then s.handle else s.handle.use }

/-- What each makes, drops and works on. -/
def effect (s : State) : Action → State
  | .intoState =>
    { s with
      conns := s.conns ++ [.boxed]
      boxes := s.boxes.alloc s.conns.length
      handle := s.handle.retain }
  | .refuse k native =>
    { s.goto k .refused with handle := if native then s.handle.use else s.handle }
  | .dropRefused k =>
    { s.goto k .gone with boxes := s.boxes.free k, handle := s.handle.release }
  | .create k => { s.goto k .created with handle := s.handle.use }
  | .wrap k => { s.goto k .opened with handle := s.handle.retain }
  | .call _ | .callProduct | .callTransceiver => { s with handle := s.handle.use }
  | .callback k =>
    { s with
      handle := s.handle.use
      boxes := s.boxes.read k
      running := some (k, .entered) }
  | .makeProduct =>
    { s.readBox with
      handle := s.handle.retain
      products := s.products + 1
      running := s.running.map fun r => (r.1, .made) }
  | .callHandler => { s.readBox with running := s.running.map fun r => (r.1, .inHandler) }
  | .returns => { s.readBox with running := none }
  | .createTrack | .createChannel _ =>
    { s with handle := s.handle.use.retain, products := s.products + 1 }
  | .getTransceiver _ t =>
    { s with handle := s.handle.use, transceivers := t :: s.transceivers }
  | .dropTransceiver t => s.dropTransceiver t
  | .close k _ => { s.goto k .closed with handle := s.handle.use }
  | .dropObserver k =>
    { s.goto k .unboxed with boxes := s.boxes.free k, handle := s.handle.release }
  | .dropConnection k => { s.goto k .gone with handle := s.handle.release }
  | .destroyProduct =>
    { s with
      handle := s.handle.use
      products := s.products - 1
      leaving := s.leaving + 1 }
  | .detach => { s with handle := s.handle.retain, leaving := s.leaving + 1 }
  | .dropProduct => { s with handle := s.handle.release, leaving := s.leaving - 1 }
  | .dropFactory => { s with handle := s.handle.release, factory := false }

/-- A factory just built. -/
def machine : Machine State Action := .ofEffect {} enabled effect

/-! ### Which runs are safe

Only three actions can go wrong, and `Allowed` is what each has to avoid.
-/

/-- Nothing is used when it is gone, and no connection is deleted under its own callback. -/
structure Safe (s : State) : Prop where
  handle : s.handle.stale = 0
  boxes : s.boxes.stale = 0
  running : ∀ r, s.running = some r → s.conns[r.1]?.any Stage.native = true

/-- How many references to the factory there are. -/
def State.refs (s : State) : Nat :=
  (s.conns.map Stage.refs).sum + s.factory.toNat + s.products + s.leaving

/-- A handler does not drop its own connection, and a transceiver does not need the threads
when they are gone. -/
def Allowed (s : State) : Action → Prop
  | .close k true => s.running.map Prod.fst ≠ some k
  | .callTransceiver => 0 < s.refs
  | .dropTransceiver t => t ∈ s.transceivers.erase t ∨ 0 < s.refs
  | _ => True

instance (s : State) : ∀ a, Decidable (Allowed s a)
  | .close _ true => inferInstanceAs (Decidable (_ ≠ _))
  | .callTransceiver => inferInstanceAs (Decidable (_ < _))
  | .dropTransceiver _ => inferInstanceAs (Decidable (_ ∨ _))
  | .close _ false | .intoState | .refuse _ _ | .dropRefused _ | .create _ | .wrap _ | .call _
  | .callback _ | .makeProduct | .callHandler | .returns | .createTrack | .createChannel _
  | .callProduct | .getTransceiver _ _ | .dropObserver _ | .dropConnection _ | .destroyProduct
  | .detach | .dropProduct | .dropFactory => inferInstanceAs (Decidable True)

/-! ### What is kept

The count of the handle is the number of references there are, and a box is there for every
connection that is past its making and not yet past its drop.
-/

variable {s t : State} {a : Action} {k : Nat} {b c : Stage}

/-- The counts, by who has a reference, and the callback that runs. -/
structure Inv (s : State) : Prop where
  handle : s.handle.Held s.refs
  boxes : s.boxes.Holds fun k => s.conns[k]?.any Stage.hasBox = true
  fresh : ∀ k, s.conns.length ≤ k → s.boxes.life k = .unborn
  running : ∀ r, s.running = some r → s.conns[r.1]?.any Stage.native = true

theorem inv_start : Inv {} where
  handle := ⟨rfl, rfl, rfl⟩
  boxes := Arena.Holds.empty.congr fun _ => iff_of_false id nofun
  fresh _ _ := rfl
  running := nofun

theorem Stage.hasBox_of_native (h : c.native = true) : c.hasBox = true := by
  cases c <;> first | rfl | cases h

theorem Stage.refs_pos_of_hasBox (h : c.hasBox = true) : 0 < c.refs := by
  cases c <;> first | decide | cases h

theorem State.refs_goto (h : s.conns[k]? = some c) (b : Stage) :
    (s.goto k b).refs + c.refs = s.refs + b.refs := by
  have hsum := Traverse.sum_map_set Stage.refs h b
  simp only [State.refs, State.goto]
  omega

theorem State.refs_pos (h : s.conns[k]? = some c) (hc : 0 < c.refs) : 0 < s.refs := by
  have hgone := s.refs_goto h .gone
  change _ = s.refs + 0 at hgone
  omega

theorem State.refs_pos_of_any (h : s.conns[k]?.any Stage.hasBox = true) : 0 < s.refs := by
  obtain ⟨c, hc, hbox⟩ := (Option.any_eq_true ..).mp h
  exact State.refs_pos hc (Stage.refs_pos_of_hasBox hbox)

namespace Inv

theorem safe (h : Inv s) : Safe s := ⟨h.handle.stale, h.boxes.stale, h.running⟩

theorem use (h : Inv s) (hrefs : 0 < s.refs) : s.handle.use = s.handle := h.handle.use_eq hrefs

/-- Under a callback there is the box it reads, and somebody who keeps the factory. -/
theorem hasBox (h : Inv s) {r : Nat × Callback} (hr : s.running = some r) :
    s.conns[r.1]?.any Stage.hasBox = true := by
  have hnative := h.running r hr
  rw [Option.any_eq_true] at hnative ⊢
  obtain ⟨c, hc, hn⟩ := hnative
  exact ⟨c, hc, Stage.hasBox_of_native hn⟩

theorem refs_pos_of_running (h : Inv s) (hr : s.running.isSome = true) : 0 < s.refs := by
  obtain ⟨r, hr⟩ := Option.isSome_iff_exists.mp hr
  exact State.refs_pos_of_any (h.hasBox hr)

theorem readBox (h : Inv s) : s.readBox = s := by
  have hboxes : (s.running.elim s.boxes fun r => s.boxes.read r.1) = s.boxes := by
    cases hr : s.running with
    | none => rfl
    | some r => exact h.boxes.read (h.hasBox hr)
  unfold State.readBox
  rw [hboxes]

/-- A connection goes on, and keeps its box if it has one. -/
theorem goto (h : Inv s) (hk : s.conns[k]? = some c) (hbox : b.hasBox = c.hasBox)
    (hnative : c.native = true → b.native = false → s.running.map Prod.fst ≠ some k)
    {handle : Counted} (hhandle : handle.Held (s.goto k b).refs) :
    Inv { s.goto k b with handle } where
  handle := hhandle
  boxes := h.boxes.congr fun j => by
    show _ ↔ (s.conns.set k b)[j]?.any Stage.hasBox = true
    rw [Traverse.any_getElem?_set _ hk]
    split
    · rename_i hj
      rw [hj, hk, hbox]
      rfl
    · rfl
  fresh j hj := h.fresh j (by rwa [show (s.goto k b).conns.length = _ from List.length_set] at hj)
  running r hr := by
    have hold := h.running r hr
    show (s.conns.set k b)[r.1]?.any Stage.native = true
    rw [Traverse.any_getElem?_set _ hk]
    split
    · rename_i hj
      rw [hj, hk] at hold
      have hown : s.running.map Prod.fst = some k := by
        rw [show s.running = some r from hr, Option.map_some, hj]
      cases hb : b.native with
      | true => rfl
      | false => exact absurd hown (hnative hold hb)
    · exact hold

/-- A connection that does not call back gives up its box, and the reference in it. -/
theorem unbox (h : Inv s) (hk : s.conns[k]? = some c) (hbox : c.hasBox = true)
    (hnative : c.native = false) (hb : b.hasBox = false) (hrefs : c.refs = b.refs + 1) :
    Inv { s.goto k b with boxes := s.boxes.free k, handle := s.handle.release } where
  handle := by
    have hgoto := s.refs_goto hk b
    have hheld := h.handle
    rw [show s.refs = (s.goto k b).refs + 1 by omega] at hheld
    exact hheld.release
  boxes := by
    refine h.boxes.free (by rw [hk]; exact hbox) fun j => ?_
    show (s.conns.set k b)[j]?.any Stage.hasBox = true ↔ _
    rw [Traverse.any_getElem?_set _ hk]
    split
    · rename_i hj
      exact iff_of_false (by rw [hb]; nofun) fun hno => hno.2 hj
    · rename_i hj
      exact (and_iff_left hj).symm
  fresh j hj := by
    have hin : s.conns[k]?.any Stage.hasBox = true := by rw [hk]; exact hbox
    refine (Arena.free_unborn (h.boxes.ne_unborn hin) j).mpr (h.fresh j ?_)
    rwa [show (s.goto k b).conns.length = _ from List.length_set] at hj
  running r hr := by
    have hold := h.running r hr
    show (s.conns.set k b)[r.1]?.any Stage.native = true
    rw [Traverse.any_getElem?_set _ hk]
    split
    · rename_i hj
      rw [hj, hk] at hold
      cases hnative.symm.trans hold
    · exact hold

end Inv

/-! ### One step of each kind

Most actions use the handle and change one connection's stage; the ones that make or drop
something change the count with it.
-/

/-- A reference more, or one less. -/
theorem Inv.held (h : Inv s) {n : Nat} (hn : s.refs = n) : s.handle.Held n := hn ▸ h.handle

theorem Inv.keep {handle : Counted} (h : Inv s) {factory : Bool} {products leaving : Nat}
    {transceivers : List Nat}
    (hhandle : handle.Held ((s.conns.map Stage.refs).sum + factory.toNat + products + leaving)) :
    Inv { s with handle, factory, products, leaving, transceivers } :=
  ⟨hhandle, h.boxes, h.fresh, h.running⟩

theorem Inv.run (h : Inv s) {running : Option (Nat × Callback)}
    (hrunning : ∀ r, running = some r → s.conns[r.1]?.any Stage.native = true) :
    Inv { s with running } :=
  ⟨h.handle, h.boxes, h.fresh, hrunning⟩

theorem Inv.intoState (h : Inv s) (hen : enabled s .intoState) :
    Inv (effect s .intoState) where
  handle := by
    have hfactory : s.factory = true := hen
    have hpos : 0 < s.refs := by
      unfold State.refs
      rw [hfactory, Bool.toNat_true]
      omega
    have hrefs : (effect s .intoState).refs = s.refs + 1 := by
      show ((s.conns ++ [Stage.boxed]).map Stage.refs).sum + s.factory.toNat + s.products +
      s.leaving = _
      rw [List.map_append, List.sum_append_nat]
      simp only [State.refs, List.map_cons, List.map_nil, List.sum_cons, List.sum_nil, Stage.refs]
      omega
    rw [hrefs]
    exact h.handle.retain hpos
  boxes := by
    refine h.boxes.alloc (h.fresh _ (Nat.le_refl _)) fun j => ?_
    show (s.conns ++ [.boxed])[j]?.any Stage.hasBox = true ↔ _
    rcases Nat.lt_trichotomy j s.conns.length with hj | rfl | hj
    · rw [List.getElem?_append_left hj]
      exact (or_iff_left (Nat.ne_of_lt hj)).symm
    · rw [List.getElem?_concat_length]
      exact iff_of_true rfl (.inr rfl)
    · rw [List.getElem?_eq_none (by rw [List.length_append]; exact hj),
        List.getElem?_eq_none (Nat.le_of_lt hj), or_iff_left (Nat.ne_of_gt hj)]
  fresh j hj := by
    have hlt : s.conns.length < j := by
      rwa [show (effect s .intoState).conns.length = s.conns.length + 1 from
        List.length_append] at hj
    exact (Arena.alloc_unborn j).mpr ⟨h.fresh j (Nat.le_of_lt hlt), Nat.ne_of_gt hlt⟩
  running r hr := by
    have hold := h.running r hr
    have hin : r.1 < s.conns.length := by
      rw [Option.any_eq_true] at hold
      obtain ⟨c, hc, -⟩ := hold
      exact (List.getElem?_eq_some_iff.mp hc).1
    show (s.conns ++ [.boxed])[r.1]?.any Stage.native = true
    rwa [List.getElem?_append_left hin]

/-- A connection goes on and the count stays what it is. -/
theorem Inv.advance (h : Inv s) (hk : s.conns[k]? = some c) (hbox : b.hasBox = c.hasBox)
    (hrefs : b.refs = c.refs) (hpos : 0 < c.refs)
    (hnative : c.native = true → b.native = false → s.running.map Prod.fst ≠ some k) :
    Inv { s.goto k b with handle := s.handle.use } := by
  have hgoto := s.refs_goto hk b
  refine h.goto hk hbox hnative ?_
  rw [h.use (State.refs_pos hk hpos)]
  exact h.held (by omega)

/-- The signaling thread goes on within its callback. -/
theorem Inv.callbackStep (h : Inv s) (b : Callback) :
    Inv { s with running := s.running.map fun r => (r.1, b) } :=
  h.run fun r hr => by
    obtain ⟨r', hr', rfl⟩ := Option.map_eq_some_iff.mp hr
    exact h.running r' hr'

theorem Inv.returns (h : Inv s) : Inv (effect s .returns) := by
  show Inv { s.readBox with running := none }
  rw [h.readBox]
  exact h.run nofun

theorem Inv.makeProduct (h : Inv s) (hen : enabled s .makeProduct) :
    Inv (effect s .makeProduct) := by
  have hsome : s.running.isSome = true := by
    cases hr : s.running with
    | none =>
        have hany : s.running.any (·.2 = .entered) = true := hen
        rw [hr] at hany
        cases hany
    | some r => rfl
  have hheld := h.handle.retain (h.refs_pos_of_running hsome)
  show Inv { s.readBox with
    handle := s.handle.retain
    products := s.products + 1
    running := s.running.map fun r => (r.1, .made) }
  rw [h.readBox]
  refine (h.callbackStep .made).keep ?_
  rwa [show s.refs + 1 = (s.conns.map Stage.refs).sum + s.factory.toNat + (s.products + 1) +
    s.leaving by unfold State.refs; omega] at hheld

theorem Inv.dropTransceiver (h : Inv s) {t : Nat} (hallowed : Allowed s (.dropTransceiver t)) :
    Inv (effect s (.dropTransceiver t)) := by
  refine h.keep ?_
  show Counted.Held s.refs (if t ∈ s.transceivers.erase t then s.handle else s.handle.use)
  split
  · exact h.handle
  · rename_i hlast
    rw [h.use (hallowed.resolve_left hlast)]
    exact h.handle

/-- A new product, made by who has a reference. -/
theorem Inv.product (h : Inv s) (hrefs : 0 < s.refs) :
    Inv { s with handle := s.handle.use.retain, products := s.products + 1 } := by
  have hheld := (h.use hrefs).symm ▸ h.handle.retain hrefs
  refine h.keep ?_
  rwa [show s.refs + 1 = (s.conns.map Stage.refs).sum + s.factory.toNat + (s.products + 1) +
    s.leaving by unfold State.refs; omega] at hheld

theorem inv_step (h : Inv s) (hen : enabled s a) (hallowed : Allowed s a) : Inv (effect s a) := by
  have hrefs : s.refs = (s.conns.map Stage.refs).sum + s.factory.toNat + s.products + s.leaving :=
    rfl
  have hused (hpos : 0 < s.refs) : s.handle.use.Held s.refs := h.handle.use hpos
  cases a with
  | intoState => exact h.intoState hen
  | refuse k native =>
      have hk : s.conns[k]? = some .boxed := hen
      have huse := h.use (State.refs_pos hk (by decide))
      have hsame := h.advance hk rfl rfl (by decide) nofun (b := .refused)
      cases native with
      | true => exact hsame
      | false => rwa [huse] at hsame
  | dropRefused k =>
      have hk : s.conns[k]? = some .refused := hen
      exact h.unbox hk rfl rfl rfl rfl
  | create k =>
      have hk : s.conns[k]? = some .boxed := hen
      exact h.advance hk rfl rfl (by decide) nofun
  | wrap k =>
      have hk : s.conns[k]? = some .created := hen
      have hgoto := s.refs_goto hk .opened
      have hheld := h.handle.retain (State.refs_pos hk (by decide))
      change _ + 1 = _ + 2 at hgoto
      exact h.goto (b := .opened) hk rfl nofun
        (by rwa [show (s.goto k .opened).refs = s.refs + 1 by omega])
  | call k =>
      have hk : s.conns[k]? = some .opened := hen
      exact h.keep (hused (State.refs_pos hk (by decide)))
  | callback k =>
      obtain ⟨hnative, -⟩ := hen
      have hbox : s.conns[k]?.any Stage.hasBox = true := by
        rw [Option.any_eq_true] at hnative ⊢
        obtain ⟨c, hc, hn⟩ := hnative
        exact ⟨c, hc, Stage.hasBox_of_native hn⟩
      show Inv { s with
        handle := s.handle.use
        boxes := s.boxes.read k
        running := some (k, .entered) }
      rw [h.boxes.read hbox, h.use (State.refs_pos_of_any hbox)]
      refine h.run fun r hr => ?_
      cases hr
      exact hnative
  | makeProduct => exact h.makeProduct hen
  | callHandler =>
      show Inv { s.readBox with running := s.running.map fun r => (r.1, .inHandler) }
      rw [h.readBox]
      exact h.callbackStep .inHandler
  | returns => exact h.returns
  | createTrack =>
      have hfactory : s.factory = true := hen
      exact h.product (by rw [hrefs, hfactory, Bool.toNat_true]; omega)
  | createChannel k =>
      have hk : s.conns[k]? = some .opened := hen
      exact h.product (State.refs_pos hk (by decide))
  | callProduct =>
      have hproducts : 0 < s.products := hen
      exact h.keep (hused (by omega))
  | getTransceiver k t =>
      have hk : s.conns[k]? = some .opened := hen
      exact h.keep (hused (State.refs_pos hk (by decide)))
  | callTransceiver => exact h.keep (hused hallowed)
  | dropTransceiver t => exact h.dropTransceiver hallowed
  | close k inHandler =>
      have hk : s.conns[k]? = some .opened := hen.1
      refine h.advance hk rfl rfl (by decide) fun _ _ => ?_
      cases inHandler with
      | true => exact hallowed
      | false =>
          have hnone : s.running = none := hen.2
          rw [hnone]
          nofun
  | dropObserver k =>
      have hk : s.conns[k]? = some .closed := hen
      exact h.unbox hk rfl rfl rfl rfl
  | dropConnection k =>
      have hk : s.conns[k]? = some .unboxed := hen
      have hgoto := s.refs_goto hk .gone
      change _ + 1 = _ + 0 at hgoto
      exact h.goto (b := .gone) hk rfl nofun (h.held (by omega)).release
  | destroyProduct =>
      have hproducts : 0 < s.products := hen
      have hheld := hused (by omega)
      refine h.keep ?_
      rwa [show s.refs = (s.conns.map Stage.refs).sum + s.factory.toNat + (s.products - 1) +
        (s.leaving + 1) by omega] at hheld
  | detach =>
      have hproducts : 0 < s.products := hen
      exact h.keep (h.handle.retain (by omega))
  | dropProduct =>
      have hleaving : 0 < s.leaving := hen
      exact h.keep (h.held (by omega)).release
  | dropFactory =>
      have hfactory : s.factory = true := hen.1
      refine h.keep (h.held ?_).release
      rw [hrefs, hfactory, Bool.toNat_true, Bool.toNat_false]
      omega

/-- What is not allowed is not safe. -/
theorem not_safe (h : Inv s) (hen : enabled s a) (hbad : ¬ Allowed s a) : ¬ Safe (effect s a) := by
  have hdead (hrefs : ¬ 0 < s.refs) : s.handle.use.stale = 1 :=
    (h.held (Nat.eq_zero_of_not_pos hrefs)).use_stale
  intro hsafe
  cases a with
  | callTransceiver => cases (hdead hbad).symm.trans hsafe.handle
  | dropTransceiver t =>
      obtain ⟨hlast, hrefs⟩ := not_or.mp hbad
      have hstale : (if t ∈ s.transceivers.erase t then s.handle else s.handle.use).stale = 0 :=
        hsafe.handle
      rw [if_neg hlast, hdead hrefs] at hstale
      cases hstale
  | close k inHandler =>
      cases inHandler with
      | false => exact hbad trivial
      | true =>
          have hown : s.running.map Prod.fst = some k := Decidable.byContradiction hbad
          obtain ⟨r, hr, rfl⟩ := Option.map_eq_some_iff.mp hown
          have hnative := hsafe.running r hr
          change (s.conns.set r.1 .closed)[r.1]?.any Stage.native = true at hnative
          rw [Traverse.any_getElem?_set _ hen.1, if_pos rfl] at hnative
          cases hnative
  | _ => exact hbad trivial

theorem inv_allowed (s : State) (a : Action) (t : State) (h : Inv s) (_ : Safe s)
    (hallowed : Allowed s a) (hstep : machine.step s a = some t) : Inv t := by
  obtain ⟨hen, rfl⟩ := Machine.ofEffect_step.mp hstep
  exact inv_step h hen hallowed

theorem safe_iff_allowed (s : State) (a : Action) (t : State) (h : Inv s) (_ : Safe s)
    (hstep : machine.step s a = some t) : Safe t ↔ Allowed s a := by
  obtain ⟨hen, rfl⟩ := Machine.ofEffect_step.mp hstep
  refine ⟨fun hsafe => ?_, fun hallowed => (inv_step h hen hallowed).safe⟩
  exact Classical.byContradiction fun hbad => not_safe h hen hbad hsafe

/-! ### What comes of it

A transceiver's handle counts for nothing here, which is how it can be the one to use
threads that are gone.
-/

/-- Nobody has anything of the factory any more, transceivers apart. -/
def State.Abandoned (s : State) : Prop :=
  s.factory = false ∧ s.products = 0 ∧ s.leaving = 0 ∧ ∀ c ∈ s.conns, c = .gone

theorem Stage.refs_eq_zero : c.refs = 0 ↔ c = .gone := by
  cases c <;> decide

theorem State.refs_eq_zero : s.refs = 0 ↔ s.Abandoned := by
  have hconns : (s.conns.map Stage.refs).sum = 0 ↔ ∀ c ∈ s.conns, c = .gone := by
    rw [List.sum_eq_zero_iff_forall_eq_nat, List.forall_mem_map]
    exact forall₂_congr fun c _ => Stage.refs_eq_zero
  unfold State.refs State.Abandoned
  rw [← hconns, ← Bool.toNat_eq_zero]
  omega

/--
**Exactly two habits are unsafe.**  However the application and the signaling thread
interleave, a run never uses the factory's threads or an observer's box when they are gone,
and never deletes a connection under its own callback, exactly when no handler drops its own
connection and no transceiver is used, or its last handle dropped, when everything else of the
factory is.  In such a run the factory is destroyed at most once, and is as soon as nobody
has anything of it; the boxes that are there are those of the connections that have one; and
no callback outlives the threads.
-/
theorem teardown_safe {as : List Action} (hrun : machine.run {} as = some s) :
    (machine.Along Safe {} as ↔ machine.Guarded Allowed {} as) ∧
      (machine.Guarded Allowed {} as →
        s.handle.freed ≤ 1 ∧ (s.handle.freed = 1 ↔ s.Abandoned) ∧
        (∀ k, s.boxes.life k = .live ↔ s.conns[k]?.any Stage.hasBox = true) ∧
        (s.running.isSome = true → s.handle.freed = 0)) := by
  refine ⟨Machine.along_iff_guarded_kept inv_allowed safe_iff_allowed inv_start inv_start.safe hrun,
    fun hguarded => ?_⟩
  have hinv : Inv s := Machine.run_guarded (fun s a t hG hI hstep =>
    inv_allowed s a t hI hI.safe hG hstep) hguarded inv_start hrun
  exact ⟨hinv.handle.freed_le_one, hinv.handle.freed_eq_one_iff.trans State.refs_eq_zero,
    hinv.boxes.live, fun hr => hinv.handle.alive (hinv.refs_pos_of_running hr)⟩

/-- A track that outlives the connection that delivered it, and the factory. -/
theorem teardown_safe_lateTrack : ∃ s, machine.run {} [.intoState, .create 0, .callback 0, .wrap 0,
      .makeProduct, .callHandler, .getTransceiver 0 0, .returns, .dropFactory, .close 0 false,
      .dropObserver 0, .dropConnection 0, .dropTransceiver 0, .callProduct, .destroyProduct,
      .dropProduct] = some s ∧ s.handle.freed = 1 := by
  have hrun : machine.run {} [.intoState, .create 0, .callback 0, .wrap 0, .makeProduct,
      .callHandler, .getTransceiver 0 0, .returns, .dropFactory, .close 0 false, .dropObserver 0,
      .dropConnection 0, .dropTransceiver 0, .callProduct, .destroyProduct, .dropProduct] =
      some _ := rfl
  obtain ⟨-, hfreed, -⟩ := (teardown_safe hrun).2 (by decide)
  exact ⟨_, hrun, hfreed.mpr ⟨rfl, rfl, rfl, by decide⟩⟩

/-! ### Everything can be dropped

Each winding step makes the rest shorter, and one is always possible: the callback returns,
a stage goes on, a track or channel is dropped.
-/

/-- What is left to do: a handler returns, creations come to their end, and all is dropped. -/
def Action.winds : Action → Bool
  | .returns | .create _ | .wrap _ | .dropTransceiver _ | .close _ false | .dropRefused _
  | .dropObserver _ | .dropConnection _ | .destroyProduct | .dropProduct | .dropFactory => true
  | _ => false

/-- How many steps are left of a connection. -/
def Stage.left : Stage → Nat
  | .boxed => 5
  | .created => 4
  | .opened => 3
  | .closed => 2
  | .refused | .unboxed => 1
  | .gone => 0

/-- How many winding steps are left. -/
def State.left (s : State) : Nat :=
  s.transceivers.length + s.running.isSome.toNat + (s.conns.map Stage.left).sum +
    (2 * s.products + s.leaving + s.factory.toNat)

theorem State.conns_left (h : s.conns[k]? = some c) (hless : b.left < c.left) :
    ((s.conns.set k b).map Stage.left).sum < (s.conns.map Stage.left).sum := by
  have hsum := Traverse.sum_map_set Stage.left h b
  omega

/-- The transceivers can still be dropped. -/
def State.Kept (s : State) : Prop := s.transceivers ≠ [] → 0 < s.refs

/-- A connection that is not gone can be brought a step further. -/
theorem exists_conn_winding (hk : s.conns[k]? = some c) (hc : c ≠ .gone)
    (hrunning : s.running = none) :
    ∃ a, a.winds = true ∧ enabled s a ∧ Allowed s a ∧
      (effect s a).transceivers = s.transceivers ∧ (effect s a).left < s.left := by
  have hless {b : Stage} (hb : b.left < c.left) :
      s.transceivers.length + s.running.isSome.toNat + ((s.conns.set k b).map Stage.left).sum +
        (2 * s.products + s.leaving + s.factory.toNat) < s.left :=
    Nat.add_lt_add_right (Nat.add_lt_add_left (State.conns_left hk hb) _) _
  cases c with
  | boxed => exact ⟨.create k, rfl, hk, trivial, rfl, hless (by decide)⟩
  | refused => exact ⟨.dropRefused k, rfl, hk, trivial, rfl, hless (by decide)⟩
  | created => exact ⟨.wrap k, rfl, hk, trivial, rfl, hless (by decide)⟩
  | opened => exact ⟨.close k false, rfl, ⟨hk, hrunning⟩, trivial, rfl, hless (by decide)⟩
  | closed => exact ⟨.dropObserver k, rfl, hk, trivial, rfl, hless (by decide)⟩
  | unboxed => exact ⟨.dropConnection k, rfl, hk, trivial, rfl, hless (by decide)⟩
  | gone => exact absurd rfl hc

/-- Something can be done while anything is left. -/
theorem exists_winding (hkept : s.Kept)
    (hleft : ¬ (s.transceivers = [] ∧ s.running = none ∧ s.Abandoned)) :
    ∃ a, a.winds = true ∧ enabled s a ∧ Allowed s a ∧ (effect s a).Kept ∧
      (effect s a).left < s.left := by
  cases htransceivers : s.transceivers with
  | cons t ts =>
      have hrefs : 0 < s.refs := hkept (by rw [htransceivers]; nofun)
      refine ⟨.dropTransceiver t, rfl, ?_, .inr hrefs, fun _ => hrefs, ?_⟩
      · show t ∈ s.transceivers
        rw [htransceivers]
        exact List.mem_cons_self
      · show (s.transceivers.erase t).length + _ + _ + _ < _
        unfold State.left
        rw [htransceivers, List.erase_cons_head, List.length_cons]
        show ts.length + s.running.isSome.toNat + (s.conns.map Stage.left).sum +
          (2 * s.products + s.leaving + s.factory.toNat) < _
        omega
  | nil =>
      have hgone {a : Action} (h : (effect s a).transceivers = s.transceivers) :
          (effect s a).Kept := fun hne => absurd (h.trans htransceivers) hne
      cases hrunning : s.running with
      | some r =>
          refine ⟨.returns, rfl, ?_, trivial, hgone rfl, ?_⟩
          · show s.running.isSome = true
            rw [hrunning]
            rfl
          · show s.transceivers.length + 0 + (s.conns.map Stage.left).sum +
              (2 * s.products + s.leaving + s.factory.toNat) < s.left
            unfold State.left
            rw [hrunning, Option.isSome_some, Bool.toNat_true]
            omega
      | none =>
          by_cases hconns : ∀ c ∈ s.conns, c = .gone
          · by_cases hproducts : s.products = 0
            · by_cases hleaving : s.leaving = 0
              · have hfactory : s.factory = true := by
                  cases hf : s.factory with
                  | true => rfl
                  | false =>
                      exact absurd ⟨htransceivers, hrunning, hf, hproducts, hleaving, hconns⟩ hleft
                refine ⟨.dropFactory, rfl, ⟨hfactory, fun c hc => ?_⟩, trivial, hgone rfl, ?_⟩
                · rw [hconns c hc]
                  rfl
                · show s.transceivers.length + s.running.isSome.toNat +
                    (s.conns.map Stage.left).sum + (2 * s.products + s.leaving + 0) < s.left
                  unfold State.left
                  rw [hfactory, Bool.toNat_true]
                  omega
              · refine ⟨.dropProduct, rfl, Nat.pos_of_ne_zero hleaving, trivial, hgone rfl, ?_⟩
                show s.transceivers.length + s.running.isSome.toNat +
                  (s.conns.map Stage.left).sum +
                  (2 * s.products + (s.leaving - 1) + s.factory.toNat) < s.left
                unfold State.left
                omega
            · refine ⟨.destroyProduct, rfl, Nat.pos_of_ne_zero hproducts, trivial, hgone rfl, ?_⟩
              show s.transceivers.length + s.running.isSome.toNat + (s.conns.map Stage.left).sum +
                (2 * (s.products - 1) + (s.leaving + 1) + s.factory.toNat) < s.left
              unfold State.left
              omega
          · obtain ⟨c, hc⟩ := Classical.not_forall.mp hconns
            obtain ⟨hmem, hne⟩ := Classical.not_imp.mp hc
            obtain ⟨k, hk⟩ := List.mem_iff_getElem?.mp hmem
            obtain ⟨a, hwinds, hen, hallowed, hsame, hless⟩ := exists_conn_winding hk hne hrunning
            exact ⟨a, hwinds, hen, hallowed, hgone hsame, hless⟩

/--
**Dropping what there is stops the threads.**  From wherever a safe run has come to, as long
as what transceivers there are can still be dropped: the handler that runs returns, the
connections under way are finished, everything is dropped in some order, and then the factory
has been destroyed, once, no box is left, and nothing was used when it was gone.
-/
theorem teardown_finishes {as : List Action} (hrun : machine.run {} as = some s)
    (hguarded : machine.Guarded Allowed {} as) (hkept : s.Kept) :
    ∃ bs t, (∀ b ∈ bs, b.winds = true) ∧ machine.run s bs = some t ∧ t.transceivers = [] ∧
      t.handle.freed = 1 ∧ (∀ k, t.boxes.life k ≠ .live) ∧ Safe t := by
  have hinv : Inv s := Machine.run_guarded (fun s a t hG hI hstep =>
    inv_allowed s a t hI hI.safe hG hstep) hguarded inv_start hrun
  obtain ⟨bs, t, hbs, hrun', ⟨ht, -⟩, hdone⟩ := machine.exists_run_done
    (fun a => a.winds = true) (fun s => Inv s ∧ s.Kept)
    (fun s => s.transceivers = [] ∧ s.running = none ∧ s.Abandoned) State.left
    (fun s hs hleft => by
      obtain ⟨a, hwinds, hen, hallowed, hkept', hless⟩ := exists_winding hs.2 hleft
      exact ⟨a, effect s a, hwinds, Machine.ofEffect_step.mpr ⟨hen, rfl⟩,
        ⟨inv_step hs.1 hen hallowed, hkept'⟩, hless⟩) ⟨hinv, hkept⟩
  obtain ⟨htransceivers, -, habandoned⟩ := hdone
  refine ⟨bs, t, hbs, hrun', htransceivers,
    ht.handle.freed_eq_one_iff.mpr (State.refs_eq_zero.mpr habandoned), fun k hlive => ?_, ht.safe⟩
  obtain ⟨c, hc, hbox⟩ := (Option.any_eq_true ..).mp ((ht.boxes.live k).mp hlive)
  rw [habandoned.2.2.2 c (List.mem_of_getElem? hc)] at hbox
  cases hbox

/-- In the middle of a handler, with a track, a transceiver and a second connection. -/
theorem teardown_finishes_busy : ∃ s bs t, machine.run {} [.intoState, .create 0, .callback 0,
      .intoState, .wrap 0, .makeProduct, .getTransceiver 0 0, .callHandler] = some s ∧
      machine.run s bs = some t ∧ t.handle.freed = 1 := by
  have hrun : machine.run {} [.intoState, .create 0, .callback 0, .intoState, .wrap 0,
      .makeProduct, .getTransceiver 0 0, .callHandler] = some _ := rfl
  obtain ⟨bs, t, -, ht, -, hfreed, -⟩ := teardown_finishes hrun (by decide) fun _ => by decide
  exact ⟨_, bs, t, hrun, ht, hfreed⟩

end ReactorWebrtc.Teardown
