/-
Dropping a data channel, also from inside one of its own callbacks.

The native observer addresses the channel's core, a box, and the callbacks read it on the way
in and again after a handler has returned.  So the core has to outlive every callback that is
up a stack, and a handler may hold the last reference to its own channel.  The drop asks
whether its thread is inside a data channel callback.  If not, it releases the native handle
and frees the core there and then; if so, it leaves both to a thread of its own, whose
unregistering waits until the callbacks' thread has nothing of the kind on its stack.  That
thread keeps the factory, and with it the callbacks' thread, until it is through.

`depth` is the counter the drop asks, `stack` how many of the callbacks it counts are this
channel's.  `release_safe` says that nothing is used after it is freed, `release_finishes` that
the release always comes to its end.

What a handler does to its channel, apart from dropping the last reference to it, is not in
this machine; and callbacks of other channels on the same thread are only counted, since the
counter does not tell them from this one's.
-/
import ReactorWebrtc.Lib.Arena
import ReactorWebrtc.Lib.Counted
import ReactorWebrtc.Lib.Machine

namespace ReactorWebrtc.Release

/-- What is made and freed: the core, the native handle, and the observers in the order in
which they were registered. -/
inductive Obj
  | core
  | handle
  | observer (n : Nat)
  deriving DecidableEq, Repr

/-- Who releases: the thread that drops, which may be the callbacks' own, or one spawned. -/
inductive Mode
  | inline (callbackThread : Bool)
  | spawned
  deriving DecidableEq, Repr

/-- How far the release is. -/
inductive Stage
  | alive
  | begun
  | unregistered
  /-- The native handle is deleted, its observer with it. -/
  | deleted
  /-- The core is freed. -/
  | freed
  deriving DecidableEq, Repr

/-- What there is of a channel, who has a reference to the factory, and where the callbacks
are. -/
structure State where
  arena : Arena Obj := (({} : Arena Obj).alloc .core).alloc .handle
  /-- The factory, held by the channel and by others. -/
  factory : Counted := { count := 2 }
  /-- The channel's own reference to it. -/
  own : Bool := true
  /-- The reference of the releasing thread. -/
  clone : Bool := false
  others : Nat := 1
  registered : Bool := false
  /-- A thread has set `registered` and is on its way to the native call. -/
  pending : Bool := false
  /-- The observer that libwebrtc calls. -/
  attached : Bool := false
  /-- The observer of the handle. -/
  observer : Option Nat := none
  registrations : Nat := 0
  /-- How many data channel callbacks the callbacks' thread is inside. -/
  depth : Nat := 0
  /-- How many of them are this channel's. -/
  stack : Nat := 0
  stage : Stage := .alive
  mode : Mode := .spawned

/-- What the channel's user, the callbacks' thread and the releasing thread do, in any
order. -/
inductive Action
  /-- `ensure_registered`, up to the swap. -/
  | swap
  | register
  | enter
  /-- The callback at the top of the stack reads the core and uses the handle. -/
  | touch
  | exit
  /-- A callback of another channel on the same thread. -/
  | otherEnter
  | otherExit
  /-- The drop, by the callbacks' thread or by one that is, or is not, inside a callback. -/
  | drop (callbackThread elsewhere : Bool)
  | unregister
  | delete
  | free
  /-- The channel's own reference to the factory goes with its fields. -/
  | dropOwn
  | dropClone
  | otherClone
  | otherDrop
  deriving DecidableEq, Repr

/-- Begun, and not through. -/
def Stage.releasing : Stage → Bool
  | .begun | .unregistered | .deleted => true
  | _ => false

/-- The drop runs on the callbacks' thread, which does nothing else meanwhile. -/
def State.busy (s : State) : Bool := s.mode = .inline true && s.stage.releasing

/-- `CallbackScope::active` on the thread that drops. -/
def State.active (s : State) (callbackThread elsewhere : Bool) : Bool :=
  if callbackThread then 0 < s.depth else elsewhere

/-- A call needs the channel, a callback its registration, and the release goes stage by
stage. -/
def enabled (s : State) : Action → Prop
  -- a caller's method, so the channel is not being dropped
  | .swap => s.stage = .alive
  | .register => s.pending = true
  | .enter => s.attached = true ∧ s.factory.freed = 0 ∧ s.busy = false
  | .touch => 0 < s.stack
  | .exit => 0 < s.stack
  | .otherEnter => s.factory.freed = 0 ∧ s.busy = false
  | .otherExit => s.stack < s.depth
  | .drop _ _ => s.stage = .alive ∧ s.pending = false
  -- from another thread it waits for the callbacks' thread
  | .unregister => s.stage = .begun ∧ (s.mode = .inline true ∨ s.depth = 0)
  | .delete => s.stage = .unregistered
  | .free => s.stage = .deleted
  | .dropOwn => s.own = true ∧ (s.stage = .freed ∨ s.stage ≠ .alive ∧ s.mode = .spawned)
  | .dropClone => s.clone = true ∧ s.stage = .freed
  | .otherClone => 0 < s.others
  | .otherDrop => 0 < s.others

instance (s : State) : ∀ a, Decidable (enabled s a)
  | .swap | .register | .delete | .free => inferInstanceAs (Decidable (_ = _))
  | .touch | .exit | .otherExit | .otherClone | .otherDrop => inferInstanceAs (Decidable (_ < _))
  | .enter | .otherEnter | .drop _ _ | .unregister | .dropOwn | .dropClone =>
    inferInstanceAs (Decidable (_ ∧ _))

/-- The observer a handle has, as an object. -/
def State.observerObj (s : State) : Option Obj := s.observer.map .observer

/-- The glue's registration: it takes an observer it has off first. -/
def State.register (s : State) : State :=
  { s with
    arena := ((s.arena.read .handle).alloc (.observer s.registrations)).freeAll s.observerObj
    observer := some s.registrations
    registrations := s.registrations + 1
    attached := true
    pending := false }

/-- Into a callback: through the observer to the core. -/
def State.enter (s : State) : State :=
  let arena :=
    match s.observerObj with
    | some o => s.arena.read o
    | none => s.arena
  { s with arena := arena.read .core, depth := s.depth + 1, stack := s.stack + 1 }

/-- What each makes, uses and frees. -/
def effect (s : State) : Action → State
  | .swap => if s.registered then s else { s with registered := true, pending := true }
  | .register => s.register
  | .enter => s.enter
  | .touch => { s with arena := (s.arena.read .core).read .handle }
  | .exit => { s with depth := s.depth - 1, stack := s.stack - 1 }
  | .otherEnter => { s with depth := s.depth + 1 }
  | .otherExit => { s with depth := s.depth - 1 }
  | .drop callbackThread elsewhere =>
    if s.active callbackThread elsewhere then
      { s with stage := .begun, mode := .spawned, clone := true, factory := s.factory.retain }
    else { s with stage := .begun, mode := .inline callbackThread }
  | .unregister =>
    { s with
      arena := s.arena.read .handle
      factory := s.factory.use
      attached := false
      stage := .unregistered }
  | .delete =>
    { s with
      arena := (s.arena.freeAll s.observerObj).free .handle
      observer := none
      stage := .deleted }
  | .free => { s with arena := s.arena.free .core, stage := .freed }
  | .dropOwn => { s with own := false, factory := s.factory.release }
  | .dropClone => { s with clone := false, factory := s.factory.release }
  | .otherClone => { s with others := s.others + 1, factory := s.factory.retain }
  | .otherDrop => { s with others := s.others - 1, factory := s.factory.release }

/-- A channel with its core and its handle, not registered yet. -/
def machine : Machine State Action := .ofEffect {} enabled effect

/-! ### What is kept

Who is there is said object by object: the core as long as it is not freed, the handle until
it is deleted, each observer from its registration until the next one or the release takes
its place, and the factory as long as anybody has it.
-/

variable {s t : State} {a : Action}

/-- How many references to the factory there are. -/
def State.refs (s : State) : Nat := s.own.toNat + s.clone.toNat + s.others

/-- What there is, at every stage. -/
def State.there (s : State) : Obj → Prop
  | .core => s.stage ≠ .freed
  | .handle => s.stage ≠ .deleted ∧ s.stage ≠ .freed
  | .observer n => s.observer = some n

/-- What is there, by how far the release is, and where the callbacks can be. -/
structure Inv (s : State) : Prop where
  there : s.arena.Holds s.there
  factory : s.factory.Held s.refs
  /-- Observers are numbered as they come. -/
  unborn : ∀ n, s.registrations ≤ n → s.arena.life (.observer n) = .unborn
  once : s.registrations + s.pending.toNat = s.registered.toNat
  observer : s.observer.isSome = true ↔
    s.registrations = 1 ∧ s.stage ≠ .deleted ∧ s.stage ≠ .freed
  pending : s.pending = true → s.stage = .alive
  attached : s.attached = true → s.observer.isSome = true ∧ (s.stage = .alive ∨ s.stage = .begun)
  stack : s.stack ≤ s.depth
  /-- No callback of the channel is left once its observer is off. -/
  quiet : s.stage ≠ .alive → s.stage ≠ .begun → s.stack = 0
  busy : s.busy = true → s.depth = 0
  /-- Who releases keeps the factory until it is through. -/
  keeps : s.stage ≠ .freed → s.own = true ∨ s.clone = true
  spawned : s.clone = true → s.mode = .spawned ∧ s.stage ≠ .alive
  cloned : s.mode = .spawned → s.stage.releasing = true → s.clone = true

theorem inv_start : Inv {} where
  there := by
    have hcore : (({} : Arena Obj).alloc .core).Holds fun o => o = .core :=
      Arena.Holds.empty.alloc rfl fun o => by simp
    refine hcore.alloc rfl fun o => ?_
    cases o <;> simp [State.there]
  factory := ⟨rfl, rfl, rfl⟩
  unborn _ _ := rfl
  once := rfl
  observer := iff_of_false nofun fun h => by cases h.1
  pending := nofun
  attached := nofun
  stack := Nat.le_refl 0
  quiet h := absurd rfl h
  busy := nofun
  keeps _ := .inl rfl
  spawned := nofun
  cloned := nofun

/-! ### One step of each kind -/

theorem Inv.core_there (h : Inv s) (hstack : 0 < s.stack) : s.there .core ∧ s.there .handle := by
  have hstage : s.stage = .alive ∨ s.stage = .begun := by
    by_contra hno
    obtain ⟨halive, hbegun⟩ := not_or.mp hno
    have := h.quiet halive hbegun
    omega
  rcases hstage with hst | hst <;> simp [State.there, hst]

theorem Inv.swap (h : Inv s) (hen : enabled s .swap) : Inv (effect s .swap) := by
  have halive : s.stage = .alive := hen
  have honce := h.once
  simp only [effect]
  split
  · exact h
  · rename_i hreg
    rw [Bool.not_eq_true] at hreg
    rw [hreg] at honce
    have hnone : s.registrations = 0 := by
      change s.registrations + s.pending.toNat = 0 at honce
      omega
    exact { h with
      once := by
        show s.registrations + 1 = 1
        rw [hnone]
      pending := fun _ => halive }

theorem Inv.register (h : Inv s) (hen : enabled s .register) : Inv (effect s .register) := by
  have hpending : s.pending = true := hen
  have halive := h.pending hpending
  have honce := h.once
  rw [hpending] at honce
  have hzero : s.registrations = 0 ∧ s.registered = true := by
    cases hreg : s.registered <;> rw [hreg] at honce
    · cases honce
    · exact ⟨by change s.registrations + 1 = 1 at honce; omega, rfl⟩
  have hnone : s.observer = none := by
    cases hobs : s.observer with
    | none => rfl
    | some n =>
        have := (h.observer.mp (by rw [hobs]; rfl)).1
        omega
  have hhandle : s.there .handle := by simp [State.there, halive]
  have hobj : s.observerObj = none := by rw [State.observerObj, hnone]; rfl
  refine { h with
    there := ?_, unborn := fun n hn => ?_, once := ?_, observer := ?_, pending := nofun,
    attached := fun _ => ⟨rfl, .inl halive⟩ }
  · show Arena.Holds _ (((s.arena.read .handle).alloc (.observer s.registrations)).freeAll _)
    rw [hobj, h.there.read hhandle]
    refine h.there.alloc (h.unborn _ (Nat.le_refl _)) fun o => ?_
    cases o with
    | core | handle => simp [effect, State.register, State.there]
    | observer n => simp [effect, State.register, State.there, hnone, eq_comm]
  · show (((s.arena.read .handle).alloc (.observer s.registrations)).freeAll _).life _ = _
    have hle : s.registrations + 1 ≤ n := hn
    rw [hobj, h.there.read hhandle]
    refine (Arena.alloc_unborn _).mpr ⟨h.unborn n (by omega), ?_⟩
    rintro ⟨⟩
    omega
  · show s.registrations + 1 + 0 = s.registered.toNat
    rw [hzero.1, hzero.2]
    rfl
  · show true = true ↔ s.registrations + 1 = 1 ∧ s.stage ≠ .deleted ∧ s.stage ≠ .freed
    rw [hzero.1, halive]
    simp

theorem Inv.enter (h : Inv s) (hen : enabled s .enter) : Inv (effect s .enter) := by
  obtain ⟨hattached, -, hfree⟩ := hen
  obtain ⟨hsome, hstage⟩ := h.attached hattached
  obtain ⟨n, hn⟩ := Option.isSome_iff_exists.mp hsome
  have hcore : s.there .core := by
    rcases hstage with hst | hst <;> simp [State.there, hst]
  have harena : (effect s .enter).arena = s.arena := by
    simp only [effect, State.enter, State.observerObj, hn, Option.map_some]
    rw [h.there.read (show s.there (.observer n) from hn), h.there.read hcore]
  refine { h with
    there := ?_, unborn := ?_, stack := Nat.succ_le_succ h.stack, quiet := ?_, busy := ?_ }
  · rw [harena]
    exact h.there
  · rw [harena]
    exact h.unborn
  · intro halive hbegun
    rcases hstage with hst | hst
    · exact absurd hst halive
    · exact absurd hst hbegun
  · intro hbusy
    cases hfree.symm.trans hbusy

theorem Inv.touch (h : Inv s) (hen : enabled s .touch) : Inv (effect s .touch) := by
  obtain ⟨hcore, hhandle⟩ := h.core_there hen
  have harena : (effect s .touch).arena = s.arena := by
    show (s.arena.read .core).read .handle = _
    rw [h.there.read hcore, h.there.read hhandle]
  refine { h with there := ?_, unborn := ?_ }
  · rw [harena]
    exact h.there
  · rw [harena]
    exact h.unborn

theorem Inv.exit (h : Inv s) : Inv (effect s .exit) := by
  refine { h with stack := ?_, quiet := ?_, busy := ?_ }
  · exact Nat.sub_le_sub_right h.stack 1
  · intro halive hbegun
    show s.stack - 1 = 0
    rw [h.quiet halive hbegun]
  · intro hbusy
    show s.depth - 1 = 0
    rw [h.busy hbusy]

theorem Inv.otherEnter (h : Inv s) (hen : enabled s .otherEnter) :
    Inv (effect s .otherEnter) := by
  refine { h with stack := Nat.le_succ_of_le h.stack, busy := fun hbusy => ?_ }
  cases hen.2.symm.trans hbusy

theorem Inv.otherExit (h : Inv s) (hen : enabled s .otherExit) : Inv (effect s .otherExit) := by
  refine { h with stack := Nat.le_sub_one_of_lt hen, busy := fun hbusy => ?_ }
  show s.depth - 1 = 0
  rw [h.busy hbusy]

/-- The drop begins: a thread of its own if this one is inside a callback. -/
theorem Inv.drop (h : Inv s) {callbackThread elsewhere : Bool}
    (hen : enabled s (.drop callbackThread elsewhere)) :
    Inv (effect s (.drop callbackThread elsewhere)) := by
  obtain ⟨halive, hpending⟩ := hen
  have hclone : s.clone = false := by
    cases hc : s.clone with
    | false => rfl
    | true => exact absurd halive (h.spawned hc).2
  have hown : s.own = true := by
    rcases h.keeps (by rw [halive]; nofun) with hown | hc
    · exact hown
    · rw [hclone] at hc
      cases hc
  have hthere : s.arena.Holds fun o =>
      match o with
      | .core | .handle => True
      | .observer n => s.observer = some n :=
    h.there.congr fun o => by cases o <;> simp [State.there, halive]
  -- what both ways of releasing start from
  have hobserver : s.observer.isSome = true ↔
      s.registrations = 1 ∧ Stage.begun ≠ .deleted ∧ Stage.begun ≠ .freed := by
    rw [h.observer, halive]
    exact and_congr_right fun _ => by simp
  have hnever : s.pending = true → Stage.begun = .alive := fun hp => by
    cases hpending.symm.trans hp
  have hattached : s.attached = true →
      s.observer.isSome = true ∧ (Stage.begun = .alive ∨ Stage.begun = .begun) :=
    fun ha => ⟨(h.attached ha).1, .inr rfl⟩
  simp only [effect]
  split
  · refine { h with
      there := hthere.congr fun o => by cases o <;> simp [State.there]
      factory := ?_, observer := hobserver, pending := hnever, attached := hattached
      quiet := fun _ hbegun => absurd rfl hbegun
      busy := nofun, keeps := fun _ => .inr rfl, spawned := fun _ => ⟨rfl, nofun⟩
      cloned := fun _ _ => rfl }
    have hheld := h.factory
    rw [State.refs, hclone] at hheld
    have hpos : 0 < s.own.toNat + Bool.toNat false + s.others := by
      rw [hown, Bool.toNat_true]
      omega
    have hmore : s.own.toNat + Bool.toNat false + s.others + 1 = s.own.toNat + 1 + s.others := by
      rw [Bool.toNat_false]
      omega
    show s.factory.retain.Held (s.own.toNat + 1 + s.others)
    rw [← hmore]
    exact hheld.retain hpos
  · rename_i hactive
    refine { h with
      there := hthere.congr fun o => by cases o <;> simp [State.there]
      observer := hobserver, pending := hnever, attached := hattached
      quiet := fun _ hbegun => absurd rfl hbegun
      busy := fun hbusy => ?_, keeps := fun _ => .inl hown
      spawned := fun hc => by cases hclone.symm.trans hc
      cloned := nofun }
    cases callbackThread with
    | false => cases hbusy
    | true => simpa [State.active] using hactive

theorem Inv.unregister (h : Inv s) (hen : enabled s .unregister) :
    Inv (effect s .unregister) := by
  obtain ⟨hstage, hwait⟩ := hen
  have hdepth : s.depth = 0 := by
    rcases hwait with hmode | hzero
    · exact h.busy (by rw [State.busy, hmode, hstage]; rfl)
    · exact hzero
  have hhandle : s.there .handle := by simp [State.there, hstage]
  have hfactory : 0 < s.refs := by
    unfold State.refs
    rcases h.keeps (by rw [hstage]; nofun) with hown | hclone
    · rw [hown, Bool.toNat_true]
      omega
    · rw [hclone, Bool.toNat_true]
      omega
  have harena : (effect s .unregister).arena = s.arena := h.there.read hhandle
  have hstack := h.stack
  refine { h with
    there := ?_, factory := h.factory.use hfactory, unborn := ?_, observer := ?_,
    pending := fun hp => ?_, attached := nofun, quiet := fun _ _ => ?_, busy := fun _ => hdepth,
    keeps := fun _ => h.keeps (by rw [hstage]; nofun),
    spawned := fun hc => ⟨(h.spawned hc).1, nofun⟩,
    cloned := fun hm _ => h.cloned hm (by rw [hstage]; rfl) }
  · rw [harena]
    exact h.there.congr fun o => by cases o <;> simp [State.there, effect, hstage]
  · rw [harena]
    exact h.unborn
  · exact h.observer.trans (and_congr_right fun _ => by simp [effect, hstage])
  · cases hstage.symm.trans (h.pending hp)
  · show s.stack = 0
    omega

theorem Inv.delete (h : Inv s) (hen : enabled s .delete) : Inv (effect s .delete) := by
  have hstage : s.stage = .unregistered := hen
  have hobj : ∀ o, s.observerObj = some o ↔ ∃ n, s.observer = some n ∧ o = .observer n := by
    intro o
    simp [State.observerObj, eq_comm]
  have hplace : ∀ o, s.observerObj = some o → s.there o := by
    rintro o ho
    obtain ⟨n, hn, rfl⟩ := (hobj o).mp ho
    exact hn
  -- without its observer there are the core and the handle
  have hrest : (s.arena.freeAll s.observerObj).Holds fun o => o = .core ∨ o = .handle := by
    refine h.there.freeAll hplace fun o => ?_
    rw [ne_eq, hobj]
    cases o <;> simp [State.there, hstage]
  have hattached : ¬ s.attached = true := fun ha => by
    rcases (h.attached ha).2 with hst | hst <;> cases hstage.symm.trans hst
  refine { h with
    there := ?_, unborn := fun n hn => ?_, observer := ?_, pending := fun hp => ?_,
    attached := fun ha => absurd ha hattached, quiet := fun _ _ => ?_, busy := fun hbusy => ?_,
    keeps := fun _ => h.keeps (by rw [hstage]; nofun),
    spawned := fun hc => ⟨(h.spawned hc).1, nofun⟩,
    cloned := fun hm _ => h.cloned hm (by rw [hstage]; rfl) }
  · refine hrest.free (.inr rfl) fun o => ?_
    cases o <;> simp [State.there, effect]
  · show ((s.arena.freeAll s.observerObj).free .handle).life (.observer n) = .unborn
    refine (Arena.free_unborn (hrest.ne_unborn (.inr rfl)) _).mpr ?_
    exact (Arena.freeAll_unborn (fun o ho => h.there.ne_unborn (hplace o ho)) _).mpr
      (h.unborn n hn)
  · exact iff_of_false nofun fun hno => absurd rfl hno.2.1
  · cases hstage.symm.trans (h.pending hp)
  · exact h.quiet (by rw [hstage]; nofun) (by rw [hstage]; nofun)
  · refine h.busy ?_
    rw [State.busy, hstage]
    exact hbusy

theorem Inv.free (h : Inv s) (hen : enabled s .free) : Inv (effect s .free) := by
  have hstage : s.stage = .deleted := hen
  have hcore : s.there .core := by simp [State.there, hstage]
  have hnone : s.observer = none := by
    cases hobs : s.observer with
    | none => rfl
    | some n => exact absurd hstage (h.observer.mp (by rw [hobs]; rfl)).2.1
  have hattached : ¬ s.attached = true := fun ha => by
    rcases (h.attached ha).2 with hst | hst <;> cases hstage.symm.trans hst
  refine { h with
    there := ?_, unborn := fun n hn => ?_, observer := ?_, pending := fun hp => ?_,
    attached := fun ha => absurd ha hattached, quiet := fun _ _ => ?_, busy := ?_,
    keeps := fun hne => absurd rfl hne, spawned := fun hc => ⟨(h.spawned hc).1, nofun⟩,
    cloned := nofun }
  · refine h.there.free hcore fun o => ?_
    cases o <;> simp [State.there, effect, hstage, hnone]
  · exact (Arena.free_unborn (h.there.ne_unborn hcore) _).mpr (h.unborn n hn)
  · rw [show (effect s .free).observer = none from hnone]
    exact iff_of_false nofun fun hno => absurd rfl hno.2.2
  · cases hstage.symm.trans (h.pending hp)
  · exact h.quiet (by rw [hstage]; nofun) (by rw [hstage]; nofun)
  · intro hbusy
    change (_ && false) = true at hbusy
    rw [Bool.and_false] at hbusy
    cases hbusy

theorem Inv.dropOwn (h : Inv s) (hen : enabled s .dropOwn) : Inv (effect s .dropOwn) := by
  obtain ⟨hown, hwhen⟩ := hen
  have hheld := h.factory
  have hcount : s.refs = (effect s .dropOwn).refs + 1 := by
    show s.own.toNat + s.clone.toNat + s.others = 0 + s.clone.toNat + s.others + 1
    rw [hown, Bool.toNat_true]
    omega
  rw [hcount] at hheld
  refine { h with factory := hheld.release, keeps := fun hne => .inr ?_ }
  rcases hwhen with hfreed | ⟨halive, hmode⟩
  · exact absurd hfreed hne
  · refine h.cloned hmode ?_
    change s.stage ≠ .freed at hne
    cases hst : s.stage with
    | alive => exact absurd hst halive
    | freed => exact absurd hst hne
    | begun | unregistered | deleted => rfl

theorem Inv.dropClone (h : Inv s) (hen : enabled s .dropClone) : Inv (effect s .dropClone) := by
  obtain ⟨hclone, hfreed⟩ := hen
  have hheld := h.factory
  have hcount : s.refs = (effect s .dropClone).refs + 1 := by
    show s.own.toNat + s.clone.toNat + s.others = s.own.toNat + 0 + s.others + 1
    rw [hclone, Bool.toNat_true]
    omega
  rw [hcount] at hheld
  refine { h with
    factory := hheld.release, keeps := fun hne => absurd hfreed hne, spawned := nofun,
    cloned := fun _ hrel => ?_ }
  change s.stage.releasing = true at hrel
  rw [hfreed] at hrel
  cases hrel

theorem Inv.otherClone (h : Inv s) (hen : enabled s .otherClone) :
    Inv (effect s .otherClone) := by
  have hothers : 0 < s.others := hen
  refine { h with factory := h.factory.retain ?_ }
  unfold State.refs
  omega

theorem Inv.otherDrop (h : Inv s) (hen : enabled s .otherDrop) : Inv (effect s .otherDrop) := by
  have hothers : 0 < s.others := hen
  have hheld := h.factory
  have hcount : s.refs = (effect s .otherDrop).refs + 1 := by
    show s.own.toNat + s.clone.toNat + s.others = s.own.toNat + s.clone.toNat + (s.others - 1) + 1
    omega
  rw [hcount] at hheld
  exact { h with factory := hheld.release }

theorem inv_step (s : State) (a : Action) (t : State) (h : Inv s)
    (hstep : machine.step s a = some t) : Inv t := by
  obtain ⟨hen, rfl⟩ := Machine.ofEffect_step.mp hstep
  cases a with
  | swap => exact h.swap hen
  | register => exact h.register hen
  | enter => exact h.enter hen
  | touch => exact h.touch hen
  | exit => exact h.exit
  | otherEnter => exact h.otherEnter hen
  | otherExit => exact h.otherExit hen
  | drop callbackThread elsewhere => exact h.drop hen
  | unregister => exact h.unregister hen
  | delete => exact h.delete hen
  | free => exact h.free hen
  | dropOwn => exact h.dropOwn hen
  | dropClone => exact h.dropClone hen
  | otherClone => exact h.otherClone hen
  | otherDrop => exact h.otherDrop hen

theorem inv_of_reachable (h : machine.Reachable s) : Inv s := Machine.invariant inv_start inv_step h

/-! ### What comes of it

The release never waits for itself: either its thread has no callback on the stack, or it is
another thread and the callbacks return without it.
-/

/--
**A data channel's core outlives the callbacks that read it.**  However the registrations, the
callbacks, the drop and the release interleave, and whichever thread drops: nothing is used or
freed when it is not there, the factory and its threads included; the observer is registered
once at most; a callback on the stack has its core and its handle; and when the core is freed,
no callback is left and none can come.
-/
theorem release_safe (s : State) (h : machine.Reachable s) :
    s.arena.stale = 0 ∧ s.factory.stale = 0 ∧ s.registrations ≤ 1 ∧
      (0 < s.stack → s.arena.life .core = .live ∧ s.arena.life .handle = .live) ∧
      (s.arena.life .core ≠ .live → s.stack = 0 ∧ s.attached = false) ∧
      (s.stage.releasing = true → s.factory.freed = 0) := by
  have hinv := inv_of_reachable h
  refine ⟨hinv.there.stale, hinv.factory.stale, ?_, fun hstack => ?_, fun hgone => ?_,
    fun hrel => ?_⟩
  · have honce := hinv.once
    have := Bool.toNat_le s.registered
    omega
  · obtain ⟨hcore, hhandle⟩ := hinv.core_there hstack
    exact ⟨(hinv.there.live _).mpr hcore, (hinv.there.live _).mpr hhandle⟩
  · rw [ne_eq, hinv.there.live] at hgone
    have hfreed : s.stage = .freed := by simpa [State.there] using hgone
    refine ⟨hinv.quiet (by rw [hfreed]; nofun) (by rw [hfreed]; nofun), ?_⟩
    cases hatt : s.attached with
    | false => rfl
    | true => rcases (hinv.attached hatt).2 with hst | hst <;> cases hfreed.symm.trans hst
  · refine hinv.factory.alive ?_
    have hkept : s.own = true ∨ s.clone = true := hinv.keeps fun hfreed => by
      rw [hfreed] at hrel
      cases hrel
    unfold State.refs
    rcases hkept with hown | hclone
    · rw [hown, Bool.toNat_true]
      omega
    · rw [hclone, Bool.toNat_true]
      omega

/-- Dropped by its own handler, in a callback nested in another. -/
theorem release_safe_nested : ∃ s, machine.Reachable s ∧ s.stage = .freed ∧
    s.arena.life .core = .freed ∧ s.arena.stale = 0 := by
  have h : machine.Reachable _ :=
    ⟨[.swap, .register, .enter, .touch, .enter, .drop true false, .touch, .dropOwn, .otherDrop,
      .exit, .touch, .exit, .unregister, .delete, .free, .dropClone], rfl⟩
  exact ⟨_, h, rfl, rfl, (release_safe _ h).1⟩

/-- What is left to do of a release: callbacks return, and who releases goes on. -/
def Action.winds : Action → Bool
  | .exit | .otherExit | .unregister | .delete | .free | .dropOwn | .dropClone => true
  | _ => false

/-- How many stages are left. -/
def Stage.left : Stage → Nat
  | .alive => 4
  | .begun => 3
  | .unregistered => 2
  | .deleted => 1
  | .freed => 0

/-- How many winding steps are left. -/
def State.left (s : State) : Nat := s.depth + s.stage.left + s.own.toNat + s.clone.toNat

/-- Something can be done while anything is left. -/
theorem exists_winding (hdropped : s.stage ≠ .alive)
    (hleft : ¬ (s.stage = .freed ∧ s.own = false ∧ s.clone = false)) :
    ∃ a, a.winds = true ∧ enabled s a ∧ (effect s a).stage ≠ .alive ∧
      (effect s a).left < s.left := by
  cases hstage : s.stage with
  | alive => exact absurd hstage hdropped
  | begun =>
      by_cases hwait : s.mode = .inline true ∨ s.depth = 0
      · refine ⟨.unregister, rfl, ⟨hstage, hwait⟩, nofun, ?_⟩
        show s.depth + 2 + s.own.toNat + s.clone.toNat < s.left
        rw [State.left, hstage]
        exact Nat.add_lt_add_right (Nat.add_lt_add_right (Nat.lt_succ_self _) _) _
      · obtain ⟨-, hdepth⟩ := not_or.mp hwait
        -- a callback is running: this channel's returns, or else another's
        by_cases hmine : 0 < s.stack
        · refine ⟨.exit, rfl, hmine, hdropped, ?_⟩
          show s.depth - 1 + s.stage.left + s.own.toNat + s.clone.toNat < s.left
          unfold State.left
          omega
        · refine ⟨.otherExit, rfl, show s.stack < s.depth by omega, hdropped, ?_⟩
          show s.depth - 1 + s.stage.left + s.own.toNat + s.clone.toNat < s.left
          unfold State.left
          omega
  | unregistered =>
      refine ⟨.delete, rfl, hstage, nofun, ?_⟩
      show s.depth + 1 + s.own.toNat + s.clone.toNat < s.left
      rw [State.left, hstage]
      exact Nat.add_lt_add_right (Nat.add_lt_add_right (Nat.lt_succ_self _) _) _
  | deleted =>
      refine ⟨.free, rfl, hstage, nofun, ?_⟩
      show s.depth + 0 + s.own.toNat + s.clone.toNat < s.left
      rw [State.left, hstage]
      exact Nat.add_lt_add_right (Nat.add_lt_add_right (Nat.lt_succ_self _) _) _
  | freed =>
      by_cases hown : s.own = true
      · refine ⟨.dropOwn, rfl, ⟨hown, .inl hstage⟩, hdropped, ?_⟩
        show s.depth + s.stage.left + 0 + s.clone.toNat < s.left
        rw [State.left, hown, Bool.toNat_true]
        omega
      · have hclone : s.clone = true := by
          rw [Bool.not_eq_true] at hown
          cases hc : s.clone with
          | true => rfl
          | false => exact absurd ⟨hstage, hown, hc⟩ hleft
        refine ⟨.dropClone, rfl, ⟨hclone, hstage⟩, hdropped, ?_⟩
        show s.depth + s.stage.left + s.own.toNat + 0 < s.left
        rw [State.left, hclone, Bool.toNat_true]
        omega

/--
**A release that has begun comes to its end.**  From wherever a drop has got to, it is enough
that the callbacks under way return and the releasing thread goes on: the core and the handle
are freed, and both references to the factory are given up.
-/
theorem release_finishes (s : State) (h : machine.Reachable s) (hdropped : s.stage ≠ .alive) :
    ∃ as t, (∀ a ∈ as, a.winds = true) ∧ machine.run s as = some t ∧
      t.stage = .freed ∧ t.own = false ∧ t.clone = false ∧
      t.arena.life .core ≠ .live ∧ t.arena.life .handle ≠ .live := by
  have hprogress : ∀ s, Inv s ∧ s.stage ≠ .alive →
      ¬ (s.stage = .freed ∧ s.own = false ∧ s.clone = false) → ∃ a t, a.winds = true ∧
        machine.step s a = some t ∧ (Inv t ∧ t.stage ≠ .alive) ∧ t.left < s.left := by
    rintro s ⟨hinv, hst⟩ hleft
    obtain ⟨a, ha, hen, halive, hless⟩ := exists_winding hst hleft
    have hstep : machine.step s a = some (effect s a) := Machine.ofEffect_step.mpr ⟨hen, rfl⟩
    exact ⟨a, _, ha, hstep, ⟨inv_step _ _ _ hinv hstep, halive⟩, hless⟩
  obtain ⟨as, t, has, hrun, ⟨hinv, -⟩, hfreed, hown, hclone⟩ :=
    Machine.exists_run_done (M := machine) _ _ _ State.left hprogress
      ⟨inv_of_reachable h, hdropped⟩
  refine ⟨as, t, has, hrun, hfreed, hown, hclone, ?_, ?_⟩ <;>
    rw [ne_eq, hinv.there.live] <;> simp [State.there, hfreed]

/-- The handler has dropped its channel and has not returned. -/
theorem release_finishes_begun : ∃ s, machine.Reachable s ∧ s.stack = 1 ∧
    ∃ as t, (∀ a ∈ as, a.winds = true) ∧ machine.run s as = some t ∧
      t.stage = .freed ∧ t.own = false ∧ t.clone = false ∧
      t.arena.life .core ≠ .live ∧ t.arena.life .handle ≠ .live := by
  have h : machine.Reachable _ := ⟨[.swap, .register, .enter, .drop true false], rfl⟩
  exact ⟨_, h, rfl, release_finishes _ h nofun⟩

end ReactorWebrtc.Release
