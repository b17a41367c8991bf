/-
The registry of the composed slots, and what is left in it of a connection that is gone.

A slot is keyed by the addresses of a connection and of a transceiver, and by the side.  It
is made whenever it is asked for, and it goes in three ways: with its connection, for the
transceivers that the connection lists then; before metadata steps are installed, for all
but those that it lists; and transceiver by transceiver.  libwebrtc stops transceivers and
takes them off the list by itself, and a handle of one outlives both the list and the
connection.

Addresses are used again, so a connection is here whatever has the address now.  `Clean` is
that nothing is left of the address of a connection that is gone, and `along_clean_iff` says
which steps leave something.
-/
import Mathlib.Logic.Function.Basic
import ReactorWebrtc.Lib.Machine

namespace ReactorWebrtc.SlotRegistry

/-- The two directions a transceiver has a slot for. -/
inductive Side
  | send | receive
  deriving DecidableEq, Repr

/-- The step, by the track whose source or queue it has. -/
inductive Wired
  | embed (track : Nat)
  | strip (track : Nat)
  deriving DecidableEq, Repr

/-- A sender's or receiver's slot: the caller's transform, the metadata step, and the claim.
-/
structure Slot where
  caller : Option Nat := none
  metaStep : Option Wired := none
  installed : Bool := false
  deriving DecidableEq, Repr

/-- By `pc_id`, `transceiver_id` and side. -/
abbrev Key := Nat × Nat × Side

/-- The process-wide map. -/
abbrev Slots := Key → Option Slot

/-- A transceiver as its connection lists it. -/
structure Transceiver where
  id : Nat
  isVideo : Bool
  senderTrackId : Nat
  receiverTrackId : Nat
  deriving DecidableEq, Repr

/-- What a connection has of this: its gate, and what `transceivers` would list. -/
structure Connection where
  frameMetadataGate : Bool := false
  listed : List Transceiver := []
  deriving DecidableEq, Repr

/-- What the process knows of a native track. -/
structure Tracks where
  source : Nat → Bool := fun _ => false
  allowed : Nat → Bool := fun _ => true
  receiver : Nat → Bool := fun _ => false

/-- The map, the connections there are, and the tracks. -/
structure Process where
  slots : Slots := fun _ => none
  connections : Nat → Option Connection := fun _ => none
  tracks : Tracks := {}

/-! ### The registry

Each function takes the registry and returns it, since every one of them makes the slot it
asks for: that is what leaves one behind where nobody expects it.
-/

/-- The slot, made if it is not there; a null address has none. -/
def slotFor (slots : Slots) (pcId transceiverId : Nat) (side : Side) : Option (Slot × Slots) :=
  if transceiverId = 0 then none
  else
    let slot := (slots (pcId, transceiverId, side)).getD {}
    some (slot, Function.update slots (pcId, transceiverId, side) (some slot))

/-- Store a slot that was changed. -/
def store (slots : Slots) (pcId transceiverId : Nat) (side : Side) (slot : Slot) : Slots :=
  Function.update slots (pcId, transceiverId, side) (some slot)

/-- Both slots of a transceiver are taken out. -/
def forgetTransceiver (slots : Slots) (pcId transceiverId : Nat) : Slots :=
  if transceiverId = 0 then slots
  else fun key =>
    if key.1 = pcId ∧ key.2.1 = transceiverId then none else slots key

/-- The slots of transceivers that a connection lists no longer are taken out. -/
def pruneStaleSlots (slots : Slots) (pcId : Nat) (liveTcIds : List Nat) : Slots :=
  fun key => if key.1 ≠ pcId ∨ key.2.1 ∈ liveTcIds then slots key else none

/-- The slot is claimable again; one that is not there is made for that. -/
def releaseInstall (slots : Slots) (pcId transceiverId : Nat) (side : Side) : Slots :=
  match slotFor slots pcId transceiverId side with
  | some (slot, slots) => store slots pcId transceiverId side { slot with installed := false }
  | none => slots

/-- A step that is installed embeds from another track from now on. -/
def updateEmbedSource (slots : Slots) (pcId transceiverId track : Nat) : Slots :=
  match slotFor slots pcId transceiverId .send with
  | some (slot, slots) =>
    match slot.installed, slot.metaStep with
    | true, some (.embed _) =>
      store slots pcId transceiverId .send { slot with metaStep := some (.embed track) }
    | _, _ => slots
  | none => slots

/-- Change a part of the slot and claim it; whether it was claimed is for its owner to see. -/
def attach (slots : Slots) (pcId transceiverId : Nat) (side : Side) (change : Slot → Slot) :
    Bool × Slots :=
  match slotFor slots pcId transceiverId side with
  | some (slot, slots) =>
    (!slot.installed,
      store slots pcId transceiverId side { change slot with installed := true })
  | none => (false, slots)

/-- The caller's transform, on either side. -/
def attachCaller (slots : Slots) (pcId transceiverId : Nat) (side : Side) (cb : Nat) :
    Bool × Slots :=
  attach slots pcId transceiverId side fun slot => { slot with caller := some cb }

/-- The metadata step of a sender. -/
def attachEmbed (slots : Slots) (pcId transceiverId track : Nat) : Bool × Slots :=
  attach slots pcId transceiverId .send fun slot => { slot with metaStep := some (.embed track) }

/-- The metadata step of a receiver. -/
def attachStrip (slots : Slots) (pcId transceiverId track : Nat) : Bool × Slots :=
  attach slots pcId transceiverId .receive fun slot => { slot with metaStep := some (.strip track) }

/-- Attach the native transformer if there is one, and un-claim the slot if that fails. -/
def attachNative (attached : Bool × Slots) (succeeds : Bool) (pcId transceiverId : Nat)
    (side : Side) : Slots :=
  if attached.1 ∧ ¬ succeeds then releaseInstall attached.2 pcId transceiverId side
  else attached.2

/-! ### What a connection and its transceivers do with it -/

/-- `lookup`, and `lookup_receiver`: a null address has none. -/
def Tracks.lookup (tracks : Tracks) (track : Nat) : Bool := track ≠ 0 ∧ tracks.source track

/-- The queue of a received track, if it has one. -/
def Tracks.lookupReceiver (tracks : Tracks) (track : Nat) : Bool :=
  track ≠ 0 ∧ tracks.receiver track

/-- A track that nobody registered is allowed. -/
def Tracks.isAllowed (tracks : Tracks) (track : Nat) : Bool := track = 0 ∨ tracks.allowed track

/-- `set_sender_transform` and `set_receiver_transform`. -/
def attachCallerTransform (slots : Slots) (pcId transceiverId : Nat) (side : Side) (cb : Nat)
    (succeeds : Bool) : Slots :=
  attachNative (attachCaller slots pcId transceiverId side cb) succeeds pcId transceiverId side

/-- The steps of one listed transceiver. -/
def installOn (tracks : Tracks) (succeeds : Nat → Side → Bool) (pcId : Nat) (slots : Slots)
    (tc : Transceiver) : Slots :=
  if !tc.isVideo then slots
  else
    let slots :=
      if tracks.isAllowed tc.senderTrackId && tracks.lookup tc.senderTrackId then
        attachNative (attachEmbed slots pcId tc.id tc.senderTrackId) (succeeds tc.id .send)
          pcId tc.id .send
      else slots
    if tracks.lookupReceiver tc.receiverTrackId then
      attachNative (attachStrip slots pcId tc.id tc.receiverTrackId) (succeeds tc.id .receive)
        pcId tc.id .receive
    else slots

/-- With the gate open: stale slots go first, then each listed transceiver has its turn. -/
def installFrameMetadataTransforms (tracks : Tracks) (succeeds : Nat → Side → Bool) (pcId : Nat)
    (c : Connection) (slots : Slots) : Slots :=
  if !c.frameMetadataGate then slots
  else
    c.listed.foldl (installOn tracks succeeds pcId)
      (pruneStaleSlots slots pcId (c.listed.map (·.id)))

/-- `set_track`, once libwebrtc has the track; `gate` is what the handle's gate says. -/
def setTrack (tracks : Tracks) (succeeds gate : Bool) (pcId transceiverId track : Nat)
    (slots : Slots) : Slots :=
  let slots :=
    if tracks.lookup track then updateEmbedSource slots pcId transceiverId track else slots
  if gate && tracks.isAllowed track && tracks.lookup track then
    attachNative (attachEmbed slots pcId transceiverId track) succeeds pcId transceiverId .send
  else slots

/-- `Drop`: the slots of the transceivers that are listed still. -/
def dropSlots (pcId : Nat) (c : Connection) (slots : Slots) : Slots :=
  c.listed.foldl (fun slots tc => forgetTransceiver slots pcId tc.id) slots

/-- What libwebrtc and the application do, with the connections there are. -/
inductive Action
  | create (pcId : Nat)
  | addTransceiver (pcId : Nat) (tc : Transceiver)
  /-- libwebrtc stops a transceiver and takes it off the list. -/
  | remove (pcId transceiverId : Nat)
  | setGate (pcId : Nat) (isOpen : Bool)
  | tracks (tracks : Tracks)
  /-- These are called on a handle, which may outlive the transceiver and its connection. -/
  | attachCaller (pcId transceiverId : Nat) (side : Side) (cb : Nat) (succeeds : Bool)
  | setTrack (pcId transceiverId track : Nat) (gate succeeds : Bool)
  | install (pcId : Nat) (succeeds : Nat → Side → Bool)
  | drop (pcId : Nat)

/-- The connection is this from now on, or is gone. -/
def Process.put (s : Process) (pcId : Nat) (c : Option Connection) : Process :=
  { s with connections := Function.update s.connections pcId c }

/-- The listed transceiver has this track on its sender. -/
def Connection.withTrack (c : Connection) (transceiverId track : Nat) : Connection :=
  { c with listed := c.listed.map fun tc =>
      if tc.id = transceiverId then { tc with senderTrackId := track } else tc }

/-- A connection is made, changed and dropped while it is there; a handle may be used at any
time. -/
def step (s : Process) : Action → Option Process
  | .create pcId => if (s.connections pcId).isNone then some (s.put pcId (some {})) else none
  | .addTransceiver pcId tc =>
    (s.connections pcId).bind fun c =>
      if tc.id = 0 ∨ tc.id ∈ c.listed.map (·.id) then none
      else some (s.put pcId (some { c with listed := c.listed ++ [tc] }))
  | .remove pcId transceiverId =>
    (s.connections pcId).map fun c =>
      s.put pcId (some { c with listed := c.listed.filter (·.id ≠ transceiverId) })
  | .setGate pcId isOpen =>
    (s.connections pcId).map fun c => s.put pcId (some { c with frameMetadataGate := isOpen })
  | .tracks tracks => some { s with tracks }
  | .attachCaller pcId transceiverId side cb succeeds =>
    some { s with slots := attachCallerTransform s.slots pcId transceiverId side cb succeeds }
  | .setTrack pcId transceiverId track gate succeeds =>
    some { s with
      slots := setTrack s.tracks succeeds gate pcId transceiverId track s.slots
      connections := fun p =>
        if p = pcId then (s.connections p).map (·.withTrack transceiverId track)
        else s.connections p }
  | .install pcId succeeds =>
    (s.connections pcId).map fun c =>
      { s with slots := installFrameMetadataTransforms s.tracks succeeds pcId c s.slots }
  | .drop pcId =>
    (s.connections pcId).map fun c =>
      { s.put pcId none with slots := dropSlots pcId c s.slots }

/-- A process that has no connection yet. -/
def machine : Machine Process Action where
  start := {}
  step := step

/-- Nothing is left of a connection that is gone. -/
def Clean (s : Process) : Prop :=
  ∀ pcId, s.connections pcId = none →
    ∀ transceiverId side, s.slots (pcId, transceiverId, side) = none

/-- A step leaves nothing behind: a connection that is dropped lists every transceiver it has
slots for, and no handle is used after its connection to ask for a slot. -/
def Tidy (s : Process) : Action → Prop
  | .drop pcId => ∀ c, s.connections pcId = some c → ∀ transceiverId side,
    s.slots (pcId, transceiverId, side) ≠ none → transceiverId ∈ c.listed.map (·.id)
  | .attachCaller pcId transceiverId .. => transceiverId = 0 ∨ s.connections pcId ≠ none
  | .setTrack pcId transceiverId track .. =>
    transceiverId = 0 ∨ s.tracks.lookup track = false ∨ s.connections pcId ≠ none
  | _ => True

/-! ### Slots that are made, and slots that go

Two facts are enough of any function here.  Whose slots it touches: one transceiver's
(`Adds`) or one connection's (`Touches`).  And whether it makes any, or only takes some
away.
-/

/-- Only slots of one transceiver were made or changed, and none went. -/
structure Adds (pcId transceiverId : Nat) (slots slots' : Slots) : Prop where
  others : ∀ key : Key, key.1 ≠ pcId ∨ key.2.1 ≠ transceiverId → slots' key = slots key
  grows : ∀ key, slots' key = none → slots key = none
  null : transceiverId = 0 → slots' = slots

variable {slots slots' slots'' : Slots} {pcId tcId track : Nat} {side : Side}

theorem Adds.refl : Adds pcId tcId slots slots := ⟨fun _ _ => rfl, fun _ h => h, fun _ => rfl⟩

theorem Adds.trans (h : Adds pcId tcId slots slots') (h' : Adds pcId tcId slots' slots'') :
    Adds pcId tcId slots slots'' :=
  ⟨fun key hkey => (h'.others key hkey).trans (h.others key hkey),
    fun key hkey => h.grows key (h'.grows key hkey),
    fun hzero => (h'.null hzero).trans (h.null hzero)⟩

theorem adds_update (hid : tcId ≠ 0) (slot : Slot) :
    Adds pcId tcId slots (Function.update slots (pcId, tcId, side) (some slot)) := by
  refine ⟨fun key hkey => Function.update_of_ne ?_ _ _, fun key hkey => ?_,
    fun hzero => absurd hzero hid⟩
  · rintro rfl
    exact hkey.elim (fun h => h rfl) fun h => h rfl
  · by_cases heq : key = (pcId, tcId, side)
    · rw [heq, Function.update_self] at hkey
      cases hkey
    · rwa [Function.update_of_ne heq] at hkey

theorem slotFor_eq (slots : Slots) (pcId tcId : Nat) (side : Side) :
    (tcId = 0 ∧ slotFor slots pcId tcId side = none) ∨
      tcId ≠ 0 ∧ ∃ slot, slotFor slots pcId tcId side =
        some (slot, Function.update slots (pcId, tcId, side) (some slot)) := by
  unfold slotFor
  split
  · rename_i hzero
    exact .inl ⟨hzero, rfl⟩
  · rename_i hid
    exact .inr ⟨hid, _, rfl⟩

/-- The slot is there once it was asked for. -/
def Made (pcId tcId : Nat) (side : Side) (slots : Slots) : Prop :=
  tcId ≠ 0 → slots (pcId, tcId, side) ≠ none

theorem Made.mono (h : Made pcId tcId side slots) (hadds : Adds pcId tcId slots slots') :
    Made pcId tcId side slots' := fun hid hnone => h hid (hadds.grows _ hnone)

theorem made_update (slot : Slot) :
    Made pcId tcId side (Function.update slots (pcId, tcId, side) (some slot)) := by
  intro _ hnone
  rw [Function.update_self] at hnone
  cases hnone

theorem releaseInstall_adds : Adds pcId tcId slots (releaseInstall slots pcId tcId side) := by
  unfold releaseInstall
  rcases slotFor_eq slots pcId tcId side with ⟨-, h⟩ | ⟨hid, slot, h⟩
  · rw [h]
    exact .refl
  · rw [h]
    exact (adds_update hid slot).trans (adds_update hid _)

theorem updateEmbedSource_adds :
    Adds pcId tcId slots (updateEmbedSource slots pcId tcId track) ∧
      Made pcId tcId .send (updateEmbedSource slots pcId tcId track) := by
  unfold updateEmbedSource
  rcases slotFor_eq slots pcId tcId .send with ⟨hzero, h⟩ | ⟨hid, slot, h⟩
  · rw [h]
    exact ⟨.refl, fun hid => absurd hzero hid⟩
  · rw [h]
    dsimp only
    split
    · exact ⟨(adds_update hid slot).trans (adds_update hid _), made_update _⟩
    · exact ⟨adds_update hid slot, made_update slot⟩

theorem attach_adds (change : Slot → Slot) :
    Adds pcId tcId slots (attach slots pcId tcId side change).2 ∧
      Made pcId tcId side (attach slots pcId tcId side change).2 := by
  unfold attach
  rcases slotFor_eq slots pcId tcId side with ⟨hzero, h⟩ | ⟨hid, slot, h⟩
  · rw [h]
    exact ⟨.refl, fun hid => absurd hzero hid⟩
  · rw [h]
    exact ⟨(adds_update hid slot).trans (adds_update hid _), made_update _⟩

theorem attachNative_adds {attached : Bool × Slots} {succeeds : Bool}
    (h : Adds pcId tcId slots attached.2) :
    Adds pcId tcId slots (attachNative attached succeeds pcId tcId side) := by
  unfold attachNative
  split
  · exact h.trans releaseInstall_adds
  · exact h

theorem attachCallerTransform_adds {cb : Nat} {succeeds : Bool} :
    Adds pcId tcId slots (attachCallerTransform slots pcId tcId side cb succeeds) ∧
      Made pcId tcId side (attachCallerTransform slots pcId tcId side cb succeeds) := by
  obtain ⟨hadds, hmade⟩ := @attach_adds slots pcId tcId side
    fun slot => { slot with caller := some cb }
  exact ⟨attachNative_adds hadds, hmade.mono (attachNative_adds .refl)⟩

theorem setTrack_adds {tracks : Tracks} {succeeds gate : Bool} :
    Adds pcId tcId slots (setTrack tracks succeeds gate pcId tcId track slots) ∧
      (tracks.lookup track = false → setTrack tracks succeeds gate pcId tcId track slots = slots) ∧
      (tracks.lookup track = true →
        Made pcId tcId .send (setTrack tracks succeeds gate pcId tcId track slots)) := by
  unfold setTrack
  cases hlookup : tracks.lookup track with
  | false =>
      rw [Bool.and_false, if_neg Bool.false_ne_true, if_neg Bool.false_ne_true]
      exact ⟨.refl, fun _ => rfl, fun h => by cases h⟩
  | true =>
      obtain ⟨hadds, hmade⟩ := @updateEmbedSource_adds slots pcId tcId track
      rw [if_pos rfl]
      dsimp only
      split
      · have hnative := @attachNative_adds _ pcId tcId .send _ succeeds
          (@attach_adds (updateEmbedSource slots pcId tcId track) pcId tcId .send
            fun slot => { slot with metaStep := some (.embed track) }).1
        exact ⟨hadds.trans hnative, fun h => (by cases h), fun _ => hmade.mono hnative⟩
      · exact ⟨hadds, fun h => (by cases h), fun _ => hmade⟩

/-- What is forgotten of a connection that is dropped. -/
theorem dropSlots_eq (listed : List Transceiver) (slots : Slots) (key : Key) :
    (listed.foldl (fun slots tc => forgetTransceiver slots pcId tc.id) slots) key =
      if key.1 = pcId ∧ key.2.1 ≠ 0 ∧ key.2.1 ∈ listed.map (·.id) then none else slots key := by
  induction listed generalizing slots with
  | nil => simp
  | cons tc listed ih =>
      rw [List.foldl_cons, ih]
      unfold forgetTransceiver
      by_cases hzero : tc.id = 0
      · rw [if_pos hzero]
        by_cases hkey : key.2.1 = 0
        · simp [hkey]
        · simp [hkey, hzero]
      · rw [if_neg hzero]
        by_cases hkey : key.1 = pcId ∧ key.2.1 = tc.id
        · simp [hkey.1, hkey.2, hzero]
        · by_cases hpc : key.1 = pcId
          · simp [hpc, show key.2.1 ≠ tc.id from fun h => hkey ⟨hpc, h⟩]
          · simp [hpc]

/-- Only slots of this connection were made or changed, or went. -/
structure Touches (pcId : Nat) (slots slots' : Slots) : Prop where
  others : ∀ key : Key, key.1 ≠ pcId → slots' key = slots key
  null : ∀ p side, slots (p, 0, side) = none → slots' (p, 0, side) = none

theorem Touches.refl : Touches pcId slots slots := ⟨fun _ _ => rfl, fun _ _ h => h⟩

theorem Touches.trans (h : Touches pcId slots slots') (h' : Touches pcId slots' slots'') :
    Touches pcId slots slots'' :=
  ⟨fun key hkey => (h'.others key hkey).trans (h.others key hkey),
    fun p side hnone => h'.null p side (h.null p side hnone)⟩

theorem Adds.touches (h : Adds pcId tcId slots slots') : Touches pcId slots slots' := by
  refine ⟨fun key hkey => h.others key (.inl hkey), fun p side hnone => ?_⟩
  by_cases hzero : tcId = 0
  · rwa [h.null hzero]
  · rwa [h.others _ (.inr (Ne.symm hzero))]

theorem prune_touches (ids : List Nat) : Touches pcId slots (pruneStaleSlots slots pcId ids) := by
  refine ⟨fun key hkey => if_pos (.inl hkey), fun p side hnone => ?_⟩
  unfold pruneStaleSlots
  split
  · exact hnone
  · rfl

theorem installOn_touches (tracks : Tracks) (succeeds : Nat → Side → Bool) (tc : Transceiver) :
    Touches pcId slots (installOn tracks succeeds pcId slots tc) := by
  unfold installOn
  split
  · exact .refl
  · have hembed : ∀ slots : Slots, Adds pcId tc.id slots
        (if tracks.isAllowed tc.senderTrackId && tracks.lookup tc.senderTrackId then
          attachNative (attachEmbed slots pcId tc.id tc.senderTrackId) (succeeds tc.id .send)
            pcId tc.id .send
        else slots) := by
      intro slots
      split
      · exact attachNative_adds (attach_adds _).1
      · exact .refl
    dsimp only
    split
    · exact ((hembed slots).trans (attachNative_adds (attach_adds _).1)).touches
    · exact (hembed slots).touches

theorem install_touches (tracks : Tracks) (succeeds : Nat → Side → Bool) (c : Connection) :
    Touches pcId slots (installFrameMetadataTransforms tracks succeeds pcId c slots) := by
  unfold installFrameMetadataTransforms
  split
  · exact .refl
  · have hfold : ∀ (listed : List Transceiver) (slots : Slots),
        Touches pcId slots (listed.foldl (installOn tracks succeeds pcId) slots) := by
      intro listed
      induction listed with
      | nil => exact fun _ => .refl
      | cons tc listed ih =>
          intro slots
          exact (installOn_touches tracks succeeds tc).trans (ih _)
    exact (prune_touches _).trans (hfold _ _)

/-! ### What a step leaves -/

variable {s t : Process} {a : Action}

/-- A null address has no slot. -/
def NoNull (slots : Slots) : Prop := ∀ p side, slots (p, 0, side) = none

/-- Where no connection ends, and slots change only of one that is there. -/
theorem clean_of_live (hs : Clean s) (htouches : Touches pcId s.slots t.slots)
    (hlive : t.connections pcId ≠ none)
    (hconnections : ∀ p, t.connections p = none → s.connections p = none) : Clean t := by
  intro p hp tcId side
  have hne : p ≠ pcId := by
    rintro rfl
    exact hlive hp
  rw [htouches.others _ hne]
  exact hs p (hconnections p hp) tcId side

/-- A slot is asked for through a handle: all is well if there is none to be made, or the
connection is there. -/
theorem clean_iff_adds (made : Prop) (hs : Clean s) (hadds : Adds pcId tcId s.slots t.slots)
    (hmade : made → Made pcId tcId side t.slots) (hnot : ¬ made → t.slots = s.slots)
    (hconnections : ∀ p, t.connections p = none ↔ s.connections p = none) :
    Clean t ↔ tcId = 0 ∨ ¬ made ∨ s.connections pcId ≠ none := by
  constructor
  · intro ht
    by_contra h
    rw [not_or, not_or, not_not, not_not] at h
    obtain ⟨hid, hm, hdead⟩ := h
    exact hmade hm hid (ht pcId ((hconnections pcId).mpr hdead) tcId side)
  · rintro (hzero | hm | hlive)
    · intro p hp tcId' side'
      rw [hadds.null hzero]
      exact hs p ((hconnections p).mp hp) tcId' side'
    · intro p hp tcId' side'
      rw [hnot hm]
      exact hs p ((hconnections p).mp hp) tcId' side'
    · exact clean_of_live hs hadds.touches (fun h => hlive ((hconnections pcId).mp h))
        fun p => (hconnections p).mp

theorem put_self (s : Process) (pcId : Nat) (c : Option Connection) :
    (s.put pcId c).connections pcId = c := Function.update_self _ _ _

theorem put_of_ne (s : Process) {p pcId : Nat} (h : p ≠ pcId) (c : Option Connection) :
    (s.put pcId c).connections p = s.connections p := Function.update_of_ne h _ _

theorem put_live {c : Connection} {p : Nat} (h : (s.put pcId (some c)).connections p = none) :
    s.connections p = none := by
  by_cases hp : p = pcId
  · rw [hp, put_self] at h
    cases h
  · rwa [put_of_ne s hp] at h

/-- A step that puts a connection and leaves the slots. -/
theorem put_clean {c : Connection} (hs : Clean s) : Clean (s.put pcId (some c)) :=
  fun p hp tcId side => hs p (put_live hp) tcId side

theorem step_noNull (hs : NoNull s.slots) (hstep : step s a = some t) : NoNull t.slots := by
  cases a with
  | create p =>
      rw [step, Option.ite_none_right_eq_some] at hstep
      obtain rfl := Option.some.inj hstep.2
      exact hs
  | addTransceiver p tc =>
      obtain ⟨c, -, hstep⟩ := Option.bind_eq_some_iff.mp hstep
      rw [Option.ite_none_left_eq_some] at hstep
      obtain rfl := Option.some.inj hstep.2
      exact hs
  | remove p tcId =>
      obtain ⟨c, -, rfl⟩ := Option.map_eq_some_iff.mp hstep
      exact hs
  | setGate p isOpen =>
      obtain ⟨c, -, rfl⟩ := Option.map_eq_some_iff.mp hstep
      exact hs
  | tracks tracks =>
      obtain rfl := Option.some.inj hstep
      exact hs
  | attachCaller p tcId side cb succeeds =>
      obtain rfl := Option.some.inj hstep
      exact fun p side => attachCallerTransform_adds.1.touches.null p side (hs p side)
  | setTrack p tcId track gate succeeds =>
      obtain rfl := Option.some.inj hstep
      exact fun p side => setTrack_adds.1.touches.null p side (hs p side)
  | install p succeeds =>
      obtain ⟨c, -, rfl⟩ := Option.map_eq_some_iff.mp hstep
      exact fun p side => (install_touches s.tracks succeeds c).null p side (hs p side)
  | drop p =>
      obtain ⟨c, -, rfl⟩ := Option.map_eq_some_iff.mp hstep
      intro p' side
      show dropSlots p c s.slots (p', 0, side) = none
      rw [dropSlots, dropSlots_eq, hs]
      exact ite_self _

/-- What a connection leaves when it is dropped is what it does not list. -/
theorem drop_clean_iff {c : Connection} (hnull : NoNull s.slots) (hs : Clean s) :
    Clean { s.put pcId none with slots := dropSlots pcId c s.slots } ↔
      ∀ tcId side, s.slots (pcId, tcId, side) ≠ none → tcId ∈ c.listed.map (·.id) := by
  constructor
  · intro ht tcId side hslot
    have hgone := ht pcId (put_self s pcId none) tcId side
    change dropSlots pcId c s.slots (pcId, tcId, side) = none at hgone
    rw [dropSlots, dropSlots_eq] at hgone
    split at hgone
    · rename_i hkey
      exact hkey.2.2
    · exact absurd hgone hslot
  · intro hlisted p hp tcId side
    show dropSlots pcId c s.slots (p, tcId, side) = none
    rw [dropSlots, dropSlots_eq]
    split
    · rfl
    · rename_i hkey
      by_cases hpc : p = pcId
      · by_contra hslot
        rw [hpc] at hslot hkey
        refine hkey ⟨rfl, ?_, hlisted tcId side hslot⟩
        rintro rfl
        exact hslot (hnull pcId side)
      · refine hs p ?_ tcId side
        exact (Function.update_of_ne hpc _ s.connections).symm.trans hp

theorem step_clean_iff (hnull : NoNull s.slots) (hs : Clean s) (hstep : step s a = some t) :
    Clean t ↔ Tidy s a := by
  cases a with
  | create p =>
      rw [step, Option.ite_none_right_eq_some] at hstep
      obtain rfl := Option.some.inj hstep.2
      exact iff_of_true (put_clean hs) trivial
  | addTransceiver p tc =>
      obtain ⟨c, -, hstep⟩ := Option.bind_eq_some_iff.mp hstep
      rw [Option.ite_none_left_eq_some] at hstep
      obtain rfl := Option.some.inj hstep.2
      exact iff_of_true (put_clean hs) trivial
  | remove p tcId =>
      obtain ⟨c, -, rfl⟩ := Option.map_eq_some_iff.mp hstep
      exact iff_of_true (put_clean hs) trivial
  | setGate p isOpen =>
      obtain ⟨c, -, rfl⟩ := Option.map_eq_some_iff.mp hstep
      exact iff_of_true (put_clean hs) trivial
  | tracks tracks =>
      obtain rfl := Option.some.inj hstep
      exact iff_of_true hs trivial
  | attachCaller p tcId side cb succeeds =>
      obtain rfl := Option.some.inj hstep
      have hiff := clean_iff_adds True hs attachCallerTransform_adds.1
        (t := { s with slots := attachCallerTransform s.slots p tcId side cb succeeds })
        (fun _ => attachCallerTransform_adds.2) (fun h => absurd trivial h) fun p => Iff.rfl
      rwa [not_true_eq_false, false_or] at hiff
  | setTrack p tcId track gate succeeds =>
      obtain rfl := Option.some.inj hstep
      obtain ⟨hadds, hnot, hmade⟩ := @setTrack_adds s.slots p tcId track s.tracks succeeds gate
      have hiff := clean_iff_adds (s := s) (s.tracks.lookup track = true) hs hadds hmade
        (fun h => hnot (Bool.eq_false_iff.mpr h))
        (t := { s with
          slots := setTrack s.tracks succeeds gate p tcId track s.slots
          connections := fun q =>
            if q = p then (s.connections q).map (·.withTrack tcId track) else s.connections q })
        fun q => by
          dsimp only
          split
          · exact Option.map_eq_none_iff
          · rfl
      rwa [Bool.not_eq_true] at hiff
  | install p succeeds =>
      obtain ⟨c, hc, rfl⟩ := Option.map_eq_some_iff.mp hstep
      refine iff_of_true (clean_of_live hs (install_touches s.tracks succeeds c) ?_ fun _ => id)
        trivial
      exact fun hnone => by cases hc.symm.trans hnone
  | drop p =>
      obtain ⟨c, hc, rfl⟩ := Option.map_eq_some_iff.mp hstep
      rw [drop_clean_iff hnull hs]
      constructor
      · intro h c' hc'
        obtain rfl := Option.some.inj (hc.symm.trans hc')
        exact h
      · exact fun h => h c hc

/--
**When nothing is left of a connection that is gone.**  Exactly if every connection that is
dropped still lists the transceivers it has slots for, and no handle that outlives its
connection asks for a slot.
-/
theorem along_clean_iff {as : List Action} {t : Process}
    (hrun : machine.run machine.start as = some t) :
    machine.Along Clean machine.start as ↔ machine.Guarded Tidy machine.start as :=
  Machine.along_iff_guarded (I := fun s => NoNull s.slots)
    (fun _ _ _ hnull hstep => step_noNull hnull hstep)
    (fun _ _ _ hnull hs hstep => step_clean_iff hnull hs hstep)
    (fun _ _ => rfl) (fun _ _ _ _ => rfl) hrun

/-- A callback on a transceiver that is still listed when the connection goes. -/
def listedAtDrop : List Action :=
  [.create 1, .addTransceiver 1 ⟨2, true, 3, 4⟩, .attachCaller 1 2 .send 7 true, .drop 1]

theorem tidy_listedAtDrop : machine.Guarded Tidy machine.start listedAtDrop := by
  refine (machine.guarded_cons rfl).mpr ⟨trivial, (machine.guarded_cons rfl).mpr ⟨trivial,
    (machine.guarded_cons rfl).mpr ⟨.inr ?_, (machine.guarded_cons rfl).mpr ⟨?_, trivial⟩⟩⟩⟩
  · decide +kernel
  · intro c hc tcId side hslot
    obtain rfl := Option.some.inj hc
    by_cases hid : tcId = 2
    · rw [hid]
      decide +kernel
    · -- a slot of no other transceiver was asked for
      dsimp only at hslot
      rw [attachCallerTransform_adds.1.others (1, tcId, side) (.inr hid)] at hslot
      exact absurd rfl hslot

/-- The slot is there until the connection is dropped, and goes with it. -/
theorem along_clean_iff_listedAtDrop :
    machine.Along Clean machine.start listedAtDrop ∧
    (machine.final machine.start (listedAtDrop.take 3) (by decide +kernel)).slots (1, 2, .send) =
      some { caller := some 7, installed := true } ∧
    (machine.final machine.start listedAtDrop (by decide +kernel)).slots (1, 2, .send) = none :=
  ⟨(along_clean_iff (machine.run_final machine.start listedAtDrop (by decide +kernel))).mpr
    tidy_listedAtDrop, by decide +kernel, by decide +kernel⟩

/-- A callback on a transceiver that is stopped before the connection goes. -/
def stopped : List Action :=
  [.create 1, .addTransceiver 1 ⟨2, true, 3, 4⟩, .attachCaller 1 2 .send 7 true, .remove 1 2,
    .drop 1]

/-- The next transceiver at the address begins with the callback, and as if it were installed. -/
theorem stopped_leaves_slot :
    ∃ t, machine.run machine.start stopped = some t ∧ t.connections 1 = none ∧
      t.slots (1, 2, .send) = some { caller := some 7, installed := true } :=
  ⟨_, machine.run_final machine.start stopped (by decide +kernel), by decide +kernel,
    by decide +kernel⟩

end ReactorWebrtc.SlotRegistry
