/-
The registry that gives encoder instances the slots of tracks.

A track reserves a slot when it is created, and libwebrtc makes encoder instances later, on
its own; nothing tells the registry which track an instance is for.  So an instance takes
the next reservation in line the first time it is asked about, from either of two calls, and
keeps it.  A track that is dropped takes its reservations out of the line, and what was
bound to an instance already becomes a builtin slot.

A queue or a callback that slots share is a number, that of the reservation it was made for.
The numbers of the reservations are not the code's, nor are its log lines here.

`Binds` is what either call does to the registry, and everything proved about it later goes
by that and by what `retract` does to an entry.
-/
import Mathlib.Data.List.Basic

namespace ReactorWebrtc

/-- Which H.264 backend a builtin-routed slot prefers. -/
inductive H264BackendPref
  | auto | videoToolbox | openH264
  deriving DecidableEq, Repr

/-- A slot for one video transceiver. -/
inductive RegistrySlot
  /-- Frames are read from a queue. -/
  | custom (queue : Nat)
  /-- A callback is called with every raw frame. -/
  | inline (callback : Nat)
  | builtin (backend : H264BackendPref)
  deriving DecidableEq, Repr

def RegistrySlot.isBuiltin : RegistrySlot → Bool
  | .builtin _ => true
  | _ => false

structure RegistryReservation where
  nativeId : Nat
  slot : RegistrySlot
  /-- How many reservations were made before it. -/
  number : Nat
  deriving DecidableEq, Repr

structure AssignedSlot where
  nativeId : Nat
  slot : RegistrySlot
  /-- The reservation it was, unless there was none left. -/
  number : Option Nat
  deriving DecidableEq, Repr

def RegistryReservation.assigned (r : RegistryReservation) : AssignedSlot :=
  { nativeId := r.nativeId, slot := r.slot, number := some r.number }

structure EncoderRegistry where
  pending : List RegistryReservation := []
  /-- By encoder id. -/
  assigned : List (Nat × AssignedSlot) := []
  deriving DecidableEq, Repr

namespace EncoderRegistry

/-- Put a reservation at the end of the line. -/
def reserve (r : EncoderRegistry) (x : RegistryReservation) : EncoderRegistry :=
  { r with pending := r.pending ++ [x] }

/-- Reserve a custom (pre-encoded) slot for the track `nativeId`. -/
def addEncodedSlot (r : EncoderRegistry) (nativeId number : Nat) : EncoderRegistry :=
  r.reserve { nativeId, slot := .custom number, number }

def addRawSlotWithBackend (r : EncoderRegistry) (nativeId : Nat) (backend : H264BackendPref)
    (number : Nat) : EncoderRegistry :=
  r.reserve { nativeId, slot := .builtin backend, number }

def addRawSlot (r : EncoderRegistry) (nativeId number : Nat) : EncoderRegistry :=
  r.addRawSlotWithBackend nativeId .auto number

/-- Reserve an inline-encoder slot. -/
def addInlineSlot (r : EncoderRegistry) (nativeId number : Nat) : EncoderRegistry :=
  r.reserve { nativeId, slot := .inline number, number }

/-- What is left of a bound slot when the track `nativeId` is dropped. -/
def degrade (nativeId : Nat) (a : AssignedSlot) : AssignedSlot :=
  if a.nativeId = nativeId ∧ a.slot.isBuiltin = false then { a with slot := .builtin .auto } else a

/-- Drop everything reserved for a track that no longer exists. -/
def retract (r : EncoderRegistry) (nativeId : Nat) : EncoderRegistry where
  pending := r.pending.filter (·.nativeId ≠ nativeId)
  assigned := r.assigned.map fun (id, a) => (id, degrade nativeId a)

/-- Whether any custom slot exists. -/
def hasCustom (r : EncoderRegistry) : Bool :=
  r.pending.any (!·.slot.isBuiltin) || r.assigned.any (!·.2.slot.isBuiltin)

/-- Whether the C++ factory should delegate to the builtin encoder. -/
def useBuiltinFor (r : EncoderRegistry) (encoderId : Nat) : Bool × EncoderRegistry :=
  match r.assigned.lookup encoderId with
  | some a => (a.slot.isBuiltin, r)
  | none =>
    match r.pending with
    | next :: pending =>
      (next.slot.isBuiltin, { pending, assigned := r.assigned ++ [(encoderId, next.assigned)] })
    | [] => (true, r)

/-- The slot an instance has once no reservation is left. -/
def fallback : AssignedSlot := { nativeId := 0, slot := .builtin .auto, number := none }

/-- The slot `encode_for` works with. -/
def slotFor (r : EncoderRegistry) (encoderId : Nat) : AssignedSlot × EncoderRegistry :=
  match r.assigned.lookup encoderId with
  | some a => (a, r)
  | none =>
    match r.pending with
    | next :: pending =>
      (next.assigned, { pending, assigned := r.assigned ++ [(encoderId, next.assigned)] })
    | [] => (fallback, { r with assigned := r.assigned ++ [(encoderId, fallback)] })

/-- What asking about an instance does to the registry. -/
inductive Binds (r : EncoderRegistry) (encoderId : Nat) : EncoderRegistry → Prop
  | same : Binds r encoderId r
  | next {x : RegistryReservation} {pending : List RegistryReservation}
      (hnew : r.assigned.lookup encoderId = none) (hpending : r.pending = x :: pending) :
      Binds r encoderId { pending, assigned := r.assigned ++ [(encoderId, x.assigned)] }
  | none (hnew : r.assigned.lookup encoderId = none) (hpending : r.pending = []) :
      Binds r encoderId { r with assigned := r.assigned ++ [(encoderId, fallback)] }

theorem useBuiltinFor_binds (r : EncoderRegistry) (encoderId : Nat) :
    Binds r encoderId (r.useBuiltinFor encoderId).2 := by
  unfold useBuiltinFor
  split
  · exact .same
  · rename_i hnew
    split
    · rename_i next pending hpending
      exact .next hnew hpending
    · exact .same

theorem lookup_append_new {assigned : List (Nat × AssignedSlot)} {encoderId : Nat}
    (hnew : assigned.lookup encoderId = none) (a : AssignedSlot) :
    (assigned ++ [(encoderId, a)]).lookup encoderId = some a := by
  rw [List.lookup_append, hnew]
  simp

/-- `encode_for` works with a slot that is bound afterwards. -/
theorem slotFor_binds (r : EncoderRegistry) (encoderId : Nat) :
    Binds r encoderId (r.slotFor encoderId).2 ∧
      (r.slotFor encoderId).2.assigned.lookup encoderId = some (r.slotFor encoderId).1 := by
  unfold slotFor
  split
  · rename_i a ha
    exact ⟨.same, ha⟩
  · rename_i hnew
    split
    · rename_i next pending hpending
      exact ⟨.next hnew hpending, lookup_append_new hnew _⟩
    · rename_i hpending
      exact ⟨.none hnew hpending, lookup_append_new hnew _⟩

/-- What is bound stays, and belongs to the track it belonged to. -/
theorem Binds.keeps {r r' : EncoderRegistry} {encoderId id : Nat} {a : AssignedSlot}
    (h : Binds r encoderId r') (ha : r.assigned.lookup id = some a) :
    r'.assigned.lookup id = some a := by
  cases h with
  | same => exact ha
  | next hnew hpending => rw [List.lookup_append, ha, Option.some_or]
  | none hnew hpending => rw [List.lookup_append, ha, Option.some_or]

theorem degrade_nativeId (nativeId : Nat) (a : AssignedSlot) :
    (degrade nativeId a).nativeId = a.nativeId ∧ (degrade nativeId a).number = a.number := by
  unfold degrade
  split <;> exact ⟨rfl, rfl⟩

theorem degrade_isBuiltin {nativeId : Nat} {a : AssignedSlot} (h : a.nativeId = nativeId) :
    (degrade nativeId a).slot.isBuiltin = true := by
  unfold degrade
  split
  · rfl
  · rename_i hnot
    by_contra hcustom
    exact hnot ⟨h, Bool.eq_false_iff.mpr hcustom⟩

/-- A slot that is builtin stays so. -/
theorem degrade_builtin (nativeId : Nat) {a : AssignedSlot} (h : a.slot.isBuiltin = true) :
    (degrade nativeId a).slot.isBuiltin = true := by
  unfold degrade
  split
  · rfl
  · exact h

theorem degrade_other {nativeId : Nat} {a : AssignedSlot} (h : a.nativeId ≠ nativeId) :
    degrade nativeId a = a := by
  simp [degrade, h]

theorem lookup_retract (r : EncoderRegistry) (nativeId id : Nat) :
    (r.retract nativeId).assigned.lookup id = (r.assigned.lookup id).map (degrade nativeId) := by
  unfold retract
  induction r.assigned with
  | nil => rfl
  | cons p rest ih =>
      obtain ⟨k, a⟩ := p
      rw [List.map_cons, List.lookup_cons, List.lookup_cons]
      split
      · rfl
      · exact ih

end EncoderRegistry

end ReactorWebrtc
