/-
One side of one transceiver's encoded-frame pipeline.

Every encoded frame passes through `ComposedSlot.run` once: first the caller's callback,
then the frame-metadata step, which on the sending side appends a trailer and on the
receiving side strips one.  The callback is the caller's, so what it answers for a frame
and what it leaves of the payload are part of the step.  A source of metadata is
whatever a track registers, as in the source a trait of one method.

The trailer is what `prost` makes of the metadata, its length and four magic bytes.
`prost` itself is a parameter.

`run` has three ways out.  A frame that the callback drops is not looked at again; a frame
for which there is no step leaves as the callback left it; and the step may leave a frame as
it is, where the gate is shut, the source has nothing, or there is no trailer to take off.
-/
import Mathlib.Data.List.Basic
import ReactorWebrtc.Chunking.Frame

namespace ReactorWebrtc

/-- Per-frame metadata carried alongside an encoded video frame. -/
structure FrameMetadata where
  frameId : UInt64 := 0
  captureTimeUs : UInt64 := 0
  userData : Bytes := []
  deriving DecidableEq, Repr

/-- The protobuf encoding of `FrameMetadata`. -/
structure Prost where
  encodeToVec : FrameMetadata → Bytes
  decode : Bytes → Option FrameMetadata

/-- A base-128 number, of at most this many bytes. -/
def encodeVarint : Nat → Nat → Bytes
  | 0, _ => []
  | len + 1, n =>
    if n < 128 then [UInt8.ofNat n] else UInt8.ofNat (n % 128 + 128) :: encodeVarint len (n / 128)

def decodeVarint : Nat → Bytes → Option (Nat × Bytes)
  | len + 1, byte :: bytes =>
    if byte < 128 then some (byte.toNat, bytes)
    else do
      let (n, rest) ← decodeVarint len bytes
      some (byte.toNat - 128 + 128 * n, rest)
  | _, _ => none

/-- Read fields until the bytes are used up; the first argument bounds how many. -/
def decodeFields : Nat → FrameMetadata → Bytes → Option FrameMetadata
  | _, m, [] => some m
  | 0, _, _ => none
  | left + 1, m, key :: bytes => do
    let (n, rest) ← decodeVarint 10 bytes
    if key = 0x08 then decodeFields left { m with frameId := UInt64.ofNat n } rest
    else if key = 0x10 then decodeFields left { m with captureTimeUs := UInt64.ofNat n } rest
    else if key = 0x1A ∧ n ≤ rest.length then
      decodeFields left { m with userData := rest.take n } (rest.drop n)
    else none

/-- The encoding as the three fields have it: each a key, left out when it is zero. -/
def proto3 : Prost where
  encodeToVec m :=
    (if m.frameId = 0 then [] else 0x08 :: encodeVarint 10 m.frameId.toNat) ++
    (if m.captureTimeUs = 0 then [] else 0x10 :: encodeVarint 10 m.captureTimeUs.toNat) ++
    (if m.userData = [] then [] else 0x1A :: encodeVarint 10 m.userData.length ++ m.userData)
  decode bytes := decodeFields bytes.length {} bytes

example : proto3.decode (proto3.encodeToVec { frameId := 300, userData := [7] }) =
    some { frameId := 300, userData := [7] } := by decide +kernel

/-- `RXMT` -/
def MAGIC : Bytes := [0x52, 0x58, 0x4D, 0x54]

/-- The length of the protobuf bytes and the magic. -/
def FRAMING : Nat := 4 + 4

def toLeBytes (n : UInt32) : Bytes :=
  [n.toUInt8, (n >>> 8).toUInt8, (n >>> 16).toUInt8, (n >>> 24).toUInt8]

def fromLeBytes : Bytes → Option UInt32
  | [a, b, c, d] =>
    some (a.toUInt32 ||| (b.toUInt32 <<< 8) ||| (c.toUInt32 <<< 16) ||| (d.toUInt32 <<< 24))
  | _ => none

/-- Encode `m` as a protobuf trailer, the bytes to append. -/
def encodeTrailer (prost : Prost) (m : FrameMetadata) : Bytes :=
  let proto := prost.encodeToVec m
  let protoLen := UInt32.ofNat proto.length
  proto ++ toLeBytes protoLen ++ MAGIC

/-- Detect and decode a trailer at the end of `data`: the metadata and what is before it. -/
def decodeAndStripTrailer (prost : Prost) (data : Bytes) : Option (FrameMetadata × Bytes) :=
  let tail := data.length
  if tail < FRAMING then none
  else if data.drop (tail - 4) ≠ MAGIC then none
  else do
    let protoLen ← fromLeBytes ((data.drop (tail - 8)).take 4)
    if tail < 8 + protoLen.toNat then none
    else
      let protoStart := tail - (8 + protoLen.toNat)
      let m ← prost.decode ((data.drop protoStart).take protoLen.toNat)
      some (m, data.take protoStart)

/-- What to do with a frame after the callback returns. -/
inductive FrameAction
  | forward
  | drop
  deriving DecidableEq, Repr

/-- An encoded frame, with its payload as it stands. -/
structure EncodedFrame where
  ssrc : UInt32
  timestamp : UInt32
  currentData : Bytes
  deriving DecidableEq, Repr

def EncodedFrame.replaceData (frame : EncodedFrame) (data : Bytes) : EncodedFrame :=
  { frame with currentData := data }

@[simp] theorem EncodedFrame.replaceData_self (frame : EncodedFrame) :
    frame.replaceData frame.currentData = frame := rfl

/-- How a track hands over the metadata for one outgoing frame. -/
class SenderMetaSource (σ : Type) where
  take : σ → EncodedFrame → Option FrameMetadata × σ

/-- Which inbound frame a queued entry belongs to. -/
structure FrameKey where
  ssrc : UInt32
  rtpTimestamp : UInt32
  deriving DecidableEq, Repr

def RECEIVER_META_CAP : Nat := 300

/-- How many frames the dedup window of the strip step holds. -/
def SEEN_CAP : Nat := 32

/-- What the frame-metadata step does. -/
inductive MetaStep
  | embed (gate : Bool)
  | strip (queue : List (FrameKey × FrameMetadata)) (seen : List FrameKey)
  deriving DecidableEq, Repr

/-- What the caller's callback makes of a frame: its answer, and the payload when it
replaced it. -/
structure Answer where
  action : FrameAction
  data : Option Bytes := none
  deriving DecidableEq, Repr

structure ComposedSlot where
  /-- Whether a callback is attached. -/
  caller : Bool := false
  metaStep : Option MetaStep := none
  deriving DecidableEq, Repr

/-- Append to a bounded queue, the oldest making room. -/
def pushCapped {α : Type} (cap : Nat) (q : List α) (x : α) : List α :=
  (if q.length ≥ cap then q.tail else q) ++ [x]

/-- The strip step after a frame that came with metadata. -/
def MetaStep.stripped (queue : List (FrameKey × FrameMetadata)) (seen : List FrameKey)
    (key : FrameKey) (m : FrameMetadata) : MetaStep :=
  if seen.contains key then .strip queue seen
  else .strip (pushCapped RECEIVER_META_CAP queue (key, m)) (pushCapped SEEN_CAP seen key)

/-- What `run` leaves behind. -/
structure Outcome (σ : Type) where
  action : FrameAction
  frame : EncodedFrame
  slot : ComposedSlot
  source : σ

namespace ComposedSlot

variable {σ : Type} [SenderMetaSource σ]

/-- The frame as the callback leaves it. -/
def called (slot : ComposedSlot) (answer : Answer) (frame : EncodedFrame) : EncodedFrame :=
  match slot.caller, answer.data with
  | true, some data => frame.replaceData data
  | _, _ => frame

/-- Run the composed pipeline for one frame. -/
def run (slot : ComposedSlot) (source : σ) (prost : Prost) (answer : Answer)
    (frame : EncodedFrame) : Outcome σ :=
  let frame := slot.called answer frame
  if slot.caller = true ∧ answer.action = .drop then
    { action := .drop, frame, slot, source }
  else
    match slot.metaStep with
    | some (.embed gate) =>
      -- the source is asked even with the gate shut
      let (m, source) := SenderMetaSource.take source frame
      let frame :=
        match gate, m with
        | true, some m => frame.replaceData (frame.currentData ++ encodeTrailer prost m)
        | _, _ => frame
      { action := .forward, frame, slot, source }
    | some (.strip queue seen) =>
      match decodeAndStripTrailer prost frame.currentData with
      | some (m, stripped) =>
        let key := { ssrc := frame.ssrc, rtpTimestamp := frame.timestamp }
        let metaStep :=
          if seen.contains key then .strip queue seen
          else .strip (pushCapped RECEIVER_META_CAP queue (key, m)) (pushCapped SEEN_CAP seen key)
        { action := .forward, frame := frame.replaceData stripped
          slot := { slot with metaStep := some metaStep }, source }
      | none => { action := .forward, frame, slot, source }
    | none => { action := .forward, frame, slot, source }

/-- A frame the callback drops changes nothing. -/
theorem run_drop (source : σ) (prost : Prost) {slot : ComposedSlot} {answer : Answer}
    (frame : EncodedFrame) (hcaller : slot.caller = true) (hdrop : answer.action = .drop) :
    slot.run source prost answer frame =
      { action := .drop, frame := slot.called answer frame, slot, source } := by
  simp [run, hcaller, hdrop]

@[simp] theorem called_ssrc (slot : ComposedSlot) (answer : Answer) (frame : EncodedFrame) :
    (slot.called answer frame).ssrc = frame.ssrc := by
  unfold called
  split <;> rfl

@[simp] theorem called_timestamp (slot : ComposedSlot) (answer : Answer) (frame : EncodedFrame) :
    (slot.called answer frame).timestamp = frame.timestamp := by
  unfold called
  split <;> rfl

/-- Where there is no step, a frame that passes the callback stays as that left it. -/
theorem run_plain (source : σ) (prost : Prost) {slot : ComposedSlot} {answer : Answer}
    (frame : EncodedFrame) (hmeta : slot.metaStep = none)
    (hpass : ¬ (slot.caller = true ∧ answer.action = .drop)) :
    slot.run source prost answer frame =
      { action := .forward, frame := slot.called answer frame, slot, source } := by
  unfold run
  rw [if_neg hpass, hmeta]

/-- A frame to send that passes the callback: the source is asked, and what it has is put
behind the frame if the gate is open. -/
theorem run_embed (source : σ) (prost : Prost) {slot : ComposedSlot} {answer : Answer}
    (frame : EncodedFrame) {gate : Bool} (hmeta : slot.metaStep = some (.embed gate))
    (hpass : ¬ (slot.caller = true ∧ answer.action = .drop)) :
    slot.run source prost answer frame =
      { action := .forward
        frame :=
          match if gate then (SenderMetaSource.take source (slot.called answer frame)).1 else none with
          | some m =>
            (slot.called answer frame).replaceData
              ((slot.called answer frame).currentData ++ encodeTrailer prost m)
          | none => slot.called answer frame
        slot
        source := (SenderMetaSource.take source (slot.called answer frame)).2 } := by
  simp only [run, if_neg hpass, hmeta]
  cases gate with
  | false => rfl
  | true => cases (SenderMetaSource.take source (slot.called answer frame)).1 <;> rfl

/-- A received frame that passes the callback: its metadata is queued unless its key is among
the last ones seen. -/
theorem run_strip (source : σ) (prost : Prost) {slot : ComposedSlot} {answer : Answer}
    (frame : EncodedFrame) {queue : List (FrameKey × FrameMetadata)} {seen : List FrameKey}
    (hmeta : slot.metaStep = some (.strip queue seen))
    (hpass : ¬ (slot.caller = true ∧ answer.action = .drop)) {key : FrameKey}
    (hkey : key = { ssrc := frame.ssrc, rtpTimestamp := frame.timestamp }) :
    slot.run source prost answer frame =
      match decodeAndStripTrailer prost (slot.called answer frame).currentData with
      | some (m, stripped) =>
        { action := .forward
          frame := (slot.called answer frame).replaceData stripped
          slot := { slot with metaStep := some (MetaStep.stripped queue seen key m) }
          source }
      | none => { action := .forward, frame := slot.called answer frame, slot, source } := by
  unfold run
  rw [if_neg hpass, hmeta, hkey]
  simp only [called_ssrc, called_timestamp, MetaStep.stripped]

end ComposedSlot

end ReactorWebrtc
