/-
A pre-encoded track and its way to the wire.

`push_frame_with_metadata` puts the metadata of a frame in one queue and the frame in
another; libwebrtc's encoder takes the frames out one by one, and each passes through the
sender's `ComposedSlot`, which takes the metadata.  Nothing but the order ties the two
queues together.  A push is two steps, the metadata and the frame, and the encoder may
hold any number of frames between taking them and passing them on.

Two pushes do not overlap: one that has put its metadata in puts its frame in before another
begins.  The source takes the two locks one after the other, so pushes from two threads could
cross there, and frames and metadata would then be queued in different orders; a track whose
frames have an order to be in is pushed on by one thread at a time.

The numbers of the pushes, what was pushed, and what `Sent` records beside the bytes are
not the code's.
-/
import ReactorWebrtc.Lib.Machine
import ReactorWebrtc.Metadata.Slot

namespace ReactorWebrtc

/-- A pre-encoded frame, and the number of its push. -/
structure EncodedVideoFrame where
  data : Bytes
  push : Nat
  deriving DecidableEq, Repr

/-- The metadata of one frame, and the number of its push. -/
structure QueuedMeta where
  metadata : FrameMetadata
  push : Nat
  deriving DecidableEq, Repr

/-- A pre-encoded track's outgoing metadata, in push order. -/
structure FifoMeta where
  entries : List QueuedMeta := []
  deriving DecidableEq, Repr

instance : SenderMetaSource FifoMeta where
  take fifo _ := (fifo.entries.head?.map (·.metadata), { fifo with entries := fifo.entries.tail })

/-- The entry that is gone from the queue. -/
def FifoMeta.takenBy (before after : FifoMeta) : Option QueuedMeta :=
  if after = before then none else before.entries.head?

@[simp] theorem FifoMeta.takenBy_tail (fifo : FifoMeta) :
    fifo.takenBy { fifo with entries := fifo.entries.tail } = fifo.entries.head? := by
  obtain ⟨entries⟩ := fifo
  unfold takenBy
  cases entries with
  | nil => rfl
  | cons entry rest => simp

structure EncodedVideoTrack where
  frameCounter : UInt64 := 0
  metadataEnabled : Bool := true
  queue : List EncodedVideoFrame := []
  senderMetaFifo : FifoMeta := {}
  deriving DecidableEq, Repr

namespace EncodedVideoTrack

/-- `frame_counter.fetch_add(1)`, and 1 in place of the 0 that stands for unset. -/
def nextFrameId (t : EncodedVideoTrack) : UInt64 × EncodedVideoTrack :=
  let raw := t.frameCounter
  (if raw.toNat = 2 ^ 64 - 1 then 1 else raw + 1, { t with frameCounter := raw + 1 })

/-- What `push_frame_with_metadata` does before it queues the frame. -/
def pushMeta (t : EncodedVideoTrack) (userData : Bytes) (timeMicros : Int) (push : Nat) :
    EncodedVideoTrack :=
  let (frameId, t) := t.nextFrameId
  let metadata := { frameId, captureTimeUs := UInt64.ofNat timeMicros.toNat, userData }
  if t.metadataEnabled then
    { t with senderMetaFifo.entries := t.senderMetaFifo.entries ++ [{ metadata, push }] }
  else t

theorem pushMeta_eq (t : EncodedVideoTrack) (userData : Bytes) (timeMicros : Int) (push : Nat) :
    ∃ m : FrameMetadata, m.userData = userData ∧
      t.pushMeta userData timeMicros push = { t with
        frameCounter := t.frameCounter + 1
        senderMetaFifo.entries :=
          if t.metadataEnabled then t.senderMetaFifo.entries ++ [{ metadata := m, push }]
          else t.senderMetaFifo.entries } := by
  refine ⟨{ frameId := t.nextFrameId.1, captureTimeUs := UInt64.ofNat timeMicros.toNat, userData },
    rfl, ?_⟩
  obtain ⟨counter, enabled, queue, fifo⟩ := t
  cases enabled <;> rfl

end EncodedVideoTrack

/-- A frame that was passed on to the packetizer. -/
structure Sent where
  push : Nat
  bytes : Bytes
  /-- The payload as the callback left it, and the metadata that was taken for it. -/
  payload : Bytes
  taken : Option QueuedMeta
  deriving DecidableEq, Repr

structure Pipeline where
  track : EncodedVideoTrack := {}
  /-- The frame a push has still to queue. -/
  entering : Option EncodedVideoFrame := none
  /-- The frames that libwebrtc's encoder has taken and not passed on. -/
  encoder : List EncodedVideoFrame := []
  slot : ComposedSlot
  sent : List Sent := []
  dropped : Nat := 0
  /-- The user data of each push, if it came with any. -/
  pushes : List (Option Bytes) := []
  deriving DecidableEq, Repr

namespace Pipeline

inductive Action
  /-- A call of `push_frame_with_metadata`, or of `push_frame`, up to the queueing. -/
  | push (data : Bytes) (userData : Option Bytes) (timeMicros : Int)
  | enqueue
  /-- `encode_for` on a pre-encoded slot. -/
  | encode
  /-- The next frame passes through the slot. -/
  | transform (ssrc timestamp : UInt32) (answer : Answer)
  deriving DecidableEq, Repr

variable (prost : Prost)

def step (s : Pipeline) : Action → Option Pipeline
  | .push data userData timeMicros =>
    match s.entering with
    | some _ => none
    | none =>
      let push := s.pushes.length
      some { s with
        track :=
          match userData with
          | some userData => s.track.pushMeta userData timeMicros push
          | none => s.track
        entering := some { data, push }
        pushes := s.pushes ++ [userData] }
  | .enqueue =>
    match s.entering with
    | some frame =>
      some { s with track.queue := s.track.queue ++ [frame], entering := none }
    | none => none
  | .encode =>
    match s.track.queue with
    | frame :: queue =>
      some { s with track.queue := queue, encoder := s.encoder ++ [frame] }
    | [] => none
  | .transform ssrc timestamp answer =>
    match s.encoder with
    | next :: encoder =>
      let frame := { ssrc, timestamp, currentData := next.data }
      let out := s.slot.run s.track.senderMetaFifo prost answer frame
      let passed := { s with track.senderMetaFifo := out.source, encoder, slot := out.slot }
      match out.action with
      | .drop => some { passed with dropped := s.dropped + 1 }
      | .forward =>
        let sent := {
          push := next.push
          bytes := out.frame.currentData
          payload := (s.slot.called answer frame).currentData
          taken := s.track.senderMetaFifo.takenBy out.source }
        some { passed with sent := s.sent ++ [sent] }
    | [] => none

/-- A track whose sender has this slot. -/
def machine (slot : ComposedSlot) : Machine Pipeline Action where
  start := { slot }
  step := step prost

end Pipeline

end ReactorWebrtc
