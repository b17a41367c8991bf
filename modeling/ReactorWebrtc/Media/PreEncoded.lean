/-
A push onto a pre-encoded track, and what a failed one leaves.

The frame and its metadata are queued first, so that libwebrtc's encoder finds them.  Then
a raw frame of the track's geometry wakes it, which is a push as any other and may be
refused.  The pixels of that frame are allocated once, and their number is computed in 32
bits: it wraps here, as it does in a release build, and a build that checks it panics
before there is a track.

Whether the wake-up is refused does not depend on the frame that is pushed, so of a given
geometry either every push is refused, with its frame left in the queue, or none is
(`wake_ok_iff`).

The geometry is fixed when the track is built and the wake-up frame with it, so what is
known of one push is known of all of them: `leavesNothing_along_iff` is about runs and comes
down to the options.
-/
import ReactorWebrtc.Lib.Machine
import ReactorWebrtc.Media.VideoFrame
import ReactorWebrtc.Metadata.Pipeline

namespace ReactorWebrtc

/-- The geometry of a pre-encoded track. -/
structure PreEncodedOptions where
  width : UInt32
  height : UInt32
  deriving DecidableEq, Repr

/-- `VideoTrack::push_frame`, up to the native call. -/
def VideoFrame.push (frame : VideoFrame) (isRemote : Bool) : Except PushError Unit :=
  if isRemote then .error .remote else checkFrame frame

/-- A pre-encoded track with the frame that wakes its encoder. -/
structure PreEncodedTrack extends EncodedVideoTrack where
  dummy : Bytes
  width : UInt32
  height : UInt32
  deriving DecidableEq, Repr

namespace PreEncodedTrack

/-- `EncodedVideoTrack::new` -/
def create (metadataEnabled : Bool) (o : PreEncodedOptions) : PreEncodedTrack where
  metadataEnabled
  dummy := List.replicate (o.width * o.height * 4).toNat 0
  width := o.width
  height := o.height

/-- The push of the raw frame that wakes the encoder.  The track is a local one. -/
def wake (t : PreEncodedTrack) : Except PushError Unit :=
  ({ pixels := t.dummy, width := t.width, height := t.height } : VideoFrame).push false

/-- `EncodedVideoTrack::push_frame` -/
def pushFrame (t : PreEncodedTrack) (frame : EncodedVideoFrame) :
    Except PushError Unit × PreEncodedTrack :=
  let t := { t with queue := t.queue ++ [frame] }
  (t.wake, t)

/-- `EncodedVideoTrack::push_frame_with_metadata` -/
def pushFrameWithMetadata (t : PreEncodedTrack) (frame : EncodedVideoFrame) (userData : Bytes)
    (timeMicros : Int) : Except PushError Unit × PreEncodedTrack :=
  let t := { t with toEncodedVideoTrack := t.pushMeta userData timeMicros frame.push }
  let t := { t with queue := t.queue ++ [frame] }
  (t.wake, t)

/-- What the application does with the track, and what the encoder and the transform take.
-/
inductive Action
  /-- A call of `push_frame`, or of `push_frame_with_metadata`. -/
  | push (frame : EncodedVideoFrame) (userData : Option Bytes) (timeMicros : Int)
  /-- libwebrtc's encoder dequeues a frame. -/
  | encode
  /-- The sender's transform takes an entry. -/
  | take
  deriving DecidableEq, Repr

/-- Either of the two. -/
def push (t : PreEncodedTrack) (frame : EncodedVideoFrame) (userData : Option Bytes)
    (timeMicros : Int) : Except PushError Unit × PreEncodedTrack :=
  match userData with
  | none => t.pushFrame frame
  | some userData => t.pushFrameWithMetadata frame userData timeMicros

/-- From the moment at which the track is made. -/
def machine (metadataEnabled : Bool) (o : PreEncodedOptions) : Machine PreEncodedTrack Action where
  start := create metadataEnabled o
  step t
    | .push frame userData timeMicros => some (t.push frame userData timeMicros).2
    | .encode => some { t with queue := t.queue.tail }
    | .take => some { t with senderMetaFifo.entries := t.senderMetaFifo.entries.tail }

/-- A call that fails leaves both queues as they were. -/
def LeavesNothing (t : PreEncodedTrack) : Action → Prop
  | .push frame userData timeMicros =>
    (t.push frame userData timeMicros).1 = .ok () ∨
      (t.push frame userData timeMicros).2.queue = t.queue ∧
        (t.push frame userData timeMicros).2.senderMetaFifo = t.senderMetaFifo
  | .encode | .take => True

/-- The raw frame has a size, and its bytes are counted right. -/
def Wakes (o : PreEncodedOptions) : Prop :=
  o.width ≠ 0 ∧ o.height ≠ 0 ∧ o.width.toNat * o.height.toNat * 4 < 2 ^ 32

/-- It is one of the application's. -/
def Action.IsPush : Action → Prop
  | .push .. => True
  | .encode | .take => False

/-- As `create` made it, but for the queues. -/
structure Built (o : PreEncodedOptions) (t : PreEncodedTrack) : Prop where
  dummy : t.dummy = List.replicate (o.width * o.height * 4).toNat 0
  width : t.width = o.width
  height : t.height = o.height

variable {metadataEnabled : Bool} {o : PreEncodedOptions} {t : PreEncodedTrack}

theorem push_built (frame : EncodedVideoFrame) (userData : Option Bytes) (timeMicros : Int)
    (h : Built o t) : Built o (t.push frame userData timeMicros).2 := by
  cases userData with
  | none => exact ⟨h.dummy, h.width, h.height⟩
  | some userData => exact ⟨h.dummy, h.width, h.height⟩

theorem step_built {a : Action} {t' : PreEncodedTrack} (h : Built o t)
    (hstep : (machine metadataEnabled o).step t a = some t') : Built o t' := by
  cases a with
  | push frame userData timeMicros =>
      obtain rfl := Option.some.inj hstep
      exact push_built frame userData timeMicros h
  | encode =>
      obtain rfl := Option.some.inj hstep
      exact ⟨h.dummy, h.width, h.height⟩
  | take =>
      obtain rfl := Option.some.inj hstep
      exact ⟨h.dummy, h.width, h.height⟩

/-- The encoder is woken exactly if the geometry allows it. -/
theorem wake_ok_iff (h : Built o t) : t.wake = .ok () ↔ Wakes o := by
  have hwrap : (o.width * o.height * 4).toNat
      = o.width.toNat * o.height.toNat * 4 % 2 ^ 32 := by
    rw [UInt32.toNat_mul, UInt32.toNat_mul, Nat.mod_mul_mod]
    rfl
  unfold wake Wakes
  rw [VideoFrame.push, if_neg Bool.false_ne_true, checkFrame_ok, h.width, h.height,
    h.dummy, List.length_replicate, hwrap]
  refine and_congr_right fun _ => and_congr_right fun _ => ?_
  show o.width.toNat * o.height.toNat * 4 < 2 ^ 64 ∧ o.width.toNat * o.height.toNat * 4 ≤ _ ↔ _
  constructor
  · rintro ⟨-, hcovers⟩
    omega
  · intro hfits
    omega

/-- What a push answers does not depend on what is pushed. -/
theorem push_result (h : Built o t) (frame : EncodedVideoFrame) (userData : Option Bytes)
    (timeMicros : Int) : (t.push frame userData timeMicros).1 = .ok () ↔ Wakes o := by
  cases userData with
  | none => exact wake_ok_iff ⟨h.dummy, h.width, h.height⟩
  | some userData => exact wake_ok_iff ⟨h.dummy, h.width, h.height⟩

/-- A push queues its frame, whatever it answers. -/
theorem push_queue (t : PreEncodedTrack) (frame : EncodedVideoFrame) (userData : Option Bytes)
    (timeMicros : Int) : (t.push frame userData timeMicros).2.queue = t.queue ++ [frame] := by
  cases userData with
  | none => rfl
  | some userData =>
      obtain ⟨m, -, hpush⟩ := t.pushMeta_eq userData timeMicros frame.push
      show (t.pushMeta userData timeMicros frame.push).queue ++ [frame] = _
      rw [hpush]

theorem leavesNothing_iff (h : Built o t) (a : Action) :
    t.LeavesNothing a ↔ Wakes o ∨ ¬ a.IsPush := by
  cases a with
  | push frame userData timeMicros =>
      show (_ = _ ∨ _ = _ ∧ _) ↔ _
      rw [push_result h, push_queue]
      refine or_congr_right (iff_of_false (fun hsame => ?_) (not_not.mpr trivial))
      exact absurd hsame.1 (by simp)
  | encode => exact iff_of_true trivial (.inr id)
  | take => exact iff_of_true trivial (.inr id)

/--
**A failed push leaves nothing behind** in a run exactly if the geometry has a size whose
bytes fit in 32 bits, or nothing is pushed.
-/
theorem leavesNothing_along_iff (metadataEnabled : Bool) (o : PreEncodedOptions)
    (actions : List Action) :
    (machine metadataEnabled o).Guarded LeavesNothing (machine metadataEnabled o).start actions ↔
      Wakes o ∨ ∀ a ∈ actions, ¬ a.IsPush := by
  have htotal : ∀ t a, ∃ t', (machine metadataEnabled o).step t a = some t' := by
    intro t a
    cases a <;> exact ⟨_, rfl⟩
  obtain ⟨t, hrun⟩ := (machine metadataEnabled o).run_total htotal
    (machine metadataEnabled o).start actions
  rw [Machine.guarded_iff_forall (fun _ _ _ => step_built) (fun _ a h => leavesNothing_iff h a)
    ⟨rfl, rfl, rfl⟩ hrun]
  constructor
  · intro h
    by_cases hwakes : Wakes o
    · exact .inl hwakes
    · exact .inr fun a ha => (h a ha).resolve_left hwakes
  · rintro (hwakes | hquiet) a ha
    · exact .inl hwakes
    · exact .inr (hquiet a ha)

/-- On a track without a size the push fails and the frame stays. -/
theorem failed_push_leaves_frame :
    ¬ (machine true { width := 0, height := 0 }).Guarded LeavesNothing
      (machine true { width := 0, height := 0 }).start
      [.push { data := [1], push := 0 } (some [2]) 5] := by
  rintro ⟨hok | ⟨hqueue, -⟩, -⟩
  · cases hok
  · cases hqueue

/-- A geometry that has a size fails too when its bytes come to `2 ^ 32`. -/
example : ¬ Wakes { width := 32768, height := 32768 } := fun h => absurd h.2.2 (by decide)

end PreEncodedTrack

end ReactorWebrtc
