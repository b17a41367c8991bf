/-
The structs that both languages declare.

The glue and the Rust side hand structs to each other through memory, and each side declares
them for itself.  The fields are laid out by the declaration that is compiled, so a value gets
across only if the two place its field alike.  Compilers check a few sizes and offsets, and
for most of the structs nothing at all.

`crosses` says that every field of every struct is read where it was written, whatever the
widths and alignments of the platform.  Two of the structs may grow at their end, and carry
their size for the glue to refuse one that is too short; `options_versions` says how far that
goes.

A declaration is a list of fields with their types, in the order of the source, once as the
header has it and once as `lib.rs` has it.  A type has a shape, which is its size and
alignment on a target; pointers and lengths have the target's, and so has the alignment of
wide numbers.  The layout rules are those of `Lib.Layout`, which knows nothing of these
structs.
-/
import ReactorWebrtc.Chunking.Frame
import ReactorWebrtc.Lib.Layout

namespace ReactorWebrtc.Interface

open Layout

/-- What differs between platforms: a pointer takes `2 ^ pointer` bytes, and numbers of eight
bytes lie at multiples of `2 ^ wide`. -/
structure Target where
  pointer : Nat
  wide : Nat
  deriving DecidableEq, Repr

/-- A value that means the same on both sides. -/
inductive Data
  | i8 | u8 | i32 | u32 | i64 | u64 | f64
  | chars (n : Nat)
  deriving DecidableEq, Repr

inductive FieldType
  | data (d : Data)
  | address
  | length
  deriving DecidableEq, Repr

def Data.shape (T : Target) : Data → Shape
  | .i8 | .u8 => ⟨1, 0⟩
  | .i32 | .u32 => ⟨4, 2⟩
  | .i64 | .u64 | .f64 => ⟨8, T.wide⟩
  | .chars n => ⟨n, 0⟩

def FieldType.shape (T : Target) : FieldType → Shape
  | .data d => d.shape T
  | .address | .length => ⟨2 ^ T.pointer, T.pointer⟩

/-- The types the glue declares fields with; pointers are of any kind, to functions too. -/
inductive CppType
  | int8 | uint8 | int32 | uint32 | int64 | uint64 | int | double | size | pointer
  | char (n : Nat)
  deriving DecidableEq, Repr

def CppType.type : CppType → FieldType
  | .int8 => .data .i8
  | .uint8 => .data .u8
  | .int32 | .int => .data .i32
  | .uint32 => .data .u32
  | .int64 => .data .i64
  | .uint64 => .data .u64
  | .double => .data .f64
  | .char n => .data (.chars n)
  | .size => .length
  | .pointer => .address

/-- The types of the Rust side; an optional function is a pointer that may be null. -/
inductive RustType
  | i8 | u8 | i32 | u32 | i64 | u64 | f64 | cInt | usize | pointer | optionFn
  | cChar (n : Nat)
  deriving DecidableEq, Repr

def RustType.type : RustType → FieldType
  | .i8 => .data .i8
  | .u8 => .data .u8
  | .i32 | .cInt => .data .i32
  | .u32 => .data .u32
  | .i64 => .data .i64
  | .u64 => .data .u64
  | .f64 => .data .f64
  | .cChar n => .data (.chars n)
  | .usize => .length
  | .pointer | .optionFn => .address

/-! ### The declarations

Each struct has its own namespace and its own type of fields, and both lists of its fields
are in the order in which the source declares them.
-/

namespace ReactorStatEntry

/-- One entry of a statistics report. -/
inductive Field
  | kind | ssrc | packetsReceived | packetsLost | nackCount | pliCount | firCount | pairState
  | streamKind | nominated | writable | localCandidateType | localRelayProtocol | frameWidth
  | frameHeight | framesDecoded | framesDropped | framesSent | bytesReceived | bytesSent
  | priority | packetsSent | retransmittedPacketsSent | pairPacketsReceived | jitter
  | totalDecodeTime | targetBitrate | roundTripTime | totalRoundTripTime | fractionLost
  | currentRoundTripTime | availableOutgoingBitrate | availableIncomingBitrate | framesPerSecond
  | mid | codecMimeType | jitterBufferDelay | jitterBufferTargetDelay | jitterBufferMinimumDelay
  | jitterBufferEmittedCount | totalEncodeTime | totalPacketSendDelay | totalProcessingDelay
  | framesEncoded | timingFrameRtpTimestamp | timingFramePresent | timingIsOutlier
  | timingIsTimerTriggered | timingCaptureMs | timingEncodeStartMs | timingEncodeFinishMs
  | timingPacketizationFinishMs | timingPacerExitMs | timingReceiveStartMs | timingReceiveFinishMs
  | timingDecodeStartMs | timingDecodeFinishMs | dataChannelId | dataChannelState | messagesSent
  | messagesReceived | dataChannelLabel | dataChannelLabelPresent | codecImplementation
  | powerEfficient | totalSamplesReceived | concealedSamples | silentConcealedSamples
  | concealmentEvents
  deriving DecidableEq, Repr

def cpp : List (Field × CppType) :=
  [(.kind, .int32), (.ssrc, .uint32), (.packetsReceived, .uint32), (.packetsLost, .int32),
   (.nackCount, .uint32), (.pliCount, .uint32), (.firCount, .uint32), (.pairState, .int32),
   (.streamKind, .int32), (.nominated, .int32), (.writable, .int32), (.localCandidateType, .int32),
   (.localRelayProtocol, .int32), (.frameWidth, .uint32), (.frameHeight, .uint32),
   (.framesDecoded, .uint32), (.framesDropped, .uint32), (.framesSent, .uint32),
   (.bytesReceived, .uint64), (.bytesSent, .uint64), (.priority, .uint64), (.packetsSent, .uint64),
   (.retransmittedPacketsSent, .uint64), (.pairPacketsReceived, .uint64), (.jitter, .double),
   (.totalDecodeTime, .double), (.targetBitrate, .double), (.roundTripTime, .double),
   (.totalRoundTripTime, .double), (.fractionLost, .double), (.currentRoundTripTime, .double),
   (.availableOutgoingBitrate, .double), (.availableIncomingBitrate, .double),
   (.framesPerSecond, .double), (.mid, .char 32), (.codecMimeType, .char 32),
   (.jitterBufferDelay, .double), (.jitterBufferTargetDelay, .double),
   (.jitterBufferMinimumDelay, .double), (.jitterBufferEmittedCount, .uint64),
   (.totalEncodeTime, .double), (.totalPacketSendDelay, .double), (.totalProcessingDelay, .double),
   (.framesEncoded, .uint32), (.timingFrameRtpTimestamp, .uint32), (.timingFramePresent, .uint8),
   (.timingIsOutlier, .uint8), (.timingIsTimerTriggered, .uint8), (.timingCaptureMs, .int64),
   (.timingEncodeStartMs, .int64), (.timingEncodeFinishMs, .int64),
   (.timingPacketizationFinishMs, .int64), (.timingPacerExitMs, .int64),
   (.timingReceiveStartMs, .int64), (.timingReceiveFinishMs, .int64),
   (.timingDecodeStartMs, .int64), (.timingDecodeFinishMs, .int64), (.dataChannelId, .int32),
   (.dataChannelState, .int32), (.messagesSent, .uint32), (.messagesReceived, .uint32),
   (.dataChannelLabel, .char 63), (.dataChannelLabelPresent, .uint8),
   (.codecImplementation, .char 128), (.powerEfficient, .int8), (.totalSamplesReceived, .uint64),
   (.concealedSamples, .uint64), (.silentConcealedSamples, .uint64), (.concealmentEvents, .uint64)]

def rust : List (Field × RustType) :=
  [(.kind, .i32), (.ssrc, .u32), (.packetsReceived, .u32), (.packetsLost, .i32),
   (.nackCount, .u32), (.pliCount, .u32), (.firCount, .u32), (.pairState, .i32),
   (.streamKind, .i32), (.nominated, .i32), (.writable, .i32), (.localCandidateType, .i32),
   (.localRelayProtocol, .i32), (.frameWidth, .u32), (.frameHeight, .u32), (.framesDecoded, .u32),
   (.framesDropped, .u32), (.framesSent, .u32), (.bytesReceived, .u64), (.bytesSent, .u64),
   (.priority, .u64), (.packetsSent, .u64), (.retransmittedPacketsSent, .u64),
   (.pairPacketsReceived, .u64), (.jitter, .f64), (.totalDecodeTime, .f64), (.targetBitrate, .f64),
   (.roundTripTime, .f64), (.totalRoundTripTime, .f64), (.fractionLost, .f64),
   (.currentRoundTripTime, .f64), (.availableOutgoingBitrate, .f64),
   (.availableIncomingBitrate, .f64), (.framesPerSecond, .f64), (.mid, .cChar 32),
   (.codecMimeType, .cChar 32), (.jitterBufferDelay, .f64), (.jitterBufferTargetDelay, .f64),
   (.jitterBufferMinimumDelay, .f64), (.jitterBufferEmittedCount, .u64), (.totalEncodeTime, .f64),
   (.totalPacketSendDelay, .f64), (.totalProcessingDelay, .f64), (.framesEncoded, .u32),
   (.timingFrameRtpTimestamp, .u32), (.timingFramePresent, .u8), (.timingIsOutlier, .u8),
   (.timingIsTimerTriggered, .u8), (.timingCaptureMs, .i64), (.timingEncodeStartMs, .i64),
   (.timingEncodeFinishMs, .i64), (.timingPacketizationFinishMs, .i64), (.timingPacerExitMs, .i64),
   (.timingReceiveStartMs, .i64), (.timingReceiveFinishMs, .i64), (.timingDecodeStartMs, .i64),
   (.timingDecodeFinishMs, .i64), (.dataChannelId, .i32), (.dataChannelState, .i32),
   (.messagesSent, .u32), (.messagesReceived, .u32), (.dataChannelLabel, .cChar 63),
   (.dataChannelLabelPresent, .u8), (.codecImplementation, .cChar 128), (.powerEfficient, .i8),
   (.totalSamplesReceived, .u64), (.concealedSamples, .u64), (.silentConcealedSamples, .u64),
   (.concealmentEvents, .u64)]

end ReactorStatEntry

namespace ReactorSctpMetrics

inductive Field
  | txPackets | txMessages | rtxPackets | rtxBytes | rxPackets | rxMessages | cwndBytes
  | unackData | srttMs | peerRwndBytes | usesMessageInterleaving
  deriving DecidableEq, Repr

def cpp : List (Field × CppType) :=
  [(.txPackets, .uint64), (.txMessages, .uint64), (.rtxPackets, .uint64), (.rtxBytes, .uint64),
   (.rxPackets, .uint64), (.rxMessages, .uint64), (.cwndBytes, .uint64), (.unackData, .uint64),
   (.srttMs, .int32), (.peerRwndBytes, .uint32), (.usesMessageInterleaving, .uint8)]

def rust : List (Field × RustType) :=
  [(.txPackets, .u64), (.txMessages, .u64), (.rtxPackets, .u64), (.rtxBytes, .u64),
   (.rxPackets, .u64), (.rxMessages, .u64), (.cwndBytes, .u64), (.unackData, .u64),
   (.srttMs, .i32), (.peerRwndBytes, .u32), (.usesMessageInterleaving, .u8)]

end ReactorSctpMetrics

namespace ReactorPcCallbacks

/-- `PeerConnectionCallbacks` on the Rust side. -/
inductive Field
  | userdata | onSignalingChange | onConnectionChange | onIceGatheringChange | onIceCandidate
  | onDataChannel | onRenegotiationNeeded | onTrack
  deriving DecidableEq, Repr

def cpp : List (Field × CppType) :=
  [(.userdata, .pointer), (.onSignalingChange, .pointer), (.onConnectionChange, .pointer),
   (.onIceGatheringChange, .pointer), (.onIceCandidate, .pointer), (.onDataChannel, .pointer),
   (.onRenegotiationNeeded, .pointer), (.onTrack, .pointer)]

def rust : List (Field × RustType) :=
  [(.userdata, .pointer), (.onSignalingChange, .optionFn), (.onConnectionChange, .optionFn),
   (.onIceGatheringChange, .optionFn), (.onIceCandidate, .optionFn), (.onDataChannel, .optionFn),
   (.onRenegotiationNeeded, .optionFn), (.onTrack, .optionFn)]

end ReactorPcCallbacks

namespace ReactorIceServer

inductive Field
  | urls | urlsLen | username | password
  deriving DecidableEq, Repr

def cpp : List (Field × CppType) :=
  [(.urls, .pointer), (.urlsLen, .size), (.username, .pointer), (.password, .pointer)]

def rust : List (Field × RustType) :=
  [(.urls, .pointer), (.urlsLen, .usize), (.username, .pointer), (.password, .pointer)]

end ReactorIceServer

namespace ReactorRtcConfig

inductive Field
  | servers | serversLen | iceTransportType | continualGatheringPolicy | minPort | maxPort
  | bundlePolicy | iceConnectionReceivingTimeoutMs | iceCheckIntervalStrongConnectivityMs
  | tcpCandidatePolicy | sctpSnap
  deriving DecidableEq, Repr

def cpp : List (Field × CppType) :=
  [(.servers, .pointer), (.serversLen, .size), (.iceTransportType, .int),
   (.continualGatheringPolicy, .int), (.minPort, .int), (.maxPort, .int), (.bundlePolicy, .int),
   (.iceConnectionReceivingTimeoutMs, .int), (.iceCheckIntervalStrongConnectivityMs, .int),
   (.tcpCandidatePolicy, .int), (.sctpSnap, .int)]

def rust : List (Field × RustType) :=
  [(.servers, .pointer), (.serversLen, .usize), (.iceTransportType, .cInt),
   (.continualGatheringPolicy, .cInt), (.minPort, .cInt), (.maxPort, .cInt),
   (.bundlePolicy, .cInt), (.iceConnectionReceivingTimeoutMs, .cInt),
   (.iceCheckIntervalStrongConnectivityMs, .cInt), (.tcpCandidatePolicy, .cInt), (.sctpSnap, .cInt)]

end ReactorRtcConfig

namespace ReactorEncodedFrame

inductive Field
  | direction | isAudio | isKeyFrame | payloadType | ssrc | timestamp | captureTimeMs | data
  | dataLen | mimeType | frame
  deriving DecidableEq, Repr

def cpp : List (Field × CppType) :=
  [(.direction, .int), (.isAudio, .int), (.isKeyFrame, .int), (.payloadType, .uint8),
   (.ssrc, .uint32), (.timestamp, .uint32), (.captureTimeMs, .int64), (.data, .pointer),
   (.dataLen, .size), (.mimeType, .pointer), (.frame, .pointer)]

def rust : List (Field × RustType) :=
  [(.direction, .cInt), (.isAudio, .cInt), (.isKeyFrame, .cInt), (.payloadType, .u8),
   (.ssrc, .u32), (.timestamp, .u32), (.captureTimeMs, .i64), (.data, .pointer),
   (.dataLen, .usize), (.mimeType, .pointer), (.frame, .pointer)]

end ReactorEncodedFrame

namespace ReactorRawVideoFrame

inductive Field
  | y | yStride | u | uStride | v | vStride | width | height | rtpTimestamp | requestKeyFrame
  | codec | encoderId
  deriving DecidableEq, Repr

def cpp : List (Field × CppType) :=
  [(.y, .pointer), (.yStride, .int), (.u, .pointer), (.uStride, .int), (.v, .pointer),
   (.vStride, .int), (.width, .uint32), (.height, .uint32), (.rtpTimestamp, .uint32),
   (.requestKeyFrame, .int), (.codec, .uint32), (.encoderId, .uint64)]

def rust : List (Field × RustType) :=
  [(.y, .pointer), (.yStride, .cInt), (.u, .pointer), (.uStride, .cInt), (.v, .pointer),
   (.vStride, .cInt), (.width, .u32), (.height, .u32), (.rtpTimestamp, .u32),
   (.requestKeyFrame, .cInt), (.codec, .u32), (.encoderId, .u64)]

end ReactorRawVideoFrame

namespace ReactorEncodedVideoOutput

inductive Field
  | data | len | isKeyFrame | width | height | rtpTimestamp | freeData
  deriving DecidableEq, Repr

def cpp : List (Field × CppType) :=
  [(.data, .pointer), (.len, .size), (.isKeyFrame, .int), (.width, .uint32), (.height, .uint32),
   (.rtpTimestamp, .uint32), (.freeData, .pointer)]

def rust : List (Field × RustType) :=
  [(.data, .pointer), (.len, .usize), (.isKeyFrame, .cInt), (.width, .u32), (.height, .u32),
   (.rtpTimestamp, .u32), (.freeData, .optionFn)]

end ReactorEncodedVideoOutput

namespace ReactorFactoryOptions

inductive Field
  | size | usePlatformAdm | apmFlags | openh264LibPath | encodeCb | encodeUserdata | encodeFreeUd
  | encodeUseBuiltin | encodeHasCustomSlots | encodeVideoBackendFor | encodeRateUpdate
  | dtlsInStun | sctpMaxBurst | sendPlayoutDelaySet | sendPlayoutDelayMinMs
  | sendPlayoutDelayMaxMs | recvPlayoutDelaySet | recvPlayoutDelayMinMs | recvPlayoutDelayMaxMs
  | sctpInitialCwndMtus | sctpMinCwndMtus | sctpRtoInitialMs | sctpRtoMinMs | sctpDelayedAckMaxMs
  | sctpImmediateSackUnderCwndMtus | senderTransformHoldMs
  deriving DecidableEq, Repr

def cpp : List (Field × CppType) :=
  [(.size, .uint32), (.usePlatformAdm, .int), (.apmFlags, .int), (.openh264LibPath, .pointer),
   (.encodeCb, .pointer), (.encodeUserdata, .pointer), (.encodeFreeUd, .pointer),
   (.encodeUseBuiltin, .pointer), (.encodeHasCustomSlots, .pointer),
   (.encodeVideoBackendFor, .pointer), (.encodeRateUpdate, .pointer), (.dtlsInStun, .int),
   (.sctpMaxBurst, .int), (.sendPlayoutDelaySet, .int), (.sendPlayoutDelayMinMs, .int),
   (.sendPlayoutDelayMaxMs, .int), (.recvPlayoutDelaySet, .int), (.recvPlayoutDelayMinMs, .int),
   (.recvPlayoutDelayMaxMs, .int), (.sctpInitialCwndMtus, .int), (.sctpMinCwndMtus, .int),
   (.sctpRtoInitialMs, .int), (.sctpRtoMinMs, .int), (.sctpDelayedAckMaxMs, .int),
   (.sctpImmediateSackUnderCwndMtus, .int), (.senderTransformHoldMs, .int)]

def rust : List (Field × RustType) :=
  [(.size, .u32), (.usePlatformAdm, .cInt), (.apmFlags, .cInt), (.openh264LibPath, .pointer),
   (.encodeCb, .optionFn), (.encodeUserdata, .pointer), (.encodeFreeUd, .optionFn),
   (.encodeUseBuiltin, .optionFn), (.encodeHasCustomSlots, .optionFn),
   (.encodeVideoBackendFor, .optionFn), (.encodeRateUpdate, .optionFn), (.dtlsInStun, .cInt),
   (.sctpMaxBurst, .cInt), (.sendPlayoutDelaySet, .cInt), (.sendPlayoutDelayMinMs, .cInt),
   (.sendPlayoutDelayMaxMs, .cInt), (.recvPlayoutDelaySet, .cInt), (.recvPlayoutDelayMinMs, .cInt),
   (.recvPlayoutDelayMaxMs, .cInt), (.sctpInitialCwndMtus, .cInt), (.sctpMinCwndMtus, .cInt),
   (.sctpRtoInitialMs, .cInt), (.sctpRtoMinMs, .cInt), (.sctpDelayedAckMaxMs, .cInt),
   (.sctpImmediateSackUnderCwndMtus, .cInt), (.senderTransformHoldMs, .cInt)]

end ReactorFactoryOptions

namespace ReactorAudioTrackOptions

inductive Field
  | size | source | echoCancellation | noiseSuppression | autoGainControl | highPassFilter
  deriving DecidableEq, Repr

def cpp : List (Field × CppType) :=
  [(.size, .uint32), (.source, .int), (.echoCancellation, .int), (.noiseSuppression, .int),
   (.autoGainControl, .int), (.highPassFilter, .int)]

def rust : List (Field × RustType) :=
  [(.size, .u32), (.source, .cInt), (.echoCancellation, .cInt), (.noiseSuppression, .cInt),
   (.autoGainControl, .cInt), (.highPassFilter, .cInt)]

end ReactorAudioTrackOptions

/-! ### All of them

The structs differ in their fields and in nothing else, so what follows is about any one of
them.
-/

inductive Mirror
  | statEntry | sctpMetrics | pcCallbacks | iceServer | rtcConfig | encodedFrame | rawVideoFrame
  | encodedVideoOutput | factoryOptions | audioTrackOptions
  deriving DecidableEq, Repr

namespace Mirror

def Field : Mirror → Type
  | statEntry => ReactorStatEntry.Field
  | sctpMetrics => ReactorSctpMetrics.Field
  | pcCallbacks => ReactorPcCallbacks.Field
  | iceServer => ReactorIceServer.Field
  | rtcConfig => ReactorRtcConfig.Field
  | encodedFrame => ReactorEncodedFrame.Field
  | rawVideoFrame => ReactorRawVideoFrame.Field
  | encodedVideoOutput => ReactorEncodedVideoOutput.Field
  | factoryOptions => ReactorFactoryOptions.Field
  | audioTrackOptions => ReactorAudioTrackOptions.Field

instance : (m : Mirror) → DecidableEq m.Field
  | statEntry => inferInstanceAs (DecidableEq ReactorStatEntry.Field)
  | sctpMetrics => inferInstanceAs (DecidableEq ReactorSctpMetrics.Field)
  | pcCallbacks => inferInstanceAs (DecidableEq ReactorPcCallbacks.Field)
  | iceServer => inferInstanceAs (DecidableEq ReactorIceServer.Field)
  | rtcConfig => inferInstanceAs (DecidableEq ReactorRtcConfig.Field)
  | encodedFrame => inferInstanceAs (DecidableEq ReactorEncodedFrame.Field)
  | rawVideoFrame => inferInstanceAs (DecidableEq ReactorRawVideoFrame.Field)
  | encodedVideoOutput => inferInstanceAs (DecidableEq ReactorEncodedVideoOutput.Field)
  | factoryOptions => inferInstanceAs (DecidableEq ReactorFactoryOptions.Field)
  | audioTrackOptions => inferInstanceAs (DecidableEq ReactorAudioTrackOptions.Field)

def cpp : (m : Mirror) → List (m.Field × CppType)
  | statEntry => ReactorStatEntry.cpp
  | sctpMetrics => ReactorSctpMetrics.cpp
  | pcCallbacks => ReactorPcCallbacks.cpp
  | iceServer => ReactorIceServer.cpp
  | rtcConfig => ReactorRtcConfig.cpp
  | encodedFrame => ReactorEncodedFrame.cpp
  | rawVideoFrame => ReactorRawVideoFrame.cpp
  | encodedVideoOutput => ReactorEncodedVideoOutput.cpp
  | factoryOptions => ReactorFactoryOptions.cpp
  | audioTrackOptions => ReactorAudioTrackOptions.cpp

def rust : (m : Mirror) → List (m.Field × RustType)
  | statEntry => ReactorStatEntry.rust
  | sctpMetrics => ReactorSctpMetrics.rust
  | pcCallbacks => ReactorPcCallbacks.rust
  | iceServer => ReactorIceServer.rust
  | rtcConfig => ReactorRtcConfig.rust
  | encodedFrame => ReactorEncodedFrame.rust
  | rawVideoFrame => ReactorRawVideoFrame.rust
  | encodedVideoOutput => ReactorEncodedVideoOutput.rust
  | factoryOptions => ReactorFactoryOptions.rust
  | audioTrackOptions => ReactorAudioTrackOptions.rust

variable (T : Target) (m : Mirror)

def cppDecl : Decl m.Field := m.cpp.map fun f => (f.1, f.2.type.shape T)

def rustDecl : Decl m.Field := m.rust.map fun f => (f.1, f.2.type.shape T)

/-- The bytes of every field are as many as its type has. -/
def Fits (value : m.Field → Bytes) : Prop :=
  ∀ f ∈ m.cpp, (value f.1).length = (f.2.type.shape T).size

/-- The declarations name the same fields in the same order, with types that mean the same. -/
theorem agree : m.rust.map (fun f => (f.1, f.2.type)) = m.cpp.map fun f => (f.1, f.2.type) := by
  cases m <;> rfl

theorem rustDecl_eq : m.rustDecl T = m.cppDecl T := by
  have hshape := congrArg (List.map fun f => (f.1, FieldType.shape T f.2)) m.agree
  rw [List.map_map, List.map_map] at hshape
  exact hshape

theorem declared (f : m.Field) : f ∈ m.cpp.map Prod.fst := by
  refine List.elem_iff.mp ?_
  cases m <;> cases f <;> rfl

variable {T m}

theorem Fits.places {value : m.Field → Bytes} (h : m.Fits T value) :
    ∀ p ∈ places 0 (m.cppDecl T), (value p.name).length = p.shape.size := by
  intro p hp
  obtain ⟨f, hf, hfp⟩ := List.mem_map.mp (exists_decl hp)
  obtain ⟨hname, hshape⟩ := Prod.mk.inj hfp
  rw [← hname, ← hshape]
  exact h f hf

/--
**What one side writes the other reads.**  Whatever structs there are in an array, of whatever
the two sides both declare and on whatever platform: each field of each of them is read on the
Rust side with the bytes the glue has written, and in the glue with the bytes the Rust side
has.
-/
theorem crosses {values : List (m.Field → Bytes)} {k : Nat} {value : m.Field → Bytes}
    (hfits : ∀ v ∈ values, m.Fits T v) (hk : values[k]? = some value) (base : Nat)
    (memory : Memory) (f : m.Field) :
    load (m.rustDecl T) base k (storeAll (m.cppDecl T) base values memory) f = some (value f) ∧
      load (m.cppDecl T) base k (storeAll (m.rustDecl T) base values memory) f =
        some (value f) := by
  obtain ⟨g, hg, rfl⟩ := List.mem_map.mp (m.declared f)
  have hmem : (g.1, g.2.type.shape T) ∈ m.cppDecl T :=
    List.mem_map_of_mem (f := fun f => (f.1, FieldType.shape T f.2.type)) hg
  rw [rustDecl_eq, and_self]
  exact load_storeAll (fun v hv => (hfits v hv).places) hk hmem

/-- The second of two servers on a platform with 64 bits. -/
theorem crosses_second :
    load (iceServer.rustDecl ⟨3, 3⟩) 16 1
      (storeAll (iceServer.cppDecl ⟨3, 3⟩) 16
        [fun _ => List.replicate 8 1, fun _ => List.replicate 8 2] fun _ => 0)
      ReactorIceServer.Field.username = some (List.replicate 8 2) :=
  (@crosses ⟨3, 3⟩ iceServer [fun _ => List.replicate 8 1, fun _ => List.replicate 8 2] 1 _
    (by
      intro v hv f hf
      have hwide : ∀ f ∈ ReactorIceServer.cpp, (f.2.type.shape ⟨3, 3⟩).size = 8 := by decide
      rw [hwide f hf]
      rcases List.mem_pair.mp hv with rfl | rfl <;> exact List.length_replicate)
    rfl 16 (fun _ => 0) ReactorIceServer.Field.username).1

/-! ### Structs that grow

A newer declaration has the older one's fields first, and so at the same places.  What it
may not do is put something in the middle.
-/

variable (T m) {η : Type*}

/-- The declaration with more fields at its end. -/
def grown (added : Decl η) : Decl (m.Field ⊕ η) :=
  (m.cppDecl T).map (Prod.map .inl id) ++ added.map (Prod.map .inr id)

/-- The structs with a `size` field, which the caller sets to that of its own declaration. -/
def sized : Mirror → Bool
  | factoryOptions | audioTrackOptions => true
  | _ => false

/-- What the glue was built with and what the caller was, each beyond the declaration here:
`opts->size < sizeof(..)` refuses. -/
def accepts (glue caller : Decl η) : Bool :=
  !(m.sized && decide (extent (m.grown T caller) < extent (m.grown T glue)))

variable {T m} in
theorem accepts_iff (hsized : m.sized = true) {glue caller : Decl η} :
    m.accepts T glue caller = true ↔ extent (m.grown T glue) ≤ extent (m.grown T caller) := by
  simp [accepts, hsized]

/--
**How far the size of a struct guards it.**  Of the options structs, which may only grow at their
end, a longer one is accepted, and every field the glue knows of is read with what the caller
has put there.  A shorter one is refused exactly when the fields it lacks need more than the
padding at its end; where it is accepted, what the glue takes for those fields is padding.
-/
theorem options_versions (hsized : m.sized = true) [DecidableEq η] (added : Decl η)
    (hpos : ∀ f ∈ added, 0 < f.2.size) (base : Nat) (memory : Memory) :
    (m.accepts T [] added = true ∧
      ∀ value : m.Field ⊕ η → Bytes,
        (∀ p ∈ places 0 (m.grown T added), (value p.name).length = p.shape.size) → ∀ f,
        load (m.grown T ([] : Decl η)) base 0 (storeAll (m.grown T added) base [value] memory)
          (.inl f) = some (value (.inl f))) ∧
      (m.accepts T added [] = false ↔
        extent (m.grown T ([] : Decl η)) < finish 0 (m.grown T added)) ∧
      (m.accepts T added [] = true →
        ∀ p ∈ places 0 (m.grown T added), ∀ f, p.name = .inr f →
          finish 0 (m.grown T ([] : Decl η)) ≤ p.offset ∧
            p.stop ≤ extent (m.grown T ([] : Decl η))) := by
  have hold : m.grown T ([] : Decl η) = (m.cppDecl T).map (Prod.map .inl id) := List.append_nil _
  have hgrown : m.grown T added =
      m.grown T ([] : Decl η) ++ added.map (Prod.map .inr id) := by rw [hold]; rfl
  have hpos' : ∀ f ∈ added.map (Prod.map (Sum.inr : η → m.Field ⊕ η) id), 0 < f.2.size := by
    intro f hf
    obtain ⟨g, hg, rfl⟩ := List.mem_map.mp hf
    exact hpos g hg
  have htold := extent_lt_append_iff (d := m.grown T ([] : Decl η)) hpos'
  rw [← hgrown] at htold
  refine ⟨⟨?_, fun value hsize f => ?_⟩, ?_, fun haccepts p hp f hname => ?_⟩
  · rw [accepts_iff hsized, hgrown]
    exact extent_le_append ..
  · obtain ⟨g, hg, rfl⟩ := List.mem_map.mp (m.declared f)
    have hmem : ((Sum.inl g.1, g.2.type.shape T) : (m.Field ⊕ η) × Shape) ∈
        m.grown T ([] : Decl η) := by
      rw [hold]
      exact List.mem_map.mpr ⟨(g.1, g.2.type.shape T), List.mem_map.mpr ⟨g, hg, rfl⟩, rfl⟩
    rw [hgrown] at hsize ⊢
    exact load_append hsize hmem
  · rw [← Bool.not_eq_true, accepts_iff hsized, Nat.not_le]
    exact htold
  · have hfits : finish 0 (m.grown T added) ≤ extent (m.grown T ([] : Decl η)) := by
      rw [← Nat.not_lt, ← htold, Nat.not_lt]
      exact (accepts_iff hsized).mp haccepts
    rw [hgrown, places_append] at hp
    rcases List.mem_append.mp hp with hp | hp
    · have hin := exists_decl hp
      rw [hold] at hin
      obtain ⟨g, -, hg⟩ := List.mem_map.mp hin
      cases (Prod.mk.inj hg).1.trans hname
    · obtain ⟨hlow, hhigh⟩ := bounds_of_mem hp
      rw [← finish_append, ← hgrown] at hhigh
      exact ⟨hlow, Nat.le_trans hhigh hfits⟩

/-- One more `int` is not told from padding with 64 bits: it fits behind the last option. -/
theorem options_versions_int : factoryOptions.accepts ⟨3, 3⟩ [((), ⟨4, 2⟩)] [] = true := by
  have hiff := (options_versions ⟨3, 3⟩ factoryOptions rfl [((), ⟨4, 2⟩)] (by decide) 0
    fun _ => 0).2.1
  rw [← Bool.not_eq_false, hiff]
  decide

end Mirror

end ReactorWebrtc.Interface
