/-
A statistics report, from libwebrtc's objects to the one the application reads.

The glue's entries lie in an array, which the Rust side reads through its own declaration and
sorts into four lists.  `RtcStatsReport.view` says what the report means, value by value,
without entries, buffers or codes for what is unknown: it is what an application may rely on.
`reported_exactly` says that this is what arrives.

Between the two views lie four things, and each has its section: the array in memory, which
both sides lay out for themselves; strings in fixed buffers; codes, where every code that is
written is one that is read; and zeroes that stand for what is unknown.
-/
import ReactorWebrtc.Channel.Decision
import ReactorWebrtc.Stats.Entry

namespace ReactorWebrtc.Stats

open Interface Interface.ReactorStatEntry

variable {F : Type} [Zero F]

/-! ### What the Rust side reads

The structs that the application sees, and what each is read from.
-/

/-- `IceCandidatePairState` -/
inductive IceCandidatePairState
  | waiting | inProgress | failed | succeeded | cancelled
  deriving DecidableEq, Repr

/-- What is not known is waiting. -/
def IceCandidatePairState.fromRaw (v : Int32) : IceCandidatePairState :=
  if v = 1 then inProgress
  else if v = 2 then failed
  else if v = 3 then succeeded
  else if v = 4 then cancelled
  else waiting

/-- `StreamKind` -/
inductive StreamKind
  | unknown | audio | video
  deriving DecidableEq, Repr

/-- What is neither is unknown. -/
def StreamKind.fromRaw (v : Int32) : StreamKind :=
  if v = 0 then audio
  else if v = 1 then video
  else unknown

/-- `IceCandidateType` -/
inductive IceCandidateType
  | unknown | host | srflx | prflx | relay
  deriving DecidableEq, Repr

/-- What is none of them is unknown. -/
def IceCandidateType.fromRaw (v : Int32) : IceCandidateType :=
  if v = 0 then host
  else if v = 1 then srflx
  else if v = 2 then prflx
  else if v = 3 then relay
  else unknown

/-- `RelayProtocol` -/
inductive RelayProtocol
  | notRelayed | udp | tcp | tls
  deriving DecidableEq, Repr

/-- What is none of them is unknown. -/
def RelayProtocol.fromRaw (v : Int32) : RelayProtocol :=
  if v = 0 then udp
  else if v = 1 then tcp
  else if v = 2 then tls
  else notRelayed

/-- `DataChannelState::from_raw` -/
def dataChannelStateFromRaw (v : Int32) : DataChannelState :=
  if v = 0 then .connecting
  else if v = 1 then .opened
  else if v = 2 then .closing
  else .closed

/-- `TimingFrameInfo`, the stamps of the two sides beside each other. -/
structure TimingFrameInfo where
  rtpTimestamp : UInt32
  isOutlier : Bool
  isTimerTriggered : Bool
  captureMs : Int64
  encodeStartMs : Int64
  encodeFinishMs : Int64
  packetizationFinishMs : Int64
  pacerExitMs : Int64
  receiveStartMs : Int64
  receiveFinishMs : Int64
  decodeStartMs : Int64
  decodeFinishMs : Int64
  deriving DecidableEq, Repr

/-- A stream that is received. -/
structure InboundRtpStats (F : Type) where
  ssrc : UInt32
  kind : StreamKind
  mid : Option Bytes
  codecMimeType : Option Bytes
  packetsReceived : UInt32
  bytesReceived : UInt64
  jitterS : F
  packetsLost : Int32
  nackCount : UInt32
  pliCount : UInt32
  firCount : UInt32
  totalDecodeTimeS : F
  framesPerSecond : F
  framesDecoded : UInt32
  framesDropped : UInt32
  frameWidth : UInt32
  frameHeight : UInt32
  jitterBufferDelayS : F
  jitterBufferTargetDelayS : F
  jitterBufferMinimumDelayS : F
  jitterBufferEmittedCount : UInt64
  totalProcessingDelayS : F
  timingFrame : Option TimingFrameInfo
  decoderImplementation : Option Bytes
  powerEfficientDecoder : Option Bool
  totalSamplesReceived : UInt64
  concealedSamples : UInt64
  silentConcealedSamples : UInt64
  concealmentEvents : UInt64

/-- A stream that is sent, with what the receiver reports of it. -/
structure OutboundRtpStats (F : Type) where
  ssrc : UInt32
  kind : StreamKind
  mid : Option Bytes
  codecMimeType : Option Bytes
  packetsSent : UInt64
  bytesSent : UInt64
  targetBitrateBps : F
  roundTripTimeS : F
  totalRoundTripTimeS : F
  fractionLost : F
  packetsLost : Int32
  jitterS : F
  retransmittedPacketsSent : UInt64
  nackCount : UInt32
  pliCount : UInt32
  firCount : UInt32
  framesPerSecond : F
  framesSent : UInt32
  frameWidth : UInt32
  frameHeight : UInt32
  framesEncoded : UInt32
  totalEncodeTimeS : F
  totalPacketSendDelayS : F
  encoderImplementation : Option Bytes
  powerEfficientEncoder : Option Bool

/-- A candidate pair, with what is known of its local candidate. -/
structure IceCandidatePairStats (F : Type) where
  currentRoundTripTimeS : F
  totalRoundTripTimeS : F
  priority : UInt64
  state : IceCandidatePairState
  nominated : Bool
  writable : Bool
  availableOutgoingBitrateBps : F
  availableIncomingBitrateBps : F
  bytesSent : UInt64
  bytesReceived : UInt64
  packetsSent : UInt64
  packetsReceived : UInt64
  localCandidateType : IceCandidateType
  localRelayProtocol : RelayProtocol

/-- A data channel. -/
structure DataChannelStats where
  label : Option Bytes
  id : Option UInt16
  state : DataChannelState
  messagesSent : UInt32
  bytesSent : UInt64
  messagesReceived : UInt32
  bytesReceived : UInt64
  deriving DecidableEq

/-- `StatsReport`; the SCTP association is asked for on its own. -/
@[ext]
structure StatsReport (F : Type) where
  inboundRtp : List (InboundRtpStats F) := []
  outboundRtp : List (OutboundRtpStats F) := []
  candidatePairs : List (IceCandidatePairStats F) := []
  dataChannels : List DataChannelStats := []

/-- `stat_str` of the reader. -/
def statStr (buf : Bytes) : Option Bytes :=
  let bytes := buf.takeWhile (· ≠ 0)
  if bytes = [] then none else some (Utf8.fromUtf8Lossy bytes)

/-- A negative number is for unknown. -/
def powerEfficient (v : Int8) : Option Bool := if 0 ≤ v then some (v = 1) else none

/-- `u16::try_from` -/
def toUInt16 (v : Int32) : Option UInt16 :=
  if 0 ≤ v.toInt ∧ v.toInt < 2 ^ 16 then some (UInt16.ofNat v.toInt.toNat) else none

/-- A flag of the entry, in a byte or in an `int`. -/
def isSet (v : UInt8) : Bool := decide (v ≠ 0)

/-- The same, in an `int`. -/
def isSetInt (v : Int32) : Bool := decide (v ≠ 0)

/-- A label that is there may be empty, and one that is not there is blank too. -/
def dataChannelLabel (e : Entry F) : Option Bytes :=
  if isSet (e .dataChannelLabelPresent) then
    some ((statStr (e .dataChannelLabel).1).getD [])
  else none

/-- What the parser took, if it took anything. -/
def readTimingFrame (e : Entry F) : Option TimingFrameInfo :=
  if isSet (e .timingFramePresent) then
    some
      { rtpTimestamp := e .timingFrameRtpTimestamp
        isOutlier := isSet (e .timingIsOutlier)
        isTimerTriggered := isSet (e .timingIsTimerTriggered)
        captureMs := e .timingCaptureMs
        encodeStartMs := e .timingEncodeStartMs
        encodeFinishMs := e .timingEncodeFinishMs
        packetizationFinishMs := e .timingPacketizationFinishMs
        pacerExitMs := e .timingPacerExitMs
        receiveStartMs := e .timingReceiveStartMs
        receiveFinishMs := e .timingReceiveFinishMs
        decodeStartMs := e .timingDecodeStartMs
        decodeFinishMs := e .timingDecodeFinishMs }
  else none

/-- What is made of an entry of that kind. -/
def readInboundRtp (e : Entry F) : InboundRtpStats F where
  ssrc := e .ssrc
  kind := .fromRaw (e .streamKind)
  mid := statStr (e .mid).1
  codecMimeType := statStr (e .codecMimeType).1
  packetsReceived := e .packetsReceived
  bytesReceived := e .bytesReceived
  jitterS := e .jitter
  packetsLost := e .packetsLost
  nackCount := e .nackCount
  pliCount := e .pliCount
  firCount := e .firCount
  totalDecodeTimeS := e .totalDecodeTime
  framesPerSecond := e .framesPerSecond
  framesDecoded := e .framesDecoded
  framesDropped := e .framesDropped
  frameWidth := e .frameWidth
  frameHeight := e .frameHeight
  jitterBufferDelayS := e .jitterBufferDelay
  jitterBufferTargetDelayS := e .jitterBufferTargetDelay
  jitterBufferMinimumDelayS := e .jitterBufferMinimumDelay
  jitterBufferEmittedCount := e .jitterBufferEmittedCount
  totalProcessingDelayS := e .totalProcessingDelay
  timingFrame := readTimingFrame e
  decoderImplementation := statStrPrefix (e .codecImplementation).1
  powerEfficientDecoder := powerEfficient (e .powerEfficient)
  totalSamplesReceived := e .totalSamplesReceived
  concealedSamples := e .concealedSamples
  silentConcealedSamples := e .silentConcealedSamples
  concealmentEvents := e .concealmentEvents

/-- What is made of an entry of that kind. -/
def readOutboundRtp (e : Entry F) : OutboundRtpStats F where
  ssrc := e .ssrc
  kind := .fromRaw (e .streamKind)
  mid := statStr (e .mid).1
  codecMimeType := statStr (e .codecMimeType).1
  packetsSent := e .packetsSent
  bytesSent := e .bytesSent
  targetBitrateBps := e .targetBitrate
  roundTripTimeS := e .roundTripTime
  totalRoundTripTimeS := e .totalRoundTripTime
  fractionLost := e .fractionLost
  packetsLost := e .packetsLost
  jitterS := e .jitter
  retransmittedPacketsSent := e .retransmittedPacketsSent
  nackCount := e .nackCount
  pliCount := e .pliCount
  firCount := e .firCount
  framesPerSecond := e .framesPerSecond
  framesSent := e .framesSent
  frameWidth := e .frameWidth
  frameHeight := e .frameHeight
  framesEncoded := e .framesEncoded
  totalEncodeTimeS := e .totalEncodeTime
  totalPacketSendDelayS := e .totalPacketSendDelay
  encoderImplementation := statStrPrefix (e .codecImplementation).1
  powerEfficientEncoder := powerEfficient (e .powerEfficient)

/-- What is made of an entry of that kind. -/
def readCandidatePair (e : Entry F) : IceCandidatePairStats F where
  currentRoundTripTimeS := e .currentRoundTripTime
  totalRoundTripTimeS := e .totalRoundTripTime
  priority := e .priority
  state := .fromRaw (e .pairState)
  nominated := isSetInt (e .nominated)
  writable := isSetInt (e .writable)
  availableOutgoingBitrateBps := e .availableOutgoingBitrate
  availableIncomingBitrateBps := e .availableIncomingBitrate
  bytesSent := e .bytesSent
  bytesReceived := e .bytesReceived
  packetsSent := e .packetsSent
  packetsReceived := e .pairPacketsReceived
  localCandidateType := .fromRaw (e .localCandidateType)
  localRelayProtocol := .fromRaw (e .localRelayProtocol)

/-- What is made of an entry of that kind. -/
def readDataChannel (e : Entry F) : DataChannelStats where
  label := dataChannelLabel e
  id := toUInt16 (e .dataChannelId)
  state := dataChannelStateFromRaw (e .dataChannelState)
  messagesSent := e .messagesSent
  bytesSent := e .bytesSent
  messagesReceived := e .messagesReceived
  bytesReceived := e .bytesReceived

/-- One turn of the loop of `stats_cb`, by the entry's kind. -/
def push (report : StatsReport F) (e : Entry F) : StatsReport F :=
  let kind : Int32 := e .kind
  if kind = 0 then { report with inboundRtp := report.inboundRtp ++ [readInboundRtp e] }
  else if kind = 1 then { report with outboundRtp := report.outboundRtp ++ [readOutboundRtp e] }
  else if kind = 2 then
    { report with candidatePairs := report.candidatePairs ++ [readCandidatePair e] }
  else if kind = 3 then { report with dataChannels := report.dataChannels ++ [readDataChannel e] }
  else report

/-- `stats_cb`, on the slice it makes of the array. -/
def statsCb (slice : List (Entry F)) : StatsReport F := slice.foldl push {}

/-! ### The array between them

The glue hands over a pointer and a count.  The count crosses as an `int` in the source, so
what is said of `slice` is for reports of fewer than `2 ^ 31` entries.
-/

/-- How values lie in memory, the same for both languages. -/
structure Representation (F : Type) where
  bytes : (d : Data) → Val F d → Bytes
  value : (d : Data) → Bytes → Val F d
  length_bytes : ∀ T d v, (bytes d v).length = (d.shape T).size
  value_bytes : ∀ d v, value d (bytes d v) = v

/-- A number in so many bytes, the lowest first. -/
def lowFirst : Nat → Nat → Bytes
  | 0, _ => []
  | n + 1, v => UInt8.ofNat v :: lowFirst n (v / 256)

/-- The number in the bytes, the lowest first. -/
def ofLowFirst : Bytes → Nat
  | [] => 0
  | b :: bs => b.toNat + 256 * ofLowFirst bs

theorem length_lowFirst (n v : Nat) : (lowFirst n v).length = n := by
  induction n generalizing v with
  | zero => rfl
  | succ n ih => rw [lowFirst, List.length_cons, ih]

theorem ofLowFirst_lowFirst {n v : Nat} (h : v < 256 ^ n) : ofLowFirst (lowFirst n v) = v := by
  induction n generalizing v with
  | zero =>
      rw [Nat.pow_zero] at h
      rw [lowFirst, ofLowFirst]
      omega
  | succ n ih =>
      have hrest : v / 256 < 256 ^ n := by
        rw [Nat.pow_succ] at h
        omega
      have hbyte : (UInt8.ofNat v).toNat = v % 256 := UInt8.toNat_ofNat'
      rw [lowFirst, ofLowFirst, ih hrest, hbyte]
      omega

/-- Little-endian, a `double` by its bits. -/
def Representation.littleEndian : Representation UInt64 where
  bytes
    | .i8, v => lowFirst 1 (Int8.toUInt8 v).toNat
    | .u8, v => lowFirst 1 (UInt8.toNat v)
    | .i32, v => lowFirst 4 (Int32.toUInt32 v).toNat
    | .u32, v => lowFirst 4 (UInt32.toNat v)
    | .i64, v => lowFirst 8 (Int64.toUInt64 v).toNat
    | .u64, v => lowFirst 8 (UInt64.toNat v)
    | .f64, v => lowFirst 8 (UInt64.toNat v)
    | .chars _, v => v.1
  value
    | .i8, b => (UInt8.ofNat (ofLowFirst b)).toInt8
    | .u8, b => UInt8.ofNat (ofLowFirst b)
    | .i32, b => (UInt32.ofNat (ofLowFirst b)).toInt32
    | .u32, b => UInt32.ofNat (ofLowFirst b)
    | .i64, b => (UInt64.ofNat (ofLowFirst b)).toInt64
    | .u64, b => UInt64.ofNat (ofLowFirst b)
    | .f64, b => UInt64.ofNat (ofLowFirst b)
    | .chars n, b => ⟨b.takeD n 0, List.takeD_length n b 0⟩
  length_bytes := by
    rintro T (_ | _ | _ | _ | _ | _ | _ | n) v
    case chars => exact v.2
    all_goals exact length_lowFirst _ _
  value_bytes := by
    have h8 (v : UInt8) : UInt8.ofNat (ofLowFirst (lowFirst 1 v.toNat)) = v := by
      rw [ofLowFirst_lowFirst v.toNat_lt, UInt8.ofNat_toNat]
    have h32 (v : UInt32) : UInt32.ofNat (ofLowFirst (lowFirst 4 v.toNat)) = v := by
      rw [ofLowFirst_lowFirst v.toNat_lt, UInt32.ofNat_toNat]
    have h64 (v : UInt64) : UInt64.ofNat (ofLowFirst (lowFirst 8 v.toNat)) = v := by
      rw [ofLowFirst_lowFirst v.toNat_lt, UInt64.ofNat_toNat]
    intro d v
    cases d with
    | i8 => exact congrArg UInt8.toInt8 (h8 _)
    | u8 => exact h8 v
    | i32 => exact congrArg UInt32.toInt32 (h32 _)
    | u32 => exact h32 v
    | i64 => exact congrArg UInt64.toInt64 (h64 _)
    | u64 => exact h64 v
    | f64 => exact h64 v
    | chars n =>
        refine Subtype.ext ?_
        show List.takeD n v.1 0 = v.1
        rw [List.takeD_eq_take 0 (Nat.le_of_eq v.2.symm), List.take_of_length_le (Nat.le_of_eq v.2)]

variable (R : Representation F) (T : Target) (base : Nat)

omit [Zero F] in
/-- What a field of the entry is in memory. -/
def Entry.bytes (e : Entry F) : Mirror.statEntry.Field → Bytes := fun f =>
  R.bytes (Field.data f) (e f)

/-- The entries as the glue's `std::vector` has them. -/
def written (entries : List (Entry F)) (memory : Layout.Memory) : Layout.Memory :=
  Layout.storeAll (Mirror.statEntry.cppDecl T) base (entries.map (Entry.bytes R)) memory

/-- The entry at that place, as the Rust declaration has its fields. -/
def readEntry (memory : Layout.Memory) (k : Nat) : Entry F := fun f =>
  R.value (Field.data f) ((Layout.load (Mirror.statEntry.rustDecl T) base k memory f).getD [])

/-- The slice that `stats_cb` makes of pointer and count. -/
def slice (count : Nat) (memory : Layout.Memory) : List (Entry F) :=
  (List.range count).map (readEntry R T base memory)

/-- What arrives of a report. -/
def delivered (report : RtcStatsReport F) (memory : Layout.Memory) : StatsReport F :=
  statsCb (slice R T base (onStatsDelivered report).length
    (written R T base (onStatsDelivered report) memory))

/-! ### What a report means

No entry, no buffer and no code: libwebrtc's report on one side, the application's on the
other.
-/

/-- A string that is told from others by its text: whole, or not at all. -/
def whole (n : Nat) (m : Option Bytes) : Option Bytes :=
  m.bind fun s => if s.length < n then statStr s else none

/-- A string that is only shown: as much of it as there is room for. -/
def shortened (n : Nat) (m : Option Bytes) : Option Bytes :=
  m.bind fun s => statStrPrefix (s.take n)

/-- The kind by the name that libwebrtc gives it. -/
def StreamKind.named (m : Option Bytes) : StreamKind :=
  if m = some (bytesOf "audio") then audio
  else if m = some (bytesOf "video") then video
  else unknown

/-- The state by its name. -/
def IceCandidatePairState.named (m : Option Bytes) : IceCandidatePairState :=
  if m = some (bytesOf "in-progress") then inProgress
  else if m = some (bytesOf "failed") then failed
  else if m = some (bytesOf "succeeded") then succeeded
  else if m = some (bytesOf "cancelled") then cancelled
  else waiting

/-- The type by its name. -/
def IceCandidateType.named (m : Option Bytes) : IceCandidateType :=
  if m = some (bytesOf "host") then host
  else if m = some (bytesOf "srflx") then srflx
  else if m = some (bytesOf "prflx") then prflx
  else if m = some (bytesOf "relay") then relay
  else unknown

/-- The protocol by its name. -/
def RelayProtocol.named (m : Option Bytes) : RelayProtocol :=
  if m = some (bytesOf "udp") then udp
  else if m = some (bytesOf "tcp") then tcp
  else if m = some (bytesOf "tls") then tls
  else notRelayed

/-- The state by its name. -/
def dataChannelStateNamed (m : Option Bytes) : DataChannelState :=
  if m = some (bytesOf "connecting") then .connecting
  else if m = some (bytesOf "open") then .opened
  else if m = some (bytesOf "closing") then .closing
  else .closed

/-- A timing frame's text, where it has its fifteen columns. -/
def TimingFrameInfo.ofText (s : Text) : Option TimingFrameInfo :=
  match TimingEntry.readColumns 15 s with
  | some [v0, v1, v2, v3, v4, v5, _, _, v8, v9, v10, v11, _, v13, v14] =>
    some
      { rtpTimestamp := v0.toUInt64.toUInt32
        isOutlier := v13 ≠ 0
        isTimerTriggered := v14 ≠ 0
        captureMs := v1
        encodeStartMs := v2
        encodeFinishMs := v3
        packetizationFinishMs := v4
        pacerExitMs := v5
        receiveStartMs := v8
        receiveFinishMs := v9
        decodeStartMs := v10
        decodeFinishMs := v11 }
  | _ => none

namespace RtcStatsReport

variable (report : RtcStatsReport F)

omit [Zero F] in
/-- The mime type of the codec with the id, if that is a codec's. -/
def codecMimeType (id : Option Bytes) : Option Bytes :=
  id.bind fun id =>
    match report.get id with
    | some (.codec mimeType) => mimeType
    | _ => none

omit [Zero F] in
/-- What the receiver reports, by its id. -/
def remoteInboundRtp (id : Option Bytes) : Option (RemoteInboundRtpStream F) :=
  id.bind fun id =>
    match report.get id with
    | some (.remoteInboundRtp r) => some r
    | _ => none

end RtcStatsReport

/-- What there is to know of a stream that is received. -/
def InboundRtpStream.view (report : RtcStatsReport F) (s : InboundRtpStream F) :
    InboundRtpStats F where
  ssrc := s.ssrc.getD 0
  kind := .named s.kind
  mid := whole 32 s.mid
  codecMimeType := whole 32 (report.codecMimeType s.codecId)
  packetsReceived := s.packetsReceived.getD 0
  bytesReceived := s.bytesReceived.getD 0
  jitterS := s.jitter.getD 0
  packetsLost := s.packetsLost.getD 0
  nackCount := s.nackCount.getD 0
  pliCount := s.pliCount.getD 0
  firCount := s.firCount.getD 0
  totalDecodeTimeS := s.totalDecodeTime.getD 0
  framesPerSecond := s.framesPerSecond.getD 0
  framesDecoded := s.framesDecoded.getD 0
  framesDropped := s.framesDropped.getD 0
  frameWidth := s.frameWidth.getD 0
  frameHeight := s.frameHeight.getD 0
  jitterBufferDelayS := s.jitterBufferDelay.getD 0
  jitterBufferTargetDelayS := s.jitterBufferTargetDelay.getD 0
  jitterBufferMinimumDelayS := s.jitterBufferMinimumDelay.getD 0
  jitterBufferEmittedCount := s.jitterBufferEmittedCount.getD 0
  totalProcessingDelayS := s.totalProcessingDelay.getD 0
  timingFrame := s.googTimingFrameInfo.bind TimingFrameInfo.ofText
  decoderImplementation := shortened 127 s.decoderImplementation
  powerEfficientDecoder := s.powerEfficientDecoder
  totalSamplesReceived := s.totalSamplesReceived.getD 0
  concealedSamples := s.concealedSamples.getD 0
  silentConcealedSamples := s.silentConcealedSamples.getD 0
  concealmentEvents := s.concealmentEvents.getD 0

/-- What there is to know of a stream that is sent. -/
def OutboundRtpStream.view (report : RtcStatsReport F) (s : OutboundRtpStream F) :
    OutboundRtpStats F where
  ssrc := s.ssrc.getD 0
  kind := .named s.kind
  mid := whole 32 s.mid
  codecMimeType := whole 32 (report.codecMimeType s.codecId)
  packetsSent := s.packetsSent.getD 0
  bytesSent := s.bytesSent.getD 0
  targetBitrateBps := s.targetBitrate.getD 0
  roundTripTimeS := ((report.remoteInboundRtp s.remoteId).bind (·.roundTripTime)).getD 0
  totalRoundTripTimeS := ((report.remoteInboundRtp s.remoteId).bind (·.totalRoundTripTime)).getD 0
  fractionLost := ((report.remoteInboundRtp s.remoteId).bind (·.fractionLost)).getD 0
  packetsLost := ((report.remoteInboundRtp s.remoteId).bind (·.packetsLost)).getD 0
  jitterS := ((report.remoteInboundRtp s.remoteId).bind (·.jitter)).getD 0
  retransmittedPacketsSent := s.retransmittedPacketsSent.getD 0
  nackCount := s.nackCount.getD 0
  pliCount := s.pliCount.getD 0
  firCount := s.firCount.getD 0
  framesPerSecond := s.framesPerSecond.getD 0
  framesSent := s.framesSent.getD 0
  frameWidth := s.frameWidth.getD 0
  frameHeight := s.frameHeight.getD 0
  framesEncoded := s.framesEncoded.getD 0
  totalEncodeTimeS := s.totalEncodeTime.getD 0
  totalPacketSendDelayS := s.totalPacketSendDelay.getD 0
  encoderImplementation := shortened 127 s.encoderImplementation
  powerEfficientEncoder := s.powerEfficientEncoder

/-- What there is to know of a candidate pair. -/
def CandidatePair.view (report : RtcStatsReport F) (s : CandidatePair F) :
    IceCandidatePairStats F where
  currentRoundTripTimeS := s.currentRoundTripTime.getD 0
  totalRoundTripTimeS := s.totalRoundTripTime.getD 0
  priority := s.priority.getD 0
  state := .named s.state
  nominated := s.nominated.getD false
  writable := s.writable.getD false
  availableOutgoingBitrateBps := s.availableOutgoingBitrate.getD 0
  availableIncomingBitrateBps := s.availableIncomingBitrate.getD 0
  bytesSent := s.bytesSent.getD 0
  bytesReceived := s.bytesReceived.getD 0
  packetsSent := s.packetsSent.getD 0
  packetsReceived := s.packetsReceived.getD 0
  localCandidateType := .named ((localCandidate report s.localCandidateId).bind (·.candidateType))
  localRelayProtocol := .named ((localCandidate report s.localCandidateId).bind (·.relayProtocol))

/-- A label may be empty, so one that is there and fits is told from none. -/
def Channel.view (s : Channel) : DataChannelStats where
  label := s.label.bind fun label =>
    if label.length < 63 then some ((statStr label).getD []) else none
  id := s.dataChannelIdentifier.bind toUInt16
  state := dataChannelStateNamed s.state
  messagesSent := s.messagesSent.getD 0
  bytesSent := s.bytesSent.getD 0
  messagesReceived := s.messagesReceived.getD 0
  bytesReceived := s.bytesReceived.getD 0

/-- The four kinds, each in a list of its own, in the order of the report. -/
def RtcStatsReport.view (report : RtcStatsReport F) : StatsReport F where
  inboundRtp := report.filterMap fun stats =>
    match stats.2 with
    | .inboundRtp s => some (s.view report)
    | _ => none
  outboundRtp := report.filterMap fun stats =>
    match stats.2 with
    | .outboundRtp s => some (s.view report)
    | _ => none
  candidatePairs := report.filterMap fun stats =>
    match stats.2 with
    | .candidatePair s => some (s.view report)
    | _ => none
  dataChannels := report.filterMap fun stats =>
    match stats.2 with
    | .dataChannel s => some s.view
    | _ => none

/-! ### The array

`Interface.Mirrors` says that a field is read where it was written, and a representation
that its bytes give the value back.
-/

theorem type_data : ∀ f ∈ Mirror.statEntry.cpp, f.2.type = .data (Field.data f.1) := by
  show ∀ f ∈ ReactorStatEntry.cpp, f.2.type = .data (Field.data f.1)
  decide

variable {R T base}

omit [Zero F] in
theorem fits_bytes (e : Entry F) : Mirror.statEntry.Fits T (e.bytes R) := by
  intro f hf
  rw [type_data f hf]
  exact R.length_bytes T _ _

omit [Zero F] in
/-- The entries are read as they were written. -/
theorem slice_written (entries : List (Entry F)) (memory : Layout.Memory) :
    slice R T base entries.length (written R T base entries memory) = entries := by
  refine List.ext_getElem ?_ fun k hk hk' => ?_
  · rw [slice, List.length_map, List.length_range]
  · have hvalue : (entries.map (Entry.bytes R))[k]? = some (entries[k].bytes R) := by
      rw [List.getElem?_map, List.getElem?_eq_getElem hk']
      rfl
    have hfits : ∀ v ∈ entries.map (Entry.bytes R), Mirror.statEntry.Fits T v := by
      intro v hv
      obtain ⟨e, -, rfl⟩ := List.mem_map.mp hv
      exact fits_bytes e
    simp only [slice, List.getElem_map, List.getElem_range]
    funext f
    have hload := (Mirror.crosses hfits hvalue base memory f).1
    refine (congrArg (fun b => R.value (Field.data f) (b.getD [])) hload).trans ?_
    exact R.value_bytes _ _

/-! ### Strings

A string that fits is read back whole.  One that does not is blank, or for a name cut.
-/

theorem takeWhile_nul (m rest : Bytes) :
    (m ++ 0 :: rest).takeWhile (· ≠ 0) = m.takeWhile (· ≠ 0) := by
  induction m with
  | nil => rfl
  | cons b m ih =>
      rw [List.cons_append, List.takeWhile_cons, List.takeWhile_cons, ih]

theorem takeWhile_zero (n : Nat) : (List.replicate n (0 : UInt8)).takeWhile (· ≠ 0) = [] := by
  cases n <;> rfl

/-- A string in a buffer reads like the string itself, if it fits. -/
theorem statStr_written (n : Nat) (m : Option Bytes) :
    statStr (Glue.statStr m (zero (F := F) (.chars n))).1 = whole n m := by
  have hblank : statStr (List.replicate n 0) = none := by
    unfold statStr
    rw [takeWhile_zero]
    rfl
  cases m with
  | none => exact hblank
  | some m =>
      show statStr (if h : n ≤ m.length then zero (F := F) (.chars n) else _).1 =
        if m.length < n then statStr m else none
      by_cases hfits : n ≤ m.length
      · rw [dif_pos hfits, if_neg (Nat.not_lt.mpr hfits)]
        exact hblank
      · rw [dif_neg hfits, if_pos (Nat.not_le.mp hfits)]
        unfold statStr
        dsimp only
        rw [takeWhile_nul]

/-- What is read of a buffer is what stands before the NUL. -/
theorem statStrPrefix_congr {b c : Bytes} (h : b.takeWhile (· ≠ 0) = c.takeWhile (· ≠ 0)) :
    statStrPrefix b = statStrPrefix c := by
  unfold statStrPrefix
  rw [h]

theorem statStrPrefix_written (n : Nat) (m : Option Bytes) :
    statStrPrefix (Glue.statStrPrefixInto m (zero (F := F) (.chars (n + 1)))).1 =
      shortened n m := by
  cases m with
  | none =>
      exact statStrPrefix_congr (c := []) (takeWhile_zero (n + 1))
  | some m =>
      refine statStrPrefix_congr ?_
      show (m.take (min m.length ((List.replicate (n + 1) (0 : UInt8)).length - 1)) ++
        0 :: _).takeWhile _ = _
      rw [takeWhile_nul, List.length_replicate, Nat.add_sub_cancel]
      rcases Nat.le_total m.length n with hall | hcut
      · rw [Nat.min_eq_left hall, List.take_of_length_le (Nat.le_refl _),
          List.take_of_length_le hall]
      · rw [Nat.min_eq_right hcut]

theorem statCodec_written (report : RtcStatsReport F) (id : Option Bytes) :
    statStr (Glue.statCodec report id (zero (F := F) (.chars 32))).1 =
      whole 32 (report.codecMimeType id) := by
  cases id with
  | none => exact statStr_written (F := F) 32 none
  | some id =>
      have hblank := statStr_written (F := F) 32 none
      unfold Glue.statCodec RtcStatsReport.codecMimeType
      rw [Option.bind_some]
      dsimp only
      cases report.get id with
      | none => exact hblank
      | some stats =>
          cases stats with
          | codec mimeType => exact statStr_written (F := F) 32 mimeType
          | _ => exact hblank

/-! ### Codes

Reading undoes writing, for every name there is and for a name nobody knows.
-/

theorem streamKind_parse (m : Option Bytes) :
    StreamKind.fromRaw (parseStreamKind m) = StreamKind.named m := by
  cases m with
  | none => rfl
  | some s =>
      unfold parseStreamKind StreamKind.named
      simp only [Option.some.injEq]
      split_ifs <;> rfl

theorem pairState_parse (m : Option Bytes) :
    IceCandidatePairState.fromRaw (parsePairState m) = IceCandidatePairState.named m := by
  cases m with
  | none => rfl
  | some s =>
      unfold parsePairState IceCandidatePairState.named
      simp only [Option.some.injEq]
      split_ifs <;> rfl

theorem candidateType_parse (m : Option Bytes) :
    IceCandidateType.fromRaw (parseCandidateType m) = IceCandidateType.named m := by
  cases m with
  | none => rfl
  | some s =>
      unfold parseCandidateType IceCandidateType.named
      simp only [Option.some.injEq]
      split_ifs <;> rfl

theorem relayProtocol_parse (m : Option Bytes) :
    RelayProtocol.fromRaw (parseRelayProtocol m) = RelayProtocol.named m := by
  cases m with
  | none => rfl
  | some s =>
      unfold parseRelayProtocol RelayProtocol.named
      simp only [Option.some.injEq]
      split_ifs <;> rfl

theorem dataChannelState_parse (m : Option Bytes) :
    dataChannelStateFromRaw (parseDataChannelState m) = dataChannelStateNamed m := by
  cases m with
  | none => rfl
  | some s =>
      unfold parseDataChannelState dataChannelStateNamed
      simp only [Option.some.injEq]
      split_ifs <;> rfl

theorem powerEfficient_code (b : Option Bool) : powerEfficient (powerEfficientCode b) = b := by
  rcases b with _ | _ | _ <;> rfl

theorem isSet_flag (b : Bool) : isSet (flag b) = b := by cases b <;> rfl

/-! ### One entry of each kind

Field by field, by the lemmas before.
-/

/-- The timing fields say what the text says. -/
theorem readTimingFrame_of (report : RtcStatsReport F) (s : InboundRtpStream F) :
    readTimingFrame (.ofInboundRtp report s) = s.googTimingFrameInfo.bind TimingFrameInfo.ofText := by
  have hread : readTimingFrame (.ofInboundRtp report s) =
      if isSet (flag (timingOf s.googTimingFrameInfo).present) then
        some
          { rtpTimestamp := (timingOf s.googTimingFrameInfo).rtpTimestamp
            isOutlier := isSet (flag (timingOf s.googTimingFrameInfo).isOutlier)
            isTimerTriggered := isSet (flag (timingOf s.googTimingFrameInfo).isTimerTriggered)
            captureMs := (timingOf s.googTimingFrameInfo).captureMs
            encodeStartMs := (timingOf s.googTimingFrameInfo).encodeStartMs
            encodeFinishMs := (timingOf s.googTimingFrameInfo).encodeFinishMs
            packetizationFinishMs := (timingOf s.googTimingFrameInfo).packetizationFinishMs
            pacerExitMs := (timingOf s.googTimingFrameInfo).pacerExitMs
            receiveStartMs := (timingOf s.googTimingFrameInfo).receiveStartMs
            receiveFinishMs := (timingOf s.googTimingFrameInfo).receiveFinishMs
            decodeStartMs := (timingOf s.googTimingFrameInfo).decodeStartMs
            decodeFinishMs := (timingOf s.googTimingFrameInfo).decodeFinishMs }
      else none := rfl
  rw [hread]
  simp only [isSet_flag]
  cases s.googTimingFrameInfo with
  | none => rfl
  | some text =>
      show (if (TimingEntry.parseTimingFrameInfo text {}).present then _ else none) =
        TimingFrameInfo.ofText text
      by_cases hall : ∃ v0 v1 v2 v3 v4 v5 v6 v7 v8 v9 v10 v11 v12 v13 v14,
          TimingEntry.readColumns 15 text =
            some [v0, v1, v2, v3, v4, v5, v6, v7, v8, v9, v10, v11, v12, v13, v14]
      · obtain ⟨_, _, _, _, _, _, _, _, _, _, _, _, _, _, _, hcolumns⟩ := hall
        unfold timingOf TimingEntry.parseTimingFrameInfo TimingFrameInfo.ofText
        dsimp only
        rw [hcolumns]
        rfl
      · -- Neither side takes a text without its fifteen columns.
        have hblank : TimingEntry.parseTimingFrameInfo text {} = {} := by
          unfold TimingEntry.parseTimingFrameInfo
          split
          · rename_i hcolumns
            exact absurd ⟨_, _, _, _, _, _, _, _, _, _, _, _, _, _, _, hcolumns⟩ hall
          · rfl
        have hnone : TimingFrameInfo.ofText text = none := by
          unfold TimingFrameInfo.ofText
          split
          · rename_i hcolumns
            exact absurd ⟨_, _, _, _, _, _, _, _, _, _, _, _, _, _, _, hcolumns⟩ hall
          · rfl
        rw [hblank, hnone]
        rfl

theorem readInboundRtp_of (report : RtcStatsReport F) (s : InboundRtpStream F) :
    readInboundRtp (.ofInboundRtp report s) = s.view report := by
  have hkind : StreamKind.fromRaw (Entry.ofInboundRtp report s .streamKind) = .named s.kind :=
    streamKind_parse s.kind
  have hmid : statStr (Entry.ofInboundRtp report s .mid).1 = whole 32 s.mid := statStr_written 32 _
  have hcodec : statStr (Entry.ofInboundRtp report s .codecMimeType).1 =
      whole 32 (report.codecMimeType s.codecId) := statCodec_written report _
  have hname : statStrPrefix (Entry.ofInboundRtp report s .codecImplementation).1 =
      shortened 127 s.decoderImplementation := statStrPrefix_written 127 _
  have hpower : powerEfficient (Entry.ofInboundRtp report s .powerEfficient) =
      s.powerEfficientDecoder := powerEfficient_code _
  unfold readInboundRtp InboundRtpStream.view
  rw [hkind, hmid, hcodec, hname, hpower, readTimingFrame_of]
  rfl

omit [Zero F] in
theorem remoteReport_eq (report : RtcStatsReport F) (id : Option Bytes) :
    remoteReport report id = (report.remoteInboundRtp id).getD {} := by
  cases id with
  | none => rfl
  | some id =>
      unfold remoteReport RtcStatsReport.remoteInboundRtp
      rw [Option.bind_some]
      dsimp only
      cases report.get id with
      | none => rfl
      | some stats => cases stats <;> rfl

theorem readOutboundRtp_of (report : RtcStatsReport F) (s : OutboundRtpStream F) :
    readOutboundRtp (.ofOutboundRtp report s) = s.view report := by
  have hkind : StreamKind.fromRaw (Entry.ofOutboundRtp report s .streamKind) = .named s.kind :=
    streamKind_parse s.kind
  have hmid : statStr (Entry.ofOutboundRtp report s .mid).1 = whole 32 s.mid := statStr_written 32 _
  have hcodec : statStr (Entry.ofOutboundRtp report s .codecMimeType).1 =
      whole 32 (report.codecMimeType s.codecId) := statCodec_written report _
  have hname : statStrPrefix (Entry.ofOutboundRtp report s .codecImplementation).1 =
      shortened 127 s.encoderImplementation := statStrPrefix_written 127 _
  have hpower : powerEfficient (Entry.ofOutboundRtp report s .powerEfficient) =
      s.powerEfficientEncoder := powerEfficient_code _
  -- what the receiver reports is absent with its report
  have hremote {α : Type} (field : RemoteInboundRtpStream F → Option α)
      (hnone : field {} = none) : field (remoteReport report s.remoteId) =
        (report.remoteInboundRtp s.remoteId).bind field := by
    rw [remoteReport_eq]
    cases report.remoteInboundRtp s.remoteId with
    | none => exact hnone
    | some r => rfl
  unfold readOutboundRtp OutboundRtpStream.view
  rw [hkind, hmid, hcodec, hname, hpower, ← hremote _ rfl, ← hremote _ rfl, ← hremote _ rfl,
    ← hremote _ rfl, ← hremote _ rfl]
  rfl

theorem readCandidatePair_of (report : RtcStatsReport F) (s : CandidatePair F) :
    readCandidatePair (.ofCandidatePair report s) = s.view report := by
  have hstate : IceCandidatePairState.fromRaw (Entry.ofCandidatePair report s .pairState) =
      .named s.state := pairState_parse s.state
  have hnominated : isSetInt (Entry.ofCandidatePair report s .nominated) =
      s.nominated.getD false := by
    show isSetInt (if s.nominated.getD false then 1 else 0) = _
    cases s.nominated.getD false <;> rfl
  have hwritable : isSetInt (Entry.ofCandidatePair report s .writable) =
      s.writable.getD false := by
    show isSetInt (if s.writable.getD false then 1 else 0) = _
    cases s.writable.getD false <;> rfl
  have htype : IceCandidateType.fromRaw (Entry.ofCandidatePair report s .localCandidateType) =
      .named ((localCandidate report s.localCandidateId).bind (·.candidateType)) := by
    show IceCandidateType.fromRaw ((localCandidate report s.localCandidateId).elim (-1)
      fun c => parseCandidateType c.candidateType) = _
    cases localCandidate report s.localCandidateId with
    | none => rfl
    | some c => exact candidateType_parse c.candidateType
  have hprotocol : RelayProtocol.fromRaw (Entry.ofCandidatePair report s .localRelayProtocol) =
      .named ((localCandidate report s.localCandidateId).bind (·.relayProtocol)) := by
    show RelayProtocol.fromRaw ((localCandidate report s.localCandidateId).elim (-1)
      fun c => parseRelayProtocol c.relayProtocol) = _
    cases localCandidate report s.localCandidateId with
    | none => rfl
    | some c => exact relayProtocol_parse c.relayProtocol
  unfold readCandidatePair CandidatePair.view
  rw [hstate, hnominated, hwritable, htype, hprotocol]
  rfl

theorem readDataChannel_of (s : Channel) : readDataChannel (.ofDataChannel (F := F) s) = s.view := by
  have hstate : dataChannelStateFromRaw (Entry.ofDataChannel (F := F) s .dataChannelState) =
      dataChannelStateNamed s.state := dataChannelState_parse s.state
  have hid : toUInt16 (Entry.ofDataChannel (F := F) s .dataChannelId) =
      s.dataChannelIdentifier.bind toUInt16 := by
    show toUInt16 (s.dataChannelIdentifier.getD (-1)) = _
    cases s.dataChannelIdentifier with
    | none => decide
    | some id => rfl
  have hlabel : dataChannelLabel (Entry.ofDataChannel (F := F) s) = s.label.bind fun label =>
      if label.length < 63 then some ((statStr label).getD []) else none := by
    show (if isSet (flag (s.label.elim false fun label => decide (label.length < 63))) then
        some ((statStr (Glue.statStr s.label (zero (F := F) (.chars 63))).1).getD []) else none) = _
    rw [isSet_flag, statStr_written]
    cases s.label with
    | none => rfl
    | some label =>
        unfold whole
        rw [Option.bind_some, Option.bind_some]
        by_cases hfits : label.length < 63
        · simp [hfits]
        · simp [hfits]
  unfold readDataChannel Channel.view
  rw [hstate, hid, hlabel]
  rfl

/-! ### The report

Entries of one kind keep their order among each other.
-/

/-- Reading on from what is read already. -/
theorem foldl_push (report : RtcStatsReport F) (rest : RtcStatsReport F) (r : StatsReport F) :
    (rest.filterMap fun stats =>
      match stats.2 with
      | .inboundRtp s => some (Entry.ofInboundRtp report s)
      | .outboundRtp s => some (.ofOutboundRtp report s)
      | .candidatePair s => some (.ofCandidatePair report s)
      | .dataChannel s => some (.ofDataChannel s)
      | _ => none).foldl push r =
    { inboundRtp := r.inboundRtp ++ rest.filterMap fun stats =>
        match stats.2 with
        | .inboundRtp s => some (s.view report)
        | _ => none
      outboundRtp := r.outboundRtp ++ rest.filterMap fun stats =>
        match stats.2 with
        | .outboundRtp s => some (s.view report)
        | _ => none
      candidatePairs := r.candidatePairs ++ rest.filterMap fun stats =>
        match stats.2 with
        | .candidatePair s => some (s.view report)
        | _ => none
      dataChannels := r.dataChannels ++ rest.filterMap fun stats =>
        match stats.2 with
        | .dataChannel s => some s.view
        | _ => none } := by
  induction rest generalizing r with
  | nil => simp
  | cons stats rest ih =>
      obtain ⟨id, stats⟩ := stats
      cases stats with
      | inboundRtp s =>
          have hpush : push r (.ofInboundRtp report s) =
              { r with inboundRtp := r.inboundRtp ++ [s.view report] } := by
            rw [← readInboundRtp_of]
            rfl
          simp only [List.filterMap_cons, List.foldl_cons, hpush, ih, List.append_assoc,
            List.cons_append, List.nil_append]
      | outboundRtp s =>
          have hpush : push r (.ofOutboundRtp report s) =
              { r with outboundRtp := r.outboundRtp ++ [s.view report] } := by
            rw [← readOutboundRtp_of]
            rfl
          simp only [List.filterMap_cons, List.foldl_cons, hpush, ih, List.append_assoc,
            List.cons_append, List.nil_append]
      | candidatePair s =>
          have hpush : push r (.ofCandidatePair report s) =
              { r with candidatePairs := r.candidatePairs ++ [s.view report] } := by
            rw [← readCandidatePair_of]
            rfl
          simp only [List.filterMap_cons, List.foldl_cons, hpush, ih, List.append_assoc,
            List.cons_append, List.nil_append]
      | dataChannel s =>
          have hpush : push r (.ofDataChannel s) =
              { r with dataChannels := r.dataChannels ++ [s.view] } := by
            rw [← readDataChannel_of (F := F)]
            rfl
          simp only [List.filterMap_cons, List.foldl_cons, hpush, ih, List.append_assoc,
            List.cons_append, List.nil_append]
      | _ => simp only [List.filterMap_cons, ih]

/--
**A report arrives as it is meant.**  Whatever libwebrtc reports, on whatever platform and
wherever the array lies: each stream, candidate pair and channel is in its list once, in the
order of the report, every value is its own or what stands for its absence, what belongs to
another object is that object's if the id names one of the right type, a string one matches by
is whole or absent, a name is cut clean, and nothing is left over from another entry.
-/
theorem reported_exactly (R : Representation F) (T : Target) (base : Nat)
    (report : RtcStatsReport F) (memory : Layout.Memory) :
    delivered R T base report memory = report.view := by
  unfold delivered statsCb
  rw [slice_written]
  exact (foldl_push report report {}).trans (by
    simp only [List.nil_append]
    rfl)

end ReactorWebrtc.Stats
