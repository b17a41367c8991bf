/-
The flat entries of a statistics report.

libwebrtc's report is a map from ids to statistics of several kinds.  The glue goes through it
and writes one entry for each of four kinds, with what it needs of the others looked up by id.
All kinds share the fields of `ReactorStatEntry`; one field says of which kind an entry is, and
an entry begins blank, with zeroes where zero means nothing.

A field's type is a matter of the declaration (`Field.data`), so an entry is a function from
fields to values of their types, and one that is not written for a kind keeps its blank.
The numbers that stand for an enumeration are the glue's own: each is written by a function
of this module and read by one of `Stats.Report`.
-/
import ReactorWebrtc.Interface.Mirrors
import ReactorWebrtc.Stats.NamePrefix
import ReactorWebrtc.Stats.TimingFrame

namespace ReactorWebrtc.Stats

open Interface Interface.ReactorStatEntry

/-! ### What libwebrtc reports

Numbers of type `double` are only passed on, so their type is a parameter, with a zero. -/

/-- `RTCInboundRtpStreamStats` -/
structure InboundRtpStream (F : Type) where
  ssrc : Option UInt32 := none
  kind : Option Bytes := none
  mid : Option Bytes := none
  codecId : Option Bytes := none
  packetsReceived : Option UInt32 := none
  bytesReceived : Option UInt64 := none
  jitter : Option F := none
  packetsLost : Option Int32 := none
  nackCount : Option UInt32 := none
  pliCount : Option UInt32 := none
  firCount : Option UInt32 := none
  totalDecodeTime : Option F := none
  framesPerSecond : Option F := none
  framesDecoded : Option UInt32 := none
  framesDropped : Option UInt32 := none
  frameWidth : Option UInt32 := none
  frameHeight : Option UInt32 := none
  jitterBufferDelay : Option F := none
  jitterBufferTargetDelay : Option F := none
  jitterBufferMinimumDelay : Option F := none
  jitterBufferEmittedCount : Option UInt64 := none
  totalProcessingDelay : Option F := none
  totalSamplesReceived : Option UInt64 := none
  concealedSamples : Option UInt64 := none
  silentConcealedSamples : Option UInt64 := none
  concealmentEvents : Option UInt64 := none
  decoderImplementation : Option Bytes := none
  powerEfficientDecoder : Option Bool := none
  googTimingFrameInfo : Option Text := none

/-- `RTCOutboundRtpStreamStats` -/
structure OutboundRtpStream (F : Type) where
  ssrc : Option UInt32 := none
  kind : Option Bytes := none
  mid : Option Bytes := none
  codecId : Option Bytes := none
  remoteId : Option Bytes := none
  packetsSent : Option UInt64 := none
  bytesSent : Option UInt64 := none
  targetBitrate : Option F := none
  retransmittedPacketsSent : Option UInt64 := none
  nackCount : Option UInt32 := none
  pliCount : Option UInt32 := none
  firCount : Option UInt32 := none
  framesPerSecond : Option F := none
  framesSent : Option UInt32 := none
  frameWidth : Option UInt32 := none
  frameHeight : Option UInt32 := none
  framesEncoded : Option UInt32 := none
  totalEncodeTime : Option F := none
  totalPacketSendDelay : Option F := none
  encoderImplementation : Option Bytes := none
  powerEfficientEncoder : Option Bool := none

/-- `RTCRemoteInboundRtpStreamStats` -/
structure RemoteInboundRtpStream (F : Type) where
  roundTripTime : Option F := none
  totalRoundTripTime : Option F := none
  fractionLost : Option F := none
  packetsLost : Option Int32 := none
  jitter : Option F := none

/-- `RTCIceCandidatePairStats` -/
structure CandidatePair (F : Type) where
  localCandidateId : Option Bytes := none
  currentRoundTripTime : Option F := none
  totalRoundTripTime : Option F := none
  priority : Option UInt64 := none
  state : Option Bytes := none
  nominated : Option Bool := none
  writable : Option Bool := none
  availableOutgoingBitrate : Option F := none
  availableIncomingBitrate : Option F := none
  bytesSent : Option UInt64 := none
  bytesReceived : Option UInt64 := none
  packetsSent : Option UInt64 := none
  packetsReceived : Option UInt64 := none

/-- `RTCLocalIceCandidateStats` -/
structure LocalCandidate where
  candidateType : Option Bytes := none
  relayProtocol : Option Bytes := none

/-- `RTCDataChannelStats` -/
structure Channel where
  label : Option Bytes := none
  dataChannelIdentifier : Option Int32 := none
  state : Option Bytes := none
  messagesSent : Option UInt32 := none
  messagesReceived : Option UInt32 := none
  bytesSent : Option UInt64 := none
  bytesReceived : Option UInt64 := none

/-- `RTCStats`, by its type; of a codec only the mime type is looked at. -/
inductive RtcStats (F : Type)
  | inboundRtp (s : InboundRtpStream F)
  | outboundRtp (s : OutboundRtpStream F)
  | remoteInboundRtp (s : RemoteInboundRtpStream F)
  | candidatePair (s : CandidatePair F)
  | localCandidate (s : LocalCandidate)
  | dataChannel (s : Channel)
  | codec (mimeType : Option Bytes)
  | other

/-- `RTCStatsReport`: a map, in the order of its ids. -/
abbrev RtcStatsReport (F : Type) := List (Bytes × RtcStats F)

variable {F : Type}

def RtcStatsReport.get (report : RtcStatsReport F) (id : Bytes) : Option (RtcStats F) :=
  report.lookup id

/-! ### The entry

All the fields of the struct, with the zeroes and blanks they begin with.
-/

/-- The type of a field's value. -/
def Field.data : Field → Data
  | .kind | .packetsLost | .pairState | .streamKind | .nominated | .writable
  | .localCandidateType | .localRelayProtocol | .dataChannelId | .dataChannelState => .i32
  | .ssrc | .packetsReceived | .nackCount | .pliCount | .firCount | .frameWidth | .frameHeight
  | .framesDecoded | .framesDropped | .framesSent | .framesEncoded | .timingFrameRtpTimestamp
  | .messagesSent | .messagesReceived => .u32
  | .bytesReceived | .bytesSent | .priority | .packetsSent | .retransmittedPacketsSent
  | .pairPacketsReceived | .jitterBufferEmittedCount | .totalSamplesReceived | .concealedSamples
  | .silentConcealedSamples | .concealmentEvents => .u64
  | .jitter | .totalDecodeTime | .targetBitrate | .roundTripTime | .totalRoundTripTime
  | .fractionLost | .currentRoundTripTime | .availableOutgoingBitrate | .availableIncomingBitrate
  | .framesPerSecond | .jitterBufferDelay | .jitterBufferTargetDelay | .jitterBufferMinimumDelay
  | .totalEncodeTime | .totalPacketSendDelay | .totalProcessingDelay => .f64
  | .timingCaptureMs | .timingEncodeStartMs | .timingEncodeFinishMs
  | .timingPacketizationFinishMs | .timingPacerExitMs | .timingReceiveStartMs
  | .timingReceiveFinishMs | .timingDecodeStartMs | .timingDecodeFinishMs => .i64
  | .timingFramePresent | .timingIsOutlier | .timingIsTimerTriggered
  | .dataChannelLabelPresent => .u8
  | .powerEfficient => .i8
  | .mid | .codecMimeType => .chars 32
  | .dataChannelLabel => .chars 63
  | .codecImplementation => .chars 128

/-- A buffer of fixed size. -/
abbrev Chars (n : Nat) := { b : Bytes // b.length = n }

/-- The values of a type. -/
abbrev Val (F : Type) : Data → Type
  | .i8 => Int8
  | .u8 => UInt8
  | .i32 => Int32
  | .u32 => UInt32
  | .i64 => Int64
  | .u64 => UInt64
  | .f64 => F
  | .chars n => Chars n

/-- `ReactorStatEntry` -/
abbrev Entry (F : Type) := (f : Field) → Val F (Field.data f)

def zero [Zero F] : (d : Data) → Val F d
  | .i8 => (0 : Int8)
  | .u8 => (0 : UInt8)
  | .i32 => (0 : Int32)
  | .u32 => (0 : UInt32)
  | .i64 => (0 : Int64)
  | .u64 => (0 : UInt64)
  | .f64 => (0 : F)
  | .chars n => ⟨List.replicate n 0, List.length_replicate⟩

/-- Zero throughout, but for the fields where zero means something. -/
def Entry.blank [Zero F] : Entry F
  | .streamKind | .localCandidateType | .localRelayProtocol => (-1 : Int32)
  | .powerEfficient => (-1 : Int8)
  | f => zero (Field.data f)

/-! ### What the glue writes

Strings first, then the codes, and then one function for each kind of statistics.
-/

/-- A text as a `std::string` has it. -/
def bytesOf (s : String) : Bytes := Utf8.encode s.toList

theorem length_written {n : Nat} {m : Bytes} (h : ¬ n ≤ m.length) (out : Chars n) :
    (m ++ 0 :: out.1.drop (m.length + 1)).length = n := by
  rw [List.length_append, List.length_cons, List.length_drop, out.2]
  omega

/-- `stat_str`: the buffer stays as it is for a string that is absent or does not fit with its
NUL. -/
def Glue.statStr {n : Nat} (m : Option Bytes) (out : Chars n) : Chars n :=
  match m with
  | none => out
  | some m =>
    if h : n ≤ m.length then out
    else ⟨m ++ 0 :: out.1.drop (m.length + 1), length_written h out⟩

/-- `stat_str_prefix`, on a buffer that is not empty. -/
def Glue.statStrPrefixInto {n : Nat} (m : Option Bytes) (out : Chars (n + 1)) : Chars (n + 1) :=
  ⟨ReactorWebrtc.Glue.statStrPrefix m out.1, by
    cases m with
    | none => exact out.2
    | some m =>
        have hpos : 0 < out.1.length := by rw [out.2]; exact Nat.succ_pos n
        exact (length_statStrPrefix hpos).trans out.2⟩

/-- `stat_codec` -/
def Glue.statCodec {n : Nat} (report : RtcStatsReport F) (codecId : Option Bytes)
    (out : Chars n) : Chars n :=
  match codecId with
  | none => out
  | some id =>
    match report.get id with
    | some (.codec mimeType) => Glue.statStr mimeType out
    | _ => out

/-- `parse_pair_state` -/
def parsePairState : Option Bytes → Int32
  | none => 0
  | some s =>
    if s = bytesOf "in-progress" then 1
    else if s = bytesOf "failed" then 2
    else if s = bytesOf "succeeded" then 3
    else if s = bytesOf "cancelled" then 4
    else 0

/-- `parse_data_channel_state` -/
def parseDataChannelState : Option Bytes → Int32
  | none => 3
  | some s =>
    if s = bytesOf "connecting" then 0
    else if s = bytesOf "open" then 1
    else if s = bytesOf "closing" then 2
    else 3

/-- `parse_stream_kind` -/
def parseStreamKind : Option Bytes → Int32
  | none => -1
  | some s =>
    if s = bytesOf "audio" then 0
    else if s = bytesOf "video" then 1
    else -1

/-- `parse_candidate_type` -/
def parseCandidateType : Option Bytes → Int32
  | none => -1
  | some s =>
    if s = bytesOf "host" then 0
    else if s = bytesOf "srflx" then 1
    else if s = bytesOf "prflx" then 2
    else if s = bytesOf "relay" then 3
    else -1

/-- `parse_relay_protocol` -/
def parseRelayProtocol : Option Bytes → Int32
  | none => -1
  | some s =>
    if s = bytesOf "udp" then 0
    else if s = bytesOf "tcp" then 1
    else if s = bytesOf "tls" then 2
    else -1

/-- Whether an encoder or decoder is the hardware one, `-1` where nothing says so. -/
def powerEfficientCode : Option Bool → Int8
  | none => -1
  | some b => if b then 1 else 0

def flag (b : Bool) : UInt8 := if b then 1 else 0

variable [Zero F]

/-- The timing fields, on an entry that has none yet. -/
def timingOf (info : Option Text) : TimingEntry :=
  match info with
  | some s => TimingEntry.parseTimingFrameInfo s {}
  | none => {}

def Entry.ofInboundRtp (report : RtcStatsReport F) (s : InboundRtpStream F) : Entry F
  | .kind => (0 : Int32)
  | .ssrc => s.ssrc.getD (0 : UInt32)
  | .streamKind => parseStreamKind s.kind
  | .mid => Glue.statStr s.mid (zero (F := F) (.chars 32))
  | .codecMimeType => Glue.statCodec report s.codecId (zero (F := F) (.chars 32))
  | .packetsReceived => s.packetsReceived.getD (0 : UInt32)
  | .bytesReceived => s.bytesReceived.getD (0 : UInt64)
  | .jitter => s.jitter.getD (0 : F)
  | .packetsLost => s.packetsLost.getD (0 : Int32)
  | .nackCount => s.nackCount.getD (0 : UInt32)
  | .pliCount => s.pliCount.getD (0 : UInt32)
  | .firCount => s.firCount.getD (0 : UInt32)
  | .totalDecodeTime => s.totalDecodeTime.getD (0 : F)
  | .framesPerSecond => s.framesPerSecond.getD (0 : F)
  | .framesDecoded => s.framesDecoded.getD (0 : UInt32)
  | .framesDropped => s.framesDropped.getD (0 : UInt32)
  | .frameWidth => s.frameWidth.getD (0 : UInt32)
  | .frameHeight => s.frameHeight.getD (0 : UInt32)
  | .jitterBufferDelay => s.jitterBufferDelay.getD (0 : F)
  | .jitterBufferTargetDelay => s.jitterBufferTargetDelay.getD (0 : F)
  | .jitterBufferMinimumDelay => s.jitterBufferMinimumDelay.getD (0 : F)
  | .jitterBufferEmittedCount => s.jitterBufferEmittedCount.getD (0 : UInt64)
  | .totalProcessingDelay => s.totalProcessingDelay.getD (0 : F)
  | .totalSamplesReceived => s.totalSamplesReceived.getD (0 : UInt64)
  | .concealedSamples => s.concealedSamples.getD (0 : UInt64)
  | .silentConcealedSamples => s.silentConcealedSamples.getD (0 : UInt64)
  | .concealmentEvents => s.concealmentEvents.getD (0 : UInt64)
  | .codecImplementation =>
    Glue.statStrPrefixInto s.decoderImplementation (zero (F := F) (.chars 128))
  | .powerEfficient => powerEfficientCode s.powerEfficientDecoder
  | .timingFramePresent => flag (timingOf s.googTimingFrameInfo).present
  | .timingFrameRtpTimestamp => (timingOf s.googTimingFrameInfo).rtpTimestamp
  | .timingIsOutlier => flag (timingOf s.googTimingFrameInfo).isOutlier
  | .timingIsTimerTriggered => flag (timingOf s.googTimingFrameInfo).isTimerTriggered
  | .timingCaptureMs => (timingOf s.googTimingFrameInfo).captureMs
  | .timingEncodeStartMs => (timingOf s.googTimingFrameInfo).encodeStartMs
  | .timingEncodeFinishMs => (timingOf s.googTimingFrameInfo).encodeFinishMs
  | .timingPacketizationFinishMs => (timingOf s.googTimingFrameInfo).packetizationFinishMs
  | .timingPacerExitMs => (timingOf s.googTimingFrameInfo).pacerExitMs
  | .timingReceiveStartMs => (timingOf s.googTimingFrameInfo).receiveStartMs
  | .timingReceiveFinishMs => (timingOf s.googTimingFrameInfo).receiveFinishMs
  | .timingDecodeStartMs => (timingOf s.googTimingFrameInfo).decodeStartMs
  | .timingDecodeFinishMs => (timingOf s.googTimingFrameInfo).decodeFinishMs
  | f => Entry.blank f

/-- The receiver's report about a stream, where the id names one. -/
def remoteReport (report : RtcStatsReport F) (remoteId : Option Bytes) :
    RemoteInboundRtpStream F :=
  match remoteId with
  | none => {}
  | some id =>
    match report.get id with
    | some (.remoteInboundRtp r) => r
    | _ => {}

def Entry.ofOutboundRtp (report : RtcStatsReport F) (s : OutboundRtpStream F) : Entry F
  | .kind => (1 : Int32)
  | .ssrc => s.ssrc.getD (0 : UInt32)
  | .streamKind => parseStreamKind s.kind
  | .mid => Glue.statStr s.mid (zero (F := F) (.chars 32))
  | .codecMimeType => Glue.statCodec report s.codecId (zero (F := F) (.chars 32))
  | .packetsSent => s.packetsSent.getD (0 : UInt64)
  | .bytesSent => s.bytesSent.getD (0 : UInt64)
  | .targetBitrate => s.targetBitrate.getD (0 : F)
  | .retransmittedPacketsSent => s.retransmittedPacketsSent.getD (0 : UInt64)
  | .nackCount => s.nackCount.getD (0 : UInt32)
  | .pliCount => s.pliCount.getD (0 : UInt32)
  | .firCount => s.firCount.getD (0 : UInt32)
  | .framesPerSecond => s.framesPerSecond.getD (0 : F)
  | .framesSent => s.framesSent.getD (0 : UInt32)
  | .frameWidth => s.frameWidth.getD (0 : UInt32)
  | .frameHeight => s.frameHeight.getD (0 : UInt32)
  | .framesEncoded => s.framesEncoded.getD (0 : UInt32)
  | .totalEncodeTime => s.totalEncodeTime.getD (0 : F)
  | .totalPacketSendDelay => s.totalPacketSendDelay.getD (0 : F)
  | .codecImplementation =>
    Glue.statStrPrefixInto s.encoderImplementation (zero (F := F) (.chars 128))
  | .powerEfficient => powerEfficientCode s.powerEfficientEncoder
  | .roundTripTime => (remoteReport report s.remoteId).roundTripTime.getD (0 : F)
  | .totalRoundTripTime => (remoteReport report s.remoteId).totalRoundTripTime.getD (0 : F)
  | .fractionLost => (remoteReport report s.remoteId).fractionLost.getD (0 : F)
  | .packetsLost => (remoteReport report s.remoteId).packetsLost.getD (0 : Int32)
  | .jitter => (remoteReport report s.remoteId).jitter.getD (0 : F)
  | f => Entry.blank f

/-- The local candidate of a pair, where the id names one. -/
def localCandidate (report : RtcStatsReport F) (id : Option Bytes) : Option LocalCandidate :=
  match id with
  | none => none
  | some id =>
    match report.get id with
    | some (.localCandidate c) => some c
    | _ => none

def Entry.ofCandidatePair (report : RtcStatsReport F) (s : CandidatePair F) : Entry F
  | .kind => (2 : Int32)
  | .currentRoundTripTime => s.currentRoundTripTime.getD (0 : F)
  | .totalRoundTripTime => s.totalRoundTripTime.getD (0 : F)
  | .priority => s.priority.getD (0 : UInt64)
  | .pairState => parsePairState s.state
  | .nominated => if s.nominated.getD false then (1 : Int32) else (0 : Int32)
  | .writable => if s.writable.getD false then (1 : Int32) else (0 : Int32)
  | .availableOutgoingBitrate => s.availableOutgoingBitrate.getD (0 : F)
  | .availableIncomingBitrate => s.availableIncomingBitrate.getD (0 : F)
  | .bytesSent => s.bytesSent.getD (0 : UInt64)
  | .bytesReceived => s.bytesReceived.getD (0 : UInt64)
  | .packetsSent => s.packetsSent.getD (0 : UInt64)
  | .pairPacketsReceived => s.packetsReceived.getD (0 : UInt64)
  | .localCandidateType =>
    (localCandidate report s.localCandidateId).elim (Entry.blank (F := F) .localCandidateType)
      fun c => parseCandidateType c.candidateType
  | .localRelayProtocol =>
    (localCandidate report s.localCandidateId).elim (Entry.blank (F := F) .localRelayProtocol)
      fun c => parseRelayProtocol c.relayProtocol
  | f => Entry.blank f

def Entry.ofDataChannel (s : Channel) : Entry F
  | .kind => (3 : Int32)
  | .dataChannelId => s.dataChannelIdentifier.getD (-1 : Int32)
  | .dataChannelState => parseDataChannelState s.state
  | .messagesSent => s.messagesSent.getD (0 : UInt32)
  | .messagesReceived => s.messagesReceived.getD (0 : UInt32)
  | .bytesSent => s.bytesSent.getD (0 : UInt64)
  | .bytesReceived => s.bytesReceived.getD (0 : UInt64)
  | .dataChannelLabel => Glue.statStr s.label (zero (F := F) (.chars 63))
  | .dataChannelLabelPresent =>
    flag (s.label.elim false fun label => decide (label.length < 63))
  | f => Entry.blank f

/-- `OnStatsDelivered`, up to the callback. -/
def onStatsDelivered (report : RtcStatsReport F) : List (Entry F) :=
  report.filterMap fun stats =>
    match stats.2 with
    | .inboundRtp s => some (.ofInboundRtp report s)
    | .outboundRtp s => some (.ofOutboundRtp report s)
    | .candidatePair s => some (.ofCandidatePair report s)
    | .dataChannel s => some (.ofDataChannel s)
    | _ => none

end ReactorWebrtc.Stats
