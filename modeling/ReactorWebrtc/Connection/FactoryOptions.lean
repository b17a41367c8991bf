/-
From the builder's knobs to what the network stack runs with.

`build` checks the settings and writes them into the options of the C interface, where most of
them are an `int` and zero says that the knob is off.  The glue turns what is on into field
trials: texts under a key, answered before the process-global trials are asked.  libwebrtc asks
for a key when it makes a transport and takes a positive number over its own default.  The
stages of the audio processing go as bits of one flag word.

So a number is cast, printed and parsed on its way, and is one of a dozen that travel together.
`knobs` is what a builder means by them, key by key.  `applied_exactly` says that a factory's
trials are the global ones with the builder's knobs over them, that an association runs with
the numbers that were set, and that the audio is processed by the stages that were chosen.
-/
import ReactorWebrtc.Lib.Strtoll
import ReactorWebrtc.Lib.Traverse
import ReactorWebrtc.Negotiation.Record

namespace ReactorWebrtc

/-- `x as c_int` -/
def UInt32.asCInt (x : UInt32) : Int := (BitVec.ofNat 32 x.toNat).toInt

/-- dcsctp's congestion control and timers; what is not set is left as it is. -/
structure SctpTuning where
  initialCwndMtus : Option UInt32 := none
  minCwndMtus : Option UInt32 := none
  rtoInitialMs : Option UInt32 := none
  rtoMinMs : Option UInt32 := none
  delayedAckMaxMs : Option UInt32 := none
  immediateSackUnderCwndMtus : Option UInt32 := none
  deriving DecidableEq, Repr

/-- Limits of a receiver's playout delay, in nanoseconds. -/
structure PlayoutDelay where
  min : Nat
  max : Nat
  deriving DecidableEq, Repr

/-- Which audio device a factory has. -/
inductive AdmMode
  | synthetic | platform
  deriving DecidableEq, Repr

/-- The stages of the audio processing that are asked for. -/
structure ApmConfig where
  echoCanceller : Bool := false
  noiseSuppression : Bool := false
  agc : Bool := false
  highPassFilter : Bool := false
  deriving DecidableEq, Repr

/-- Why a factory is not built. -/
inductive BuildError
  | chunking (e : SettingsError)
  | webrtc (e : Text)
  | minAboveMax (d : PlayoutDelay)
  | maxTooLarge (d : PlayoutDelay)
  deriving DecidableEq, Repr

/-- What libwebrtc's audio processing is built with; `none` of it passes audio through. -/
structure AudioProcessing where
  echoCanceller : Bool
  noiseSuppression : Bool
  /-- The level of the noise suppression is `kHigh`, not what it is by default. -/
  high : Bool
  gainController1 : Bool
  highPassFilter : Bool
  deriving DecidableEq, Repr

/-! ### The checks

These run in `build`, before anything native is made.
-/

namespace SctpTuning

/-- For requests and responses over a long or lossy path. -/
def lowLatency : SctpTuning where
  initialCwndMtus := some 200
  minCwndMtus := some 100
  delayedAckMaxMs := some 20
  immediateSackUnderCwndMtus := some 1000

/-- The largest window a tuning may ask for. -/
def maxMtus : Nat := 100000

/-- The longest time a tuning may ask for. -/
def maxMs : Nat := 60000

/-- Its own value is between 1 and `max`, if it is set. -/
def check (name : Text) (value : Option UInt32) (max : Nat) : Except BuildError Unit :=
  match value with
  | some v =>
    if v.toNat = 0 ∨ v.toNat > max then
      .error (.webrtc ("sctp tuning: ".toList ++ name ++ [' '] ++ Nat.toDigits 10 v.toNat ++
        " must be between 1 and ".toList ++ Nat.toDigits 10 max))
    else .ok ()
  | none => .ok ()

def validate (t : SctpTuning) : Except BuildError Unit := do
  check "initial_cwnd_mtus".toList t.initialCwndMtus maxMtus
  check "min_cwnd_mtus".toList t.minCwndMtus maxMtus
  check "rto_initial_ms".toList t.rtoInitialMs maxMs
  check "rto_min_ms".toList t.rtoMinMs maxMs
  check "delayed_ack_max_ms".toList t.delayedAckMaxMs maxMs
  check "immediate_sack_under_cwnd_mtus".toList t.immediateSackUnderCwndMtus maxMtus

end SctpTuning

namespace PlayoutDelay

/-- Every frame as soon as it can be decoded. -/
def immediate : PlayoutDelay := ⟨0, 0⟩

/-- 12 bits of 10 ms units. -/
def maxLimit : Nat := 40950 * 10 ^ 6

/-- `as_millis() as i32` -/
def asMillis (ns : Nat) : Int := (BitVec.ofNat 32 (ns / 10 ^ 6)).toInt

def validate (d : PlayoutDelay) : Except BuildError (Int × Int) :=
  if d.min > d.max then .error (.minAboveMax d)
  else if d.max > maxLimit then .error (.maxTooLarge d)
  else .ok (asMillis d.min, asMillis d.max)

end PlayoutDelay

/-- One bit for each stage. -/
def ApmConfig.toFlags (a : ApmConfig) : Nat :=
  let f := if a.echoCanceller then 0x01 else 0
  let f := if a.noiseSuppression then f ||| 0x02 else f
  let f := if a.agc then f ||| 0x04 else f
  if a.highPassFilter then f ||| 0x08 else f

/-! ### The options

The struct of the C interface, as far as the builder writes it, and what is written.
-/

/-- What the glue reads of a factory's settings. -/
structure ReactorFactoryOptions where
  usePlatformAdm : Int := 0
  apmFlags : Nat := 0
  openh264LibPath : Option Text := none
  dtlsInStun : Int := 0
  sctpMaxBurst : Int := 0
  sendPlayoutDelaySet : Int := 0
  sendPlayoutDelayMinMs : Int := 0
  sendPlayoutDelayMaxMs : Int := 0
  recvPlayoutDelaySet : Int := 0
  recvPlayoutDelayMinMs : Int := 0
  recvPlayoutDelayMaxMs : Int := 0
  sctpInitialCwndMtus : Int := 0
  sctpMinCwndMtus : Int := 0
  sctpRtoInitialMs : Int := 0
  sctpRtoMinMs : Int := 0
  sctpDelayedAckMaxMs : Int := 0
  sctpImmediateSackUnderCwndMtus : Int := 0
  senderTransformHoldMs : Int := 0
  deriving DecidableEq, Repr

/-- Zero where nothing is set. -/
def SctpTuning.value (x : Option UInt32) : Int := x.elim 0 UInt32.asCInt

/-- Every field, zero for the ones that are not set. -/
def SctpTuning.apply (t : SctpTuning) (opts : ReactorFactoryOptions) : ReactorFactoryOptions :=
  { opts with
    sctpInitialCwndMtus := value t.initialCwndMtus
    sctpMinCwndMtus := value t.minCwndMtus
    sctpRtoInitialMs := value t.rtoInitialMs
    sctpRtoMinMs := value t.rtoMinMs
    sctpDelayedAckMaxMs := value t.delayedAckMaxMs
    sctpImmediateSackUnderCwndMtus := value t.immediateSackUnderCwndMtus }

/-- The knobs, as far as they go by the options to the network stack and the audio. -/
structure PeerConnectionFactoryBuilder where
  adm : AdmMode := .synthetic
  apm : ApmConfig := {}
  dtlsInStun : Bool := false
  dcChunking : Option DcChunking := none
  sctpTuning : Option SctpTuning := none
  sendPlayoutDelay : Option PlayoutDelay := none
  receivePlayoutDelay : Option PlayoutDelay := none
  /-- In nanoseconds. -/
  senderTransformHold : Option Nat := none
  openh264 : Option Text := none
  deriving DecidableEq, Repr

namespace PeerConnectionFactoryBuilder

/-- The real microphone and speaker, with every stage of the audio processing. -/
def withPlatformAdm (b : PeerConnectionFactoryBuilder) : PeerConnectionFactoryBuilder :=
  { b with
    adm := .platform
    apm :=
      { echoCanceller := true, noiseSuppression := true, agc := true, highPassFilter := true } }

/-- The limits that `build` has checked, as the options carry them, and all the rest. -/
def written (b : PeerConnectionFactoryBuilder) (sendPlayout recvPlayout : Option (Int × Int)) :
    ReactorFactoryOptions :=
  let opts : ReactorFactoryOptions :=
    { usePlatformAdm := if b.adm = .platform then 1 else 0
      apmFlags := b.apm.toFlags
      openh264LibPath := b.openh264
      dtlsInStun := if b.dtlsInStun then 1 else 0
      sctpMaxBurst := b.dcChunking.elim 0 fun c => UInt32.asCInt c.maxBurst
      sendPlayoutDelaySet := if sendPlayout.isSome then 1 else 0
      sendPlayoutDelayMinMs := sendPlayout.elim 0 Prod.fst
      sendPlayoutDelayMaxMs := sendPlayout.elim 0 Prod.snd
      recvPlayoutDelaySet := if recvPlayout.isSome then 1 else 0
      recvPlayoutDelayMinMs := recvPlayout.elim 0 Prod.fst
      recvPlayoutDelayMaxMs := recvPlayout.elim 0 Prod.snd
      senderTransformHoldMs :=
        b.senderTransformHold.elim 0 fun ns => ((min (ns / 10 ^ 6) (2 ^ 31 - 1) : Nat) : Int) }
  b.sctpTuning.elim opts fun tuning => tuning.apply opts

/-- The options `build` hands to the glue, or why it hands none. -/
def options (b : PeerConnectionFactoryBuilder) : Except BuildError ReactorFactoryOptions := do
  b.dcChunking.elim (.ok ()) fun chunking => chunking.validate.mapError .chunking
  b.sctpTuning.elim (.ok ()) SctpTuning.validate
  let sendPlayout ← b.sendPlayoutDelay.mapM PlayoutDelay.validate
  let recvPlayout ← b.receivePlayoutDelay.mapM PlayoutDelay.validate
  if b.openh264.any (·.contains '\x00') then
    .error (.webrtc "openh264 lib_path contains a NUL byte".toList)
  else .ok (b.written sendPlayout recvPlayout)

end PeerConnectionFactoryBuilder

/-! ### The field trials

The glue keeps the texts under their keys in front of the process-global trials, and asks
those for any key that it has no text for.
-/

/-- What a text stands for under each key. -/
abbrev FieldTrials := Text → Text

namespace ReactorFieldTrials

def handshakeDtls : Text := "WebRTC-IceHandshakeDtls".toList
def maxBurst : Text := "WebRTC-DcSctp-MaxBurst".toList
def senderTransformHold : Text := "Reactor-SenderTransformHoldMs".toList
def forceSendPlayoutDelay : Text := "WebRTC-ForceSendPlayoutDelay".toList
def forcePlayoutDelay : Text := "WebRTC-ForcePlayoutDelay".toList
def initialCwndMtus : Text := "WebRTC-DcSctp-InitialCwndMtus".toList
def minCwndMtus : Text := "WebRTC-DcSctp-MinCwndMtus".toList
def rtoInitialMs : Text := "WebRTC-DcSctp-RtoInitialMs".toList
def rtoMinMs : Text := "WebRTC-DcSctp-RtoMinMs".toList
def delayedAckMaxTimeoutMs : Text := "WebRTC-DcSctp-DelayedAckMaxTimeoutMs".toList
def immediateSackUnderCwndMtus : Text := "WebRTC-DcSctp-ImmediateSackUnderCwndMtus".toList

/-- What the glue keeps of the options. -/
structure Settings where
  dtlsInStun : Bool := false
  sctpMaxBurst : Int := 0
  sendPlayoutDelay : Text := []
  recvPlayoutDelay : Text := []
  sctpTuning : List (Text × Int) := []
  senderTransformHoldMs : Int := 0
  deriving DecidableEq, Repr

/-- Whether the factory needs trials of its own at all. -/
def Settings.any (s : Settings) : Bool :=
  s.dtlsInStun || s.sctpMaxBurst > 0 || !s.sendPlayoutDelay.isEmpty ||
    !s.recvPlayoutDelay.isEmpty || !s.sctpTuning.isEmpty || s.senderTransformHoldMs > 0

/-- `std::to_string` -/
def toString (n : Int) : Text := (Text.Number.print n).text

/-- The factory's own keys first, in this order, and then the global trials. -/
def lookup (s : Settings) (globals : FieldTrials) (key : Text) : Text :=
  if s.dtlsInStun ∧ key = handshakeDtls then "Enabled".toList
  else
    match s.sctpTuning.lookup key with
    | some v => toString v
    | none =>
      if s.sctpMaxBurst > 0 ∧ key = maxBurst then toString s.sctpMaxBurst
      else if s.senderTransformHoldMs > 0 ∧ key = senderTransformHold then
        toString s.senderTransformHoldMs
      else if s.sendPlayoutDelay ≠ [] ∧ key = forceSendPlayoutDelay then s.sendPlayoutDelay
      else if s.recvPlayoutDelay ≠ [] ∧ key = forcePlayoutDelay then s.recvPlayoutDelay
      else globals key

/-- The text that libwebrtc parses a playout delay from. -/
def playoutDelay (minMs maxMs : Int) : Text :=
  "min_ms:".toList ++ toString minMs ++ ",max_ms:".toList ++ toString maxMs

/-- The tunings of the options, by key. -/
def tunings (opts : ReactorFactoryOptions) : List (Text × Int) :=
  [(initialCwndMtus, opts.sctpInitialCwndMtus), (minCwndMtus, opts.sctpMinCwndMtus),
    (rtoInitialMs, opts.sctpRtoInitialMs), (rtoMinMs, opts.sctpRtoMinMs),
    (delayedAckMaxTimeoutMs, opts.sctpDelayedAckMaxMs),
    (immediateSackUnderCwndMtus, opts.sctpImmediateSackUnderCwndMtus)]

/-- What is on goes in; a number of zero is off. -/
def settings (opts : ReactorFactoryOptions) : Settings where
  dtlsInStun := opts.dtlsInStun ≠ 0
  sctpMaxBurst := opts.sctpMaxBurst
  senderTransformHoldMs := opts.senderTransformHoldMs
  sctpTuning := (tunings opts).filter (·.2 > 0)
  sendPlayoutDelay :=
    if opts.sendPlayoutDelaySet ≠ 0 then
      playoutDelay opts.sendPlayoutDelayMinMs opts.sendPlayoutDelayMaxMs
    else []
  recvPlayoutDelay :=
    if opts.recvPlayoutDelaySet ≠ 0 then
      playoutDelay opts.recvPlayoutDelayMinMs opts.recvPlayoutDelayMaxMs
    else []

end ReactorFieldTrials

/-- The trials of a factory's environment: its own only if it has any. -/
def environment (opts : ReactorFactoryOptions) (globals : FieldTrials) : FieldTrials :=
  let s := ReactorFieldTrials.settings opts
  if s.any then ReactorFieldTrials.lookup s globals else globals

/-! ### What dcsctp takes from them -/

/-- `std::atoi` -/
def atoi (s : Text) : Int :=
  match Text.strtoll s with
  | some (n, _) => (BitVec.ofInt 32 n).toInt
  | none => 0

/-- The options of an association that a trial can change. -/
structure DcSctpOptions where
  maxBurst : Int := 4
  cwndMtusInitial : Int := 10
  cwndMtusMin : Int := 4
  rtoMin : Int := 400
  rtoInitial : Int := 500
  delayedAckMaxTimeout : Int := 200
  immediateSackUnderCwndMtus : Int := 10
  deriving DecidableEq, Repr

/-- A positive number goes over the default. -/
def trial (trials : FieldTrials) (key : Text) (default : Int) : Int :=
  let v := atoi (trials key)
  if v > 0 then v else default

/-- Its own defaults, with the trials over them. -/
def createDcSctpOptions (trials : FieldTrials) : DcSctpOptions :=
  let d : DcSctpOptions := {}
  { maxBurst := trial trials ReactorFieldTrials.maxBurst d.maxBurst
    cwndMtusInitial := trial trials ReactorFieldTrials.initialCwndMtus d.cwndMtusInitial
    cwndMtusMin := trial trials ReactorFieldTrials.minCwndMtus d.cwndMtusMin
    rtoMin := trial trials ReactorFieldTrials.rtoMinMs d.rtoMin
    rtoInitial := trial trials ReactorFieldTrials.rtoInitialMs d.rtoInitial
    delayedAckMaxTimeout :=
      trial trials ReactorFieldTrials.delayedAckMaxTimeoutMs d.delayedAckMaxTimeout
    immediateSackUnderCwndMtus :=
      trial trials ReactorFieldTrials.immediateSackUnderCwndMtus d.immediateSackUnderCwndMtus }

/-! ### The audio processing -/

/-- No flag at all, and there is no processing. -/
def buildApm (flags : Nat) : Option AudioProcessing :=
  if flags = 0 then none
  else
    let noiseSuppression := flags &&& 0x02 ≠ 0
    some
      { echoCanceller := flags &&& 0x01 ≠ 0
        noiseSuppression
        high := noiseSuppression
        gainController1 := flags &&& 0x04 ≠ 0
        highPassFilter := flags &&& 0x08 ≠ 0 }

/-- Every stage that was chosen and no other; nothing at all where none was. -/
def ApmConfig.chosen (a : ApmConfig) : Option AudioProcessing :=
  if a = {} then none
  else some ⟨a.echoCanceller, a.noiseSuppression, a.noiseSuppression, a.agc, a.highPassFilter⟩

theorem buildApm_toFlags (a : ApmConfig) : buildApm a.toFlags = a.chosen := by
  obtain ⟨echo, noise, agc, high⟩ := a
  cases echo <;> cases noise <;> cases agc <;> cases high <;> decide

/-! ### What the builder means

The same again, but without the options, the casts and the zeroes: each knob has its key,
and a text if it is on.
-/

namespace PeerConnectionFactoryBuilder

/-- A number in the trials. -/
def decimal (n : Nat) : Text := Nat.toDigits 10 n

/-- A tuning's own field, if there is a tuning and it sets the field. -/
def tuned (b : PeerConnectionFactoryBuilder) (field : SctpTuning → Option UInt32) : Option UInt32 :=
  b.sctpTuning.bind field

/-- The burst that chunking asks for. -/
def burst (b : PeerConnectionFactoryBuilder) : Option UInt32 := b.dcChunking.map (·.maxBurst)

/-- The hold in milliseconds, if it comes to one at least. -/
def holdMs (b : PeerConnectionFactoryBuilder) : Option Nat :=
  (b.senderTransformHold.map fun ns => min (ns / 10 ^ 6) (2 ^ 31 - 1)).filter (0 < ·)

/-- A playout delay in the trials, in whole milliseconds. -/
def limits (d : PlayoutDelay) : Text :=
  "min_ms:".toList ++ decimal (d.min / 10 ^ 6) ++ ",max_ms:".toList ++ decimal (d.max / 10 ^ 6)

open ReactorFieldTrials in
/-- What each key is to answer, if its knob is set. -/
def knobs (b : PeerConnectionFactoryBuilder) : List (Text × Option Text) :=
  [(handshakeDtls, if b.dtlsInStun then some "Enabled".toList else none),
    (initialCwndMtus, (b.tuned (·.initialCwndMtus)).map (decimal ·.toNat)),
    (minCwndMtus, (b.tuned (·.minCwndMtus)).map (decimal ·.toNat)),
    (rtoInitialMs, (b.tuned (·.rtoInitialMs)).map (decimal ·.toNat)),
    (rtoMinMs, (b.tuned (·.rtoMinMs)).map (decimal ·.toNat)),
    (delayedAckMaxTimeoutMs, (b.tuned (·.delayedAckMaxMs)).map (decimal ·.toNat)),
    (immediateSackUnderCwndMtus, (b.tuned (·.immediateSackUnderCwndMtus)).map (decimal ·.toNat)),
    (maxBurst, b.burst.map (decimal ·.toNat)),
    (ReactorFieldTrials.senderTransformHold, b.holdMs.map decimal),
    (forceSendPlayoutDelay, b.sendPlayoutDelay.map limits),
    (forcePlayoutDelay, b.receivePlayoutDelay.map limits)]

end PeerConnectionFactoryBuilder

/-! ### Numbers on their way

A number that fits an `int` is the same number when it has been cast, printed and parsed.
-/

theorem UInt32.asCInt_eq {x : UInt32} (h : x.toNat < 2 ^ 31) : UInt32.asCInt x = x.toNat := by
  have hx : x.toNat % 2 ^ 32 = x.toNat := Nat.mod_eq_of_lt (by omega)
  rw [asCInt, BitVec.toInt_eq_toNat_of_lt, BitVec.toNat_ofNat, hx]
  rw [BitVec.toNat_ofNat, hx]
  omega

theorem PlayoutDelay.asMillis_eq {ns : Nat} (h : ns ≤ maxLimit) :
    asMillis ns = (ns / 10 ^ 6 : Nat) := by
  have hms : ns / 10 ^ 6 ≤ 40950 := Nat.div_le_of_le_mul (h.trans (by decide))
  have hmod : ns / 10 ^ 6 % 2 ^ 32 = ns / 10 ^ 6 := Nat.mod_eq_of_lt (by omega)
  rw [asMillis, BitVec.toInt_eq_toNat_of_lt, BitVec.toNat_ofNat, hmod]
  rw [BitVec.toNat_ofNat, hmod]
  omega

theorem ReactorFieldTrials.toString_natCast (n : Nat) :
    toString n = PeerConnectionFactoryBuilder.decimal n := by
  have hsign : ¬ (n : Int) < 0 := by omega
  show [] ++ ((if (n : Int) < 0 then ['-'] else []) ++ Nat.toDigits 10 (n : Int).natAbs) = _
  rw [if_neg hsign, Int.natAbs_natCast]
  rfl

/-- A number that is printed is read back. -/
theorem atoi_toString {n : Int} (h0 : 0 ≤ n) (h : n < 2 ^ 31) :
    atoi (ReactorFieldTrials.toString n) = n := by
  have hread := @Text.strtoll_text (Text.Number.print n) [] (by rintro c ⟨⟩)
  have hclamp : Text.clamp n = n := by
    unfold Text.clamp
    omega
  rw [List.append_nil, Text.Number.value_print, hclamp] at hread
  unfold atoi ReactorFieldTrials.toString
  rw [hread]
  exact BitVec.toInt_ofInt_eq_self (by decide) (by omega) (by omega)

/-! ### The checks, passed

What is known of the options of a builder whose checks have passed.
-/

theorem SctpTuning.check_ok_iff {name : Text} {value : Option UInt32} {max : Nat} :
    check name value max = .ok () ↔ ∀ v, value = some v → 0 < v.toNat ∧ v.toNat ≤ max := by
  cases value with
  | none => exact ⟨fun _ _ h => (by cases h), fun _ => rfl⟩
  | some v =>
      show (if v.toNat = 0 ∨ v.toNat > max then _ else Except.ok ()) = Except.ok () ↔ _
      by_cases h : v.toNat = 0 ∨ v.toNat > max
      · refine ⟨fun hok => ?_, fun hv => ?_⟩
        · rw [if_pos h] at hok
          cases hok
        · have := hv v rfl
          omega
      · refine ⟨?_, fun _ => if_neg h⟩
        rintro - _ ⟨⟩
        omega

/-- What a tuning that passes holds, is positive and within a C `int`. -/
def SctpTuning.Fits (x : Option UInt32) : Prop := ∀ v, x = some v → 0 < v.toNat ∧ v.toNat < 2 ^ 31

theorem SctpTuning.fits_of_check {name : Text} {value : Option UInt32} {max : Nat}
    (hmax : max < 2 ^ 31) (h : check name value max = .ok ()) : Fits value := by
  intro v hv
  have := check_ok_iff.mp h v hv
  omega

theorem SctpTuning.validate_fits {t : SctpTuning} (h : t.validate = .ok ()) :
    Fits t.initialCwndMtus ∧ Fits t.minCwndMtus ∧ Fits t.rtoInitialMs ∧ Fits t.rtoMinMs ∧
      Fits t.delayedAckMaxMs ∧ Fits t.immediateSackUnderCwndMtus := by
  simp only [validate, Traverse.bind_eq_ok] at h
  obtain ⟨_, hinitial, _, hmin, _, hrtoInitial, _, hrtoMin, _, hack, hsack⟩ := h
  have hmtus : maxMtus < 2 ^ 31 := by decide
  have hms : maxMs < 2 ^ 31 := by decide
  exact ⟨fits_of_check hmtus hinitial, fits_of_check hmtus hmin, fits_of_check hms hrtoInitial,
    fits_of_check hms hrtoMin, fits_of_check hms hack, fits_of_check hmtus hsack⟩

theorem PlayoutDelay.validate_eq {d : PlayoutDelay} {v : Int × Int} (h : d.validate = .ok v) :
    v = (((d.min / 10 ^ 6 : Nat) : Int), ((d.max / 10 ^ 6 : Nat) : Int)) := by
  unfold validate at h
  split at h
  · cases h
  · split at h
    · cases h
    · rename_i hmin hmax
      cases h
      rw [asMillis_eq (Nat.le_of_not_lt hmax),
        asMillis_eq ((Nat.le_of_not_lt hmin).trans (Nat.le_of_not_lt hmax))]

theorem DcChunking.maxBurst_fits {c : DcChunking} (h : c.validate = .ok ()) :
    SctpTuning.Fits (some c.maxBurst) := by
  rintro _ ⟨⟩
  unfold validate at h
  split at h
  · cases h
  · rename_i hburst
    have hne : c.maxBurst.toNat ≠ 0 := fun h0 => hburst (.inl (UInt32.toNat_inj.mp h0))
    omega

namespace PeerConnectionFactoryBuilder

/-- What `build` has checked once it has options, and the options. -/
theorem options_ok {b : PeerConnectionFactoryBuilder} {opts : ReactorFactoryOptions}
    (h : b.options = .ok opts) :
    (∀ c, b.dcChunking = some c → c.validate = .ok ()) ∧
      (∀ t, b.sctpTuning = some t → t.validate = .ok ()) ∧
      ∃ send recv, b.sendPlayoutDelay.mapM PlayoutDelay.validate = .ok send ∧
        b.receivePlayoutDelay.mapM PlayoutDelay.validate = .ok recv ∧
        opts = b.written send recv := by
  simp only [options, Traverse.bind_eq_ok] at h
  obtain ⟨⟨⟩, hchunking, ⟨⟩, htuning, send, hsend, recv, hrecv, hopts⟩ := h
  refine ⟨fun c hc => ?_, fun t ht => ?_, send, recv, hsend, hrecv, ?_⟩
  · rw [hc, Option.elim_some] at hchunking
    cases hv : c.validate with
    | error e =>
        rw [hv] at hchunking
        cases hchunking
    | ok => rfl
  · rw [ht] at htuning
    exact htuning
  · split at hopts
    · cases hopts
    · exact (Except.ok.inj hopts).symm

end PeerConnectionFactoryBuilder

/-! ### The first answer

The glue's look-up goes through its keys in one order, and what a builder means is another
list of the same keys.  The first answer in a list is the same in any order as long as no
key is there twice.
-/

namespace ReactorFieldTrials

/-- What the first key that is `key` and is on answers. -/
def first (l : List (Text × Option Text)) (key : Text) : Option Text :=
  l.findSome? fun p => if p.1 = key then p.2 else none

@[simp] theorem first_cons (p : Text × Option Text) (l : List (Text × Option Text)) (key : Text) :
    first (p :: l) key = (if p.1 = key then p.2 else none).or (first l key) := by
  unfold first
  rw [List.findSome?_cons]
  cases (if p.1 = key then p.2 else none) <;> rfl

@[simp] theorem first_nil (key : Text) : first [] key = none := rfl

theorem first_append (l l' : List (Text × Option Text)) (key : Text) :
    first (l ++ l') key = (first l key).or (first l' key) :=
  List.findSome?_append

/-- Where no key comes twice, the first is the only one. -/
theorem first_eq_lookup {l : List (Text × Option Text)} (h : (l.map Prod.fst).Nodup) (key : Text) :
    first l key = (l.lookup key).join := by
  induction l with
  | nil => rfl
  | cons p l ih =>
      obtain ⟨k, x⟩ := p
      obtain ⟨hk, hl⟩ := List.nodup_cons.mp h
      rw [first_cons, ih hl]
      by_cases hkey : k = key
      · subst hkey
        have hnone : l.lookup k = none := by
          rw [List.lookup_eq_none_iff]
          intro p hp
          exact bne_iff_ne.mpr fun he => hk (List.mem_map.mpr ⟨p, hp, he.symm⟩)
        rw [if_pos rfl, hnone, List.lookup_cons_self, Option.join_none, Option.or_none]
        rfl
      · rw [if_neg hkey, Option.none_or, List.lookup_cons,
          beq_eq_false_iff_ne.mpr (Ne.symm hkey)]

/-- `v` in decimal, if it is on. -/
def positive (v : Int) : Option Text := if v > 0 then some (toString v) else none

/-- What each key answers under the options. -/
def answers (opts : ReactorFactoryOptions) : List (Text × Option Text) :=
  [(handshakeDtls, if opts.dtlsInStun ≠ 0 then some "Enabled".toList else none)] ++
    (tunings opts).map (fun p => (p.1, positive p.2)) ++
    [(maxBurst, positive opts.sctpMaxBurst),
      (senderTransformHold, positive opts.senderTransformHoldMs),
      (forceSendPlayoutDelay, if opts.sendPlayoutDelaySet ≠ 0 then
        some (playoutDelay opts.sendPlayoutDelayMinMs opts.sendPlayoutDelayMaxMs) else none),
      (forcePlayoutDelay, if opts.recvPlayoutDelaySet ≠ 0 then
        some (playoutDelay opts.recvPlayoutDelayMinMs opts.recvPlayoutDelayMaxMs) else none)]

theorem lookup_filter_positive (l : List (Text × Int)) (key : Text) :
    ((l.filter (·.2 > 0)).lookup key).map toString =
      first (l.map fun p => (p.1, positive p.2)) key := by
  induction l with
  | nil => rfl
  | cons p l ih =>
      obtain ⟨k, v⟩ := p
      rw [List.map_cons, first_cons, ← ih]
      by_cases hv : v > 0
      · rw [List.filter_cons_of_pos (by simpa using hv), List.lookup_cons]
        by_cases hk : key = k
        · subst hk
          simp [positive, hv]
        · rw [beq_eq_false_iff_ne.mpr hk, if_neg (Ne.symm hk), Option.none_or]
      · rw [List.filter_cons_of_neg (by simpa using hv)]
        simp [positive, hv]

/-- One test of `lookup`. -/
theorem answer_if (on : Prop) [Decidable on] (key k v : Text) (rest : Text) :
    (if on ∧ key = k then v else rest) =
      (if k = key then (if on then some v else none) else none).getD rest := by
  by_cases hon : on <;> by_cases hk : key = k <;> simp [hon, hk, Ne.symm]

/-- The test for limits, which are a text only where they are set. -/
theorem answer_limits (set minMs maxMs : Int) (key k rest : Text) :
    (if (if set ≠ 0 then playoutDelay minMs maxMs else []) ≠ [] ∧ key = k then
        (if set ≠ 0 then playoutDelay minMs maxMs else []) else rest) =
      (if k = key then (if set ≠ 0 then some (playoutDelay minMs maxMs) else none)
        else none).getD rest := by
  by_cases hset : set ≠ 0
  · have hne : playoutDelay minMs maxMs ≠ [] := List.cons_ne_nil _ _
    simp only [if_pos hset]
    rw [answer_if, if_pos hne]
  · simp [hset]

theorem lookup_settings (opts : ReactorFactoryOptions) (globals : FieldTrials) (key : Text) :
    lookup (settings opts) globals key = (first (answers opts) key).getD (globals key) := by
  have htuning (rest : Text) : (match (settings opts).sctpTuning.lookup key with
      | some v => toString v
      | none => rest) =
      (first ((tunings opts).map fun p => (p.1, positive p.2)) key).getD rest := by
    rw [← lookup_filter_positive]
    show (match ((tunings opts).filter (·.2 > 0)).lookup key with
      | some v => toString v
      | none => rest) = _
    cases ((tunings opts).filter (·.2 > 0)).lookup key <;> rfl
  unfold lookup
  rw [htuning, answer_if, answer_if, answer_if]
  unfold answers settings
  dsimp only
  rw [answer_limits, answer_limits, first_append, first_append]
  simp only [first_cons, first_nil, Option.or_none, Option.getD_or, decide_eq_true_eq, positive]

/-- Where nothing is on, nothing is answered. -/
theorem lookup_of_not_any {s : Settings} (h : ¬ s.any = true) (globals : FieldTrials) (key : Text) :
    lookup s globals key = globals key := by
  simp only [Settings.any, Bool.or_eq_true, decide_eq_true_eq, Bool.not_eq_true',
    List.isEmpty_eq_false_iff, not_or, Bool.not_eq_true, not_not] at h
  obtain ⟨⟨⟨⟨⟨hdtls, hburst⟩, hsend⟩, hrecv⟩, htuning⟩, hhold⟩ := h
  simp [lookup, hdtls, hburst, hsend, hrecv, htuning, hhold]

/-- A factory's trials: the global ones, and over them what its options answer. -/
theorem environment_eq (opts : ReactorFactoryOptions) (globals : FieldTrials) (key : Text) :
    environment opts globals key = (first (answers opts) key).getD (globals key) := by
  show (if (settings opts).any then lookup (settings opts) globals else globals) key = _
  rw [← lookup_settings]
  by_cases hany : (settings opts).any = true
  · rw [if_pos hany]
  · rw [if_neg hany, lookup_of_not_any hany]

end ReactorFieldTrials

/-! ### What is written is what was meant

One lemma for each group of the options, and the theorem puts them together.
-/

namespace PeerConnectionFactoryBuilder

open ReactorFieldTrials

theorem positive_value {x : Option UInt32} (h : SctpTuning.Fits x) :
    positive (SctpTuning.value x) = x.map (decimal ·.toNat) := by
  cases x with
  | none => rfl
  | some v =>
      obtain ⟨hpos, hlt⟩ := h v rfl
      show positive (UInt32.asCInt v) = some (decimal v.toNat)
      rw [UInt32.asCInt_eq hlt, positive, if_pos (by omega), toString_natCast]

theorem mapM_validate {d : Option PlayoutDelay} {v : Option (Int × Int)}
    (h : d.mapM PlayoutDelay.validate = .ok v) :
    v = d.map fun d => (((d.min / 10 ^ 6 : Nat) : Int), ((d.max / 10 ^ 6 : Nat) : Int)) := by
  cases d with
  | none =>
      cases h
      rfl
  | some d =>
      obtain ⟨w, hw, hv⟩ := Traverse.bind_eq_ok.mp h
      cases hv
      rw [PlayoutDelay.validate_eq hw]
      rfl

theorem positive_hold (b : PeerConnectionFactoryBuilder) :
    positive (b.senderTransformHold.elim 0 fun ns =>
      ((min (ns / 10 ^ 6) (2 ^ 31 - 1) : Nat) : Int)) = b.holdMs.map decimal := by
  unfold holdMs
  cases b.senderTransformHold with
  | none => rfl
  | some ns =>
      show positive ((min (ns / 10 ^ 6) (2 ^ 31 - 1) : Nat) : Int) =
        ((some (min (ns / 10 ^ 6) (2 ^ 31 - 1))).filter (0 < ·)).map decimal
      generalize min (ns / 10 ^ 6) (2 ^ 31 - 1) = ms
      by_cases hms : 0 < ms
      · rw [positive, if_pos (by omega), toString_natCast]
        simp [hms]
      · obtain rfl : ms = 0 := by omega
        rfl

/-- A tuning is written field by field, and all of it is off where there is none. -/
theorem written_tunings (b : PeerConnectionFactoryBuilder) (send recv : Option (Int × Int)) :
    tunings (b.written send recv) =
      [(initialCwndMtus, SctpTuning.value (b.tuned (·.initialCwndMtus))),
        (minCwndMtus, SctpTuning.value (b.tuned (·.minCwndMtus))),
        (rtoInitialMs, SctpTuning.value (b.tuned (·.rtoInitialMs))),
        (rtoMinMs, SctpTuning.value (b.tuned (·.rtoMinMs))),
        (delayedAckMaxTimeoutMs, SctpTuning.value (b.tuned (·.delayedAckMaxMs))),
        (immediateSackUnderCwndMtus,
          SctpTuning.value (b.tuned (·.immediateSackUnderCwndMtus)))] := by
  unfold written tuned tunings
  cases b.sctpTuning <;> rfl

/-- The rest is written whether there is a tuning or not. -/
theorem written_rest (b : PeerConnectionFactoryBuilder) (send recv : Option (Int × Int)) :
    let opts := b.written send recv
    opts.dtlsInStun = (if b.dtlsInStun then 1 else 0) ∧
      opts.sctpMaxBurst = SctpTuning.value b.burst ∧
      opts.senderTransformHoldMs = b.senderTransformHold.elim 0 (fun ns =>
        ((min (ns / 10 ^ 6) (2 ^ 31 - 1) : Nat) : Int)) ∧
      opts.sendPlayoutDelaySet = (if send.isSome then 1 else 0) ∧
      opts.sendPlayoutDelayMinMs = send.elim 0 Prod.fst ∧
      opts.sendPlayoutDelayMaxMs = send.elim 0 Prod.snd ∧
      opts.recvPlayoutDelaySet = (if recv.isSome then 1 else 0) ∧
      opts.recvPlayoutDelayMinMs = recv.elim 0 Prod.fst ∧
      opts.recvPlayoutDelayMaxMs = recv.elim 0 Prod.snd := by
  unfold written burst
  cases b.sctpTuning <;> cases b.dcChunking <;>
    exact ⟨rfl, rfl, rfl, rfl, rfl, rfl, rfl, rfl, rfl⟩

/-- The limits of one side, as they are answered. -/
theorem limits_eq (d : Option PlayoutDelay) (v : Option (Int × Int))
    (h : v = d.map fun d => (((d.min / 10 ^ 6 : Nat) : Int), ((d.max / 10 ^ 6 : Nat) : Int))) :
    (if (if v.isSome then (1 : Int) else 0) ≠ 0 then
      some (playoutDelay (v.elim 0 Prod.fst) (v.elim 0 Prod.snd)) else none) = d.map limits := by
  subst h
  cases d with
  | none => rfl
  | some d =>
      show some (playoutDelay ((d.min / 10 ^ 6 : Nat) : Int) ((d.max / 10 ^ 6 : Nat) : Int)) = _
      unfold playoutDelay
      rw [toString_natCast, toString_natCast]
      rfl

theorem burst_fits {b : PeerConnectionFactoryBuilder} {opts : ReactorFactoryOptions}
    (h : b.options = .ok opts) : SctpTuning.Fits b.burst := by
  intro v hv
  obtain ⟨c, hc, rfl⟩ := Option.map_eq_some_iff.mp hv
  exact DcChunking.maxBurst_fits ((options_ok h).1 c hc) _ rfl

theorem tuned_fits {b : PeerConnectionFactoryBuilder} {opts : ReactorFactoryOptions}
    (h : b.options = .ok opts) :
    SctpTuning.Fits (b.tuned (·.initialCwndMtus)) ∧ SctpTuning.Fits (b.tuned (·.minCwndMtus)) ∧
      SctpTuning.Fits (b.tuned (·.rtoInitialMs)) ∧ SctpTuning.Fits (b.tuned (·.rtoMinMs)) ∧
      SctpTuning.Fits (b.tuned (·.delayedAckMaxMs)) ∧
      SctpTuning.Fits (b.tuned (·.immediateSackUnderCwndMtus)) := by
  unfold tuned
  cases ht : b.sctpTuning with
  | none =>
      have hnone : SctpTuning.Fits none := fun _ hv => by cases hv
      exact ⟨hnone, hnone, hnone, hnone, hnone, hnone⟩
  | some t => exact SctpTuning.validate_fits ((options_ok h).2.1 t ht)

/-- The options answer every knob as it was set. -/
theorem answers_eq {b : PeerConnectionFactoryBuilder} {opts : ReactorFactoryOptions}
    (h : b.options = .ok opts) : answers opts = b.knobs := by
  obtain ⟨-, -, send, recv, hsend, hrecv, rfl⟩ := options_ok h
  obtain ⟨hdtls, hburst, hhold, hsendSet, hsendMin, hsendMax, hrecvSet, hrecvMin, hrecvMax⟩ :=
    written_rest b send recv
  obtain ⟨hinitial, hmin, hrtoInitial, hrtoMin, hack, hsack⟩ := tuned_fits h
  unfold answers
  rw [written_tunings, hdtls, hburst, hhold, hsendSet, hsendMin, hsendMax, hrecvSet, hrecvMin,
    hrecvMax, limits_eq _ _ (mapM_validate hsend), limits_eq _ _ (mapM_validate hrecv),
    positive_value (burst_fits h), positive_hold]
  simp only [List.map_cons, List.map_nil, positive_value hinitial, positive_value hmin,
    positive_value hrtoInitial, positive_value hrtoMin, positive_value hack, positive_value hsack]
  have hon : (if (if b.dtlsInStun then (1 : Int) else 0) ≠ 0 then some "Enabled".toList else none) =
      if b.dtlsInStun then some "Enabled".toList else none := by
    cases b.dtlsInStun <;> rfl
  rw [hon]
  rfl

theorem knobs_nodup (b : PeerConnectionFactoryBuilder) : (b.knobs.map Prod.fst).Nodup := by
  show List.Nodup [handshakeDtls, initialCwndMtus, minCwndMtus, rtoInitialMs, rtoMinMs,
    delayedAckMaxTimeoutMs, immediateSackUnderCwndMtus, maxBurst,
    ReactorFieldTrials.senderTransformHold, forceSendPlayoutDelay, forcePlayoutDelay]
  decide

theorem environment_knobs {b : PeerConnectionFactoryBuilder} {opts : ReactorFactoryOptions}
    (h : b.options = .ok opts) (globals : FieldTrials) (key : Text) :
    environment opts globals key = ((b.knobs.lookup key).join).getD (globals key) := by
  rw [environment_eq, answers_eq h, first_eq_lookup b.knobs_nodup]

/-- A number that was set is the number dcsctp takes. -/
theorem trial_eq {trials globals : FieldTrials} {key : Text} {x : Option UInt32}
    (hfits : SctpTuning.Fits x)
    (h : trials key = (x.map (decimal ·.toNat)).getD (globals key)) (default : Int) :
    trial trials key default = x.elim (trial globals key default) (fun v => (v.toNat : Int)) := by
  cases x with
  | none =>
      unfold trial
      rw [h]
      rfl
  | some v =>
      obtain ⟨hpos, hlt⟩ := hfits v rfl
      have hread : atoi (trials key) = v.toNat := by
        rw [h]
        show atoi (decimal v.toNat) = v.toNat
        rw [← toString_natCast]
        exact atoi_toString (by omega) (by omega)
      unfold trial
      rw [hread]
      exact if_pos (by omega)

/-- A knob that is set gives an association its number, one that is not leaves it to the
trials the process has. -/
def meant (x : Option UInt32) (globals : FieldTrials) (key : Text) (default : Int) : Int :=
  x.elim (trial globals key default) fun v => (v.toNat : Int)

theorem written_apmFlags (b : PeerConnectionFactoryBuilder) (send recv : Option (Int × Int)) :
    (b.written send recv).apmFlags = b.apm.toFlags := by
  unfold written
  cases b.sctpTuning <;> rfl

/-- The trials of a factory are the process's with the builder's knobs over them, its
associations run with the numbers that were set, and its audio goes through the stages that
were chosen. -/
theorem applied_exactly {b : PeerConnectionFactoryBuilder} {opts : ReactorFactoryOptions}
    (h : b.options = .ok opts) (globals : FieldTrials) :
    (∀ key, environment opts globals key = ((b.knobs.lookup key).join).getD (globals key)) ∧
      createDcSctpOptions (environment opts globals) =
        { maxBurst := meant b.burst globals maxBurst 4
          cwndMtusInitial := meant (b.tuned (·.initialCwndMtus)) globals initialCwndMtus 10
          cwndMtusMin := meant (b.tuned (·.minCwndMtus)) globals minCwndMtus 4
          rtoMin := meant (b.tuned (·.rtoMinMs)) globals rtoMinMs 400
          rtoInitial := meant (b.tuned (·.rtoInitialMs)) globals rtoInitialMs 500
          delayedAckMaxTimeout :=
            meant (b.tuned (·.delayedAckMaxMs)) globals delayedAckMaxTimeoutMs 200
          immediateSackUnderCwndMtus :=
            meant (b.tuned (·.immediateSackUnderCwndMtus)) globals
              ReactorFieldTrials.immediateSackUnderCwndMtus 10 } ∧
      buildApm opts.apmFlags = b.apm.chosen := by
  have hapm : opts.apmFlags = b.apm.toFlags := by
    obtain ⟨-, -, send, recv, -, -, rfl⟩ := options_ok h
    exact written_apmFlags b send recv
  refine ⟨environment_knobs h globals, ?_, hapm ▸ buildApm_toFlags b.apm⟩
  have hkey := environment_knobs h globals
  obtain ⟨hinitial, hmin, hrtoInitial, hrtoMin, hack, hsack⟩ := tuned_fits h
  unfold createDcSctpOptions
  dsimp only
  rw [trial_eq (burst_fits h) (hkey maxBurst), trial_eq hinitial (hkey initialCwndMtus),
    trial_eq hmin (hkey minCwndMtus), trial_eq hrtoMin (hkey rtoMinMs),
    trial_eq hrtoInitial (hkey rtoInitialMs), trial_eq hack (hkey delayedAckMaxTimeoutMs),
    trial_eq hsack (hkey ReactorFieldTrials.immediateSackUnderCwndMtus)]
  rfl

/-- `low_latency` with an immediate playout, in a process without trials of its own. -/
theorem applied_lowLatency :
    let opts := written { sctpTuning := some .lowLatency, sendPlayoutDelay := some .immediate }
      (some (0, 0)) none
    let trials := environment opts fun _ => []
    trials forceSendPlayoutDelay = "min_ms:0,max_ms:0".toList ∧
      createDcSctpOptions trials =
        { cwndMtusInitial := 200, cwndMtusMin := 100, delayedAckMaxTimeout := 20,
          immediateSackUnderCwndMtus := 1000 } := by
  obtain ⟨htrials, hdcsctp, -⟩ := applied_exactly
    (b := { sctpTuning := some .lowLatency, sendPlayoutDelay := some .immediate })
    (show _ = Except.ok (written { sctpTuning := some .lowLatency, sendPlayoutDelay := some .immediate }
      (some (0, 0)) none) by rfl) fun _ => []
  refine ⟨(htrials forceSendPlayoutDelay).trans (by decide), hdcsctp.trans (by decide)⟩

end PeerConnectionFactoryBuilder

end ReactorWebrtc
