/-
The encoders that send what the application has encoded.

libwebrtc makes an encoder for every video stream.  If the stream's track has a custom slot it is
this one, which asks the registry on the other side of the C interface for a frame and hands
the bytes on as an image of its own.  Every such encoder, both codec factories and
`factory_create` share what they need for asking; the registry's box goes with it, with the last
of them, and not before.

The bytes of a frame leave Rust as a leaked buffer and are freed by a callback when they were
copied.  A call of `Encode` is two steps here, one that asks and one that hands on, and between
them anything may happen elsewhere, but not to the same encoder, which libwebrtc uses from one
queue.

`custom_encoder_safe` is about the box and the buffers, `custom_encoder_sends` about the frames.
-/
import Mathlib.Data.List.Nodup
import ReactorWebrtc.Encoders.Accounting
import ReactorWebrtc.Lib.Arena
import ReactorWebrtc.Lib.Counted
import ReactorWebrtc.Lib.Traverse

namespace ReactorWebrtc.CustomEncoder

/-! ### What is handed on

The image has what the application said of its frame, and the raw frame's times and size
where it said nothing.
-/

/-- `webrtc::VideoCodecType` -/
inductive VideoCodecType
  | generic | vp8 | vp9 | av1 | h264 | h265
  deriving DecidableEq, Repr

/-- What an `EncodedVideoFrame` says beside its bytes; zero is for the raw frame's. -/
structure FrameInfo where
  isKeyFrame : Bool := false
  width : UInt32 := 0
  height : UInt32 := 0
  rtpTimestamp : UInt32 := 0
  deriving DecidableEq, Repr

/-- `ReactorEncodedVideoOutput` -/
structure Output extends FrameInfo where
  data : Bytes
  deriving DecidableEq, Repr

/-- What `Encode` keeps of the raw frame. -/
structure RawFrame where
  width : UInt32
  height : UInt32
  rtpTimestamp : UInt32
  deriving DecidableEq, Repr

/-- `kNoTemporalIdx` -/
def noTemporalIdx : Nat := 0xFF

/-- `CodecSpecificInfo`, of the codecs that need more than their type. -/
inductive CodecSpecific
  | h264 (nonInterleaved : Bool) (temporalIdx : Nat) (idrFrame baseLayerSync : Bool)
  | vp8 (keyIdx : Int) (temporalIdx : Nat) (layerSync nonReference : Bool)
  | vp9 (interPicPredicted firstFrameInPicture : Bool) (numSpatialLayers temporalIdx : Nat)
      (temporalUpSwitch ssDataAvailable : Bool)
  | typeOnly
  deriving DecidableEq, Repr

/-- `EncodedImage` with its `CodecSpecificInfo` -/
structure Image where
  data : Bytes
  keyFrame : Bool
  width : UInt32
  height : UInt32
  rtpTimestamp : UInt32
  codecType : VideoCodecType
  specific : CodecSpecific
  deriving DecidableEq, Repr

def codecSpecific (codec : VideoCodecType) (isKeyFrame : Bool) : CodecSpecific :=
  match codec with
  | .h264 => .h264 true noTemporalIdx isKeyFrame false
  | .vp8 => .vp8 (-1) noTemporalIdx false false
  | .vp9 => .vp9 (!isKeyFrame) true 1 noTemporalIdx false false
  | .generic | .av1 | .h265 => .typeOnly

/-- A value, or what to take for a zero. -/
def orElse (v other : UInt32) : UInt32 := if v = 0 then other else v

def image (codec : VideoCodecType) (raw : RawFrame) (out : Output) : Image where
  data := out.data
  keyFrame := out.isKeyFrame
  width := orElse out.width raw.width
  height := orElse out.height raw.height
  rtpTimestamp := orElse out.rtpTimestamp raw.rtpTimestamp
  codecType := codec
  specific := codecSpecific codec out.isKeyFrame

/-! ### The machine -/

/-- An `Encode` that has its answer, `none` for a drop. -/
structure Call where
  out : Option Output
  buffer : Nat
  raw : RawFrame
  deriving DecidableEq, Repr

/-- `ReactorVideoEncoder` -/
structure Encoder where
  id : Nat
  codecType : VideoCodecType := .generic
  /-- There is an `EncodedImageCallback`. -/
  callback : Bool := false
  call : Option Call := none
  deriving DecidableEq, Repr

def Encoder.made (id : Nat) : Encoder := { id }

/-- How far `factory_create` is. -/
inductive Stage
  /-- `install_into` has made the registry's box. -/
  | installed
  /-- The options were refused before anything took the box. -/
  | rejected
  /-- The box belongs to a `ReactorEncoderState`. -/
  | constructed
  /-- The two factories have it as well. -/
  | shared
  deriving DecidableEq, Repr

inductive Kind
  | encoder | decoder
  deriving DecidableEq, Repr

/-- An answer that was a frame, with the queue it is from unless a callback made it. -/
structure Answer where
  encoder : Nat
  queue : Option Nat
  out : Output
  deriving DecidableEq, Repr

/-- A frame that an encoder is through with. -/
structure Handled where
  encoder : Nat
  codecType : VideoCodecType
  callback : Bool
  raw : RawFrame
  out : Output
  deriving DecidableEq, Repr

structure State extends Encoders where
  stage : Stage := .installed
  /-- The pointer of `factory_create` itself. -/
  making : Bool := false
  factories : Kind → Bool := fun _ => false
  /-- The `ReactorEncoderState`, and the registry's box that it frees. -/
  owner : Counted := {}
  box : Counted := {}
  nextId : Nat := 0
  /-- The ids of encoders that are being made. -/
  creating : List Nat := []
  encoders : List Encoder := []
  buffers : Arena Nat := {}
  nextBuffer : Nat := 0
  images : List (Nat × Image) := []
  /-- The answers that were a frame, the frames done with, the buffers of those that nobody was
  there for, and the rate updates, each with the slot whose listeners heard it. -/
  answers : List Answer := []
  handled : List Handled := []
  lost : List Nat := []
  rates : List (Nat × Nat) := []

inductive Action
  /-- A call of the application, which makes and drops tracks and pushes frames. -/
  | app (a : Encoders.Action)
  | reject | construct | share | leave
  | dropFactory (kind : Kind)
  /-- `GetSupportedFormats` -/
  | advertise (kind : Kind)
  /-- `Create`, up to the number and from there. -/
  | number
  | create (id : Nat)
  | init (k : Nat) (settings : Option VideoCodecType)
  | register (k : Nat)
  | release (k : Nat)
  | setRates (k : Nat)
  /-- `Encode`, up to the answer, which an inline slot's callback gives. -/
  | ask (k : Nat) (raw : RawFrame) (requestKeyFrame : Bool) (answer : Option Output)
  | handOn (k : Nat)
  | delete (k : Nat)

/-- Not what only the trampolines call. -/
def ofApplication : Encoders.Action → Bool
  | .useBuiltinFor _ | .encodeFor .. => false
  | _ => true

namespace State

def idle (s : State) (k : Nat) : Bool := s.encoders[k]?.any (·.call.isNone)

def busy (s : State) (k : Nat) : Bool := s.encoders[k]?.any (·.call.isSome)

/-- A callback through the shared state. -/
def callBack (s : State) : State := { s with owner := s.owner.use, box := s.box.use }

/-- One reference less; the last one frees the registry's box. -/
def letGo (s : State) : State :=
  { s with
    owner := s.owner.release
    box := if s.owner.count = 1 then s.box.release else s.box }

end State

section

-- What the application says of the frames beside their bytes, by the number of their push.
variable (info : Nat → FrameInfo)

def output (frame : EncodedVideoFrame) : Output := { info frame.push with data := frame.data }

/-- The answer of `encode_for`. -/
def answered (s : Encoders) (encoderId : Nat) (answer : Option Output) : Option Answer :=
  match (s.registry.slotFor encoderId).1.slot with
  | .custom q => (s.queues q).head?.map fun frame => ⟨encoderId, some q, output info frame⟩
  | .inline _ => answer.map fun out => ⟨encoderId, none, out⟩
  | .builtin _ => none

/-- The slot whose listeners `rate_update` finds. -/
def listeners (s : Encoders) (encoderId : Nat) : Option Nat :=
  match s.registry.assigned.lookup encoderId with
  | some { slot := .custom q, .. } | some { slot := .inline q, .. } => some q
  | _ => none

namespace State

/-- `Create` from the number on: a slot that is not custom is left to another factory. -/
def create (s : State) (id : Nat) : State :=
  let asked := s.registry.useBuiltinFor id
  let s := { s.callBack with registry := asked.2, creating := s.creating.erase id }
  if asked.1 then s
  else { s with owner := s.owner.retain, encoders := s.encoders ++ [Encoder.made id] }

/-- `registry_encode_tramp` and `fill_output`: a frame with bytes leaves a buffer. -/
def ask (s : State) (k : Nat) (e : Encoder) (raw : RawFrame) (requestKeyFrame : Bool)
    (answer : Option Output) : State :=
  let answer := answered info s.toEncoders e.id answer
  let out := answer.map (·.out)
  { s.callBack with
    toEncoders := s.toEncoders.encodeFor e.id requestKeyFrame
    encoders := s.encoders.set k { e with call := some ⟨out, s.nextBuffer, raw⟩ }
    buffers := if out.any (·.data ≠ []) then s.buffers.alloc s.nextBuffer else s.buffers
    nextBuffer := s.nextBuffer + 1
    answers := s.answers ++ answer.toList }

/-- The rest of `Encode`. -/
def handOn (s : State) (k : Nat) (e : Encoder) (c : Call) : State :=
  let s := { s with encoders := s.encoders.set k { e with call := none } }
  match c.out with
  | none => s
  | some out =>
    let s := { s with handled := s.handled ++ [⟨e.id, e.codecType, e.callback, c.raw, out⟩] }
    if out.data = [] then s
    else if e.callback then
      { s with
        images := s.images ++ [(e.id, image e.codecType c.raw out)]
        buffers := (s.buffers.read c.buffer).free c.buffer }
    else { s with lost := s.lost ++ [c.buffer] }

end State

def enabled (s : State) : Action → Prop
  | .app a => ofApplication a = true ∧ (s.toEncoders.step a).isSome = true
  | .reject | .construct => s.stage = .installed
  | .share => s.stage = .constructed ∧ s.making = true
  | .leave => s.making = true
  | .dropFactory kind => s.factories kind = true ∧ (kind = .encoder → s.creating = [])
  | .advertise kind => s.factories kind = true
  | .number => s.factories .encoder = true
  | .create id => id ∈ s.creating
  | .init k _ | .register k | .release k | .setRates k | .ask k .. | .delete k =>
    s.idle k = true
  | .handOn k => s.busy k = true

instance (s : State) : ∀ a, Decidable (enabled s a)
  | .app _ | .share => inferInstanceAs (Decidable (_ ∧ _))
  | .dropFactory _ => inferInstanceAs (Decidable (_ ∧ (_ → _)))
  | .reject | .construct | .leave | .advertise _ | .number => inferInstanceAs (Decidable (_ = _))
  | .create _ => inferInstanceAs (Decidable (_ ∈ _))
  | .init _ _ | .register _ | .release _ | .setRates _ | .ask .. | .delete _ | .handOn _ =>
    inferInstanceAs (Decidable (_ = _))

def effect (s : State) : Action → State
  | .app a =>
    match s.toEncoders.step a with
    | some t => { s with toEncoders := t }
    | none => s
  | .reject => { s with stage := .rejected }
  | .construct => { s with stage := .constructed, making := true }
  | .share =>
    { s with
      stage := .shared
      factories := fun _ => true
      owner := s.owner.retain.retain }
  | .leave => { s with making := false }.letGo
  | .dropFactory kind => { s with factories := Function.update s.factories kind false }.letGo
  | .advertise _ => s.callBack
  | .number => { s with nextId := s.nextId + 1, creating := s.creating ++ [s.nextId] }
  | .create id => s.create id
  | .init k settings =>
    { s with encoders := s.encoders.modify k fun e =>
        { e with codecType := settings.getD e.codecType } }
  | .register k => { s with encoders := s.encoders.modify k fun e => { e with callback := true } }
  | .release k => { s with encoders := s.encoders.modify k fun e => { e with callback := false } }
  | .setRates k =>
    match s.encoders[k]? with
    | none => s
    | some e =>
      { s.callBack with
        rates := s.rates ++ ((listeners s.toEncoders e.id).map (e.id, ·)).toList }
  | .ask k raw requestKeyFrame answer =>
    match s.encoders[k]? with
    | none => s
    | some e => s.ask info k e raw requestKeyFrame answer
  | .handOn k =>
    match s.encoders[k]? with
    | none => s
    | some e =>
      match e.call with
      | none => s
      | some c => s.handOn k e c
  | .delete k => { s with encoders := s.encoders.eraseIdx k }.letGo

def machine : Machine State Action := .ofEffect {} enabled (effect info)

end

/-! ### Who has the box -/

variable {info : Nat → FrameInfo} {s t : State} {a : Action} {k : Nat} {e : Encoder}

/-- There is a shared state, or there was one. -/
def Stage.born : Stage → Bool
  | .installed | .rejected => false
  | .constructed | .shared => true

namespace State

/-- The references to the shared state. -/
def refs (s : State) : Nat :=
  s.making.toNat + (s.factories .encoder).toNat + (s.factories .decoder).toNat + s.encoders.length

theorem refs_pos_of_making (h : s.making = true) : 0 < s.refs := by
  unfold refs
  rw [h, Bool.toNat_true]
  omega

theorem refs_pos_of_factory {kind : Kind} (h : s.factories kind = true) : 0 < s.refs := by
  unfold refs
  cases kind <;> rw [h, Bool.toNat_true] <;> omega

theorem refs_pos_of_encoder (h : s.encoders[k]? = some e) : 0 < s.refs := by
  obtain ⟨hk, -⟩ := List.getElem?_eq_some_iff.mp h
  unfold refs
  omega

end State

structure Owned (s : State) : Prop where
  unborn : s.stage.born = false → s.refs = 0 ∧ s.owner = {} ∧ s.box = {}
  owner : s.stage.born = true → s.owner.Held s.refs
  box : s.stage.born = true → s.box.Held (if s.refs = 0 then 0 else 1)
  constructed : s.stage = .constructed → s.refs = s.making.toNat
  creating : s.creating ≠ [] → s.factories .encoder = true

namespace Owned

/-- Whoever has a reference has the state and the box. -/
theorem held (h : Owned s) (hpos : 0 < s.refs) :
    s.stage.born = true ∧ s.owner.Held s.refs ∧ s.box.Held 1 := by
  have hborn : s.stage.born = true := by
    cases hstage : s.stage.born with
    | true => rfl
    | false => exact absurd (h.unborn hstage).1 (Nat.ne_of_gt hpos)
  have hbox := h.box hborn
  rw [if_neg (Nat.ne_of_gt hpos)] at hbox
  exact ⟨hborn, h.owner hborn, hbox⟩

theorem callBack_eq (h : Owned s) (hpos : 0 < s.refs) : s.callBack = s := by
  obtain ⟨-, howner, hbox⟩ := h.held hpos
  unfold State.callBack
  rw [howner.use_eq hpos, hbox.use_eq Nat.one_pos]

/-- Nothing is changed of what matters here. -/
theorem keep (h : Owned s) (hstage : t.stage = s.stage) (hrefs : t.refs = s.refs)
    (hmaking : t.making = s.making) (howner : t.owner = s.owner) (hbox : t.box = s.box)
    (hcreating : t.creating ≠ [] → t.factories .encoder = true) : Owned t where
  unborn := by rw [hstage, hrefs, howner, hbox]; exact h.unborn
  owner := by rw [hstage, hrefs, howner]; exact h.owner
  box := by rw [hstage, hrefs, hbox]; exact h.box
  constructed := by rw [hstage, hrefs, hmaking]; exact h.constructed
  creating := hcreating

theorem letGo (hborn : s.stage.born = true) (howner : s.owner.Held (s.refs + 1))
    (hbox : s.box.Held 1) (hconstructed : s.stage = .constructed → s.refs = s.making.toNat)
    (hcreating : s.creating ≠ [] → s.factories .encoder = true) : Owned s.letGo where
  unborn hnot := absurd (hborn.symm.trans hnot) (by decide)
  owner _ := howner.release
  box _ := by
    show (if s.owner.count = 1 then s.box.release else s.box).Held (if s.refs = 0 then 0 else 1)
    rw [howner.count]
    by_cases hlast : s.refs = 0
    · rw [hlast]
      exact hbox.release
    · rw [if_neg hlast, if_neg (by omega)]
      exact hbox
  constructed := hconstructed
  creating := hcreating

theorem reject (h : Owned s) (hstage : s.stage = .installed) :
    Owned { s with stage := .rejected } where
  unborn _ := h.unborn (by rw [hstage]; rfl)
  owner := nofun
  box := nofun
  constructed := nofun
  creating := h.creating

theorem construct (h : Owned s) (hstage : s.stage = .installed) :
    Owned { s with stage := .constructed, making := true } := by
  obtain ⟨hrefs, howner, hbox⟩ := h.unborn (by rw [hstage]; rfl)
  have hone : ({ s with stage := .constructed, making := true } : State).refs = 1 := by
    unfold State.refs at hrefs ⊢
    show true.toNat + (s.factories .encoder).toNat + (s.factories .decoder).toNat +
      s.encoders.length = 1
    rw [Bool.toNat_true]
    omega
  refine ⟨nofun, fun _ => ?_, fun _ => ?_, fun _ => hone, h.creating⟩
  · rw [hone]
    show s.owner.Held 1
    rw [howner]
    exact Counted.Held.new
  · rw [hone]
    show s.box.Held 1
    rw [hbox]
    exact Counted.Held.new

theorem share (h : Owned s) (hstage : s.stage = .constructed) (hmaking : s.making = true) :
    Owned { s with
      stage := .shared
      factories := fun _ => true
      owner := s.owner.retain.retain } := by
  have hrefs := h.constructed hstage
  rw [hmaking, Bool.toNat_true] at hrefs
  obtain ⟨-, howner, hbox⟩ := h.held (by omega)
  have hthree : ({ s with
      stage := .shared
      factories := fun _ => true
      owner := s.owner.retain.retain } : State).refs = 3 := by
    unfold State.refs at hrefs
    show s.making.toNat + true.toNat + true.toNat + s.encoders.length = 3
    rw [hmaking, Bool.toNat_true] at hrefs ⊢
    omega
  rw [hrefs] at howner
  refine ⟨nofun, fun _ => ?_, fun _ => ?_, nofun,
    fun _ => rfl⟩
  · rw [hthree]
    exact (howner.retain Nat.one_pos).retain (Nat.succ_pos 1)
  · rw [hthree]
    exact hbox

theorem leave (h : Owned s) (hmaking : s.making = true) :
    Owned ({ s with making := false } : State).letGo := by
  obtain ⟨hborn, howner, hbox⟩ := h.held (State.refs_pos_of_making hmaking)
  have hrefs : s.refs = ({ s with making := false } : State).refs + 1 := by
    show s.making.toNat + (s.factories .encoder).toNat + (s.factories .decoder).toNat +
      s.encoders.length = false.toNat + (s.factories .encoder).toNat +
      (s.factories .decoder).toNat + s.encoders.length + 1
    rw [hmaking, Bool.toNat_true, Bool.toNat_false]
    omega
  refine letGo hborn (hrefs ▸ howner) hbox (fun hstage => ?_) h.creating
  have hone := h.constructed hstage
  rw [hmaking, Bool.toNat_true] at hone
  show State.refs { s with making := false } = false.toNat
  rw [Bool.toNat_false]
  omega

theorem dropFactory (h : Owned s) {kind : Kind} (hfactory : s.factories kind = true)
    (hcreating : kind = .encoder → s.creating = []) :
    Owned ({ s with factories := Function.update s.factories kind false } : State).letGo := by
  obtain ⟨hborn, howner, hbox⟩ := h.held (State.refs_pos_of_factory hfactory)
  have hrefs : s.refs =
      ({ s with factories := Function.update s.factories kind false } : State).refs + 1 := by
    unfold State.refs
    cases kind <;> simp [hfactory] <;> omega
  refine letGo hborn (hrefs ▸ howner) hbox (fun hstage => ?_) fun hsome => ?_
  · -- A factory has the state only once it is shared.
    have hmaking := h.constructed hstage
    unfold State.refs at hmaking
    cases kind <;> rw [hfactory, Bool.toNat_true] at hmaking <;> omega
  · cases kind with
    | encoder => exact absurd (hcreating rfl) hsome
    | decoder => exact h.creating hsome

theorem delete (h : Owned s) (hk : s.encoders[k]? = some e) :
    Owned ({ s with encoders := s.encoders.eraseIdx k } : State).letGo := by
  obtain ⟨hborn, howner, hbox⟩ := h.held (State.refs_pos_of_encoder hk)
  obtain ⟨hlt, -⟩ := List.getElem?_eq_some_iff.mp hk
  have hrefs : s.refs = ({ s with encoders := s.encoders.eraseIdx k } : State).refs + 1 := by
    show s.making.toNat + (s.factories .encoder).toNat + (s.factories .decoder).toNat +
      s.encoders.length = s.making.toNat + (s.factories .encoder).toNat +
      (s.factories .decoder).toNat + (s.encoders.eraseIdx k).length + 1
    rw [List.length_eraseIdx_of_lt hlt]
    omega
  refine letGo hborn (hrefs ▸ howner) hbox (fun hstage => ?_) h.creating
  have hmaking := h.constructed hstage
  unfold State.refs at hmaking
  omega

theorem create (h : Owned s) {id : Nat} (hid : id ∈ s.creating) : Owned (s.create id) := by
  have hfactory := h.creating (List.ne_nil_of_mem hid)
  have hpos := State.refs_pos_of_factory hfactory
  obtain ⟨hborn, howner, hbox⟩ := h.held hpos
  unfold State.create
  rw [h.callBack_eq hpos]
  dsimp only
  cases (s.registry.useBuiltinFor id).1 with
  | true => exact h.keep rfl rfl rfl rfl rfl fun _ => hfactory
  | false =>
      have hrefs : s.making.toNat + (s.factories .encoder).toNat + (s.factories .decoder).toNat +
          (s.encoders ++ [Encoder.made id]).length = s.refs + 1 := by
        rw [List.length_append, List.length_singleton, ← Nat.add_assoc]
        rfl
      refine ⟨fun hnot => absurd (hborn.symm.trans hnot) (by decide), fun _ => ?_, fun _ => ?_,
        fun hconstructed => ?_, fun _ => hfactory⟩
      · show s.owner.retain.Held (s.making.toNat + (s.factories .encoder).toNat +
          (s.factories .decoder).toNat + (s.encoders ++ [Encoder.made id]).length)
        rw [hrefs]
        exact howner.retain hpos
      · show s.box.Held (if s.making.toNat + (s.factories .encoder).toNat +
          (s.factories .decoder).toNat + (s.encoders ++ [Encoder.made id]).length = 0
            then 0 else 1)
        rw [hrefs]
        exact hbox
      · have hmaking := h.constructed hconstructed
        unfold State.refs at hmaking
        rw [hfactory, Bool.toNat_true] at hmaking
        omega

end Owned

/-! ### The registry

The application goes on using the registry, and what it does is a step of `Encoders`; an
encoder that asks is one too.  So whatever holds along the registry's runs holds here.
-/

/-- The registry takes one step, or none. -/
def Follows (s t : Encoders) : Prop := t = s ∨ ∃ a, s.step a = some t

namespace Follows

variable {r r' : Encoders}

theorem reachable (h : Follows r r') (hr : Encoders.machine.Reachable r) :
    Encoders.machine.Reachable r' := by
  rcases h with rfl | ⟨a, ha⟩
  · exact hr
  · exact hr.step ha

theorem keeps (h : Follows r r') {id : Nat} {a : AssignedSlot}
    (ha : r.registry.assigned.lookup id = some a) :
    ∃ a', r'.registry.assigned.lookup id = some a' ∧ a'.number = a.number := by
  rcases h with rfl | ⟨b, hb⟩
  · exact ⟨a, ha, rfl⟩
  · obtain ⟨a', ha', -, hnumber⟩ := (Encoders.step_moves hb).1.keeps ha
    exact ⟨a', ha', hnumber⟩

theorem made (h : Follows r r') {q : Nat} {x : RegistryReservation} (hx : r.made[q]? = some x) :
    r'.made[q]? = some x := by
  rcases h with rfl | ⟨b, hb⟩
  · exact hx
  · cases (Encoders.step_moves hb).1 with
    | reserve y _ _ _ hmade _ =>
        rw [hmade, List.getElem?_append_left (List.getElem?_eq_some_iff.mp hx).1]
        exact hx
    | ask _ _ hmade _ => rwa [hmade]
    | retract _ _ hmade _ => rwa [hmade]

end Follows

theorem step_returned {r r' : Encoders} {b : Encoders.Action} (hb : ofApplication b = true)
    (hstep : r.step b = some r') : r'.returned = r.returned := by
  cases b with
  | useBuiltinFor _ => cases hb
  | encodeFor _ _ => cases hb
  | pushFrame q frame =>
      simp only [Encoders.step] at hstep
      split at hstep
      · obtain rfl := Option.some.inj hstep
        rfl
      · cases hstep
  | _ =>
      obtain rfl := Option.some.inj hstep
      rfl

/-- The answer's frame, if it is from a queue. -/
def Answer.queued (a : Answer) : Option (Nat × Nat × Output) :=
  a.queue.map fun q => (a.encoder, q, a.out)

variable (info) in
def returnedOutputs (r : Encoders) : List (Nat × Nat × Output) :=
  r.returned.map fun x => (x.1, x.2.1, output info x.2.2)

theorem encodeFor_returned (r : Encoders) (id : Nat) (requestKeyFrame : Bool)
    (answer : Option Output) :
    returnedOutputs info (r.encodeFor id requestKeyFrame) =
      returnedOutputs info r ++ (answered info r id answer).toList.filterMap Answer.queued := by
  unfold returnedOutputs Encoders.encodeFor answered
  generalize r.registry.slotFor id = found
  obtain ⟨a, registry⟩ := found
  cases hslot : a.slot with
  | custom q =>
      cases hqueue : r.queues q with
      | nil => cases requestKeyFrame <;> simp [hslot, hqueue]
      | cons frame rest => cases requestKeyFrame <;> simp [hslot, hqueue, Answer.queued]
  | inline q => cases answer <;> simp [hslot, Answer.queued]
  | builtin backend => simp [hslot]

/-- The reservation of a slot with a queue or a callback, which is what its number says. -/
theorem reservation_of_slot {r : Encoders} (hr : Encoders.machine.Reachable r) {id q : Nat}
    {a : AssignedSlot} (ha : r.registry.assigned.lookup id = some a)
    (hslot : a.slot = .custom q ∨ a.slot = .inline q) :
    a.number = some q ∧ ∃ x, r.made[q]? = some x ∧ x.slot = a.slot := by
  have haccounts := (Encoders.reachable_accounts hr).1
  have hnumber := haccounts.number_of_slot ha hslot
  obtain ⟨front, rest, hassigned, -⟩ := List.lookup_eq_some_iff.mp ha
  have hnot : a.slot.isBuiltin = false := by
    rcases hslot with hslot | hslot <;> rw [hslot] <;> rfl
  rcases haccounts.assigned (id, a) (by rw [hassigned]; simp) with
    ⟨-, hbuiltin⟩ | ⟨x, hx, hmade, -, hsame⟩
  · exact absurd (hnot.symm.trans hbuiltin) (by decide)
  · obtain rfl := Option.some.inj (hx.symm.trans hnumber)
    refine ⟨hnumber, x, hmade, ?_⟩
    exact (hsame.resolve_right fun hbuiltin => absurd (hnot.symm.trans hbuiltin) (by decide)).symm

/-! ### The encoders -/

/-- Of the encoders that there are and those being made, no two have one id, and each that is
there has been given its slot. -/
structure Named (s : State) : Prop where
  nodup : (s.creating ++ s.encoders.map (·.id)).Nodup
  below : ∀ id ∈ s.creating ++ s.encoders.map (·.id), id < s.nextId
  bound : ∀ id ∈ s.encoders.map (·.id), ∃ a, s.registry.assigned.lookup id = some a

/-- The buffer of a call whose frame has bytes. -/
def Call.left (c : Call) : Option Nat :=
  if c.out.any (·.data ≠ []) then some c.buffer else none

def Encoder.buffer (e : Encoder) : Option Nat := e.call.bind Call.left

/-- The frame of the call under way, if this is the encoder's. -/
def Encoder.pending (id : Nat) (e : Encoder) : Option Output :=
  if e.id = id then e.call.bind (·.out) else none

/-- A frame with bytes that there was no callback for. -/
def Handled.unheard (h : Handled) : Bool := decide (h.out.data ≠ []) && !h.callback

def Handled.image (h : Handled) : Option (Nat × Image) :=
  if h.out.data ≠ [] ∧ h.callback = true then
    some (h.encoder, CustomEncoder.image h.codecType h.raw h.out)
  else none

namespace State

/-- The buffers not freed, of calls under way and of frames that nobody took. -/
def unfreed (s : State) : List Nat := s.encoders.filterMap Encoder.buffer ++ s.lost

/-- The frames an encoder is through with, in order, and the one it is at. -/
def through (s : State) (id : Nat) : List Output :=
  (s.handled.filter (·.encoder = id)).map (·.out) ++ s.encoders.filterMap (Encoder.pending id)

end State

structure Buffered (s : State) : Prop where
  objects : s.buffers.Holds (· ∈ s.unfreed)
  nodup : s.unfreed.Nodup
  fresh : ∀ n, s.nextBuffer ≤ n → s.buffers.life n = .unborn
  lost : s.lost.length = (s.handled.filter Handled.unheard).length

variable (info) in
/-- Where the answers came from and went to. -/
structure Told (s : State) : Prop where
  through : ∀ id, s.through id = (s.answers.filter (·.encoder = id)).map (·.out)
  queued : s.answers.filterMap Answer.queued = returnedOutputs info s.toEncoders
  inline : ∀ x ∈ s.answers, x.queue = none → ∃ a q r,
    s.registry.assigned.lookup x.encoder = some a ∧ a.number = some q ∧ s.made[q]? = some r ∧
      r.slot = .inline q
  images : s.images = s.handled.filterMap Handled.image
  rates : ∀ x ∈ s.rates, ∃ a, s.registry.assigned.lookup x.1 = some a ∧ a.number = some x.2

variable (info) in
structure Inv (s : State) : Prop where
  owned : Owned s
  registry : Encoders.machine.Reachable s.toEncoders
  named : Named s
  buffered : Buffered s
  told : Told info s

theorem exists_of_idle (h : s.idle k = true) : ∃ e, s.encoders[k]? = some e ∧ e.call = none := by
  obtain ⟨e, he, hcall⟩ := Option.any_eq_true _ _ |>.mp h
  exact ⟨e, he, Option.isNone_iff_eq_none.mp hcall⟩

theorem exists_of_busy (h : s.busy k = true) :
    ∃ e c, s.encoders[k]? = some e ∧ e.call = some c := by
  obtain ⟨e, he, hcall⟩ := Option.any_eq_true _ _ |>.mp h
  obtain ⟨c, hc⟩ := Option.isSome_iff_exists.mp hcall
  exact ⟨e, c, he, hc⟩

/-- An encoder stands between others, which have other ids. -/
theorem Named.around (h : Named s) (hk : s.encoders[k]? = some e) :
    ∃ l r, s.encoders = l ++ e :: r ∧ (∀ y, s.encoders.set k y = l ++ y :: r) ∧
      s.encoders.eraseIdx k = l ++ r ∧ ∀ x ∈ l ++ r, x.id ≠ e.id := by
  obtain ⟨l, r, hencoders, -, hset, herase⟩ := Traverse.exists_around hk
  refine ⟨l, r, hencoders, hset, herase, fun x hx heq => ?_⟩
  have hnodup := (List.nodup_append.mp h.nodup).2.1
  rw [hencoders, List.map_append, List.map_cons] at hnodup
  have hnot := (List.nodup_cons.mp (List.nodup_middle.mp hnodup)).1
  rw [← List.map_append] at hnot
  exact hnot (List.mem_map.mpr ⟨x, hx, heq⟩)

theorem filterMap_pending {l r : List Encoder} (hapart : ∀ x ∈ l ++ r, x.id ≠ e.id) (id : Nat) :
    (l ++ e :: r).filterMap (Encoder.pending id) =
      if e.id = id then (e.call.bind (·.out)).toList
      else (l ++ r).filterMap (Encoder.pending id) := by
  rw [List.filterMap_append, List.filterMap_cons]
  by_cases hid : e.id = id
  · have hnone (m : List Encoder) (hm : ∀ x ∈ m, x.id ≠ e.id) :
        m.filterMap (Encoder.pending id) = [] := by
      refine List.filterMap_eq_nil_iff.mpr fun x hx => if_neg fun heq => ?_
      exact hm x hx (heq.trans hid.symm)
    have hpending : e.pending id = e.call.bind (·.out) := if_pos hid
    rw [hnone l fun x hx => hapart x (List.mem_append_left r hx),
      hnone r fun x hx => hapart x (List.mem_append_right l hx), if_pos hid, hpending]
    cases e.call.bind (·.out) <;> rfl
  · have hpending : e.pending id = none := if_neg hid
    rw [hpending, if_neg hid, List.filterMap_append]

theorem filterMap_buffer (l r : List Encoder) (e : Encoder) :
    (l ++ e :: r).filterMap Encoder.buffer =
      l.filterMap Encoder.buffer ++ (e.buffer.toList ++ r.filterMap Encoder.buffer) := by
  rw [List.filterMap_append, List.filterMap_cons]
  cases e.buffer <;> rfl

theorem answered_encoder {r : Encoders} {id : Nat} {answer : Option Output} {x : Answer}
    (h : answered info r id answer = some x) : x.encoder = id := by
  unfold answered at h
  split at h
  · obtain ⟨frame, -, rfl⟩ := Option.map_eq_some_iff.mp h
    rfl
  · obtain ⟨out, -, rfl⟩ := Option.map_eq_some_iff.mp h
    rfl
  · cases h

/-- What no queue has given a callback has. -/
theorem answered_inline {r : Encoders} {id : Nat} {answer : Option Output} {x : Answer}
    (h : answered info r id answer = some x) (hnone : x.queue = none) :
    ∃ q, (r.registry.slotFor id).1.slot = .inline q := by
  unfold answered at h
  split at h
  · obtain ⟨frame, -, rfl⟩ := Option.map_eq_some_iff.mp h
    cases hnone
  · rename_i q hslot
    exact ⟨q, hslot⟩
  · cases h

theorem encodeFor_registry (r : Encoders) (id : Nat) (requestKeyFrame : Bool) :
    (r.encodeFor id requestKeyFrame).registry = (r.registry.slotFor id).2 := by
  unfold Encoders.encodeFor
  generalize r.registry.slotFor id = found
  obtain ⟨a, registry⟩ := found
  cases hslot : a.slot with
  | custom q => cases hqueue : r.queues q <;> cases requestKeyFrame <;> simp [hslot, hqueue]
  | inline q => simp [hslot]
  | builtin backend => simp [hslot]

/-- An encoder is not made without a slot. -/
theorem bound_of_custom {r : EncoderRegistry} {id : Nat} (h : (r.useBuiltinFor id).1 = false) :
    ∃ a, (r.useBuiltinFor id).2.assigned.lookup id = some a := by
  unfold EncoderRegistry.useBuiltinFor at h ⊢
  split at h
  · rename_i a ha
    exact ⟨a, ha⟩
  · rename_i hnew
    split at h
    · rename_i next pending hpending
      exact ⟨_, EncoderRegistry.lookup_append_new hnew _⟩
    · cases h

/-- The buffers, with the one of this encoder's call between the others. -/
theorem unfreed_around (hk : s.encoders[k]? = some e) :
    ∃ m m', s.unfreed = m ++ (e.buffer.toList ++ (m' ++ s.lost)) ∧
      (∀ y lost, (s.encoders.set k y).filterMap Encoder.buffer ++ lost =
        m ++ (y.buffer.toList ++ (m' ++ lost))) ∧
      (s.encoders.eraseIdx k).filterMap Encoder.buffer = m ++ m' := by
  obtain ⟨l, r, hencoders, -, hset, herase⟩ := Traverse.exists_around hk
  refine ⟨l.filterMap Encoder.buffer, r.filterMap Encoder.buffer, ?_, fun y lost => ?_, ?_⟩
  · unfold State.unfreed
    rw [hencoders, filterMap_buffer, List.append_assoc, List.append_assoc]
  · rw [hset, filterMap_buffer, List.append_assoc, List.append_assoc]
  · rw [herase, List.filterMap_append]

/-! ### What a step leaves as it was

Most steps change one list of the state and leave what the others are about. Names need the
ids only, buffers the list of those not freed, and of the registry it is enough that it has
gone on from where it was.
-/

theorem Named.keep (h : Named s) (hcreating : t.creating = s.creating)
    (hids : t.encoders.map (·.id) = s.encoders.map (·.id)) (hnext : t.nextId = s.nextId)
    (hfollows : Follows s.toEncoders t.toEncoders) : Named t where
  nodup := by rw [hcreating, hids]; exact h.nodup
  below := by rw [hcreating, hids, hnext]; exact h.below
  bound := fun id hid => by
    rw [hids] at hid
    obtain ⟨a, ha⟩ := h.bound id hid
    obtain ⟨a', ha', -⟩ := hfollows.keeps ha
    exact ⟨a', ha'⟩

theorem Buffered.keep (h : Buffered s) (hunfreed : t.unfreed = s.unfreed)
    (hbuffers : t.buffers = s.buffers) (hnext : s.nextBuffer ≤ t.nextBuffer)
    (hlost : t.lost = s.lost) (hhandled : t.handled = s.handled) : Buffered t where
  objects := by rw [hbuffers, hunfreed]; exact h.objects
  nodup := by rw [hunfreed]; exact h.nodup
  fresh := fun n hn => by rw [hbuffers]; exact h.fresh n (Nat.le_trans hnext hn)
  lost := by rw [hlost, hhandled]; exact h.lost

/-- A callback that has answered for an encoder has the encoder's slot from then on. -/
theorem Told.inline_follows {r : Encoders} (h : Told info s) (hfollows : Follows s.toEncoders r) :
    ∀ x ∈ s.answers, x.queue = none → ∃ a q y,
      r.registry.assigned.lookup x.encoder = some a ∧ a.number = some q ∧ r.made[q]? = some y ∧
        y.slot = .inline q := by
  intro x hx hnone
  obtain ⟨a, q, y, ha, hq, hy, hslot⟩ := h.inline x hx hnone
  obtain ⟨a', ha', hnumber⟩ := hfollows.keeps ha
  exact ⟨a', q, y, ha', hnumber.trans hq, hfollows.made hy, hslot⟩

theorem Told.rates_follows {r : Encoders} (h : Told info s) (hfollows : Follows s.toEncoders r) :
    ∀ x ∈ s.rates, ∃ a, r.registry.assigned.lookup x.1 = some a ∧ a.number = some x.2 := by
  intro x hx
  obtain ⟨a, ha, hq⟩ := h.rates x hx
  obtain ⟨a', ha', hnumber⟩ := hfollows.keeps ha
  exact ⟨a', ha', hnumber.trans hq⟩

/-! ### The steps

One lemma for each kind of step, with the three parts of the invariant: who has the box,
which buffers are there, and which frames are where.
-/

namespace Inv

/-- A step that has to do with the shared state only. -/
theorem withOwner (h : Inv info s) (stage : Stage) (making : Bool) (factories : Kind → Bool)
    (owner box : Counted) (howned : Owned { s with stage, making, factories, owner, box }) :
    Inv info { s with stage, making, factories, owner, box } where
  owned := howned
  registry := h.registry
  named := h.named.keep rfl rfl rfl (.inl rfl)
  buffered := h.buffered.keep rfl rfl (Nat.le_refl _) rfl rfl
  told := ⟨h.told.through, h.told.queued, h.told.inline, h.told.images, h.told.rates⟩

/-- A step of the registry alone, which returns no frame. -/
theorem follow (h : Inv info s) {r : Encoders} (hfollows : Follows s.toEncoders r)
    (hreturned : r.returned = s.returned) : Inv info { s with toEncoders := r } where
  owned := h.owned.keep rfl rfl rfl rfl rfl h.owned.creating
  registry := hfollows.reachable h.registry
  named := h.named.keep rfl rfl rfl hfollows
  buffered := h.buffered.keep rfl rfl (Nat.le_refl _) rfl rfl
  told :=
    { through := h.told.through
      queued := by
        refine h.told.queued.trans ?_
        unfold returnedOutputs
        rw [hreturned]
      inline := h.told.inline_follows hfollows
      images := h.told.images
      rates := h.told.rates_follows hfollows }

theorem number (h : Inv info s) (hfactory : s.factories .encoder = true) :
    Inv info { s with nextId := s.nextId + 1, creating := s.creating ++ [s.nextId] } where
  owned := h.owned.keep rfl rfl rfl rfl rfl fun _ => hfactory
  registry := h.registry
  named :=
    { nodup := by
        have hnot : s.nextId ∉ s.creating ++ s.encoders.map (·.id) :=
          fun hmem => Nat.lt_irrefl _ (h.named.below _ hmem)
        show (s.creating ++ [s.nextId] ++ s.encoders.map (·.id)).Nodup
        rw [List.append_assoc]
        exact List.nodup_middle.mpr (List.nodup_cons.mpr ⟨hnot, h.named.nodup⟩)
      below := fun id hid => by
        have hid : id ∈ s.creating ++ [s.nextId] ++ s.encoders.map (·.id) := hid
        rw [List.append_assoc, List.mem_append, List.singleton_append, List.mem_cons] at hid
        rcases hid with hid | rfl | hid
        · exact Nat.lt_succ_of_lt (h.named.below id (List.mem_append_left _ hid))
        · exact Nat.lt_succ_self _
        · exact Nat.lt_succ_of_lt (h.named.below id (List.mem_append_right _ hid))
      bound := h.named.bound }
  buffered := h.buffered.keep rfl rfl (Nat.le_refl _) rfl rfl
  told := ⟨h.told.through, h.told.queued, h.told.inline, h.told.images, h.told.rates⟩

/-- An encoder is changed in what it does not tell anybody by. -/
theorem modify (h : Inv info s) (k : Nat) {f : Encoder → Encoder} (hid : ∀ e, (f e).id = e.id)
    (hcall : ∀ e, (f e).call = e.call) : Inv info { s with encoders := s.encoders.modify k f } where
  owned := h.owned.keep rfl (by
    unfold State.refs
    rw [List.length_modify]) rfl rfl rfl h.owned.creating
  registry := h.registry
  named :=
    h.named.keep rfl (Traverse.map_modify (l := s.encoders) (g := (·.id)) hid k) rfl (.inl rfl)
  buffered := by
    have hbuffers := Traverse.filterMap_modify (l := s.encoders) (g := Encoder.buffer)
      (fun e => congrArg (·.bind Call.left) (hcall e)) k
    have hunfreed : ({ s with encoders := s.encoders.modify k f } : State).unfreed = s.unfreed :=
      congrArg (· ++ s.lost) hbuffers
    exact h.buffered.keep hunfreed rfl (Nat.le_refl _) rfl rfl
  told :=
    { through := fun id => by
        have hpending := Traverse.filterMap_modify (l := s.encoders) (g := Encoder.pending id)
          (fun e => by
            unfold Encoder.pending
            rw [hid, hcall]) k
        exact (congrArg (_ ++ ·) hpending).trans (h.told.through id)
      queued := h.told.queued
      inline := h.told.inline
      images := h.told.images
      rates := h.told.rates }

theorem setRates (h : Inv info s) (e : Encoder) :
    Inv info { s with
      rates := s.rates ++ ((listeners s.toEncoders e.id).map (e.id, ·)).toList } where
  owned := h.owned.keep rfl rfl rfl rfl rfl h.owned.creating
  registry := h.registry
  named := h.named.keep rfl rfl rfl (.inl rfl)
  buffered := h.buffered.keep rfl rfl (Nat.le_refl _) rfl rfl
  told :=
    { through := h.told.through
      queued := h.told.queued
      inline := h.told.inline
      images := h.told.images
      rates := fun x hx => by
        rcases List.mem_append.mp hx with hx | hx
        · exact h.told.rates x hx
        · obtain ⟨q, hq, rfl⟩ := Option.map_eq_some_iff.mp (Option.mem_toList.mp hx)
          unfold listeners at hq
          split at hq
          · rename_i ha
            obtain rfl := Option.some.inj hq
            exact ⟨_, ha, (reservation_of_slot h.registry ha (.inl rfl)).1⟩
          · rename_i ha
            obtain rfl := Option.some.inj hq
            exact ⟨_, ha, (reservation_of_slot h.registry ha (.inr rfl)).1⟩
          · cases hq }

theorem create (h : Inv info s) {id : Nat} (hid : id ∈ s.creating) :
    Inv info (s.create id) := by
  have hasked := h.follow (r := { s.toEncoders with registry := (s.registry.useBuiltinFor id).2 })
    (.inr ⟨.useBuiltinFor id, rfl⟩) rfl
  have howned := h.owned.create hid
  have hpos := State.refs_pos_of_factory (h.owned.creating (List.ne_nil_of_mem hid))
  unfold State.create at howned ⊢
  rw [h.owned.callBack_eq hpos] at howned ⊢
  dsimp only at howned ⊢
  cases hbuiltin : (s.registry.useBuiltinFor id).1 with
  | true =>
      rw [hbuiltin] at howned
      have hsublist := List.Sublist.append_right (List.erase_sublist (a := id) (l := s.creating))
        (s.encoders.map (·.id))
      have htold := hasked.told
      exact
        { owned := howned
          registry := hasked.registry
          named := ⟨h.named.nodup.sublist hsublist,
            fun x hx => h.named.below x (hsublist.subset hx), hasked.named.bound⟩
          buffered := hasked.buffered.keep rfl rfl (Nat.le_refl _) rfl rfl
          told := ⟨htold.through, htold.queued, htold.inline, htold.images, htold.rates⟩ }
  | false =>
      rw [hbuiltin] at howned
      have hids : (s.encoders ++ [Encoder.made id]).map (·.id) = s.encoders.map (·.id) ++ [id] :=
        List.map_append
      have hperm : (s.creating.erase id ++ (s.encoders.map (·.id) ++ [id])).Perm
          (s.creating ++ s.encoders.map (·.id)) := by
        rw [← List.append_assoc]
        refine List.perm_append_comm.trans ?_
        rw [List.singleton_append, ← List.cons_append]
        exact (List.perm_cons_erase hid).symm.append_right _
      have hbuffers : (s.encoders ++ [Encoder.made id]).filterMap Encoder.buffer =
          s.encoders.filterMap Encoder.buffer := by
        rw [List.filterMap_append]
        exact List.append_nil _
      have hpending (x : Nat) : (s.encoders ++ [Encoder.made id]).filterMap (Encoder.pending x) =
          s.encoders.filterMap (Encoder.pending x) := by
        have hnone : (Encoder.made id).pending x = none := by
          unfold Encoder.pending
          exact ite_self _
        rw [List.filterMap_append, List.filterMap_cons_none hnone]
        exact List.append_nil _
      exact
        { owned := howned
          registry := hasked.registry
          named :=
            { nodup := by
                show (s.creating.erase id ++ (s.encoders ++ [Encoder.made id]).map (·.id)).Nodup
                rw [hids]
                exact hperm.nodup_iff.mpr h.named.nodup
              below := fun x hx => by
                have hx : x ∈ s.creating.erase id ++ (s.encoders ++ [Encoder.made id]).map (·.id) :=
                  hx
                rw [hids] at hx
                exact h.named.below x (hperm.mem_iff.mp hx)
              bound := fun x hx => by
                have hx : x ∈ (s.encoders ++ [Encoder.made id]).map (·.id) := hx
                rw [hids] at hx
                rcases List.mem_append.mp hx with hx | hx
                · exact hasked.named.bound x hx
                · rw [List.mem_singleton.mp hx]
                  exact bound_of_custom hbuiltin }
          buffered := by
            have hunfreed : (s.encoders ++ [Encoder.made id]).filterMap Encoder.buffer ++ s.lost =
                s.unfreed := congrArg (· ++ s.lost) hbuffers
            exact h.buffered.keep hunfreed rfl (Nat.le_refl _) rfl rfl
          told :=
            { through := fun x => (congrArg (_ ++ ·) (hpending x)).trans (h.told.through x)
              queued := hasked.told.queued
              inline := hasked.told.inline
              images := h.told.images
              rates := hasked.told.rates } }

theorem ask (h : Inv info s) (hk : s.encoders[k]? = some e) (hidle : e.call = none)
    (raw : RawFrame) (requestKeyFrame : Bool) (given : Option Output) :
    Inv info (s.ask info k e raw requestKeyFrame given) := by
  have hfollows : Follows s.toEncoders (s.toEncoders.encodeFor e.id requestKeyFrame) :=
    .inr ⟨.encodeFor e.id requestKeyFrame, rfl⟩
  have hregistry := hfollows.reachable h.registry
  unfold State.ask
  rw [h.owned.callBack_eq (State.refs_pos_of_encoder hk)]
  dsimp only
  generalize hanswer : answered info s.toEncoders e.id given = answer
  obtain ⟨l, r, hencoders, hset, -, hapart⟩ := h.named.around hk
  obtain ⟨m, m', hunfreed, hlists, -⟩ := unfreed_around hk
  have hbuffer : e.buffer = none := by
    unfold Encoder.buffer
    rw [hidle]
    rfl
  rw [hbuffer] at hunfreed
  have hunfreed : s.unfreed = m ++ (m' ++ s.lost) := hunfreed
  have hnew : s.nextBuffer ∉ s.unfreed := fun hmem =>
    h.buffered.objects.ne_unborn hmem (h.buffered.fresh _ (Nat.le_refl _))
  have hids : (s.encoders.set k { e with
      call := some ⟨answer.map (·.out), s.nextBuffer, raw⟩ }).map (·.id) =
      s.encoders.map (·.id) := by
    rw [hset, hencoders, List.map_append, List.map_append]
    rfl
  exact
    { owned := h.owned.keep rfl (by
        unfold State.refs
        rw [List.length_set]) rfl rfl rfl h.owned.creating
      registry := hregistry
      named := h.named.keep rfl hids rfl hfollows
      buffered := by
        have hlist := hlists { e with call := some ⟨answer.map (·.out), s.nextBuffer, raw⟩ } s.lost
        unfold State.unfreed at hnew
        by_cases hbytes : (answer.map (·.out)).any (·.data ≠ []) = true
        · have hleft : ({ e with
              call := some ⟨answer.map (·.out), s.nextBuffer, raw⟩ } : Encoder).buffer =
                some s.nextBuffer := if_pos hbytes
          rw [hleft] at hlist
          have hmore : (s.encoders.set k { e with
              call := some ⟨answer.map (·.out), s.nextBuffer, raw⟩ }).filterMap Encoder.buffer ++
                s.lost = m ++ s.nextBuffer :: (m' ++ s.lost) := hlist
          refine ⟨?_, ?_, fun n hn => ?_, h.buffered.lost⟩
          · show (if _ then s.buffers.alloc s.nextBuffer else s.buffers).Holds _
            rw [if_pos hbytes]
            refine h.buffered.objects.alloc (h.buffered.fresh _ (Nat.le_refl _)) fun n => ?_
            show n ∈ (s.encoders.set k _).filterMap Encoder.buffer ++ s.lost ↔ _
            rw [hmore, hunfreed, List.mem_append, List.mem_cons, List.mem_append (s := m),
              or_left_comm, or_comm]
          · show ((s.encoders.set k _).filterMap Encoder.buffer ++ s.lost).Nodup
            rw [hmore]
            refine List.nodup_middle.mpr (List.nodup_cons.mpr ⟨?_, ?_⟩)
            · rw [← hunfreed]
              exact hnew
            · rw [← hunfreed]
              exact h.buffered.nodup
          · have hn : s.nextBuffer + 1 ≤ n := hn
            show (if _ then s.buffers.alloc s.nextBuffer else s.buffers).life n = .unborn
            rw [if_pos hbytes]
            refine Arena.alloc_unborn n |>.mpr ⟨h.buffered.fresh n (by omega), by omega⟩
        · have hleft : ({ e with
              call := some ⟨answer.map (·.out), s.nextBuffer, raw⟩ } : Encoder).buffer = none :=
            if_neg hbytes
          rw [hleft] at hlist
          have hsame : (s.encoders.set k { e with
              call := some ⟨answer.map (·.out), s.nextBuffer, raw⟩ }).filterMap Encoder.buffer ++
                s.lost = s.unfreed := hlist.trans hunfreed.symm
          exact h.buffered.keep hsame (if_neg hbytes) (Nat.le_succ _) rfl rfl
      told :=
        { through := fun id => by
            have hthrough := h.told.through id
            unfold State.through at hthrough ⊢
            dsimp only
            rw [hencoders, filterMap_pending hapart, hidle] at hthrough
            rw [hset, filterMap_pending (e := { e with
              call := some ⟨answer.map (·.out), s.nextBuffer, raw⟩ }) hapart, List.filter_append,
              List.map_append, ← hthrough]
            by_cases hid : e.id = id
            · rw [if_pos hid, if_pos hid]
              cases answer with
              | none => simp
              | some x =>
                  have hx : x.encoder = id := (answered_encoder hanswer).trans hid
                  simp [hx]
            · rw [if_neg hid, if_neg hid]
              cases answer with
              | none => simp
              | some x =>
                  have hx : x.encoder ≠ id := fun heq =>
                    hid ((answered_encoder hanswer).symm.trans heq)
                  simp [hx]
          queued := by
            show (s.answers ++ answer.toList).filterMap Answer.queued = _
            rw [encodeFor_returned, List.filterMap_append, h.told.queued, hanswer]
          inline := fun x hx hnone => by
            rcases List.mem_append.mp hx with hx | hx
            · exact h.told.inline_follows hfollows x hx hnone
            · have hx : answered info s.toEncoders e.id given = some x :=
                hanswer.trans (Option.mem_toList.mp hx)
              obtain ⟨q, hslot⟩ := answered_inline hx hnone
              have hfound := (s.registry.slotFor_binds e.id).2
              rw [← encodeFor_registry s.toEncoders e.id requestKeyFrame] at hfound
              obtain ⟨hnumber, y, hy, hsame⟩ :=
                reservation_of_slot hregistry hfound (.inr hslot)
              rw [answered_encoder hx]
              exact ⟨_, q, y, hfound, hnumber, hy, hsame.trans hslot⟩
          images := h.told.images
          rates := h.told.rates_follows hfollows } }

/-- A call ends: its frame is done with, and its buffer is freed or nobody has it. -/
theorem endCall (h : Inv info s) (hk : s.encoders[k]? = some e) {c : Call} (hcall : e.call = some c)
    (done : List Handled) (freed : Option Nat) (lost : List Nat)
    (hencoder : ∀ x ∈ done, x.encoder = e.id) (hout : done.map (·.out) = c.out.toList)
    (hleft : c.left.toList = freed.toList ++ lost)
    (hunheard : lost.length = (done.filter Handled.unheard).length) :
    Inv info { s with
      encoders := s.encoders.set k { e with call := none }
      handled := s.handled ++ done
      images := s.images ++ done.filterMap Handled.image
      buffers := s.buffers.freeAll freed
      lost := s.lost ++ lost } := by
  obtain ⟨l, r, hencoders, hset, -, hapart⟩ := h.named.around hk
  obtain ⟨m, m', hunfreed, hlists, -⟩ := unfreed_around hk
  have hids : (s.encoders.set k { e with call := none }).map (·.id) = s.encoders.map (·.id) := by
    rw [hset, hencoders, List.map_append, List.map_append]
    rfl
  have hbuffer : e.buffer.toList = freed.toList ++ lost := by
    unfold Encoder.buffer
    rw [hcall]
    exact hleft
  -- what is left is what there was, without the buffer that is freed
  have hlist : (s.encoders.set k { e with call := none }).filterMap Encoder.buffer ++
      (s.lost ++ lost) = m ++ (m' ++ (s.lost ++ lost)) := hlists _ _
  have hperm : s.unfreed.Perm (freed.toList ++
      ((s.encoders.set k { e with call := none }).filterMap Encoder.buffer ++
        (s.lost ++ lost))) := by
    rw [hunfreed, hbuffer, hlist, List.append_assoc]
    refine List.perm_append_comm_assoc _ _ _ |>.trans (List.Perm.append_left _ ?_)
    refine List.Perm.append_left m (List.perm_append_comm.trans ?_)
    rw [List.append_assoc]
  have hnodup := hperm.nodup_iff.mp h.buffered.nodup
  have hfreed : ∀ n, freed = some n → n ∈ s.unfreed := fun n hn =>
    hperm.mem_iff.mpr (List.mem_append_left _ (Option.mem_toList.mpr hn))
  exact
    { owned := h.owned.keep rfl (by
        unfold State.refs
        rw [List.length_set]) rfl rfl rfl h.owned.creating
      registry := h.registry
      named := h.named.keep rfl hids rfl (.inl rfl)
      buffered :=
        { objects := h.buffered.objects.freeAll hfreed fun n => by
            rw [hperm.mem_iff, List.mem_append, Option.mem_toList]
            constructor
            · intro hn
              refine ⟨.inr hn, fun heq => ?_⟩
              exact (List.nodup_append.mp hnodup).2.2 n (Option.mem_toList.mpr heq) n hn rfl
            · rintro ⟨hn | hn, hne⟩
              · exact absurd hn hne
              · exact hn
          nodup := (List.nodup_append.mp hnodup).2.1
          fresh := fun n hn =>
            (Arena.freeAll_unborn (fun i hi => h.buffered.objects.ne_unborn (hfreed i hi)) n).mpr
              (h.buffered.fresh n hn)
          lost := by
            show (s.lost ++ lost).length = ((s.handled ++ done).filter Handled.unheard).length
            rw [List.length_append, List.filter_append, List.length_append, h.buffered.lost,
              hunheard] }
      told :=
        { through := fun id => by
            rw [← h.told.through id]
            unfold State.through
            dsimp only
            rw [hset, hencoders, filterMap_pending hapart,
              filterMap_pending (e := { e with call := none }) hapart, hcall,
              List.filter_append, List.map_append]
            by_cases hid : e.id = id
            · have hall : done.filter (·.encoder = id) = done :=
                List.filter_eq_self.mpr fun x hx => decide_eq_true ((hencoder x hx).trans hid)
              rw [if_pos hid, if_pos hid, hall, hout]
              exact List.append_nil _
            · have hnone : done.filter (·.encoder = id) = [] :=
                List.filter_eq_nil_iff.mpr fun x hx hyes =>
                  hid ((hencoder x hx).symm.trans (of_decide_eq_true hyes))
              rw [if_neg hid, if_neg hid, hnone]
              exact congrArg (· ++ _) (List.append_nil _)
          queued := h.told.queued
          inline := h.told.inline
          images := by
            show s.images ++ _ = (s.handled ++ done).filterMap Handled.image
            rw [List.filterMap_append, h.told.images]
          rates := h.told.rates } }

theorem handOn (h : Inv info s) (hk : s.encoders[k]? = some e) {c : Call}
    (hcall : e.call = some c) : Inv info (s.handOn k e c) := by
  unfold State.handOn
  cases hout : c.out with
  | none =>
      have hleft : c.left = none := by
        unfold Call.left
        rw [hout]
        rfl
      have hend := h.endCall hk hcall [] none [] nofun (by rw [hout]; rfl) (by rw [hleft]; rfl) rfl
      simpa [Arena.freeAll] using hend
  | some out =>
      dsimp only
      by_cases hdata : out.data = []
      · have hleft : c.left = none := by
          unfold Call.left
          rw [hout]
          simp [hdata]
        have hend := h.endCall hk hcall [⟨e.id, e.codecType, e.callback, c.raw, out⟩] none []
          (by simp) (by rw [hout]; rfl) (by rw [hleft]; rfl) (by simp [Handled.unheard, hdata])
        rw [if_pos hdata]
        simpa [Handled.image, hdata, Arena.freeAll] using hend
      · have hleft : c.left = some c.buffer := by
          unfold Call.left
          rw [hout]
          simp [hdata]
        rw [if_neg hdata]
        cases hcallback : e.callback with
        | true =>
            have hend := h.endCall hk hcall [⟨e.id, e.codecType, e.callback, c.raw, out⟩]
              (some c.buffer) [] (by simp) (by rw [hout]; rfl) (by rw [hleft]; rfl)
              (by simp [Handled.unheard, hcallback])
            have hread : s.buffers.read c.buffer = s.buffers := by
              refine h.buffered.objects.read ?_
              unfold State.unfreed
              refine List.mem_append_left _ (List.mem_filterMap.mpr ⟨e, ?_, ?_⟩)
              · exact List.mem_of_getElem? hk
              · unfold Encoder.buffer
                rw [hcall]
                exact hleft
            simp only [if_true, hread]
            simpa [Handled.image, hdata, hcallback, Arena.freeAll] using hend
        | false =>
            have hend := h.endCall hk hcall [⟨e.id, e.codecType, e.callback, c.raw, out⟩]
              none [c.buffer] (by simp) (by rw [hout]; rfl) (by rw [hleft]; rfl)
              (by simp [Handled.unheard, hcallback, hdata])
            simpa [Handled.image, hcallback, Arena.freeAll] using hend

/-- An encoder goes, between two of its calls. -/
theorem delete (h : Inv info s) (hk : s.encoders[k]? = some e) (hidle : e.call = none) :
    Inv info ({ s with encoders := s.encoders.eraseIdx k } : State).letGo := by
  obtain ⟨l, r, hencoders, -, herase, hapart⟩ := h.named.around hk
  obtain ⟨m, m', hunfreed, -, hlist⟩ := unfreed_around hk
  have hbuffer : e.buffer = none := by
    unfold Encoder.buffer
    rw [hidle]
    rfl
  have hsame : (s.encoders.eraseIdx k).filterMap Encoder.buffer ++ s.lost = s.unfreed := by
    rw [hunfreed, hbuffer, hlist, List.append_assoc]
    rfl
  have hsublist : (s.creating ++ (s.encoders.eraseIdx k).map (·.id)).Sublist
      (s.creating ++ s.encoders.map (·.id)) :=
    List.Sublist.append_left ((List.eraseIdx_sublist _ _).map _) _
  exact
    { owned := h.owned.delete hk
      registry := h.registry
      named := ⟨h.named.nodup.sublist hsublist, fun id hid => h.named.below id (hsublist.subset hid),
        fun id hid => h.named.bound id (((List.eraseIdx_sublist _ _).map _).subset hid)⟩
      buffered := h.buffered.keep hsame rfl (Nat.le_refl _) rfl rfl
      told :=
        { through := fun id => by
            have hthrough := h.told.through id
            unfold State.through at hthrough
            rw [hencoders, filterMap_pending hapart, hidle] at hthrough
            refine Eq.trans ?_ hthrough
            show _ ++ (s.encoders.eraseIdx k).filterMap (Encoder.pending id) = _
            rw [herase]
            by_cases hid : e.id = id
            · have hnone : (l ++ r).filterMap (Encoder.pending id) = [] :=
                List.filterMap_eq_nil_iff.mpr fun x hx =>
                  if_neg fun heq => hapart x hx (heq.trans hid.symm)
              rw [hnone, if_pos hid]
              rfl
            · rw [if_neg hid]
              rfl
          queued := h.told.queued
          inline := h.told.inline
          images := h.told.images
          rates := h.told.rates } }

end Inv

theorem inv_start : Inv info ({} : State) where
  owned := ⟨fun _ => ⟨rfl, rfl, rfl⟩, nofun, nofun, nofun, fun hsome => absurd rfl hsome⟩
  registry := ⟨[], rfl⟩
  named := ⟨List.nodup_nil, nofun, nofun⟩
  buffered := ⟨Arena.Holds.empty.congr fun _ => by simp [State.unfreed], List.nodup_nil,
    fun _ _ => rfl, rfl⟩
  told := ⟨fun _ => rfl, rfl, nofun, rfl, nofun⟩

theorem inv_step (h : Inv info s) (hstep : (machine info).step s a = some t) : Inv info t := by
  obtain ⟨henabled, rfl⟩ := Machine.ofEffect_step.mp hstep
  cases a with
  | app b =>
      obtain ⟨hb, hsome⟩ := henabled
      obtain ⟨r, hr⟩ := Option.isSome_iff_exists.mp hsome
      have heffect : effect info s (.app b) = { s with toEncoders := r } := by
        unfold effect
        dsimp only
        rw [hr]
      rw [heffect]
      exact h.follow (.inr ⟨b, hr⟩) (step_returned hb hr)
  | reject => exact h.withOwner _ _ _ _ _ (h.owned.reject henabled)
  | construct => exact h.withOwner _ _ _ _ _ (h.owned.construct henabled)
  | share => exact h.withOwner _ _ _ _ _ (h.owned.share henabled.1 henabled.2)
  | leave => exact h.withOwner _ _ _ _ _ (h.owned.leave henabled)
  | dropFactory kind => exact h.withOwner _ _ _ _ _ (h.owned.dropFactory henabled.1 henabled.2)
  | advertise kind =>
      show Inv info s.callBack
      rw [h.owned.callBack_eq (State.refs_pos_of_factory henabled)]
      exact h
  | number => exact h.number henabled
  | create id => exact h.create henabled
  | init k settings => exact h.modify k (fun _ => rfl) fun _ => rfl
  | register k => exact h.modify k (fun _ => rfl) fun _ => rfl
  | release k => exact h.modify k (fun _ => rfl) fun _ => rfl
  | setRates k =>
      obtain ⟨e, hk, -⟩ := exists_of_idle henabled
      have heffect : effect info s (.setRates k) = { s.callBack with
          rates := s.rates ++ ((listeners s.toEncoders e.id).map (e.id, ·)).toList } := by
        unfold effect
        dsimp only
        rw [hk]
      rw [heffect, h.owned.callBack_eq (State.refs_pos_of_encoder hk)]
      exact h.setRates e
  | ask k raw requestKeyFrame answer =>
      obtain ⟨e, hk, hidle⟩ := exists_of_idle henabled
      have heffect : effect info s (.ask k raw requestKeyFrame answer) =
          s.ask info k e raw requestKeyFrame answer := by
        unfold effect
        dsimp only
        rw [hk]
      rw [heffect]
      exact h.ask hk hidle raw requestKeyFrame answer
  | handOn k =>
      obtain ⟨e, c, hk, hcall⟩ := exists_of_busy henabled
      have heffect : effect info s (.handOn k) = s.handOn k e c := by
        unfold effect
        dsimp only
        rw [hk]
        dsimp only
        rw [hcall]
      rw [heffect]
      exact h.handOn hk hcall
  | delete k =>
      obtain ⟨e, hk, hidle⟩ := exists_of_idle henabled
      exact h.delete hk hidle

theorem inv_of_reachable (h : (machine info).Reachable s) : Inv info s :=
  Machine.invariant inv_start (fun _ _ _ => inv_step) h

/-! ### The box and the buffers -/

/-- What may be relied on, in any order of the calls. -/
structure Safe (s : State) : Prop where
  /-- Nobody asks the registry, or anything of the shared state, when it is gone. -/
  owner : s.owner.stale = 0
  box : s.box.stale = 0
  /-- Both are freed once, when neither `factory_create` nor a factory nor an encoder has them;
  the box of refused options is nobody's. -/
  freed : s.owner.freed = (if s.stage.born ∧ s.refs = 0 then 1 else 0) ∧
    s.box.freed = s.owner.freed
  /-- No two encoders ask under one id. -/
  ids : (s.creating ++ s.encoders.map (·.id)).Nodup
  /-- A buffer is read while it is there and freed once, and those left are those of the calls
  under way and of the frames with bytes that came when there was no callback. -/
  buffers : s.buffers.stale = 0
  live : ∀ n, s.buffers.life n = .live ↔ n ∈ s.unfreed
  unfreed : s.unfreed.Nodup
  lost : s.lost.length = (s.handled.filter Handled.unheard).length

/--
**Nothing is used when it is gone.**  However the factories and the encoders come and go, and
whatever the callback answers: what they share and the registry's box are there for every call,
and are freed once, by whoever is last; and a frame's buffer is freed once, unless there was
nobody to hand its bytes to.
--/
theorem custom_encoder_safe (h : (machine info).Reachable s) : Safe s := by
  have hinv := inv_of_reachable h
  have hborn : s.stage.born = true ∨ s.owner = {} ∧ s.box = {} ∧ s.stage.born = false := by
    cases hstage : s.stage.born with
    | true => exact .inl rfl
    | false => exact .inr ⟨(hinv.owned.unborn hstage).2.1, (hinv.owned.unborn hstage).2.2, rfl⟩
  have hcounts : s.owner.stale = 0 ∧ s.box.stale = 0 ∧
      s.owner.freed = (if s.stage.born ∧ s.refs = 0 then 1 else 0) ∧
      s.box.freed = s.owner.freed := by
    rcases hborn with hborn | ⟨howner, hbox, hnot⟩
    · have howner := hinv.owned.owner hborn
      have hbox := hinv.owned.box hborn
      refine ⟨howner.stale, hbox.stale, ?_, ?_⟩
      · rw [howner.freed, hborn]
        simp
      · rw [howner.freed, hbox.freed]
        by_cases hrefs : s.refs = 0 <;> simp [hrefs]
    · rw [howner, hbox, hnot]
      exact ⟨rfl, rfl, rfl, rfl⟩
  obtain ⟨howner, hbox, hfreed⟩ := hcounts
  exact
    { owner := howner
      box := hbox
      freed := hfreed
      ids := hinv.named.nodup
      buffers := hinv.buffered.objects.stale
      live := hinv.buffered.objects.live
      unfreed := hinv.buffered.nodup
      lost := hinv.buffered.lost }

/-- The factories go first, and a frame comes when the encoder was released. -/
theorem custom_encoder_safe_released : ∃ s, Safe s ∧ s.box.freed = 1 ∧ s.lost = [1] := by
  have hrun := (machine fun _ => {}).run_final {} [.app (.addEncodedSlot 7), .construct, .share,
    .leave, .number, .create 0, .init 0 (some .h264), .register 0, .dropFactory .encoder,
    .dropFactory .decoder, .app (.pushFrame 0 { data := [1], push := 0 }),
    .app (.pushFrame 0 { data := [2], push := 1 }), .ask 0 ⟨64, 48, 90⟩ false none, .handOn 0,
    .release 0, .ask 0 ⟨64, 48, 180⟩ false none, .handOn 0, .delete 0] (by decide +kernel)
  exact ⟨_, custom_encoder_safe ⟨_, hrun⟩, by decide +kernel, by decide +kernel⟩

/-! ### The frames -/

/-- What an encoder has sent of the track it is for, which has the slot `q`. -/
structure Sent (info : Nat → FrameInfo) (id q : Nat) (s : State) : Prop where
  /-- The frames it is through with, the one it is at and those to come are those pushed. -/
  frames : s.through id ++ (s.queues q).map (output info) =
    (s.pushed.filter (·.1 = q)).map fun x => output info x.2
  /-- An image for each that has bytes and came when there was a callback, in order. -/
  images : s.images.filter (·.1 = id) =
    (s.handled.filter (·.encoder = id)).filterMap Handled.image
  /-- Its rates are heard by the track's listeners and by no others. -/
  rates : ∀ x ∈ s.rates, x.1 = id ↔ x.2 = q

theorem filterMap_queued {l : List Answer} {id : Nat}
    (hall : ∀ x ∈ l, x.encoder = id → x.queue ≠ none) :
    ((l.filterMap Answer.queued).filter (·.1 = id)).map (·.2.2) =
      (l.filter (·.encoder = id)).map (·.out) := by
  induction l with
  | nil => rfl
  | cons x l ih =>
      have hrest := ih fun y hy => hall y (List.mem_cons_of_mem x hy)
      by_cases hid : x.encoder = id
      · obtain ⟨q, hq⟩ := Option.ne_none_iff_exists'.mp (hall x List.mem_cons_self hid)
        have hqueued : x.queued = some (id, q, x.out) := by
          unfold Answer.queued
          rw [hq, hid]
          rfl
        rw [List.filterMap_cons_some hqueued, List.filter_cons_of_pos (by simp),
          List.filter_cons_of_pos (by simpa using hid), List.map_cons, List.map_cons, hrest]
      · rw [List.filter_cons_of_neg (by simpa using hid), ← hrest]
        cases hq : x.queue with
        | none =>
            have hqueued : x.queued = none := by
              unfold Answer.queued
              rw [hq]
              rfl
            rw [List.filterMap_cons_none hqueued]
        | some q =>
            have hqueued : x.queued = some (x.encoder, q, x.out) := by
              unfold Answer.queued
              rw [hq]
              rfl
            rw [List.filterMap_cons_some hqueued, List.filter_cons_of_neg (by simpa using hid)]

theorem filter_image (l : List Handled) (id : Nat) :
    (l.filterMap Handled.image).filter (·.1 = id) =
      (l.filter (·.encoder = id)).filterMap Handled.image := by
  rw [List.filter_filterMap, List.filterMap_filter]
  refine List.filterMap_congr fun x _ => ?_
  unfold Handled.image
  by_cases hid : x.encoder = id <;> split <;> simp [hid]

/--
**An encoder sends its track's frames.**  One that is bound to a pre-encoded track has asked for
that track's frames in the order in which they were pushed, and what is left of them is in the
queue; it hands each on once, as it came; and the rates it is told are told to that track.
--/
theorem custom_encoder_sends (h : (machine info).Reachable s) {id q : Nat} {a : AssignedSlot}
    (ha : s.registry.assigned.lookup id = some a) (hq : a.number = some q)
    (hslot : (s.made[q]?).map (·.slot) = some (.custom q)) : Sent info id q s := by
  have hinv := inv_of_reachable h
  obtain ⟨haccounts, hhanded⟩ := Encoders.reachable_accounts hinv.registry
  have haccounted := Encoders.accounted haccounts hhanded
  -- what a callback gave is of a track with a callback, which this one is not
  have hqueued : ∀ x ∈ s.answers, x.encoder = id → x.queue ≠ none := by
    rintro x hx rfl hnone
    obtain ⟨a', q', r, ha', hq', hr, hinline⟩ := hinv.told.inline x hx hnone
    obtain rfl := Option.some.inj (ha.symm.trans ha')
    obtain rfl := Option.some.inj (hq.symm.trans hq')
    rw [hr, Option.map_some, hinline] at hslot
    cases hslot
  refine ⟨?_, ?_, fun x hx => ?_⟩
  · have hreturned : (s.answers.filter (·.encoder = id)).map (·.out) =
        ((s.returned.filter (·.1 = id)).map (·.2.2)).map (output info) := by
      rw [← filterMap_queued hqueued, hinv.told.queued]
      unfold returnedOutputs
      rw [List.filter_map, List.map_map, List.map_map]
      rfl
    rw [hinv.told.through, hreturned, ← List.map_append, haccounted.frames id a q ha hq,
      List.map_map]
    rfl
  · rw [hinv.told.images, filter_image]
  · obtain ⟨a', ha', hq'⟩ := hinv.told.rates x hx
    constructor
    · rintro rfl
      obtain rfl := Option.some.inj (ha.symm.trans ha')
      exact Option.some.inj (hq'.symm.trans hq)
    · rintro rfl
      exact haccounted.oneEncoder _ _ _ _ _ ha' ha hq' hq

/-- Two of three frames are asked for, of which one is handed on. -/
theorem custom_encoder_sends_two :
    ∃ s, Sent (fun n => { isKeyFrame := n == 0 }) 0 0 s ∧ s.rates = [(0, 0)] ∧
      s.images = [(0, ⟨[1], true, 64, 48, 90, .vp9, .vp9 false true 1 noTemporalIdx false false⟩)] ∧
      s.through 0 = [⟨{ isKeyFrame := true }, [1]⟩, ⟨{}, [2]⟩] ∧
      s.queues 0 = [{ data := [3], push := 2 }] := by
  have hrun := (machine fun n => { isKeyFrame := n == 0 }).run_final {} [
    .app (.addEncodedSlot 7), .construct, .share, .leave, .number, .create 0, .init 0 (some .vp9),
    .register 0, .setRates 0, .app (.pushFrame 0 { data := [1], push := 0 }),
    .app (.pushFrame 0 { data := [2], push := 1 }), .ask 0 ⟨64, 48, 90⟩ true none, .handOn 0,
    .app (.pushFrame 0 { data := [3], push := 2 }), .ask 0 ⟨64, 48, 180⟩ false none]
    (by decide +kernel)
  exact ⟨_, custom_encoder_sends (a := ⟨7, .custom 0, some 0⟩) ⟨_, hrun⟩ (by decide +kernel) rfl
    (by decide +kernel), by decide +kernel, by decide +kernel, by decide +kernel,
    by decide +kernel⟩

end ReactorWebrtc.CustomEncoder
