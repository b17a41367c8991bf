/-
Replacing the track of a sender while its frames are on their way.

`set_track` hands the native sender another track and then points the slot's Embed step at
that track's source.  The slot asks whatever source it points at when a frame leaves, so a
frame that was in the encoder before is matched against the source of another track: a
pre-encoded one gives its oldest entry to any frame, a raw one whatever it stored under the
frame's capture millisecond.

The Embed step is installed and its gate is open throughout.  Frames may leave the encoder in
any order.  What was pushed, and what `Left` records beside the bytes, are not the code's.
-/
import Mathlib.Logic.Function.Basic
import ReactorWebrtc.Lib.Machine
import ReactorWebrtc.Media.CaptureTime
import ReactorWebrtc.Metadata.Pipeline

namespace ReactorWebrtc

/-- What a track is created with. -/
structure VideoTrackOptions where
  preEncoded : Bool
  frameMetadata : Bool := true
  deriving DecidableEq, Repr

/-- One video track with the source it registered. -/
inductive LocalVideoTrack
  | raw (t : Track)
  | encoded (t : EncodedVideoTrack)
  deriving DecidableEq, Repr

namespace LocalVideoTrack

def create (o : VideoTrackOptions) : LocalVideoTrack :=
  if o.preEncoded then .encoded { metadataEnabled := o.frameMetadata }
  else .raw { metadataEnabled := o.frameMetadata }

def metadataEnabled : LocalVideoTrack → Bool
  | .raw t => t.metadataEnabled
  | .encoded t => t.metadataEnabled

/-- Push a frame with metadata: what was stored for it, if anything, and the track. -/
def pushFrameWithMetadata (frame : VideoFrame) (userData : Bytes)
    (captureTimeUs : Option Int64) (timeMicros : Int64) :
    LocalVideoTrack → Option FrameMetadata × LocalVideoTrack
  | .raw t =>
    let pushed := (t.pushWithMetadata frame userData captureTimeUs timeMicros).2
    ((pushed.pushed.drop t.pushed.length).head?.map (·.metadata), .raw pushed)
  | .encoded t =>
    -- the number of a push is of no use here
    let pushed := t.pushMeta userData timeMicros.toInt 0
    ((pushed.senderMetaFifo.entries.drop t.senderMetaFifo.entries.length).head?.map (·.metadata),
      .encoded pushed)

/-- All that is there to be taken. -/
def stored : LocalVideoTrack → List FrameMetadata
  | .raw t => t.senderMeta.stored.map Prod.snd
  | .encoded t => t.senderMetaFifo.entries.map (·.metadata)

/-- There is something for a frame of this capture time. -/
def Holds (captureTimeMs : Int64) : LocalVideoTrack → Prop
  | .raw t => 0 < captureTimeMs ∧ (t.senderMeta.stored.lookup captureTimeMs).isSome
  | .encoded t => t.senderMetaFifo.entries ≠ []

end LocalVideoTrack

/-- A source, asked for a frame of this capture time. -/
structure Asked where
  track : LocalVideoTrack
  captureTimeMs : Int64
  deriving DecidableEq, Repr

instance : SenderMetaSource Asked where
  take asked frame :=
    match asked.track with
    | .raw t => (t.senderMeta.take asked.captureTimeMs, asked)
    | .encoded t =>
      let (m, fifo) := SenderMetaSource.take t.senderMetaFifo frame
      (m, { asked with track := .encoded { t with senderMetaFifo := fifo } })

namespace SetTrack

/-- A frame in the encoder, and the track it came from. -/
structure InFlight where
  frame : EncodedFrame
  captureTimeMs : Int64
  track : Nat
  deriving DecidableEq, Repr

/-- A frame that left. -/
structure Left where
  track : Nat
  bytes : Bytes
  /-- The payload as the callback left it, and what was taken for it from whose source. -/
  payload : Bytes
  source : Nat
  taken : Option FrameMetadata
  deriving DecidableEq, Repr

structure State where
  tracks : Nat → LocalVideoTrack
  /-- The track that the native sender has. -/
  sender : Nat
  /-- How many calls of `set_track` have still to see to the slot. -/
  rewiring : Nat := 0
  slot : ComposedSlot
  /-- Whose source the Embed step asks. -/
  source : Nat
  installed : Bool := true
  frameMetadataGate : Bool := true
  encoder : List InFlight := []
  left : List Left := []
  /-- The metadata of each push, and the track it was pushed on. -/
  pushed : List (Nat × FrameMetadata) := []

inductive Action
  /-- The native part of `set_track`, and whether it succeeds. -/
  | replace (track : Nat) (ok : Bool)
  /-- What `set_track` does about the slot. -/
  | rewire
  | push (track : Nat) (frame : VideoFrame) (userData : Bytes) (captureTimeUs : Option Int64)
      (timeMicros : Int64)
  /-- A frame of the sender's track enters the encoder. -/
  | encode (frame : EncodedFrame) (captureTimeMs : Int64)
  /-- One of the frames in the encoder passes through the slot. -/
  | pass (i : Nat) (answer : Answer)
  deriving DecidableEq, Repr

/-- Swap in a new metadata source on an already-installed embed slot. -/
def State.updateEmbedSource (s : State) (source : Nat) : State :=
  if s.installed then
    match s.slot.metaStep with
    | some (.embed _) => { s with source }
    | _ => s
  else s

/-- Configure the metadata step.  Nothing has to be attached where one is installed. -/
def State.attachEmbed (s : State) (source : Nat) (gate : Bool) : State :=
  { s with source, slot := { s.slot with metaStep := some (.embed gate) }, installed := true }

/-- `set_track` after the native call.  The track it was given has registered its source. -/
def State.rewire (s : State) (allowed : Nat → Bool) : State :=
  let senderId := s.sender
  let s := s.updateEmbedSource senderId
  if !s.frameMetadataGate || !allowed senderId then s
  else s.attachEmbed senderId s.frameMetadataGate

def State.push (s : State) (track : Nat) (frame : VideoFrame) (userData : Bytes)
    (captureTimeUs : Option Int64) (timeMicros : Int64) : State :=
  let (stored, pushed) :=
    (s.tracks track).pushFrameWithMetadata frame userData captureTimeUs timeMicros
  { s with
    tracks := Function.update s.tracks track pushed
    pushed := s.pushed ++ stored.toList.map (track, ·) }

/-- What is asked of the slot's source for a frame. -/
def State.asked (s : State) (next : InFlight) : Asked :=
  { track := s.tracks s.source, captureTimeMs := next.captureTimeMs }

/-- `ComposedSlot::run` -/
def State.pass (s : State) (prost : Prost) (i : Nat) (answer : Answer) (next : InFlight) : State :=
  let out := s.slot.run (s.asked next) prost answer next.frame
  let passed := { s with
    tracks := Function.update s.tracks s.source out.source.track
    slot := out.slot
    encoder := s.encoder.eraseIdx i }
  match out.action with
  | .drop => passed
  | .forward =>
    let called := s.slot.called answer next.frame
    { passed with left := s.left ++ [{
        track := next.track
        bytes := out.frame.currentData
        payload := called.currentData
        source := s.source
        taken := (SenderMetaSource.take (s.asked next) called).1 }] }

variable (prost : Prost) (options : Nat → VideoTrackOptions)

def step (s : State) : Action → Option State
  | .replace track ok =>
    if ok then some { s with sender := track, rewiring := s.rewiring + 1 } else some s
  | .rewire =>
    if s.rewiring = 0 then none
    else some ({ s with rewiring := s.rewiring - 1 }.rewire fun j => (options j).frameMetadata)
  | .push track frame userData captureTimeUs timeMicros =>
    some (s.push track frame userData captureTimeUs timeMicros)
  | .encode frame captureTimeMs =>
    some { s with encoder := s.encoder ++ [{ frame, captureTimeMs, track := s.sender }] }
  | .pass i answer => (s.encoder[i]?).map (s.pass prost i answer)

/-- The sender has this track, and its slot an Embed step for it. -/
def machine (caller : Bool) (first : Nat) : Machine State Action where
  start := {
    tracks := fun j => .create (options j)
    sender := first
    slot := { caller, metaStep := some (.embed true) }
    source := first }
  step := step prost options

/-- A frame leaves with metadata of its own track or with none, and with none if its track
carries none. -/
structure Left.Own (pushed : List (Nat × FrameMetadata)) (l : Left) : Prop where
  bytes : l.bytes = l.payload ++ (l.taken.map (encodeTrailer prost)).getD []
  own : ∀ m, l.taken = some m → l.source = l.track ∧ (l.track, m) ∈ pushed
  off : (options l.track).frameMetadata = false → l.taken = none

/-- All frames that left did so. -/
def Own (s : State) : Prop := ∀ l ∈ s.left, l.Own prost options s.pushed

/-- The callback drops the frame, or the slot points at the source of the frame's own track,
or that source has nothing for it. -/
def Kept (s : State) : Action → Prop
  | .pass i answer => ∀ next, s.encoder[i]? = some next →
    s.slot.caller = true ∧ answer.action = .drop ∨ s.source = next.track ∨
      ¬ (s.tracks s.source).Holds next.captureTimeMs
  | _ => True

/-- The slot is as it was installed, and each track has what was pushed on it. -/
structure Inv (s : State) : Prop where
  installed : s.installed = true
  gate : s.frameMetadataGate = true
  metaStep : s.slot.metaStep = some (.embed true)
  enabled : ∀ j, (s.tracks j).metadataEnabled = (options j).frameMetadata
  stored : ∀ j, ∀ m ∈ (s.tracks j).stored, (j, m) ∈ s.pushed ∧ (options j).frameMetadata = true

/-! ### What a track has

A raw track has at most one entry for each millisecond and keeps it when it is asked; a
pre-encoded one gives its entries away in their order.  What is asked of either is that an
entry was pushed on that track.
-/

theorem mem_evict {m : CaptureTimeMeta} {entry : Int64 × FrameMetadata}
    (h : entry ∈ m.evict.stored) : entry ∈ m.stored := by
  unfold CaptureTimeMeta.evict at h
  split at h
  · split at h
    · exact List.mem_of_mem_filter h
    · exact h
  · exact h

theorem mem_insert {m : CaptureTimeMeta} {captureMs : Int64} {x : FrameMetadata}
    {entry : Int64 × FrameMetadata} (h : entry ∈ (m.insert captureMs x).stored) :
    entry ∈ m.stored ∨ entry = (captureMs, x) := by
  change entry ∈ (if _ then m.evict.stored else m.evict.stored ++ [(captureMs, x)]) at h
  split at h
  · exact .inl (mem_evict h)
  · rcases List.mem_append.mp h with hold | hnew
    · exact .inl (mem_evict hold)
    · exact .inr (List.mem_singleton.mp hnew)

/-- A raw track takes a push or is as it was. -/
theorem pushWithMetadata_or (t : Track) (frame : VideoFrame) (userData : Bytes)
    (captureTimeUs : Option Int64) (timeMicros : Int64) :
    (t.pushWithMetadata frame userData captureTimeUs timeMicros).2 = t ∨
      t.metadataEnabled = true ∧
        (t.pushWithMetadata frame userData captureTimeUs timeMicros).2 =
          t.pushMetadataFrame userData captureTimeUs timeMicros := by
  unfold Track.pushWithMetadata
  split
  · exact .inl rfl
  · split
    · exact .inl rfl
    · split
      · rename_i henabled
        exact .inr ⟨henabled, rfl⟩
      · exact .inl rfl

variable {prost options}
variable {t : LocalVideoTrack} {frame : VideoFrame} {userData : Bytes}
  {captureTimeUs : Option Int64} {timeMicros : Int64} {m : FrameMetadata}

theorem push_enabled :
    (t.pushFrameWithMetadata frame userData captureTimeUs timeMicros).2.metadataEnabled =
      t.metadataEnabled := by
  cases t with
  | raw t =>
      show (t.pushWithMetadata frame userData captureTimeUs timeMicros).2.metadataEnabled = _
      rcases pushWithMetadata_or t frame userData captureTimeUs timeMicros with hsame | ⟨-, hpush⟩
      · rw [hsame]
        rfl
      · rw [hpush]
        rfl
  | encoded t =>
      obtain ⟨m, -, hpush⟩ := t.pushMeta_eq userData timeMicros.toInt 0
      show (t.pushMeta userData timeMicros.toInt 0).metadataEnabled = _
      rw [hpush]
      rfl

/-- A track has what it had, and what the push stored; and one without metadata stores none. -/
theorem mem_stored_push
    (h : m ∈ (t.pushFrameWithMetadata frame userData captureTimeUs timeMicros).2.stored) :
    m ∈ t.stored ∨ t.metadataEnabled = true ∧
      (t.pushFrameWithMetadata frame userData captureTimeUs timeMicros).1 = some m := by
  cases t with
  | raw t =>
      change m ∈ List.map Prod.snd
        (t.pushWithMetadata frame userData captureTimeUs timeMicros).2.senderMeta.stored at h
      rcases pushWithMetadata_or t frame userData captureTimeUs timeMicros with
        hsame | ⟨henabled, hpush⟩
      · rw [hsame] at h
        exact .inl h
      · rw [hpush] at h
        obtain ⟨entry, hentry, rfl⟩ := List.mem_map.mp h
        rcases mem_insert hentry with hold | rfl
        · exact .inl (List.mem_map_of_mem hold)
        · refine .inr ⟨henabled, ?_⟩
          show ((t.pushWithMetadata frame userData captureTimeUs timeMicros).2.pushed.drop
            t.pushed.length).head?.map (·.metadata) = _
          rw [hpush]
          show ((t.pushed ++ [_]).drop t.pushed.length).head?.map Pushed.metadata = _
          rw [List.drop_left]
          rfl
  | encoded t =>
      obtain ⟨x, -, hpush⟩ := t.pushMeta_eq userData timeMicros.toInt 0
      change m ∈ (t.pushMeta userData timeMicros.toInt 0).senderMetaFifo.entries.map
        (·.metadata) at h
      rw [hpush] at h
      by_cases henabled : t.metadataEnabled = true
      · change m ∈ List.map _ (if t.metadataEnabled = true then _ else _) at h
        rw [if_pos henabled] at h
        rcases List.mem_append.mp (List.map_append ▸ h) with hold | hnew
        · exact .inl hold
        · refine .inr ⟨henabled, ?_⟩
          show ((t.pushMeta userData timeMicros.toInt 0).senderMetaFifo.entries.drop
            t.senderMetaFifo.entries.length).head?.map (·.metadata) = _
          rw [hpush]
          show (List.drop _ (if t.metadataEnabled = true then _ else _)).head?.map _ = _
          rw [if_pos henabled, List.drop_left]
          exact congrArg some (List.mem_singleton.mp hnew).symm
      · change m ∈ List.map _ (if t.metadataEnabled = true then _ else _) at h
        rw [if_neg henabled] at h
        exact .inl h

variable {asked : Asked} {f : EncodedFrame}

theorem take_enabled (asked : Asked) (f : EncodedFrame) :
    (SenderMetaSource.take asked f).2.track.metadataEnabled = asked.track.metadataEnabled := by
  obtain ⟨track, captureTimeMs⟩ := asked
  cases track with
  | raw t => rfl
  | encoded t => rfl

/-- What is taken was there, and nothing is there that was not. -/
theorem mem_stored_take : (∀ m, (SenderMetaSource.take asked f).1 = some m →
      m ∈ asked.track.stored) ∧
    (SenderMetaSource.take asked f).2.track.stored ⊆ asked.track.stored := by
  obtain ⟨track, captureTimeMs⟩ := asked
  cases track with
  | raw t =>
      refine ⟨fun m hm => ?_, List.Subset.refl _⟩
      change t.senderMeta.take captureTimeMs = some m at hm
      unfold CaptureTimeMeta.take at hm
      obtain ⟨-, hm⟩ := Option.ite_none_left_eq_some.mp hm
      obtain ⟨before, rest, hsplit, -⟩ := List.lookup_eq_some_iff.mp hm
      show m ∈ t.senderMeta.stored.map Prod.snd
      rw [hsplit]
      exact List.mem_map_of_mem (List.mem_append_right _ List.mem_cons_self)
  | encoded t =>
      constructor
      · intro m hm
        obtain ⟨entry, hentry, rfl⟩ := Option.map_eq_some_iff.mp hm
        exact List.mem_map_of_mem (List.mem_of_mem_head? hentry)
      · exact List.map_subset _ fun _ hentry => List.mem_of_mem_tail hentry

/-- Nothing is taken exactly where there is nothing for the frame. -/
theorem take_eq_none_iff : (SenderMetaSource.take asked f).1 = none ↔
    ¬ asked.track.Holds asked.captureTimeMs := by
  obtain ⟨track, captureTimeMs⟩ := asked
  cases track with
  | raw t =>
      show t.senderMeta.take captureTimeMs = none ↔ ¬ (0 < captureTimeMs ∧ _)
      unfold CaptureTimeMeta.take
      by_cases hpos : captureTimeMs ≤ 0
      · rw [if_pos hpos]
        exact iff_of_true rfl fun h => Int64.not_lt.mpr hpos h.1
      · rw [if_neg hpos, and_iff_right (Int64.not_le.mp hpos), Bool.not_eq_true,
          Option.isSome_eq_false_iff, Option.isNone_iff_eq_none]
  | encoded t =>
      show t.senderMetaFifo.entries.head?.map _ = none ↔ ¬ t.senderMetaFifo.entries ≠ []
      rw [Option.map_eq_none_iff, List.head?_eq_none_iff, not_not]

/-- A frame that the callback lets pass, at an open Embed step. -/
theorem run_open {slot : ComposedSlot} {answer : Answer}
    (hmeta : slot.metaStep = some (.embed true))
    (hpass : ¬ (slot.caller = true ∧ answer.action = .drop)) :
    slot.run asked prost answer f =
      { action := .forward
        frame := (slot.called answer f).replaceData ((slot.called answer f).currentData ++
          ((SenderMetaSource.take asked (slot.called answer f)).1.map
            (encodeTrailer prost)).getD [])
        slot
        source := (SenderMetaSource.take asked (slot.called answer f)).2 } := by
  unfold ComposedSlot.run
  rw [if_neg hpass, hmeta]
  dsimp only
  cases (SenderMetaSource.take asked (slot.called answer f)).1 with
  | none => simp
  | some m => rfl

/-! ### What a step keeps

A step other than a passing frame sends nothing, so what it has to keep is the invariant
alone.  A frame that passes is its own track's if the slot points at that track, and gets
nothing from another that has nothing for it.
-/

variable {s s' : State} {a : Action}

/-- A source that has lost something, and a list of pushes that has grown. -/
theorem Inv.update (h : Inv options s) {j : Nat} {u : LocalVideoTrack}
    {pushed : List (Nat × FrameMetadata)} (hpushed : s.pushed ⊆ pushed)
    (henabled : u.metadataEnabled = (s.tracks j).metadataEnabled)
    (hstored : ∀ m ∈ u.stored, m ∈ (s.tracks j).stored ∨
      (s.tracks j).metadataEnabled = true ∧ (j, m) ∈ pushed) (k : Nat) :
    (Function.update s.tracks j u k).metadataEnabled = (options k).frameMetadata ∧
      ∀ m ∈ (Function.update s.tracks j u k).stored,
        (k, m) ∈ pushed ∧ (options k).frameMetadata = true := by
  by_cases hk : k = j
  · rw [hk, Function.update_self]
    refine ⟨henabled.trans (h.enabled j), fun m hm => ?_⟩
    rcases hstored m hm with hold | ⟨hon, hnew⟩
    · exact ⟨hpushed (h.stored j m hold).1, (h.stored j m hold).2⟩
    · exact ⟨hnew, (h.enabled j).symm.trans hon⟩
  · rw [Function.update_of_ne hk]
    exact ⟨h.enabled k, fun m hm => ⟨hpushed (h.stored k m hm).1, (h.stored k m hm).2⟩⟩

theorem Inv.rewire (h : Inv options s) (allowed : Nat → Bool) :
    Inv options (s.rewire allowed) ∧ (s.rewire allowed).left = s.left ∧
      (s.rewire allowed).pushed = s.pushed := by
  have hupdate : s.updateEmbedSource s.sender = { s with source := s.sender } := by
    unfold State.updateEmbedSource
    rw [if_pos h.installed, h.metaStep]
  unfold State.rewire
  dsimp only
  rw [hupdate]
  split
  · exact ⟨⟨h.installed, h.gate, h.metaStep, h.enabled, h.stored⟩, rfl, rfl⟩
  · have hmeta := congrArg (fun gate => some (MetaStep.embed gate)) h.gate
    exact ⟨⟨rfl, h.gate, hmeta, h.enabled, h.stored⟩, rfl, rfl⟩

/-- A frame passes, dropped or not. -/
theorem pass_eq (prost : Prost) (h : Inv options s) (i : Nat) (answer : Answer) (next : InFlight) :
    s.slot.caller = true ∧ answer.action = .drop ∧
        s.pass prost i answer next = { s with
          tracks := Function.update s.tracks s.source (s.tracks s.source)
          encoder := s.encoder.eraseIdx i } ∨
      ¬ (s.slot.caller = true ∧ answer.action = .drop) ∧
        ∃ called l, (s.pass prost i answer next) = { s with
            tracks := Function.update s.tracks s.source
              (SenderMetaSource.take (s.asked next) called).2.track
            encoder := s.encoder.eraseIdx i
            left := s.left ++ [l] } ∧
          l.track = next.track ∧ l.source = s.source ∧
          l.taken = (SenderMetaSource.take (s.asked next) called).1 ∧
          l.bytes = l.payload ++ (l.taken.map (encodeTrailer prost)).getD [] := by
  unfold State.pass
  by_cases hdrop : s.slot.caller = true ∧ answer.action = .drop
  · refine .inl ⟨hdrop.1, hdrop.2, ?_⟩
    rw [ComposedSlot.run_drop _ _ _ hdrop.1 hdrop.2]
    rfl
  · refine .inr ⟨hdrop, s.slot.called answer next.frame, ?_⟩
    rw [run_open h.metaStep hdrop]
    exact ⟨_, rfl, rfl, rfl, rfl, rfl⟩

/-- Frames that left stay as they are, and pushes are not forgotten. -/
theorem Own.mono (h : Own prost options s) (hleft : s'.left = s.left)
    (hpushed : s.pushed ⊆ s'.pushed) : Own prost options s' := by
  intro l hl
  have hown := h l (hleft ▸ hl)
  exact ⟨hown.bytes, fun m hm => ⟨(hown.own m hm).1, hpushed (hown.own m hm).2⟩, hown.off⟩

/-- One frame leaves with what the slot's source has for it. -/
theorem left_own_iff (h : Inv options s) {next : InFlight} {called : EncodedFrame} {l : Left}
    (htrack : l.track = next.track) (hsource : l.source = s.source)
    (htaken : l.taken = (SenderMetaSource.take (s.asked next) called).1)
    (hbytes : l.bytes = l.payload ++ (l.taken.map (encodeTrailer prost)).getD []) :
    l.Own prost options s.pushed ↔
      s.source = next.track ∨ ¬ (s.tracks s.source).Holds next.captureTimeMs := by
  have hnone : l.taken = none ↔ ¬ (s.tracks s.source).Holds next.captureTimeMs := by
    rw [htaken]
    exact take_eq_none_iff
  constructor
  · intro hown
    cases hm : l.taken with
    | none => exact .inr (hnone.mp hm)
    | some m => exact .inl (hsource.symm.trans ((hown.own m hm).1.trans htrack))
  · rintro (hsame | hempty)
    · have hstored : ∀ m, l.taken = some m → m ∈ (s.tracks s.source).stored := fun m hm =>
        mem_stored_take.1 m (htaken.symm.trans hm)
      rw [hsame, ← htrack] at hstored
      refine ⟨hbytes, fun m hm => ⟨hsource.trans (hsame.trans htrack.symm),
        (h.stored _ m (hstored m hm)).1⟩, fun hoff => ?_⟩
      cases hm : l.taken with
      | none => rfl
      | some m => cases hoff.symm.trans (h.stored _ m (hstored m hm)).2
    · have hm := hnone.mpr hempty
      exact ⟨hbytes, fun m hsome => (by cases hm.symm.trans hsome), fun _ => hm⟩

/-- A step keeps the invariant, and what is asked of the frames that left exactly if it is one
of those that do. -/
theorem step_inv_own_iff (h : Inv options s) (hown : Own prost options s)
    (hstep : step prost options s a = some s') :
    Inv options s' ∧ (Own prost options s' ↔ Kept s a) := by
  cases a with
  | replace track ok =>
      cases ok with
      | false =>
          obtain rfl := Option.some.inj hstep
          exact ⟨h, iff_of_true hown trivial⟩
      | true =>
          obtain rfl := Option.some.inj hstep
          exact ⟨⟨h.installed, h.gate, h.metaStep, h.enabled, h.stored⟩,
            iff_of_true (hown.mono rfl (List.Subset.refl _)) trivial⟩
  | rewire =>
      obtain ⟨-, hstep⟩ := Option.ite_none_left_eq_some.mp hstep
      obtain rfl := Option.some.inj hstep
      have hless : Inv options { s with rewiring := s.rewiring - 1 } :=
        ⟨h.installed, h.gate, h.metaStep, h.enabled, h.stored⟩
      obtain ⟨hinv, hleft, hpushed⟩ := hless.rewire fun j => (options j).frameMetadata
      refine ⟨hinv, iff_of_true (hown.mono hleft ?_) trivial⟩
      rw [hpushed]
      exact List.Subset.refl _
  | push track frame userData captureTimeUs timeMicros =>
      obtain rfl := Option.some.inj hstep
      have hgrow := List.subset_append_left s.pushed
        (((s.tracks track).pushFrameWithMetadata frame userData captureTimeUs
          timeMicros).1.toList.map (track, ·))
      have hupdate := h.update hgrow push_enabled fun m hm =>
        (mem_stored_push hm).imp_right fun hnew => ⟨hnew.1, List.mem_append_right _ (by
          rw [hnew.2]
          exact List.mem_singleton_self _)⟩
      exact ⟨⟨h.installed, h.gate, h.metaStep, fun j => (hupdate j).1, fun j => (hupdate j).2⟩,
        iff_of_true (hown.mono rfl hgrow) trivial⟩
  | encode frame captureTimeMs =>
      obtain rfl := Option.some.inj hstep
      exact ⟨⟨h.installed, h.gate, h.metaStep, h.enabled, h.stored⟩,
        iff_of_true (hown.mono rfl (List.Subset.refl _)) trivial⟩
  | pass i answer =>
      obtain ⟨next, hnext, rfl⟩ := Option.map_eq_some_iff.mp hstep
      have hkept : Kept s (.pass i answer) ↔ s.slot.caller = true ∧ answer.action = .drop ∨
          s.source = next.track ∨ ¬ (s.tracks s.source).Holds next.captureTimeMs := by
        constructor
        · exact fun hall => hall next hnext
        · intro hone other hother
          obtain rfl := Option.some.inj (hnext.symm.trans hother)
          exact hone
      rw [hkept]
      rcases pass_eq prost h i answer next with
        ⟨hcaller, hdrop, hpass⟩ | ⟨hnot, called, l, hpass, htrack, hsource, htaken, hbytes⟩
      · have hupdate := h.update (j := s.source) (List.Subset.refl s.pushed) rfl fun m => .inl
        rw [hpass]
        exact ⟨⟨h.installed, h.gate, h.metaStep, fun j => (hupdate j).1, fun j => (hupdate j).2⟩,
          iff_of_true (hown.mono rfl (List.Subset.refl _)) (.inl ⟨hcaller, hdrop⟩)⟩
      · have hupdate := h.update (List.Subset.refl s.pushed)
          (take_enabled (s.asked next) called) fun m hm => .inl (mem_stored_take.2 hm)
        rw [hpass, or_iff_right hnot, ← left_own_iff h htrack hsource htaken hbytes]
        refine ⟨⟨h.installed, h.gate, h.metaStep, fun j => (hupdate j).1, fun j => (hupdate j).2⟩,
          fun hall => hall l (List.mem_append_right _ (List.mem_singleton_self l)),
          fun hl x hx => ?_⟩
        rcases List.mem_append.mp hx with hold | hnew
        · exact hown x hold
        · rw [List.mem_singleton.mp hnew]
          exact hl

theorem inv_start (caller : Bool) (first : Nat) :
    Inv options (machine prost options caller first).start where
  installed := rfl
  gate := rfl
  metaStep := rfl
  enabled j := by
    show (LocalVideoTrack.create (options j)).metadataEnabled = _
    unfold LocalVideoTrack.create
    split <;> rfl
  stored j m hm := by
    change m ∈ (LocalVideoTrack.create (options j)).stored at hm
    unfold LocalVideoTrack.create at hm
    split at hm <;> cases hm

/--
**When replacing a track crosses no metadata.**  Along a run every frame leaves with metadata
of its own track or with none, and with none if its track carries none, exactly if no frame
passes while the slot points at the source of another track that has something for it.
-/
theorem along_own_iff (prost : Prost) (options : Nat → VideoTrackOptions) (caller : Bool)
    (first : Nat) {as : List Action} {t : State}
    (hrun : (machine prost options caller first).run
      (machine prost options caller first).start as = some t) :
    (machine prost options caller first).Along (Own prost options)
        (machine prost options caller first).start as ↔
      (machine prost options caller first).Guarded Kept
        (machine prost options caller first).start as :=
  Machine.along_iff_guarded_kept (M := machine prost options caller first) (I := Inv options)
    (P := Own prost options) (G := Kept)
    (fun _ _ _ h hown _ hstep => (step_inv_own_iff h hown hstep).1)
    (fun _ _ _ h hown hstep => (step_inv_own_iff h hown hstep).2) (inv_start caller first)
    (fun l hl => by cases hl) hrun

/-- A raw track without metadata, and a pre-encoded one with it. -/
def offAndOn (j : Nat) : VideoTrackOptions :=
  if j = 0 then { preEncoded := false, frameMetadata := false } else { preEncoded := true }

/-- A frame leaves before its track is replaced, and one of the new track after it. -/
def inTurn : List Action :=
  [.encode { ssrc := 1, timestamp := 9, currentData := [5] } 40, .pass 0 { action := .forward },
    .push 1 { pixels := [], width := 0, height := 0 } [7] none 1000, .replace 1 true, .rewire,
    .encode { ssrc := 1, timestamp := 10, currentData := [6] } 80, .pass 0 { action := .forward }]

theorem kept_inTurn : (machine proto3 offAndOn false 0).Guarded Kept
    (machine proto3 offAndOn false 0).start inTurn := by
  refine (Machine.guarded_cons _ rfl).mpr ⟨trivial, (Machine.guarded_cons _ rfl).mpr ⟨?_,
    (Machine.guarded_cons _ rfl).mpr ⟨trivial, (Machine.guarded_cons _ rfl).mpr ⟨trivial,
      (Machine.guarded_cons _ rfl).mpr ⟨trivial, (Machine.guarded_cons _ rfl).mpr ⟨trivial,
        (Machine.guarded_cons _ rfl).mpr ⟨?_, trivial⟩⟩⟩⟩⟩⟩⟩
  · intro next hnext
    obtain rfl := Option.some.inj hnext
    exact .inr (.inl rfl)
  · intro next hnext
    obtain rfl := Option.some.inj hnext
    exact .inr (.inl rfl)

/-- The frame of the one track leaves as it came, and that of the other with what was pushed. -/
theorem along_own_iff_inTurn :
    (machine proto3 offAndOn false 0).Along (Own proto3 offAndOn)
      (machine proto3 offAndOn false 0).start inTurn ∧
    ((machine proto3 offAndOn false 0).final (machine proto3 offAndOn false 0).start inTurn
      (by decide +kernel)).left.map (fun l => (l.track, l.payload, l.taken.map (·.userData))) =
        [(0, [5], none), (1, [6], some [7])] :=
  ⟨(along_own_iff proto3 offAndOn false 0 ((machine proto3 offAndOn false 0).run_final
    (machine proto3 offAndOn false 0).start inTurn (by decide +kernel))).mpr kept_inTurn,
    by decide +kernel⟩

/-- A frame of track 0 is in the encoder, track 1 is pushed on and takes its place. -/
def replaced : List Action :=
  [.encode { ssrc := 1, timestamp := 9, currentData := [5] } 40,
    .push 1 { pixels := [], width := 0, height := 0 } [7] none 1000, .replace 1 true, .rewire]

/-- The frame of the track without metadata leaves with what was pushed on the other. -/
theorem replaced_crosses :
    ∃ t, (machine proto3 offAndOn false 0).run (machine proto3 offAndOn false 0).start
        (replaced ++ [.pass 0 { action := .forward }]) = some t ∧ ¬ Own proto3 offAndOn t := by
  refine ⟨_, (machine proto3 offAndOn false 0).run_final
    (machine proto3 offAndOn false 0).start _ (by decide +kernel), fun hown => ?_⟩
  have hleft : ∃ l ∈ ((machine proto3 offAndOn false 0).final
      (machine proto3 offAndOn false 0).start
      (replaced ++ [.pass 0 { action := .forward }]) (by decide +kernel)).left,
      (offAndOn l.track).frameMetadata = false ∧ l.taken ≠ none := by
    decide +kernel
  obtain ⟨l, hl, hoff, htaken⟩ := hleft
  exact htaken ((hown l hl).off hoff)

end SetTrack

end ReactorWebrtc
