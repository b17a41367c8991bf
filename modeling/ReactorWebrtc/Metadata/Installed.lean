/-
When the Embed step gets between a track and the wire.

`push_frame_with_metadata` queues metadata whatever the peer declared, and the Embed step
takes an entry for every frame, gate open or not.  But it is a description that installs the
step, and only one that finds the gate open.  A frame that is encoded before that leaves its
entry behind, and from then on every frame that does take one takes an older one.

A call for a description is one step here: a frame that passes meanwhile passes as it would
before the call or after it.  No transform of the caller's is on the sender's slot, and pushes
do not overlap: what a dropped frame does to the queue is `Metadata.Dropped`, and it would be
one more reason for an entry to be left behind.

What is sent late is the point: `Fresh` is that no frame carries the metadata of an earlier one,
and `fresh_iff_covered` says of which steps that takes.
-/
import ReactorWebrtc.Metadata.Dropped
import ReactorWebrtc.Metadata.Gate

namespace ReactorWebrtc

/-- A connection, and the pre-encoded track on one of its senders. -/
structure EncodedSender where
  pc : PeerConnection
  /-- Whether the Embed step is set in the sender's slot. -/
  embed : Bool := false
  /-- Whether frames pass through the slot. -/
  installed : Bool := false
  pipeline : Pipeline

namespace EncodedSender

/-- The slot as the next frame finds it: the step has the connection's own gate. -/
def slot (s : EncodedSender) : ComposedSlot where
  metaStep := if s.embed then some (.embed s.pc.frameMetadataGate) else none

/-- What the next frame passes through. -/
def passing (s : EncodedSender) : ComposedSlot := if s.installed then s.slot else {}

/-- Whether there is a transformer to attach is the first part of the answer. -/
def attachEmbed (s : EncodedSender) : Bool × EncodedSender :=
  (!s.installed, { s with embed := true, installed := true })

def releaseInstall (s : EncodedSender) : EncodedSender := { s with installed := false }

/-- Wire the step into the sender, now that the remote has said it strips trailers. -/
def installFrameMetadataTransforms (s : EncodedSender) (attaches : Bool) : EncodedSender :=
  if !s.pc.frameMetadataGate then s
  else if !s.pipeline.track.metadataEnabled then s
  else
    let (native, s) := s.attachEmbed
    if native && !attaches then s.releaseInstall else s

inductive Action
  /-- A call for a description, and whether libwebrtc takes the transformer. -/
  | describe (c : PeerConnection.Call) (attaches : Bool)
  | track (a : Pipeline.Action)
  deriving DecidableEq, Repr

def step (prost : Prost) (s : EncodedSender) : Action → Option EncodedSender
  | .describe c attaches =>
    let (result, pc) := s.pc.call c
    let s := { s with pc }
    match result with
    | .ok () => some (s.installFrameMetadataTransforms attaches)
    | .error _ => some s
  | .track a =>
    (Pipeline.step prost { s.pipeline with slot := s.passing } a).map fun pipeline =>
      { s with pipeline }

/-- Whether the action is not a push without metadata. -/
def Action.withMetadata : Action → Bool
  | .describe .. => true
  | .track a => Pipeline.withMetadata a

def Action.passes : Action → Bool
  | .describe .. => false
  | .track a => a.passes

/-- A new connection with a new track that is fed only with metadata, each of them with or
without frame metadata. -/
def machine (prost : Prost) (settings : Option DcChunking) (enabled carries : Bool) :
    Machine EncodedSender Action :=
  Machine.restrict {
    start := {
      pc := { dcNegotiation := { settings }, frameMetadataEnabled := enabled }
      pipeline := { track := { metadataEnabled := carries }, slot := {} } }
    step := step prost } Action.withMetadata

/-- The frame carries metadata that was pushed before it. -/
def carriesEarlier (prost : Prost) (x : Sent) : Bool :=
  x.taken.any fun m =>
    x.bytes == x.payload ++ encodeTrailer prost m.metadata && decide (m.push < x.push)

/-- No more metadata waits than frames do, and none has been sent with a later frame. -/
structure Fresh (prost : Prost) (s : EncodedSender) : Prop where
  bounded : s.pipeline.queues.entries.length ≤ s.pipeline.queues.waiting.length
  own : ∀ x ∈ s.pipeline.sent, carriesEarlier prost x = false

/-- No frame passes before the step is installed, if the track carries metadata. -/
def Covered (s : EncodedSender) (a : Action) : Prop :=
  a.passes = true → s.pipeline.track.metadataEnabled = true → s.installed = true

instance (s : EncodedSender) (a : Action) : Decidable (Covered s a) :=
  inferInstanceAs (Decidable (_ → _ → _))

/-! ### What a step does

Before the step is installed the frames pass it by, and their entries stay.  `Even` is that
none has been left: the entries are those of the frames that wait.
-/

/-- As long as every frame was covered, what waits is the metadata of the frames that wait. -/
structure Even (s : EncodedSender) : Prop where
  embed : s.installed = true → s.embed = true
  entries : s.pipeline.queues.entries.map (·.push) =
    if s.pipeline.track.metadataEnabled then s.pipeline.queues.waiting else []

variable {prost : Prost} {s t : EncodedSender} {a : Action}

/-- The gate of the Embed step the next frame passes, if there is one. -/
def gate (s : EncodedSender) : Option Bool :=
  if s.installed && s.embed then some s.pc.frameMetadataGate else none

theorem passing_metaStep (s : EncodedSender) : s.passing.metaStep = s.gate.map .embed := by
  unfold passing slot gate
  cases s.installed <;> cases s.embed <;> rfl

theorem passing_caller (s : EncodedSender) : s.passing.caller = false := by
  unfold passing
  split <;> rfl

/-- A description leaves the track alone, and installs the step only with the step set. -/
theorem describe_spec {c : PeerConnection.Call} {attaches : Bool}
    (hstep : step prost s (.describe c attaches) = some t) :
    t.pipeline = s.pipeline ∧
      ((s.installed = true → s.embed = true) → t.installed = true → t.embed = true) := by
  simp only [step] at hstep
  split at hstep
  · obtain rfl := Option.some.inj hstep
    unfold installFrameMetadataTransforms attachEmbed releaseInstall
    split
    · exact ⟨rfl, id⟩
    · split
      · exact ⟨rfl, id⟩
      · dsimp only
        split
        · exact ⟨rfl, fun _ _ => rfl⟩
        · exact ⟨rfl, fun _ _ => rfl⟩
  · obtain rfl := Option.some.inj hstep
    exact ⟨rfl, id⟩

theorem track_spec {b : Pipeline.Action} (hstep : step prost s (.track b) = some t) :
    Pipeline.Queues.Moves prost s.pipeline.track.metadataEnabled s.gate s.pipeline.queues b
        t.pipeline.queues ∧
      t.installed = s.installed ∧ t.embed = s.embed ∧
      t.pipeline.track.metadataEnabled = s.pipeline.track.metadataEnabled := by
  obtain ⟨p, hp, rfl⟩ := Option.map_eq_some_iff.mp hstep
  have hforwards : Pipeline.Forwards { s.pipeline with slot := s.passing } b := by
    cases b with
    | transform ssrc timestamp answer =>
        rintro ⟨hcaller, -⟩
        rw [show ({ s.pipeline with slot := s.passing } : Pipeline).slot.caller = false
          from s.passing_caller] at hcaller
        cases hcaller
    | _ => trivial
  obtain ⟨hmoves, -, henabled⟩ := Pipeline.step_moves s.passing_metaStep hforwards hp
  exact ⟨hmoves, rfl, rfl, henabled⟩

/-! ### The queues, when every frame that passes takes its entry -/

section

open Pipeline

variable {q r : Queues} {b : Pipeline.Action} {embed : Option Bool} {enabled : Bool}

theorem even_next (h : q.entries.map (·.push) = if enabled then q.waiting else [])
    (hstep : q.Moves prost enabled embed b r) (hdata : Pipeline.withMetadata b = true)
    (hcovered : b.passes = true → enabled = true → embed.isSome = true) :
    r.entries.map (·.push) = if enabled then r.waiting else [] := by
  cases hstep with
  | plain => cases hdata
  | withMetadata m hm => cases enabled <;> simpa using h
  | enqueue => exact h
  | encode => exact h
  | @forward _ _ _ rest x hwaiting htaken hbytes =>
      cases enabled with
      | false =>
          rw [if_neg Bool.false_ne_true] at h ⊢
          have hempty : q.entries = [] := List.map_eq_nil_iff.mp h
          cases embed <;> simp [hempty]
      | true =>
          rw [if_pos rfl, hwaiting] at h
          rw [if_pos rfl, if_pos (hcovered rfl rfl), List.map_tail, h]
          rfl

/-- A frame takes its own entry or none. -/
theorem taken_own (h : q.entries.map (·.push) = if enabled then q.waiting else []) {x : Sent}
    {rest : List Nat} (hwaiting : q.waiting = x.push :: rest) (htaken : x.taken = q.next embed) :
    carriesEarlier prost x = false := by
  unfold carriesEarlier
  cases htake : x.taken with
  | none => rfl
  | some m =>
      rw [htake] at htaken
      unfold Queues.next at htaken
      split at htaken
      · obtain ⟨ms, hms⟩ := List.head?_eq_some_iff.mp htaken.symm
        rw [hms] at h
        cases enabled with
        | false => cases h
        | true =>
            rw [if_pos rfl, hwaiting] at h
            have hpush : m.push = x.push := (List.cons.inj h).1
            simp [hpush]
      · cases htaken

theorem fresh_next (h : q.entries.map (·.push) = if enabled then q.waiting else [])
    (hstep : q.Moves prost enabled embed b r)
    (hsent : ∀ x ∈ q.sent, carriesEarlier prost x = false) :
    ∀ x ∈ r.sent, carriesEarlier prost x = false := by
  cases hstep with
  | plain => exact hsent
  | withMetadata m hm => exact hsent
  | enqueue => exact hsent
  | encode => exact hsent
  | forward x hwaiting htaken hbytes =>
      intro y hy
      rcases List.mem_append.mp hy with hy | hy
      · exact hsent y hy
      · rw [List.mem_singleton.mp hy]
        exact taken_own h hwaiting htaken

/-- A frame that passes without the step leaves its entry behind. -/
theorem exceeds_of_uncovered (h : q.entries.map (·.push) = q.waiting)
    (hstep : q.Moves prost enabled none b r) (hpass : b.passes = true) :
    r.waiting.length < r.entries.length := by
  cases hstep with
  | @forward _ _ _ rest x hwaiting htaken hbytes =>
      have hlength : q.entries.length = q.waiting.length := by rw [← h, List.length_map]
      rw [hwaiting, List.length_cons] at hlength
      show rest.length < q.entries.length
      omega
  | _ => cases hpass

end

theorem gate_isSome (h : Even s) (hinstalled : s.installed = true) : s.gate.isSome = true := by
  unfold gate
  rw [hinstalled, h.embed hinstalled]
  rfl

theorem gate_eq_none (hinstalled : ¬ s.installed = true) : s.gate = none := by
  unfold gate
  simp [hinstalled]

theorem Even.next (h : Even s) (ha : a.withMetadata = true) (hcovered : Covered s a)
    (hstep : step prost s a = some t) : Even t := by
  cases a with
  | describe c attaches =>
      obtain ⟨hpipeline, hembed⟩ := describe_spec hstep
      exact ⟨hembed h.embed, by rw [hpipeline]; exact h.entries⟩
  | track b =>
      obtain ⟨hmoves, hinstalled, hembed, henabled⟩ := track_spec hstep
      refine ⟨by rw [hinstalled, hembed]; exact h.embed, ?_⟩
      rw [henabled]
      exact even_next h.entries hmoves ha fun hpass hcarries =>
        gate_isSome h (hcovered hpass hcarries)

theorem Even.bounded (h : Even s) :
    s.pipeline.queues.entries.length ≤ s.pipeline.queues.waiting.length := by
  have hentries := congrArg List.length h.entries
  rw [List.length_map] at hentries
  rw [hentries]
  split
  · exact le_refl _
  · exact Nat.zero_le _

theorem fresh_step (h : Even s) (hfresh : Fresh prost s) (ha : a.withMetadata = true)
    (hstep : step prost s a = some t) : Fresh prost t ↔ Covered s a := by
  constructor
  · intro ht hpass hcarries
    by_contra hinstalled
    cases a with
    | describe c attaches => cases hpass
    | track b =>
        obtain ⟨hmoves, -⟩ := track_spec hstep
        rw [gate_eq_none hinstalled] at hmoves
        have hentries := h.entries
        rw [hcarries, if_pos rfl] at hentries
        exact absurd ht.bounded (Nat.not_le.mpr (exceeds_of_uncovered hentries hmoves hpass))
  · intro hcovered
    refine ⟨(h.next ha hcovered hstep).bounded, ?_⟩
    cases a with
    | describe c attaches =>
        obtain ⟨hpipeline, -⟩ := describe_spec hstep
        rw [hpipeline]
        exact hfresh.own
    | track b => exact fresh_next h.entries (track_spec hstep).1 hfresh.own

/--
**No metadata outlives its frame, all along a run, exactly when no frame passes before the
Embed step is installed.**
-/
theorem fresh_iff_covered (prost : Prost) (settings : Option DcChunking) (enabled carries : Bool)
    {as : List Action}
    (hrun : (machine prost settings enabled carries).run
      (machine prost settings enabled carries).start as = some s) :
    (machine prost settings enabled carries).Along (Fresh prost)
        (machine prost settings enabled carries).start as ↔
      (machine prost settings enabled carries).Guarded Covered
        (machine prost settings enabled carries).start as := by
  have hstart : Even (machine prost settings enabled carries).start := by
    refine ⟨fun hinstalled => Bool.noConfusion hinstalled, ?_⟩
    cases carries <;> rfl
  have hfresh : Fresh prost (machine prost settings enabled carries).start :=
    ⟨hstart.bounded, fun x hx => absurd hx List.not_mem_nil⟩
  refine Machine.along_iff_guarded_kept (I := Even) ?_ ?_ hstart hfresh hrun
  · intro u a v hu _ hcovered hstep
    obtain ⟨ha, hstep⟩ := (Machine.restrict_step _).mp hstep
    exact hu.next ha hcovered hstep
  · intro u a v hu hfresh hstep
    obtain ⟨ha, hstep⟩ := (Machine.restrict_step _).mp hstep
    exact fresh_step hu hfresh ha hstep

/-- The peer's offer is applied, and answered. -/
def round (declares : Bool) : List Action :=
  let plain := "v=0\r\nm=video 9 UDP/TLS/RTP/SAVPF 96\r\n".toList
  let offer : SessionDescription := { kind := .offer, sdp := plain }
  [.describe ⟨.remote, if declares then offer.withFrameMetadata else offer, .applied⟩ true,
    .describe ⟨.loc, { kind := .answer, sdp := plain }, .applied⟩ true]

/-- A frame is pushed, taken by the encoder, and passes. -/
def passes (data userData : Bytes) : List Action :=
  (Pipeline.passes data userData .forward).map .track

/-- A peer that accepts, declines and accepts again, with a frame after each. -/
theorem fresh_iff_covered_renegotiated :
    (machine proto3 none true true).Along (Fresh proto3) (machine proto3 none true true).start
      (round true ++ passes [1] [10] ++ round false ++ passes [2] [20] ++ round true ++
        passes [3] [30]) :=
  (fresh_iff_covered proto3 none true true
    ((machine proto3 none true true).run_final _ _ (by decide +kernel))).mpr (by decide +kernel)

/-- The first frame after the peer accepts carries the metadata of one sent while it declined. -/
theorem declined_metadata_is_sent_later :
    ¬ ∀ s, (machine proto3 none true true).Reachable s → Fresh proto3 s := by
  intro h
  have hrun := (machine proto3 none true true).run_final (machine proto3 none true true).start
    (round false ++ passes [1] [10] ++ round true ++ passes [2] [20]) (by decide +kernel)
  have hown := (h _ ⟨_, hrun⟩).own
  exact absurd hown (by decide +kernel)

end EncodedSender

end ReactorWebrtc
