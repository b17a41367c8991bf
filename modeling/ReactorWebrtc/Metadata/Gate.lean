/-
The frame-metadata gate of a connection, and the remote description in force.

`setRemoteDescription` arms the gate from the text it was given, once the native call has
come back without an error.  What the peer is held to is another matter: the native side
keeps the remote description that is settled and the one that is still being negotiated,
a rollback of either side goes back to the settled one, and a description whose apply timed
out may be applied all the same.

`Kept` is what a call has to meet for the gate to go along, and `tracks_iff_kept` says it
is exact.  Which descriptions libwebrtc takes, and when, is left open.  It takes them one
after another, so what a call that timed out does late it does before the next call's turn.
-/
import ReactorWebrtc.Lib.Machine
import ReactorWebrtc.Metadata.Declare
import ReactorWebrtc.Negotiation.Apply

namespace ReactorWebrtc

/-- The remote descriptions of a connection, as the native side keeps them. -/
structure RemoteDescriptions where
  current : Option SessionDescription := none
  pending : Option SessionDescription := none
  deriving DecidableEq, Repr

namespace RemoteDescriptions

def inForce (r : RemoteDescriptions) : Option SessionDescription := r.pending.or r.current

/-- Whether the remote description in force declares a version this build understands. -/
def declares (r : RemoteDescriptions) : Bool :=
  r.inForce.any SessionDescription.declaresFrameMetadata

def rolledBack (r : RemoteDescriptions) : RemoteDescriptions := { r with pending := none }

/-- A description takes effect. -/
def apply (r : RemoteDescriptions) (side : Side) (d : SessionDescription) : RemoteDescriptions :=
  match side, d.kind with
  | _, .rollback => r.rolledBack
  | .remote, .answer => { current := some d }
  | .remote, _ => { r with pending := some d }
  -- our answer settles the offer it answers
  | .loc, .answer => { current := r.inForce }
  | .loc, _ => r

/-- What is in force after a description: the settled one, the one given, or what was. -/
theorem apply_declares (r : RemoteDescriptions) (side : Side) (d : SessionDescription) :
    (r.apply side d).declares =
      match d.kind, side with
      | .rollback, _ => r.rolledBack.declares
      | _, .remote => d.declaresFrameMetadata
      | _, .loc => r.declares := by
  unfold apply
  cases side <;> cases d.kind <;> simp [declares, inForce]

end RemoteDescriptions

def completeTimedOut : Text := "operation timed out".toList

/-- What comes of a native apply: an answer, or none in time. -/
inductive Completion
  | applied
  | failed (e : Text)
  | timedOut (late : Bool)
  deriving DecidableEq, Repr

/-- `set_description`, and the remote descriptions once its effect has happened, if late. -/
def setDescription (native : RemoteDescriptions) (side : Side) (sdp : SessionDescription)
    (completion : Completion) : Except ApplyError Unit × RemoteDescriptions :=
  if sdp.sdp.contains '\x00' then
    (.error (.rejected "sdp contains a NUL byte".toList), native)
  else
    match completion with
    | .applied => (.ok (), native.apply side sdp)
    | .failed e => (.error (.rejected e), native)
    | .timedOut late =>
      (.error (.unconfirmed completeTimedOut),
        if late then native.apply side sdp else native)

/-- Record a description, then hand it to libwebrtc, undoing the record if it is rejected. -/
def DcNegotiation.apply (n : DcNegotiation) (side : Side) (sdp : SessionDescription)
    (native : Except ApplyError Unit) : Except Text Unit × DcNegotiation :=
  if n.settings.isNone then (native.mapError ApplyError.intoError, n)
  else
    let state := if isRejected native then n.state else n.state.record side sdp
    (native.mapError ApplyError.intoError, { n with state })

/-- What a connection has of frame metadata, and what it takes to apply a description. -/
structure PeerConnection where
  dcNegotiation : DcNegotiation
  frameMetadataEnabled : Bool := true
  frameMetadataGate : Bool := false
  /-- What the native side holds. -/
  native : RemoteDescriptions := {}

namespace PeerConnection

def setLocalDescription (pc : PeerConnection) (sdp : SessionDescription)
    (completion : Completion) : Except Text Unit × PeerConnection :=
  let (applied, native) := setDescription pc.native .loc sdp completion
  let (result, dcNegotiation) := pc.dcNegotiation.apply .loc sdp applied
  (result, { pc with dcNegotiation, native })

/-- The gate moves after the native call, and not when it failed. -/
def setRemoteDescription (pc : PeerConnection) (sdp : SessionDescription)
    (completion : Completion) : Except Text Unit × PeerConnection :=
  let (applied, native) := setDescription pc.native .remote sdp completion
  let (result, dcNegotiation) := pc.dcNegotiation.apply .remote sdp applied
  let pc := { pc with dcNegotiation, native }
  match result with
  | .error e => (.error e, pc)
  | .ok () =>
    (.ok (), { pc with
      frameMetadataGate := pc.frameMetadataEnabled && sdp.declaresFrameMetadata })

/-- One call of either, and what comes of its apply. -/
structure Call where
  side : Side
  sdp : SessionDescription
  completion : Completion
  deriving DecidableEq, Repr

def call (pc : PeerConnection) (c : Call) : Except Text Unit × PeerConnection :=
  match c.side with
  | .loc => pc.setLocalDescription c.sdp c.completion
  | .remote => pc.setRemoteDescription c.sdp c.completion

/-- A connection with frame metadata enabled. -/
def machine (settings : Option DcChunking) : Machine PeerConnection Call where
  start := { dcNegotiation := { settings } }
  step pc c := some (pc.call c).2

/-- The gate is open iff the remote description in force declares a supported version. -/
def Tracks (pc : PeerConnection) : Prop := pc.frameMetadataGate = pc.native.declares

instance (pc : PeerConnection) : Decidable (Tracks pc) :=
  inferInstanceAs (Decidable (_ = _))

/-- Whether a call's description takes effect, now or late. -/
def Call.takesEffect (c : Call) : Bool :=
  !c.sdp.sdp.contains '\x00' &&
    match c.completion with
    | .applied => true
    | .failed _ => false
    | .timedOut late => late

/-- The descriptions a call replaces and puts in force do not differ where the gate would not
see it. -/
def Kept (pc : PeerConnection) (c : Call) : Prop :=
  c.takesEffect = true →
    match c.sdp.kind, c.side, c.completion with
    -- the gate goes by the text of the rollback
    | .rollback, .remote, .applied =>
      c.sdp.declaresFrameMetadata = pc.native.rolledBack.declares
    -- a rollback the gate does not hear of
    | .rollback, _, _ => pc.native.rolledBack.declares = pc.native.declares
    -- a late effect the gate does not hear of
    | _, .remote, .timedOut _ => c.sdp.declaresFrameMetadata = pc.native.declares
    | _, _, _ => True

/-! ### What a call does

Whether a call moves the gate and whether its description takes effect are two questions,
and a call keeps the two together where the answers go along: `call_gate` and `call_native`
are the two, for every call and every completion.
-/

/-- Whether the gate is moved by a call. -/
def Call.arms (c : Call) : Bool :=
  c.takesEffect && decide (c.side = .remote) && decide (c.completion = .applied)

variable {pc : PeerConnection}

theorem setDescription_native (pc : PeerConnection) (c : Call) :
    (setDescription pc.native c.side c.sdp c.completion).2 =
      if c.takesEffect then pc.native.apply c.side c.sdp else pc.native := by
  unfold setDescription Call.takesEffect
  cases hnul : c.sdp.sdp.contains '\x00' with
  | true => rfl
  | false =>
      cases c.completion with
      | applied => rfl
      | failed e => rfl
      | timedOut late => cases late <;> rfl

theorem setDescription_arms (pc : PeerConnection) (c : Call) :
    c.arms = true ↔
      c.side = .remote ∧ (setDescription pc.native c.side c.sdp c.completion).1 = .ok () := by
  unfold setDescription Call.arms Call.takesEffect
  generalize "sdp contains a NUL byte".toList = e
  cases c.sdp.sdp.contains '\x00' with
  | true => simp
  | false => cases c.completion <;> simp

theorem apply_ok (n : DcNegotiation) (side : Side) (sdp : SessionDescription)
    (native : Except ApplyError Unit) :
    (n.apply side sdp native).1 = native.mapError ApplyError.intoError := by
  unfold DcNegotiation.apply
  split <;> rfl

theorem call_enabled (pc : PeerConnection) (c : Call) :
    (pc.call c).2.frameMetadataEnabled = pc.frameMetadataEnabled := by
  obtain ⟨side, sdp, completion⟩ := c
  cases side with
  | loc => rfl
  | remote =>
      simp only [call, setRemoteDescription]
      split <;> rfl

theorem call_native (pc : PeerConnection) (c : Call) :
    (pc.call c).2.native = if c.takesEffect then pc.native.apply c.side c.sdp else pc.native := by
  rw [← setDescription_native]
  obtain ⟨side, sdp, completion⟩ := c
  cases side with
  | loc => rfl
  | remote =>
      simp only [call, setRemoteDescription]
      split <;> rfl

theorem call_gate (pc : PeerConnection) (c : Call) :
    (pc.call c).2.frameMetadataGate =
      if c.arms then pc.frameMetadataEnabled && c.sdp.declaresFrameMetadata
      else pc.frameMetadataGate := by
  have harms := setDescription_arms pc c
  obtain ⟨side, sdp, completion⟩ := c
  cases side with
  | loc =>
      rw [if_neg fun h => Side.noConfusion (harms.mp h).1]
      rfl
  | remote =>
      simp only [call, setRemoteDescription, apply_ok]
      cases hset : (setDescription pc.native .remote sdp completion).1 with
      | error e =>
          have hnot : ¬ Call.arms ⟨.remote, sdp, completion⟩ = true := by
            rw [harms, hset]
            simp
          rw [if_neg hnot]
          rfl
      | ok _ =>
          rw [if_pos (harms.mpr ⟨rfl, hset⟩)]
          rfl

/-- A call keeps the gate on the description in force exactly when it is `Kept`. -/
theorem tracks_call {pc : PeerConnection} (henabled : pc.frameMetadataEnabled = true)
    (h : Tracks pc) (c : Call) : Tracks (pc.call c).2 ↔ Kept pc c := by
  unfold Tracks at h ⊢
  rw [call_gate, call_native, henabled, Bool.true_and]
  unfold Kept Call.arms
  by_cases hc : c.takesEffect = true
  · rw [hc, if_pos rfl, RemoteDescriptions.apply_declares, h]
    cases hcompletion : c.completion with
    | applied => cases c.sdp.kind <;> cases c.side <;> simp [eq_comm]
    | failed e => simp [Call.takesEffect, hcompletion] at hc
    | timedOut late => cases c.sdp.kind <;> cases c.side <;> simp [eq_comm]
  · simp [hc, h]

/--
**Along a run of descriptions the gate tracks the remote description in force exactly when
every call is `Kept`.**
-/
theorem tracks_iff_kept (settings : Option DcChunking) (calls : List Call) :
    (machine settings).Along Tracks (machine settings).start calls ↔
      (machine settings).Guarded Kept (machine settings).start calls := by
  have htotal : ∀ pc c, ∃ pc', (machine settings).step pc c = some pc' :=
    fun pc c => ⟨(pc.call c).2, rfl⟩
  obtain ⟨t, hrun⟩ := (machine settings).run_total htotal (machine settings).start calls
  refine Machine.along_iff_guarded (I := fun pc => pc.frameMetadataEnabled = true) ?_ ?_ rfl rfl
    hrun
  · intro pc c pc' henabled hstep
    obtain rfl : (pc.call c).2 = pc' := Option.some.inj hstep
    rw [call_enabled, henabled]
  · intro pc c pc' henabled htracks hstep
    obtain rfl : (pc.call c).2 = pc' := Option.some.inj hstep
    exact tracks_call henabled htracks c

/-- A peer that takes no metadata is answered, offers it again, and this side rolls back. -/
def rolledBackOffer : List Call :=
  let plain := "v=0\r\nm=video 9 UDP/TLS/RTP/SAVPF 96\r\n".toList
  let declaring := SessionDescription.withFrameMetadata { kind := .offer, sdp := plain }
  [⟨.remote, { kind := .offer, sdp := plain }, .applied⟩,
    ⟨.loc, { kind := .answer, sdp := plain }, .applied⟩,
    ⟨.remote, declaring, .applied⟩,
    ⟨.loc, { kind := .rollback, sdp := [] }, .applied⟩]

/-- The gate stays open towards a peer that is back to the description without metadata. -/
theorem rollback_leaves_gate_open :
    ¬ ∀ (settings : Option DcChunking) (calls : List Call),
      (machine settings).Along Tracks (machine settings).start calls := by
  intro h
  exact absurd (h none rolledBackOffer) (by decide +kernel)

end PeerConnection

end ReactorWebrtc
