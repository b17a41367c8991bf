/-
The descriptions that a connection creates.

`create_offer` and `create_answer` wait for libwebrtc's own description and then declare in
it what this connection takes part in: frame metadata first, in an offer if the connection has
it enabled and in an answer if the gate is open, and then chunking, in an offer if there are
settings for it and in an answer if the offer it answers declared it.  Each is a line at
session level, put in unless there is one already, and an empty description is left alone.

`Declared` says what the caller is handed: libwebrtc's lines, in their order, with at most
these two between the session's and the first media section's.  `createSdp_outcome` is about a
whole call, the wait included.  The connection is as the call finds it when the wait is over;
another thread may have applied a description meanwhile.
-/
import ReactorWebrtc.Connection.Calls
import ReactorWebrtc.Metadata.SessionLevel

namespace ReactorWebrtc

open Text
open SessionDescription (newline_not_mem_frameMetadataLine declaresOn_frameMetadataLine)

/-- Which of the two calls. -/
inductive Creates
  | offer | answer
  deriving DecidableEq, Repr

/-- What the glue does for it. -/
def Glue.create : Creates → Bool → Dispatch (Except Text SessionDescription)
  | .offer => createOffer
  | .answer => createAnswer

namespace PeerConnection

/-- `create_offer`, once libwebrtc has one. -/
def declareOffer (pc : PeerConnection) (offer : SessionDescription) : SessionDescription :=
  let offer := if pc.frameMetadataEnabled then offer.withFrameMetadata else offer
  pc.dcNegotiation.offer offer

/-- `create_answer`, once libwebrtc has one. -/
def declareAnswer (pc : PeerConnection) (answer : SessionDescription) : SessionDescription :=
  let answer := if pc.frameMetadataGate then answer.withFrameMetadata else answer
  pc.dcNegotiation.answer answer

/-- What the connection makes of a description that libwebrtc created. -/
def declare (pc : PeerConnection) : Creates → SessionDescription → SessionDescription
  | .offer => pc.declareOffer
  | .answer => pc.declareAnswer

/-- What a call returns, from what its wait came to. -/
def create (pc : PeerConnection) (which : Creates) (r : Option (Except Text SessionDescription)) :
    Except Text SessionDescription :=
  (runSdp r).map (pc.declare which)

/-- Whether the connection says in its description that it strips trailers. -/
def declaresMetadata (pc : PeerConnection) : Creates → Bool
  | .offer => pc.frameMetadataEnabled
  | .answer => pc.frameMetadataGate

/-- What the connection says in its description of chunking. -/
def declaresChunking (pc : PeerConnection) : Creates → Option Params
  | .offer => pc.dcNegotiation.settings.map (·.declared)
  | .answer =>
    if pc.dcNegotiation.state.pending.isSome then pc.dcNegotiation.settings.map (·.declared)
    else none

end PeerConnection

/-- What the caller is handed, where libwebrtc created this description. -/
structure Declared (pc : PeerConnection) (which : Creates) (created d : SessionDescription) :
    Prop where
  kind : d.kind = created.kind
  empty : created.sdp = [] → d = created
  /-- Nothing is lost or moved, and what is new stands behind the lines of the session. -/
  lines : created.sdp ≠ [] → lines d.sdp = sessionLines created.sdp ++
    ((if pc.declaresMetadata which && !created.declaresFrameMetadata then [frameMetadataLine]
        else []) ++
      (if Sdp.hasAttribute created.sdp then []
        else (pc.declaresChunking which).toList.map Sdp.line)) ++ mediaLines created.sdp
  metadata : created.sdp ≠ [] → d.declaresFrameMetadata =
    (created.declaresFrameMetadata || pc.declaresMetadata which)
  /-- It reads back as it was meant. -/
  chunking : created.sdp ≠ [] → Sdp.hasAttribute created.sdp = false →
    Sdp.parse d.sdp = pc.declaresChunking which

/-! ### A line that is put in unless there is one

Both declarations are one step: a test of the lines, and a line that passes it.  What the step
does is said here for any test and any line, so that the second can be told of what the first
has left.
-/

/-- The description with the line, unless one of its lines passes the test or it has none. -/
def marked (p : Text → Bool) (added sdp : Text) : Text :=
  if (lines sdp).any p || (lines sdp).isEmpty then sdp else Sdp.insertLine added sdp

theorem withFrameMetadata_eq (d : SessionDescription) :
    d.withFrameMetadata = { d with sdp := marked declaresOn frameMetadataLine d.sdp } := by
  unfold SessionDescription.withFrameMetadata marked SessionDescription.declaresFrameMetadata
  split <;> rfl

theorem withDcChunking_eq (d : SessionDescription) (params : Params) :
    d.withDcChunking params =
      { d with sdp := marked Sdp.attributePrefix.isPrefixOf (Sdp.line params) d.sdp } := rfl

variable {p q : Text → Bool} {added sdp : Text}

@[simp] theorem marked_nil : marked p added [] = [] := rfl

theorem mediaLines_head {l : Text} {ls : List Text} (h : mediaLines sdp = l :: ls) :
    Sdp.isMedia l = true := by
  have hfirst := List.head?_dropWhile_not (fun l => !Sdp.isMedia l) (lines sdp)
  rw [show (lines sdp).dropWhile (fun l => !Sdp.isMedia l) = l :: ls from h] at hfirst
  simpa using hfirst

/-- The line is the last of the session's. -/
theorem lines_insertLine (hnew : '\n' ∉ added) (hsession : Sdp.isMedia added = false) :
    sessionLines (Sdp.insertLine added sdp) = sessionLines sdp ++ [added] ∧
      mediaLines (Sdp.insertLine added sdp) = mediaLines sdp := by
  have hall : ∀ l ∈ sessionLines sdp ++ [added], (!Sdp.isMedia l) = true := by
    intro l hl
    rcases List.mem_append.mp hl with hold | hlast
    · exact List.mem_takeWhile_imp (p := fun l => !Sdp.isMedia l) hold
    · rw [List.mem_singleton.mp hlast, hsession]
      rfl
  have hlines : lines (Sdp.insertLine added sdp) =
      (sessionLines sdp ++ [added]) ++ mediaLines sdp := by
    rw [Sdp.insertLine_lines hnew, Sdp.insertBeforeMedia_eq, List.append_assoc]
    rfl
  have hmedia : (mediaLines sdp).takeWhile (!Sdp.isMedia ·) = [] ∧
      (mediaLines sdp).dropWhile (!Sdp.isMedia ·) = mediaLines sdp := by
    cases hm : mediaLines sdp with
    | nil => exact ⟨rfl, rfl⟩
    | cons l ls => simp [mediaLines_head hm]
  constructor
  · rw [sessionLines, hlines, List.takeWhile_append_of_pos hall, hmedia.1, List.append_nil]
  · rw [mediaLines, hlines, List.dropWhile_append_of_pos hall, hmedia.2]

theorem sessionLines_marked (hnew : '\n' ∉ added) (hsession : Sdp.isMedia added = false)
    (hne : sdp ≠ []) :
    sessionLines (marked p added sdp) =
      sessionLines sdp ++ if (lines sdp).any p then [] else [added] := by
  have hlines : (lines sdp).isEmpty = false := by simpa using hne
  unfold marked
  rw [hlines, Bool.or_false]
  cases (lines sdp).any p with
  | true => exact (List.append_nil _).symm
  | false => exact (lines_insertLine hnew hsession).1

theorem mediaLines_marked (hnew : '\n' ∉ added) (hsession : Sdp.isMedia added = false) :
    mediaLines (marked p added sdp) = mediaLines sdp := by
  unfold marked
  split
  · rfl
  · exact (lines_insertLine hnew hsession).2

/-- Only the line's own test sees it. -/
theorem any_marked (hnew : '\n' ∉ added) (hsession : Sdp.isMedia added = false)
    (hne : sdp ≠ []) (q : Text → Bool) :
    (lines (marked p added sdp)).any q =
      ((lines sdp).any q || !(lines sdp).any p && q added) := by
  rw [any_lines, any_lines sdp, sessionLines_marked hnew hsession hne,
    mediaLines_marked hnew hsession, List.any_append]
  cases (lines sdp).any p <;> cases (sessionLines sdp).any q <;> simp [Bool.or_comm]

theorem marked_ne_nil (hne : sdp ≠ []) (hnew : '\n' ∉ added)
    (hsession : Sdp.isMedia added = false) : marked p added sdp ≠ [] := by
  intro hnil
  have hmedia := @mediaLines_marked p added sdp hnew hsession
  have hsessions := @sessionLines_marked p added sdp hnew hsession hne
  rw [hnil] at hmedia hsessions
  have hlines : sessionLines sdp ++ mediaLines sdp = lines sdp := List.takeWhile_append_dropWhile
  have hempty : sessionLines sdp = [] := (List.append_eq_nil_iff.mp hsessions.symm).1
  rw [hempty, ← hmedia] at hlines
  have hnone : lines sdp = [] := hlines.symm
  exact hne (by simpa using hnone)

/-! ### The two declarations

Neither test sees the other's line, so which of them is written first makes no difference to
what is read.
-/

variable {pc : PeerConnection} {which : Creates}

theorem declaresOn_line (params : Params) : declaresOn (Sdp.line params) = false := by
  have hapart : Apart Sdp.attributePrefix frameMetadataPrefix := by decide
  unfold declaresOn
  rw [stripPrefix_eq_none (hapart.not_prefix (Sdp.attributePrefix_isPrefixOf_line params))]

theorem attributePrefix_frameMetadataLine :
    Sdp.attributePrefix.isPrefixOf frameMetadataLine = false := by decide

/-- The description with frame metadata declared, if the connection declares it. -/
def PeerConnection.withMetadata (pc : PeerConnection) (which : Creates) (d : SessionDescription) :
    SessionDescription :=
  if pc.declaresMetadata which then d.withFrameMetadata else d

theorem declare_eq (created : SessionDescription) :
    pc.declare which created =
      match pc.declaresChunking which with
      | some params => (pc.withMetadata which created).withDcChunking params
      | none => pc.withMetadata which created := by
  cases which with
  | offer =>
      change pc.dcNegotiation.offer _ = _
      unfold DcNegotiation.offer PeerConnection.declaresChunking
      cases pc.dcNegotiation.settings <;> rfl
  | answer =>
      change pc.dcNegotiation.answer _ = _
      unfold DcNegotiation.answer PeerConnection.declaresChunking
      dsimp only
      cases pc.dcNegotiation.settings with
      | none => cases pc.dcNegotiation.state.pending <;> rfl
      | some settings => cases pc.dcNegotiation.state.pending <;> rfl

theorem withMetadata_sdp (created : SessionDescription) :
    (pc.withMetadata which created).kind = created.kind ∧
      (pc.withMetadata which created).sdp =
        if pc.declaresMetadata which then marked declaresOn frameMetadataLine created.sdp
        else created.sdp := by
  unfold PeerConnection.withMetadata
  rw [withFrameMetadata_eq]
  cases pc.declaresMetadata which <;> exact ⟨rfl, rfl⟩

/-- What the first declaration leaves to the second. -/
theorem withMetadata_lines {created : SessionDescription} (hne : created.sdp ≠ []) :
    (pc.withMetadata which created).sdp ≠ [] ∧
    sessionLines (pc.withMetadata which created).sdp = sessionLines created.sdp ++
      (if pc.declaresMetadata which && !created.declaresFrameMetadata then [frameMetadataLine]
        else []) ∧
    mediaLines (pc.withMetadata which created).sdp = mediaLines created.sdp ∧
    Sdp.hasAttribute (pc.withMetadata which created).sdp = Sdp.hasAttribute created.sdp ∧
    (pc.withMetadata which created).declaresFrameMetadata =
      (created.declaresFrameMetadata || pc.declaresMetadata which) := by
  have hsdp := (@withMetadata_sdp pc which created).2
  unfold SessionDescription.declaresFrameMetadata Sdp.hasAttribute
  rw [hsdp]
  cases pc.declaresMetadata which with
  | false => exact ⟨hne, (List.append_nil _).symm, rfl, rfl, (Bool.or_false _).symm⟩
  | true =>
      refine ⟨marked_ne_nil hne newline_not_mem_frameMetadataLine isMedia_frameMetadataLine, ?_,
        mediaLines_marked newline_not_mem_frameMetadataLine isMedia_frameMetadataLine, ?_, ?_⟩
      · rw [if_pos rfl, sessionLines_marked newline_not_mem_frameMetadataLine
          isMedia_frameMetadataLine hne]
        cases (lines created.sdp).any declaresOn <;> rfl
      · rw [if_pos rfl, any_marked newline_not_mem_frameMetadataLine isMedia_frameMetadataLine hne,
          attributePrefix_frameMetadataLine, Bool.and_false, Bool.or_false]
      · rw [if_pos rfl, any_marked newline_not_mem_frameMetadataLine isMedia_frameMetadataLine hne,
          declaresOn_frameMetadataLine, Bool.and_true, Bool.or_true]
        cases (lines created.sdp).any declaresOn <;> rfl

theorem declaresChunking_fits {params : Params} (h : pc.declaresChunking which = some params) :
    params.Fits := by
  have hsettings : pc.dcNegotiation.settings.map (·.declared) = some params := by
    cases which with
    | offer => exact h
    | answer =>
        change (if _ then _ else _) = _ at h
        split at h
        · exact h
        · cases h
  obtain ⟨settings, -, rfl⟩ := Option.map_eq_some_iff.mp hsettings
  exact settings.declared_fits

/-- What a connection declares in a description, and that it declares nothing else. -/
theorem declared_declare (pc : PeerConnection) (which : Creates) (created : SessionDescription) :
    Declared pc which created (pc.declare which created) := by
  obtain ⟨hkind, hsdp⟩ := @withMetadata_sdp pc which created
  have hsame : created.sdp = [] → pc.withMetadata which created = created := fun hnil => by
    rw [hnil, marked_nil, ite_self] at hsdp
    obtain ⟨kind, sdp⟩ := created
    exact congr (congrArg SessionDescription.mk hkind) (hsdp.trans hnil.symm)
  have hall : ∀ sdp, lines sdp = sessionLines sdp ++ mediaLines sdp := fun sdp =>
    List.takeWhile_append_dropWhile.symm
  rw [declare_eq]
  cases hchunking : pc.declaresChunking which with
  | none =>
      refine ⟨hkind, hsame, fun hne => ?_, fun hne => ?_, fun hne hclean => ?_⟩
      · obtain ⟨-, hsession, hmedia, -, -⟩ := @withMetadata_lines pc which created hne
        rw [hall, hsession, hmedia, hchunking]
        simp
      · exact (withMetadata_lines hne).2.2.2.2
      · rw [hchunking]
        refine Sdp.parse_eq_none ?_
        rw [(withMetadata_lines hne).2.2.2.1, hclean]
  | some params =>
      dsimp only
      refine ⟨hkind, fun hnil => ?_, fun hne => ?_, fun hne => ?_, fun hne hclean => ?_⟩
      · rw [hsame hnil, withDcChunking_eq, hnil, marked_nil, ← hnil]
      · obtain ⟨hne', hsession, hmedia, hattr, -⟩ := @withMetadata_lines pc which created hne
        rw [withDcChunking_eq, hall, sessionLines_marked (Sdp.newline_not_mem_line params)
          (isMedia_line params) hne', mediaLines_marked (Sdp.newline_not_mem_line params)
          (isMedia_line params), hsession, hmedia, hchunking, List.append_assoc _ _ (ite _ _ _)]
        rw [show (lines _).any Sdp.attributePrefix.isPrefixOf = _ from hattr]
        rfl
      · obtain ⟨hne', -, -, -, hmetadata⟩ := @withMetadata_lines pc which created hne
        rw [withDcChunking_eq, SessionDescription.declaresFrameMetadata,
          any_marked (Sdp.newline_not_mem_line params) (isMedia_line params) hne', declaresOn_line,
          Bool.and_false, Bool.or_false]
        exact hmetadata
      · obtain ⟨hne', -, -, hattr, -⟩ := @withMetadata_lines pc which created hne
        rw [hchunking]
        exact Sdp.parse_declare (hattr.trans hclean) (by simpa using hne')
          (declaresChunking_fits hchunking)

/-! ### The calls

The glue has one answer of its own here, when there is no connection.  Anything else is
libwebrtc's, and comes through a callback that knows the four names a description's type can
have.
-/

theorem create_eq_ok {r : Option (Except Text SessionDescription)} {d : SessionDescription} :
    pc.create which r = .ok d ↔ ∃ created, r = some (.ok created) ∧ d = pc.declare which created := by
  match r with
  | some (.ok created) => simp [PeerConnection.create, runSdp, Except.map, eq_comm]
  | some (.error e) | none => simp [PeerConnection.create, runSdp, Except.map]

theorem create_eq_error {r : Option (Except Text SessionDescription)} {e : Text}
    (he : e ≠ sdpTimedOut) : pc.create which r = .error e ↔ r = some (.error e) := by
  match r with
  | some (.ok created) | some (.error e) => simp [PeerConnection.create, runSdp, Except.map]
  | none => simp [PeerConnection.create, runSdp, Except.map, he.symm]

theorem sdpOk_asStr (created : SessionDescription) :
    sdpOk created.kind.asStr created.sdp = .ok created := by
  rw [sdpOk, SdpType.fromStr_asStr]

/-- A description is read only under the name of its kind. -/
theorem sdpOk_eq_ok {ty text : Text} {created : SessionDescription}
    (h : sdpOk ty text = .ok created) : ty = created.kind.asStr ∧ text = created.sdp := by
  unfold sdpOk at h
  split at h
  · rename_i kind hkind
    obtain rfl := Except.ok.inj h
    exact ⟨SdpType.fromStr_eq_some hkind, rfl⟩
  · cases h

theorem create_answered {native : Bool} {a : Except Text SessionDescription} :
    Glue.create which native = .answered a ↔
      native = false ∧ a = .error Glue.noPeerConnection := by
  cases which <;> cases native <;>
    simp [Glue.create, Glue.createOffer, Glue.createAnswer, Glue.createSdp, sdpErr, eq_comm]

/--
**What libwebrtc creates is what the caller gets, with what the connection declares.**  In
every run of `create_offer` and `create_answer`: a description is returned only if libwebrtc
created one within the wait, and if it did, it is returned as `Declared` has it; an error other
than the time-out is returned iff libwebrtc gave that error within the wait, or a kind that has
no name here, or there is no connection; and the time-out whenever the wait timed out.
-/
theorem createSdp_outcome (pc : PeerConnection) (which : Creates) (native : Bool)
    (as : List (Bridge.Action (Except Text SessionDescription)))
    (r : Option (Except Text SessionDescription))
    (h : Bridge.Returns (Glue.create which native) as r) :
    (∀ d, pc.create which r = .ok d → .timeout ∉ as ∧ ∃ created : SessionDescription,
      .fire (sdpOk created.kind.asStr created.sdp) ∈ as ∧ Declared pc which created d) ∧
    (∀ created : SessionDescription, .timeout ∉ as →
      .fire (sdpOk created.kind.asStr created.sdp) ∈ as →
        ∃ d, pc.create which r = .ok d ∧ Declared pc which created d) ∧
    (∀ e, e ≠ sdpTimedOut → (pc.create which r = .error e ↔ .timeout ∉ as ∧
      (native = false ∧ e = Glue.noPeerConnection ∨ .fire (.error e) ∈ as))) ∧
    (.timeout ∈ as → pc.create which r = .error sdpTimedOut) ∧
    ∀ ty text, (∀ kind : SdpType, ty ≠ kind.asStr) → .timeout ∉ as →
      .fire (sdpOk ty text) ∈ as →
        pc.create which r = .error ("unknown sdp type: ".toList ++ ty) := by
  obtain ⟨hanswer, -, -⟩ := Bridge.returns_answer _ as r h
  refine ⟨fun d hd => ?_, fun created hin hfire => ?_, fun e he => ?_, fun htimeout => ?_,
    fun ty text hty hin hfire => ?_⟩
  · obtain ⟨created, hr, rfl⟩ := create_eq_ok.mp hd
    obtain ⟨hin, hown | hfire⟩ := (hanswer _).mp hr
    · cases (create_answered.mp hown).2
    · exact ⟨hin, created, (sdpOk_asStr created).symm ▸ hfire, declared_declare pc which created⟩
  · rw [sdpOk_asStr] at hfire
    have hr := (hanswer _).mpr ⟨hin, .inr hfire⟩
    exact ⟨_, create_eq_ok.mpr ⟨created, hr, rfl⟩, declared_declare pc which created⟩
  · rw [create_eq_error he, hanswer, create_answered, Except.error.injEq]
  · rw [h.none_iff.mpr htimeout]
    rfl
  · have hread : sdpOk ty text = .error ("unknown sdp type: ".toList ++ ty) := by
      cases hok : sdpOk ty text with
      | ok created => exact absurd (sdpOk_eq_ok hok).1 (hty created.kind)
      | error e =>
          unfold sdpOk at hok
          split at hok
          · cases hok
          · exact hok.symm
    rw [(hanswer _).mpr ⟨hin, .inr hfire⟩, hread]
    rfl

/-- A connection that takes part in both, whose offer is created in time. -/
theorem createSdp_outcome_offer :
    ∃ d, PeerConnection.create { dcNegotiation := { settings := some {} } } .offer
        (some (sdpOk "offer".toList "v=0\r\nm=audio 9\r\n".toList)) = .ok d ∧
      Declared { dcNegotiation := { settings := some {} } } .offer
        ⟨.offer, "v=0\r\nm=audio 9\r\n".toList⟩ d :=
  (createSdp_outcome { dcNegotiation := { settings := some {} } } .offer true _ _
    (Bridge.returns_inTime _)).2.1 ⟨.offer, "v=0\r\nm=audio 9\r\n".toList⟩ (by decide) (by decide)

end ReactorWebrtc
