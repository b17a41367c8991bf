/-
The operations that wait for libwebrtc.

Each is three things: what the glue makes of the request, the callback that reads the native
answer, and what the caller makes of the wait.  Several of the glue's ways out are answers of
its own, given on the caller's thread before libwebrtc has seen anything; and a text that
cannot be handed over, because there is a NUL byte in it, is refused before the glue is asked
and without a wait (`Described.refused`, `Added.refused`).

Applying a description is the one where a wait that timed out matters: the description may
still take effect, so the caller must be told apart from one whose description was refused.
`setDescription_outcome` says it is, in every run, and `Described.eq_setDescription` that
these are the outcomes that the connection's own state goes by.  `addIceCandidate_outcome` is
about candidates, where the glue has a success of its own to give.  The descriptions that
libwebrtc creates come back through the same callbacks and the same wait; what the connection
makes of them is in `Connection.Created`.
-/
import ReactorWebrtc.Connection.Bridge

namespace ReactorWebrtc

/-! ### The callbacks

libwebrtc calls one of them once, on a thread of its own, and what it makes of the native
answer is what it sends to the caller.
-/

namespace SdpType

/-- The names that libwebrtc has for the kinds of description. -/
def asStr : SdpType → Text
  | .offer => "offer".toList
  | .prAnswer => "pranswer".toList
  | .answer => "answer".toList
  | .rollback => "rollback".toList

/-- The kind that is called so. -/
def fromStr (s : Text) : Option SdpType :=
  if s = "offer".toList then some .offer
  else if s = "pranswer".toList then some .prAnswer
  else if s = "answer".toList then some .answer
  else if s = "rollback".toList then some .rollback
  else none

theorem fromStr_asStr (t : SdpType) : fromStr t.asStr = some t := by
  cases t <;> decide

theorem fromStr_eq_some {s : Text} {t : SdpType} (h : fromStr s = some t) : s = t.asStr := by
  unfold fromStr at h
  split_ifs at h with h1 h2 h3 h4 <;> obtain rfl := Option.some.inj h <;> assumption

end SdpType

/-- A description was created; its kind comes as a name. -/
def sdpOk (ty sdp : Text) : Except Text SessionDescription :=
  match SdpType.fromStr ty with
  | some kind => .ok { kind, sdp }
  | none => .error ("unknown sdp type: ".toList ++ ty)

/-- None was, and why. -/
def sdpErr (message : Text) : Except Text SessionDescription := .error message

/-- A null error is success. -/
def completeCb : Option Text → Except Text Unit
  | none => .ok ()
  | some e => .error e

/-! ### The glue

A request without a connection, or one that libwebrtc's parsers do not take, is answered here.
-/

namespace Glue

/-- The parsers of libwebrtc that the glue calls. -/
structure Parsers where
  sdpTypeFromString : Text → Option SdpType
  createSessionDescription : SdpType → Text → Bool
  createIceCandidate : Text → Int → Text → Except Text Unit

variable (p : Parsers)

/-- The answer to every request where there is no connection. -/
def noPeerConnection : Text := "no peer connection".toList

/-- What creating an offer and creating an answer have in common: all but the call. -/
def createSdp (pc : Bool) : Dispatch (Except Text SessionDescription) :=
  if pc then .handedOver else .answered (sdpErr noPeerConnection)

/-- `reactor_webrtc_peer_connection_create_offer` -/
def createOffer (pc : Bool) : Dispatch (Except Text SessionDescription) := createSdp pc

/-- `reactor_webrtc_peer_connection_create_answer` -/
def createAnswer (pc : Bool) : Dispatch (Except Text SessionDescription) := createSdp pc

/-- What applying a description comes to on either side: its kind, then its text, then the
call. -/
def applyDescription (pc : Bool) (type sdp : Option Text) : Dispatch (Except Text Unit) :=
  if pc then
    match p.sdpTypeFromString (type.getD []) with
    | none => .answered (completeCb (some "invalid sdp type".toList))
    | some t =>
      if p.createSessionDescription t (sdp.getD []) then .handedOver
      else .answered (completeCb (some "failed to parse sdp".toList))
  else .answered (completeCb (some noPeerConnection))

/-- `reactor_webrtc_peer_connection_set_local_description` -/
def setLocalDescription (pc : Bool) (type sdp : Option Text) : Dispatch (Except Text Unit) :=
  applyDescription p pc type sdp

/-- `reactor_webrtc_peer_connection_set_remote_description` -/
def setRemoteDescription (pc : Bool) (type sdp : Option Text) : Dispatch (Except Text Unit) :=
  applyDescription p pc type sdp

/-- An empty candidate is the end-of-candidates marker. -/
def addIceCandidate (pc : Bool) (sdpMid : Option Text) (sdpMlineIndex : Int)
    (candidate : Option Text) : Dispatch (Except Text Unit) :=
  if pc then
    match candidate.getD [] with
    | [] => .answered (completeCb none)
    | c :: cs =>
      match p.createIceCandidate (sdpMid.getD []) sdpMlineIndex (c :: cs) with
      | .error e => .answered (completeCb (some e))
      | .ok () => .handedOver
  else .answered (completeCb (some noPeerConnection))

end Glue

/-! ### The callers

A request is put together, or refused for a text with a NUL byte in it; the wait ends with
an answer or without one; and the function makes its own result of that.  `Described` and
`Added` are the two calls with all of this in them.
-/

/-- What a caller of `run_sdp` is told when nothing came in time. -/
def sdpTimedOut : Text := "sdp operation timed out".toList

/-- What `run_sdp` makes of the wait. -/
def runSdp (r : Option (Except Text SessionDescription)) : Except Text SessionDescription :=
  r.getD (.error sdpTimedOut)

/-- What `run_complete` makes of the wait. -/
def runComplete (r : Option (Except Text Unit)) : Except Text Unit :=
  r.getD (.error completeTimedOut)

/-- What `set_description` makes of the wait. -/
def descriptionApplied : Option (Except Text Unit) → Except ApplyError Unit
  | some r => r.mapError .rejected
  | none => .error (.unconfirmed completeTimedOut)

/-- A description whose text has a NUL byte in it. -/
def descriptionNul : ApplyError := .rejected "sdp contains a NUL byte".toList

/-- What `set_description` asks of the glue, unless the description has a NUL byte in it. -/
def descriptionRequest (p : Glue.Parsers) (pc : Bool) (side : Side) (sdp : SessionDescription) :
    Except ApplyError (Dispatch (Except Text Unit)) :=
  if sdp.sdp.contains '\x00' then .error descriptionNul
  else
    match side with
    | .loc => .ok (Glue.setLocalDescription p pc (some sdp.kind.asStr) (some sdp.sdp))
    | .remote => .ok (Glue.setRemoteDescription p pc (some sdp.kind.asStr) (some sdp.sdp))

/-- A candidate as the application hands it over. -/
structure IceCandidate where
  candidate : Text
  sdpMid : Option Text := none
  sdpMlineIndex : Option UInt32 := none
  deriving DecidableEq, Repr

/-- A candidate with a NUL byte in it. -/
def candidateNul : Text := "candidate contains a NUL byte".toList

/-- What `add_ice_candidate` asks of the glue, unless the candidate has a NUL byte in it. -/
def candidateRequest (p : Glue.Parsers) (pc : Bool) (c : IceCandidate) :
    Except Text (Dispatch (Except Text Unit)) :=
  -- a media id with a NUL byte in it becomes the empty one
  let mid := c.sdpMid.getD []
  let mid := if mid.contains '\x00' then [] else mid
  if c.candidate.contains '\x00' then .error candidateNul
  else
    let index := (BitVec.ofNat 32 ((c.sdpMlineIndex.getD 0).toNat)).toInt
    .ok (Glue.addIceCandidate p pc (some mid) index (some c.candidate))

/-- A run of `set_description` and what it returns. -/
inductive Described (p : Glue.Parsers) (pc : Bool) (side : Side) (sdp : SessionDescription) :
    List (Bridge.Action (Except Text Unit)) → Except ApplyError Unit → Prop
  | refused {e : ApplyError} (h : descriptionRequest p pc side sdp = .error e) :
      Described p pc side sdp [] (.error e)
  | waited {d : Dispatch (Except Text Unit)} {as : List (Bridge.Action (Except Text Unit))}
      {r : Option (Except Text Unit)} (h : descriptionRequest p pc side sdp = .ok d)
      (hr : Bridge.Returns d as r) : Described p pc side sdp as (descriptionApplied r)

/-- A run of `add_ice_candidate` and what it returns. -/
inductive Added (p : Glue.Parsers) (pc : Bool) (c : IceCandidate) :
    List (Bridge.Action (Except Text Unit)) → Except Text Unit → Prop
  | refused {e : Text} (h : candidateRequest p pc c = .error e) : Added p pc c [] (.error e)
  | waited {d : Dispatch (Except Text Unit)} {as : List (Bridge.Action (Except Text Unit))}
      {r : Option (Except Text Unit)} (h : candidateRequest p pc c = .ok d)
      (hr : Bridge.Returns d as r) : Added p pc c as (runComplete r)

/-! ### What comes of a description

Where the glue is asked, the bridge says what the wait comes to; what is left is which answers
the glue gives by itself, and it never accepts a description.
-/

variable {p : Glue.Parsers} {pc : Bool} {side : Side} {sdp : SessionDescription}
  {c : IceCandidate} {d : Dispatch (Except Text Unit)}
  {as : List (Bridge.Action (Except Text Unit))} {r : Option (Except Text Unit)}

theorem descriptionRequest_error_iff {e : ApplyError} :
    descriptionRequest p pc side sdp = .error e ↔
      sdp.sdp.contains '\x00' = true ∧ e = descriptionNul := by
  unfold descriptionRequest
  split
  · rename_i hnul
    rw [Except.error.injEq, eq_comm]
    exact (and_iff_right hnul).symm
  · rename_i hnul
    refine iff_of_false ?_ fun h => hnul h.1
    cases side <;> nofun

/-- The glue never accepts a description by itself. -/
theorem descriptionRequest_ne_ok : descriptionRequest p pc side sdp ≠ .ok (.answered (.ok ())) := by
  have h : ∀ type text, Glue.applyDescription p pc type text ≠ .answered (.ok ()) := by
    intro type text
    unfold Glue.applyDescription
    split
    · split
      · nofun
      · split <;> nofun
    · nofun
  unfold descriptionRequest
  split
  · nofun
  · cases side <;> exact fun heq => h _ _ (Except.ok.inj heq)

theorem descriptionApplied_eq_ok : descriptionApplied r = .ok () ↔ r = some (.ok ()) := by
  match r with
  | some (.ok ()) | some (.error e) | none => simp [descriptionApplied, Except.mapError]

theorem descriptionApplied_eq_rejected {e : Text} :
    descriptionApplied r = .error (.rejected e) ↔ r = some (.error e) := by
  match r with
  | some (.ok ()) | some (.error e) | none => simp [descriptionApplied, Except.mapError]

theorem descriptionApplied_unconfirmed :
    (∃ e, descriptionApplied r = .error (.unconfirmed e)) ↔ r = none := by
  match r with
  | some (.ok ()) | some (.error e) | none => simp [descriptionApplied, Except.mapError]

/-- The completion that the connection's own state goes by. -/
def Completion.ofWait (r : Option (Except Text Unit)) (late : Bool) : Completion :=
  match r with
  | some (.ok ()) => .applied
  | some (.error e) => .failed e
  | none => .timedOut late

theorem setDescription_ofWait (native : RemoteDescriptions) (side : Side)
    (hnul : sdp.sdp.contains '\x00' = false) (r : Option (Except Text Unit)) (late : Bool) :
    (setDescription native side sdp (.ofWait r late)).1 = descriptionApplied r := by
  unfold setDescription
  rw [hnul, if_neg (by simp)]
  match r with
  | some (.ok ()) | some (.error e) | none => rfl

/-- What a run returns is what the connection's own state has it return, for some completion. -/
theorem Described.eq_setDescription {out : Except ApplyError Unit}
    (h : Described p pc side sdp as out) (native : RemoteDescriptions) :
    ∃ completion, (setDescription native side sdp completion).1 = out := by
  cases h with
  | refused h =>
      obtain ⟨hnul, rfl⟩ := descriptionRequest_error_iff.mp h
      refine ⟨.applied, ?_⟩
      unfold setDescription
      rw [if_pos hnul]
      rfl
  | waited h hr =>
      refine ⟨.ofWait _ false, setDescription_ofWait native side ?_ _ _⟩
      refine Bool.eq_false_iff.mpr fun hnul => ?_
      rw [descriptionRequest_error_iff.mpr ⟨hnul, rfl⟩] at h
      cases h

/--
**A description that was refused is never taken for one that may still be applied.**  In every
run of `set_description`, on either side and whatever libwebrtc makes of the text: it is
reported applied iff libwebrtc said so within the wait, refused with a message iff there is a
NUL byte in the text and the message says so, or the glue or libwebrtc answered with that
message within the wait, and unconfirmed iff the wait timed out, which it does only with the
request in libwebrtc's hands and no answer sent.  A text with a NUL byte is refused at once.
-/
theorem setDescription_outcome (p : Glue.Parsers) (pc : Bool) (side : Side)
    (sdp : SessionDescription) (as : List (Bridge.Action (Except Text Unit)))
    (out : Except ApplyError Unit) (h : Described p pc side sdp as out) :
    (out = .ok () ↔ .timeout ∉ as ∧ .fire (.ok ()) ∈ as) ∧
    (∀ e, out = .error (.rejected e) ↔
      sdp.sdp.contains '\x00' = true ∧ descriptionNul = .rejected e ∨
      .timeout ∉ as ∧ (descriptionRequest p pc side sdp = .ok (.answered (.error e)) ∨
        .fire (.error e) ∈ as)) ∧
    ((∃ e, out = .error (.unconfirmed e)) ↔ .timeout ∈ as) ∧
    (.timeout ∈ as → descriptionRequest p pc side sdp = .ok .handedOver) ∧
    (∀ bs cs, as = bs ++ .timeout :: cs → .send ∉ bs) ∧
    (sdp.sdp.contains '\x00' = true → as = [] ∧ out = .error descriptionNul) := by
  cases h with
  | refused h =>
      obtain ⟨hnul, rfl⟩ := descriptionRequest_error_iff.mp h
      refine ⟨by simp, fun e => ?_, ?_, fun hmem => absurd hmem List.not_mem_nil,
        fun bs cs has => ?_, fun _ => ⟨rfl, rfl⟩⟩
      · rw [h]
        simp only [hnul, Except.error.injEq, true_and, List.not_mem_nil, or_false,
          reduceCtorEq, and_false]
      · simp [descriptionNul]
      · exact absurd has.symm (List.append_ne_nil_of_right_ne_nil _ (List.cons_ne_nil _ _))
  | @waited d as r h hr =>
      have hnul : ¬ sdp.sdp.contains '\x00' = true := fun hnul => by
        rw [descriptionRequest_error_iff.mpr ⟨hnul, rfl⟩] at h
        cases h
      obtain ⟨hanswer, hsend, hown⟩ := Bridge.returns_answer _ as r hr
      refine ⟨?_, fun e => ?_, ?_, fun htimeout => ?_, hsend, fun hmem => absurd hmem hnul⟩
      · have hd : d ≠ .answered (.ok ()) := fun heq =>
          descriptionRequest_ne_ok (h.trans (congrArg Except.ok heq))
        rw [descriptionApplied_eq_ok, hanswer (.ok ()), or_iff_right hd]
      · rw [descriptionApplied_eq_rejected, hanswer (.error e), h, Except.ok.injEq]
        exact (or_iff_right fun hboth => hnul hboth.1).symm
      · rw [descriptionApplied_unconfirmed, hr.none_iff]
      · rw [h]
        cases hd : d with
        | handedOver => rfl
        | answered a =>
            rw [← hr.none_iff, hown a hd] at htimeout
            cases htimeout

/-- Parsers that take every description with something in it, and every candidate. -/
def lenientParsers : Glue.Parsers where
  sdpTypeFromString := SdpType.fromStr
  createSessionDescription _ sdp := !sdp.isEmpty
  createIceCandidate _ _ _ := .ok ()

/-- An offer that libwebrtc parses, and takes in time; and one with a NUL byte, which it never
sees. -/
theorem offer_applied :
    (descriptionApplied (some (.ok ())) = .ok () ↔
      .timeout ∉ Bridge.inTime (.ok () : Except Text Unit) ∧
        .fire (.ok ()) ∈ Bridge.inTime (.ok () : Except Text Unit)) ∧
    (Except.error descriptionNul = (.error (.rejected "sdp contains a NUL byte".toList) :
        Except ApplyError Unit) ↔
      "v=0\x00".toList.contains '\x00' = true ∧
        descriptionNul = .rejected "sdp contains a NUL byte".toList ∨
      (.timeout : Bridge.Action (Except Text Unit)) ∉ [] ∧
        (descriptionRequest lenientParsers true .remote ⟨.offer, "v=0\x00".toList⟩ =
            .ok (.answered (.error "sdp contains a NUL byte".toList)) ∨
          .fire (.error "sdp contains a NUL byte".toList) ∈
            ([] : List (Bridge.Action (Except Text Unit))))) :=
  ⟨(setDescription_outcome lenientParsers true .loc ⟨.offer, "v=0".toList⟩ _ _
      (.waited rfl (Bridge.returns_inTime (.ok ())))).1,
    (setDescription_outcome lenientParsers true .remote ⟨.offer, "v=0\x00".toList⟩ _ _
      (.refused rfl)).2.1 _⟩

/-! ### What comes of a candidate

The glue answers here too, and one of its answers is a success: the empty candidate marks the
end of the candidates, and libwebrtc has no use for the mark.
-/

/-- The answers that the glue gives about a candidate. -/
theorem candidateRequest_answered {e : Except Text Unit} (hc : c.candidate ≠ [])
    (h : candidateRequest p pc c = .ok (.answered e)) : ∃ message, e = .error message := by
  unfold candidateRequest at h
  dsimp only at h
  split at h
  · cases h
  · have h := Except.ok.inj h
    unfold Glue.addIceCandidate at h
    split at h
    · rw [Option.getD_some] at h
      cases hcandidate : c.candidate with
      | nil => exact absurd hcandidate hc
      | cons x xs =>
          rw [hcandidate] at h
          dsimp only at h
          split at h
          · exact ⟨_, (Dispatch.answered.inj h).symm⟩
          · cases h
    · exact ⟨_, (Dispatch.answered.inj h).symm⟩

/--
**A candidate is added iff libwebrtc says so in time, and the end-of-candidates marker always.**
In every run of `add_ice_candidate`: the empty candidate succeeds wherever there is a
connection; any other is reported added iff libwebrtc said so within the wait; and one with a
NUL byte is refused at once.
-/
theorem addIceCandidate_outcome (p : Glue.Parsers) (pc : Bool) (c : IceCandidate)
    (as : List (Bridge.Action (Except Text Unit))) (out : Except Text Unit)
    (h : Added p pc c as out) :
    (c.candidate = [] → pc = true → out = .ok ()) ∧
    (c.candidate ≠ [] → (out = .ok () ↔ .timeout ∉ as ∧ .fire (.ok ()) ∈ as)) ∧
    (c.candidate.contains '\x00' = true → as = [] ∧ out = .error candidateNul) := by
  cases h with
  | @refused e h =>
      have hnul : c.candidate.contains '\x00' = true ∧ candidateNul = e := by
        unfold candidateRequest at h
        dsimp only at h
        split at h
        · rename_i hnul
          exact ⟨hnul, Except.error.inj h⟩
        · cases h
      obtain ⟨hnul, rfl⟩ := hnul
      refine ⟨fun hempty => ?_, fun _ => by simp, fun _ => ⟨rfl, rfl⟩⟩
      rw [hempty] at hnul
      cases hnul
  | @waited d as r h hr =>
      obtain ⟨hanswer, -, hown⟩ := Bridge.returns_answer _ as r hr
      have hok : runComplete r = .ok () ↔ r = some (.ok ()) := by
        cases r <;> simp [runComplete]
      refine ⟨fun hempty hpc => ?_, fun hc => ?_, fun hnul => ?_⟩
      · have hd : d = .answered (.ok ()) := by
          unfold candidateRequest at h
          rw [hempty, hpc] at h
          exact (Except.ok.inj h).symm
        rw [hok]
        exact hown _ hd
      · have hd : d ≠ .answered (.ok ()) := by
          rintro rfl
          obtain ⟨message, hmessage⟩ := candidateRequest_answered hc h
          cases hmessage
        rw [hok, hanswer, or_iff_right hd]
      · unfold candidateRequest at h
        dsimp only at h
        rw [if_pos hnul] at h
        cases h

/-- The end-of-candidates marker, whatever libwebrtc is doing. -/
theorem addIceCandidate_outcome_end : runComplete (some (.ok ())) = .ok () :=
  (addIceCandidate_outcome lenientParsers true { candidate := [] }
    [.share, .call, .send, .finish, .leave, .receive, .dropTx, .dropRx] _
    (.waited rfl ⟨_, rfl, rfl⟩)).1 rfl rfl

end ReactorWebrtc
