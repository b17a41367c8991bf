/-
What one connection records of the descriptions it applies.

`NegotiationState` is the bookkeeping of one end.  A description moves it through
`record`, one branch a kind and a side, and the first answer to be recorded settles
it: from then on `remote` and `settled` stay as they are, whatever comes.  Nothing
here applies a description; that is `Negotiation.Apply`.

Chunking is declared in an offer, taken up in an answer, and settled by the answer: with the
parameters that came from the other side if both have declared, and with none if either has
not.  Each branch reads the text of the one description it is given and nothing else, so
what the peer has made of it stays out of sight.
-/
import ReactorWebrtc.Chunking.Sdp

namespace ReactorWebrtc

inductive SdpType
  | offer | prAnswer | answer | rollback
  deriving DecidableEq, Repr

structure SessionDescription where
  kind : SdpType
  sdp : Text
  deriving DecidableEq, Repr

/-- A copy that declares chunking with `params`. -/
def SessionDescription.withDcChunking (d : SessionDescription) (params : Params) :
    SessionDescription :=
  { d with sdp := Sdp.declare d.sdp params }

/-- The factory-wide settings for large data-channel messages. -/
structure DcChunking where
  maxBurst : UInt32 := 256
  maxMessageSize : UInt64 := 64 * 1024 * 1024
  sendBufferLimit : UInt64 := 128 * 1024 * 1024
  chunkSize : UInt64 := 64 * 1024
  deriving DecidableEq, Repr

/-- Why settings are refused before any factory exists. -/
inductive SettingsError
  | maxBurst (n : Nat)
  | config (e : ConfigError)
  deriving DecidableEq, Repr

namespace DcChunking

/-- The configuration `validate` checks: this side's own limits. -/
def ownConfig (c : DcChunking) : SendConfig :=
  { chunkSize := c.chunkSize.toNat
    queueLimit := c.sendBufferLimit.toNat
    maxMessageSize := c.maxMessageSize.toNat }

/-- The send-queue configuration for a channel whose peer declared `remote`. -/
def sendConfig (c : DcChunking) (remote : Params) : SendConfig :=
  { c.ownConfig with maxMessageSize := Sdp.effectiveMaxMessageSize c.maxMessageSize.toNat remote }

def validate (c : DcChunking) : Except SettingsError Unit :=
  if c.maxBurst = 0 ∨ c.maxBurst.toNat > 2 ^ 31 - 1 then
    .error (.maxBurst c.maxBurst.toNat)
  else
    match c.ownConfig.validate with
    | .error e => .error (.config e)
    | .ok () => .ok ()

/-- What this side declares. -/
def declared (c : DcChunking) : Params := .ofLocal c.maxMessageSize.toNat

theorem declared_fits (c : DcChunking) : c.declared.Fits := by
  refine ⟨rfl, fun n hn => ?_⟩
  obtain rfl : c.maxMessageSize.toNat = n := Option.some.inj hn
  exact c.maxMessageSize.toNat_lt

/-- Settings that pass the check give every channel a configuration that passes its own. -/
theorem sendConfig_valid {c : DcChunking} (h : c.validate = .ok ()) (remote : Params) :
    (c.sendConfig remote).validate = .ok () := by
  have hown : c.ownConfig.validate = .ok () := by
    unfold validate at h
    split at h
    · cases h
    · split at h
      · cases h
      · assumption
  obtain ⟨hchunk, hmax, hwater, hnative, hlimit⟩ := (SendConfig.validate_iff _).mp hown
  refine (SendConfig.validate_iff _).mpr ⟨hchunk, hmax, hwater, hnative, ?_⟩
  exact le_trans (Nat.min_le_left _ _) hlimit

end DcChunking

/-- The bookkeeping a description moves. -/
structure NegotiationState where
  /-- The peer's parameters, when both sides declared chunking in the first completed round. -/
  remote : Option Params := none
  settled : Bool := false
  /-- The latest remote offer's parameters, while it awaits our answer. -/
  pending : Option Params := none
  /-- Whether the offer this side last applied locally declared chunking. -/
  localOfferDeclared : Bool := false
  deriving DecidableEq, Repr

namespace NegotiationState

def settle (s : NegotiationState) (params : Option Params) : NegotiationState :=
  if !s.settled then { s with settled := true, remote := params } else s

def onLocalDescription (s : NegotiationState) (loc : SessionDescription) : NegotiationState :=
  let declares := Sdp.hasAttribute loc.sdp
  match loc.kind with
  | .offer => { s with localOfferDeclared := declares }
  | .answer => settle { s with pending := none } (s.pending.filter fun _ => declares)
  | .rollback => { s with localOfferDeclared := false }
  | .prAnswer => s

def onRemoteDescription (s : NegotiationState) (remote : SessionDescription) : NegotiationState :=
  let parsed := Sdp.parse remote.sdp
  match remote.kind with
  | .offer => { s with pending := parsed }
  | .answer => s.settle (parsed.filter fun _ => s.localOfferDeclared)
  | .rollback => { s with pending := none }
  | .prAnswer => s

end NegotiationState

/-- Which of `set_local_description` and `set_remote_description` a description goes to. -/
inductive Side
  | loc | remote
  deriving DecidableEq, Repr

def NegotiationState.record (s : NegotiationState) (side : Side) (d : SessionDescription) :
    NegotiationState :=
  match side with
  | .loc => s.onLocalDescription d
  | .remote => s.onRemoteDescription d

/-- What one peer connection knows about data-channel chunking. -/
structure DcNegotiation where
  settings : Option DcChunking
  state : NegotiationState := {}

namespace DcNegotiation

/-- An offer declares chunking whenever this connection takes part. -/
def offer (n : DcNegotiation) (offer : SessionDescription) : SessionDescription :=
  match n.settings with
  | some s => offer.withDcChunking s.declared
  | none => offer

/-- An answer declares it only when the offer it answers did. -/
def answer (n : DcNegotiation) (answer : SessionDescription) : SessionDescription :=
  match n.settings with
  | some s => if n.state.pending.isSome then answer.withDcChunking s.declared else answer
  | none => answer

end DcNegotiation

/-! ### What a record can change -/

namespace NegotiationState

variable {s : NegotiationState} {side : Side} {d : SessionDescription}

@[simp] theorem settle_settled (s : NegotiationState) (p : Option Params) :
    (s.settle p).settled = true := by
  unfold settle
  split
  · rfl
  · rename_i h
    simpa using h

theorem settle_of_settled (h : s.settled = true) (p : Option Params) : s.settle p = s := by
  simp [settle, h]

theorem settle_of_unsettled (h : s.settled = false) (p : Option Params) :
    s.settle p = { s with settled := true, remote := p } := by
  simp [settle, h]

/-- Once settled, the parameters and the flag are fixed. -/
theorem record_of_settled (h : s.settled = true) (side : Side) (d : SessionDescription) :
    (s.record side d).settled = true ∧ (s.record side d).remote = s.remote := by
  cases side with
  | loc =>
      show (s.onLocalDescription d).settled = true ∧ (s.onLocalDescription d).remote = s.remote
      unfold onLocalDescription
      cases d.kind with
      | answer =>
          have hmid : ({ s with pending := none } : NegotiationState).settled = true := h
          exact ⟨settle_settled _ _, by simp only [settle_of_settled hmid]⟩
      | _ => exact ⟨h, rfl⟩
  | remote =>
      show (s.onRemoteDescription d).settled = true ∧ (s.onRemoteDescription d).remote = s.remote
      unfold onRemoteDescription
      cases d.kind with
      | answer => exact ⟨settle_settled _ _, by simp only [settle_of_settled h]⟩
      | _ => exact ⟨h, rfl⟩

/-- Only an answer settles. -/
theorem record_of_ne_answer (h : d.kind ≠ .answer) (s : NegotiationState) (side : Side) :
    (s.record side d).settled = s.settled ∧ (s.record side d).remote = s.remote := by
  cases side with
  | loc =>
      show (s.onLocalDescription d).settled = _ ∧ (s.onLocalDescription d).remote = _
      unfold onLocalDescription
      cases hk : d.kind with
      | answer => exact absurd hk h
      | _ => exact ⟨rfl, rfl⟩
  | remote =>
      show (s.onRemoteDescription d).settled = _ ∧ (s.onRemoteDescription d).remote = _
      unfold onRemoteDescription
      cases hk : d.kind with
      | answer => exact absurd hk h
      | _ => exact ⟨rfl, rfl⟩

/-- What is not settled holds no parameters, and a record keeps it so. -/
theorem record_unsettled (h : s.settled = false → s.remote = none) (side : Side)
    (d : SessionDescription) :
    (s.record side d).settled = false → (s.record side d).remote = none := by
  intro hopen
  by_cases hd : d.kind = .answer
  · have hsettled : (s.record side d).settled = true := by
      cases side with
      | loc =>
          show (s.onLocalDescription d).settled = true
          unfold onLocalDescription
          rw [hd]
          exact settle_settled _ _
      | remote =>
          show (s.onRemoteDescription d).settled = true
          unfold onRemoteDescription
          rw [hd]
          exact settle_settled _ _
    rw [hsettled] at hopen
    cases hopen
  · obtain ⟨hsettled, hremote⟩ := record_of_ne_answer hd s side
    rw [hremote]
    exact h (hsettled.symm.trans hopen)

/-- Any number of descriptions recorded one after another. -/
def recordAll (s : NegotiationState) (ds : List (Side × SessionDescription)) : NegotiationState :=
  ds.foldl (fun s d => s.record d.1 d.2) s

@[simp] theorem recordAll_nil (s : NegotiationState) : s.recordAll [] = s := rfl

theorem recordAll_append (s : NegotiationState) (ds es : List (Side × SessionDescription)) :
    s.recordAll (ds ++ es) = (s.recordAll ds).recordAll es := List.foldl_append

end NegotiationState

end ReactorWebrtc
