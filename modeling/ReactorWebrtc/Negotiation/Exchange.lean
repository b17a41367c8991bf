/-
Two connections that exchange descriptions.

Each end creates offers and answers, applies what it created and what it is sent, and
does so one description at a time; `Apply` shows that calls from several threads come
to the same thing.  An apply is two steps, the record and the native answer, so that
what the other end does in between is covered.  `SignalingState` is libwebrtc's state
machine, with the offer it is about; a description it would not take in its state is
not part of a legal order, and the step is refused.  Anything else goes: any number of
rounds, either end offering, rollbacks from either side, answers that arrive late or
are never applied.

Signalling may strip the attribute from an offer it carries, each time it carries it.
An answer is created while some delivery of the offer is in force, and `kept` says
whether that one still had its line: it is what the answer declares.  The same offer
may be delivered again before the answer is applied, and then it is the new delivery
that the end has on record.  Nothing compares the two, neither the record nor
libwebrtc, so an answer to an earlier delivery is applied like any other.
-/
import Mathlib.Logic.Function.Basic
import ReactorWebrtc.Lib.Machine
import ReactorWebrtc.Negotiation.Record

namespace ReactorWebrtc

namespace Sdp

open Text

/-- A description as libwebrtc writes it: never empty, and without the attribute. -/
structure Native where
  text : Text
  lines_ne : lines text ≠ []
  plain : hasAttribute text = false

/-- What is left of a description when signalling drops the attribute's lines. -/
def strip (sdp : Text) : Text := unlines ((lines sdp).filter (!attributePrefix.isPrefixOf ·))

theorem hasAttribute_strip (sdp : Text) : hasAttribute (strip sdp) = false := by
  have hlines : lines (strip sdp) = (lines sdp).filter (!attributePrefix.isPrefixOf ·) :=
    lines_unlines fun l hl => newline_not_mem (List.mem_filter.mp hl).1
  rw [hasAttribute, hlines, List.any_eq_false]
  intro l hl hpre
  have hkept := (List.mem_filter.mp hl).2
  rw [hpre] at hkept
  cases hkept

end Sdp

/-- Where libwebrtc is, with the offer that it is about and how that was delivered. -/
inductive SignalingState
  | stable
  | haveLocalOffer (offer : Nat)
  | haveRemoteOffer (offer : Nat) (kept : Bool)
  | haveLocalPrAnswer (offer : Nat) (kept : Bool)
  | haveRemotePrAnswer (offer : Nat)
  deriving DecidableEq, Repr

/-- The offer an end is answering, as it was delivered. -/
def SignalingState.answering : SignalingState → Option (Nat × Bool)
  | .haveRemoteOffer i kept | .haveLocalPrAnswer i kept => some (i, kept)
  | _ => none

/-- Whether the delivery in force left the offer its line.  An end that is answering nothing
has no delivery that could have lost it. -/
def SignalingState.delivered (sig : SignalingState) : Bool := (sig.answering.map (·.2)).getD true

/-- The offer of its own an end awaits the answer to. -/
def SignalingState.awaiting : SignalingState → Option Nat
  | .haveLocalOffer i | .haveRemotePrAnswer i => some i
  | _ => none

namespace Exchange

/-- The two ends of the connection. -/
inductive End
  | a | b
  deriving DecidableEq, Repr

/-- The one that an end talks to. -/
def End.other : End → End
  | .a => .b
  | .b => .a

/-- An offer, by who created it. -/
structure Offer where
  creator : End
  sdp : Text

/-- An answer, and the offer as it had been delivered to the end that created it. -/
structure Answer where
  creator : End
  offer : Nat
  kept : Bool
  sdp : Text

/-- A description to apply, by what was created. -/
inductive Description
  | localOffer (i : Nat)
  | remoteOffer (i : Nat) (kept : Bool)
  | localPrAnswer (j : Nat)
  | remotePrAnswer (j : Nat)
  | localAnswer (j : Nat)
  | remoteAnswer (j : Nat)
  | localRollback
  | remoteRollback
  deriving DecidableEq, Repr

/-- One end: what `NegotiationState` has, and what libwebrtc has. -/
structure Peer where
  state : NegotiationState := {}
  signaling : SignalingState := .stable
  /-- For a description libwebrtc has not answered yet: where it goes if it accepts, and
  what is put back if it does not. -/
  applying : Option (SignalingState × NegotiationState) := none
  /-- The last answer recorded before the state was settled. -/
  settledOn : Nat := 0
  /-- Whether the delivery in force then had left the offer its line. -/
  settledDelivery : Bool := true

/-- All that was created, in order, and both ends. -/
structure State where
  offers : List Offer := []
  answers : List Answer := []
  peers : End → Peer := fun _ => {}

/-- An end creates or applies a description, or libwebrtc answers about one. -/
inductive Action
  | createOffer (e : End) (native : Sdp.Native)
  | createAnswer (e : End) (native : Sdp.Native)
  | record (e : End) (d : Description)
  | native (e : End) (ok : Bool)

/-- One end is changed. -/
def State.put (s : State) (e : End) (p : Peer) : State :=
  { s with peers := Function.update s.peers e p }

/-- The side and the text of a description. -/
def State.request (s : State) : Description → Option (Side × SessionDescription)
  | .localOffer i => (s.offers[i]?).map fun o => (.loc, ⟨.offer, o.sdp⟩)
  | .remoteOffer i kept =>
    (s.offers[i]?).map fun o => (.remote, ⟨.offer, if kept then o.sdp else Sdp.strip o.sdp⟩)
  | .localPrAnswer j => (s.answers[j]?).map fun r => (.loc, ⟨.prAnswer, r.sdp⟩)
  | .remotePrAnswer j => (s.answers[j]?).map fun r => (.remote, ⟨.prAnswer, r.sdp⟩)
  | .localAnswer j => (s.answers[j]?).map fun r => (.loc, ⟨.answer, r.sdp⟩)
  | .remoteAnswer j => (s.answers[j]?).map fun r => (.remote, ⟨.answer, r.sdp⟩)
  | .localRollback => some (.loc, ⟨.rollback, []⟩)
  | .remoteRollback => some (.remote, ⟨.rollback, []⟩)

/-- The offer the end is answering, as it was last delivered, if answer `j` is the end's own
to that offer. -/
def State.ownAnswer (s : State) (e : End) (j : Nat) : Option (Nat × Bool) :=
  match s.answers[j]?, (s.peers e).signaling.answering with
  | some r, some (i, delivered) =>
    if r.creator = e ∧ r.offer = i then some (i, delivered) else none
  | _, _ => none

/-- Whether answer `j` is the other end's, to the offer this end awaits the answer to. -/
def State.peerAnswer (s : State) (e : End) (j : Nat) : Option Nat :=
  match s.answers[j]?, (s.peers e).signaling.awaiting with
  | some r, some i => if r.creator = e.other ∧ r.offer = i then some i else none
  | _, _ => none

/-- Where libwebrtc goes with a description it accepts; `none` where it is out of order. -/
def State.next (s : State) (e : End) : Description → Option SignalingState
  | .localOffer i =>
    match s.offers[i]?, (s.peers e).signaling with
    | some o, .stable | some o, .haveLocalOffer _ =>
      if o.creator = e then some (.haveLocalOffer i) else none
    | _, _ => none
  | .remoteOffer i kept =>
    match s.offers[i]?, (s.peers e).signaling with
    | some o, .stable | some o, .haveRemoteOffer _ _ =>
      if o.creator = e.other then some (.haveRemoteOffer i kept) else none
    | _, _ => none
  | .localPrAnswer j => (s.ownAnswer e j).map fun (i, kept) => .haveLocalPrAnswer i kept
  | .remotePrAnswer j => (s.peerAnswer e j).map .haveRemotePrAnswer
  | .localAnswer j => (s.ownAnswer e j).map fun _ => .stable
  | .remoteAnswer j => (s.peerAnswer e j).map fun _ => .stable
  | .localRollback | .remoteRollback =>
    match (s.peers e).signaling with
    | .haveLocalOffer _ | .haveRemoteOffer _ _ => some .stable
    | _ => none

/-- The answer a description is, when it is a final one. -/
def Description.answer? : Description → Option Nat
  | .localAnswer j | .remoteAnswer j => some j
  | _ => none

/-- What `apply` records before the native call. -/
def Peer.recorded (p : Peer) (d : Description) (next : SignalingState)
    (r : Side × SessionDescription) : Peer :=
  { p with
    state := p.state.record r.1 r.2
    applying := some (next, p.state)
    settledOn := if p.state.settled then p.settledOn else (d.answer?).getD p.settledOn
    settledDelivery :=
      if p.state.settled || d.answer?.isNone then p.settledDelivery else p.signaling.delivered }

variable (settings : End → DcChunking)

/-- The negotiation of one end, as `offer` and `answer` read it. -/
def State.negotiation (s : State) (e : End) : DcNegotiation :=
  { settings := some (settings e), state := (s.peers e).state }

/-- One action of one end, with the other as it is.  An end creates its answer when no
description is under way there. -/
def step (s : State) : Action → Option State
  | .createOffer e native =>
    let offer := (s.negotiation settings e).offer ⟨.offer, native.text⟩
    some { s with offers := s.offers ++ [{ creator := e, sdp := offer.sdp }] }
  | .createAnswer e native =>
    match (s.peers e).applying, (s.peers e).signaling.answering with
    | none, some (offer, kept) =>
      let answer := (s.negotiation settings e).answer ⟨.answer, native.text⟩
      some { s with answers := s.answers ++ [{ creator := e, offer, kept, sdp := answer.sdp }] }
    | _, _ => none
  | .record e d =>
    match (s.peers e).applying, s.next e d, s.request d with
    | none, some next, some r => some (s.put e ((s.peers e).recorded d next r))
    | _, _, _ => none
  | .native e ok =>
    match (s.peers e).applying with
    | some (signaling, before) =>
      if ok then
        some (s.put e { s.peers e with signaling, applying := none })
      else
        some (s.put e { s.peers e with state := before, applying := none })
    | none => none

/-- Nothing has been created, and both ends are new. -/
def machine : Machine State Action := { start := {}, step := step settings }

end Exchange

end ReactorWebrtc
