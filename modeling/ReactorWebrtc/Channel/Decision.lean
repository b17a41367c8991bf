/-
How a channel decides whether it is chunked.

`chunked` decides on first call once the channel is open, from the settings of its
connection, what the negotiation holds at that moment and the channel's own
parameters; `OnceLock` keeps the first decision stored.  Here is the decision itself
and what a chunked channel is built with.  The steps of the call, which other threads
can come between, belong to the machines that use it.

That a first decision stays is the library's promise of a `OnceLock`, and a field that is
written once in those machines.  A channel that is not chunked sends its messages as they
are, and so does one that has not decided yet.
-/
import ReactorWebrtc.Negotiation.Record

namespace ReactorWebrtc

inductive DataChannelState
  | connecting | opened | closing | closed
  deriving DecidableEq, Repr

/-- What a chunked channel is built with. -/
structure Chunked where
  config : SendConfig
  /-- The reassembler's limit. -/
  maxMessageSize : Nat
  pendingLimit : Nat
  trustBelow : Nat
  deriving DecidableEq, Repr

/-- What `chunked` makes of the negotiation, on a channel that is open. -/
def Chunked.decide (settings : Option DcChunking) (remote : Option Params)
    (ordered reliable : Bool) : Option Chunked :=
  match settings, remote with
  | some settings, some remote =>
    if ordered && reliable then
      some {
        config := settings.sendConfig remote
        maxMessageSize := settings.maxMessageSize.toNat
        pendingLimit := settings.sendBufferLimit.toNat
        trustBelow := (settings.sendConfig remote).lowWater }
    else none
  | _, _ => none

theorem Chunked.decide_isSome (settings : DcChunking) (remote : Option Params) :
    (Chunked.decide (some settings) remote true true).isSome = remote.isSome := by
  cases remote <;> rfl

/-- The queue of a chunked channel never meets the configuration it would panic on. -/
theorem Chunked.decide_valid {settings : DcChunking} {remote : Option Params}
    {ordered reliable : Bool} {c : Chunked} (hsettings : settings.validate = .ok ())
    (h : Chunked.decide (some settings) remote ordered reliable = some c) :
    c.config.validate = .ok () := by
  cases remote with
  | none => cases h
  | some remote =>
      simp only [Chunked.decide] at h
      split at h
      · rw [← Option.some.inj h]
        exact DcChunking.sendConfig_valid hsettings remote
      · cases h

end ReactorWebrtc
