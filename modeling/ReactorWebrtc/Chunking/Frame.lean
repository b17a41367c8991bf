/-
The one-byte header every frame carries.

Bit 0 says more frames of the message follow, bit 1 says the message was text, and
the other six bits are the version, zero here.  `decode` accepts exactly the four
bytes `encode` can produce, so a frame this build emits is never refused for its
header, and a byte that sets a version bit always is.

A frame has no number and no length of its own.  Where it belongs is only a matter of what
came before it on the same ordered and reliable channel, and whether it completes a message
is bit 0.  So the header is all there is to agree on between the two ends of a channel, and
everything about sending and receiving rests on the four bytes here.
-/
import Mathlib.Algebra.Order.Ring.Nat
import Mathlib.Data.List.Basic

namespace ReactorWebrtc

/-- The bytes of a message or a frame. -/
abbrev Bytes := List UInt8

/-- A decoded frame header. -/
structure Header where
  /-- More frames of this message follow. -/
  more : Bool
  /-- The original message was text rather than binary. -/
  text : Bool
  deriving DecidableEq, Repr

/-- A frame the receiver cannot accept. -/
inductive FrameError
  | empty
  | unknownVersion (byte : UInt8)
  | typeChanged
  deriving DecidableEq, Repr

namespace Header

def MORE : UInt8 := 0b01

def TEXT : UInt8 := 0b10

def VERSION_MASK : UInt8 := ~~~(MORE ||| TEXT)

/-- The header byte for this frame. -/
def encode (h : Header) : UInt8 :=
  (if h.more then MORE else 0) ||| (if h.text then TEXT else 0)

/-- Decode a header byte; any version bit set is a protocol error. -/
def decode (byte : UInt8) : Except FrameError Header :=
  if byte &&& VERSION_MASK ≠ 0 then
    .error (.unknownVersion byte)
  else
    .ok { more := byte &&& MORE ≠ 0, text := byte &&& TEXT ≠ 0 }

/-- A byte this build emits decodes to the header it was made from. -/
@[simp] theorem decode_encode (h : Header) : decode h.encode = .ok h := by
  obtain ⟨more, text⟩ := h
  cases more <;> cases text <;> rfl

end Header

end ReactorWebrtc
