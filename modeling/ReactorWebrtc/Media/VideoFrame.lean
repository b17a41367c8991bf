/-
What a push checks of a frame.

A frame names its size and its format, and its pixels must cover them.  The size is two
32-bit numbers, so the bytes it needs are counted in machine words, checked.

A push of any kind makes these checks first, in this order, and a frame that fails one is
not looked at again.  The bytes of the smallest buffer that would do are computed before the
buffer is looked at, so a size whose product does not fit a word is an error of its own.
-/
import ReactorWebrtc.Chunking.Frame
import ReactorWebrtc.Lib.Text

namespace ReactorWebrtc

/-- The formats a frame is pushed in. -/
inductive PixelFormat
  | bgra | rgb24
  deriving DecidableEq, Repr

/-- How much of the buffer a pixel takes. -/
def PixelFormat.bytesPerPixel : PixelFormat → Nat
  | .bgra => 4
  | .rgb24 => 3

/-- A frame, as it is pushed. -/
structure VideoFrame where
  pixels : Bytes
  width : UInt32
  height : UInt32
  format : PixelFormat := .bgra
  deriving DecidableEq, Repr

/-- Why a push is refused. -/
inductive PushError
  /-- "cannot push frames onto a remote track" -/
  | remote
  /-- "a `format` frame needs a size, got `width`x`height`" -/
  | noSize (format : PixelFormat) (width height : UInt32)
  /-- "a `format` frame of `width`x`height` is too large" -/
  | tooLarge (format : PixelFormat) (width height : UInt32)
  /-- "a `format` frame of `width`x`height` is `needed` bytes, got `got`" -/
  | short (format : PixelFormat) (width height : UInt32) (needed got : Nat)
  deriving DecidableEq, Repr

/-- `usize::checked_mul` -/
def checkedMul (a b : Nat) : Option Nat := if a * b < 2 ^ 64 then some (a * b) else none

/-- Check a frame to push has a size and holds `width*height` pixels of its format. -/
def checkFrame (frame : VideoFrame) : Except PushError Unit :=
  if frame.width = 0 ∨ frame.height = 0 then
    .error (.noSize frame.format frame.width frame.height)
  else
    match (checkedMul frame.width.toNat frame.height.toNat).bind
        (checkedMul · frame.format.bytesPerPixel) with
    | none => .error (.tooLarge frame.format frame.width frame.height)
    | some needed =>
      if frame.pixels.length < needed then
        .error (.short frame.format frame.width frame.height needed frame.pixels.length)
      else .ok ()

/-- A frame passes exactly if it has a size and its pixels cover it. -/
theorem checkFrame_ok {frame : VideoFrame} :
    checkFrame frame = .ok () ↔ frame.width ≠ 0 ∧ frame.height ≠ 0 ∧
      frame.width.toNat * frame.height.toNat * frame.format.bytesPerPixel < 2 ^ 64 ∧
      frame.width.toNat * frame.height.toNat * frame.format.bytesPerPixel
        ≤ frame.pixels.length := by
  have harea : frame.width.toNat * frame.height.toNat < 2 ^ 64 :=
    Nat.lt_of_lt_of_le (Nat.mul_lt_mul'' frame.width.toNat_lt frame.height.toNat_lt) (by decide)
  unfold checkFrame
  rw [checkedMul, if_pos harea, Option.bind_some]
  by_cases hsize : frame.width = 0 ∨ frame.height = 0
  · rw [if_pos hsize]
    refine iff_of_false (fun h => by cases h) fun h => ?_
    rcases hsize with hw | hh
    · exact h.1 hw
    · exact h.2.1 hh
  · obtain ⟨hw, hh⟩ := not_or.mp hsize
    rw [if_neg hsize]
    by_cases hfits :
        frame.width.toNat * frame.height.toNat * frame.format.bytesPerPixel < 2 ^ 64
    · rw [checkedMul, if_pos hfits]
      dsimp only
      split
      · rename_i hshort
        exact iff_of_false (fun h => by cases h) fun h => Nat.not_lt.mpr h.2.2.2 hshort
      · rename_i hcovers
        exact iff_of_true rfl ⟨hw, hh, hfits, Nat.not_lt.mp hcovers⟩
    · rw [checkedMul, if_neg hfits]
      exact iff_of_false (fun h => by cases h) fun h => hfits h.2.2.1

end ReactorWebrtc
