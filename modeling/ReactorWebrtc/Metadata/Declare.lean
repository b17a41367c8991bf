/-
Declaring frame metadata in a description.

A description declares it with a session-level line of its own name and a version, and
`withFrameMetadata` puts the line where `Sdp.insertLine` puts any.  Unlike chunking's, the
line counts only with the version this build speaks: one of another version is as good as
none, and a description that carries it gets a second line.

Whether to declare is the connection's to decide, and differs between offers and answers;
that is in `Connection.Created`.  What the declaration of the other side opens is in
`Metadata.Gate`.
-/
import ReactorWebrtc.Negotiation.Record

namespace ReactorWebrtc

open Text

/-- The attribute a peer declares to say it understands the trailer. -/
def FRAME_METADATA_ATTRIBUTE : Text := "x-reactor-frame-metadata".toList

/-- Wire version of the trailer format. -/
def FRAME_METADATA_VERSION : Nat := 1

/-- What a line that carries the attribute starts with. -/
def frameMetadataPrefix : Text := "a=".toList ++ FRAME_METADATA_ATTRIBUTE ++ ":".toList

def frameMetadataLine : Text := frameMetadataPrefix ++ Nat.toDigits 10 FRAME_METADATA_VERSION

/-- Whether a line declares a version this build understands. -/
def declaresOn (l : Text) : Bool :=
  match stripPrefix frameMetadataPrefix l with
  | some v => parseUnsigned (2 ^ 32) (trimEnd v) == some FRAME_METADATA_VERSION
  | none => false

namespace SessionDescription

/-- Whether this description declares frame-metadata support. -/
def declaresFrameMetadata (d : SessionDescription) : Bool := (lines d.sdp).any declaresOn

/-- A copy declaring frame-metadata support. -/
def withFrameMetadata (d : SessionDescription) : SessionDescription :=
  if d.declaresFrameMetadata || (lines d.sdp).isEmpty then d
  else { d with sdp := Sdp.insertLine frameMetadataLine d.sdp }

theorem declaresOn_frameMetadataLine : declaresOn frameMetadataLine = true := by decide

theorem newline_not_mem_frameMetadataLine : '\n' ∉ frameMetadataLine := by decide

end SessionDescription

end ReactorWebrtc
