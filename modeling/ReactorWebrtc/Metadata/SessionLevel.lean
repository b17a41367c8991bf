/-
Where a capability stands in a description, and where it is looked for.

The two readers, and the test for whether a line is there already, go through all the lines;
the writer puts its line before the first that starts a media section.  So a line that only a
media section carries is taken for the session's: the peer is taken to understand what it did
not declare, and the writer, which finds the line, adds none.  `sessionLevel_iff` says that
this is all that goes wrong.

Neither attribute is one that a peer's media sections have a reason to carry.  But a
description is text from elsewhere, and a middlebox that copies session attributes into its
media sections does not make an invalid one.
-/
import ReactorWebrtc.Metadata.Declare

namespace ReactorWebrtc

open Text

/-- The lines before the first that starts a media section. -/
def sessionLines (sdp : Text) : List Text := (lines sdp).takeWhile (!Sdp.isMedia ·)

/-- That line, and all that follow. -/
def mediaLines (sdp : Text) : List Text := (lines sdp).dropWhile (!Sdp.isMedia ·)

/-- Whether the line declares chunking at a version this build speaks. -/
def Sdp.parsesOn (l : Text) : Bool := ((stripPrefix attributePrefix l).bind parseValue).isSome

theorem any_lines (sdp : Text) (p : Text → Bool) :
    (lines sdp).any p = ((sessionLines sdp).any p || (mediaLines sdp).any p) := by
  rw [← List.any_append, sessionLines, mediaLines, List.takeWhile_append_dropWhile]

/-- An inserted line is one of the session's. -/
theorem any_sessionLines_insertLine {added : Text} (hnew : '\n' ∉ added)
    (hsession : Sdp.isMedia added = false) (sdp : Text) {p : Text → Bool}
    (hp : p added = true) : (sessionLines (Sdp.insertLine added sdp)).any p = true := by
  have hmem : added ∈ sessionLines (Sdp.insertLine added sdp) := by
    rw [sessionLines, Sdp.insertLine_lines hnew, Sdp.insertBeforeMedia_eq,
      List.takeWhile_append_of_pos fun l hl =>
        List.mem_takeWhile_imp (p := fun l => !Sdp.isMedia l) hl,
      List.takeWhile_cons_of_pos (by rw [hsession]; rfl)]
    exact List.mem_append_right _ List.mem_cons_self
  exact List.any_eq_true.mpr ⟨added, hmem, hp⟩

/-! ### One line and its test

The readers and the writer each have a test for a line, and what is said of one attribute is
said of any test.  What the writer leaves passes it at session level unless only a media
section's line did before.
-/

/-- What some line of a media section satisfies, a line of the session does. -/
def Echoed (p : Text → Bool) (sdp : Text) : Prop :=
  (mediaLines sdp).any p = true → (sessionLines sdp).any p = true

instance (p : Text → Bool) (sdp : Text) : Decidable (Echoed p sdp) :=
  inferInstanceAs (Decidable (_ → _))

/-- A reader of all the lines reads the session's exactly if nothing is only in the media's. -/
theorem echoed_iff {p : Text → Bool} {sdp : Text} :
    Echoed p sdp ↔ ((lines sdp).any p = true → (sessionLines sdp).any p = true) := by
  rw [any_lines, Echoed, Bool.or_eq_true]
  exact ⟨fun h hor => hor.elim id h, fun h hmedia => h (.inr hmedia)⟩

/-- What the writer leaves has the line at session level, exactly under that condition. -/
theorem echoed_iff_written {p : Text → Bool} {added sdp : Text} (hne : sdp ≠ [])
    (hnew : '\n' ∉ added) (hsession : Sdp.isMedia added = false) (hp : p added = true) :
    (sessionLines (if (lines sdp).any p || (lines sdp).isEmpty then sdp
      else Sdp.insertLine added sdp)).any p = true ↔ Echoed p sdp := by
  have hlines : (lines sdp).isEmpty = false := by simpa using hne
  rw [echoed_iff, hlines, Bool.or_false]
  split
  · rename_i hany
    exact ⟨fun h _ => h, fun h => h hany⟩
  · rename_i hany
    exact iff_of_true (any_sessionLines_insertLine hnew hsession sdp hp) fun h => absurd h hany

theorem isMedia_frameMetadataLine : Sdp.isMedia frameMetadataLine = false := by decide

theorem isMedia_line (loc : Params) : Sdp.isMedia (Sdp.line loc) = false := by
  have hapart : Apart Sdp.attributePrefix "m=".toList := by decide
  exact hapart.not_prefix (Sdp.attributePrefix_isPrefixOf_line loc)

/-- A parameter list that is read stands on the first line that has one. -/
theorem parsesOn_of_parse {sdp : Text} (h : (Sdp.parse sdp).isSome = true)
    (hsession : (sessionLines sdp).any Sdp.attributePrefix.isPrefixOf = true) :
    (sessionLines sdp).any Sdp.parsesOn = true := by
  obtain ⟨l, hl, hprefix⟩ := List.any_eq_true.mp hsession
  have hsplit : lines sdp = sessionLines sdp ++ mediaLines sdp :=
    List.takeWhile_append_dropWhile.symm
  rw [Sdp.parse, hsplit, List.findSome?_append] at h
  cases hfind : (sessionLines sdp).findSome? (stripPrefix Sdp.attributePrefix) with
  | none =>
      have hl' := List.findSome?_eq_none_iff.mp hfind l hl
      rw [stripPrefix, if_pos hprefix] at hl'
      cases hl'
  | some value =>
      rw [hfind] at h
      obtain ⟨k, hk, hvalue⟩ := List.exists_of_findSome?_eq_some hfind
      refine List.any_eq_true.mpr ⟨k, hk, ?_⟩
      rw [Sdp.parsesOn, hvalue]
      exact h

namespace SessionDescription

/-- The capabilities are read and written at session level. -/
structure SessionLevel (d : SessionDescription) : Prop where
  readsMetadata : d.declaresFrameMetadata = true → (sessionLines d.sdp).any declaresOn = true
  readsChunking : (Sdp.parse d.sdp).isSome = true → (sessionLines d.sdp).any Sdp.parsesOn = true
  writesMetadata : lines d.sdp ≠ [] →
    (sessionLines d.withFrameMetadata.sdp).any declaresOn = true
  writesChunking : lines d.sdp ≠ [] → ∀ loc,
    (sessionLines (Sdp.declare d.sdp loc)).any Sdp.attributePrefix.isPrefixOf = true

/--
**Where the capabilities are read and written at session level.**  Exactly where neither
line is only in a media section.
-/
theorem sessionLevel_iff (d : SessionDescription) :
    d.SessionLevel ↔
      Echoed declaresOn d.sdp ∧ Echoed Sdp.attributePrefix.isPrefixOf d.sdp := by
  constructor
  · intro h
    refine ⟨echoed_iff.mpr h.readsMetadata, ?_⟩
    by_cases hne : d.sdp = []
    · rw [hne]
      decide
    · have hwritten := h.writesChunking (by simpa using hne) ⟨DC_CHUNKING_VERSION, none⟩
      exact (echoed_iff_written hne (Sdp.newline_not_mem_line _) (isMedia_line _)
        (Sdp.attributePrefix_isPrefixOf_line _)).mp hwritten
  · rintro ⟨hmetadata, hchunking⟩
    refine ⟨echoed_iff.mp hmetadata, fun h => ?_, fun hne => ?_, fun hne loc => ?_⟩
    · refine parsesOn_of_parse h (echoed_iff.mp hchunking ?_)
      by_contra hnone
      rw [Sdp.parse_eq_none (Bool.eq_false_iff.mpr hnone)] at h
      cases h
    · have hwritten := (echoed_iff_written (by simpa using hne) newline_not_mem_frameMetadataLine
        isMedia_frameMetadataLine declaresOn_frameMetadataLine).mpr hmetadata
      rwa [withFrameMetadata, apply_ite SessionDescription.sdp]
    · exact (echoed_iff_written (by simpa using hne) (Sdp.newline_not_mem_line _)
        (isMedia_line _) (Sdp.attributePrefix_isPrefixOf_line _)).mpr hchunking

/-- A video section that carries the line, and a session that does not: the peer is taken to
understand the trailer, and no line is added. -/
theorem sessionLevel_echo :
    ¬ SessionLevel ⟨.offer, "v=0\r\nm=video 9\r\na=x-reactor-frame-metadata:1\r\n".toList⟩ := by
  intro h
  exact absurd (h.readsMetadata (by decide)) (by decide)

end SessionDescription

end ReactorWebrtc
