/-
Substituting the ICE credentials of a description.

libwebrtc makes up its own and has no setter, so an application that must choose them
rewrites the description.  Every line that carries one of the two is replaced and no
other is touched: `iceLine` is that rewriting of one line, and what it does to a whole
description follows from what it does to a line.  The values come from the caller and
end up in text that is parsed line by line, so what keeps a value from adding a line is
the check on its characters.

A description without any such line is refused, since the values would end up nowhere and
the application would go on with libwebrtc's own.
-/
import ReactorWebrtc.Metadata.Declare

namespace ReactorWebrtc

open Text

/-- An ice-ufrag is 4 to 256 characters. -/
def ICE_UFRAG_LEN : Nat × Nat := (4, 256)

/-- An ice-pwd is 22 to 256 characters. -/
def ICE_PWD_LEN : Nat × Nat := (22, 256)

def isIceChar (c : Char) : Bool := c.isAlphanum || c == '+' || c == '/'

/-- Why credentials are not substituted. -/
inductive IceError
  /-- "`what` must be `lo`..=`hi` characters, got `got`" -/
  | length (what : Text) (lo hi got : Nat)
  /-- "`what` contains `bad`, which is not an RFC 8445 ice-char" -/
  | character (what : Text) (bad : Char)
  /-- "session description carries no ice-ufrag to replace" -/
  | noUfrag
  deriving DecidableEq, Repr

def checkIceValue (what value : Text) (len : Nat × Nat) : Except IceError Unit :=
  if ¬ (len.1 ≤ utf8Len value ∧ utf8Len value ≤ len.2) then
    .error (.length what len.1 len.2 (utf8Len value))
  else
    match value.find? (!isIceChar ·) with
    | some bad => .error (.character what bad)
    | none => .ok ()

def ufragPrefix : Text := "a=ice-ufrag:".toList

def pwdPrefix : Text := "a=ice-pwd:".toList

/-- One line, with the credential it carries replaced. -/
def iceLine (ufrag pwd l : Text) : Text :=
  if ufragPrefix.isPrefixOf l then ufragPrefix ++ ufrag
  else if pwdPrefix.isPrefixOf l then pwdPrefix ++ pwd
  else l

namespace SessionDescription

/-- The `ice-ufrag` values this description carries, in document order. -/
def iceUfrags (d : SessionDescription) : List Text :=
  (lines d.sdp).filterMap fun l => (stripPrefix ufragPrefix l).map trimEnd

/-- A copy with every `ice-ufrag` and `ice-pwd` replaced. -/
def withIceCredentials (d : SessionDescription) (ufrag pwd : Text) :
    Except IceError SessionDescription := do
  checkIceValue "ice-ufrag".toList ufrag ICE_UFRAG_LEN
  checkIceValue "ice-pwd".toList pwd ICE_PWD_LEN
  if d.iceUfrags.isEmpty then
    .error .noUfrag
  else
    .ok { d with sdp := mapLines (iceLine ufrag pwd) d.sdp }

/-! ### One line

A line has one of the two prefixes or neither.  The two are apart from each other, and from
the prefix of any attribute that is read elsewhere, so a rewritten line is found by the
readers that found it before.
-/

/-- A value that is accepted has no character a line could end with. -/
theorem checkIceValue_ok {what value : Text} {len : Nat × Nat}
    (h : checkIceValue what value len = .ok ()) : ∀ c ∈ value, isIceChar c = true := by
  unfold checkIceValue at h
  split at h
  · cases h
  · split at h
    · cases h
    · rename_i hfind
      intro c hc
      simpa using List.find?_eq_none.mp hfind c hc

theorem newline_not_mem_of_ice {value : Text} (h : ∀ c ∈ value, isIceChar c = true) :
    '\n' ∉ value :=
  fun hmem => absurd (h _ hmem) (by decide)

/-- The characters allowed lie between the spaces and the separators of other scripts. -/
theorem toNat_of_ice {c : Char} (h : isIceChar c = true) : 0x2B ≤ c.toNat ∧ c.toNat ≤ 0x7A := by
  have hchar : (decide (65 ≤ c.val ∧ c.val ≤ 90) ||
      decide (97 ≤ c.val) && decide (c.val ≤ 122) || c.isDigit || c == '+' || c == '/') = true := h
  simp only [Bool.or_eq_true, Bool.and_eq_true, decide_eq_true_eq, beq_iff_eq,
    UInt32.le_iff_toNat_le] at hchar
  rcases hchar with (((hupper | hlower) | hdigit) | rfl) | rfl
  · have hrange : 65 ≤ c.toNat ∧ c.toNat ≤ 90 := hupper
    omega
  · have hrange : 97 ≤ c.toNat ∧ c.toNat ≤ 122 := hlower
    omega
  · have hrange := isDigit_toNat hdigit
    omega
  · decide
  · decide

theorem isWhitespace_of_ice {c : Char} (h : isIceChar c = true) : isWhitespace c = false := by
  obtain ⟨hlo, hhi⟩ := toNat_of_ice h
  simp only [isWhitespace, Bool.or_eq_false_iff, Bool.and_eq_false_iff, decide_eq_false_iff_not,
    beq_eq_false_iff_ne]
  omega

section Line

variable (ufrag pwd : Text) {l : Text}

theorem ufragPrefix_apart_pwdPrefix : Apart ufragPrefix pwdPrefix := by decide

theorem iceLine_ufrag (h : ufragPrefix.isPrefixOf l = true) :
    iceLine ufrag pwd l = ufragPrefix ++ ufrag := by
  rw [iceLine, if_pos h]

theorem iceLine_pwd (h : pwdPrefix.isPrefixOf l = true) :
    iceLine ufrag pwd l = pwdPrefix ++ pwd := by
  have hufrag : ¬ ufragPrefix.isPrefixOf l = true := by
    intro hufrag
    rw [ufragPrefix_apart_pwdPrefix.not_prefix hufrag] at h
    cases h
  rw [iceLine, if_neg hufrag, if_pos h]

theorem iceLine_other (hufrag : ufragPrefix.isPrefixOf l = false)
    (hpwd : pwdPrefix.isPrefixOf l = false) : iceLine ufrag pwd l = l := by
  simp [iceLine, hufrag, hpwd]

/-- What a line is about stays, whichever of the three it is. -/
theorem iceLine_iceLine (u p : Text) (l : Text) :
    iceLine ufrag pwd (iceLine u p l) = iceLine ufrag pwd l := by
  by_cases hufrag : ufragPrefix.isPrefixOf l = true
  · rw [iceLine_ufrag u p hufrag, iceLine_ufrag ufrag pwd hufrag]
    exact iceLine_ufrag ufrag pwd (by simp)
  · by_cases hpwd : pwdPrefix.isPrefixOf l = true
    · rw [iceLine_pwd u p hpwd, iceLine_pwd ufrag pwd hpwd]
      exact iceLine_pwd ufrag pwd (by simp)
    · rw [iceLine_other u p (Bool.eq_false_iff.mpr hufrag) (Bool.eq_false_iff.mpr hpwd)]

/-- A prefix that is neither of the two reads the same before and after. -/
theorem stripPrefix_iceLine {q : Text} (hqu : Apart q ufragPrefix) (hqp : Apart q pwdPrefix)
    (l : Text) : stripPrefix q (iceLine ufrag pwd l) = stripPrefix q l := by
  have hnone : ∀ k : Text, ufragPrefix.isPrefixOf k = true ∨ pwdPrefix.isPrefixOf k = true →
      stripPrefix q k = none := by
    intro k hk
    refine stripPrefix_eq_none ?_
    rcases hk with hk | hk
    · exact Apart.not_prefix hqu.symm hk
    · exact Apart.not_prefix hqp.symm hk
  by_cases hufrag : ufragPrefix.isPrefixOf l = true
  · rw [iceLine_ufrag ufrag pwd hufrag, hnone l (.inl hufrag), hnone _ (.inl (by simp))]
  · by_cases hpwd : pwdPrefix.isPrefixOf l = true
    · rw [iceLine_pwd ufrag pwd hpwd, hnone l (.inr hpwd), hnone _ (.inr (by simp))]
    · rw [iceLine_other ufrag pwd (Bool.eq_false_iff.mpr hufrag) (Bool.eq_false_iff.mpr hpwd)]

theorem isPrefixOf_iceLine {q : Text} (hqu : Apart q ufragPrefix) (hqp : Apart q pwdPrefix)
    (l : Text) : q.isPrefixOf (iceLine ufrag pwd l) = q.isPrefixOf l := by
  have hisSome : ∀ k : Text, q.isPrefixOf k = (stripPrefix q k).isSome := by
    intro k
    unfold stripPrefix
    split
    · rename_i h
      simp [h]
    · rename_i h
      rw [Bool.eq_false_iff.mpr h]
      rfl
  rw [hisSome, hisSome, stripPrefix_iceLine ufrag pwd hqu hqp]

end Line

/-! ### The whole description -/

/-- What a substitution leaves. -/
theorem withIceCredentials_ok {d e : SessionDescription} {ufrag pwd : Text}
    (h : d.withIceCredentials ufrag pwd = .ok e) :
    (∀ c ∈ ufrag, isIceChar c = true) ∧ (∀ c ∈ pwd, isIceChar c = true) ∧
      d.iceUfrags ≠ [] ∧ e = { d with sdp := mapLines (iceLine ufrag pwd) d.sdp } := by
  unfold withIceCredentials at h
  cases hufrag : checkIceValue "ice-ufrag".toList ufrag ICE_UFRAG_LEN with
  | error err =>
      rw [hufrag] at h
      cases h
  | ok _ =>
      cases hpwd : checkIceValue "ice-pwd".toList pwd ICE_PWD_LEN with
      | error err =>
          rw [hufrag, hpwd] at h
          cases h
      | ok _ =>
          rw [hufrag, hpwd] at h
          simp only [bind, Except.bind] at h
          split at h
          · cases h
          · rename_i hsome
            refine ⟨checkIceValue_ok hufrag, checkIceValue_ok hpwd, ?_, (Except.ok.inj h).symm⟩
            simpa using hsome

/-- Any description that carries a ufrag takes the same values. -/
theorem withIceCredentials_of_ufrags {d e d' : SessionDescription} {ufrag pwd : Text}
    (h : d.withIceCredentials ufrag pwd = .ok e) (hsome : d'.iceUfrags ≠ []) :
    d'.withIceCredentials ufrag pwd
      = .ok { d' with sdp := mapLines (iceLine ufrag pwd) d'.sdp } := by
  unfold withIceCredentials at h ⊢
  cases hufrag : checkIceValue "ice-ufrag".toList ufrag ICE_UFRAG_LEN with
  | error err =>
      rw [hufrag] at h
      cases h
  | ok _ =>
      cases hpwd : checkIceValue "ice-pwd".toList pwd ICE_PWD_LEN with
      | error err =>
          rw [hufrag, hpwd] at h
          cases h
      | ok _ => simp [bind, Except.bind, hsome]

section Lines

variable {ufrag pwd : Text} (hufrag : ∀ c ∈ ufrag, isIceChar c = true)
  (hpwd : ∀ c ∈ pwd, isIceChar c = true)

include hufrag hpwd

theorem newline_not_mem_iceLine (l : Text) (hl : '\n' ∉ l) : '\n' ∉ iceLine ufrag pwd l := by
  have hfix : '\n' ∉ ufragPrefix ∧ '\n' ∉ pwdPrefix := by decide
  unfold iceLine
  split
  · simp [hfix.1, newline_not_mem_of_ice hufrag]
  · split
    · simp [hfix.2, newline_not_mem_of_ice hpwd]
    · exact hl

theorem lines_iceLine (sdp : Text) :
    lines (mapLines (iceLine ufrag pwd) sdp) = (lines sdp).map (iceLine ufrag pwd) :=
  lines_mapLines (newline_not_mem_iceLine hufrag hpwd) sdp

/-- The attributes this crate adds are neither credential, so they commute with it. -/
theorem mapLines_iceLine_insertLine {added : Text} (hnew : '\n' ∉ added)
    (hufragAdded : ufragPrefix.isPrefixOf added = false)
    (hpwdAdded : pwdPrefix.isPrefixOf added = false) (sdp : Text) :
    mapLines (iceLine ufrag pwd) (Sdp.insertLine added sdp)
      = Sdp.insertLine added (mapLines (iceLine ufrag pwd) sdp) := by
  refine Sdp.mapLines_insertLine hnew (newline_not_mem_iceLine hufrag hpwd) ?_
    (iceLine_other ufrag pwd hufragAdded hpwdAdded) sdp
  exact isPrefixOf_iceLine ufrag pwd (by decide) (by decide)

end Lines

theorem filterMap_iceLine {ufrag : Text} (hufrag : ∀ c ∈ ufrag, isIceChar c = true) (pwd : Text)
    (ls : List Text) :
    (ls.map (iceLine ufrag pwd)).filterMap (fun l => (stripPrefix ufragPrefix l).map trimEnd)
      = List.replicate
          (ls.filterMap fun l => (stripPrefix ufragPrefix l).map trimEnd).length ufrag := by
  have htrim : trimEnd ufrag = ufrag :=
    trimEnd_eq_self fun c hc => isWhitespace_of_ice (hufrag c hc)
  induction ls with
  | nil => rfl
  | cons l ls ih =>
      rw [List.map_cons, List.filterMap_cons, List.filterMap_cons]
      by_cases hl : ufragPrefix.isPrefixOf l = true
      · have hold : stripPrefix ufragPrefix l = some (l.drop ufragPrefix.length) := by
          rw [stripPrefix, if_pos hl]
        rw [iceLine_ufrag ufrag pwd hl, stripPrefix_append, hold]
        simp only [Option.map_some, htrim, ih, List.length_cons, List.replicate_succ]
      · have hold : stripPrefix ufragPrefix l = none := by
          rw [stripPrefix, if_neg hl]
        have hnew : stripPrefix ufragPrefix (iceLine ufrag pwd l) = none := by
          by_cases hp : pwdPrefix.isPrefixOf l = true
          · rw [iceLine_pwd ufrag pwd hp]
            exact stripPrefix_eq_none
              (ufragPrefix_apart_pwdPrefix.symm.not_prefix (by simp))
          · rw [iceLine_other ufrag pwd (Bool.eq_false_iff.mpr hl) (Bool.eq_false_iff.mpr hp),
              hold]
        rw [hnew, hold]
        simpa using ih

/-- What substituting the credentials of `d` does to it. -/
structure Substituted (d : SessionDescription) (ufrag pwd : Text) (e : SessionDescription) :
    Prop where
  kind : e.kind = d.kind
  length : (lines e.sdp).length = (lines d.sdp).length
  ufragLines : ∀ (i : Nat) (l : Text),
    (lines d.sdp)[i]? = some l → ufragPrefix.isPrefixOf l = true →
    (lines e.sdp)[i]? = some (ufragPrefix ++ ufrag)
  pwdLines : ∀ (i : Nat) (l : Text), (lines d.sdp)[i]? = some l → pwdPrefix.isPrefixOf l = true →
    (lines e.sdp)[i]? = some (pwdPrefix ++ pwd)
  otherLines : ∀ (i : Nat) (l : Text), (lines d.sdp)[i]? = some l →
    ufragPrefix.isPrefixOf l = false → pwdPrefix.isPrefixOf l = false →
    (lines e.sdp)[i]? = some l
  iceUfrags : e.iceUfrags = List.replicate d.iceUfrags.length ufrag
  /-- A second substitution is the only one that counts. -/
  again : ∀ u p, e.withIceCredentials u p = d.withIceCredentials u p
  frameMetadata : e.declaresFrameMetadata = d.declaresFrameMetadata
  chunking : Sdp.parse e.sdp = Sdp.parse d.sdp
  /-- What is declared before it is declared as if it were after. -/
  withFrameMetadata : d.withFrameMetadata.withIceCredentials ufrag pwd = .ok e.withFrameMetadata
  withDcChunking : ∀ p,
    (d.withDcChunking p).withIceCredentials ufrag pwd = .ok (e.withDcChunking p)

theorem iceUfrags_ne_nil {d : SessionDescription} :
    d.iceUfrags ≠ [] ↔ ∃ l ∈ lines d.sdp, ufragPrefix.isPrefixOf l = true := by
  rw [iceUfrags, Ne, List.filterMap_eq_nil_iff]
  constructor
  · intro h
    by_contra hnone
    refine h fun l hl => ?_
    rw [stripPrefix_eq_none (Bool.eq_false_iff.mpr fun hp => hnone ⟨l, hl, hp⟩)]
    rfl
  · rintro ⟨l, hl, hp⟩ h
    have hnone := h l hl
    rw [stripPrefix, if_pos hp] at hnone
    cases hnone

/-- Adding a line takes no ufrag away. -/
theorem iceUfrags_insertLine {d : SessionDescription} {added : Text} (hnew : '\n' ∉ added)
    (h : d.iceUfrags ≠ []) :
    ({ d with sdp := Sdp.insertLine added d.sdp } : SessionDescription).iceUfrags ≠ [] := by
  obtain ⟨l, hl, hp⟩ := iceUfrags_ne_nil.mp h
  refine iceUfrags_ne_nil.mpr ⟨l, ?_, hp⟩
  rw [Sdp.insertLine_lines hnew]
  exact Sdp.mem_insertBeforeMedia.mpr (.inr hl)

section Substitution

variable {d e : SessionDescription} {ufrag pwd : Text}

/-- The same text with other lines reads the same, where only credentials differ. -/
theorem declaresFrameMetadata_substituted (h : d.withIceCredentials ufrag pwd = .ok e) :
    e.declaresFrameMetadata = d.declaresFrameMetadata := by
  obtain ⟨hufrag, hpwd, -, rfl⟩ := withIceCredentials_ok h
  have hline : ∀ l, declaresOn (iceLine ufrag pwd l) = declaresOn l := by
    intro l
    rw [declaresOn, declaresOn, stripPrefix_iceLine ufrag pwd (by decide) (by decide)]
  unfold declaresFrameMetadata
  rw [lines_iceLine hufrag hpwd, List.any_map]
  exact congrArg _ (funext hline)

theorem parse_substituted (h : d.withIceCredentials ufrag pwd = .ok e) :
    Sdp.parse e.sdp = Sdp.parse d.sdp ∧ Sdp.hasAttribute e.sdp = Sdp.hasAttribute d.sdp := by
  obtain ⟨hufrag, hpwd, -, rfl⟩ := withIceCredentials_ok h
  have hu : Apart Sdp.attributePrefix ufragPrefix := by decide
  have hp : Apart Sdp.attributePrefix pwdPrefix := by decide
  constructor
  · unfold Sdp.parse
    rw [lines_iceLine hufrag hpwd, List.findSome?_map]
    have hline : stripPrefix Sdp.attributePrefix ∘ iceLine ufrag pwd
        = stripPrefix Sdp.attributePrefix := funext (stripPrefix_iceLine ufrag pwd hu hp)
    rw [hline]
  · unfold Sdp.hasAttribute
    rw [lines_iceLine hufrag hpwd, List.any_map]
    exact congrArg _ (funext (isPrefixOf_iceLine ufrag pwd hu hp))

theorem withIceCredentials_again (h : d.withIceCredentials ufrag pwd = .ok e) (u p : Text) :
    e.withIceCredentials u p = d.withIceCredentials u p := by
  obtain ⟨hufrag, hpwd, hsome, rfl⟩ := withIceCredentials_ok h
  have hsome' : ({ d with sdp := mapLines (iceLine ufrag pwd) d.sdp } :
      SessionDescription).iceUfrags ≠ [] := by
    obtain ⟨l, hl, hp⟩ := iceUfrags_ne_nil.mp hsome
    refine iceUfrags_ne_nil.mpr ⟨iceLine ufrag pwd l, ?_, ?_⟩
    · rw [lines_iceLine hufrag hpwd]
      exact List.mem_map_of_mem hl
    · rw [iceLine_ufrag ufrag pwd hp]
      simp
  have htext : mapLines (iceLine u p) (mapLines (iceLine ufrag pwd) d.sdp)
      = mapLines (iceLine u p) d.sdp := by
    rw [mapLines_eq (iceLine u p), mapLines_eq (iceLine u p), lines_iceLine hufrag hpwd,
      List.map_map]
    congr 1
    exact List.map_congr_left fun l _ => iceLine_iceLine u p ufrag pwd l
  unfold withIceCredentials
  simp [htext, hsome, hsome']

/-- A line this crate adds goes in before or after, with the same text. -/
theorem withIceCredentials_insertLine (h : d.withIceCredentials ufrag pwd = .ok e) {added : Text}
    (hnew : '\n' ∉ added) (hufragAdded : ufragPrefix.isPrefixOf added = false)
    (hpwdAdded : pwdPrefix.isPrefixOf added = false) :
    ({ d with sdp := Sdp.insertLine added d.sdp } : SessionDescription).withIceCredentials ufrag pwd
      = .ok { e with sdp := Sdp.insertLine added e.sdp } := by
  obtain ⟨hufrag, hpwd, hsome, he⟩ := withIceCredentials_ok h
  rw [withIceCredentials_of_ufrags h (iceUfrags_insertLine hnew hsome), he,
    mapLines_iceLine_insertLine hufrag hpwd hnew hufragAdded hpwdAdded]

end Substitution

/--
**Substituting credentials rewrites nothing else.**
-/
theorem withIceCredentials_substitutes {d e : SessionDescription} {ufrag pwd : Text}
    (h : d.withIceCredentials ufrag pwd = .ok e) : Substituted d ufrag pwd e := by
  obtain ⟨hufrag, hpwd, hsome, he⟩ := withIceCredentials_ok h
  have hlines : lines e.sdp = (lines d.sdp).map (iceLine ufrag pwd) := by
    rw [he]
    exact lines_iceLine hufrag hpwd d.sdp
  have hplace : ∀ (i : Nat) (l : Text), (lines d.sdp)[i]? = some l →
      (lines e.sdp)[i]? = some (iceLine ufrag pwd l) := by
    intro i l hl
    rw [hlines, List.getElem?_map, hl]
    rfl
  have hkeep := declaresFrameMetadata_substituted h
  obtain ⟨hparse, hattr⟩ := parse_substituted h
  have hempty : (lines e.sdp).isEmpty = (lines d.sdp).isEmpty := by
    rw [hlines, List.isEmpty_map]
  refine
    { kind := by rw [he]
      length := by rw [hlines, List.length_map]
      ufragLines := fun i l hl hp => by rw [hplace i l hl, iceLine_ufrag ufrag pwd hp]
      pwdLines := fun i l hl hp => by rw [hplace i l hl, iceLine_pwd ufrag pwd hp]
      otherLines := fun i l hl hu hp => by rw [hplace i l hl, iceLine_other ufrag pwd hu hp]
      iceUfrags := ?_
      again := withIceCredentials_again h
      frameMetadata := hkeep
      chunking := hparse
      withFrameMetadata := ?_
      withDcChunking := ?_ }
  · unfold iceUfrags
    rw [hlines]
    exact filterMap_iceLine hufrag pwd (lines d.sdp)
  · unfold withFrameMetadata
    rw [hkeep, hempty]
    split
    · exact h
    · exact withIceCredentials_insertLine h newline_not_mem_frameMetadataLine (by decide)
        (by decide)
  · intro p
    unfold withDcChunking Sdp.declare
    rw [hattr, hempty]
    split
    · exact h
    · have hpre : Sdp.attributePrefix.isPrefixOf (Sdp.line p) = true :=
        Sdp.attributePrefix_isPrefixOf_line p
      exact withIceCredentials_insertLine h (Sdp.newline_not_mem_line p)
        (Apart.not_prefix (by decide) hpre) (Apart.not_prefix (by decide) hpre)

/-- Two media sections that share their credentials, with lines ended by a line feed. -/
theorem withIceCredentials_substitutes_bundled :
    ∃ e, Substituted
      { kind := .offer
        sdp := "v=0\nm=audio\na=ice-ufrag:jHFv\na=ice-pwd:012\nm=video\na=ice-ufrag:jHFv\n".toList }
      "CgAH".toList "iMyV3ZlbyUC8SBiyAeG2OV".toList e :=
  ⟨_, withIceCredentials_substitutes (by rfl)⟩

end SessionDescription

end ReactorWebrtc
