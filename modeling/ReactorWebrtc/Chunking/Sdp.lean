/-
The session-level attribute both peers declare, read from and written to SDP text.

`declare` goes through the lines once and puts its own before the first media
section; `insertLine_lines` turns that loop into the plain statement that the lines
of the result are the old ones with one more in that place.  `parse` takes the first
line that carries the attribute, whatever its contents, and a line it cannot read
counts as not declared.  The round trip is `parse_declare`: a description without the
attribute, declared with parameters of this version, parses to those parameters.

Whether a description has the attribute at all and whether what it says can be read are two
questions.  The writer asks the first and the reader the second, so a line that cannot be
read stays where it is and declares nothing.
-/
import ReactorWebrtc.Lib.Text
import ReactorWebrtc.Chunking.Send

namespace ReactorWebrtc

open Text

/-- Attribute name, without the `a=` prefix or the `:` separator. -/
def DC_CHUNKING_ATTRIBUTE : Text := "x-reactor-dc-chunking".toList

/-- The wire-format version this build speaks. -/
def DC_CHUNKING_VERSION : Nat := 1

def MAX_MESSAGE_SIZE_PARAM : Text := "max-message-size".toList

/-- What one side declares. -/
structure Params where
  version : Nat
  /-- This side's receive limit; `none` when the parameter is absent. -/
  maxMessageSize : Option Nat
  deriving DecidableEq, Repr

/-- The parameters this build declares. -/
def Params.ofLocal (maxMessageSize : Nat) : Params :=
  { version := DC_CHUNKING_VERSION, maxMessageSize := some maxMessageSize }

/-- What can be read back: this version, and a size that fits the word it is read into. -/
def Params.Fits (p : Params) : Prop :=
  p.version = DC_CHUNKING_VERSION ∧ ∀ n, p.maxMessageSize = some n → n < 2 ^ 64

namespace Sdp

/-- What a line that carries the attribute starts with. -/
def attributePrefix : Text := "a=".toList ++ DC_CHUNKING_ATTRIBUTE ++ ":".toList

def line (p : Params) : Text :=
  match p.maxMessageSize with
  | some n =>
    attributePrefix ++ Nat.toDigits 10 p.version ++ " ".toList ++ MAX_MESSAGE_SIZE_PARAM ++
      "=".toList ++ Nat.toDigits 10 n
  | none => attributePrefix ++ Nat.toDigits 10 p.version

/-- The largest message a sender may send to a peer that declared `remote`. -/
def effectiveMaxMessageSize (loc : Nat) (remote : Params) : Nat :=
  min loc (remote.maxMessageSize.getD LEGACY_MAX_MESSAGE_SIZE)

/-- Whether `sdp` carries the attribute at all, whatever its contents. -/
def hasAttribute (sdp : Text) : Bool := (lines sdp).any attributePrefix.isPrefixOf

def isMedia (l : Text) : Bool := "m=".toList.isPrefixOf l

/-- One turn of the loop that rewrites a description line by line. -/
def insertStep (declaration : Text) : Text × Bool → Text → Text × Bool
  | (out, inserted), l =>
    if !inserted && isMedia l then
      (out ++ declaration ++ l ++ crlf, true)
    else
      (out ++ l ++ crlf, inserted)

/-- Put `added` before the first media section, or at the end without one. -/
def insertLine (added sdp : Text) : Text :=
  let declaration := added ++ crlf
  let (out, inserted) := (lines sdp).foldl (insertStep declaration) ([], false)
  if !inserted then out ++ declaration else out

/-- Return `sdp` declaring `loc` at session level. -/
def declare (sdp : Text) (loc : Params) : Text :=
  if hasAttribute sdp || (lines sdp).isEmpty then sdp else insertLine (line loc) sdp

/-- One `key=value` pair of the parameter list. -/
def readPair (maxMessageSize : Option Nat) (pair : Text) : Option (Option Nat) := do
  let (key, val) ← splitOnce (· == '=') pair
  if trim key = MAX_MESSAGE_SIZE_PARAM then
    some (some (← parseUnsigned (2 ^ 64) (trim val)))
  else
    some maxMessageSize

/-- What follows the attribute's prefix on its line. -/
def parseValue (value : Text) : Option Params := do
  let value := trim value
  let (version, params) := match splitOnce isWhitespace value with
    | some (v, rest) => (v, trim rest)
    | none => (value, [])
  let version ← parseUnsigned (2 ^ 32) version
  if version ≠ DC_CHUNKING_VERSION then
    none
  else
    let pairs := ((params.splitOn ';').map trim).filter (!·.isEmpty)
    let maxMessageSize ← pairs.foldlM readPair none
    some { version, maxMessageSize }

/-- The peer's parameters, when `sdp` declares a version this build speaks. -/
def parse (sdp : Text) : Option Params := do
  let value ← (lines sdp).findSome? (stripPrefix attributePrefix)
  parseValue value

/-! ### The line goes in one place

The loop carries what it has written and whether the line is in.  Once it is, the loop only
copies, so a description with several media sections gets the line before the first.
-/

/-- `added` before the first media line, or last. -/
def insertBeforeMedia (added : Text) : List Text → List Text
  | [] => [added]
  | l :: ls => if isMedia l then added :: l :: ls else l :: insertBeforeMedia added ls

/-- Once the line is in, the loop copies. -/
private theorem foldl_inserted (declaration out : Text) (ls : List Text) :
    ls.foldl (insertStep declaration) (out, true) = (out ++ unlines ls, true) := by
  induction ls generalizing out with
  | nil => simp
  | cons l ls ih =>
      rw [List.foldl_cons]
      show ls.foldl (insertStep declaration) (out ++ l ++ crlf, true) = _
      rw [ih, unlines_cons]
      simp

private theorem foldl_insert (added out : Text) (ls : List Text) :
    (if !(ls.foldl (insertStep (added ++ crlf)) (out, false)).2 then
        (ls.foldl (insertStep (added ++ crlf)) (out, false)).1 ++ (added ++ crlf)
      else (ls.foldl (insertStep (added ++ crlf)) (out, false)).1)
      = out ++ unlines (insertBeforeMedia added ls) := by
  induction ls generalizing out with
  | nil => simp [insertBeforeMedia]
  | cons l ls ih =>
      rw [List.foldl_cons]
      by_cases hm : isMedia l = true
      · have hstep : insertStep (added ++ crlf) (out, false) l
            = (out ++ (added ++ crlf) ++ l ++ crlf, true) := by
          simp [insertStep, hm]
        rw [hstep, foldl_inserted, insertBeforeMedia, if_pos hm]
        simp
      · have hstep : insertStep (added ++ crlf) (out, false) l = (out ++ l ++ crlf, false) := by
          simp [insertStep, hm]
        rw [hstep, ih, insertBeforeMedia, if_neg hm]
        simp

theorem insertLine_eq (added sdp : Text) :
    insertLine added sdp = unlines (insertBeforeMedia added (lines sdp)) := by
  have h := foldl_insert added [] (lines sdp)
  rw [List.nil_append] at h
  exact h

theorem mem_insertBeforeMedia {added l : Text} {ls : List Text} :
    l ∈ insertBeforeMedia added ls ↔ l = added ∨ l ∈ ls := by
  induction ls with
  | nil => simp [insertBeforeMedia]
  | cons k ls ih =>
      rw [insertBeforeMedia]
      split
      · simp
      · simp only [List.mem_cons, ih]
        tauto

/-- A rewriting of lines that keeps the media lines and the added one commutes with adding. -/
theorem insertBeforeMedia_map {f : Text → Text} {added : Text}
    (hmedia : ∀ l, isMedia (f l) = isMedia l) (hadded : f added = added) (ls : List Text) :
    (insertBeforeMedia added ls).map f = insertBeforeMedia added (ls.map f) := by
  induction ls with
  | nil => simp [insertBeforeMedia, hadded]
  | cons l ls ih =>
      rw [List.map_cons, insertBeforeMedia, insertBeforeMedia, hmedia]
      split
      · simp [hadded]
      · rw [List.map_cons, ih]

/-- The lines of the result are the old ones, and the new one in its place. -/
theorem insertLine_lines {added : Text} (h : '\n' ∉ added) (sdp : Text) :
    lines (insertLine added sdp) = insertBeforeMedia added (lines sdp) := by
  rw [insertLine_eq, lines_unlines]
  intro l hl
  rcases mem_insertBeforeMedia.mp hl with rfl | hl
  · exact h
  · exact newline_not_mem hl

theorem mapLines_insertLine {f : Text → Text} {added : Text} (hnew : '\n' ∉ added)
    (hf : ∀ l, '\n' ∉ l → '\n' ∉ f l) (hmedia : ∀ l, isMedia (f l) = isMedia l)
    (hadded : f added = added) (sdp : Text) :
    mapLines f (insertLine added sdp) = insertLine added (mapLines f sdp) := by
  rw [mapLines_eq, insertLine_lines hnew, insertLine_eq, lines_mapLines hf,
    insertBeforeMedia_map hmedia hadded]

/-! ### Reading back what was declared

The printed line has digits where digits are read, one space where the parameters begin, and
no separator inside a value.  A description that has the attribute already is left alone, so
what is read back is then what was there.
-/

private theorem not_newline_of_digit {n : Nat} : '\n' ∉ Nat.toDigits 10 n :=
  fun h => absurd (isDigit_of_mem_toDigits h) (by decide)

theorem newline_not_mem_line (p : Params) : '\n' ∉ line p := by
  have hfix : '\n' ∉ attributePrefix ∧ '\n' ∉ MAX_MESSAGE_SIZE_PARAM := by decide
  unfold line
  cases p.maxMessageSize with
  | none => simp [hfix.1, not_newline_of_digit]
  | some n => simp [hfix.1, hfix.2, not_newline_of_digit]

theorem attributePrefix_isPrefixOf_line (p : Params) :
    attributePrefix.isPrefixOf (line p) = true := by
  unfold line
  cases p.maxMessageSize <;> simp [List.append_assoc]

private theorem digits_head (n : Nat) : ∀ c, (Nat.toDigits 10 n).head? = some c →
    isWhitespace c = false :=
  fun _ hc => isWhitespace_of_isDigit (isDigit_of_mem_toDigits (List.mem_of_mem_head? hc))

private theorem digits_last (n : Nat) : ∀ c, (Nat.toDigits 10 n).getLast? = some c →
    isWhitespace c = false :=
  fun _ hc => isWhitespace_of_isDigit (isDigit_of_mem_toDigits (List.mem_of_mem_getLast? hc))

/-- The one parameter this build writes reads back. -/
theorem readPair_size {n : Nat} (h : n < 2 ^ 64) (m : Option Nat) :
    readPair m (MAX_MESSAGE_SIZE_PARAM ++ "=".toList ++ Nat.toDigits 10 n) = some (some n) := by
  have hsplit : splitOnce (· == '=') (MAX_MESSAGE_SIZE_PARAM ++ "=".toList ++ Nat.toDigits 10 n)
      = some (MAX_MESSAGE_SIZE_PARAM, Nat.toDigits 10 n) := by
    rw [List.append_assoc]
    exact splitOnce_append rfl rfl
  have hkey : trim MAX_MESSAGE_SIZE_PARAM = MAX_MESSAGE_SIZE_PARAM := by decide
  have hval : trim (Nat.toDigits 10 n) = Nat.toDigits 10 n :=
    trim_eq_self (digits_head n) (digits_last n)
  unfold readPair
  rw [hsplit]
  simp only [Option.bind_eq_bind, Option.bind_some, hkey, hval, parseUnsigned_toDigits h, if_true]

theorem parseValue_line {p : Params} (h : p.Fits) :
    ∃ value, line p = attributePrefix ++ value ∧ parseValue value = some p := by
  obtain ⟨version, size⟩ := p
  obtain ⟨hversion, hsize⟩ := h
  simp only at hversion hsize
  subst hversion
  have hone : Nat.toDigits 10 DC_CHUNKING_VERSION = ['1'] := by decide
  cases size with
  | none =>
      refine ⟨['1'], by simp [line, hone], ?_⟩
      decide
  | some n =>
      obtain ⟨pair, hpair⟩ :
          ∃ pair, pair = MAX_MESSAGE_SIZE_PARAM ++ "=".toList ++ Nat.toDigits 10 n := ⟨_, rfl⟩
      have hread : readPair none pair = some (some n) := by
        rw [hpair]
        exact readPair_size (hsize n rfl) none
      have hne : pair ≠ [] := by
        rw [hpair]
        exact List.append_ne_nil_of_right_ne_nil _ Nat.toDigits_ne_nil
      have hfirst : ∀ c, pair.head? = some c → isWhitespace c = false := by
        intro c hc
        have hm : pair.head? = some 'm' := by rw [hpair]; rfl
        obtain rfl : 'm' = c := Option.some.inj (hm.symm.trans hc)
        decide
      have hlast : ∀ c, pair.getLast? = some c → isWhitespace c = false := by
        intro c hc
        rw [hpair, List.getLast?_append_of_ne_nil _ Nat.toDigits_ne_nil] at hc
        exact digits_last n c hc
      have htrim : trim pair = pair := trim_eq_self hfirst hlast
      have hvalue : trim ('1' :: ' ' :: pair) = '1' :: ' ' :: pair := by
        refine trim_eq_self ?_ ?_
        · intro c hc
          obtain rfl : '1' = c := Option.some.inj hc
          decide
        · intro c hc
          rw [show '1' :: ' ' :: pair = ['1', ' '] ++ pair from rfl,
            List.getLast?_append_of_ne_nil _ hne] at hc
          exact hlast c hc
      have hsplit : splitOnce isWhitespace ('1' :: ' ' :: pair) = some (['1'], pair) :=
        splitOnce_append (a := ['1']) rfl rfl
      have hsemi : ';' ∉ pair := by
        rw [hpair]
        intro hmem
        rcases List.mem_append.mp hmem with hmem | hmem
        · exact absurd hmem (by decide)
        · exact absurd (isDigit_of_mem_toDigits hmem) (by decide)
      have hpairs : ((pair.splitOn ';').map trim).filter (!·.isEmpty) = [pair] := by
        rw [List.splitOn_eq_singleton hsemi]
        simp [htrim, hne]
      have hversion : parseUnsigned (2 ^ 32) ['1'] = some DC_CHUNKING_VERSION := by decide
      refine ⟨'1' :: ' ' :: pair, ?_, ?_⟩
      · rw [hpair]
        simp only [line, hone]
        simp
      · simp only [parseValue, hvalue, hsplit, htrim, hpairs, hversion]
        simp [hread]

/-- A description with no line of the attribute declares nothing. -/
theorem parse_eq_none {sdp : Text} (h : hasAttribute sdp = false) : parse sdp = none := by
  have hnone : (lines sdp).findSome? (stripPrefix attributePrefix) = none := by
    rw [List.findSome?_eq_none_iff]
    intro l hl
    exact stripPrefix_eq_none (Bool.eq_false_iff.mpr (List.any_eq_false.mp h l hl))
  simp [parse, hnone]

/-- Among lines without the attribute, the inserted one is the one found. -/
theorem findSome?_insertBeforeMedia {added value : Text} {ls : List Text}
    (hadded : added = attributePrefix ++ value)
    (h : ∀ l ∈ ls, attributePrefix.isPrefixOf l = false) :
    (insertBeforeMedia added ls).findSome? (stripPrefix attributePrefix) = some value := by
  induction ls with
  | nil => simp [insertBeforeMedia, hadded]
  | cons l ls ih =>
      have hl : stripPrefix attributePrefix l = none := stripPrefix_eq_none (h l (by simp))
      rw [insertBeforeMedia]
      split
      · simp [hadded]
      · rw [List.findSome?_cons, hl]
        exact ih fun k hk => h k (by simp [hk])

theorem declare_of_hasAttribute {sdp : Text} (h : hasAttribute sdp = true) (p : Params) :
    declare sdp p = sdp := by
  simp [declare, h]

theorem declare_eq_insertLine {sdp : Text} (h : hasAttribute sdp = false)
    (hne : lines sdp ≠ []) (p : Params) : declare sdp p = insertLine (line p) sdp := by
  simp [declare, h, hne]

/-- **What is declared parses back.** -/
theorem parse_declare {sdp : Text} (h : hasAttribute sdp = false) (hne : lines sdp ≠ [])
    {p : Params} (hp : p.Fits) : parse (declare sdp p) = some p := by
  obtain ⟨value, hline, hvalue⟩ := parseValue_line hp
  have hclean : ∀ l ∈ lines sdp, attributePrefix.isPrefixOf l = false := by
    intro l hl
    exact Bool.eq_false_iff.mpr (List.any_eq_false.mp h l hl)
  rw [declare_eq_insertLine h hne, parse, insertLine_lines (newline_not_mem_line p),
    findSome?_insertBeforeMedia hline hclean]
  exact hvalue

theorem hasAttribute_declare {sdp : Text} (hne : lines sdp ≠ []) (p : Params) :
    hasAttribute (declare sdp p) = true := by
  cases h : hasAttribute sdp with
  | true => rw [declare_of_hasAttribute h, h]
  | false =>
      rw [declare_eq_insertLine h hne, hasAttribute, insertLine_lines (newline_not_mem_line p),
        List.any_eq_true]
      exact ⟨line p, mem_insertBeforeMedia.mpr (.inl rfl), attributePrefix_isPrefixOf_line p⟩

/-! ### Nothing else changes -/

/-- Where the line goes: behind the lines of the session, before the first media line. -/
theorem insertBeforeMedia_eq (added : Text) (ls : List Text) :
    insertBeforeMedia added ls =
      ls.takeWhile (!isMedia ·) ++ added :: ls.dropWhile (!isMedia ·) := by
  induction ls with
  | nil => rfl
  | cons l ls ih =>
      rw [insertBeforeMedia]
      split
      · rename_i hm
        simp [hm]
      · rename_i hm
        simp [hm, ih]

theorem declare_nil (p : Params) : declare [] p = [] := by
  simp [declare]

/-- A description that is changed is written line by line. -/
theorem declare_changed {sdp : Text} {p : Params} (h : declare sdp p ≠ sdp) :
    declare sdp p = unlines (insertBeforeMedia (line p) (lines sdp)) := by
  have hclean : hasAttribute sdp = false := by
    by_contra hattr
    exact h (declare_of_hasAttribute (Bool.eq_true_of_not_eq_false hattr) p)
  have hne : lines sdp ≠ [] := by
    intro hnil
    exact h (by simp [declare, hnil])
  rw [declare_eq_insertLine hclean hne, insertLine_eq]

theorem declare_declare (sdp : Text) (p q : Params) :
    declare (declare sdp p) q = declare sdp p := by
  by_cases hne : sdp = []
  · rw [hne, declare_nil, declare_nil]
  · exact declare_of_hasAttribute (hasAttribute_declare (by simpa using hne) p) q

/--
**What declaring does to a description.**  It reads back as what was declared, its lines
are the old ones with one more in its place, declaring again changes nothing, and every
line of what is written ends in CR LF.
-/
theorem declare_laws (p : Params) :
    (∀ sdp, sdp ≠ [] → hasAttribute sdp = false → p.Fits →
      parse (declare sdp p) = some p ∧
      ∃ session media, lines sdp = session ++ media ∧
        lines (declare sdp p) = session ++ line p :: media ∧
        (∀ l ∈ session, isMedia l = false) ∧ ∀ l, media.head? = some l → isMedia l = true) ∧
    (∀ sdp q, declare (declare sdp p) q = declare sdp p) ∧
    ∀ sdp, declare sdp p ≠ sdp →
      declare sdp p = unlines (lines (declare sdp p)) := by
  refine ⟨fun sdp hne hclean hfits => ?_, fun sdp q => declare_declare sdp p q, ?_⟩
  · have hlines : lines sdp ≠ [] := by simpa using hne
    refine ⟨parse_declare hclean hlines hfits, (lines sdp).takeWhile (!isMedia ·),
      (lines sdp).dropWhile (!isMedia ·), List.takeWhile_append_dropWhile.symm, ?_, ?_, ?_⟩
    · rw [declare_eq_insertLine hclean hlines, insertLine_lines (newline_not_mem_line p),
        insertBeforeMedia_eq]
    · intro l hl
      simpa using List.mem_takeWhile_imp hl
    · intro l hl
      have hfirst := List.head?_dropWhile_not (!isMedia ·) (lines sdp)
      rw [hl] at hfirst
      simpa using hfirst
  · intro sdp h
    have hwritten := declare_changed h
    have hnewline : ∀ l ∈ insertBeforeMedia (line p) (lines sdp), '\n' ∉ l := by
      intro l hl
      rcases mem_insertBeforeMedia.mp hl with rfl | hl
      · exact newline_not_mem_line p
      · exact newline_not_mem hl
    rw [hwritten, lines_unlines hnewline]

/-- A description with one session line and one media section, lines ended in two ways. -/
theorem declare_laws_offer :
    parse (declare "v=0\nm=application 9\r\n".toList (.ofLocal 1024)) = some (.ofLocal 1024) :=
  ((declare_laws (.ofLocal 1024)).1 _ (by decide) (by decide)
    ⟨rfl, fun n hn => by cases hn; decide⟩).1

end Sdp

end ReactorWebrtc
