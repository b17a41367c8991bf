/-
The parser of a timing frame's text.

libwebrtc reports the frame as fifteen integers with a comma after each but the last.  The
parser reads the columns with `strtoll` until it has fifteen, or one that no comma follows,
and takes what it has if that is fifteen.  What follows the fifteenth is not looked at, and
`strtoll` is more liberal than the format: it skips white space, and brings what does not
fit in 64 bits back into range.

`Columns` is a text the parser takes, `InFormat` one it is meant to take.
`exact_iff` says where the two agree.

For a text in the format both give the same fifteen numbers.  For the others the question is
whether the parser leaves the entry alone, as it should, and it does unless there are
fifteen columns in spite of all: with white space before a number, with a number that was
clamped, or with more behind the fifteenth.
-/
import ReactorWebrtc.Lib.Strtoll

namespace ReactorWebrtc

/-- The timing fields of a `ReactorStatEntry`. -/
structure TimingEntry where
  present : Bool := false
  rtpTimestamp : UInt32 := 0
  isOutlier : Bool := false
  isTimerTriggered : Bool := false
  captureMs : Int64 := 0
  encodeStartMs : Int64 := 0
  encodeFinishMs : Int64 := 0
  packetizationFinishMs : Int64 := 0
  pacerExitMs : Int64 := 0
  receiveStartMs : Int64 := 0
  receiveFinishMs : Int64 := 0
  decodeStartMs : Int64 := 0
  decodeFinishMs : Int64 := 0
  deriving DecidableEq, Repr

namespace TimingEntry

/-- Read this many columns, or up to one that no comma follows; `none` where there is no
number. -/
def readColumns : Nat → Text → Option (List Int64)
  | 0, _ => some []
  | left + 1, p =>
    match Text.strtoll p with
    | none => none
    | some (x, ',' :: p) => (readColumns left p).map (Int64.ofInt x :: ·)
    | some (x, _) => some [Int64.ofInt x]

/-- `parse_timing_frame_info` -/
def parseTimingFrameInfo (s : Text) (e : TimingEntry) : TimingEntry :=
  match readColumns 15 s with
  | some [v0, v1, v2, v3, v4, v5, _, _, v8, v9, v10, v11, _, v13, v14] =>
    { e with
      present := true
      rtpTimestamp := v0.toUInt64.toUInt32
      isOutlier := v13 ≠ 0
      isTimerTriggered := v14 ≠ 0
      captureMs := v1
      encodeStartMs := v2
      encodeFinishMs := v3
      packetizationFinishMs := v4
      pacerExitMs := v5
      receiveStartMs := v8
      receiveFinishMs := v9
      decodeStartMs := v10
      decodeFinishMs := v11 }
  | _ => e

/-- Numbers with a comma after each but the last. -/
def joined : List Text.Number → Text
  | [] => []
  | [x] => x.text
  | x :: y :: xs => x.text ++ ',' :: joined (y :: xs)

/-- The text begins with fifteen numbers, and this is the rest of it. -/
structure Columns (s : Text) (xs : List Text.Number) (rest : Text) : Prop where
  fifteen : xs.length = 15
  text : s = joined xs ++ rest
  ends : Text.Ends rest

/-- Nothing but the digits and a sign, within 64 bits. -/
def Plain (x : Text.Number) : Prop := x.space = [] ∧ -2 ^ 63 ≤ x.value ∧ x.value < 2 ^ 63

/-- The text is fifteen numbers, with these values. -/
def InFormat (s : Text) (vs : List Int) : Prop :=
  ∃ xs, Columns s xs [] ∧ (∀ x ∈ xs, Plain x) ∧ vs = xs.map Text.Number.value

/-- Each field from its own column. -/
structure Filled (e : TimingEntry) (vs : List Int) : Prop where
  present : e.present = true
  rtpTimestamp : vs[0]?.map (· % 2 ^ 32) = some (e.rtpTimestamp.toNat : Int)
  captureMs : vs[1]? = some e.captureMs.toInt
  encodeStartMs : vs[2]? = some e.encodeStartMs.toInt
  encodeFinishMs : vs[3]? = some e.encodeFinishMs.toInt
  packetizationFinishMs : vs[4]? = some e.packetizationFinishMs.toInt
  pacerExitMs : vs[5]? = some e.pacerExitMs.toInt
  receiveStartMs : vs[8]? = some e.receiveStartMs.toInt
  receiveFinishMs : vs[9]? = some e.receiveFinishMs.toInt
  decodeStartMs : vs[10]? = some e.decodeStartMs.toInt
  decodeFinishMs : vs[11]? = some e.decodeFinishMs.toInt
  isOutlier : vs[13]?.map (fun v => decide (v ≠ 0)) = some e.isOutlier
  isTimerTriggered : vs[14]?.map (fun v => decide (v ≠ 0)) = some e.isTimerTriggered

/-- The parser takes a text exactly if it is in the format. -/
def Exact (s : Text) : Prop :=
  ∀ e, (∀ vs, InFormat s vs → Filled (parseTimingFrameInfo s e) vs) ∧
    ((∀ vs, ¬ InFormat s vs) → parseTimingFrameInfo s e = e)

/-! ### The columns

The parser's loop, said of texts: it succeeds exactly on those that begin with fifteen
numbers and their commas, and there is only one way to read them so.
-/

theorem ends_comma (rest : Text) : Text.Ends (',' :: rest) := by
  intro c hc
  obtain rfl := Option.some.inj hc
  decide

theorem joined_cons {x : Text.Number} {xs : List Text.Number} (h : xs ≠ []) :
    joined (x :: xs) = x.text ++ ',' :: joined xs := by
  cases xs with
  | nil => exact absurd rfl h
  | cons y ys => rfl

theorem readColumns_comma {left : Nat} {x : Text.Number} (s : Text) :
    readColumns (left + 1) (x.text ++ ',' :: s)
      = (readColumns left s).map (Int64.ofInt (Text.clamp x.value) :: ·) := by
  rw [readColumns, Text.strtoll_text x (ends_comma s)]
  rfl

theorem readColumns_last {x : Text.Number} {rest : Text} (hrest : Text.Ends rest) :
    readColumns 1 (x.text ++ rest) = some [Int64.ofInt (Text.clamp x.value)] := by
  rw [readColumns, Text.strtoll_text x hrest]
  split
  · rename_i h
    cases h
  · rename_i h
    obtain ⟨rfl, -⟩ := Prod.mk.inj (Option.some.inj h)
    rfl
  · rename_i h
    obtain ⟨rfl, -⟩ := Prod.mk.inj (Option.some.inj h)
    rfl

/-- Numbers that are there are read, whatever follows. -/
theorem readColumns_joined (xs : List Text.Number) {rest : Text} (hrest : Text.Ends rest) :
    readColumns xs.length (joined xs ++ rest)
      = some (xs.map fun x => Int64.ofInt (Text.clamp x.value)) := by
  induction xs with
  | nil => rfl
  | cons x xs ih =>
      by_cases hxs : xs = []
      · rw [hxs]
        exact readColumns_last hrest
      · rw [joined_cons hxs, List.append_assoc, List.length_cons, List.cons_append,
          readColumns_comma, ih]
        rfl

/-- Where as many columns are read as were asked for, the text begins with so many numbers. -/
theorem readColumns_sound {left : Nat} {s : Text} {vs : List Int64}
    (h : readColumns (left + 1) s = some vs) (hall : vs.length = left + 1) :
    ∃ xs rest, xs.length = left + 1 ∧ s = joined xs ++ rest ∧ Text.Ends rest := by
  induction left generalizing s vs with
  | zero =>
      rw [readColumns] at h
      cases hread : Text.strtoll s with
      | none =>
          rw [hread] at h
          cases h
      | some read =>
          obtain ⟨v, rest⟩ := read
          obtain ⟨x, rfl, -, hrest⟩ := Text.strtoll_sound hread
          exact ⟨[x], rest, rfl, rfl, hrest⟩
  | succ left ih =>
      rw [readColumns] at h
      split at h
      · cases h
      · rename_i v after hread
        obtain ⟨x, rfl, -, -⟩ := Text.strtoll_sound hread
        obtain ⟨vs', hvs', rfl⟩ := Option.map_eq_some_iff.mp h
        obtain ⟨xs, rest, hlength, rfl, hrest⟩ := ih hvs' (Nat.succ.inj hall)
        refine ⟨x :: xs, rest, congrArg Nat.succ hlength, ?_, hrest⟩
        rw [joined_cons (List.ne_nil_of_length_eq_add_one hlength), List.append_assoc]
        rfl
      · obtain rfl := Option.some.inj h
        cases hall

/-- A text begins with so many numbers in one way only. -/
theorem joined_append_inj {xs ys : List Text.Number} {rest rest' : Text}
    (hlength : xs.length = ys.length) (hrest : Text.Ends rest) (hrest' : Text.Ends rest')
    (h : joined xs ++ rest = joined ys ++ rest') : xs = ys ∧ rest = rest' := by
  induction xs generalizing ys with
  | nil =>
      obtain rfl := List.eq_nil_of_length_eq_zero hlength.symm
      exact ⟨rfl, h⟩
  | cons x xs ih =>
      obtain ⟨y, ys, rfl⟩ := List.exists_cons_of_length_eq_add_one hlength.symm
      have htail : xs.length = ys.length := Nat.succ.inj hlength
      by_cases hxs : xs = []
      · obtain rfl : ys = [] := List.eq_nil_of_length_eq_zero (by rw [← htail, hxs]; rfl)
        subst hxs
        obtain ⟨rfl, rfl⟩ := Text.Number.text_append_inj hrest hrest' h
        exact ⟨rfl, rfl⟩
      · have hys : ys ≠ [] := by
          rintro rfl
          exact hxs (List.eq_nil_of_length_eq_zero htail)
        rw [joined_cons hxs, joined_cons hys, List.append_assoc, List.append_assoc] at h
        obtain ⟨rfl, hafter⟩ := Text.Number.text_append_inj (ends_comma _) (ends_comma _) h
        obtain ⟨rfl, rfl⟩ := ih htail (List.cons.inj hafter).2
        exact ⟨rfl, rfl⟩

theorem Columns.unique {s : Text} {xs ys : List Text.Number} {rest rest' : Text}
    (h : Columns s xs rest) (h' : Columns s ys rest') : xs = ys ∧ rest = rest' :=
  joined_append_inj (h.fifteen.trans h'.fifteen.symm) h.ends h'.ends (h.text.symm.trans h'.text)

/-! ### The fields

What the parser has read goes into the fields by its place, and an integer is brought back
to the field's width.
-/

theorem toInt_ofInt_clamp (n : Int) : (Int64.ofInt (Text.clamp n)).toInt = Text.clamp n := by
  unfold Text.clamp
  exact Int64.toInt_ofInt_of_le (by omega) (by omega)

theorem clamp_of_plain {x : Text.Number} (h : Plain x) : Text.clamp x.value = x.value := by
  obtain ⟨-, hlo, hhi⟩ := h
  unfold Text.clamp
  omega

/-- The low 32 bits. -/
theorem toUInt32_toNat (v : Int64) : (v.toUInt64.toUInt32.toNat : Int) = v.toInt % 2 ^ 32 := by
  have hint : v.toInt = if 2 * v.toBitVec.toNat < 2 ^ 64 then (v.toBitVec.toNat : Int)
      else v.toBitVec.toNat - 2 ^ 64 := BitVec.toInt_eq_toNat_cond v.toBitVec
  rw [UInt64.toNat_toUInt32, ← Int64.toNat_toBitVec, hint]
  split
  · omega
  · omega

theorem decide_ofInt_clamp_ne (n : Int) :
    decide (Int64.ofInt (Text.clamp n) ≠ 0) = decide (Text.clamp n ≠ 0) := by
  rw [decide_eq_decide, not_iff_not, ← Int64.toInt_inj, toInt_ofInt_clamp]
  rfl

/-- Where fifteen numbers are read each field has its own. -/
theorem filled_of_columns {s rest : Text} {xs : List Text.Number} (h : Columns s xs rest)
    (e : TimingEntry) :
    Filled (parseTimingFrameInfo s e) (xs.map fun x => Text.clamp x.value) := by
  have hread := readColumns_joined xs h.ends
  rw [h.fifteen, ← h.text] at hread
  unfold parseTimingFrameInfo
  rw [hread]
  match xs, h.fifteen with
  | [x0, x1, x2, x3, x4, x5, x6, x7, x8, x9, x10, x11, x12, x13, x14], _ =>
    constructor
    case present => rfl
    case rtpTimestamp =>
      have hlow := toUInt32_toNat (Int64.ofInt (Text.clamp x0.value))
      rw [toInt_ofInt_clamp] at hlow
      exact congrArg some hlow.symm
    case isOutlier => exact congrArg some (decide_ofInt_clamp_ne x13.value).symm
    case isTimerTriggered => exact congrArg some (decide_ofInt_clamp_ne x14.value).symm
    all_goals exact congrArg some (toInt_ofInt_clamp _).symm

/-- Where they are not, nothing changes. -/
theorem untouched_of_not_columns {s : Text} (h : ∀ xs rest, ¬ Columns s xs rest)
    (e : TimingEntry) : parseTimingFrameInfo s e = e := by
  unfold parseTimingFrameInfo
  split
  · rename_i hread
    obtain ⟨xs, rest, hlength, htext, hends⟩ := readColumns_sound hread rfl
    exact absurd ⟨hlength, htext, hends⟩ (h xs rest)
  · rfl

/-- Of a text the parser reads as its format says, nothing but the format is there. -/
theorem Exact.plain {s rest : Text} {xs : List Text.Number} (h : Exact s)
    (hcolumns : Columns s xs rest) : rest = [] ∧ ∀ x ∈ xs, Plain x := by
  have hpresent := (filled_of_columns hcolumns {}).present
  by_cases hformat : ∃ vs, InFormat s vs
  · obtain ⟨vs, ys, hys, hplain, -⟩ := hformat
    obtain ⟨rfl, rfl⟩ := hcolumns.unique hys
    exact ⟨rfl, hplain⟩
  · rw [(h {}).2 fun vs hvs => hformat ⟨vs, hvs⟩] at hpresent
    cases hpresent

/--
**The parser takes its format and nothing else**, of a text that does not begin with fifteen
numbers or has nothing but the fifteen, plain.
-/
theorem parse_exact_iff (s : Text) :
    Exact s ↔ ∀ xs rest, Columns s xs rest → rest = [] ∧ ∀ x ∈ xs, Plain x := by
  refine ⟨fun h xs rest hcolumns => h.plain hcolumns, fun h e => ⟨?_, fun hnot => ?_⟩⟩
  · rintro vs ⟨xs, hcolumns, hplain, rfl⟩
    have hvalues : xs.map Text.Number.value = xs.map fun x => Text.clamp x.value :=
      List.map_congr_left fun x hx => (clamp_of_plain (hplain x hx)).symm
    rw [hvalues]
    exact filled_of_columns hcolumns e
  · refine untouched_of_not_columns (fun xs rest hcolumns => ?_) e
    obtain ⟨rfl, hplain⟩ := h xs rest hcolumns
    exact hnot _ ⟨xs, hcolumns, hplain, rfl⟩

/-- A sixteenth column is not noticed. -/
theorem parse_takes_sixteen :
    ¬ Exact "1,2,3,4,5,6,7,8,9,10,11,12,13,0,1,16".toList := by
  intro h
  have hcolumns : Columns "1,2,3,4,5,6,7,8,9,10,11,12,13,0,1,16".toList
      ([1, 2, 3, 4, 5, 6, 7, 8, 9, 10, 11, 12, 13, 0, 1].map Text.Number.print) [',', '1', '6'] :=
    ⟨rfl, by decide +kernel, ends_comma _⟩
  cases (h.plain hcolumns).1

end TimingEntry

end ReactorWebrtc
