/-
The trailer, both ways.

A trailer is found from the end: the magic, the length before it, and as many bytes before
that.  So it does not matter what the payload holds, be it trailers of its own, and
`decode_append` is one computation for all of it.  What is accepted has that form too, with
bytes that decode in place of the encoded metadata (`decode_sound`).

`prost` is a parameter.  `proto3_inverse` is what is asked of it, proved of the encoding the
three fields have.
-/
import Mathlib.Data.List.Induction
import ReactorWebrtc.Metadata.Slot

namespace ReactorWebrtc

/-! ### The length -/

@[simp] theorem length_toLeBytes (n : UInt32) : (toLeBytes n).length = 4 := rfl

@[simp] theorem fromLeBytes_toLeBytes (n : UInt32) : fromLeBytes (toLeBytes n) = some n := by
  show some _ = some n
  congr 1
  rw [← UInt32.toBitVec_inj]
  ext i hi
  simp [-UInt32.toUInt32_toUInt8]
  -- each bit comes from one of the four bytes
  rcases (by omega : i < 8 ∨ (8 ≤ i ∧ i < 16) ∨ (16 ≤ i ∧ i < 24) ∨ 24 ≤ i) with h | h | h | h
  · grind
  · grind
  · grind
  · grind

/-- Only its own bytes read as a length. -/
theorem toLeBytes_of_fromLeBytes {bytes : Bytes} {n : UInt32} (h : fromLeBytes bytes = some n) :
    bytes = toLeBytes n := by
  unfold fromLeBytes at h
  split at h
  · rename_i a b c d
    obtain rfl := Option.some.inj h
    unfold toLeBytes
    rw [List.cons.injEq, List.cons.injEq, List.cons.injEq, List.cons.injEq]
    refine ⟨?_, ?_, ?_, ?_, rfl⟩
    all_goals
      rw [← UInt8.toBitVec_inj]
      ext i hi
      simp <;> grind
  · cases h

/-! ### The protobuf

Three fields, of which a default value is left out.  The decoder takes fields in any order
and the last of several, and a number in more bytes than it needs, so the two are inverse in
one direction only.
-/

theorem decodeVarint_small (len : Nat) {n : Nat} (h : n < 128) (rest : Bytes) :
    decodeVarint (len + 1) (encodeVarint (len + 1) n ++ rest) = some (n, rest) := by
  have hbyte : (UInt8.ofNat n).toNat = n := by
    rw [UInt8.toNat_ofNat']
    omega
  rw [encodeVarint, if_pos h, List.singleton_append, decodeVarint, if_pos, hbyte]
  rw [UInt8.lt_iff_toNat_lt, hbyte]
  exact h

theorem decodeVarint_encodeVarint (len n : Nat) (rest : Bytes) (h : n < 128 ^ (len + 1)) :
    decodeVarint (len + 1) (encodeVarint (len + 1) n ++ rest) = some (n, rest) := by
  induction len generalizing n with
  | zero => exact decodeVarint_small 0 (by simpa using h) rest
  | succ len ih =>
      by_cases hsmall : n < 128
      · exact decodeVarint_small (len + 1) hsmall rest
      · have hbyte : (UInt8.ofNat (n % 128 + 128)).toNat = n % 128 + 128 := by
          rw [UInt8.toNat_ofNat']
          omega
        have hlarge : ¬ UInt8.ofNat (n % 128 + 128) < 128 := by
          rw [UInt8.lt_iff_toNat_lt, hbyte]
          exact Nat.not_lt.mpr (Nat.le_add_left _ _)
        have hrest : n / 128 < 128 ^ (len + 1) := Nat.div_lt_of_lt_mul (by rwa [← Nat.pow_succ'])
        rw [encodeVarint, if_neg hsmall, List.cons_append, decodeVarint, if_neg hlarge,
          ih _ hrest]
        simp only [Option.bind_eq_bind, Option.bind_some, hbyte, Nat.add_sub_cancel,
          Nat.mod_add_div]

theorem decodeVarint_length {len n : Nat} {bytes rest : Bytes}
    (h : decodeVarint len bytes = some (n, rest)) : rest.length < bytes.length := by
  induction len generalizing n bytes with
  | zero => cases h
  | succ len ih =>
      cases bytes with
      | nil => cases h
      | cons byte bytes =>
          rw [decodeVarint] at h
          split at h
          · obtain ⟨-, rfl⟩ := Prod.mk.inj (Option.some.inj h)
            exact Nat.lt_succ_self _
          · obtain ⟨⟨n', rest'⟩, hrest, h⟩ := Option.bind_eq_some_iff.mp h
            obtain ⟨-, rfl⟩ := Prod.mk.inj (Option.some.inj h)
            exact Nat.lt_succ_of_lt (ih hrest)

/-- As many steps as there are bytes are enough. -/
theorem decodeFields_enough {left left' : Nat} {m : FrameMetadata} {bytes : Bytes}
    (h : bytes.length ≤ left) (h' : bytes.length ≤ left') :
    decodeFields left m bytes = decodeFields left' m bytes := by
  induction left generalizing left' m bytes with
  | zero =>
      obtain rfl := List.eq_nil_of_length_eq_zero (Nat.le_zero.mp h)
      rw [decodeFields, decodeFields]
  | succ left ih =>
      cases bytes with
      | nil => rw [decodeFields, decodeFields]
      | cons key bytes =>
          obtain ⟨left', rfl⟩ : ∃ k, left' = k + 1 := Nat.exists_eq_succ_of_ne_zero (by
            rintro rfl
            cases h')
          rw [decodeFields, decodeFields]
          cases hvarint : decodeVarint 10 bytes with
          | none => rfl
          | some field =>
              obtain ⟨n, rest⟩ := field
              have hrest := decodeVarint_length hvarint
              rw [List.length_cons] at h h'
              have hdrop : (rest.drop n).length ≤ rest.length := by
                rw [List.length_drop]
                omega
              simp only [Option.bind_eq_bind, Option.bind_some]
              split
              · exact ih (by omega) (by omega)
              · split
                · exact ih (by omega) (by omega)
                · split
                  · exact ih (by omega) (by omega)
                  · rfl

/-- A number's field, there or left out because it is zero. -/
theorem decodeFields_number (m : FrameMetadata) (key : UInt8) (set : UInt64 → FrameMetadata)
    (hzero : set 0 = m)
    (hkey : ∀ left n bytes after, decodeVarint 10 bytes = some (n, after) →
      decodeFields (left + 1) m (key :: bytes) = decodeFields left (set (UInt64.ofNat n)) after)
    (x : UInt64) (rest : Bytes) :
    decodeFields ((if x = 0 then [] else key :: encodeVarint 10 x.toNat) ++ rest).length m
        ((if x = 0 then [] else key :: encodeVarint 10 x.toNat) ++ rest) =
      decodeFields rest.length (set x) rest := by
  by_cases hx : x = 0
  · rw [if_pos hx, List.nil_append, hx, hzero]
  · have hvarint := decodeVarint_encodeVarint 9 x.toNat rest (x.toNat_lt.trans (by decide))
    rw [if_neg hx, List.cons_append, List.length_cons, hkey _ _ _ _ hvarint, UInt64.ofNat_toNat]
    refine decodeFields_enough ?_ le_rfl
    rw [List.length_append]
    exact Nat.le_add_left _ _

theorem decodeFields_userData {m : FrameMetadata} (hm : m.userData = []) {x : Bytes}
    (hx : x.length < 2 ^ 32) :
    decodeFields (if x = [] then [] else 0x1A :: encodeVarint 10 x.length ++ x).length m
        (if x = [] then [] else 0x1A :: encodeVarint 10 x.length ++ x) =
      some { m with userData := x } := by
  by_cases hempty : x = []
  · obtain ⟨frameId, captureTimeUs, userData⟩ := m
    obtain rfl : userData = [] := hm
    rw [if_pos hempty, hempty]
    rfl
  · have hvarint := decodeVarint_encodeVarint 9 x.length x (hx.trans (by decide))
    rw [if_neg hempty, List.cons_append, List.length_cons, decodeFields, hvarint]
    simp only [Option.bind_eq_bind, Option.bind_some]
    rw [if_neg (by decide), if_neg (by decide), if_pos ⟨by decide, le_rfl⟩, List.take_length,
      List.drop_length]
    cases (encodeVarint 10 x.length ++ x).length with
    | zero => rfl
    | succ left => rfl

/-- What was encoded is decoded. -/
theorem proto3_inverse (m : FrameMetadata) (hshort : (proto3.encodeToVec m).length < 2 ^ 32) :
    proto3.decode (proto3.encodeToVec m) = some m := by
  obtain ⟨frameId, captureTimeUs, userData⟩ := m
  have hdata : userData.length < 2 ^ 32 := by
    refine lt_of_le_of_lt ?_ hshort
    unfold proto3
    by_cases h : userData = []
    · simp [h]
    · simp only [if_neg h, List.length_append, List.length_cons]
      omega
  have hframe := fun rest => decodeFields_number {} 0x08 (fun frameId => { frameId }) rfl
    (fun left n bytes after h => by
      rw [decodeFields, h]
      rfl) frameId rest
  have htime := fun rest => decodeFields_number { frameId } 0x10
    (fun captureTimeUs => { frameId, captureTimeUs }) rfl (fun left n bytes after h => by
      rw [decodeFields, h]
      rfl) captureTimeUs rest
  show decodeFields _ {} _ = _
  unfold proto3
  dsimp only
  rw [List.append_assoc, hframe, htime]
  exact decodeFields_userData rfl hdata

/-! ### One trailer

The length is read where it stands for the last trailer, whatever precedes it, so the
payload needs no escape.
-/

variable (prost : Prost)

/-- What stands before the length is what is decoded, whatever stands before that. -/
theorem decode_append (payload proto : Bytes) (hshort : proto.length < 2 ^ 32) :
    decodeAndStripTrailer prost
        (payload ++ (proto ++ toLeBytes (UInt32.ofNat proto.length) ++ MAGIC)) =
      (prost.decode proto).map fun m => (m, payload) := by
  have hlength : (payload ++ (proto ++ toLeBytes (UInt32.ofNat proto.length) ++ MAGIC)).length
      = payload.length + proto.length + 4 + 4 := by
    simp only [List.length_append, length_toLeBytes, MAGIC, List.length_cons, List.length_nil]
    omega
  have hlen : (UInt32.ofNat proto.length).toNat = proto.length := by
    rw [UInt32.toNat_ofNat', Nat.mod_eq_of_lt hshort]
  have hmagic : (payload ++ (proto ++ toLeBytes (UInt32.ofNat proto.length) ++ MAGIC)).drop
      (payload.length + proto.length + 4 + 4 - 4) = MAGIC := by
    rw [← List.append_assoc]
    refine List.drop_left' ?_
    simp only [List.length_append, length_toLeBytes]
    omega
  have hle : ((payload ++ (proto ++ toLeBytes (UInt32.ofNat proto.length) ++ MAGIC)).drop
      (payload.length + proto.length + 4 + 4 - 8)).take 4
        = toLeBytes (UInt32.ofNat proto.length) := by
    rw [List.append_assoc, ← List.append_assoc, List.drop_left' (by
      rw [List.length_append]
      omega)]
    exact List.take_left' (length_toLeBytes _)
  have hstart : payload.length + proto.length + 4 + 4 - (8 + proto.length) = payload.length := by
    omega
  unfold decodeAndStripTrailer
  simp only [hlength]
  rw [if_neg (by unfold FRAMING; omega), hmagic, if_neg (not_not.mpr rfl), hle,
    fromLeBytes_toLeBytes]
  simp only [Option.bind_eq_bind, Option.bind_some, hlen]
  rw [if_neg (by omega), hstart, List.drop_left, List.append_assoc, List.take_left,
    List.take_left]
  cases prost.decode proto with
  | none => rfl
  | some m => rfl

/-- What is accepted ends in bytes that decode, their length and the magic. -/
theorem decode_sound {data rest : Bytes} {m : FrameMetadata}
    (h : decodeAndStripTrailer prost data = some (m, rest)) :
    ∃ proto : Bytes, proto.length < 2 ^ 32 ∧ prost.decode proto = some m ∧
      data = rest ++ (proto ++ toLeBytes (UInt32.ofNat proto.length) ++ MAGIC) := by
  unfold decodeAndStripTrailer at h
  dsimp only at h
  by_cases hframing : data.length < FRAMING
  · rw [if_pos hframing] at h
    cases h
  rw [if_neg hframing] at h
  by_cases hmagic : data.drop (data.length - 4) = MAGIC
  · rw [if_neg (not_not.mpr hmagic)] at h
    obtain ⟨protoLen, hle, h⟩ := Option.bind_eq_some_iff.mp h
    by_cases hshort : data.length < 8 + protoLen.toNat
    · rw [if_pos hshort] at h
      cases h
    rw [if_neg hshort] at h
    obtain ⟨m', hproto, h⟩ := Option.bind_eq_some_iff.mp h
    obtain ⟨rfl, rfl⟩ := Prod.mk.inj (Option.some.inj h)
    have hlength : ((data.drop (data.length - (8 + protoLen.toNat))).take protoLen.toNat).length
        = protoLen.toNat := by
      rw [List.length_take, List.length_drop]
      omega
    refine ⟨_, hlength.trans_lt protoLen.toNat_lt, hproto, ?_⟩
    rw [hlength, UInt32.ofNat_toNat, ← toLeBytes_of_fromLeBytes hle, ← hmagic, List.append_assoc]
    -- the pieces are what the cuts leave
    have hlast : ((data.drop (data.length - 8)).take 4) ++ data.drop (data.length - 4)
        = data.drop (data.length - 8) := by
      conv_rhs => rw [← List.take_append_drop 4 (data.drop (data.length - 8)), List.drop_drop]
      have hcut : data.length - 8 + 4 = data.length - 4 := by
        unfold FRAMING at hframing
        omega
      rw [hcut]
    have htail : ((data.drop (data.length - (8 + protoLen.toNat))).take protoLen.toNat)
        ++ data.drop (data.length - 8) = data.drop (data.length - (8 + protoLen.toNat)) := by
      conv_rhs => rw [← List.take_append_drop protoLen.toNat
        (data.drop (data.length - (8 + protoLen.toNat))), List.drop_drop]
      have hcut : data.length - (8 + protoLen.toNat) + protoLen.toNat = data.length - 8 := by omega
      rw [hcut]
    rw [hlast, htail, List.take_append_drop]
  · rw [if_pos hmagic] at h
    cases h

/-! ### Several trailers

Each of the two directions is one step, and steps in the one direction undo those in the
other in the opposite order.
-/

/-- Strip trailers, one a call. -/
def peel : Nat → Bytes → Option (List FrameMetadata × Bytes)
  | 0, data => some ([], data)
  | n + 1, data => do
    let (m, rest) ← decodeAndStripTrailer prost data
    let (ms, rest) ← peel n rest
    some (m :: ms, rest)

/-- The payload with a trailer for each, the first nearest to it. -/
def withTrailers (payload : Bytes) (ms : List FrameMetadata) : Bytes :=
  ms.foldl (fun data m => data ++ encodeTrailer prost m) payload

variable {prost}

/-- A trailer is what was appended, whatever it was appended to. -/
theorem decode_encodeTrailer {m : FrameMetadata}
    (hinverse : prost.decode (prost.encodeToVec m) = some m)
    (hshort : (prost.encodeToVec m).length < 2 ^ 32) (payload : Bytes) :
    decodeAndStripTrailer prost (payload ++ encodeTrailer prost m) = some (m, payload) := by
  unfold encodeTrailer
  rw [decode_append prost payload _ hshort, hinverse]
  rfl

theorem peel_withTrailers {ms : List FrameMetadata}
    (hinverse : ∀ m ∈ ms, prost.decode (prost.encodeToVec m) = some m)
    (hshort : ∀ m ∈ ms, (prost.encodeToVec m).length < 2 ^ 32) (payload : Bytes) :
    peel prost ms.length (withTrailers prost payload ms) = some (ms.reverse, payload) := by
  induction ms using List.reverseRecOn with
  | nil => rfl
  | append_singleton ms m ih =>
      have hlast : m ∈ ms ++ [m] := List.mem_append_right _ List.mem_cons_self
      have hrest := ih (fun x hx => hinverse x (List.mem_append_left _ hx))
        (fun x hx => hshort x (List.mem_append_left _ hx))
      have happend : withTrailers prost payload (ms ++ [m])
          = withTrailers prost payload ms ++ encodeTrailer prost m := by
        rw [withTrailers, List.foldl_append]
        rfl
      rw [happend, List.length_append, List.length_singleton, List.reverse_append, peel,
        decode_encodeTrailer (hinverse m hlast) (hshort m hlast)]
      simp only [Option.bind_eq_bind, Option.bind_some, hrest]
      rfl

/--
**Trailer round trip.**  A trailer is decoded after any payload, several are peeled off in
reverse order, and what is accepted is a payload with a trailer.
-/
theorem trailer_round_trip (prost : Prost)
    (hinverse : ∀ m, (prost.encodeToVec m).length < 2 ^ 32 →
      prost.decode (prost.encodeToVec m) = some m) :
    (∀ payload m, (prost.encodeToVec m).length < 2 ^ 32 →
      decodeAndStripTrailer prost (payload ++ encodeTrailer prost m) = some (m, payload)) ∧
    (∀ payload ms, (∀ m ∈ ms, (prost.encodeToVec m).length < 2 ^ 32) →
      peel prost ms.length (withTrailers prost payload ms) = some (ms.reverse, payload)) ∧
    (∀ data m rest, decodeAndStripTrailer prost data = some (m, rest) →
      ∃ proto : Bytes, proto.length < 2 ^ 32 ∧ prost.decode proto = some m ∧
        data = rest ++ (proto ++ toLeBytes (UInt32.ofNat proto.length) ++ MAGIC)) :=
  ⟨fun payload m hshort => decode_encodeTrailer (hinverse m hshort) hshort payload,
    fun payload _ hshort => peel_withTrailers (fun m hm => hinverse m (hshort m hm)) hshort payload,
    fun _ _ _ h => decode_sound prost h⟩

/-- A payload that ends in a trailer of its own keeps it. -/
theorem trailer_round_trip_nested :
    decodeAndStripTrailer proto3
        ((7 :: encodeTrailer proto3 { frameId := 1 }) ++ encodeTrailer proto3 { userData := [9] }) =
      some ({ userData := [9] }, 7 :: encodeTrailer proto3 { frameId := 1 }) :=
  (trailer_round_trip proto3 proto3_inverse).1 _ _ (by decide)

end ReactorWebrtc
