/-
A name on its way through a fixed buffer.

The glue writes as many bytes of a stats string as the buffer holds beside the NUL, wherever
that cuts it.  The reader takes the bytes up to the NUL and leaves off what the cut has left
of a character, which it knows by the error that has no length; bytes that are wrong in
another way it reads with replacement characters.

A text's bytes cut short are never wrong in another way, so the reader finds the longest
prefix of the text that fits.

Only a name is read in this way.  The other strings are for comparing with others, where a
part is worse than nothing: they are handed on whole or not at all (`statStr`).
-/
import ReactorWebrtc.Chunking.Frame
import ReactorWebrtc.Lib.Utf8

namespace ReactorWebrtc

/-- The glue's `stat_str_prefix`: `out` is the buffer, with whatever it has in it. -/
def Glue.statStrPrefix (m : Option Bytes) (out : Bytes) : Bytes :=
  match m with
  | none => out
  | some m =>
    let n := min m.length (out.length - 1)
    m.take n ++ 0 :: out.drop (n + 1)

/-- `stat_str_prefix` of the reader.  A string is its bytes. -/
def statStrPrefix (buf : Bytes) : Option Bytes :=
  let bytes := buf.takeWhile (· ≠ 0)
  let text :=
    match Utf8.fromUtf8 bytes with
    | .ok text => text
    | .error e =>
      match e.errorLen with
      | none => Utf8.fromUtf8Lossy (bytes.take e.validUpTo)
      | some _ => Utf8.fromUtf8Lossy bytes
  if text = [] then none else some text

open Utf8

/-- The buffer keeps its size. -/
theorem length_statStrPrefix {m out : Bytes} (h : 0 < out.length) :
    (Glue.statStrPrefix (some m) out).length = out.length := by
  show (m.take _ ++ 0 :: out.drop _).length = _
  rw [List.length_append, List.length_take, List.length_cons, List.length_drop]
  omega

/-- The reader stops where the glue did. -/
theorem takeWhile_written {m : Bytes} (out : Bytes) (hm : 0 ∉ m) :
    (Glue.statStrPrefix (some m) out).takeWhile (· ≠ 0) = m.take (out.length - 1) := by
  have hkeep : ∀ b ∈ m.take (min m.length (out.length - 1)), decide (b ≠ 0) = true := by
    intro b hb
    refine decide_eq_true ?_
    rintro rfl
    exact hm (List.mem_of_mem_take hb)
  show (m.take (min m.length (out.length - 1)) ++ 0 :: out.drop _).takeWhile _ = _
  rw [List.takeWhile_append_of_pos hkeep, List.takeWhile_cons_of_neg (by decide), List.append_nil]
  rcases Nat.le_total m.length (out.length - 1) with hall | hcut
  · rw [Nat.min_eq_left hall, List.take_of_length_le (Nat.le_refl _), List.take_of_length_le hall]
  · rw [Nat.min_eq_right hcut]

/-- Reading the bytes of a text and the beginning of a character. -/
theorem statStrPrefix_cut {p : List Char} {xs buf : Bytes} (hxs : Cut xs)
    (hbytes : buf.takeWhile (· ≠ 0) = encode p ++ xs) :
    statStrPrefix buf = if p = [] then none else some (encode p) := by
  have hempty : encode p = [] ↔ p = [] := by
    rw [← encode_nil]
    exact encode_injective.eq_iff
  unfold statStrPrefix
  dsimp only
  rw [hbytes]
  by_cases hne : xs = []
  · rw [hne, List.append_nil, fromUtf8_encode]
    simp only [hempty]
  · rw [fromUtf8_cut p hxs hne]
    simp only [List.take_left, lossy_encode, hempty]

/--
**A cut name stays a clean prefix.**  The glue stays inside the buffer, and what is read is the
longest prefix of the text that the buffer holds, nothing where that is empty.  Whatever text
its bytes are is a prefix of the one that was written, so no replacement character comes in.
-/
theorem name_cut_clean (s : List Char) (hnul : ∀ c ∈ s, c.toNat ≠ 0) (out : Bytes)
    (hout : 0 < out.length) :
    (Glue.statStrPrefix (some (encode s)) out).length = out.length ∧
    ∃ p, Fits (out.length - 1) s p ∧
      statStrPrefix (Glue.statStrPrefix (some (encode s)) out) =
        (if p = [] then none else some (encode p)) ∧
      ∀ t, statStrPrefix (Glue.statStrPrefix (some (encode s)) out) = some (encode t) →
        t <+: s ∧ ('\uFFFD' ∈ t → '\uFFFD' ∈ s) := by
  obtain ⟨p, xs, htake, hfits, hcut⟩ := take_encode s (out.length - 1)
  have hbytes := takeWhile_written out (zero_not_mem_encode hnul)
  have hread := statStrPrefix_cut hcut (hbytes.trans htake)
  refine ⟨length_statStrPrefix hout, p, hfits, hread, fun t ht => ?_⟩
  have hstart : t <+: s := by
    rw [hread] at ht
    split at ht
    · cases ht
    · obtain rfl := encode_injective (Option.some.inj ht)
      exact hfits.isPrefix
  exact ⟨hstart, fun hmem => hstart.subset hmem⟩

/-- A buffer of five bytes cuts the last character. -/
theorem name_cut_clean_split :
    (Glue.statStrPrefix (some (encode ['a', 'b', 'c', 'é'])) [1, 2, 3, 4, 5]).length = 5 ∧
    ∃ p, Fits 4 ['a', 'b', 'c', 'é'] p ∧
      statStrPrefix (Glue.statStrPrefix (some (encode ['a', 'b', 'c', 'é'])) [1, 2, 3, 4, 5]) =
        (if p = [] then none else some (encode p)) ∧
      ∀ t, statStrPrefix (Glue.statStrPrefix (some (encode ['a', 'b', 'c', 'é']))
          [1, 2, 3, 4, 5]) = some (encode t) →
        t <+: ['a', 'b', 'c', 'é'] ∧ ('\uFFFD' ∈ t → '\uFFFD' ∈ ['a', 'b', 'c', 'é']) :=
  name_cut_clean ['a', 'b', 'c', 'é'] (by simp) [1, 2, 3, 4, 5] (by decide)

end ReactorWebrtc
