/-
Reading bytes as UTF-8.

`readChar` looks at one character: a first byte says what the bytes after it have to be
(`tests`), and what is wrong with a character is how many of its bytes were right, or that
the bytes end inside it.  `fromUtf8` goes from character to character and stops at the first
that is wrong, `fromUtf8Lossy` puts a replacement character in its place and goes on.

Both leave what `encode` writes as it is.  Where such bytes are cut at any length, what
remains is the longest prefix of the text that fits and the beginning of one more character
(`take_encode`), and that is the one error `fromUtf8` reports without a length.
-/
import Mathlib.Data.List.Forall2
import Mathlib.Data.List.Infix

namespace Utf8

/-- The bytes of a text. -/
def encode (s : List Char) : List UInt8 := s.flatMap String.utf8EncodeChar

/-- Where bytes stop being UTF-8, and how long what is wrong there is; `none` where they end
inside a character. -/
structure Utf8Error where
  validUpTo : Nat
  errorLen : Option Nat
  deriving DecidableEq, Repr

/-- How many bytes a character with this first byte has; none begins with the others. -/
def charWidth (b : UInt8) : Nat :=
  if b < 0x80 then 1
  else if 0xC2 ≤ b ∧ b ≤ 0xDF then 2
  else if 0xE0 ≤ b ∧ b ≤ 0xEF then 3
  else if 0xF0 ≤ b ∧ b ≤ 0xF4 then 4
  else 0

def isContinuation (b : UInt8) : Bool := 0x80 ≤ b ∧ b ≤ 0xBF

/-- The second byte of three: no overlong form, and no surrogate. -/
def secondOfThree (a b : UInt8) : Bool :=
  a = 0xE0 ∧ 0xA0 ≤ b ∧ b ≤ 0xBF ∨ 0xE1 ≤ a ∧ a ≤ 0xEC ∧ 0x80 ≤ b ∧ b ≤ 0xBF ∨
    a = 0xED ∧ 0x80 ≤ b ∧ b ≤ 0x9F ∨ 0xEE ≤ a ∧ a ≤ 0xEF ∧ 0x80 ≤ b ∧ b ≤ 0xBF

/-- The second byte of four: no overlong form, and nothing past the last code point. -/
def secondOfFour (a b : UInt8) : Bool :=
  a = 0xF0 ∧ 0x90 ≤ b ∧ b ≤ 0xBF ∨ 0xF1 ≤ a ∧ a ≤ 0xF3 ∧ 0x80 ≤ b ∧ b ≤ 0xBF ∨
    a = 0xF4 ∧ 0x80 ≤ b ∧ b ≤ 0x8F

/-- What the bytes after a first byte have to be. -/
def tests (first : UInt8) : Option (List (UInt8 → Bool)) :=
  match charWidth first with
  | 1 => some []
  | 2 => some [isContinuation]
  | 3 => some [secondOfThree first, isContinuation]
  | 4 => some [secondOfFour first, isContinuation, isContinuation]
  | _ => none

/-- The bytes after the first one, of which `n` are right so far. -/
def readRest : List (UInt8 → Bool) → Nat → List UInt8 → Except (Option Nat) Nat
  | [], n, _ => .ok n
  | _ :: _, _, [] => .error none
  | test :: tests, n, b :: rest => if test b then readRest tests (n + 1) rest else .error (some n)

/-- How many bytes the character here has, or how long what is wrong with it is. -/
def readChar (first : UInt8) (rest : List UInt8) : Except (Option Nat) Nat :=
  match tests first with
  | some tests => readRest tests 1 rest
  | none => .error (some 1)

/-- Go on after the `skip` bytes that belong to the character before. -/
def validate : Nat → Nat → List UInt8 → Except Utf8Error Unit
  | _, _, [] => .ok ()
  | index, skip + 1, _ :: rest => validate (index + 1) skip rest
  | index, 0, first :: rest =>
    match readChar first rest with
    | .ok n => validate (index + 1) (n - 1) rest
    | .error errorLen => .error { validUpTo := index, errorLen }

/-- `str::from_utf8` -/
def fromUtf8 (bytes : List UInt8) : Except Utf8Error (List UInt8) :=
  match validate 0 0 bytes with
  | .ok () => .ok bytes
  | .error e => .error e

/-- The bytes of U+FFFD. -/
def replacement : List UInt8 := [0xEF, 0xBF, 0xBD]

def lossy : Nat → List UInt8 → List UInt8
  | _, [] => []
  | skip + 1, _ :: rest => lossy skip rest
  | 0, first :: rest =>
    match readChar first rest with
    | .ok n => (first :: rest).take n ++ lossy (n - 1) rest
    | .error (some n) => replacement ++ lossy (n - 1) rest
    | .error none => replacement

/-- `String::from_utf8_lossy` -/
def fromUtf8Lossy (bytes : List UInt8) : List UInt8 := lossy 0 bytes

@[simp] theorem encode_nil : encode [] = [] := rfl

@[simp] theorem encode_cons (c : Char) (s : List Char) :
    encode (c :: s) = String.utf8EncodeChar c ++ encode s := List.flatMap_cons

@[simp] theorem encode_append (s t : List Char) : encode (s ++ t) = encode s ++ encode t :=
  List.flatMap_append

/-! ### One character

The first byte settles how many follow and in which ranges they lie, and the four widths
have their own ranges.  So the tests are read off the first byte once, and a character's own
bytes meet them by arithmetic.
-/

theorem toNat_ofNat {n : Nat} (h : n < 256) : (UInt8.ofNat n).toNat = n :=
  UInt8.toNat_ofNat_of_lt' h

theorem isContinuation_of {b : UInt8} (h : 0x80 ≤ b.toNat ∧ b.toNat ≤ 0xBF) :
    isContinuation b = true := decide_eq_true h

theorem charWidth_eq (b : UInt8) : charWidth b =
    if b.toNat < 0x80 then 1
    else if 0xC2 ≤ b.toNat ∧ b.toNat ≤ 0xDF then 2
    else if 0xE0 ≤ b.toNat ∧ b.toNat ≤ 0xEF then 3
    else if 0xF0 ≤ b.toNat ∧ b.toNat ≤ 0xF4 then 4
    else 0 := rfl

theorem tests_one {b : UInt8} (h : b.toNat < 0x80) : tests b = some [] := by
  have hwidth : charWidth b = 1 := by rw [charWidth_eq, if_pos h]
  rw [tests, hwidth]
  rfl

theorem tests_two {b : UInt8} (h : 0xC2 ≤ b.toNat ∧ b.toNat ≤ 0xDF) :
    tests b = some [isContinuation] := by
  have hwidth : charWidth b = 2 := by rw [charWidth_eq, if_neg (by omega), if_pos h]
  rw [tests, hwidth]
  rfl

theorem tests_three {b : UInt8} (h : 0xE0 ≤ b.toNat ∧ b.toNat ≤ 0xEF) :
    tests b = some [secondOfThree b, isContinuation] := by
  have hwidth : charWidth b = 3 := by
    rw [charWidth_eq, if_neg (by omega), if_neg (by omega), if_pos h]
  rw [tests, hwidth]
  rfl

theorem tests_four {b : UInt8} (h : 0xF0 ≤ b.toNat ∧ b.toNat ≤ 0xF4) :
    tests b = some [secondOfFour b, isContinuation, isContinuation] := by
  have hwidth : charWidth b = 4 := by
    rw [charWidth_eq, if_neg (by omega), if_neg (by omega), if_neg (by omega), if_pos h]
  rw [tests, hwidth]
  rfl

theorem secondOfThree_of {a b : UInt8} (h : a.toNat = 0xE0 ∧ 0xA0 ≤ b.toNat ∧ b.toNat ≤ 0xBF ∨
    0xE1 ≤ a.toNat ∧ a.toNat ≤ 0xEC ∧ 0x80 ≤ b.toNat ∧ b.toNat ≤ 0xBF ∨
    a.toNat = 0xED ∧ 0x80 ≤ b.toNat ∧ b.toNat ≤ 0x9F ∨
    0xEE ≤ a.toNat ∧ a.toNat ≤ 0xEF ∧ 0x80 ≤ b.toNat ∧ b.toNat ≤ 0xBF) :
    secondOfThree a b = true := by
  have hfirst : ∀ n : UInt8, a.toNat = n.toNat → a = n := fun n => UInt8.toNat_inj.mp
  refine decide_eq_true ?_
  exact h.imp (And.imp_left (hfirst 0xE0)) (Or.imp_right (Or.imp_left (And.imp_left (hfirst 0xED))))

theorem secondOfFour_of {a b : UInt8} (h : a.toNat = 0xF0 ∧ 0x90 ≤ b.toNat ∧ b.toNat ≤ 0xBF ∨
    0xF1 ≤ a.toNat ∧ a.toNat ≤ 0xF3 ∧ 0x80 ≤ b.toNat ∧ b.toNat ≤ 0xBF ∨
    a.toNat = 0xF4 ∧ 0x80 ≤ b.toNat ∧ b.toNat ≤ 0x8F) :
    secondOfFour a b = true := by
  have hfirst : ∀ n : UInt8, a.toNat = n.toNat → a = n := fun n => UInt8.toNat_inj.mp
  refine decide_eq_true ?_
  exact h.imp (And.imp_left (hfirst 0xF0)) (Or.imp_right (And.imp_left (hfirst 0xF4)))

/-- The bytes of a character pass the tests of its first one. -/
theorem encodeChar_tests (c : Char) : ∃ first rest ts, String.utf8EncodeChar c = first :: rest ∧
    tests first = some ts ∧ List.Forall₂ (fun test b => test b = true) ts rest := by
  have hvalid : c.val.toNat < 0xD800 ∨ 0xDFFF < c.val.toNat ∧ c.val.toNat < 0x110000 := c.valid
  unfold String.utf8EncodeChar
  dsimp only
  generalize c.val.toNat = v at hvalid
  split
  · exact ⟨_, _, _, rfl, tests_one (by rw [toNat_ofNat] <;> omega), .nil⟩
  · split
    · refine ⟨_, _, _, rfl, tests_two (by rw [toNat_ofNat] <;> omega),
        .cons (isContinuation_of ?_) .nil⟩
      rw [toNat_ofNat] <;> omega
    · split
      · refine ⟨_, _, _, rfl, tests_three (by rw [toNat_ofNat] <;> omega),
          .cons (secondOfThree_of ?_) (.cons (isContinuation_of ?_) .nil)⟩
        · rw [toNat_ofNat (by omega), toNat_ofNat (by omega)]
          omega
        · rw [toNat_ofNat] <;> omega
      · refine ⟨_, _, _, rfl, tests_four (by rw [toNat_ofNat] <;> omega),
          .cons (secondOfFour_of ?_)
            (.cons (isContinuation_of ?_) (.cons (isContinuation_of ?_) .nil))⟩
        · rw [toNat_ofNat (by omega), toNat_ofNat (by omega)]
          omega
        · rw [toNat_ofNat] <;> omega
        · rw [toNat_ofNat] <;> omega

theorem ofNat_eq_zero {n : Nat} (h : n < 256) (hzero : 0 = UInt8.ofNat n) : n = 0 := by
  rw [← toNat_ofNat h, ← hzero]
  rfl

/-- Only NUL has a byte that is zero. -/
theorem zero_mem_encodeChar {c : Char} (h : 0 ∈ String.utf8EncodeChar c) : c.toNat = 0 := by
  have hvalid : c.val.toNat < 0xD800 ∨ 0xDFFF < c.val.toNat ∧ c.val.toNat < 0x110000 := c.valid
  show c.val.toNat = 0
  unfold String.utf8EncodeChar at h
  dsimp only at h
  generalize c.val.toNat = v at hvalid h
  split at h
  · exact ofNat_eq_zero (by omega) (List.mem_singleton.mp h)
  · exfalso
    split at h
    · simp only [List.mem_cons, List.not_mem_nil, or_false] at h
      rcases h with h | h
      all_goals
        have := ofNat_eq_zero (by omega) h
        omega
    · split at h
      all_goals
        simp only [List.mem_cons, List.not_mem_nil, or_false] at h
      · rcases h with h | h | h
        all_goals
          have := ofNat_eq_zero (by omega) h
          omega
      · rcases h with h | h | h | h
        all_goals
          have := ofNat_eq_zero (by omega) h
          omega

theorem zero_not_mem_encode {s : List Char} (h : ∀ c ∈ s, c.toNat ≠ 0) : 0 ∉ encode s := by
  intro hmem
  obtain ⟨c, hc, hzero⟩ := List.mem_flatMap.mp hmem
  exact h c hc (zero_mem_encodeChar hzero)

variable {ts : List (UInt8 → Bool)} {rest : List UInt8}

theorem readRest_append (h : List.Forall₂ (fun test b => test b = true) ts rest) (n : Nat)
    (more : List UInt8) : readRest ts n (rest ++ more) = .ok (n + rest.length) := by
  induction h generalizing n with
  | nil => rfl
  | cons hb _ ih =>
      rw [List.cons_append, readRest, if_pos hb, ih, List.length_cons, Nat.add_right_comm,
        Nat.add_assoc]

/-- Bytes that end inside a character. -/
theorem readRest_cut {xs ys : List UInt8} (hys : ys ≠ [])
    (h : List.Forall₂ (fun test b => test b = true) ts (xs ++ ys)) (n : Nat) :
    readRest ts n xs = .error none := by
  induction xs generalizing ts n with
  | nil =>
      cases h with
      | nil => exact absurd rfl hys
      | cons => rfl
  | cons x xs ih =>
      cases h with
      | cons hx hrest => rw [readRest, if_pos hx, ih hrest]

/-! ### One character after another -/

theorem validate_skip (index : Nat) (xs rest : List UInt8) :
    validate index xs.length (xs ++ rest) = validate (index + xs.length) 0 rest := by
  induction xs generalizing index with
  | nil => rfl
  | cons x xs ih =>
      rw [List.cons_append, List.length_cons, validate, ih, Nat.add_right_comm, Nat.add_assoc]

theorem lossy_skip (xs rest : List UInt8) : lossy xs.length (xs ++ rest) = lossy 0 rest := by
  induction xs with
  | nil => rfl
  | cons x xs ih => rw [List.cons_append, List.length_cons, lossy, ih]

theorem readChar_encodeChar (c : Char) : ∃ first others, String.utf8EncodeChar c = first :: others ∧
    ∀ rest, readChar first (others ++ rest) = .ok (1 + others.length) := by
  obtain ⟨first, others, ts, hchar, htests, hpass⟩ := encodeChar_tests c
  refine ⟨first, others, hchar, fun rest => ?_⟩
  rw [readChar, htests]
  exact readRest_append hpass 1 rest

theorem validate_encode (s : List Char) (index : Nat) (rest : List UInt8) :
    validate index 0 (encode s ++ rest) = validate (index + (encode s).length) 0 rest := by
  induction s generalizing index with
  | nil => rfl
  | cons c s ih =>
      obtain ⟨first, others, hchar, hread⟩ := readChar_encodeChar c
      rw [encode_cons, hchar, List.append_assoc, List.cons_append, validate, hread]
      show validate (index + 1) (1 + others.length - 1) _ = _
      rw [Nat.add_sub_cancel_left, validate_skip, ih]
      congr 1
      simp only [List.length_append, List.length_cons]
      omega

/-- What was written is read back. -/
theorem fromUtf8_encode (s : List Char) : fromUtf8 (encode s) = .ok (encode s) := by
  have h := validate_encode s 0 []
  rw [List.append_nil] at h
  rw [fromUtf8, h]
  rfl

theorem lossy_encode (s : List Char) : fromUtf8Lossy (encode s) = encode s := by
  unfold fromUtf8Lossy
  induction s with
  | nil => rfl
  | cons c s ih =>
      obtain ⟨first, others, hchar, hread⟩ := readChar_encodeChar c
      rw [encode_cons, hchar, List.cons_append, lossy, hread]
      show (first :: (others ++ encode s)).take (1 + others.length) ++
        lossy (1 + others.length - 1) (others ++ encode s) = _
      rw [Nat.add_sub_cancel_left, lossy_skip, ih, Nat.add_comm, List.take_succ_cons,
        List.take_left]
      rfl

/-! ### Bytes cut short

A buffer that is too short cuts a text anywhere, also inside a character.  What is left over
then begins like a character and ends before it does, which is told apart from bytes that no
character begins with.
-/

/-- The beginning of a character, not all of it. -/
def Cut (xs : List UInt8) : Prop := ∃ c ys, ys ≠ [] ∧ String.utf8EncodeChar c = xs ++ ys

/-- The longest prefix of a text that this many bytes hold. -/
structure Fits (n : Nat) (s p : List Char) : Prop where
  isPrefix : p <+: s
  fits : (encode p).length ≤ n
  longest : ∀ q, q <+: s → (encode q).length ≤ n → q <+: p

/-- A cut character is the error without a length. -/
theorem fromUtf8_cut (s : List Char) {xs : List UInt8} (hxs : Cut xs) (hne : xs ≠ []) :
    fromUtf8 (encode s ++ xs) =
      .error { validUpTo := (encode s).length, errorLen := none } := by
  obtain ⟨c, ys, hys, hcut⟩ := hxs
  obtain ⟨first, rest, ts, hchar, htests, hpass⟩ := encodeChar_tests c
  cases xs with
  | nil => exact absurd rfl hne
  | cons x xs =>
      obtain ⟨rfl, hrest⟩ := List.cons.inj (hchar.symm.trans hcut)
      rw [hrest] at hpass
      have hread : readChar first xs = .error none := by
        rw [readChar, htests]
        exact readRest_cut hys hpass 1
      rw [fromUtf8, validate_encode, validate, hread, Nat.zero_add]

/-- A text's bytes cut at any length: the longest prefix that fits, and the beginning of the
character after it. -/
theorem take_encode (s : List Char) (n : Nat) :
    ∃ p xs, (encode s).take n = encode p ++ xs ∧ Fits n s p ∧ Cut xs := by
  induction s generalizing n with
  | nil =>
      refine ⟨[], [], ?_, ⟨List.nil_prefix, Nat.zero_le n, fun q hq _ => hq⟩, 'a', [97], ?_, rfl⟩
      · exact List.take_nil
      · exact List.cons_ne_nil _ _
  | cons c s ih =>
      by_cases hroom : (String.utf8EncodeChar c).length ≤ n
      · obtain ⟨p, xs, htake, hfits, hcut⟩ := ih (n - (String.utf8EncodeChar c).length)
        refine ⟨c :: p, xs, ?_, ⟨?_, ?_, fun q hq hlength => ?_⟩, hcut⟩
        · rw [encode_cons, encode_cons, List.append_assoc, ← htake, List.take_append,
            List.take_of_length_le hroom]
        · exact List.cons_prefix_cons.mpr ⟨rfl, hfits.isPrefix⟩
        · have hp := hfits.fits
          rw [encode_cons, List.length_append]
          omega
        · cases q with
          | nil => exact List.nil_prefix
          | cons d q =>
              obtain ⟨rfl, hrest⟩ := List.cons_prefix_cons.mp hq
              rw [encode_cons, List.length_append] at hlength
              exact List.cons_prefix_cons.mpr ⟨rfl, hfits.longest q hrest (by omega)⟩
      · refine ⟨[], (String.utf8EncodeChar c).take n, ?_,
          ⟨List.nil_prefix, Nat.zero_le n, fun q hq hlength => ?_⟩, c,
          (String.utf8EncodeChar c).drop n, ?_, (List.take_append_drop n _).symm⟩
        · rw [encode_cons, List.take_append_of_le_length (by omega)]
          rfl
        · cases q with
          | nil => exact List.nil_prefix
          | cons d q =>
              obtain ⟨rfl, -⟩ := List.cons_prefix_cons.mp hq
              rw [encode_cons, List.length_append] at hlength
              omega
        · intro hnil
          have hall := List.drop_eq_nil_iff.mp hnil
          exact hroom hall

/-- Two texts with the same bytes are one. -/
theorem encode_injective : Function.Injective encode := by
  intro s t h
  refine String.ofList_injective ?_
  rw [← String.toByteArray_inj, String.toByteArray_ofList, String.toByteArray_ofList]
  exact congrArg List.toByteArray h

end Utf8
