/-
`strtoll` in base 10, and the numbers it reads.

It skips white space, takes a sign if there is one and as many digits as follow, and keeps
what the number comes to within 64 bits.  A `Number` is a text it reads: its white space, its
sign and its digits.  `strtoll_text` and `strtoll_sound` say that these are all, and
`Number.text_append_inj` that a text begins with one of them at most, where no digit follows
it.

There are more texts than one for a number: white space may stand before it, a sign that
says nothing, and zeros.  So what is read back is a `Number` and not its value, and
`Number.print` is the one a program writes.
-/
import Mathlib.Algebra.Order.Ring.Nat
import Mathlib.Data.List.TakeWhile
import ReactorWebrtc.Lib.Text

namespace Text

/-- `isspace` -/
def isSpace (c : Char) : Bool := c.toNat = 32 || (9 ≤ c.toNat && c.toNat ≤ 13)

/-- A sign, if there is one, and what is left. -/
def takeSign : Text → Text × Text
  | [] => ([], [])
  | c :: s => if c = '+' ∨ c = '-' then ([c], s) else ([], c :: s)

/-- `LLONG_MIN` or `LLONG_MAX` in place of what is beyond. -/
def clamp (n : Int) : Int := max (-2 ^ 63) (min n (2 ^ 63 - 1))

def signed (sign digits : Text) : Int :=
  let n := Nat.ofDigitChars 10 digits 0
  if sign = ['-'] then -n else n

/-- The number, and the text from `end` on; `none` where `end` is the text itself. -/
def strtoll (s : Text) : Option (Int × Text) :=
  let (sign, s) := takeSign (s.dropWhile isSpace)
  let digits := s.takeWhile Char.isDigit
  if digits = [] then none
  else some (clamp (signed sign digits), s.dropWhile Char.isDigit)

/-- A text that is read as a number. -/
structure Number where
  space : Text
  sign : Text
  digits : Text
  space_isSpace : ∀ c ∈ space, isSpace c = true
  sign_isSign : sign = [] ∨ sign = ['+'] ∨ sign = ['-']
  digits_ne : digits ≠ []
  digits_isDigit : ∀ c ∈ digits, c.isDigit = true

namespace Number

def text (x : Number) : Text := x.space ++ (x.sign ++ x.digits)

/-- What it stands for, of any size. -/
def value (x : Number) : Int := signed x.sign x.digits

end Number

/-- No digit goes on where a number ends. -/
def Ends (rest : Text) : Prop := ∀ c, rest.head? = some c → c.isDigit = false

theorem takeWhile_append {p : Char → Bool} {s rest : Text} (hs : ∀ c ∈ s, p c = true)
    (hrest : ∀ c, rest.head? = some c → p c = false) :
    (s ++ rest).takeWhile p = s ∧ (s ++ rest).dropWhile p = rest := by
  rw [List.takeWhile_append_of_pos hs, List.dropWhile_append_of_pos hs]
  cases rest with
  | nil => exact ⟨List.append_nil s, rfl⟩
  | cons c rest =>
      have hc : ¬ p c = true := Bool.not_eq_true _ ▸ hrest c rfl
      rw [List.takeWhile_cons_of_neg hc, List.dropWhile_cons_of_neg hc, List.append_nil]
      exact ⟨rfl, rfl⟩

/-- A digit is neither white space nor a sign. -/
theorem not_isSpace_of_isDigit {c : Char} (h : c.isDigit = true) :
    isSpace c = false ∧ ¬ (c = '+' ∨ c = '-') := by
  have hrange := isDigit_toNat h
  constructor
  · unfold isSpace
    simp only [Bool.or_eq_false_iff, Bool.and_eq_false_iff, decide_eq_false_iff_not]
    omega
  · rintro (rfl | rfl)
    · exact absurd hrange.1 (by decide)
    · exact absurd hrange.1 (by decide)

namespace Number

/-- White space, sign and digits are found where they are. -/
theorem parts (x : Number) {rest : Text} (hrest : Ends rest) :
    (x.text ++ rest).takeWhile isSpace = x.space ∧
      takeSign ((x.text ++ rest).dropWhile isSpace) = (x.sign, x.digits ++ rest) ∧
      (x.digits ++ rest).takeWhile Char.isDigit = x.digits ∧
      (x.digits ++ rest).dropWhile Char.isDigit = rest := by
  obtain ⟨d, digits, hdigits⟩ := List.exists_cons_of_ne_nil x.digits_ne
  have hd := not_isSpace_of_isDigit
    (x.digits_isDigit d (by rw [hdigits]; exact List.mem_cons_self))
  have htext : x.text ++ rest = x.space ++ (x.sign ++ (x.digits ++ rest)) := by
    rw [text, List.append_assoc, List.append_assoc]
  have hafter : ∀ c, (x.sign ++ (x.digits ++ rest)).head? = some c → isSpace c = false := by
    intro c hc
    rcases x.sign_isSign with hsign | hsign | hsign
    · rw [hsign, hdigits] at hc
      obtain rfl := Option.some.inj hc
      exact hd.1
    · rw [hsign] at hc
      obtain rfl := Option.some.inj hc
      decide
    · rw [hsign] at hc
      obtain rfl := Option.some.inj hc
      decide
  obtain ⟨hspace, hdrop⟩ := takeWhile_append x.space_isSpace hafter
  rw [htext, hspace, hdrop]
  refine ⟨rfl, ?_, takeWhile_append x.digits_isDigit hrest⟩
  rcases x.sign_isSign with hsign | hsign | hsign
  · rw [hsign, hdigits]
    exact if_neg hd.2
  · rw [hsign]
    rfl
  · rw [hsign]
    rfl

/-- A text begins with one number at most. -/
theorem text_append_inj {x y : Number} {rest rest' : Text} (hrest : Ends rest)
    (hrest' : Ends rest') (h : x.text ++ rest = y.text ++ rest') : x = y ∧ rest = rest' := by
  obtain ⟨hspace, hsign, hdigits, hend⟩ := x.parts hrest
  obtain ⟨hspace', hsign', hdigits', hend'⟩ := y.parts hrest'
  rw [h] at hspace hsign
  obtain ⟨hs, hd⟩ := Prod.mk.inj (hsign.symm.trans hsign')
  rw [hd] at hdigits hend
  obtain ⟨xspace, xsign, xdigits, _, _, _, _⟩ := x
  obtain ⟨yspace, ysign, ydigits, _, _, _, _⟩ := y
  obtain rfl : xspace = yspace := hspace.symm.trans hspace'
  obtain rfl : xsign = ysign := hs
  obtain rfl : xdigits = ydigits := hdigits.symm.trans hdigits'
  exact ⟨rfl, hend.symm.trans hend'⟩

end Number

theorem takeSign_eq {s sign after : Text} (h : takeSign s = (sign, after)) :
    s = sign ++ after ∧ (sign = [] ∨ sign = ['+'] ∨ sign = ['-']) := by
  cases s with
  | nil =>
      obtain ⟨rfl, rfl⟩ := Prod.mk.inj h
      exact ⟨rfl, .inl rfl⟩
  | cons c s =>
      by_cases hc : c = '+' ∨ c = '-'
      · rw [takeSign, if_pos hc] at h
        obtain ⟨rfl, rfl⟩ := Prod.mk.inj h
        exact ⟨rfl, .inr (hc.imp (by rintro rfl; rfl) (by rintro rfl; rfl))⟩
      · rw [takeSign, if_neg hc] at h
        obtain ⟨rfl, rfl⟩ := Prod.mk.inj h
        exact ⟨rfl, .inl rfl⟩

/-- A number is read, up to where it ends. -/
theorem strtoll_text (x : Number) {rest : Text} (hrest : Ends rest) :
    strtoll (x.text ++ rest) = some (clamp x.value, rest) := by
  obtain ⟨-, hsign, hdigits, hend⟩ := x.parts hrest
  unfold strtoll
  rw [hsign]
  dsimp only
  rw [hdigits, if_neg x.digits_ne, hend]
  rfl

/-- What is read is a number. -/
theorem strtoll_sound {s rest : Text} {v : Int} (h : strtoll s = some (v, rest)) :
    ∃ x : Number, s = x.text ++ rest ∧ v = clamp x.value ∧ Ends rest := by
  unfold strtoll at h
  cases hsign : takeSign (s.dropWhile isSpace) with
  | mk sign after =>
      rw [hsign] at h
      dsimp only at h
      obtain ⟨hafter, hisSign⟩ := takeSign_eq hsign
      by_cases hdigits : after.takeWhile Char.isDigit = []
      · rw [if_pos hdigits] at h
        cases h
      · rw [if_neg hdigits] at h
        obtain ⟨rfl, rfl⟩ := Prod.mk.inj (Option.some.inj h)
        refine ⟨⟨s.takeWhile isSpace, sign, after.takeWhile Char.isDigit,
          fun c => List.mem_takeWhile_imp, hisSign, hdigits, fun c => List.mem_takeWhile_imp⟩,
          ?_, rfl, fun c hc => ?_⟩
        · show s = s.takeWhile isSpace ++ (sign ++ after.takeWhile Char.isDigit)
            ++ after.dropWhile Char.isDigit
          rw [List.append_assoc, List.append_assoc, List.takeWhile_append_dropWhile, ← hafter,
            List.takeWhile_append_dropWhile]
        · have hstop := List.head?_dropWhile_not Char.isDigit after
          rw [hc] at hstop
          simpa using hstop

/-! ### Printed numbers

A program writes a number without space or spare digits, and with a sign only if it is
negative.
-/

/-- A number as it is printed. -/
def Number.print (n : Int) : Number where
  space := []
  sign := if n < 0 then ['-'] else []
  digits := Nat.toDigits 10 n.natAbs
  space_isSpace _ h := absurd h List.not_mem_nil
  sign_isSign := by
    by_cases h : n < 0
    · exact .inr (.inr (if_pos h))
    · exact .inl (if_neg h)
  digits_ne := Nat.toDigits_ne_nil
  digits_isDigit _ h := isDigit_of_mem_toDigits h

@[simp] theorem Number.value_print (n : Int) : (print n).value = n := by
  show signed (if n < 0 then ['-'] else []) (Nat.toDigits 10 n.natAbs) = n
  unfold signed
  rw [Nat.ofDigitChars_ten_toDigits]
  by_cases h : n < 0
  · rw [if_pos h, if_pos rfl]
    omega
  · rw [if_neg h, if_neg (List.cons_ne_nil _ _).symm]
    omega

end Text
