/-
Text as a list of characters, and the handful of `str` methods a line-oriented
format is written with.

`lines` splits the way `str::lines` does: at line feeds, one carriage return before
a line feed dropped with it, no line after a final line feed.  `unlines` is what such
a format writes, every line ended by CR LF, and `lines_unlines` is the round trip:
lines without a line feed in them come back exactly as they were, a trailing carriage
return of their own included.  `parseUnsigned` reads an unsigned integer of a given
width, and reads back what `Nat.toDigits` prints.

Characters are those of the language's own `char`, so positions and lengths count
characters; where the source counts bytes, that is `utf8Len`.
-/
import Mathlib.Algebra.Order.Ring.Nat
import Mathlib.Data.List.DropRight
import Mathlib.Data.List.Basic

/-- A text, character by character. -/
abbrev Text := List Char

namespace Text

/-- The lines of a text, without their endings. -/
def lines : Text → List Text
  | [] => []
  | '\n' :: rest => [] :: lines rest
  | '\r' :: '\n' :: rest => [] :: lines rest
  | c :: rest =>
    match lines rest with
    | [] => [[c]]
    | l :: ls => (c :: l) :: ls

def crlf : Text := ['\r', '\n']

/-- Every line followed by CR LF. -/
def unlines (ls : List Text) : Text := ls.flatMap (· ++ crlf)

@[simp] theorem unlines_nil : unlines [] = [] := rfl

@[simp] theorem unlines_cons (l : Text) (ls : List Text) :
    unlines (l :: ls) = l ++ crlf ++ unlines ls := by simp [unlines]

/-! ### Lines in, lines out -/

/-- A character that ends no line belongs to the first line of what follows. -/
theorem lines_cons {c : Char} {rest : Text} (hc : c ≠ '\n')
    (hr : c = '\r' → rest.head? ≠ some '\n') :
    lines (c :: rest) = match lines rest with
      | [] => [[c]]
      | l :: ls => (c :: l) :: ls := by
  rw [lines.eq_4 c rest (fun h => hc h)]
  intro tail h hrest
  exact hr h (by rw [hrest]; rfl)

theorem lines_append_crlf {l : Text} (h : '\n' ∉ l) (s : Text) :
    lines (l ++ crlf ++ s) = l :: lines s := by
  induction l with
  | nil => rfl
  | cons c l ih =>
      have hc : c ≠ '\n' := fun hc => h (by simp [hc])
      have hl : '\n' ∉ l := fun hl => h (List.mem_cons_of_mem c hl)
      have hhead : (l ++ crlf ++ s).head? ≠ some '\n' := by
        cases l with
        | nil => simp [crlf]
        | cons d l =>
            intro hd
            have hd' : d = '\n' := by simpa using hd
            exact hl (by simp [hd'])
      rw [List.cons_append, List.cons_append, lines_cons hc (fun _ => hhead), ih hl]

/-- What is written line by line is read line by line. -/
theorem lines_unlines {ls : List Text} (h : ∀ l ∈ ls, '\n' ∉ l) : lines (unlines ls) = ls := by
  induction ls with
  | nil => rfl
  | cons l ls ih =>
      rw [unlines_cons, lines_append_crlf (h l (by simp)), ih fun k hk => h k (by simp [hk])]

/-- No line has a line feed in it. -/
theorem newline_not_mem {s l : Text} (h : l ∈ lines s) : '\n' ∉ l := by
  induction s using lines.induct generalizing l with
  | case1 => simp [lines] at h
  | case2 rest ih =>
      rw [lines] at h
      rcases List.mem_cons.mp h with rfl | h
      · simp
      · exact ih h
  | case3 rest ih =>
      rw [lines] at h
      rcases List.mem_cons.mp h with rfl | h
      · simp
      · exact ih h
  | case4 c rest hc hr hnil ih =>
      rw [lines.eq_4 c rest (fun h => hc h) hr, hnil] at h
      obtain rfl : l = [c] := by simpa using h
      intro hmem
      exact hc (List.mem_singleton.mp hmem).symm
  | case5 c rest hc hr k ks hcons ih =>
      rw [lines.eq_4 c rest (fun h => hc h) hr, hcons] at h
      rcases List.mem_cons.mp h with rfl | h
      · intro hmem
        rcases List.mem_cons.mp hmem with hmem | hmem
        · exact hc hmem.symm
        · exact ih (by rw [hcons]; simp) hmem
      · exact ih (by rw [hcons]; simp [h])

/-- Write a text again, line by line. -/
def mapLines (f : Text → Text) (s : Text) : Text :=
  (lines s).foldl (fun out l => out ++ f l ++ crlf) []

theorem mapLines_eq (f : Text → Text) (s : Text) :
    mapLines f s = unlines ((lines s).map f) := by
  have h : ∀ (ls : List Text) (out : Text),
      ls.foldl (fun out l => out ++ f l ++ crlf) out = out ++ unlines (ls.map f) := by
    intro ls
    induction ls with
    | nil => simp
    | cons l ls ih =>
        intro out
        rw [List.foldl_cons, ih, List.map_cons, unlines_cons]
        simp
  exact h (lines s) []

/-- A rewriting that adds no line feed changes the lines one by one. -/
theorem lines_mapLines {f : Text → Text} (h : ∀ l, '\n' ∉ l → '\n' ∉ f l) (s : Text) :
    lines (mapLines f s) = (lines s).map f := by
  rw [mapLines_eq, lines_unlines]
  intro l hl
  obtain ⟨k, hk, rfl⟩ := List.mem_map.mp hl
  exact h k (newline_not_mem hk)

/-- Only the empty text has no lines. -/
@[simp] theorem lines_eq_nil {s : Text} : lines s = [] ↔ s = [] := by
  constructor
  · intro h
    induction s using lines.induct with
    | case1 => rfl
    | case2 rest ih => simp [lines] at h
    | case3 rest ih => simp [lines] at h
    | case4 c rest hc hr hnil ih =>
        rw [lines.eq_4 c rest (fun h => hc h) hr, hnil] at h
        cases h
    | case5 c rest hc hr k ks hcons ih =>
        rw [lines.eq_4 c rest (fun h => hc h) hr, hcons] at h
        cases h
  · rintro rfl
    rfl

/-! ### Prefixes, spaces and separators

A format that is read by prefix and separator is unambiguous where no text can begin with
both of two prefixes (`Apart`), and where what stands before a separator has none in it.
-/

/-- `str::strip_prefix`. -/
def stripPrefix (pre s : Text) : Option Text :=
  if pre.isPrefixOf s then some (s.drop pre.length) else none

@[simp] theorem stripPrefix_append (pre s : Text) : stripPrefix pre (pre ++ s) = some s := by
  simp [stripPrefix]

theorem stripPrefix_eq_none {pre s : Text} (h : pre.isPrefixOf s = false) :
    stripPrefix pre s = none := by
  simp [stripPrefix, h]

/-- `char::is_whitespace`: the Unicode property White_Space. -/
def isWhitespace (c : Char) : Bool :=
  let n := c.toNat
  (9 ≤ n && n ≤ 13) || n == 0x20 || n == 0x85 || n == 0xA0 || n == 0x1680 ||
    (0x2000 ≤ n && n ≤ 0x200A) || n == 0x2028 || n == 0x2029 || n == 0x202F || n == 0x205F ||
    n == 0x3000

/-- `str::trim`. -/
def trim (s : Text) : Text := (s.dropWhile isWhitespace).rdropWhile isWhitespace

/-- `str::trim_end`. -/
def trimEnd (s : Text) : Text := s.rdropWhile isWhitespace

/-- `str::len`, in bytes. -/
def utf8Len (s : Text) : Nat := (s.map Char.utf8Size).sum

/-- `str::split_once` at the first character that satisfies `p`. -/
def splitOnce (p : Char → Bool) (s : Text) : Option (Text × Text) :=
  match s.dropWhile (!p ·) with
  | [] => none
  | _ :: rest => some (s.takeWhile (!p ·), rest)

/-- A text whose ends are not spaces is trimmed already. -/
theorem trim_eq_self {s : Text} (hfirst : ∀ c, s.head? = some c → isWhitespace c = false)
    (hlast : ∀ c, s.getLast? = some c → isWhitespace c = false) : trim s = s := by
  have hdrop : s.dropWhile isWhitespace = s := by
    cases s with
    | nil => rfl
    | cons c s => rw [List.dropWhile_cons_of_neg (by simp [hfirst c rfl])]
  rw [trim, hdrop, List.rdropWhile_eq_self_iff]
  intro hne
  simp [hlast _ (List.getLast?_eq_some_getLast hne)]

theorem trimEnd_eq_self {s : Text} (h : ∀ c ∈ s, isWhitespace c = false) : trimEnd s = s := by
  rw [trimEnd, List.rdropWhile_eq_self_iff]
  intro hne
  simp [h _ (List.getLast_mem hne)]

/-- Neither starts with the other. -/
def Apart (p q : Text) : Prop := p.isPrefixOf q = false ∧ q.isPrefixOf p = false

instance (p q : Text) : Decidable (Apart p q) := inferInstanceAs (Decidable (_ ∧ _))

theorem Apart.symm {p q : Text} (h : Apart p q) : Apart q p := ⟨h.2, h.1⟩

/-- No text starts with both of two that are apart. -/
theorem Apart.not_prefix {p q l : Text} (h : Apart p q) (hp : p.isPrefixOf l = true) :
    q.isPrefixOf l = false := by
  by_contra hq
  have hq : q.isPrefixOf l = true := Bool.eq_true_of_not_eq_false hq
  rw [List.isPrefixOf_iff_prefix] at hp hq
  rcases List.prefix_or_prefix_of_prefix hp hq with hpre | hpre
  · exact absurd (List.isPrefixOf_iff_prefix.mpr hpre) (by simp [h.1])
  · exact absurd (List.isPrefixOf_iff_prefix.mpr hpre) (by simp [h.2])

theorem splitOnce_append {p : Char → Bool} {a b : Text} {x : Char}
    (ha : a.all (!p ·) = true) (hx : p x = true) : splitOnce p (a ++ x :: b) = some (a, b) := by
  have hall : ∀ c ∈ a, (!p c) = true := List.all_eq_true.mp ha
  have hstop : (!p x) = false := by simp [hx]
  rw [splitOnce, List.dropWhile_append_of_pos hall, List.takeWhile_append_of_pos hall,
    List.dropWhile_cons_of_neg (by simp [hstop]), List.takeWhile_cons_of_neg (by simp [hstop]),
    List.append_nil]

/-! ### Unsigned integers -/

/-- `str::parse` for an unsigned integer below `bound`. -/
def parseUnsigned (bound : Nat) (s : Text) : Option Nat :=
  let digits := match s with
    | '+' :: rest => rest
    | _ => s
  if digits.isEmpty || !digits.all Char.isDigit then none
  else
    let n := Nat.ofDigitChars 10 digits 0
    if n < bound then some n else none

theorem isDigit_of_mem_toDigits {n : Nat} {c : Char} (h : c ∈ Nat.toDigits 10 n) :
    c.isDigit = true := Nat.isDigit_of_mem_toDigits (by decide) (by decide) h

/-- A digit has one of ten codes, so it is neither a space nor a separator. -/
theorem isDigit_toNat {c : Char} (h : c.isDigit = true) : 48 ≤ c.toNat ∧ c.toNat ≤ 57 := by
  simpa [Char.isDigit, UInt32.le_iff_toNat_le] using h

theorem isWhitespace_of_isDigit {c : Char} (h : c.isDigit = true) : isWhitespace c = false := by
  obtain ⟨hlo, hhi⟩ := isDigit_toNat h
  simp only [isWhitespace, Bool.or_eq_false_iff, Bool.and_eq_false_iff, decide_eq_false_iff_not,
    beq_eq_false_iff_ne]
  omega

/-- A printed number reads back, when it fits. -/
theorem parseUnsigned_toDigits {bound n : Nat} (h : n < bound) :
    parseUnsigned bound (Nat.toDigits 10 n) = some n := by
  have hne : Nat.toDigits 10 n ≠ [] := Nat.toDigits_ne_nil
  have hall : (Nat.toDigits 10 n).all Char.isDigit = true :=
    List.all_eq_true.mpr fun c hc => isDigit_of_mem_toDigits hc
  have hsign : ∀ rest, Nat.toDigits 10 n ≠ '+' :: rest := by
    intro rest heq
    have hplus : ('+' : Char).isDigit = true := isDigit_of_mem_toDigits (n := n) (by simp [heq])
    exact absurd hplus (by decide)
  unfold parseUnsigned
  split
  · rename_i rest heq
    exact absurd heq (hsign rest)
  · simp [hne, hall, h]

end Text
