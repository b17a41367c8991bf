/-
How the fields of a struct lie in memory.

A field comes after the one before it, at the next offset its alignment allows, and the struct
ends at a multiple of the largest alignment, so that structs follow each other in an array.
That is what C compilers do, and Rust for `repr(C)`.

Two facts are needed of it.

  * No two fields share a byte, in a struct or in an array of them.  So what is written field
    by field is read back field by field (`read_storeAll`).
  * A declaration that grows at its end leaves the fields it had where they were
    (`places_append`), and the struct gets larger unless the new fields fit into the padding
    (`extent_lt_append_iff`).
-/
import Mathlib.Algebra.Order.Ring.Nat
import Mathlib.Data.List.Basic

namespace Layout

/-! ### Offsets -/

/-- The next multiple of `a`. -/
def roundUp (n a : Nat) : Nat := (n + a - 1) / a * a

variable {n a q : Nat}

theorem dvd_roundUp : a ∣ roundUp n a := Nat.dvd_mul_left ..

theorem le_roundUp (ha : 0 < a) : n ≤ roundUp n a := by
  have hmod := Nat.div_add_mod' (n + a - 1) a
  have hlt := Nat.mod_lt (n + a - 1) ha
  unfold roundUp
  omega

/-- It is the least multiple that is large enough. -/
theorem roundUp_le (hq : a ∣ q) (hn : n ≤ q) : roundUp n a ≤ q := by
  obtain ⟨c, rfl⟩ := hq
  unfold roundUp
  rcases Nat.eq_zero_or_pos a with rfl | ha
  · simp
  · have hdiv : (n + a - 1) / a ≤ c := by
      refine Nat.le_of_lt_succ ((Nat.div_lt_iff_lt_mul ha).mpr ?_)
      rw [Nat.succ_mul, Nat.mul_comm c a]
      omega
    rw [Nat.mul_comm a c]
    exact Nat.mul_le_mul_right a hdiv

/-- What a type takes; alignments are powers of two. -/
structure Shape where
  size : Nat
  log : Nat
  deriving DecidableEq, Repr

/-- What a place for it has to be a multiple of. -/
def Shape.align (s : Shape) : Nat := 2 ^ s.log

theorem Shape.align_pos (s : Shape) : 0 < s.align := Nat.two_pow_pos s.log

variable {ν : Type*}

/-- The fields in the order of their declaration. -/
abbrev Decl (ν : Type*) := List (ν × Shape)

/-- A field where it lies. -/
structure Place (ν : Type*) where
  name : ν
  offset : Nat
  shape : Shape
  deriving DecidableEq, Repr

/-- The first byte behind it. -/
def Place.stop (p : Place ν) : Nat := p.offset + p.shape.size

/-- Each field at the next place that is aligned for it. -/
def places : Nat → Decl ν → List (Place ν)
  | _, [] => []
  | start, (name, shape) :: d =>
    ⟨name, roundUp start shape.align, shape⟩ ::
      places (roundUp start shape.align + shape.size) d

/-- Where the last field ends. -/
def finish : Nat → Decl ν → Nat
  | start, [] => start
  | start, (_, shape) :: d => finish (roundUp start shape.align + shape.size) d

/-- The largest alignment. -/
def log : Decl ν → Nat
  | [] => 0
  | (_, shape) :: d => max shape.log (log d)

/-- `sizeof` -/
def extent (d : Decl ν) : Nat := roundUp (finish 0 d) (2 ^ log d)

variable {start : Nat} {d e : Decl ν} {p : Place ν}

theorem le_finish : start ≤ finish start d := by
  induction d generalizing start with
  | nil => exact Nat.le_refl _
  | cons f d ih =>
      have hround : start ≤ roundUp start f.2.align := le_roundUp f.2.align_pos
      have hrest : roundUp start f.2.align + f.2.size ≤ finish _ d := ih
      show start ≤ finish _ d
      omega

theorem places_append (start : Nat) (d e : Decl ν) :
    places start (d ++ e) = places start d ++ places (finish start d) e := by
  induction d generalizing start with
  | nil => rfl
  | cons f d ih => exact congrArg _ (ih _)

theorem finish_append (start : Nat) (d e : Decl ν) :
    finish start (d ++ e) = finish (finish start d) e := by
  induction d generalizing start with
  | nil => rfl
  | cons f d ih => exact ih _

theorem bounds_of_mem (hp : p ∈ places start d) : start ≤ p.offset ∧ p.stop ≤ finish start d := by
  induction d generalizing start with
  | nil => cases hp
  | cons f d ih =>
      have hround : start ≤ roundUp start f.2.align := le_roundUp f.2.align_pos
      rcases List.mem_cons.mp hp with rfl | hp
      · exact ⟨hround, le_finish⟩
      · obtain ⟨hlow, hhigh⟩ := ih hp
        exact ⟨by omega, hhigh⟩

/-- A field begins where the one before it has ended. -/
theorem pairwise_places : (places start d).Pairwise fun p q => p.stop ≤ q.offset := by
  induction d generalizing start with
  | nil => exact .nil
  | cons f d ih => exact List.pairwise_cons.mpr ⟨fun q hq => (bounds_of_mem hq).1, ih⟩

theorem dvd_offset (hp : p ∈ places start d) : p.shape.align ∣ p.offset := by
  induction d generalizing start with
  | nil => cases hp
  | cons f d ih =>
      rcases List.mem_cons.mp hp with rfl | hp
      · exact dvd_roundUp
      · exact ih hp

theorem exists_place {f : ν × Shape} (hf : f ∈ d) (start : Nat) :
    ∃ p ∈ places start d, p.name = f.1 ∧ p.shape = f.2 := by
  induction d generalizing start with
  | nil => cases hf
  | cons g d ih =>
      rcases List.mem_cons.mp hf with rfl | hf
      · exact ⟨_, List.mem_cons_self, rfl, rfl⟩
      · obtain ⟨p, hp, hname, hshape⟩ := ih hf (roundUp start g.2.align + g.2.size)
        exact ⟨p, List.mem_cons_of_mem _ hp, hname, hshape⟩

theorem finish_le_extent : finish 0 d ≤ extent d := le_roundUp (Nat.two_pow_pos _)

/-! ### Structs that grow

A field is put at the end, and everything before it stays.  What may change is the padding
behind the last field and the alignment of the whole, so the size is a question of its own.
-/

theorem log_append (d e : Decl ν) : log (d ++ e) = max (log d) (log e) := by
  induction d with
  | nil => exact (Nat.zero_max _).symm
  | cons f d ih =>
      show max f.2.log (log (d ++ e)) = max (max f.2.log (log d)) (log e)
      rw [ih, Nat.max_assoc]

theorem log_le {b : Nat} (h : ∀ f ∈ d, f.2.log ≤ b) : log d ≤ b := by
  induction d with
  | nil => exact Nat.zero_le b
  | cons f d ih =>
      obtain ⟨hf, hd⟩ := List.forall_mem_cons.mp h
      exact Nat.max_le.mpr ⟨hf, ih hd⟩

/-- What was declared first keeps its place and its room. -/
theorem extent_le_append (d e : Decl ν) : extent d ≤ extent (d ++ e) := by
  refine roundUp_le (Nat.dvd_trans ?_ dvd_roundUp) (Nat.le_trans ?_ finish_le_extent)
  · exact Nat.pow_dvd_pow 2 (by rw [log_append]; exact Nat.le_max_left ..)
  · rw [finish_append]
    exact le_finish

/-- The size tells the longer declaration exactly if it needs more than the padding. -/
theorem extent_lt_append_iff (hpos : ∀ f ∈ e, 0 < f.2.size) :
    extent d < extent (d ++ e) ↔ extent d < finish 0 (d ++ e) := by
  refine ⟨fun hlt => ?_, fun hlt => Nat.lt_of_lt_of_le hlt finish_le_extent⟩
  by_contra hfits
  rw [Nat.not_lt] at hfits
  -- a field with a larger alignment begins no earlier than the old struct ends
  have hlog : log e ≤ log d := log_le fun f hf => by
    by_contra hlarge
    obtain ⟨p, hp, -, hshape⟩ := exists_place hf (finish 0 d)
    obtain ⟨hlow, hhigh⟩ := bounds_of_mem hp
    have haligned : 2 ^ log d ∣ p.offset := by
      refine Nat.dvd_trans (Nat.pow_dvd_pow 2 ?_) (dvd_offset hp)
      rw [hshape]
      omega
    have hafter : extent d ≤ p.offset := roundUp_le haligned hlow
    have hsize := hpos f hf
    rw [finish_append] at hfits
    unfold Place.stop at hhigh
    rw [hshape] at hhigh
    omega
  have hsame : log (d ++ e) = log d := by rw [log_append, Nat.max_eq_left hlog]
  have hle : extent (d ++ e) ≤ extent d := by
    unfold extent at hfits ⊢
    rw [hsame]
    exact roundUp_le dvd_roundUp hfits
  omega

/-! ### Memory

Memory is a function of the address.  Values are written as bytes and read as bytes, with
nothing said of what they mean, so what is asked of a value is that it has as many bytes as
its field has room for.
-/

/-- Bytes by their addresses. -/
abbrev Memory := Nat → UInt8

/-- The bytes are there from `start` on. -/
def Memory.write (m : Memory) (start : Nat) (bytes : List UInt8) : Memory := fun i =>
  if start ≤ i ∧ i < start + bytes.length then bytes.getD (i - start) 0 else m i

/-- As many bytes as that, from `start` on. -/
def Memory.read (m : Memory) (start size : Nat) : List UInt8 :=
  (List.range size).map fun i => m (start + i)

variable {m m' : Memory} {bytes : List UInt8}

theorem read_write : (m.write start bytes).read start bytes.length = bytes := by
  refine List.ext_getElem ?_ fun i hi hi' => ?_
  · rw [Memory.read, List.length_map, List.length_range]
  · have hin : start ≤ start + i ∧ start + i < start + bytes.length := ⟨by omega, by omega⟩
    simp only [Memory.read, Memory.write, List.getElem_map, List.getElem_range]
    rw [if_pos hin, Nat.add_sub_cancel_left, List.getD_eq_getElem?_getD,
      List.getElem?_eq_getElem hi', Option.getD_some]

theorem read_congr {size : Nat} (h : ∀ i, start ≤ i → i < start + size → m i = m' i) :
    m.read start size = m'.read start size :=
  List.map_congr_left fun i hi => by
    have := List.mem_range.mp hi
    exact h _ (by omega) (by omega)

/-- What is outside stays. -/
theorem write_apart {i : Nat} (h : i < start ∨ start + bytes.length ≤ i) :
    m.write start bytes i = m i := if_neg (by omega)

/-- Every field of a struct is written, each where it lies. -/
def store (base : Nat) (value : ν → List UInt8) : List (Place ν) → Memory → Memory
  | [], m => m
  | p :: ps, m => store base value ps (m.write (base + p.offset) (value p.name))

variable {base : Nat} {value : ν → List UInt8} {ps : List (Place ν)}

theorem store_apart {i : Nat} (hsize : ∀ p ∈ ps, (value p.name).length = p.shape.size)
    (h : ∀ p ∈ ps, i < base + p.offset ∨ base + p.stop ≤ i) : store base value ps m i = m i := by
  induction ps generalizing m with
  | nil => rfl
  | cons p ps ih =>
      obtain ⟨hp, hps⟩ := List.forall_mem_cons.mp h
      obtain ⟨hlength, hrest⟩ := List.forall_mem_cons.mp hsize
      refine (ih hrest hps).trans (write_apart ?_)
      unfold Place.stop at hp
      omega

theorem read_store (hsize : ∀ p ∈ ps, (value p.name).length = p.shape.size)
    (hapart : ps.Pairwise fun p q => p.stop ≤ q.offset) (hp : p ∈ ps) :
    (store base value ps m).read (base + p.offset) p.shape.size = value p.name := by
  induction ps generalizing m with
  | nil => cases hp
  | cons r ps ih =>
      obtain ⟨hfirst, hlater⟩ := List.pairwise_cons.mp hapart
      obtain ⟨hlength, hrest⟩ := List.forall_mem_cons.mp hsize
      rcases List.mem_cons.mp hp with rfl | hp
      · have hkept : (store base value ps (m.write (base + p.offset) (value p.name))).read
            (base + p.offset) p.shape.size =
            (m.write (base + p.offset) (value p.name)).read (base + p.offset) p.shape.size :=
          read_congr fun i _ hi => store_apart hrest fun q hq => by
            have := hfirst q hq
            unfold Place.stop at this
            omega
        exact hkept.trans (hlength ▸ read_write)
      · exact ih hrest hlater hp

/-- An array of structs. -/
def storeAll (d : Decl ν) : Nat → List (ν → List UInt8) → Memory → Memory
  | _, [], m => m
  | base, v :: vs, m => storeAll d (base + extent d) vs (store base v (places 0 d) m)

theorem storeAll_below {vs : List (ν → List UInt8)} {i : Nat} (hi : i < base)
    (hsize : ∀ v ∈ vs, ∀ p ∈ places 0 d, (v p.name).length = p.shape.size) :
    storeAll d base vs m i = m i := by
  induction vs generalizing base m with
  | nil => rfl
  | cons v vs ih =>
      obtain ⟨hv, hvs⟩ := List.forall_mem_cons.mp hsize
      refine (ih (by omega) hvs).trans (store_apart hv fun p _ => .inl ?_)
      omega

/-- **What is written field by field is read back field by field**, in every struct of an
array. -/
theorem read_storeAll {vs : List (ν → List UInt8)} {k : Nat} {v : ν → List UInt8}
    (hsize : ∀ v ∈ vs, ∀ p ∈ places 0 d, (v p.name).length = p.shape.size)
    (hk : vs[k]? = some v) (hp : p ∈ places 0 d) :
    (storeAll d base vs m).read (base + k * extent d + p.offset) p.shape.size = v p.name := by
  induction vs generalizing base m k with
  | nil => cases hk
  | cons w vs ih =>
      obtain ⟨hw, hvs⟩ := List.forall_mem_cons.mp hsize
      cases k with
      | zero =>
          obtain rfl : w = v := Option.some.inj hk
          have hstop : p.stop ≤ extent d := Nat.le_trans (bounds_of_mem hp).2 finish_le_extent
          unfold Place.stop at hstop
          rw [Nat.zero_mul, Nat.add_zero]
          have hfirst : (storeAll d base (w :: vs) m).read (base + p.offset) p.shape.size =
              (store base w (places 0 d) m).read (base + p.offset) p.shape.size :=
            read_congr fun i _ hi => storeAll_below (by omega) hvs
          exact hfirst.trans (read_store hw pairwise_places hp)
      | succ k =>
          have hnext : base + (k + 1) * extent d + p.offset =
              base + extent d + k * extent d + p.offset := by
            rw [Nat.succ_mul]
            omega
          rw [hnext]
          exact ih hvs hk

/-- A field of a struct of an array, looked up by its name. -/
def load [DecidableEq ν] (d : Decl ν) (base k : Nat) (m : Memory) (name : ν) :
    Option (List UInt8) :=
  ((places 0 d).find? (·.name = name)).map fun p =>
    m.read (base + k * extent d + p.offset) p.shape.size

theorem load_storeAll [DecidableEq ν] {vs : List (ν → List UInt8)} {k : Nat} {v : ν → List UInt8}
    {f : ν × Shape} (hsize : ∀ v ∈ vs, ∀ p ∈ places 0 d, (v p.name).length = p.shape.size)
    (hk : vs[k]? = some v) (hf : f ∈ d) :
    load d base k (storeAll d base vs m) f.1 = some (v f.1) := by
  obtain ⟨p, hp, hname, -⟩ := exists_place hf 0
  unfold load
  cases hfind : (places 0 d).find? (·.name = f.1) with
  | none => exact absurd (decide_eq_true hname) (List.find?_eq_none.mp hfind p hp)
  | some q =>
      have hfound := List.find?_some hfind
      have hq : q.name = f.1 := of_decide_eq_true hfound
      rw [Option.map_some, read_storeAll hsize hk (List.mem_of_find?_eq_some hfind), hq]

/-- A reader with the shorter declaration finds its fields in a longer struct. -/
theorem load_append [DecidableEq ν] {v : ν → List UInt8} {f : ν × Shape}
    (hsize : ∀ p ∈ places 0 (d ++ e), (v p.name).length = p.shape.size) (hf : f ∈ d) :
    load d base 0 (storeAll (d ++ e) base [v] m) f.1 = some (v f.1) := by
  obtain ⟨p, hp, hname, -⟩ := exists_place hf 0
  unfold load
  cases hfind : (places 0 d).find? (·.name = f.1) with
  | none => exact absurd (decide_eq_true hname) (List.find?_eq_none.mp hfind p hp)
  | some q =>
      have hfound := List.find?_some hfind
      have hq : q.name = f.1 := of_decide_eq_true hfound
      have hmem : q ∈ places 0 (d ++ e) := by
        rw [places_append]
        exact List.mem_append_left _ (List.mem_of_find?_eq_some hfind)
      rw [Option.map_some, Nat.zero_mul, Nat.add_zero, ← hq]
      exact congrArg some (read_store hsize pairwise_places hmem)

/-- What is there of a field is what its declaration says. -/
theorem exists_decl (hp : p ∈ places start d) : (p.name, p.shape) ∈ d := by
  induction d generalizing start with
  | nil => cases hp
  | cons f d ih =>
      rcases List.mem_cons.mp hp with rfl | hp
      · exact List.mem_cons_self
      · exact List.mem_cons_of_mem f (ih hp)

end Layout
