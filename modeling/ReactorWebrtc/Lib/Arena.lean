/-
Objects that are made and freed, one by one.

An arena knows of each object whether it has been made and whether it is still there, and
counts what is done to one that is not: reading it, freeing it again, making it twice.
`Holds P` says that nothing of that kind has happened and that the objects there are exactly
those with `P`; a machine states with `P` who owns what, and each of the three operations
has one lemma.

Freeing is by name, and a name is used once: what is allocated after something else was
freed has a name of its own, so a reading that comes too late is seen even where memory
would have been given out again.
-/
import Mathlib.Logic.Function.Basic

/-- An object is made once, and freed once. -/
inductive Life
  | unborn | live | freed
  deriving DecidableEq, Repr

/-- Objects by their names, each at some point of its life. -/
structure Arena (ι : Type*) where
  life : ι → Life := fun _ => .unborn
  /-- Operations on an object that was not there for them. -/
  stale : Nat := 0

namespace Arena

variable {ι : Type*} [DecidableEq ι]

/-- Make an object, which must not have been there before. -/
def alloc (a : Arena ι) (i : ι) : Arena ι where
  life := Function.update a.life i .live
  stale := if a.life i = .unborn then a.stale else a.stale + 1

/-- Free an object, which must be there. -/
def free (a : Arena ι) (i : ι) : Arena ι where
  life := Function.update a.life i .freed
  stale := if a.life i = .live then a.stale else a.stale + 1

/-- What is held in an optional place is freed. -/
def freeAll (a : Arena ι) : Option ι → Arena ι
  | some i => a.free i
  | none => a

omit [DecidableEq ι] in
/-- Use an object, which must be there. -/
def read (a : Arena ι) (i : ι) : Arena ι :=
  if a.life i = .live then a else { a with stale := a.stale + 1 }

/-- Exactly the objects with `P` are there, and no other was ever used. -/
structure Holds (P : ι → Prop) (a : Arena ι) : Prop where
  stale : a.stale = 0
  live : ∀ i, a.life i = .live ↔ P i

variable {P Q : ι → Prop} {a : Arena ι} {i : ι}

omit [DecidableEq ι] in
theorem Holds.empty : Holds (fun _ => False) ({} : Arena ι) :=
  ⟨rfl, fun _ => iff_of_false nofun id⟩

omit [DecidableEq ι] in
theorem Holds.congr (h : a.Holds P) (hPQ : ∀ j, P j ↔ Q j) : a.Holds Q :=
  ⟨h.stale, fun j => (h.live j).trans (hPQ j)⟩

omit [DecidableEq ι] in
theorem Holds.read (h : a.Holds P) (hi : P i) : a.read i = a := if_pos ((h.live i).mpr hi)

theorem Holds.alloc (h : a.Holds P) (hi : a.life i = .unborn) (hQ : ∀ j, Q j ↔ P j ∨ j = i) :
    (a.alloc i).Holds Q where
  stale := (if_pos hi).trans h.stale
  live j := by
    rw [hQ]
    by_cases hj : j = i
    · subst hj
      simp [Arena.alloc]
    · rw [or_iff_left hj, ← h.live j]
      simp [Arena.alloc, hj]

theorem Holds.free (h : a.Holds P) (hi : P i) (hQ : ∀ j, Q j ↔ P j ∧ j ≠ i) :
    (a.free i).Holds Q where
  stale := (if_pos ((h.live i).mpr hi)).trans h.stale
  live j := by
    rw [hQ]
    by_cases hj : j = i
    · subst hj
      simp [Arena.free]
    · rw [and_iff_left hj, ← h.live j]
      simp [Arena.free, hj]

/-- What is in an optional place goes, and nothing where the place is empty. -/
theorem Holds.freeAll {place : Option ι} (h : a.Holds P) (hplace : ∀ i, place = some i → P i)
    (hQ : ∀ j, Q j ↔ P j ∧ place ≠ some j) : (a.freeAll place).Holds Q := by
  cases place with
  | none => exact h.congr fun j => by simp [hQ]
  | some i =>
      refine h.free (hplace i rfl) fun j => ?_
      rw [hQ, ne_eq, Option.some.injEq, eq_comm]

/-- Which objects were never made is not changed by an object that was. -/
theorem free_unborn (hi : a.life i ≠ .unborn) (j : ι) :
    (a.free i).life j = .unborn ↔ a.life j = .unborn := by
  by_cases hj : j = i
  · subst hj
    simp [Arena.free, hi]
  · simp [Arena.free, hj]

theorem freeAll_unborn {place : Option ι} (hplace : ∀ i, place = some i → a.life i ≠ .unborn)
    (j : ι) : (a.freeAll place).life j = .unborn ↔ a.life j = .unborn := by
  cases place with
  | none => exact Iff.rfl
  | some i => exact free_unborn (hplace i rfl) j

omit [DecidableEq ι] in
theorem Holds.ne_unborn (h : a.Holds P) (hi : P i) : a.life i ≠ .unborn := by
  rw [(h.live i).mpr hi]
  nofun

theorem alloc_unborn (j : ι) : (a.alloc i).life j = .unborn ↔ a.life j = .unborn ∧ j ≠ i := by
  by_cases hj : j = i
  · subst hj
    simp [Arena.alloc]
  · simp [Arena.alloc, hj]

end Arena
