/-
Counted objects, many of them.

`Counted` follows one object through the hands that hold it.  Here every object has a count
of its own, and who holds what is a multiset: an object once for every reference to it.  A
machine computes that multiset from its own places, maps and calls; `Held` says that the
counts agree with it, that exactly the objects in it are alive and that no other was touched.
A move of the machine is then one of four moves on the multiset.

The counts live in memory, and nothing there says whose they are: two parties that each
think they have the last reference free the object twice.  That is what `Held` rules out,
once for all the objects of a machine.
-/
import Mathlib.Data.Multiset.AddSub
import ReactorWebrtc.Lib.Arena

/-- Objects with a count each. -/
structure Shared (ι : Type*) where
  objects : Arena ι := {}
  count : ι → Nat := fun _ => 0

namespace Shared

variable {ι : Type*} [DecidableEq ι]

/-- A new object, and the first reference to it. -/
def make (s : Shared ι) (i : ι) : Shared ι where
  objects := s.objects.alloc i
  count := Function.update s.count i 1

omit [DecidableEq ι] in
/-- The object is read through a reference. -/
def use (s : Shared ι) (i : ι) : Shared ι := { s with objects := s.objects.read i }

/-- One more reference, by somebody who has one. -/
def retain (s : Shared ι) (i : ι) : Shared ι where
  objects := s.objects.read i
  count := Function.update s.count i (s.count i + 1)

/-- The last reference takes the object with it. -/
def release (s : Shared ι) (i : ι) : Shared ι where
  objects := if s.count i = 1 then (s.objects.read i).free i else s.objects.read i
  count := Function.update s.count i (s.count i - 1)

/-- One reference less for each that is listed, in this order. -/
def releaseAll (s : Shared ι) (l : List ι) : Shared ι := l.foldl release s

/-- `m` are the references there are. -/
structure Held (m : Multiset ι) (s : Shared ι) : Prop where
  objects : s.objects.Holds (· ∈ m)
  count : ∀ i, s.count i = m.count i

variable {m : Multiset ι} {s : Shared ι} {i : ι}

theorem Held.none : Held 0 ({} : Shared ι) where
  objects := Arena.Holds.empty.congr fun _ => by simp
  count _ := rfl

theorem Held.congr {m' : Multiset ι} (h : Held m s) (hm : m = m') : Held m' s := hm ▸ h

theorem Held.alive (h : Held m s) (hi : i ∈ m) : s.objects.life i = .live :=
  (h.objects.live i).mpr hi

theorem Held.use (h : Held m s) (hi : i ∈ m) : s.use i = s := by
  unfold Shared.use
  rw [h.objects.read hi]

theorem Held.make (h : Held m s) (hi : s.objects.life i = .unborn) : Held (i ::ₘ m) (s.make i) where
  objects := h.objects.alloc hi fun j => by rw [Multiset.mem_cons, or_comm]
  count j := by
    have hnot : i ∉ m := fun hmem => h.objects.ne_unborn hmem hi
    by_cases hj : j = i
    · subst hj
      simp [Shared.make, Multiset.count_eq_zero_of_notMem hnot]
    · simp [Shared.make, hj, h.count]

theorem Held.retain (h : Held m s) (hi : i ∈ m) : Held (i ::ₘ m) (s.retain i) where
  objects := by
    show (s.objects.read i).Holds _
    rw [h.objects.read hi]
    exact h.objects.congr fun j => by
      rw [Multiset.mem_cons]
      exact ⟨.inr, fun hj => hj.elim (fun hj => hj ▸ hi) id⟩
  count j := by
    by_cases hj : j = i
    · subst hj
      simp [Shared.retain, h.count]
    · simp [Shared.retain, hj, h.count]

theorem Held.release (h : Held (i ::ₘ m) s) : Held m (s.release i) where
  objects := by
    have hread := h.objects.read (Multiset.mem_cons_self i m)
    have hcount : s.count i = m.count i + 1 := by rw [h.count, Multiset.count_cons_self]
    show (if s.count i = 1 then (s.objects.read i).free i else s.objects.read i).Holds _
    rw [hread]
    by_cases hlast : i ∈ m
    · have hpos : 0 < m.count i := Multiset.count_pos.mpr hlast
      rw [if_neg (by omega)]
      exact h.objects.congr fun j => by
        rw [Multiset.mem_cons]
        exact ⟨fun hj => hj.elim (fun hj => hj ▸ hlast) id, .inr⟩
    · have hzero : m.count i = 0 := Multiset.count_eq_zero_of_notMem hlast
      rw [if_pos (by omega)]
      refine h.objects.free (Multiset.mem_cons_self i m) fun j => ?_
      rw [Multiset.mem_cons]
      constructor
      · intro hj
        exact ⟨.inr hj, fun he => hlast (he ▸ hj)⟩
      · rintro ⟨hj, hne⟩
        exact hj.resolve_left hne
  count j := by
    by_cases hj : j = i
    · subst hj
      simp [Shared.release, h.count]
    · simp [Shared.release, hj, h.count]

theorem Held.releaseAll {l : List ι} (h : Held ((l : Multiset ι) + m) s) :
    Held m (s.releaseAll l) := by
  induction l generalizing s with
  | nil => exact h.congr (by simp)
  | cons i l ih =>
      have h' : Held (i ::ₘ ((l : Multiset ι) + m)) s :=
        h.congr (by rw [← Multiset.cons_coe, Multiset.cons_add])
      exact ih h'.release

end Shared
