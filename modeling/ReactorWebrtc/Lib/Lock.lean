/-
One lock, and a family of threads of which at most one holds it.

A thread's program counter already says whether it is inside the critical section,
so the lock word is a second account of the same thing: `Owns` says that the two
agree.  It is the only fact about mutual exclusion the machines here need, and each
of the three moves of a thread (taking the lock, giving it back, moving on without
touching it) keeps it by one lemma.

Where there are many locks and a thread may hold several, `Each` says that what is locked is
what the threads list as theirs, and that it is listed once.  If each thread only ever wants
a lock above those it holds, they cannot all wait for each other (`Each.exists_ready`).

Nothing is said of fairness, nor that a thread that waits is ever let in.  What is proved is
what no two threads can do together, and that not all of them can be stuck.
-/
import Mathlib.Data.List.Nodup
import Mathlib.Logic.Function.Basic

namespace Lock

variable {ι κ : Type*} [DecidableEq ι] {holds : κ → Bool} {lock : Option ι} {pcs : ι → κ}
  {i j : ι} {pc : κ}

/-- The threads inside the critical section are exactly the one the lock names. -/
def Owns (holds : κ → Bool) (lock : Option ι) (pcs : ι → κ) : Prop :=
  ∀ i, holds (pcs i) = true ↔ lock = some i

omit [DecidableEq ι] in
/-- Two threads inside are the same thread. -/
theorem Owns.unique (h : Owns holds lock pcs) (hi : holds (pcs i) = true)
    (hj : holds (pcs j) = true) : i = j :=
  Option.some.inj (((h i).mp hi).symm.trans ((h j).mp hj))

omit [DecidableEq ι] in
theorem Owns.free (h : Owns holds none pcs) (i : ι) : holds (pcs i) = false :=
  Bool.eq_false_iff.mpr fun hi => by cases (h i).mp hi

/-- A thread that finds the lock free takes it. -/
theorem Owns.take (h : Owns holds none pcs) (hpc : holds pc = true) :
    Owns holds (some i) (Function.update pcs i pc) := by
  intro j
  by_cases hj : j = i
  · subst hj
    simp [hpc]
  · rw [Function.update_of_ne hj, h.free j]
    simp [Ne.symm hj]

/-- The thread inside leaves. -/
theorem Owns.release (h : Owns holds lock pcs) (hi : holds (pcs i) = true)
    (hpc : holds pc = false) : Owns holds none (Function.update pcs i pc) := by
  intro j
  by_cases hj : j = i
  · subst hj
    simp [hpc]
  · rw [Function.update_of_ne hj]
    constructor
    · intro hholds
      exact absurd (h.unique hholds hi) hj
    · intro hnone
      cases hnone

/-- A thread that stays inside, or outside, moves on. -/
theorem Owns.keep (h : Owns holds lock pcs) (hpc : holds pc = holds (pcs i)) :
    Owns holds lock (Function.update pcs i pc) := by
  intro j
  by_cases hj : j = i
  · subst hj
    rw [Function.update_self, hpc]
    exact h j
  · rw [Function.update_of_ne hj]
    exact h j

/-! ### Many locks

A thread that holds several gives back the one it took last, so what it holds is a list, and
a step that touches one lock leaves what the others are about.
-/

variable {L : Type*} [DecidableEq L] {owners : ι → List L} {locked : L → Bool} {l : L}

/-- The locks that are taken are those that a thread lists, and no other thread lists them. -/
structure Each (owners : ι → List L) (locked : L → Bool) : Prop where
  locked : ∀ l, locked l = true ↔ ∃ i, l ∈ owners i
  nodup : ∀ i, (owners i).Nodup
  apart : ∀ i j, i ≠ j → ∀ l ∈ owners i, l ∉ owners j

omit [DecidableEq L] in
/-- A lock is listed by one thread only. -/
theorem Each.unique (h : Each owners locked) (hi : l ∈ owners i) (hj : l ∈ owners j) : i = j := by
  by_contra hne
  exact h.apart i j hne l hi hj

omit [DecidableEq L] in
/-- A thread lists the same locks as before. -/
theorem Each.same {list : List L} (h : Each owners locked) (hlist : list = owners i) :
    Each (Function.update owners i list) locked := by
  rw [hlist, Function.update_eq_self]
  exact h

/-- A free lock is taken. -/
theorem Each.take (h : Each owners locked) (hfree : locked l = false) :
    Each (Function.update owners i (l :: owners i)) (Function.update locked l true) := by
  have hnew : ∀ j, l ∉ owners j := fun j hj => by
    rw [(h.locked l).mpr ⟨j, hj⟩] at hfree
    cases hfree
  -- who lists what
  have hlists : ∀ j k, k ∈ Function.update owners i (l :: owners i) j ↔
      (j = i ∧ k = l) ∨ k ∈ owners j := by
    intro j k
    by_cases hj : j = i
    · subst hj
      rw [Function.update_self, List.mem_cons]
      exact or_congr_left (and_iff_right rfl).symm
    · rw [Function.update_of_ne hj]
      exact (or_iff_right fun hk => hj hk.1).symm
  refine ⟨fun k => ?_, fun j => ?_, fun j j' hne k hk hk' => ?_⟩
  · by_cases hk : k = l
    · subst hk
      rw [Function.update_self]
      exact iff_of_true rfl ⟨i, (hlists i k).mpr (.inl ⟨rfl, rfl⟩)⟩
    · rw [Function.update_of_ne hk, h.locked k]
      exact exists_congr fun j => ((hlists j k).trans (or_iff_right fun hj => hk hj.2)).symm
  · by_cases hj : j = i
    · subst hj
      rw [Function.update_self]
      exact List.nodup_cons.mpr ⟨hnew j, h.nodup j⟩
    · rw [Function.update_of_ne hj]
      exact h.nodup j
  · rcases (hlists j k).mp hk with ⟨hj, hl⟩ | hold
    · rcases (hlists j' k).mp hk' with ⟨hj', -⟩ | hold'
      · exact hne (hj.trans hj'.symm)
      · exact hnew j' (hl ▸ hold')
    · rcases (hlists j' k).mp hk' with ⟨-, hl⟩ | hold'
      · exact hnew j (hl ▸ hold)
      · exact h.apart j j' hne k hold hold'

/-- The lock taken last is given back. -/
theorem Each.release {list : List L} (h : Each owners locked) (hi : owners i = l :: list) :
    Each (Function.update owners i list) (Function.update locked l false) := by
  have hnodup := h.nodup i
  rw [hi, List.nodup_cons] at hnodup
  have hmine : l ∈ owners i := hi ▸ List.mem_cons_self
  -- who lists what
  have hlists : ∀ j k, k ∈ Function.update owners i list j ↔ k ∈ owners j ∧ k ≠ l := by
    intro j k
    by_cases hj : j = i
    · subst hj
      rw [Function.update_self, hi, List.mem_cons]
      constructor
      · intro hk
        refine ⟨.inr hk, ?_⟩
        rintro rfl
        exact hnodup.1 hk
      · exact fun hk => hk.1.resolve_left hk.2
    · rw [Function.update_of_ne hj]
      refine ⟨fun hk => ⟨hk, ?_⟩, And.left⟩
      rintro rfl
      exact hj (h.unique hk hmine)
  refine ⟨fun k => ?_, fun j => ?_, fun j j' hne k hk hk' => ?_⟩
  · by_cases hk : k = l
    · subst hk
      rw [Function.update_self]
      exact iff_of_false nofun fun ⟨j, hj⟩ => ((hlists j k).mp hj).2 rfl
    · rw [Function.update_of_ne hk, h.locked k]
      exact exists_congr fun j => ((hlists j k).trans (and_iff_left hk)).symm
  · by_cases hj : j = i
    · subst hj
      rw [Function.update_self]
      exact hnodup.2
    · rw [Function.update_of_ne hj]
      exact h.nodup j
  · exact h.apart j j' hne k ((hlists j k).mp hk).1 ((hlists j' k).mp hk').1

/-! ### Locks taken in order

Of the threads that wait, the one whose lock ranks highest waits for nobody that waits:
whoever has that lock wants nothing at all, or something that ranks higher still.
-/

variable {wants : ι → Option L} {rank : L → Nat} {bound : Nat}

omit [DecidableEq ι] [DecidableEq L] in
/-- Where every thread wants a lock above all that it holds, some thread can go on: the one
that is looked at, or one that holds a lock. -/
theorem Each.exists_ready (h : Each owners locked) (hbound : ∀ l, rank l ≤ bound)
    (hup : ∀ i l, wants i = some l → ∀ k ∈ owners i, rank k < rank l) (i : ι) :
    ∃ j, (j = i ∨ owners j ≠ []) ∧ ∀ l, wants j = some l → locked l = false := by
  -- the owner of what a thread waits for waits for something higher
  have hchain : ∀ left i, (∀ l, wants i = some l → bound < rank l + left) →
      ∃ j, (j = i ∨ owners j ≠ []) ∧ ∀ l, wants j = some l → locked l = false := by
    intro left
    induction left with
    | zero =>
        intro i hhigh
        exact ⟨i, .inl rfl, fun l hl => absurd (hhigh l hl) (Nat.not_lt.mpr (hbound l))⟩
    | succ left ih =>
        intro i hhigh
        by_cases hready : ∀ l, wants i = some l → locked l = false
        · exact ⟨i, .inl rfl, hready⟩
        · push Not at hready
          obtain ⟨l, hwants, hlocked⟩ := hready
          obtain ⟨j, hj⟩ := (h.locked l).mp ((Bool.not_eq_false _).mp hlocked)
          obtain ⟨k, hk, hfree⟩ := ih j fun l' hl' => by
            have hless := hup j l' hl' l hj
            have := hhigh l hwants
            omega
          refine ⟨k, .inr ?_, hfree⟩
          rcases hk with rfl | hk
          · exact List.ne_nil_of_mem hj
          · exact hk
  exact hchain (bound + 1) i fun l _ => by omega

end Lock
