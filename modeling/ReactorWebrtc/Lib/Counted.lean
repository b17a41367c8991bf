/-
Shared ownership: what is counted is freed by whoever lets go of it last.

The count is one number in memory and says nothing of who holds what.  `Held n` ties it to
the number of references the parties really have, and to how often the object was freed:
never while somebody holds one, exactly once when nobody does.  Each of the moves keeps it,
from a party that has a reference to read through, to copy or to give up, and everything
else about the object's life is read off `Held`.

The count is part of the object, so every move touches it.  `stale` counts the moves made
on an object that is gone; under `Held` there are none.

Who the parties are is left to the machine that uses it.  It states with `n` how many of its
program counters stand where a reference is held, and every step that moves one of them past
such a place is one of the moves.
-/
import Mathlib.Logic.Basic

/-- How many references there are, how often the object was freed, and how often it was
touched when it was no more. -/
structure Counted where
  count : Nat := 1
  freed : Nat := 0
  stale : Nat := 0
  deriving DecidableEq, Repr

namespace Counted

/-- The object is read through a reference. -/
def use (c : Counted) : Counted :=
  if c.freed = 0 then c else { c with stale := c.stale + 1 }

/-- One more reference. -/
def retain (c : Counted) : Counted := { c.use with count := c.count + 1 }

/-- One reference less; the last one takes the object with it. -/
def release (c : Counted) : Counted :=
  { c.use with
    count := c.count - 1
    freed := if c.count = 1 then c.freed + 1 else c.freed }

/-- `n` references are held. -/
structure Held (n : Nat) (c : Counted) : Prop where
  count : c.count = n
  freed : c.freed = if n = 0 then 1 else 0
  stale : c.stale = 0

variable {n : Nat} {c : Counted}

theorem Held.new : Held 1 {} := ⟨rfl, rfl, rfl⟩

/-- Who has a reference has a live object. -/
theorem Held.alive (h : Held n c) (hn : 0 < n) : c.freed = 0 := by
  rw [h.freed, if_neg (Nat.ne_of_gt hn)]

theorem Held.freed_eq_one_iff (h : Held n c) : c.freed = 1 ↔ n = 0 := by
  rw [h.freed]
  split <;> simp_all

theorem Held.freed_le_one (h : Held n c) : c.freed ≤ 1 := by
  rw [h.freed]
  split <;> simp

theorem Held.use_eq (h : Held n c) (hn : 0 < n) : c.use = c := if_pos (h.alive hn)

theorem Held.use (h : Held n c) (hn : 0 < n) : Held n c.use := by
  rw [h.use_eq hn]
  exact h

/-- What nobody holds is not there to be touched. -/
theorem Held.use_stale (h : Held 0 c) : c.use.stale = 1 := by
  have hfreed : c.freed ≠ 0 := by rw [h.freed_eq_one_iff.mpr rfl]; decide
  unfold Counted.use
  rw [if_neg hfreed]
  exact congrArg (· + 1) h.stale

theorem Held.retain (h : Held n c) (hn : 0 < n) : Held (n + 1) c.retain where
  count := congrArg (· + 1) h.count
  freed := by
    show c.use.freed = _
    rw [h.use_eq hn, h.alive hn, if_neg (Nat.succ_ne_zero n)]
  stale := (h.use hn).stale

theorem Held.release (h : Held (n + 1) c) : Held n c.release where
  count := by
    show c.count - 1 = n
    rw [h.count, Nat.add_sub_cancel]
  freed := by
    show (if c.count = 1 then c.freed + 1 else c.freed) = _
    rw [h.count, h.alive (Nat.succ_pos n)]
    simp only [Nat.add_eq_right]
  stale := (h.use (Nat.succ_pos n)).stale

end Counted
