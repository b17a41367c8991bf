/-
Maps to weak references.

A value is a reference that keeps nothing alive: whether it can still be upgraded is said from
outside, by `alive`.  Registering replaces what is there, deregistering removes only what one
registered oneself, and a lookup upgrades what it finds and removes it where that fails.  So
an entry that is never deregistered does no harm once its value is gone.

`Thinned` is what a map may lose without anybody noticing: entries whose value is gone.  A
lookup does no more than that, to the entry it looked at.
-/
import Mathlib.Data.Option.Basic
import Mathlib.Logic.Function.Basic

/-- By key, a reference that may be dead. -/
abbrev WeakMap (κ ρ : Type*) := κ → Option ρ

namespace WeakMap

variable {κ ρ : Type*} [DecidableEq κ]

def register (m : WeakMap κ ρ) (k : κ) (r : ρ) : WeakMap κ ρ := Function.update m k (some r)

def lookup (alive : ρ → Bool) (m : WeakMap κ ρ) (k : κ) : Option ρ × WeakMap κ ρ :=
  match (m k).filter alive with
  | some r => (some r, m)
  | none => (none, Function.update m k none)

/-- Only the entry that is still this one. -/
def deregister [DecidableEq ρ] (m : WeakMap κ ρ) (k : κ) (r : ρ) : WeakMap κ ρ :=
  if m k = some r then Function.update m k none else m

/-- Entries have gone, but none that is alive. -/
structure Thinned (alive : ρ → Bool) (m m' : WeakMap κ ρ) : Prop where
  was : ∀ k r, m' k = some r → m k = some r
  stays : ∀ k r, m k = some r → alive r = true → m' k = some r

variable {m : WeakMap κ ρ} {k l : κ} {r : ρ} {alive : ρ → Bool}

theorem lookup_fst : (m.lookup alive k).1 = (m k).filter alive := by
  unfold lookup
  cases (m k).filter alive with
  | some r => rfl
  | none => rfl

theorem lookup_snd_of_ne (h : l ≠ k) : (m.lookup alive k).2 l = m l := by
  unfold lookup
  cases (m k).filter alive with
  | some r => rfl
  | none => exact Function.update_of_ne h _ _

/-- A lookup leaves what it upgrades. -/
theorem lookup_snd_self : (m.lookup alive k).2 k = (m k).filter alive := by
  unfold lookup
  cases hk : (m k).filter alive with
  | some r => exact (Option.filter_eq_some_iff.mp hk).1
  | none => exact Function.update_self _ _ _

omit [DecidableEq κ] in
theorem Thinned.refl (alive : ρ → Bool) (m : WeakMap κ ρ) : Thinned alive m m :=
  ⟨fun _ _ h => h, fun _ _ h _ => h⟩

/-- A lookup removes only what it finds dead. -/
theorem thinned_lookup (alive : ρ → Bool) (m : WeakMap κ ρ) (k : κ) :
    Thinned alive m (m.lookup alive k).2 where
  was l r h := by
    by_cases hl : l = k
    · rw [hl, lookup_snd_self] at h
      rw [hl]
      exact (Option.filter_eq_some_iff.mp h).1
    · rwa [lookup_snd_of_ne hl] at h
  stays l r h halive := by
    by_cases hl : l = k
    · subst hl
      rw [lookup_snd_self]
      exact Option.filter_eq_some_iff.mpr ⟨h, halive⟩
    · rwa [lookup_snd_of_ne hl]

variable [DecidableEq ρ] {x : ρ}

theorem deregister_of_ne (h : l ≠ k) : m.deregister k r l = m l := by
  unfold deregister
  split
  · exact Function.update_of_ne h _ _
  · rfl

/-- What was registered is gone, and what another registered is there. -/
theorem deregister_self : m.deregister k r k = if m k = some r then none else m k := by
  unfold deregister
  split
  · exact Function.update_self _ _ _
  · rfl

/-- Deregistering registers nothing. -/
theorem of_deregister (h : m.deregister k r l = some x) : m l = some x := by
  by_cases hl : l = k
  · rw [hl, deregister_self] at h
    split at h
    · cases h
    · rwa [hl]
  · rwa [deregister_of_ne hl] at h

/-- Another's entry is left. -/
theorem deregister_of_other (h : m l = some x) (hx : x ≠ r) : m.deregister k r l = some x := by
  by_cases hl : l = k
  · rw [hl, deregister_self, ← hl, h, if_neg fun hsame => hx (Option.some.inj hsame)]
  · rw [deregister_of_ne hl, h]

end WeakMap
