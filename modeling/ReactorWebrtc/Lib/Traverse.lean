/-
Going through a list with a function that may fail.

`List.mapM` succeeds where the function succeeds on every element (`exists_mapM_ok`), and
what it returns can be turned back where each result can (`map_of_mapM_ok`).  A loop over
the indices of a list is one over its elements (`map_range_getElem?`), and what is done at one
index is done between what stands before it and what stands after (`exists_around`), which is
how a sum over the list changes (`sum_map_set`).

These are what the list functions of the library leave to say about traversals in `Except`
and about lists of which one place is changed; nothing in them is about any one program.
-/
import Mathlib.Algebra.Order.Ring.Nat
import Mathlib.Data.List.Basic
import Mathlib.Data.List.ReduceOption

namespace Traverse

universe u

variable {α β ε : Type*}

theorem bind_eq_ok {γ δ : Type u} {x : Except ε γ} {f : γ → Except ε δ} {b : δ} :
    x >>= f = .ok b ↔ ∃ a, x = .ok a ∧ f a = .ok b := by
  cases x with
  | error e => exact iff_of_false (fun h => by cases h) fun ⟨_, h, _⟩ => by cases h
  | ok a => exact ⟨fun h => ⟨a, rfl, h⟩, fun ⟨_, ha, h⟩ => by cases ha; exact h⟩

/-- A function that never fails on these elements. -/
theorem mapM_eq_pure {m : Type _ → Type _} [Monad m] [LawfulMonad m] {γ : Type _} {f : α → m γ}
    {g : α → γ} {l : List α} (h : ∀ x ∈ l, f x = pure (g x)) : l.mapM f = pure (l.map g) := by
  induction l with
  | nil => rw [List.mapM_nil, List.map_nil]
  | cons x l ih =>
      rw [List.mapM_cons, h x List.mem_cons_self, pure_bind,
        ih fun y hy => h y (List.mem_cons_of_mem x hy), pure_bind, List.map_cons]

theorem exists_mapM_ok {f : α → Except ε β} {l : List α} :
    (∃ ys, l.mapM f = .ok ys) ↔ ∀ x ∈ l, ∃ y, f x = .ok y := by
  induction l with
  | nil => exact iff_of_true ⟨[], rfl⟩ fun x hx => absurd hx List.not_mem_nil
  | cons x l ih =>
      rw [List.forall_mem_cons, ← ih, List.mapM_cons]
      cases hx : f x with
      | error e => exact iff_of_false (fun ⟨_, h⟩ => by cases h) fun h => by cases h.1.choose_spec
      | ok y =>
          cases hl : l.mapM f with
          | error e =>
              exact iff_of_false (fun ⟨_, h⟩ => by cases h) fun h => by cases h.2.choose_spec
          | ok ys => exact iff_of_true ⟨y :: ys, rfl⟩ ⟨⟨y, rfl⟩, ys, rfl⟩

/-- Where each result says what it was made from, all of them do. -/
theorem map_of_mapM_ok {f : α → Except ε β} {g : β → α} (hg : ∀ x y, f x = .ok y → g y = x)
    {l : List α} {ys : List β} (h : l.mapM f = .ok ys) : ys.map g = l := by
  induction l generalizing ys with
  | nil =>
      obtain rfl := Except.ok.inj h
      rfl
  | cons x l ih =>
      rw [List.mapM_cons] at h
      cases hx : f x with
      | error e =>
          rw [hx] at h
          cases h
      | ok y =>
          cases hl : l.mapM f with
          | error e =>
              rw [hx, hl] at h
              cases h
          | ok rest =>
              rw [hx, hl] at h
              obtain rfl := Except.ok.inj h
              rw [List.map_cons, hg x y hx, ih hl]

theorem map_range_getElem? (l : List α) (f : Option α → β) :
    (List.range l.length).map (fun i => f l[i]?) = l.map fun x => f (some x) := by
  refine List.ext_getElem ?_ fun i hi hi' => ?_
  · rw [List.length_map, List.length_map, List.length_range]
  · rw [List.getElem_map, List.getElem_map, List.getElem_range, List.getElem?_eq_getElem]

/-- An entry of a list stands between others, which stay when it changes or goes. -/
theorem exists_around {l : List α} {k : Nat} {x : α} (h : l[k]? = some x) :
    ∃ a b, l = a ++ x :: b ∧ (∀ f, l.modify k f = a ++ f x :: b) ∧
      (∀ y, l.set k y = a ++ y :: b) ∧ l.eraseIdx k = a ++ b := by
  obtain ⟨hk, hx⟩ := List.getElem?_eq_some_iff.mp h
  refine ⟨l.take k, l.drop (k + 1), ?_, fun f => ?_, fun y => ?_,
    List.eraseIdx_eq_take_drop_succ ..⟩
  · rw [← hx, List.getElem_cons_drop, List.take_append_drop]
  · rw [List.modify_eq_take_cons_drop hk, hx]
  · rw [List.set_eq_take_append_cons_drop, if_pos hk]

/-- What does not tell an entry from the changed one is not changed. -/
theorem filterMap_modify {l : List α} {f : α → α} {g : α → Option β} (h : ∀ x, g (f x) = g x)
    (k : Nat) : (l.modify k f).filterMap g = l.filterMap g := by
  cases hk : l[k]? with
  | none => rw [List.modify_eq_self (List.getElem?_eq_none_iff.mp hk)]
  | some x =>
      obtain ⟨a, b, hl, hmodify, -, -⟩ := exists_around hk
      rw [hmodify, hl, List.filterMap_append, List.filterMap_append, List.filterMap_cons,
        List.filterMap_cons, h]

theorem map_modify {l : List α} {f : α → α} {g : α → β} (h : ∀ x, g (f x) = g x) (k : Nat) :
    (l.modify k f).map g = l.map g := by
  rw [← List.filterMap_eq_map]
  exact filterMap_modify (g := some ∘ g) (fun x => congrArg some (h x)) k

/-- A sum changes by what the one entry does. -/
theorem sum_map_set {l : List α} {k : Nat} {x : α} (f : α → Nat) (h : l[k]? = some x) (y : α) :
    ((l.set k y).map f).sum + f x = (l.map f).sum + f y := by
  obtain ⟨a, b, hl, -, hset, -⟩ := exists_around h
  rw [hset, hl]
  simp only [List.map_append, List.map_cons, List.sum_append_nat, List.sum_cons]
  omega

theorem any_getElem?_set {l : List α} {k : Nat} {x : α} (p : α → Bool) (h : l[k]? = some x) (y : α)
    (j : Nat) : (l.set k y)[j]?.any p = if j = k then p y else l[j]?.any p := by
  obtain ⟨hk, -⟩ := List.getElem?_eq_some_iff.mp h
  by_cases hj : j = k
  · subst hj
    rw [if_pos rfl, List.getElem?_set_self hk]
    rfl
  · rw [if_neg hj, List.getElem?_set_ne (Ne.symm hj)]

theorem reduceOption_map_some (l : List α) (f : α → β) :
    (l.map fun x => some (f x)).reduceOption = l.map f := by
  induction l with
  | nil => rfl
  | cons x l ih => rw [List.map_cons, List.map_cons, List.reduceOption_cons_of_some, ih]

/-- What a loop passes over is filtered out. -/
theorem reduceOption_map_ite (l : List α) (p : α → Prop) [DecidablePred p] :
    (l.map fun x => if p x then none else some x).reduceOption =
      l.filter fun x => decide (¬ p x) := by
  induction l with
  | nil => rfl
  | cons x l ih =>
      rw [List.map_cons]
      by_cases hx : p x
      · rw [if_pos hx, List.reduceOption_cons_of_none, ih, List.filter_cons_of_neg (by simpa)]
      · rw [if_neg hx, List.reduceOption_cons_of_some, ih, List.filter_cons_of_pos (by simpa)]

end Traverse
