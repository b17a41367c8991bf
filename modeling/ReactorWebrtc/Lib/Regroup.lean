/-
Regrouping a list by a key, the keys in an order that is given.

The entries of the first key come first, then those of the second among what is left, and at
the end what has none of the keys.  Entries of one key keep their order.  `regroup_eq` gives
the same without a recursion over what is left: a key counts where it is listed first.

Keys may be repeated, and may be the keys of nothing; neither changes what comes out
(`regroup_repeated`, `regroup_unknown`).  Regrouping what is regrouped changes nothing
(`regroup_regroup`), which is what one asks of an order that is applied again and again.
-/
import Mathlib.Data.List.Basic
import Mathlib.Data.List.Perm.Basic

namespace Regroup

variable {α κ : Type*} [DecidableEq κ] (key : α → κ)

/-- The entries of each key, one key after another, and then the others. -/
def regroup : List κ → List α → List α
  | [], l => l
  | k :: keys, l =>
    (l.filter fun a => key a == k) ++ regroup keys (l.filter fun a => !key a == k)

/-- Nothing is lost and nothing comes twice. -/
theorem regroup_perm (keys : List κ) (l : List α) : (regroup key keys l).Perm l := by
  induction keys generalizing l with
  | nil => exact .refl l
  | cons k keys ih =>
      have hrest : (regroup key keys (l.filter fun a => !key a == k)).Perm
          (l.filter fun a => !key a == k) := ih _
      exact (hrest.append_left _).trans (List.filter_append_perm _ l)

theorem filter_regroup_eq_nil {keys : List κ} {l : List α} {p : α → Bool}
    (h : l.filter p = []) : (regroup key keys l).filter p = [] := by
  have hperm := (regroup_perm key keys l).filter p
  rw [h] at hperm
  exact hperm.eq_nil

theorem filter_regroup_eq_self {keys : List κ} {l : List α} {p : α → Bool}
    (h : l.filter p = l) : (regroup key keys l).filter p = regroup key keys l := by
  rw [List.filter_eq_self] at h ⊢
  exact fun a ha => h a ((regroup_perm key keys l).mem_iff.mp ha)

/-- What is regrouped already stays as it is. -/
theorem regroup_regroup (keys : List κ) (l : List α) :
    regroup key keys (regroup key keys l) = regroup key keys l := by
  induction keys generalizing l with
  | nil => rfl
  | cons k keys ih =>
      let p : α → Bool := fun a => key a == k
      let q : α → Bool := fun a => !key a == k
      have hpp : (l.filter p).filter p = l.filter p := by simp
      have hpq : (l.filter q).filter p = [] := by simp [p, q, List.filter_filter]
      have hqp : (l.filter p).filter q = [] := by simp [p, q, List.filter_filter]
      have hqq : (l.filter q).filter q = l.filter q := by simp
      have hsame : (l.filter p ++ regroup key keys (l.filter q)).filter p = l.filter p := by
        rw [List.filter_append, hpp, filter_regroup_eq_nil key hpq, List.append_nil]
      have hothers : (l.filter p ++ regroup key keys (l.filter q)).filter q =
          regroup key keys (l.filter q) := by
        rw [List.filter_append, hqp, filter_regroup_eq_self key hqq, List.nil_append]
      show (l.filter p ++ regroup key keys (l.filter q)).filter p
        ++ regroup key keys ((l.filter p ++ regroup key keys (l.filter q)).filter q) = _
      rw [hsame, hothers, ih]
      rfl

/-- A key that no entry has changes nothing. -/
theorem regroup_unknown {k : κ} {l : List α} (h : ∀ a ∈ l, key a ≠ k) (before after : List κ) :
    regroup key (before ++ k :: after) l = regroup key (before ++ after) l := by
  induction before generalizing l with
  | nil =>
      have hnone : (l.filter fun a => key a == k) = [] :=
        List.filter_eq_nil_iff.mpr fun a ha => by simp [h a ha]
      have hall : (l.filter fun a => !key a == k) = l :=
        List.filter_eq_self.mpr fun a ha => by simp [h a ha]
      show (l.filter fun a => key a == k) ++ regroup key after (l.filter fun a => !key a == k) = _
      rw [hnone, hall]
      rfl
  | cons b before ih =>
      refine congrArg ((l.filter fun a => key a == b) ++ ·) (ih fun a ha => ?_)
      exact h a (List.mem_of_mem_filter ha)

/-- Nor does a key that was listed before. -/
theorem regroup_repeated {k : κ} {before : List κ} (h : k ∈ before) (after : List κ)
    (l : List α) :
    regroup key (before ++ k :: after) l = regroup key (before ++ after) l := by
  induction before generalizing l with
  | nil => cases h
  | cons b before ih =>
      refine congrArg ((l.filter fun a => key a == b) ++ ·) ?_
      rcases List.mem_cons.mp h with rfl | h
      · -- the entries of this key have gone already
        refine regroup_unknown key (fun a ha => ?_) before after
        simpa using (List.mem_filter.mp ha).2
      · exact ih h _

/-- Of the keys, one that no entry has may be left out wherever it stands. -/
theorem regroup_filter {k : κ} {l : List α} (h : ∀ a ∈ l, key a ≠ k) (keys : List κ) :
    regroup key keys l = regroup key (keys.filter fun b => !b == k) l := by
  induction keys generalizing l with
  | nil => rfl
  | cons b keys ih =>
      by_cases hb : b = k
      · subst hb
        rw [List.filter_cons_of_neg (by simp), ← ih h]
        exact regroup_unknown key h [] keys
      · rw [List.filter_cons_of_pos (by simp [hb])]
        refine congrArg ((l.filter fun a => key a == b) ++ ·) (ih fun a ha => ?_)
        exact h a (List.mem_of_mem_filter ha)

/-- The groups stand in the order in which their keys are listed first. -/
theorem regroup_eq (keys : List κ) (l : List α) :
    regroup key keys l =
      keys.eraseDups.flatMap (fun k => l.filter fun a => key a == k)
        ++ l.filter fun a => decide (key a ∉ keys) := by
  induction hn : keys.length using Nat.strongRecOn generalizing keys l with
  | ind n ih =>
      cases keys with
      | nil => simp [regroup]
      | cons k keys =>
          subst hn
          have hshort : (keys.filter fun b => !b == k).length < (k :: keys).length :=
            Nat.lt_succ_of_le (List.length_filter_le _ keys)
          have hrest : ∀ a ∈ l.filter (fun a => !key a == k), key a ≠ k := fun a ha => by
            simpa using (List.mem_filter.mp ha).2
          rw [regroup, regroup_filter key hrest, ih _ hshort _ _ rfl, List.eraseDups_cons,
            List.flatMap_cons, List.append_assoc]
          congr 2
          · refine List.flatMap_congr fun b hb => ?_
            have hne : b ≠ k := by
              simpa using (List.mem_filter.mp (List.mem_eraseDups.mp hb)).2
            rw [List.filter_filter]
            refine List.filter_congr fun a _ => ?_
            by_cases hab : key a = b
            · simp [hab, hne]
            · simp [hab]
          · rw [List.filter_filter]
            refine List.filter_congr fun a _ => ?_
            by_cases hak : key a = k
            · simp [hak]
            · simp [hak]

end Regroup
