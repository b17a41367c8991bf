/-
Machines that take labelled steps, and what holds along their runs.

A machine is a start state and a step function that may refuse an action: `none`
says the action is not possible in that state.  The label of a step carries
everything the machine does not decide for itself, so which call moves next and
what the environment answers are part of it, and a run is just a list of labels.
That keeps a run a computation: a concrete one is checked by evaluating it.

Two ways of using it.  `Machine.invariant` is the usual induction: what holds at
the start and survives every step holds in every reachable state.  The second is
for a property that holds of some runs and not of others.  `Guarded G` says every
step of a run was taken where the guard `G` allowed it, `Along P` says `P` holds
in every state the run passes through, and `along_iff_guarded` trades one for the
other when a single step keeps `P` exactly if the guard allowed it.
`guarded_iff_pairwise` turns a guard of a common kind into a condition on the actions.

What the last step of a kind leaves behind may decide a run by itself.  `last K` is the state
in which that step was taken, and `run_last` and `run_none` say what is still known at the end
from what the step established and the others keep.

A property may also be about what happened on the way: that everything asked for was done,
once and in order.  A list kept in the state for it is written by the very functions it is
there to judge, and says nothing about one that forgets to write it.  So it is an onlooker
that keeps the list: `seen` is what an observer sees of the steps of a run, each with its
action and the states before and after it, and `history` is the induction for a property
of the actions taken so far and of the state they led to.
-/
import Mathlib.Logic.Basic

/-- A start state, and a step that may refuse its action. -/
structure Machine (σ : Type*) (α : Type*) where
  start : σ
  step : σ → α → Option σ

namespace Machine

variable {σ α : Type*} (M : Machine σ α)

/-- Take the actions one after another; `none` as soon as one is refused. -/
def run : σ → List α → Option σ
  | s, [] => some s
  | s, a :: as => (M.step s a).bind fun t => run t as

/-- The states some run from the start ends in. -/
def Reachable (s : σ) : Prop := ∃ as, M.run M.start as = some s

/-- Every step of the run is taken where the guard allows it. -/
def Guarded (G : σ → α → Prop) : σ → List α → Prop
  | _, [] => True
  | s, a :: as => G s a ∧ ∀ t, M.step s a = some t → Guarded G t as

/-- The property holds in every state the run passes through. -/
def Along (P : σ → Prop) : σ → List α → Prop
  | s, [] => P s
  | s, a :: as => P s ∧ ∀ t, M.step s a = some t → Along P t as

theorem guarded_cons {G : σ → α → Prop} {s t : σ} {a : α} {as : List α}
    (h : M.step s a = some t) : M.Guarded G s (a :: as) ↔ G s a ∧ M.Guarded G t as := by
  refine and_congr_right fun _ => ⟨fun hrest => hrest t h, fun hrest u hu => ?_⟩
  obtain rfl : t = u := Option.some.inj (h.symm.trans hu)
  exact hrest

theorem along_cons {P : σ → Prop} {s t : σ} {a : α} {as : List α}
    (h : M.step s a = some t) : M.Along P s (a :: as) ↔ P s ∧ M.Along P t as := by
  refine and_congr_right fun _ => ⟨fun hrest => hrest t h, fun hrest u hu => ?_⟩
  obtain rfl : t = u := Option.some.inj (h.symm.trans hu)
  exact hrest

/-- A guard that can be evaluated is evaluated along a run. -/
instance decidableGuarded (G : σ → α → Prop) [∀ s a, Decidable (G s a)] :
    ∀ s as, Decidable (M.Guarded G s as)
  | _, [] => .isTrue trivial
  | s, a :: as =>
    match h : M.step s a with
    | none => decidable_of_iff (G s a)
        ⟨fun hg => ⟨hg, fun t ht => by rw [h] at ht; cases ht⟩, And.left⟩
    | some t =>
      have := decidableGuarded G t as
      decidable_of_iff (G s a ∧ M.Guarded G t as) (M.guarded_cons h).symm

instance decidableAlong (P : σ → Prop) [∀ s, Decidable (P s)] :
    ∀ s as, Decidable (M.Along P s as)
  | s, [] => inferInstanceAs (Decidable (P s))
  | s, a :: as =>
    match h : M.step s a with
    | none => decidable_of_iff (P s)
        ⟨fun hp => ⟨hp, fun t ht => by rw [h] at ht; cases ht⟩, And.left⟩
    | some t =>
      have := decidableAlong P t as
      decidable_of_iff (P s ∧ M.Along P t as) (M.along_cons h).symm

@[simp] theorem run_nil (s : σ) : M.run s [] = some s := rfl

theorem run_cons (s : σ) (a : α) (as : List α) :
    M.run s (a :: as) = (M.step s a).bind fun t => M.run t as := rfl

/-- A run of one more action is a step and then a run. -/
theorem run_cons_eq_some {s u : σ} {a : α} {as : List α} :
    M.run s (a :: as) = some u ↔ ∃ t, M.step s a = some t ∧ M.run t as = some u := by
  rw [run_cons, Option.bind_eq_some_iff]

theorem run_append (s : σ) (as bs : List α) :
    M.run s (as ++ bs) = (M.run s as).bind fun t => M.run t bs := by
  induction as generalizing s with
  | nil => rfl
  | cons a as ih =>
      rw [List.cons_append, run_cons, run_cons, Option.bind_assoc]
      congr 1
      funext t
      exact ih t

/-- A machine that refuses nothing runs to the end. -/
theorem run_total (h : ∀ s a, ∃ t, M.step s a = some t) (s : σ) (as : List α) :
    ∃ t, M.run s as = some t := by
  induction as generalizing s with
  | nil => exact ⟨s, rfl⟩
  | cons a as ih =>
      obtain ⟨t, ht⟩ := h s a
      obtain ⟨u, hu⟩ := ih t
      exact ⟨u, M.run_cons_eq_some.mpr ⟨t, ht, hu⟩⟩

/-- Where a run that meets no refusal ends. -/
def final (s : σ) (as : List α) (h : (M.run s as).isSome = true) : σ := (M.run s as).get h

theorem run_final (s : σ) (as : List α) (h : (M.run s as).isSome = true) :
    M.run s as = some (M.final s as h) := (Option.some_get h).symm

/-- The machine without the actions that are not allowed. -/
def restrict (allow : α → Bool) : Machine σ α where
  start := M.start
  step s a := if allow a then M.step s a else none

/-- The machine of a guard and an effect: an action does what it does, where it is possible. -/
def ofEffect (start : σ) (enabled : σ → α → Prop) [∀ s a, Decidable (enabled s a)]
    (effect : σ → α → σ) : Machine σ α where
  start := start
  step s a := if enabled s a then some (effect s a) else none

theorem ofEffect_step {start : σ} {enabled : σ → α → Prop} [∀ s a, Decidable (enabled s a)]
    {effect : σ → α → σ} {s t : σ} {a : α} :
    (ofEffect start enabled effect).step s a = some t ↔ enabled s a ∧ effect s a = t := by
  show (if enabled s a then some (effect s a) else none) = some t ↔ _
  split <;> simp_all

theorem restrict_step {allow : α → Bool} {s t : σ} {a : α} :
    (M.restrict allow).step s a = some t ↔ allow a = true ∧ M.step s a = some t := by
  show (if allow a then M.step s a else none) = some t ↔ _
  split
  · rename_i h
    simp [h]
  · rename_i h
    simp [h]

variable {M}

theorem Reachable.start : M.Reachable M.start := ⟨[], rfl⟩

theorem Reachable.run {s t : σ} {as : List α} (h : M.Reachable s)
    (hrun : M.run s as = some t) : M.Reachable t := by
  obtain ⟨bs, hbs⟩ := h
  exact ⟨bs ++ as, by rw [M.run_append, hbs]; exact hrun⟩

theorem Reachable.step {s t : σ} {a : α} (h : M.Reachable s)
    (hstep : M.step s a = some t) : M.Reachable t := by
  have hrun : M.run s [a] = some t := by rw [M.run_cons, hstep]; rfl
  exact h.run hrun

/-- What the actions of a run keep, the run keeps. -/
theorem run_kept {A : α → Prop} {I : σ → Prop}
    (hstep : ∀ s a t, A a → I s → M.step s a = some t → I t) {s t : σ} {as : List α}
    (hall : ∀ a ∈ as, A a) (h : I s) (hrun : M.run s as = some t) : I t := by
  induction as generalizing s with
  | nil =>
      rw [run_nil, Option.some.injEq] at hrun
      rwa [← hrun]
  | cons a as ih =>
      obtain ⟨u, hu, hrest⟩ := M.run_cons_eq_some.mp hrun
      have hnext : I u := hstep s a u (hall a List.mem_cons_self) h hu
      exact ih (fun b hb => hall b (List.mem_cons_of_mem a hb)) hnext hrest

/-- What every step keeps, every run keeps. -/
theorem run_invariant {I : σ → Prop} (hstep : ∀ s a t, I s → M.step s a = some t → I t)
    {s t : σ} {as : List α} (h : I s) (hrun : M.run s as = some t) : I t :=
  run_kept (A := fun _ => True) (fun s a t _ => hstep s a t) (fun _ _ => trivial) h hrun

/-- What every step between states of a kind keeps, a run through such states keeps. -/
theorem run_invariant_along {P I : σ → Prop}
    (hstep : ∀ s a t, P s → P t → I s → M.step s a = some t → I t)
    {s t : σ} {as : List α} (halong : M.Along P s as) (h : I s)
    (hrun : M.run s as = some t) : I t := by
  induction as generalizing s with
  | nil =>
      rw [run_nil, Option.some.injEq] at hrun
      rwa [← hrun]
  | cons a as ih =>
      obtain ⟨u, hu, hrest⟩ := M.run_cons_eq_some.mp hrun
      have hnext : M.Along P u as := halong.2 u hu
      have hPu : P u := by
        cases as with
        | nil => exact hnext
        | cons b bs => exact hnext.1
      exact ih hnext (hstep s a u halong.1 hPu h hu) hrest

/-- **What holds at the start and survives every step holds wherever a run ends.** -/
theorem invariant {I : σ → Prop} (hstart : I M.start)
    (hstep : ∀ s a t, I s → M.step s a = some t → I t) {s : σ} (h : M.Reachable s) : I s := by
  obtain ⟨as, has⟩ := h
  exact run_invariant hstep hstart has

/-- Where something can always be done that leaves less to do, a run comes to an end. -/
theorem exists_run_done (A : α → Prop) (I Done : σ → Prop) (left : σ → Nat)
    (hprogress : ∀ s, I s → ¬ Done s → ∃ a t, A a ∧ M.step s a = some t ∧ I t ∧ left t < left s)
    {s : σ} (h : I s) : ∃ as t, (∀ a ∈ as, A a) ∧ M.run s as = some t ∧ I t ∧ Done t := by
  induction hleft : left s using Nat.strongRecOn generalizing s with
  | ind n ih =>
      by_cases hdone : Done s
      · exact ⟨[], s, fun a ha => (by cases ha), rfl, h, hdone⟩
      · obtain ⟨a, t, ha, hstep, ht, hless⟩ := hprogress s h hdone
        obtain ⟨as, u, has, hrun, hu, hend⟩ := ih (left t) (hleft ▸ hless) ht rfl
        refine ⟨a :: as, u, fun b hb => ?_, M.run_cons_eq_some.mpr ⟨t, hstep, hrun⟩, hu, hend⟩
        rcases List.mem_cons.mp hb with rfl | hb
        · exact ha
        · exact has b hb

/-- Where the steps of a kind leave less to do, a run of them is no longer than there was to
do at its start, whichever of them are taken. -/
theorem run_length_le (left : σ → Nat) {A : α → Prop} {I : σ → Prop}
    (hkeep : ∀ s a t, A a → I s → M.step s a = some t → I t)
    (hless : ∀ s a t, A a → I s → M.step s a = some t → left t < left s) {s t : σ} {as : List α}
    (hall : ∀ a ∈ as, A a) (h : I s) (hrun : M.run s as = some t) :
    as.length + left t ≤ left s := by
  induction as generalizing s with
  | nil =>
      rw [run_nil, Option.some.injEq] at hrun
      rw [hrun]
      exact Nat.le_of_eq (Nat.zero_add _)
  | cons a as ih =>
      obtain ⟨u, hu, hrest⟩ := M.run_cons_eq_some.mp hrun
      have ha : A a := hall a List.mem_cons_self
      have hfewer := hless s a u ha h hu
      have hafter := ih (fun b hb => hall b (List.mem_cons_of_mem a hb)) (hkeep s a u ha h hu) hrest
      rw [List.length_cons]
      omega

/-- What only the steps of a kind bring about, and no step takes back, is there at the end of
a run iff it was at the start or the run has a step of the kind. -/
theorem run_flag {I Q : σ → Prop} {K : α → Prop}
    (hinv : ∀ s a t, I s → M.step s a = some t → I t)
    (hflag : ∀ s a t, I s → M.step s a = some t → (Q t ↔ Q s ∨ K a)) {s t : σ} {as : List α}
    (hI : I s) (hrun : M.run s as = some t) : Q t ↔ Q s ∨ ∃ a ∈ as, K a := by
  induction as generalizing s with
  | nil =>
      rw [run_nil, Option.some.injEq] at hrun
      simp [hrun]
  | cons a as ih =>
      obtain ⟨u, hu, hrest⟩ := M.run_cons_eq_some.mp hrun
      rw [ih (hinv s a u hI hu) hrest, hflag s a u hI hu, or_assoc]
      simp

/-- An action of a run is one that some state takes. -/
theorem run_mem {s t : σ} {as : List α} (hrun : M.run s as = some t) {a : α} (ha : a ∈ as) :
    ∃ u v, M.step u a = some v := by
  induction as generalizing s with
  | nil => cases ha
  | cons b as ih =>
      obtain ⟨u, hu, hrest⟩ := M.run_cons_eq_some.mp hrun
      rcases List.mem_cons.mp ha with rfl | ha
      · exact ⟨s, u, hu⟩
      · exact ih hrest ha

/-- Where every step is a step of another machine on a part of the state, or leaves that part
alone, a run of the one is a run of the other. -/
theorem run_project {τ β : Type*} {N : Machine τ β} {π : σ → τ} {f : α → Option β}
    (hstep : ∀ s a t b, M.step s a = some t → f a = some b → N.step (π s) b = some (π t))
    (hskip : ∀ s a t, M.step s a = some t → f a = none → π t = π s) {s t : σ} {as : List α}
    (hrun : M.run s as = some t) : N.run (π s) (as.filterMap f) = some (π t) := by
  induction as generalizing s with
  | nil =>
      rw [run_nil, Option.some.injEq] at hrun
      rw [hrun]
      rfl
  | cons a as ih =>
      obtain ⟨u, hu, hrest⟩ := M.run_cons_eq_some.mp hrun
      cases hb : f a with
      | none =>
          rw [List.filterMap_cons_none hb, ← hskip s a u hu hb]
          exact ih hrest
      | some b =>
          rw [List.filterMap_cons_some hb]
          exact N.run_cons_eq_some.mpr ⟨_, hstep s a u b hu hb, ih hrest⟩

/-! ### What is seen of a run

An observer sees one step at a time, from outside.  What it has seen grows at the end, as
the run does, so the induction here is over what is still to come of a run, with what was
done before it in the property.
-/

variable {β : Type*}

/-- What every step hands on, a run hands on, from whatever was done before it. -/
theorem history_from {P : List α → σ → Prop}
    (hstep : ∀ as s a t, M.run M.start as = some s → P as s → M.step s a = some t →
      P (as ++ [a]) t) {as bs : List α} {s t : σ} (hbefore : M.run M.start as = some s)
    (h : P as s) (hrun : M.run s bs = some t) : P (as ++ bs) t := by
  induction bs generalizing as s with
  | nil =>
      rw [run_nil, Option.some.injEq] at hrun
      rwa [List.append_nil, ← hrun]
  | cons b bs ih =>
      obtain ⟨u, hu, hrest⟩ := M.run_cons_eq_some.mp hrun
      have hnext : M.run M.start (as ++ [b]) = some u := by
        rw [run_append, hbefore]
        exact M.run_cons_eq_some.mpr ⟨u, hu, rfl⟩
      have hrun' : P ((as ++ [b]) ++ bs) t := ih hnext (hstep as s b u hbefore h hu) hrest
      rwa [List.append_assoc] at hrun'

/-- What holds at the start, with nothing done, and is handed on by every step, holds of what
was done and of the state it led to. -/
theorem history {P : List α → σ → Prop} (hstart : P [] M.start)
    (hstep : ∀ as s a t, M.run M.start as = some s → P as s → M.step s a = some t →
      P (as ++ [a]) t) {as : List α} {s : σ} (hrun : M.run M.start as = some s) : P as s :=
  history_from hstep (rfl : M.run M.start [] = some M.start) hstart hrun

variable (M) in
/-- What an observer sees of the steps of a run. -/
def seen (obs : σ → α → σ → List β) : σ → List α → List β
  | _, [] => []
  | s, a :: as => (M.step s a).elim [] fun t => obs s a t ++ seen obs t as

@[simp] theorem seen_nil (obs : σ → α → σ → List β) (s : σ) : M.seen obs s [] = [] := rfl

theorem seen_cons (obs : σ → α → σ → List β) {s t : σ} {a : α} (as : List α)
    (h : M.step s a = some t) : M.seen obs s (a :: as) = obs s a t ++ M.seen obs t as := by
  rw [seen, h, Option.elim_some]

/-- One more step adds what is seen of it. -/
theorem seen_concat (obs : σ → α → σ → List β) {s t u : σ} {as : List α} {a : α}
    (hrun : M.run s as = some t) (hstep : M.step t a = some u) :
    M.seen obs s (as ++ [a]) = M.seen obs s as ++ obs t a u := by
  induction as generalizing s with
  | nil =>
      rw [run_nil, Option.some.injEq] at hrun
      subst hrun
      rw [List.nil_append, seen_cons obs [] hstep, seen_nil, List.append_nil]
      rfl
  | cons b as ih =>
      obtain ⟨v, hv, hrest⟩ := M.run_cons_eq_some.mp hrun
      rw [List.cons_append, seen_cons obs _ hv, seen_cons obs _ hv, ih hrest, List.append_assoc]

/-! ### Runs whose steps meet a guard

A condition on the steps of a run and a property of its states are two ways of saying the
same, where one step keeps the property exactly if the condition let it.  Neither has to be
about the last state alone, so the induction is over the run from its start, and the
invariant that makes the step lemma true goes along with it.
-/

variable {G : σ → α → Prop} {P I : σ → Prop}

theorem Along.head {s : σ} {as : List α} (h : M.Along P s as) : P s := by
  cases as with
  | nil => exact h
  | cons a as => exact h.1

/-- A property that holds along a run holds where the run ends. -/
theorem Along.last {s t : σ} {as : List α} (h : M.Along P s as)
    (hrun : M.run s as = some t) : P t := by
  induction as generalizing s with
  | nil =>
      rw [run_nil, Option.some.injEq] at hrun
      rwa [← hrun]
  | cons a as ih =>
      obtain ⟨u, hu, hrest⟩ := M.run_cons_eq_some.mp hrun
      exact ih (h.2 u hu) hrest

/-- What the steps that the guard allows keep, a guarded run keeps. -/
theorem run_guarded (hstep : ∀ s a t, G s a → I s → M.step s a = some t → I t) {s t : σ}
    {as : List α} (hguarded : M.Guarded G s as) (h : I s) (hrun : M.run s as = some t) : I t := by
  induction as generalizing s with
  | nil =>
      rw [run_nil, Option.some.injEq] at hrun
      rwa [← hrun]
  | cons a as ih =>
      obtain ⟨u, hu, hrest⟩ := M.run_cons_eq_some.mp hrun
      exact ih (hguarded.2 u hu) (hstep s a u hguarded.1 h hu) hrest

/-- What every guarded run ends with holds along a guarded run, as its beginnings are guarded. -/
theorem Guarded.along {s : σ} {as : List α} (hguarded : M.Guarded G s as)
    (hend : ∀ bs t, M.Guarded G s bs → M.run s bs = some t → P t) : M.Along P s as := by
  induction as generalizing s with
  | nil => exact hend [] s trivial rfl
  | cons a as ih =>
      refine ⟨hend [] s trivial rfl, fun u hu => ih (hguarded.2 u hu) fun bs t hbs hrun => ?_⟩
      exact hend (a :: bs) t ((M.guarded_cons hu).mpr ⟨hguarded.1, hbs⟩)
        (M.run_cons_eq_some.mpr ⟨u, hu, hrun⟩)

/-- A property that holds along a run guards its steps, and is a guard beside another. -/
theorem Along.and_guarded {s : σ} {as : List α} (h : M.Along P s as) (hguarded : M.Guarded G s as) :
    M.Guarded (fun s a => P s ∧ G s a) s as := by
  induction as generalizing s with
  | nil => trivial
  | cons a as ih => exact ⟨⟨h.1, hguarded.1⟩, fun t ht => ih (h.2 t ht) (hguarded.2 t ht)⟩

theorem Along.mono {Q : σ → Prop} (hweaker : ∀ s, P s → Q s) {s : σ} {as : List α}
    (h : M.Along P s as) : M.Along Q s as := by
  induction as generalizing s with
  | nil => exact hweaker s h
  | cons a as ih => exact ⟨hweaker s h.1, fun t ht => ih (h.2 t ht)⟩

theorem Guarded.mono {F : σ → α → Prop} (hweaker : ∀ s a, F s a → G s a) {s : σ} {as : List α}
    (h : M.Guarded F s as) : M.Guarded G s as := by
  induction as generalizing s with
  | nil => trivial
  | cons a as ih => exact ⟨hweaker s a h.1, fun t ht => ih (h.2 t ht)⟩

theorem guarded_true (s : σ) (as : List α) : M.Guarded (fun _ _ => True) s as := by
  induction as generalizing s with
  | nil => trivial
  | cons a as ih => exact ⟨trivial, fun t _ => ih t⟩

/--
**Where a guard is exact for a property of states and one of steps.**  If, from a state that
satisfies the invariant and the property, a step keeps the property and has its own exactly
when the guard allows it, then a run does exactly when every step of it was allowed.
-/
theorem along_guarded_iff_guarded {F : σ → α → Prop}
    (hinv : ∀ s a t, I s → P s → G s a → M.step s a = some t → I t)
    (hstep : ∀ s a t, I s → P s → M.step s a = some t → (P t ∧ F s a ↔ G s a))
    {s t : σ} {as : List α} (hI : I s) (hP : P s) (hrun : M.run s as = some t) :
    M.Along P s as ∧ M.Guarded F s as ↔ M.Guarded G s as := by
  induction as generalizing s with
  | nil => exact ⟨fun _ => trivial, fun _ => ⟨hP, trivial⟩⟩
  | cons a as ih =>
      obtain ⟨u, hu, hrest⟩ := M.run_cons_eq_some.mp hrun
      have hkeep := hstep s a u hI hP hu
      rw [M.along_cons hu, M.guarded_cons hu, M.guarded_cons hu]
      constructor
      · rintro ⟨⟨-, halong⟩, hF, hguarded⟩
        have hG : G s a := hkeep.mp ⟨halong.head, hF⟩
        exact ⟨hG, (ih (hinv s a u hI hP hG hu) halong.head hrest).mp ⟨halong, hguarded⟩⟩
      · rintro ⟨hG, hguarded⟩
        obtain ⟨hPu, hF⟩ := hkeep.mpr hG
        obtain ⟨halong, hrestF⟩ := (ih (hinv s a u hI hP hG hu) hPu hrest).mpr hguarded
        exact ⟨⟨hP, halong⟩, hF, hrestF⟩

/--
**Where the guard is exact.**  If, from a state that satisfies the invariant and the
property, a step keeps the property exactly when the guard allows it, then the
property holds along a run exactly when every step of it was allowed.  The invariant need
survive only the steps the guard allows.
-/
theorem along_iff_guarded_kept
    (hinv : ∀ s a t, I s → P s → G s a → M.step s a = some t → I t)
    (hstep : ∀ s a t, I s → P s → M.step s a = some t → (P t ↔ G s a))
    {s t : σ} {as : List α} (hI : I s) (hP : P s) (hrun : M.run s as = some t) :
    M.Along P s as ↔ M.Guarded G s as := by
  have hiff := along_guarded_iff_guarded (F := fun _ _ => True) hinv
    (fun s a t hI hP hu => (and_iff_left trivial).trans (hstep s a t hI hP hu)) hI hP hrun
  rw [← hiff, and_iff_left (guarded_true s as)]

/-- The same with an invariant that every step keeps. -/
theorem along_iff_guarded (hinv : ∀ s a t, I s → M.step s a = some t → I t)
    (hstep : ∀ s a t, I s → P s → M.step s a = some t → (P t ↔ G s a))
    {s t : σ} {as : List α} (hI : I s) (hP : P s) (hrun : M.run s as = some t) :
    M.Along P s as ↔ M.Guarded G s as :=
  along_iff_guarded_kept (fun s a t hI _ _ => hinv s a t hI) hstep hI hP hrun

/-- A guard that comes down to the action alone. -/
theorem guarded_iff_forall {A : α → Prop} (hinv : ∀ s a t, I s → M.step s a = some t → I t)
    (hguard : ∀ s a, I s → (G s a ↔ A a)) {s t : σ} {as : List α} (hI : I s)
    (hrun : M.run s as = some t) : M.Guarded G s as ↔ ∀ a ∈ as, A a := by
  induction as generalizing s with
  | nil => exact iff_of_true trivial fun a ha => absurd ha List.not_mem_nil
  | cons a as ih =>
      obtain ⟨u, hu, hrest⟩ := M.run_cons_eq_some.mp hrun
      rw [M.guarded_cons hu, ih (hinv s a u hI hu) hrest, hguard s a hI, List.forall_mem_cons]

/--
A guard against what comes too late: once a step of one kind is taken, none of the other
kind may be.  Where a flag remembers the first kind, the guard on states is a condition on
the order of the actions.
-/
theorem guarded_iff_pairwise {Q : σ → Prop} {F L : α → Prop}
    (hinv : ∀ s a t, I s → M.step s a = some t → I t)
    (hflag : ∀ s a t, I s → M.step s a = some t → (Q t ↔ Q s ∨ F a))
    {s t : σ} {as : List α} (hI : I s) (hrun : M.run s as = some t) :
    M.Guarded (fun s a => Q s → ¬ L a) s as ↔
      (Q s → ∀ a ∈ as, ¬ L a) ∧ as.Pairwise fun a b => F a → ¬ L b := by
  induction as generalizing s with
  | nil =>
      refine ⟨fun _ => ⟨fun _ a ha => ?_, .nil⟩, fun _ => trivial⟩
      cases ha
  | cons a as ih =>
      obtain ⟨u, hu, hrest⟩ := M.run_cons_eq_some.mp hrun
      rw [M.guarded_cons hu, ih (hinv s a u hI hu) hrest, List.pairwise_cons]
      have hkeep := hflag s a u hI hu
      constructor
      · rintro ⟨hhead, hall, hpairs⟩
        refine ⟨fun hs b hb => ?_, fun b hb hfirst => hall (hkeep.mpr (.inr hfirst)) b hb, hpairs⟩
        rcases List.mem_cons.mp hb with rfl | hb
        · exact hhead hs
        · exact hall (hkeep.mpr (.inl hs)) b hb
      · rintro ⟨hall, hlate, hpairs⟩
        refine ⟨fun hs => hall hs a List.mem_cons_self, fun hu' b hb => ?_, hpairs⟩
        rcases hkeep.mp hu' with hs | hfirst
        · exact hall hs b (List.mem_cons_of_mem a hb)
        · exact hlate b hb hfirst

/-! ### The last step of a kind

What such a step established may be lost again later, and established anew.  So a run is
told of from its last one, with what all the steps after it keep.
-/

variable (M) in
/-- The state in which the run takes its last step of the kind. -/
def last (K : σ → α → Bool) : σ → List α → Option σ
  | _, [] => none
  | s, a :: as =>
    match M.step s a with
    | none => none
    | some t =>
      match last K t as with
      | some u => some u
      | none => if K s a then some s else none

theorem last_cons {K : σ → α → Bool} {s t : σ} {a : α} {as : List α} (h : M.step s a = some t) :
    M.last K s (a :: as) =
      (M.last K t as).or (if K s a then some s else none) := by
  simp only [last, h]
  cases M.last K t as <;> rfl

/-- A run without such a step keeps what the other steps keep. -/
theorem run_none {K : σ → α → Bool} {Q : σ → Prop}
    (hinv : ∀ s a t, I s → M.step s a = some t → I t)
    (hkeep : ∀ s a t, I s → K s a = false → Q s → M.step s a = some t → Q t)
    {s t : σ} {as : List α} (hI : I s) (hQ : Q s) (hrun : M.run s as = some t)
    (hnone : M.last K s as = none) : Q t := by
  induction as generalizing s with
  | nil =>
      rw [run_nil, Option.some.injEq] at hrun
      rwa [← hrun]
  | cons a as ih =>
      obtain ⟨u, hu, hrest⟩ := M.run_cons_eq_some.mp hrun
      rw [last_cons hu, Option.or_eq_none_iff] at hnone
      have hK : K s a = false := by
        cases hK : K s a with
        | false => rfl
        | true =>
            rw [if_pos hK] at hnone
            cases hnone.2
      exact ih (hinv s a u hI hu) (hkeep s a u hI hK hQ hu) hrest hnone.1

/-- **What the last step of a kind establishes, and the others keep, holds at the end.** -/
theorem run_last {K : σ → α → Bool} {R : σ → σ → Prop}
    (hinv : ∀ s a t, I s → M.step s a = some t → I t)
    (hkind : ∀ s a t, I s → K s a = true → M.step s a = some t → R s t)
    (hkeep : ∀ r s a t, I s → K s a = false → R r s → M.step s a = some t → R r t)
    {s t r : σ} {as : List α} (hI : I s) (hrun : M.run s as = some t)
    (hlast : M.last K s as = some r) : R r t := by
  induction as generalizing s with
  | nil => cases hlast
  | cons a as ih =>
      obtain ⟨u, hu, hrest⟩ := M.run_cons_eq_some.mp hrun
      have hIu : I u := hinv s a u hI hu
      rw [last_cons hu] at hlast
      cases hlater : M.last K u as with
      | some r' =>
          rw [hlater, Option.some_or, Option.some.injEq] at hlast
          exact ih hIu hrest (hlater.trans (congrArg some hlast))
      | none =>
          rw [hlater, Option.none_or] at hlast
          split at hlast
          · rename_i hK
            obtain rfl := Option.some.inj hlast
            exact run_none hinv (hkeep s) hIu (hkind s a u hI hK hu) hrest hlater
          · cases hlast

/-- In a guarded run the last step of a kind was guarded too. -/
theorem Guarded.last {K : σ → α → Bool} {s r : σ} {as : List α} (h : M.Guarded G s as)
    (hlast : M.last K s as = some r) : ∃ a, K r a = true ∧ G r a := by
  induction as generalizing s with
  | nil => cases hlast
  | cons a as ih =>
      simp only [Machine.last] at hlast
      split at hlast
      · cases hlast
      · rename_i u hu
        split at hlast
        · rename_i r' hlater
          exact ih (h.2 u hu) (hlater.trans hlast)
        · split at hlast
          · rename_i hK
            obtain rfl := Option.some.inj hlast
            exact ⟨a, hK, h.1⟩
          · cases hlast

end Machine
