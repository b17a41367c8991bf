/-
The playout pump, which is the clock of the whole receive path.

A turn of the loop pulls one block, moves the deadline on by a period, or to the clock when
the clock is past it, and sleeps until the deadline.  Time is in whole milliseconds.  How long
the pull takes, how long it waits for the device's lock and by how much the sleep runs over
is not the loop's to decide, so a turn carries them; the scan for the peak belongs to the pull.

Two bounds meet here.  The deadline never falls behind a period a turn, and it never stands
before the end of the last pull.  The first keeps the clock from drifting, the second from
making up for a stall.

Both would hold of a pump that never pulled, so `Follows` says first what the turns come to:
one pull each, as long as the turn has it, begun when the lock is had after the sleep of the
turn before, with the deadline a period after the last one or at the end of its pull,
whichever is later.  That leaves nothing of a pull undetermined, and the two bounds are
about these pulls.
-/
import Mathlib.Data.List.Basic

namespace ReactorWebrtc.Playout

/-- The period of the pump, in milliseconds. -/
def PERIOD : Nat := 10

/-- What a turn of the loop takes, beyond what it asks for. -/
structure Turn where
  /-- Until the device's lock is taken. -/
  wait : Nat
  pull : Nat
  oversleep : Nat
  deriving DecidableEq, Repr

/-- One pull, and the deadline it was started for. -/
structure Pull where
  deadline : Nat
  start : Nat
  finish : Nat
  deriving DecidableEq, Repr

/-- Until the time has come, or not at all when it has passed; and then some. -/
def sleepUntil (now deadline oversleep : Nat) : Nat := max now deadline + oversleep

/-- The next deadline: a period on, or now when that has passed. -/
def advance (next now : Nat) : Nat :=
  let next := next + PERIOD
  if next < now then now else next

/-- The loop, from a deadline and the time it is, for as many turns as it keeps playing. -/
def loop : Nat → Nat → List Turn → List Pull
  | _, _, [] => []
  | next, now, turn :: turns =>
    let start := now + turn.wait
    let finish := start + turn.pull
    let following := advance next finish
    { deadline := next, start, finish } ::
      loop following (sleepUntil finish following turn.oversleep) turns

/-- The pulls of a run that begins at `t0`. -/
def playoutLoop (t0 : Nat) (turns : List Turn) : List Pull := loop t0 t0 turns

theorem period_le_advance (next now : Nat) : next + PERIOD ≤ advance next now := by
  unfold advance
  dsimp only
  split <;> omega

theorem now_le_advance (next now : Nat) : now ≤ advance next now := by
  unfold advance
  dsimp only
  split <;> omega

/-- The deadline is put off exactly if the clock is past it. -/
theorem advance_eq_iff (next now : Nat) :
    advance next now = next + PERIOD ↔ now ≤ next + PERIOD := by
  unfold advance
  dsimp only
  split <;> omega

theorem le_sleepUntil (now deadline oversleep : Nat) :
    deadline ≤ sleepUntil now deadline oversleep :=
  Nat.le_add_right_of_le (Nat.le_max_right _ _)

/-- No deadline falls behind a period a turn, and no pull starts before its own. -/
theorem loop_late {next now : Nat} (h : next ≤ now) {turns : List Turn} {k : Nat} {p : Pull}
    (hp : (loop next now turns)[k]? = some p) :
    next + PERIOD * k ≤ p.deadline ∧ p.deadline ≤ p.start := by
  induction turns generalizing next now k with
  | nil => cases hp
  | cons turn turns ih =>
      cases k with
      | zero =>
          obtain rfl := Option.some.inj hp
          exact ⟨Nat.le_refl next, Nat.le_add_right_of_le h⟩
      | succ k =>
          obtain ⟨hdeadline, hstart⟩ := ih (le_sleepUntil _ _ _) hp
          have hstep := period_le_advance next (now + turn.wait + turn.pull)
          refine ⟨?_, hstart⟩
          rw [Nat.mul_succ]
          omega

/-- A deadline is on time exactly if every pull before it ended by the one that followed. -/
theorem loop_deadline_iff {next now : Nat} (h : next ≤ now) {turns : List Turn} {k : Nat}
    {p : Pull} (hp : (loop next now turns)[k]? = some p) :
    p.deadline = next + PERIOD * k ↔
      ∀ j q, j < k → (loop next now turns)[j]? = some q →
        q.finish ≤ next + PERIOD * (j + 1) := by
  induction turns generalizing next now k with
  | nil => cases hp
  | cons turn turns ih =>
      cases k with
      | zero =>
          obtain rfl := Option.some.inj hp
          exact iff_of_true rfl fun j q hj => absurd hj (Nat.not_lt_zero j)
      | succ k =>
          have hstep := period_le_advance next (now + turn.wait + turn.pull)
          have hlate := (loop_late (le_sleepUntil _ _ _) hp).1
          have hrest := ih (le_sleepUntil _ _ _) hp
          rw [Nat.mul_succ]
          constructor
          · intro heq j q hj hq
            have hput : advance next (now + turn.wait + turn.pull) = next + PERIOD := by omega
            rw [hput] at hrest
            cases j with
            | zero =>
                obtain rfl := Option.some.inj hq
                have hended := (advance_eq_iff _ _).mp hput
                rwa [Nat.zero_add, Nat.mul_one]
            | succ j =>
                have hended := hrest.mp (by omega) j q (by omega) (by rw [← hput]; exact hq)
                rw [Nat.mul_succ PERIOD (j + 1)]
                omega
          · intro hall
            have hfirst := hall 0 _ (Nat.succ_pos k) rfl
            have hput : advance next (now + turn.wait + turn.pull) = next + PERIOD :=
              (advance_eq_iff _ _).mpr (by simpa using hfirst)
            rw [hput] at hrest
            have hon := hrest.mpr fun j q hj hq => by
              have hended := hall (j + 1) q (by omega) (by
                rw [← hput] at hq
                exact hq)
              rw [Nat.mul_succ PERIOD (j + 1)] at hended
              omega
            omega

/-- After a pull, whatever it took, the others start a period apart at least. -/
theorem loop_apart {next now : Nat} {turns : List Turn} {i k : Nat} {p q : Pull} (hik : i < k)
    (hp : (loop next now turns)[i]? = some p) (hq : (loop next now turns)[k]? = some q) :
    p.start + PERIOD * (k - i - 1) ≤ q.start := by
  induction turns generalizing next now i k with
  | nil => cases hp
  | cons turn turns ih =>
      cases k with
      | zero => exact absurd hik (Nat.not_lt_zero i)
      | succ k =>
          cases i with
          | zero =>
              -- the deadline after it is not before its end
              obtain rfl := Option.some.inj hp
              obtain ⟨hdeadline, hstart⟩ := loop_late (le_sleepUntil _ _ _) hq
              have hended := now_le_advance next (now + turn.wait + turn.pull)
              rw [Nat.sub_zero, Nat.add_sub_cancel]
              show now + turn.wait + PERIOD * k ≤ q.start
              omega
          | succ i =>
              rw [Nat.add_sub_add_right]
              exact ih (Nat.lt_of_succ_lt_succ hik) hp hq

/-! ### What the turns come to

Turn by turn: when the pull begins, when it is over, and what the deadline is then.  The
lemmas before this are about any two pulls of a run, and these about one and the next.
-/

/-- There is a pull for each turn, and each is determined by its turn and the one before. -/
structure Follows (t0 : Nat) (turns : List Turn) (pulls : List Pull) : Prop where
  length : pulls.length = turns.length
  first : ∀ turn p, turns[0]? = some turn → pulls[0]? = some p →
    p.deadline = t0 ∧ p.start = t0 + turn.wait
  pulled : ∀ (k : Nat) turn p, turns[k]? = some turn → pulls[k]? = some p →
    p.finish = p.start + turn.pull
  /-- The next deadline, and the sleep until then. -/
  woken : ∀ (k : Nat) turn turn' p q, turns[k]? = some turn → turns[k + 1]? = some turn' →
    pulls[k]? = some p → pulls[k + 1]? = some q →
      q.deadline = max (p.deadline + PERIOD) p.finish ∧
      q.start = max p.finish q.deadline + turn.oversleep + turn'.wait

theorem advance_eq_max (next now : Nat) : advance next now = max (next + PERIOD) now := by
  unfold advance
  dsimp only
  split <;> omega

theorem loop_length (next now : Nat) (turns : List Turn) :
    (loop next now turns).length = turns.length := by
  induction turns generalizing next now with
  | nil => rfl
  | cons turn turns ih => exact congrArg (· + 1) (ih _ _)

theorem loop_first {next now : Nat} {turns : List Turn} {turn : Turn} {p : Pull}
    (hturn : turns[0]? = some turn) (hp : (loop next now turns)[0]? = some p) :
    p.deadline = next ∧ p.start = now + turn.wait := by
  cases turns with
  | nil => cases hturn
  | cons turn' turns =>
      obtain rfl := Option.some.inj hturn
      obtain rfl := Option.some.inj hp
      exact ⟨rfl, rfl⟩

theorem loop_pulled {next now : Nat} {turns : List Turn} {k : Nat} {turn : Turn} {p : Pull}
    (hturn : turns[k]? = some turn) (hp : (loop next now turns)[k]? = some p) :
    p.finish = p.start + turn.pull := by
  induction turns generalizing next now k with
  | nil => cases hturn
  | cons turn' turns ih =>
      cases k with
      | zero =>
          obtain rfl := Option.some.inj hturn
          obtain rfl := Option.some.inj hp
          rfl
      | succ k => exact ih hturn hp

/-- A pull is followed by the deadline and the sleep that its turn leads to. -/
theorem loop_woken {next now : Nat} {turns : List Turn} {k : Nat} {turn turn' : Turn} {p q : Pull}
    (hturn : turns[k]? = some turn) (hturn' : turns[k + 1]? = some turn')
    (hp : (loop next now turns)[k]? = some p) (hq : (loop next now turns)[k + 1]? = some q) :
    q.deadline = max (p.deadline + PERIOD) p.finish ∧
      q.start = max p.finish q.deadline + turn.oversleep + turn'.wait := by
  induction turns generalizing next now k with
  | nil => cases hturn
  | cons turn'' turns ih =>
      cases k with
      | zero =>
          obtain rfl := Option.some.inj hturn
          obtain rfl := Option.some.inj hp
          obtain ⟨hdeadline, hstart⟩ := loop_first hturn' hq
          rw [hstart, hdeadline]
          exact ⟨advance_eq_max _ _, rfl⟩
      | succ k => exact ih hturn hturn' hp hq

theorem playoutLoop_follows (t0 : Nat) (turns : List Turn) :
    Follows t0 turns (playoutLoop t0 turns) where
  length := loop_length t0 t0 turns
  first _ _ hturn hp := loop_first hturn hp
  pulled _ _ _ hturn hp := loop_pulled hturn hp
  woken _ _ _ _ _ hturn hturn' hp hq := loop_woken hturn hturn' hp hq

/--
**The playout clock neither drifts nor bursts.**  The loop pulls once a turn.  While every pull
has ended by the deadline that follows it, the deadlines are a period apart, whatever was
overslept; and a pull starts later than any pull before the last by a period for each turn
between, so that no more than one pull is made up after a stall.
-/
theorem playoutLoop_steady (t0 : Nat) (turns : List Turn) :
    Follows t0 turns (playoutLoop t0 turns) ∧
    (∀ k p, (playoutLoop t0 turns)[k]? = some p →
      (∀ j q, j < k → (playoutLoop t0 turns)[j]? = some q →
        q.finish ≤ t0 + PERIOD * (j + 1)) →
      p.deadline = t0 + PERIOD * k) ∧
    ∀ i k p q, i < k → (playoutLoop t0 turns)[i]? = some p →
      (playoutLoop t0 turns)[k]? = some q → p.start + PERIOD * (k - i - 1) ≤ q.start := by
  refine ⟨playoutLoop_follows t0 turns, fun k p hp hended => ?_,
    fun i k p q hik hp hq => loop_apart hik hp hq⟩
  exact (loop_deadline_iff (Nat.le_refl t0) hp).mpr hended

/-- A stall of 35 ms in the second turn, and an oversleep of 4 in the third. -/
def stall : List Turn := [⟨0, 3, 0⟩, ⟨0, 35, 0⟩, ⟨1, 2, 4⟩, ⟨0, 2, 0⟩, ⟨0, 2, 0⟩]

/-- Of the pulls the stall cost one is made up, and from there on they are a period apart. -/
theorem playoutLoop_steady_stall :
    (playoutLoop 0 stall).map (·.start) = [0, 10, 46, 59, 65] ∧
      (playoutLoop 0 stall).map (·.deadline) = [0, 10, 45, 55, 65] ∧
      (playoutLoop 0 stall).length = stall.length ∧ 10 + PERIOD * (4 - 1 - 1) ≤ 65 :=
  ⟨by decide, by decide, (playoutLoop_steady 0 stall).1.length,
    (playoutLoop_steady 0 stall).2.2 1 4 ⟨10, 10, 45⟩ ⟨65, 65, 67⟩ (by decide) (by decide)
      (by decide)⟩

end ReactorWebrtc.Playout
