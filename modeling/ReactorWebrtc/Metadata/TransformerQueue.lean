/-
The queue of a sender's transform delegate, and who deletes it.

The delegate owns the queue, and the tasks on the queue own the delegate: a transformed frame
is posted with a reference to it, and under the test's hold the task posts that reference
once more, with a delay.  So the last reference may well be a task's, and then the delegate's
destructor runs on the very thread it is to join.  The patch hands the queue to another thread
there, which deletes it once the task has returned.

The machine is the delegate with its queue, `patched` or not.  Whoever else holds the delegate
(the sender, the transformer's sinks, a frame in the transformer) is one of `others`.
`queue_safe` is about the patched one; `queue_joins_itself` is the run the patch is for.

That a frame is sent means here that it was handed to the video sender, whose code is not
the repository's.  What `SendVideo` does with it, and how long that takes, is no part of
this.
-/
import ReactorWebrtc.Lib.Counted
import ReactorWebrtc.Lib.Machine

namespace ReactorWebrtc.TransformerQueue

/-- What is posted to the queue; each has a reference to the delegate. -/
inductive Task
  | frame (n : Nat)
  /-- Posted with a delay; only holds its reference. -/
  | hold
  deriving DecidableEq, Repr

/-- Where the task on the queue is. -/
inductive Stage
  | entered
  /-- Past `SendVideo`. -/
  | sent
  /-- Without a reference, on its way back to the queue. -/
  | left
  deriving DecidableEq, Repr

/-- Who deletes the queue, and how far that is. -/
inductive Deletion
  | none
  /-- A detached thread is started for it. -/
  | spawned
  /-- Told to quit, and waiting for the queue's thread. -/
  | joining
  | done
  deriving DecidableEq, Repr

/-- The delegate, its queue, the tasks there are, and what has been handed on. -/
structure State where
  /-- References that are not a task's. -/
  others : Nat := 1
  delegate : Counted := {}
  queue : Counted := {}
  pending : List Task := []
  /-- Tasks that are not due yet. -/
  delayed : Nat := 0
  running : Option (Task × Stage) := none
  deletion : Deletion := .none
  /-- The queue's thread was to join itself. -/
  aborted : Bool := false
  posted : Nat := 0
  sent : List Nat := []
  deriving DecidableEq, Repr

/-- What the threads outside and the queue's own do, in any order. -/
inductive Action
  | share
  /-- Another thread lets go of the delegate. -/
  | drop
  /-- `OnTransformedFrame` -/
  | post
  | dequeue
  | send
  /-- The task posts its reference with a delay. -/
  | hold
  | due
  /-- The task's own reference goes. -/
  | letGo
  | ret
  | startDelete
  | join
  deriving DecidableEq, Repr

/-- There is a task on the queue, and it is there. -/
def State.at (s : State) (p : Task → Stage → Bool) : Prop :=
  s.running.any (fun r => p r.1 r.2) = true

instance (s : State) (p : Task → Stage → Bool) : Decidable (s.at p) :=
  inferInstanceAs (Decidable (_ = _))

/-- `SendVideo` is still to come. -/
def toSend : Task → Stage → Bool
  | .frame _, .entered => true
  | _, _ => false

/-- The task's body is over, but its reference is still there. -/
def toLetGo : Task → Stage → Bool
  | .hold, .entered | _, .sent => true
  | _, _ => false

/-- The queue takes its tasks one by one, and none once it is told to quit. -/
def possible (s : State) : Action → Prop
  | .share | .drop | .post => 0 < s.others
  | .dequeue => s.running = none ∧ s.pending ≠ [] ∧ s.deletion ≠ .joining ∧ s.deletion ≠ .done
  | .send => s.at toSend
  | .hold => s.at fun _ stage => stage == .sent
  | .due => 0 < s.delayed
  | .letGo => s.at toLetGo
  | .ret => s.at fun _ stage => stage == .left
  | .startDelete => s.deletion = .spawned
  | .join => s.deletion = .joining ∧ s.running = none

instance (s : State) : ∀ a, Decidable (possible s a)
  | .share | .drop | .post | .due => inferInstanceAs (Decidable (_ < _))
  | .dequeue | .join => inferInstanceAs (Decidable (_ ∧ _))
  | .send => inferInstanceAs (Decidable (s.at toSend))
  | .hold => inferInstanceAs (Decidable (s.at fun _ stage => stage == .sent))
  | .letGo => inferInstanceAs (Decidable (s.at toLetGo))
  | .ret => inferInstanceAs (Decidable (s.at fun _ stage => stage == .left))
  | .startDelete => inferInstanceAs (Decidable (_ = _))

/-- Nothing happens any more in a process that was aborted. -/
def enabled (s : State) (a : Action) : Prop := s.aborted = false ∧ possible s a

instance (s : State) (a : Action) : Decidable (enabled s a) := inferInstanceAs (Decidable (_ ∧ _))

/-- The task on the queue is further on. -/
def State.goto (s : State) (stage : Stage) : Option (Task × Stage) :=
  s.running.map fun r => (r.1, stage)

/-- The frame on the queue that is not handed on yet. -/
def State.unsent (s : State) : List Nat :=
  match s.running with
  | some (.frame n, .entered) => [n]
  | _ => []

/-- The delegate's destructor, on the queue's own thread or on another.  There `Delete` is called
at once, and tells the queue to quit. -/
def State.destroy (s : State) (patched onQueue : Bool) : State :=
  if onQueue then
    if patched then { s with queue := s.queue.use, deletion := .spawned }
    else { s with aborted := true }
  else { s with queue := s.queue.use, deletion := .joining }

/-- One reference to the delegate less. -/
def State.release (s : State) (patched onQueue : Bool) : State :=
  let t := { s with delegate := s.delegate.release }
  if s.delegate.count = 1 then t.destroy patched onQueue else t

/-- What each leaves; `patched` is whether the last reference may go on the queue itself. -/
def effect (patched : Bool) (s : State) : Action → State
  | .share => { s with others := s.others + 1, delegate := s.delegate.retain }
  | .drop => { s with others := s.others - 1 }.release patched false
  | .post =>
    { s with
      delegate := s.delegate.retain
      queue := s.queue.use
      pending := s.pending ++ [.frame s.posted]
      posted := s.posted + 1 }
  | .dequeue =>
    { s with
      queue := s.queue.use
      running := s.pending.head?.map fun task => (task, .entered)
      pending := s.pending.tail }
  | .send =>
    { s with delegate := s.delegate.use, sent := s.sent ++ s.unsent, running := s.goto .sent }
  | .hold =>
    { s with
      delegate := s.delegate.use
      queue := s.queue.use
      delayed := s.delayed + 1
      running := s.goto .left }
  | .due =>
    { s with queue := s.queue.use, delayed := s.delayed - 1, pending := s.pending ++ [.hold] }
  | .letGo => { s with running := s.goto .left }.release patched true
  | .ret => { s with queue := s.queue.use, running := none }
  | .startDelete => { s with queue := s.queue.use, deletion := .joining }
  | .join => { s with queue := s.queue.release, deletion := .done }

/-- The delegate with one reference, and nothing posted. -/
def machine (patched : Bool) : Machine State Action := .ofEffect {} enabled (effect patched)

/-- A frame's task holds the last reference, and the queue's thread is to join itself. -/
theorem queue_joins_itself : ∃ s,
    (machine false).run {} [.post, .dequeue, .send, .drop, .letGo] = some s ∧ s.aborted = true :=
  ⟨_, rfl, rfl⟩

/-! ### What is kept -/

variable {s t : State} {a : Action}

/-- The frame of a task, if it is for one. -/
def Task.frames : Task → List Nat
  | .frame n => [n]
  | .hold => []

/-- The reference of the task on the queue. -/
def inTask (running : Option (Task × Stage)) : Nat := (running.any fun r => r.2 != .left).toNat

namespace State

/-- The references to the delegate. -/
def refs (s : State) : Nat := s.others + s.pending.length + s.delayed + inTask s.running

/-- The frames that were posted, as far as they are to be found, in order. -/
def inOrder (s : State) : List Nat := s.sent ++ (s.unsent ++ s.pending.flatMap Task.frames)

end State

/-- The counts, and where the frames are. -/
structure Inv (s : State) : Prop where
  alive : s.aborted = false
  delegate : s.delegate.Held s.refs
  queue : s.queue.Held (if s.deletion = .done then 0 else 1)
  /-- The destructor has run exactly if nobody holds the delegate. -/
  deletion : s.deletion = .none ↔ s.refs ≠ 0
  done : s.deletion = .done → s.running = none
  order : s.inOrder = List.range s.posted

/-- What is on the queue. -/
theorem State.at_iff {p : Task → Stage → Bool} :
    s.at p ↔ ∃ task stage, s.running = some (task, stage) ∧ p task stage = true := by
  unfold State.at
  rw [Option.any_eq_true]
  exact ⟨fun ⟨r, hr, hp⟩ => ⟨r.1, r.2, hr, hp⟩, fun ⟨task, stage, hr, hp⟩ => ⟨_, hr, hp⟩⟩

theorem toSend_eq {task : Task} {stage : Stage} (h : toSend task stage = true) :
    ∃ n, task = .frame n ∧ stage = .entered := by
  unfold toSend at h
  split at h
  · exact ⟨_, rfl, rfl⟩
  · cases h

namespace Inv

theorem refs_of_done (h : Inv s) (hdone : s.deletion = .done) : s.refs = 0 :=
  Decidable.byContradiction fun hrefs => by
    rw [h.deletion.mpr hrefs] at hdone
    cases hdone

theorem deletion_none (h : Inv s) (hrefs : 0 < s.refs) : s.deletion = .none :=
  h.deletion.mpr (Nat.ne_of_gt hrefs)

theorem queued (h : Inv s) (hdone : s.deletion ≠ .done) : s.queue.Held 1 := by
  have hqueue := h.queue
  rwa [if_neg hdone] at hqueue

theorem queued_of_refs (h : Inv s) (hrefs : 0 < s.refs) : s.queue.Held 1 :=
  h.queued (by rw [h.deletion_none hrefs]; decide)

/-- A step that leaves as many references as there were, with somebody holding one. -/
theorem of_refs (hrefs : t.refs = s.refs) (hpos : 0 < s.refs) (hdeletion : t.deletion = .none)
    (halive : t.aborted = false) (hdelegate : t.delegate.Held s.refs) (hqueue : t.queue.Held 1)
    (horder : t.inOrder = List.range t.posted) : Inv t where
  alive := halive
  delegate := hrefs.symm ▸ hdelegate
  queue := by
    rw [hdeletion, if_neg (by decide)]
    exact hqueue
  deletion := iff_of_true hdeletion (by omega)
  done h := by
    rw [hdeletion] at h
    cases h
  order := horder

/-- One reference less. On the queue's own thread the destructor leaves the queue to another. -/
theorem release {onQueue : Bool} (halive : s.aborted = false)
    (hdelegate : s.delegate.Held (s.refs + 1)) (hqueue : s.queue.Held 1)
    (hdeletion : s.deletion = .none) (horder : s.inOrder = List.range s.posted) :
    Inv (s.release true onQueue) := by
  unfold State.release
  by_cases hlast : s.delegate.count = 1
  · have hrefs : s.refs = 0 := by
      have hcount := hdelegate.count
      omega
    have hqueue' := hqueue.use Nat.one_pos
    dsimp only
    rw [if_pos hlast]
    cases onQueue with
    | true =>
        exact ⟨halive, hdelegate.release, hqueue',
          iff_of_false nofun fun h => h hrefs, nofun, horder⟩
    | false =>
        exact ⟨halive, hdelegate.release, hqueue',
          iff_of_false nofun fun h => h hrefs, nofun, horder⟩
  · have hrefs : s.refs ≠ 0 := by
      have hcount := hdelegate.count
      omega
    dsimp only
    rw [if_neg hlast]
    exact of_refs (s := s) rfl (Nat.pos_of_ne_zero hrefs) hdeletion halive hdelegate.release hqueue
      horder

theorem refs_pos_of_others (hen : 0 < s.others) : 0 < s.refs := by
  unfold State.refs
  omega

theorem refs_pos_of_running {task : Task} {stage : Stage}
    (hrunning : s.running = some (task, stage)) (hstage : stage ≠ .left) : 0 < s.refs := by
  have hheld : inTask s.running = 1 := by
    rw [hrunning]
    exact congrArg Bool.toNat (bne_iff_ne.mpr hstage)
  unfold State.refs
  omega

theorem share (h : Inv s) (hen : 0 < s.others) :
    Inv { s with others := s.others + 1, delegate := s.delegate.retain } := by
  have hpos := refs_pos_of_others hen
  have hmore : ({ s with others := s.others + 1, delegate := s.delegate.retain } : State).refs =
      s.refs + 1 := by
    show s.others + 1 + s.pending.length + s.delayed + inTask s.running = s.refs + 1
    unfold State.refs
    omega
  refine { h with delegate := ?_, deletion := ?_ }
  · rw [hmore]
    exact h.delegate.retain hpos
  · rw [hmore]
    exact iff_of_true (h.deletion_none hpos) (Nat.succ_ne_zero _)

theorem drop (h : Inv s) (hen : 0 < s.others) :
    Inv (({ s with others := s.others - 1 } : State).release true false) := by
  have hpos := refs_pos_of_others hen
  have hrefs : s.refs = ({ s with others := s.others - 1 } : State).refs + 1 := by
    show s.others + s.pending.length + s.delayed + inTask s.running =
      s.others - 1 + s.pending.length + s.delayed + inTask s.running + 1
    omega
  exact release h.alive (hrefs ▸ h.delegate) (h.queued_of_refs hpos) (h.deletion_none hpos) h.order

theorem post (h : Inv s) (hen : 0 < s.others) :
    Inv { s with
      delegate := s.delegate.retain
      queue := s.queue.use
      pending := s.pending ++ [.frame s.posted]
      posted := s.posted + 1 } := by
  have hpos := refs_pos_of_others hen
  have hmore : ({ s with
      delegate := s.delegate.retain
      queue := s.queue.use
      pending := s.pending ++ [.frame s.posted]
      posted := s.posted + 1 } : State).refs = s.refs + 1 := by
    show s.others + (s.pending ++ [_]).length + s.delayed + inTask s.running = s.refs + 1
    unfold State.refs
    rw [List.length_append, List.length_singleton]
    omega
  have hdeletion := h.deletion_none hpos
  have hqueue := (h.queued_of_refs hpos).use Nat.one_pos
  refine { h with delegate := ?_, deletion := ?_, queue := ?_, order := ?_ }
  · rw [hmore]
    exact h.delegate.retain hpos
  · show s.queue.use.Held (if s.deletion = .done then 0 else 1)
    rwa [hdeletion, if_neg (by decide)]
  · rw [hmore]
    exact iff_of_true hdeletion (Nat.succ_ne_zero _)
  · show s.sent ++ (s.unsent ++ (s.pending ++ [Task.frame s.posted]).flatMap Task.frames) = _
    rw [List.flatMap_append, List.range_succ, ← h.order]
    simp [State.inOrder, Task.frames]

theorem dequeue (h : Inv s) (hidle : s.running = none) (hpending : s.pending ≠ []) :
    Inv { s with
      queue := s.queue.use
      running := s.pending.head?.map fun task => (task, .entered)
      pending := s.pending.tail } := by
  obtain ⟨task, rest, htasks⟩ := List.exists_cons_of_ne_nil hpending
  have hpos : 0 < s.refs := by
    unfold State.refs
    rw [htasks, List.length_cons]
    omega
  refine of_refs (s := s) ?_ hpos (h.deletion_none hpos) h.alive h.delegate
    ((h.queued_of_refs hpos).use Nat.one_pos) ?_
  · show s.others + s.pending.tail.length + s.delayed +
      inTask (s.pending.head?.map fun task => (task, .entered)) = s.refs
    unfold State.refs
    rw [htasks, hidle]
    show s.others + rest.length + s.delayed + 1 = s.others + (rest.length + 1) + s.delayed + 0
    omega
  · rw [← h.order]
    unfold State.inOrder State.unsent
    dsimp only
    rw [htasks, hidle]
    cases task <;> rfl

theorem send (h : Inv s) (hen : s.at toSend) :
    Inv { s with
      delegate := s.delegate.use
      sent := s.sent ++ s.unsent
      running := s.goto .sent } := by
  obtain ⟨task, stage, hrunning, hp⟩ := State.at_iff.mp hen
  obtain ⟨n, rfl, rfl⟩ := toSend_eq hp
  have hpos := refs_pos_of_running hrunning (by decide)
  have hgoto : s.goto .sent = some (.frame n, .sent) := by
    unfold State.goto
    rw [hrunning]
    rfl
  refine of_refs (s := s) ?_ hpos (h.deletion_none hpos) h.alive (h.delegate.use hpos)
    (h.queued_of_refs hpos) ?_
  · unfold State.refs
    rw [hrunning, hgoto]
    rfl
  · rw [← h.order]
    unfold State.inOrder State.unsent
    dsimp only
    rw [hrunning, hgoto, List.append_assoc]
    rfl

theorem hold (h : Inv s) (hen : s.at fun _ stage => stage == .sent) :
    Inv { s with
      delegate := s.delegate.use
      queue := s.queue.use
      delayed := s.delayed + 1
      running := s.goto .left } := by
  obtain ⟨task, stage, hrunning, hp⟩ := State.at_iff.mp hen
  obtain rfl := eq_of_beq hp
  have hpos := refs_pos_of_running hrunning (by decide)
  have hgoto : s.goto .left = some (task, .left) := by
    unfold State.goto
    rw [hrunning]
    rfl
  refine of_refs (s := s) ?_ hpos (h.deletion_none hpos) h.alive (h.delegate.use hpos)
    ((h.queued_of_refs hpos).use Nat.one_pos) ?_
  · show s.others + s.pending.length + (s.delayed + 1) + inTask (s.goto .left) = s.refs
    unfold State.refs
    rw [hrunning, hgoto]
    show s.others + s.pending.length + (s.delayed + 1) + 0 =
      s.others + s.pending.length + s.delayed + 1
    omega
  · rw [← h.order]
    unfold State.inOrder State.unsent
    dsimp only
    rw [hrunning, hgoto]
    cases task <;> rfl

theorem due (h : Inv s) (hen : 0 < s.delayed) :
    Inv { s with
      queue := s.queue.use
      delayed := s.delayed - 1
      pending := s.pending ++ [.hold] } := by
  have hpos : 0 < s.refs := by
    unfold State.refs
    omega
  refine of_refs (s := s) ?_ hpos (h.deletion_none hpos) h.alive h.delegate
    ((h.queued_of_refs hpos).use Nat.one_pos) ?_
  · show s.others + (s.pending ++ [_]).length + (s.delayed - 1) + inTask s.running = s.refs
    unfold State.refs
    rw [List.length_append, List.length_singleton]
    omega
  · rw [← h.order]
    show s.sent ++ (s.unsent ++ (s.pending ++ [Task.hold]).flatMap Task.frames) = _
    rw [List.flatMap_append]
    show s.sent ++ (s.unsent ++ (s.pending.flatMap Task.frames ++ [])) = _
    rw [List.append_nil]
    rfl

theorem letGo (h : Inv s) (hen : s.at toLetGo) :
    Inv (({ s with running := s.goto .left } : State).release true true) := by
  obtain ⟨task, stage, hrunning, hp⟩ := State.at_iff.mp hen
  have hstage : stage ≠ .left := by
    rintro rfl
    cases task <;> cases hp
  have hpos := refs_pos_of_running hrunning hstage
  have hgoto : s.goto .left = some (task, .left) := by
    unfold State.goto
    rw [hrunning]
    rfl
  have hheld : inTask s.running = 1 := by
    rw [hrunning]
    exact congrArg Bool.toNat (bne_iff_ne.mpr hstage)
  have hrefs : s.refs = ({ s with running := s.goto .left } : State).refs + 1 := by
    show s.others + s.pending.length + s.delayed + inTask s.running =
      s.others + s.pending.length + s.delayed + inTask (s.goto .left) + 1
    rw [hheld, hgoto]
    rfl
  refine release h.alive (hrefs ▸ h.delegate) (h.queued_of_refs hpos) (h.deletion_none hpos) ?_
  rw [← h.order]
  unfold State.inOrder State.unsent
  dsimp only
  rw [hrunning, hgoto]
  -- A frame's task lets go after `SendVideo` only.
  cases task with
  | frame n =>
      cases stage with
      | entered => cases hp
      | sent => rfl
      | left => cases hp
  | hold => rfl

/-- The task returns to the queue, which is there, whoever is about to delete it. -/
theorem ret (h : Inv s) (hen : s.at fun _ stage => stage == .left) :
    Inv { s with queue := s.queue.use, running := none } := by
  obtain ⟨task, stage, hrunning, hp⟩ := State.at_iff.mp hen
  obtain rfl := eq_of_beq hp
  have hdone : s.deletion ≠ .done := fun hd => by
    rw [h.done hd] at hrunning
    cases hrunning
  have hrefs : ({ s with queue := s.queue.use, running := none } : State).refs = s.refs := by
    show s.others + s.pending.length + s.delayed + inTask none = s.refs
    unfold State.refs
    rw [hrunning]
    rfl
  refine { h with delegate := ?_, queue := ?_, deletion := ?_, done := fun _ => rfl, order := ?_ }
  · rw [hrefs]
    exact h.delegate
  · show s.queue.use.Held (if s.deletion = .done then 0 else 1)
    rw [if_neg hdone]
    exact (h.queued hdone).use Nat.one_pos
  · rw [hrefs]
    exact h.deletion
  · rw [← h.order]
    unfold State.inOrder State.unsent
    dsimp only
    rw [hrunning]
    cases task <;> rfl

theorem startDelete (h : Inv s) (hen : s.deletion = .spawned) :
    Inv { s with queue := s.queue.use, deletion := .joining } := by
  have hqueue := h.queued (by rw [hen]; decide)
  have hrefs : ¬ s.refs ≠ 0 := fun hne => by
    rw [h.deletion.mpr hne] at hen
    cases hen
  exact { h with
    queue := hqueue.use Nat.one_pos
    deletion := iff_of_false nofun hrefs
    done := nofun }

theorem join (h : Inv s) (hen : s.deletion = .joining) (hidle : s.running = none) :
    Inv { s with queue := s.queue.release, deletion := .done } := by
  have hqueue := h.queued (by rw [hen]; decide)
  have hrefs : ¬ s.refs ≠ 0 := fun hne => by
    rw [h.deletion.mpr hne] at hen
    cases hen
  exact { h with
    queue := hqueue.release
    deletion := iff_of_false nofun hrefs
    done := fun _ => hidle }

end Inv

theorem inv_start : Inv (machine true).start where
  alive := rfl
  delegate := Counted.Held.new
  queue := Counted.Held.new
  deletion := iff_of_true rfl (by decide)
  done _ := rfl
  order := rfl

theorem inv_step (s : State) (a : Action) (t : State) (h : Inv s)
    (hstep : (machine true).step s a = some t) : Inv t := by
  obtain ⟨⟨-, hen⟩, rfl⟩ := Machine.ofEffect_step.mp hstep
  cases a with
  | share => exact h.share hen
  | drop => exact h.drop hen
  | post => exact h.post hen
  | dequeue => exact h.dequeue hen.1 hen.2.1
  | send => exact h.send hen
  | hold => exact h.hold hen
  | due => exact h.due hen
  | letGo => exact h.letGo hen
  | ret => exact h.ret hen
  | startDelete => exact h.startDelete hen
  | join => exact h.join hen.1 hen.2

theorem inv_of_reachable (h : (machine true).Reachable s) : Inv s :=
  Machine.invariant inv_start inv_step h

/-! ### What comes of it -/

/-- Nothing is used after its end, and the frames go out in order. -/
structure Safe (s : State) : Prop where
  /-- No thread is to join itself. -/
  alive : s.aborted = false
  /-- Nothing is touched that is not there. -/
  delegate : s.delegate.stale = 0
  queue : s.queue.stale = 0
  /-- The queue is deleted once at most, after everything on it. -/
  deleted : s.queue.freed ≤ 1 ∧ (s.queue.freed = 1 →
    s.running = none ∧ s.pending = [] ∧ s.delayed = 0 ∧ s.others = 0)
  /-- Frames are sent in the order in which they came, and all of them before the queue goes. -/
  order : s.sent <+: List.range s.posted
  all : s.queue.freed = 1 → s.sent = List.range s.posted

/-- With nobody holding the delegate there is nothing on the queue but the task's way back. -/
theorem State.refs_eq_zero (h : s.refs = 0) :
    s.others = 0 ∧ s.pending = [] ∧ s.delayed = 0 ∧ inTask s.running = 0 := by
  unfold State.refs at h
  exact ⟨by omega, List.eq_nil_of_length_eq_zero (by omega), by omega, by omega⟩

theorem queue_safe (h : (machine true).Reachable s) : Safe s := by
  have hinv := inv_of_reachable h
  have hgone : s.queue.freed = 1 → s.running = none ∧ s.refs = 0 := by
    intro hfreed
    have hdone : s.deletion = .done := Decidable.byContradiction fun hdone => by
      rw [(hinv.queued hdone).alive Nat.one_pos] at hfreed
      cases hfreed
    exact ⟨hinv.done hdone, hinv.refs_of_done hdone⟩
  refine ⟨hinv.alive, hinv.delegate.stale, hinv.queue.stale, ⟨hinv.queue.freed_le_one, ?_⟩, ?_, ?_⟩
  · intro hfreed
    obtain ⟨hrunning, hrefs⟩ := hgone hfreed
    obtain ⟨hothers, hpending, hdelayed, -⟩ := State.refs_eq_zero hrefs
    exact ⟨hrunning, hpending, hdelayed, hothers⟩
  · exact ⟨_, hinv.order⟩
  · intro hfreed
    obtain ⟨hrunning, hrefs⟩ := hgone hfreed
    have horder := hinv.order
    unfold State.inOrder State.unsent at horder
    rw [hrunning, (State.refs_eq_zero hrefs).2.1] at horder
    simpa using horder

/-- The run of `queue_joins_itself`, to its end. -/
theorem queue_safe_last : ∃ s, (machine true).run {}
      [.post, .dequeue, .send, .drop, .letGo, .startDelete, .ret, .join] = some s ∧
    Safe s ∧ s.queue.freed = 1 ∧ s.sent = [0] :=
  ⟨_, rfl, queue_safe
    ⟨[.post, .dequeue, .send, .drop, .letGo, .startDelete, .ret, .join], rfl⟩, rfl, rfl⟩

/-! ### Coming to an end

A task that has been taken off the queue runs to its end without anybody's help, and each
takes a reference with it.  A thread that is to join the queue waits for the task that runs,
and no longer.
-/

/-- What is done to come to an end: nothing new is posted. -/
def Action.winds : Action → Bool
  | .share | .post | .hold => false
  | _ => true

/-- How many steps are left of the task on the queue. -/
def Stage.weight : Stage → Nat
  | .entered => 4
  | .sent => 3
  | .left => 1

/-- How many steps are left of a deletion. -/
def Deletion.weight : Deletion → Nat
  | .none => 3
  | .spawned => 2
  | .joining => 1
  | .done => 0

namespace State

/-- How many steps are left in all. -/
def weight (s : State) : Nat :=
  s.others + 6 * s.pending.length + 7 * s.delayed + s.running.elim 0 (·.2.weight) +
    s.deletion.weight

theorem release_weight (s : State) (patched onQueue : Bool) (h : s.deletion = .none) :
    (s.release patched onQueue).weight ≤ s.weight := by
  have hless (deletion : Deletion) : s.others + 6 * s.pending.length + 7 * s.delayed +
      s.running.elim 0 (·.2.weight) + deletion.weight ≤ s.weight := by
    have hmost : deletion.weight ≤ Deletion.none.weight := by cases deletion <;> decide
    unfold weight
    rw [h]
    omega
  unfold release destroy
  dsimp only
  split
  · split
    · split
      · exact hless .spawned
      · exact Nat.le_refl _
    · exact hless .joining
  · exact Nat.le_refl _

end State

/-- The task on the queue can always go on. -/
theorem exists_winding_running (h : Inv s) {task : Task} {stage : Stage}
    (hrunning : s.running = some (task, stage)) :
    ∃ a, a.winds = true ∧ possible s a ∧ (effect true s a).weight < s.weight := by
  have hat {p : Task → Stage → Bool} (hp : p task stage = true) : s.at p :=
    State.at_iff.mpr ⟨task, stage, hrunning, hp⟩
  have hgoto (stage' : Stage) : s.goto stage' = some (task, stage') := by
    unfold State.goto
    rw [hrunning]
    rfl
  have hleft (sent : List Nat) (delegate : Counted) {stage' : Stage}
      (hless : stage'.weight < stage.weight) :
      ({ s with delegate, sent, running := s.goto stage' } : State).weight < s.weight := by
    show s.others + 6 * s.pending.length + 7 * s.delayed + (s.goto stage').elim 0 (·.2.weight) +
      s.deletion.weight < s.weight
    unfold State.weight
    rw [hgoto, hrunning]
    exact Nat.add_lt_add_right (Nat.add_lt_add_left hless _) _
  have hletGo (hstage : stage ≠ .left) (hp : toLetGo task stage = true) :
      possible s .letGo ∧ (effect true s .letGo).weight < s.weight := by
    have hless : Stage.left.weight < stage.weight := by
      cases stage
      · decide
      · decide
      · exact absurd rfl hstage
    refine ⟨hat hp, Nat.lt_of_le_of_lt (State.release_weight _ true true ?_) (hleft _ _ hless)⟩
    exact h.deletion_none (Inv.refs_pos_of_running hrunning hstage)
  cases stage with
  | entered =>
      cases task with
      | frame n => exact ⟨.send, rfl, hat rfl, hleft _ _ (by decide)⟩
      | hold => exact ⟨.letGo, rfl, hletGo nofun rfl⟩
  | sent => exact ⟨.letGo, rfl, hletGo nofun (by cases task <;> rfl)⟩
  | left =>
      refine ⟨.ret, rfl, hat (p := fun _ stage => stage == .left) rfl, ?_⟩
      show s.others + 6 * s.pending.length + 7 * s.delayed + 0 + s.deletion.weight < s.weight
      unfold State.weight
      rw [hrunning]
      show _ < s.others + 6 * s.pending.length + 7 * s.delayed + 1 + s.deletion.weight
      omega

theorem exists_winding (h : Inv s) (hdone : s.deletion ≠ .done) :
    ∃ a, a.winds = true ∧ possible s a ∧ (effect true s a).weight < s.weight := by
  cases hrunning : s.running with
  | some r => exact exists_winding_running h hrunning
  | none =>
      cases hdeletion : s.deletion with
      | done => exact absurd hdeletion hdone
      | joining =>
          refine ⟨.join, rfl, ⟨hdeletion, hrunning⟩, ?_⟩
          show _ + Deletion.done.weight < _ + s.deletion.weight
          rw [hdeletion]
          exact Nat.add_lt_add_left (by decide) _
      | spawned =>
          refine ⟨.startDelete, rfl, hdeletion, ?_⟩
          show _ + Deletion.joining.weight < _ + s.deletion.weight
          rw [hdeletion]
          exact Nat.add_lt_add_left (by decide) _
      | none =>
          by_cases hothers : 0 < s.others
          · refine ⟨.drop, rfl, hothers,
              Nat.lt_of_le_of_lt (State.release_weight _ true false hdeletion) ?_⟩
            show s.others - 1 + 6 * s.pending.length + 7 * s.delayed +
              s.running.elim 0 (·.2.weight) + s.deletion.weight < s.weight
            unfold State.weight
            omega
          · by_cases hpending : s.pending = []
            · have hdelayed : 0 < s.delayed := by
                have hrefs := h.deletion.mp hdeletion
                unfold State.refs at hrefs
                rw [hpending, hrunning] at hrefs
                have hzero : inTask none = 0 := rfl
                have hlength : ([] : List Task).length = 0 := rfl
                omega
              refine ⟨.due, rfl, hdelayed, ?_⟩
              show s.others + 6 * (s.pending ++ [_]).length + 7 * (s.delayed - 1) +
                s.running.elim 0 (·.2.weight) + s.deletion.weight < s.weight
              unfold State.weight
              rw [List.length_append, List.length_singleton]
              omega
            · refine ⟨.dequeue, rfl, ⟨hrunning, hpending, ?_, hdone⟩, ?_⟩
              · rw [hdeletion]
                decide
              · obtain ⟨task, rest, htasks⟩ := List.exists_cons_of_ne_nil hpending
                show s.others + 6 * s.pending.tail.length + 7 * s.delayed +
                  (s.pending.head?.map fun task => (task, Stage.entered)).elim 0 (·.2.weight) +
                  s.deletion.weight < s.weight
                unfold State.weight
                rw [htasks, hrunning]
                show s.others + 6 * rest.length + 7 * s.delayed + 4 + s.deletion.weight <
                  s.others + 6 * (rest.length + 1) + 7 * s.delayed + 0 + s.deletion.weight
                omega

/-- From wherever it is, everything on the queue can come to its end; then the delegate and its
queue are gone, each of them once, and every frame that came was sent. -/
theorem queue_finishes (h : (machine true).Reachable s) :
    ∃ as t, (∀ a ∈ as, a.winds = true) ∧ (machine true).run s as = some t ∧
      t.delegate.freed = 1 ∧ t.queue.freed = 1 ∧ t.sent = List.range t.posted := by
  have hprogress : ∀ s, (machine true).Reachable s → ¬ s.deletion = .done → ∃ a t, a.winds = true ∧
      (machine true).step s a = some t ∧ (machine true).Reachable t ∧ t.weight < s.weight := by
    intro s hreach hdone
    have hinv := inv_of_reachable hreach
    obtain ⟨a, ha, hposs, hless⟩ := exists_winding hinv hdone
    have hstep : (machine true).step s a = some (effect true s a) :=
      Machine.ofEffect_step.mpr ⟨⟨hinv.alive, hposs⟩, rfl⟩
    exact ⟨a, _, ha, hstep, hreach.step hstep, hless⟩
  obtain ⟨as, t, has, hrun, hreach, hdone⟩ :=
    Machine.exists_run_done (M := machine true) _ _ _ State.weight hprogress h
  have hinv := inv_of_reachable hreach
  have hdelegate := hinv.delegate
  rw [hinv.refs_of_done hdone] at hdelegate
  have hqueue := hinv.queue
  rw [if_pos hdone] at hqueue
  exact ⟨as, t, has, hrun, hdelegate.freed, hqueue.freed, (queue_safe hreach).all hqueue.freed⟩

/-- Two frames, of which one is held on to. -/
theorem queue_finishes_held : ∃ s,
    (machine true).run {} [.post, .post, .dequeue, .send, .hold, .drop] = some s ∧
    ∃ as t, (∀ a ∈ as, a.winds = true) ∧ (machine true).run s as = some t ∧
      t.delegate.freed = 1 ∧ t.queue.freed = 1 ∧ t.sent = List.range t.posted :=
  ⟨_, rfl, queue_finishes ⟨[.post, .post, .dequeue, .send, .hold, .drop], rfl⟩⟩

end ReactorWebrtc.TransformerQueue
