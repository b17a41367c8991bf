/-
How a channel runs its caller's handlers.

A native callback tells of a message or raises a notice.  The handlers that are run for it
may do things that raise more, from inside, and call back into the same three functions:
`notify`, `runMessageHandler` and `deliverNotices`.  What a handler does is a tree, each
notice with what the handlers that are run for it will do, so a tree is one behaviour of
all of them; the callbacks of a channel run on one thread, whose stack is in the state.

`delivering` is set by whoever starts at the bottom of that stack, and cleared when there is
nothing left to deliver.  So a stack in use is one delivery, with at most one notice's
handlers above it, and on top only handlers (`Shape`): no notice is delivered above those.

What was raised and what was run for it is not in the state.  It is read off the run by an
onlooker, who sees what the thread is about to do and which frames its stack has before
and after: `raisedIn` is what the acts taken raised, `startedIn` the handlers that were
started for a notice, with what they were passed.  `Told` ties the two together through
whatever is still on the stack and in the queue, and says besides that nothing a handler
does is left out: what its acts come to in the end (`noticesOf`) is either raised or still
to be.

A callback is called with its lock held, so `on_message` cannot run inside itself; a thread
that comes to it is stuck there.
-/
import ReactorWebrtc.Channel.Decision
import ReactorWebrtc.Lib.Machine

namespace ReactorWebrtc

inductive Notice
  | state (state : DataChannelState)
  | bufferedAmountLow
  deriving DecidableEq, Repr

/-- The handlers that a caller can set, with what they are passed of a notice. -/
inductive Handler
  | onMessage
  | onStateChange (state : DataChannelState)
  | onOpen | onClose | onBufferedAmountLow
  deriving DecidableEq, Repr

/-- What a handler does that comes back to the channel. -/
inductive Act
  /-- A notice is raised.  What its first and its second handler do, if they are set. -/
  | notify (notice : Notice) (first second : Option (List Act))
  | message (run : List Act)

/-- A notice as it was raised. -/
structure Raised where
  notice : Notice
  first : Option (List Act)
  second : Option (List Act)

/-- A handler and what it does. -/
abbrev Run := Handler × List Act

/-- The handler that is run for a state beside `on_state_change`. -/
def stateEvent : DataChannelState → Option Handler
  | .opened => some .onOpen
  | .closed => some .onClose
  | _ => none

/-- The handlers that are run for a notice, in turn. -/
def Raised.runs (n : Raised) : List Run :=
  match n.notice with
  | .state state =>
    (n.first.map (Handler.onStateChange state, ·)).toList ++
      ((stateEvent state).bind fun h => n.second.map (h, ·)).toList
  | .bufferedAmountLow => (n.first.map (Handler.onBufferedAmountLow, ·)).toList

/-- What the callback thread is in. -/
inductive StackFrame
  /-- A handler, and what it has still to do. -/
  | handler (name : Handler) (rest : List Act)
  /-- The handlers of the notice being delivered that have still to be run. -/
  | notice (runs : List Run)
  | deliverNotices

/-- A channel's notices, and the thread its callbacks run on. -/
structure Notices where
  queue : List Raised := []
  delivering : Bool := false
  stack : List StackFrame := []

namespace Notices

/-- Run the handlers for the notice, or leave that to who is delivering. -/
def notify (s : Notices) (n : Raised) : Notices :=
  let s := { s with queue := s.queue ++ [n] }
  if s.delivering then s
  else { s with delivering := true, stack := .deliverNotices :: s.stack }

/-- Run an `on_message` handler, holding back the notices it raises. -/
def runMessageHandler (s : Notices) (run : List Act) : Notices :=
  if s.delivering then { s with stack := .handler .onMessage run :: s.stack }
  else
    { s with
      delivering := true
      stack := .handler .onMessage run :: .deliverNotices :: s.stack }

def IsHandler : StackFrame → Prop
  | .handler .. => True
  | .notice _ | .deliverNotices => False

/-- Whether an `on_message` handler is running. -/
def inMessage (stack : List StackFrame) : Bool :=
  stack.any fun
    | .handler h _ => h == .onMessage
    | .notice _ | .deliverNotices => false

/-- `none` where the thread waits for a lock that it holds. -/
def call (s : Notices) : Act → Option Notices
  | .notify notice first second => some (s.notify { notice, first, second })
  | .message run => if inMessage s.stack then none else some (s.runMessageHandler run)

/-- The thread goes on. -/
def resume (s : Notices) : Option Notices :=
  match s.stack with
  | [] => none
  | .handler _ [] :: stack => some { s with stack }
  | .handler h (a :: rest) :: stack => { s with stack := .handler h rest :: stack }.call a
  | .notice [] :: stack => some { s with stack }
  | .notice ((h, run) :: runs) :: stack =>
    some { s with stack := .handler h run :: .notice runs :: stack }
  | .deliverNotices :: stack =>
    match s.queue with
    | [] => some { s with delivering := false, stack }
    | n :: queue => some { s with queue, stack := .notice n.runs :: .deliverNotices :: stack }

inductive Action
  /-- A native callback, on a thread that is in none. -/
  | callback (a : Act)
  | resume

def machine : Machine Notices Action where
  start := {}
  step s
    | .callback a =>
      match s.stack with
      | [] => s.call a
      | _ :: _ => none
    | .resume => s.resume

/-! ### What an onlooker sees

None of this is the code's.  An act raises a notice by being a `notify`, whatever the
channel makes of it, and a handler has been started for a notice when it is on top of the
stack where the handlers of a notice were before.
-/

/-- What the handler on top does next. -/
def nextAct (s : Notices) : Option Act :=
  match s.stack with
  | .handler _ (a :: _) :: _ => some a
  | _ => none

/-- The notice that an act raises. -/
def actRaises : Act → List Raised
  | .notify notice first second => [{ notice, first, second }]
  | .message _ => []

/-- The notices raised in a step. -/
def raises (s : Notices) (a : Action) (_ : Notices) : List Raised :=
  match a with
  | .callback a => actRaises a
  | .resume => s.nextAct.toList.flatMap actRaises

/-- The handlers started for a notice in a step. -/
def starts (s : Notices) (_ : Action) (t : Notices) : List Run :=
  match s.stack, t.stack with
  | .notice _ :: _, .handler h run :: _ => [(h, run)]
  | _, _ => []

/-- The notices raised in a run, in order. -/
def raisedIn (actions : List Action) : List Raised := machine.seen raises machine.start actions

/-- The handlers started for notices in a run, in order. -/
def startedIn (actions : List Action) : List Run := machine.seen starts machine.start actions

mutual

/-- Every notice an act comes to, with those that the handlers run for it raise. -/
def noticesOfAct : Act → List Raised
  | .notify (.state state) first second =>
    { notice := .state state, first, second } ::
      (noticesIfSet first ++ if (stateEvent state).isSome then noticesIfSet second else [])
  | .notify .bufferedAmountLow first second =>
    { notice := .bufferedAmountLow, first, second } :: noticesIfSet first
  | .message run => noticesOf run

def noticesOf : List Act → List Raised
  | [] => []
  | a :: rest => noticesOfAct a ++ noticesOf rest

def noticesIfSet : Option (List Act) → List Raised
  | none => []
  | some run => noticesOf run

end

/-- Every notice the native callback of a step comes to. -/
def Action.notices : Action → List Raised
  | .callback a => noticesOfAct a
  | .resume => []

/-- What is raised and delivered in a run, and how it leaves the channel. -/
structure Orderly (actions : List Action) (s : Notices) : Prop where
  /-- Where a notice's handler is to be run next, no handler is running. -/
  notReentrant : ∀ r runs frames, s.stack = .notice (r :: runs) :: frames →
    ∀ f ∈ frames, ¬ IsHandler f
  /-- What has been started is what was raised first, notice by notice. -/
  inOrder : startedIn actions <+: (raisedIn actions).flatMap Raised.runs
  /-- When the outermost call has returned. -/
  returned : s.stack = [] → s.queue = [] ∧ s.delivering = false ∧
    startedIn actions = (raisedIn actions).flatMap Raised.runs ∧
    (raisedIn actions).Perm (actions.flatMap Action.notices)

/-- The thread comes to an `on_message` handler inside another. -/
def SelfLocked (s : Notices) : Prop :=
  ∃ h run rest frames, s.stack = .handler h (.message run :: rest) :: frames ∧
    inMessage s.stack = true

/-! ### The stack

A handler that raises a notice returns at once, as the notice is delivered further down the
stack; only a message handler is run on top of another.
-/

/-- A stack in use. -/
inductive Shape : List StackFrame → Prop
  | deliverNotices : Shape [.deliverNotices]
  | notice (runs : List Run) : Shape [.notice runs, .deliverNotices]
  | handler (h : Handler) (rest : List Act) {frames : List StackFrame} (below : Shape frames) :
      Shape (.handler h rest :: frames)

/-- The channel is at rest, or the stack is in use and whoever is at its bottom delivers. -/
def Inv (s : Notices) : Prop :=
  s.stack = [] ∧ s.delivering = false ∧ s.queue = [] ∨ Shape s.stack ∧ s.delivering = true

theorem inv_start : Inv machine.start := .inl ⟨rfl, rfl, rfl⟩

theorem notify_of_idle {s : Notices} (n : Raised) (h : s.delivering = false) :
    s.notify n = { queue := s.queue ++ [n], delivering := true
                   stack := .deliverNotices :: s.stack } := by
  unfold notify
  dsimp only
  rw [h, if_neg Bool.false_ne_true]

theorem notify_of_busy {s : Notices} (n : Raised) (h : s.delivering = true) :
    s.notify n = { s with queue := s.queue ++ [n] } := by
  unfold notify
  dsimp only
  rw [h, if_pos rfl]

theorem call_message {s t : Notices} {run : List Act} (h : s.call (.message run) = some t) :
    s.runMessageHandler run = t := by
  rw [Notices.call] at h
  split at h
  · cases h
  · exact Option.some.inj h

/-- A call from inside a handler, or from below all of them, keeps the stack in shape. -/
theorem Inv.call {s t : Notices} {a : Act} (h : Inv s) (hcall : s.call a = some t) : Inv t := by
  cases a with
  | notify notice first second =>
      obtain rfl := Option.some.inj hcall
      rcases h with ⟨hstack, hidle, -⟩ | ⟨hshape, hbusy⟩
      · rw [notify_of_idle _ hidle, hstack]
        exact .inr ⟨.deliverNotices, rfl⟩
      · rw [notify_of_busy _ hbusy]
        exact .inr ⟨hshape, hbusy⟩
  | message run =>
      obtain rfl := call_message hcall
      unfold runMessageHandler
      rcases h with ⟨hstack, hidle, -⟩ | ⟨hshape, hbusy⟩
      · rw [hidle, if_neg Bool.false_ne_true, hstack]
        exact .inr ⟨.handler _ _ .deliverNotices, rfl⟩
      · rw [hbusy, if_pos rfl]
        exact .inr ⟨.handler _ _ hshape, rfl⟩

theorem Inv.resume {s t : Notices} (h : Inv s) (hresume : s.resume = some t) : Inv t := by
  obtain ⟨queue, delivering, stack⟩ := s
  rcases h with ⟨hstack, -, -⟩ | ⟨hshape, hbusy⟩
  · obtain rfl : stack = [] := hstack
    cases hresume
  obtain rfl : delivering = true := hbusy
  change Shape stack at hshape
  cases hshape with
  | deliverNotices =>
      cases queue with
      | nil =>
          obtain rfl := Option.some.inj hresume
          exact .inl ⟨rfl, rfl, rfl⟩
      | cons n queue =>
          obtain rfl := Option.some.inj hresume
          exact .inr ⟨.notice _, rfl⟩
  | notice runs =>
      cases runs with
      | nil =>
          obtain rfl := Option.some.inj hresume
          exact .inr ⟨.deliverNotices, rfl⟩
      | cons r runs =>
          obtain rfl := Option.some.inj hresume
          exact .inr ⟨.handler _ _ (.notice _), rfl⟩
  | handler name rest below =>
      cases rest with
      | nil =>
          obtain rfl := Option.some.inj hresume
          exact .inr ⟨below, rfl⟩
      | cons a rest =>
          exact Inv.call (s := ⟨queue, true, .handler name rest :: _⟩)
            (.inr ⟨.handler _ _ below, rfl⟩) hresume

/-- A native callback finds the thread in none. -/
theorem step_callback {s t : Notices} {a : Act}
    (hstep : machine.step s (.callback a) = some t) : s.stack = [] ∧ s.call a = some t := by
  change (match s.stack with
    | [] => s.call a
    | _ :: _ => none) = some t at hstep
  split at hstep
  · rename_i hstack
    exact ⟨hstack, hstep⟩
  · cases hstep

theorem step_inv {s t : Notices} {a : Action} (h : Inv s) (hstep : machine.step s a = some t) :
    Inv t := by
  cases a with
  | callback a => exact h.call (step_callback hstep).2
  | resume => exact h.resume hstep

/-! ### What is still to come

The handlers of the notice being delivered are on the stack, the notices after it in the
queue, and what the handlers that are running have still to raise is in the acts they have
left.
-/

/-- The handlers of the notice being delivered that are still to be run. -/
def pending (stack : List StackFrame) : List Run :=
  stack.flatMap fun
    | .notice runs => runs
    | _ => []

/-- The handlers to be run for what is on the stack and in the queue. -/
def waiting (s : Notices) : List Run := pending s.stack ++ s.queue.flatMap Raised.runs

def noticesOfRuns (runs : List Run) : List Raised := runs.flatMap fun r => noticesOf r.2

/-- The notices that a frame has still to raise. -/
def frameNotices : StackFrame → List Raised
  | .handler _ rest => noticesOf rest
  | .notice runs => noticesOfRuns runs
  | .deliverNotices => []

/-- The notices that are still to be raised. -/
def unraised (s : Notices) : List Raised :=
  s.stack.flatMap frameNotices ++ s.queue.flatMap fun n => noticesOfRuns n.runs

/-- What has been raised, started and asked for, and what is still to come of it. -/
structure Told (actions : List Action) (s : Notices) : Prop where
  started : startedIn actions ++ s.waiting = (raisedIn actions).flatMap Raised.runs
  raised : (raisedIn actions ++ s.unraised).Perm (actions.flatMap Action.notices)

theorem noticesOfRuns_toList (h : Handler) (run : Option (List Act)) :
    noticesOfRuns (run.map (h, ·)).toList = noticesIfSet run := by
  cases run with
  | none => rfl
  | some run => exact List.append_nil _

/-- A notice comes to itself, and to what the handlers that are run for it raise. -/
theorem noticesOfAct_notify (n : Raised) :
    noticesOfAct (.notify n.notice n.first n.second) = n :: noticesOfRuns n.runs := by
  obtain ⟨notice, first, second⟩ := n
  cases notice with
  | state state =>
      rw [noticesOfAct, Raised.runs, noticesOfRuns, List.flatMap_append]
      refine congrArg (_ :: ·) (congrArg₂ (· ++ ·) (noticesOfRuns_toList _ first).symm ?_)
      cases stateEvent state with
      | none => rfl
      | some h => exact (noticesOfRuns_toList h second).symm
  | bufferedAmountLow =>
      rw [noticesOfAct, Raised.runs]
      exact congrArg (_ :: ·) (noticesOfRuns_toList _ first).symm

/-- Whatever is raised waits its turn. -/
theorem waiting_call {s t : Notices} {a : Act} (h : s.call a = some t) :
    t.waiting = s.waiting ++ (actRaises a).flatMap Raised.runs := by
  cases a with
  | notify notice first second =>
      obtain rfl := Option.some.inj h
      cases hdelivering : s.delivering with
      | false =>
          rw [notify_of_idle _ hdelivering]
          simp [waiting, pending, actRaises]
      | true =>
          rw [notify_of_busy _ hdelivering]
          simp [waiting, actRaises]
  | message run =>
      obtain rfl := call_message h
      unfold runMessageHandler
      split
      · simp [waiting, pending, actRaises]
      · simp [waiting, pending, actRaises]

/-- What is raised is no longer to be raised, and what its handlers will raise is. -/
theorem unraised_call {s t : Notices} {a : Act} (h : s.call a = some t) :
    (actRaises a ++ t.unraised).Perm (noticesOfAct a ++ s.unraised) := by
  cases a with
  | notify notice first second =>
      obtain rfl := Option.some.inj h
      have hqueued : (s.notify { notice, first, second }).unraised =
          s.unraised ++ noticesOfRuns (Raised.runs { notice, first, second }) := by
        cases hdelivering : s.delivering with
        | false =>
            rw [notify_of_idle _ hdelivering]
            simp [unraised, frameNotices]
        | true =>
            rw [notify_of_busy _ hdelivering]
            simp [unraised]
      rw [hqueued, noticesOfAct_notify { notice, first, second }]
      show (_ :: (s.unraised ++ _)).Perm (_ :: (_ ++ s.unraised))
      exact List.perm_append_comm.cons _
  | message run =>
      obtain rfl := call_message h
      unfold runMessageHandler
      split
      · simp [unraised, frameNotices, actRaises, noticesOfAct]
      · simp [unraised, frameNotices, actRaises, noticesOfAct]

/-- What waits is started from the front, and what is raised waits behind it. -/
theorem waiting_resume {s t : Notices} (hinv : Inv s) (h : s.resume = some t) :
    starts s .resume t ++ t.waiting = s.waiting ++ (raises s .resume t).flatMap Raised.runs := by
  obtain ⟨queue, delivering, stack⟩ := s
  rcases hinv with ⟨hstack, -, -⟩ | ⟨hshape, -⟩
  · obtain rfl : stack = [] := hstack
    cases h
  change Shape stack at hshape
  cases hshape with
  | deliverNotices =>
      cases queue with
      | nil =>
          obtain rfl := Option.some.inj h
          rfl
      | cons n queue =>
          obtain rfl := Option.some.inj h
          simp [starts, raises, nextAct, waiting, pending]
  | notice runs =>
      cases runs with
      | nil =>
          obtain rfl := Option.some.inj h
          simp [starts, raises, nextAct, waiting, pending]
      | cons r runs =>
          obtain ⟨name, run⟩ := r
          obtain rfl := Option.some.inj h
          simp [starts, raises, nextAct, waiting, pending]
  | handler name rest below =>
      cases rest with
      | nil =>
          obtain rfl := Option.some.inj h
          simp [starts, raises, nextAct, waiting, pending]
      | cons a rest =>
          have hcall := waiting_call h
          simpa [starts, raises, nextAct, waiting, pending] using hcall

/-- A step of the thread raises what was to be raised, and nothing is forgotten. -/
theorem unraised_resume {s t : Notices} (h : s.resume = some t) :
    (raises s .resume t ++ t.unraised).Perm s.unraised := by
  obtain ⟨queue, delivering, stack⟩ := s
  cases stack with
  | nil => cases h
  | cons frame stack =>
      cases frame with
      | handler name rest =>
          cases rest with
          | nil =>
              obtain rfl := Option.some.inj h
              exact .refl _
          | cons a rest =>
              have hcall := unraised_call h
              simpa [raises, nextAct, unraised, frameNotices, noticesOf] using hcall
      | notice runs =>
          cases runs with
          | nil =>
              obtain rfl := Option.some.inj h
              exact .refl _
          | cons r runs =>
              obtain ⟨name, run⟩ := r
              obtain rfl := Option.some.inj h
              simp [raises, nextAct, unraised, frameNotices, noticesOfRuns]
      | deliverNotices =>
          cases queue with
          | nil =>
              obtain rfl := Option.some.inj h
              exact .refl _
          | cons n queue =>
              obtain rfl := Option.some.inj h
              simp only [raises, nextAct, unraised, frameNotices, List.flatMap_cons,
                Option.toList_none, List.flatMap_nil, List.nil_append, List.append_assoc]
              exact List.perm_append_comm_assoc ..

theorem told_start : Told [] machine.start := ⟨rfl, .refl _⟩

/-- What a step starts and raises is what it takes from, and adds to, what is still to come. -/
theorem Told.step {actions : List Action} {s t : Notices} {a : Action} (hinv : Inv s)
    (hrun : machine.run machine.start actions = some s) (h : Told actions s)
    (hstep : machine.step s a = some t) : Told (actions ++ [a]) t := by
  have hraised : raisedIn (actions ++ [a]) = raisedIn actions ++ raises s a t :=
    Machine.seen_concat raises hrun hstep
  have hstarted : startedIn (actions ++ [a]) = startedIn actions ++ starts s a t :=
    Machine.seen_concat starts hrun hstep
  have hwaiting : starts s a t ++ t.waiting = s.waiting ++ (raises s a t).flatMap Raised.runs := by
    cases a with
    | callback a =>
        obtain ⟨hstack, hcall⟩ := step_callback hstep
        have hnone : starts s (.callback a) t = [] := by
          unfold starts
          rw [hstack]
        rw [hnone]
        exact waiting_call hcall
    | resume => exact waiting_resume hinv hstep
  have hunraised : (raises s a t ++ t.unraised).Perm (a.notices ++ s.unraised) := by
    cases a with
    | callback a => exact unraised_call (step_callback hstep).2
    | resume => exact unraised_resume hstep
  constructor
  · rw [hstarted, hraised, List.append_assoc, hwaiting, ← List.append_assoc, h.started,
      List.flatMap_append]
  · rw [hraised, List.append_assoc, List.flatMap_append, List.flatMap_singleton]
    refine (hunraised.append_left _).trans ?_
    refine List.Perm.trans ?_ (h.raised.append_right _)
    rw [List.append_assoc]
    exact List.perm_append_comm.append_left _

/-- Every run is told of, and leaves the stack in shape. -/
theorem told {actions : List Action} {s : Notices}
    (hrun : machine.run machine.start actions = some s) : Inv s ∧ Told actions s :=
  Machine.history (P := fun as s => Inv s ∧ Told as s) ⟨inv_start, told_start⟩
    (fun _ _ _ _ hbefore h hstep => ⟨step_inv h.1 hstep, h.2.step h.1 hbefore hstep⟩) hrun

theorem orderly {actions : List Action} {s : Notices}
    (hrun : machine.run machine.start actions = some s) : Orderly actions s := by
  obtain ⟨hinv, htold⟩ := told hrun
  refine ⟨fun r runs frames hstack f hf hhandler => ?_, ?_, fun hidle => ?_⟩
  · rcases hinv with ⟨hempty, -, -⟩ | ⟨hshape, -⟩
    · rw [hempty] at hstack
      cases hstack
    · rw [hstack] at hshape
      cases hshape
      rw [List.mem_singleton.mp hf] at hhandler
      exact hhandler
  · exact ⟨s.waiting, htold.started⟩
  · rcases hinv with ⟨-, hdelivering, hqueue⟩ | ⟨hshape, -⟩
    · have hwaiting : s.waiting = [] := by
        rw [waiting, hidle, hqueue]
        rfl
      have hunraised : s.unraised = [] := by
        rw [unraised, hidle, hqueue]
        rfl
      refine ⟨hqueue, hdelivering, ?_, ?_⟩
      · rw [← htold.started, hwaiting, List.append_nil]
      · have hraised := htold.raised
        rwa [hunraised, List.append_nil] at hraised
    · rw [hidle] at hshape
      cases hshape

/-! ### How long it takes

The handlers' trees are finite, so there is a number of steps that they come to.  It falls
with every step of the thread that is not the beginning of a callback.
-/

mutual

/-- At most so many steps come of it. -/
def costOfAct : Act → Nat
  | .notify _ first second => 4 + costIfSet first + costIfSet second
  | .message run => 3 + costOf run

def costOf : List Act → Nat
  | [] => 0
  | a :: rest => costOfAct a + costOf rest

def costIfSet : Option (List Act) → Nat
  | none => 0
  | some run => 2 + costOf run

end

def costOfRuns (runs : List Run) : Nat := (runs.map fun r => 2 + costOf r.2).sum

def frameCost : StackFrame → Nat
  | .handler _ rest => 1 + costOf rest
  | .notice runs => 1 + costOfRuns runs
  | .deliverNotices => 1

def cost (s : Notices) : Nat :=
  (s.stack.map frameCost).sum + (s.queue.map fun n => 2 + costOfRuns n.runs).sum

theorem costOfRuns_append (runs runs' : List Run) :
    costOfRuns (runs ++ runs') = costOfRuns runs + costOfRuns runs' := by
  unfold costOfRuns
  rw [List.map_append, List.sum_append]

theorem costOfRuns_toList (h : Handler) (run : Option (List Act)) :
    costOfRuns (run.map (h, ·)).toList = costIfSet run := by
  cases run with
  | none => rfl
  | some run => rfl

/-- No handler is run that is not set. -/
theorem costOfRuns_le (n : Raised) :
    costOfRuns n.runs ≤ costIfSet n.first + costIfSet n.second := by
  obtain ⟨notice, first, second⟩ := n
  cases notice with
  | state state =>
      unfold Raised.runs
      dsimp only
      rw [costOfRuns_append, costOfRuns_toList]
      refine Nat.add_le_add_left ?_ _
      cases stateEvent state with
      | none => exact Nat.zero_le _
      | some h => exact (costOfRuns_toList h second).le
  | bufferedAmountLow =>
      exact (costOfRuns_toList .onBufferedAmountLow first).le.trans (Nat.le_add_right _ _)

theorem cost_notify (s : Notices) (n : Raised) :
    cost (s.notify n) ≤ cost s + 3 + costIfSet n.first + costIfSet n.second := by
  have hruns := costOfRuns_le n
  unfold notify cost
  dsimp only
  split
  · simp only [List.map_append, List.sum_append, List.map_singleton, List.sum_singleton]
    omega
  · simp only [List.map_append, List.sum_append, List.map_cons, List.sum_cons, List.map_nil,
      List.sum_nil, frameCost]
    omega

theorem cost_runMessageHandler (s : Notices) (run : List Act) :
    cost (s.runMessageHandler run) ≤ cost s + 2 + costOf run := by
  unfold runMessageHandler cost
  split
  · simp only [List.map_cons, List.sum_cons, frameCost]
    omega
  · simp only [List.map_cons, List.sum_cons, frameCost]
    omega

/-- A call costs less than what it stands for. -/
theorem cost_call {s t : Notices} {a : Act} (hcall : s.call a = some t) :
    cost t < cost s + costOfAct a := by
  cases a with
  | notify notice first second =>
      obtain rfl := Option.some.inj hcall
      have hcost := cost_notify s { notice, first, second }
      rw [costOfAct]
      dsimp only at hcost
      omega
  | message run =>
      rw [Notices.call] at hcall
      split at hcall
      · cases hcall
      · obtain rfl := Option.some.inj hcall
        have hcost := cost_runMessageHandler s run
        rw [costOfAct]
        omega

/-- A thread that goes on has less to do. -/
theorem cost_resume {s t : Notices} (hresume : s.resume = some t) : cost t < cost s := by
  obtain ⟨queue, delivering, stack⟩ := s
  cases stack with
  | nil => cases hresume
  | cons frame stack =>
      cases frame with
      | handler h rest =>
          cases rest with
          | nil =>
              obtain rfl := Option.some.inj hresume
              simp only [cost, List.map_cons, List.sum_cons, frameCost]
              omega
          | cons a rest =>
              have hcall := cost_call (s := ⟨queue, delivering, .handler h rest :: stack⟩)
                hresume
              simp only [cost, List.map_cons, List.sum_cons, frameCost, costOf] at hcall ⊢
              omega
      | notice runs =>
          cases runs with
          | nil =>
              obtain rfl := Option.some.inj hresume
              simp only [cost, List.map_cons, List.sum_cons, frameCost]
              omega
          | cons r runs =>
              obtain rfl := Option.some.inj hresume
              simp only [cost, List.map_cons, List.sum_cons, frameCost, costOfRuns]
              omega
      | deliverNotices =>
          cases queue with
          | nil =>
              obtain rfl := Option.some.inj hresume
              simp only [cost, List.map_cons, List.sum_cons, frameCost]
              omega
          | cons n queue =>
              obtain rfl := Option.some.inj hresume
              simp only [cost, List.map_cons, List.sum_cons, frameCost]
              omega

/-- A thread stops where it has nothing to do, or where it waits for itself. -/
theorem idle_or_selfLocked {s : Notices} (h : s.resume = none) : s.stack = [] ∨ SelfLocked s := by
  obtain ⟨queue, delivering, stack⟩ := s
  cases stack with
  | nil => exact .inl rfl
  | cons frame stack =>
      cases frame with
      | handler name rest =>
          cases rest with
          | nil => cases h
          | cons a rest =>
              cases a with
              | notify notice first second => cases h
              | message run =>
                  refine .inr ⟨name, run, rest, stack, rfl, ?_⟩
                  by_contra hfree
                  change ¬ inMessage (.handler name rest :: stack) = true at hfree
                  change (if inMessage (.handler name rest :: stack) = true then none
                    else some _) = none at h
                  rw [if_neg hfree] at h
                  cases h
      | notice runs =>
          cases runs with
          | nil => cases h
          | cons r runs => cases h
      | deliverNotices =>
          cases queue with
          | nil => cases h
          | cons n queue => cases h

/-- Every callback returns, unless the thread waits for itself. -/
theorem returns (s : Notices) :
    ∃ n t, machine.run s (List.replicate n .resume) = some t ∧ (t.stack = [] ∨ SelfLocked t) := by
  cases hresume : s.resume with
  | none => exact ⟨0, s, rfl, idle_or_selfLocked hresume⟩
  | some u =>
      have hless := cost_resume hresume
      obtain ⟨n, t, hrun, hstop⟩ := returns u
      exact ⟨n + 1, t, machine.run_cons_eq_some.mpr ⟨u, hresume, hrun⟩, hstop⟩
termination_by cost s

/--
**Notices are never re-entrant, lost or reordered**, whatever the handlers do, and each
callback returns, unless a handler waits for itself.
-/
theorem notices_orderly {actions : List Action} {s : Notices}
    (hrun : machine.run machine.start actions = some s) :
    Orderly actions s ∧ ∃ n t, machine.run s (List.replicate n .resume) = some t ∧
      Orderly (actions ++ List.replicate n .resume) t ∧ (t.stack = [] ∨ SelfLocked t) := by
  obtain ⟨n, t, hreturn, hstop⟩ := returns s
  refine ⟨orderly hrun, n, t, hreturn, orderly ?_, hstop⟩
  rw [Machine.run_append, hrun]
  exact hreturn

/-- A handler of a message raises two notices, and the handler of the first another. -/
def nested : List Action :=
  .callback (.message
    [.notify .bufferedAmountLow (some [.notify (.state .closing) (some []) none]) none,
      .notify (.state .closed) (some []) (some [])]) :: List.replicate 19 .resume

/-- The four handlers are run in the order their notices were raised. -/
theorem notices_orderly_nested :
    Orderly nested (machine.final machine.start nested rfl) ∧
      (machine.final machine.start nested rfl).stack.isEmpty = true ∧
      (startedIn nested).map Prod.fst =
        [.onBufferedAmountLow, .onStateChange .closed, .onClose, .onStateChange .closing] :=
  ⟨(notices_orderly (machine.run_final _ _ rfl)).1, by decide, by decide⟩

end Notices

end ReactorWebrtc
