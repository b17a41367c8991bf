/-
Where a chunked channel's messages spend their time.

`ChunkingTimes` is told of every message queued and every frame handed over and knows the
queue only from that: `sentAt` is to hold one instant for each message in the queue, and
`leaving` the first frame of the one that is partly sent.  To say that it does, the state
here carries beside it what happened to each message, as the queue has it: `lives` for
those in the queue and `left` for those that have left it with their last frame.  Neither
looks at a frame's MORE bit, which is all that `frameSent` goes by.

Instants and times are exact.  The difference of two instants is zero when the second is the
later one, as in the source.  A pump step is `next_frame` and then `frame_sent`.
-/
import Mathlib.Algebra.Order.Ring.Rat
import Mathlib.Tactic.Linarith
import ReactorWebrtc.Chunking.Send
import ReactorWebrtc.Lib.Machine

namespace ReactorWebrtc

/-- Running totals of a chunked channel's messages. -/
structure ChunkingStats where
  messagesSent : Nat := 0
  framesSent : Nat := 0
  queueWaitS : ℚ := 0
  enqueueS : ℚ := 0
  firstCheckS : ℚ := 0
  firstBuildS : ℚ := 0
  firstNativeS : ℚ := 0
  nativeSendS : ℚ := 0
  sendS : ℚ := 0
  stalls : Nat := 0
  stallS : ℚ := 0
  messagesReceived : Nat := 0
  framesReceived : Nat := 0
  reassemblyS : ℚ := 0
  deriving DecidableEq, Repr

/-- When the steps of handing one frame to libwebrtc started. -/
structure FrameSteps where
  checkStart : ℚ
  buildStart : ℚ
  nativeStart : ℚ
  deriving DecidableEq, Repr

/-- How long they took. -/
structure FrameTimes where
  checkS : ℚ
  buildS : ℚ
  nativeS : ℚ
  deriving DecidableEq, Repr

/-- The message leaving now: what its first frame recorded. -/
structure Leaving where
  firstAt : ℚ
  waitedS : ℚ
  firstSteps : FrameTimes
  enqueueS : ℚ
  deriving DecidableEq, Repr

structure ChunkingTimes where
  stats : ChunkingStats := {}
  /-- When each queued message was sent, and how long its copy into the queue took. -/
  sentAt : List (ℚ × ℚ) := []
  leaving : Option Leaving := none
  stalledSince : Option ℚ := none
  arrivingSince : Option ℚ := none
  deriving DecidableEq, Repr

/-- `Instant - Instant`, in seconds. -/
def elapsed (later earlier : ℚ) : ℚ := max (later - earlier) 0

/-- Whether more frames of the message follow `frame`. -/
def more (frame : Bytes) : Bool :=
  match frame.head? with
  | none => false
  | some b =>
    match Header.decode b with
    | .ok h => h.more
    | .error _ => false

namespace ChunkingTimes

/-- A message was queued. -/
def queued (t : ChunkingTimes) (now enqueueS : ℚ) : ChunkingTimes :=
  { t with sentAt := t.sentAt ++ [(now, enqueueS)] }

/-- What the first frame of a message records. -/
def firstFrame (t : ChunkingTimes) (now : ℚ) (steps : FrameSteps) : Leaving :=
  let (sent, enqueueS) := t.sentAt.head?.getD (now, 0)
  -- steps begun before the message was queued count from then
  let since := fun start => max start sent
  { firstAt := now
    waitedS := elapsed now sent
    firstSteps := {
      checkS := elapsed (since steps.buildStart) (since steps.checkStart)
      buildS := elapsed (since steps.nativeStart) (since steps.buildStart)
      nativeS := elapsed now (since steps.nativeStart) }
    enqueueS }

/-- The queue handed out `frame`. -/
def frameSent (t : ChunkingTimes) (frame : Bytes) (now : ℚ) (steps : FrameSteps) :
    ChunkingTimes :=
  let stats := { t.stats with nativeSendS := t.stats.nativeSendS + elapsed now steps.nativeStart }
  let stats := match t.stalledSince with
    | some since =>
      { stats with stalls := stats.stalls + 1, stallS := stats.stallS + elapsed now since }
    | none => stats
  let leaving := t.leaving.getD (t.firstFrame now steps)
  let stats := { stats with framesSent := stats.framesSent + 1 }
  if more frame then
    { t with stats, stalledSince := none, leaving := some leaving }
  else
    { t with
      stats := { stats with
        queueWaitS := stats.queueWaitS + leaving.waitedS
        enqueueS := stats.enqueueS + leaving.enqueueS
        firstCheckS := stats.firstCheckS + leaving.firstSteps.checkS
        firstBuildS := stats.firstBuildS + leaving.firstSteps.buildS
        firstNativeS := stats.firstNativeS + leaving.firstSteps.nativeS
        sendS := stats.sendS + elapsed now leaving.firstAt
        messagesSent := stats.messagesSent + 1 }
      stalledSince := none
      sentAt := t.sentAt.tail
      leaving := none }

/-- The pump stopped with frames still queued. -/
def stalled (t : ChunkingTimes) (now : ℚ) : ChunkingTimes :=
  { t with stalledSince := some (t.stalledSince.getD now) }

/-- The queue was cleared. -/
def cleared (t : ChunkingTimes) : ChunkingTimes :=
  { t with sentAt := [], leaving := none, stalledSince := none }

/-- A frame arrived. -/
def frameReceived (t : ChunkingTimes) (completes : Bool) (now : ℚ) : ChunkingTimes :=
  let first := t.arrivingSince.getD now
  let stats := { t.stats with framesReceived := t.stats.framesReceived + 1 }
  if completes then
    { t with
      stats := { stats with
        reassemblyS := stats.reassemblyS + elapsed now first
        messagesReceived := stats.messagesReceived + 1 }
      arrivingSince := none }
  else
    { t with stats, arrivingSince := some first }

/-- The reassembler was reset. -/
def resetReceive (t : ChunkingTimes) : ChunkingTimes :=
  { t with arrivingSince := none }

end ChunkingTimes

namespace Timed

/-- A message in the queue: when it was queued, and when its first frame left. -/
structure Life where
  queued : ℚ
  first : Option ℚ
  deriving DecidableEq, Repr

/-- A message that has left. -/
structure Past where
  queued : ℚ
  first : ℚ
  last : ℚ
  deriving DecidableEq, Repr

structure State where
  queue : SendQueue
  times : ChunkingTimes := {}
  /-- The last instant taken. -/
  clock : ℚ
  lives : List Life := []
  left : List Past := []
  handed : List Bytes := []

/-- A frame of the first message leaves, its last if the queue becomes shorter. -/
def State.leave (s : State) (queue : SendQueue) (now : ℚ) : List Life × List Past :=
  match s.lives with
  | [] => ([], s.left)
  | life :: rest =>
    let first := life.first.getD now
    if queue.pending.length < s.queue.pending.length then
      (rest, s.left ++ [{ queued := life.queued, first, last := now }])
    else
      ({ life with first := some first } :: rest, s.left)

inductive Action
  | send (data : Bytes) (binary : Bool) (now enqueueS : ℚ)
  | pump (nativeBuffered : Nat) (steps : FrameSteps) (now : ℚ)
  | stall (now : ℚ)
  | clear
  | received (completes : Bool) (now : ℚ)
  | resetReceive
  deriving DecidableEq, Repr

/-- The steps of handing over a frame start one after another, and end at `now`. -/
def InOrder (steps : FrameSteps) (now : ℚ) : Prop :=
  steps.checkStart ≤ steps.buildStart ∧ steps.buildStart ≤ steps.nativeStart ∧
    steps.nativeStart ≤ now

instance (steps : FrameSteps) (now : ℚ) : Decidable (InOrder steps now) :=
  inferInstanceAs (Decidable (_ ∧ _))

def machine (config : SendConfig) (valid : config.validate = .ok ()) (opened : ℚ) :
    Machine State Action where
  start := { queue := { config, valid, pending := [], queued := 0 }, clock := opened }
  step s
    | .send data binary now enqueueS =>
      if s.clock ≤ now then
        match s.queue.push data binary with
        | (.ok (), queue) =>
          some { s with
            queue
            times := s.times.queued now enqueueS
            clock := now
            lives := s.lives ++ [{ queued := now, first := none }] }
        | (.error _, queue) => some { s with queue, clock := now }
      else none
    | .pump nativeBuffered steps now =>
      if s.clock ≤ now ∧ InOrder steps now then
        match s.queue.nextFrame nativeBuffered with
        | (some frame, queue) =>
          some {
            queue
            times := s.times.frameSent frame now steps
            clock := now
            lives := (s.leave queue now).1
            left := (s.leave queue now).2
            handed := s.handed ++ [frame] }
        | (none, queue) => some { s with queue, clock := now }
      else none
    | .stall now =>
      if s.clock ≤ now then some { s with times := s.times.stalled now, clock := now } else none
    | .clear => some { s with queue := s.queue.clear, times := s.times.cleared, lives := [] }
    | .received completes now =>
      if s.clock ≤ now then
        some { s with times := s.times.frameReceived completes now, clock := now }
      else none
    | .resetReceive => some { s with times := s.times.resetReceive }

/-- The times and the queue tell of the same messages. -/
structure InStep (s : State) : Prop where
  sentAt : s.times.sentAt.length = s.queue.pending.length
  leaving : s.times.leaving.isSome = s.queue.midMessage
  messagesSent : s.times.stats.messagesSent = s.left.length
  framesSent : s.times.stats.framesSent = s.handed.length
  queueWaitS : s.times.stats.queueWaitS = (s.left.map fun m => m.first - m.queued).sum
  sendS : s.times.stats.sendS = (s.left.map fun m => m.last - m.first).sum
  steps : s.times.stats.firstCheckS + s.times.stats.firstBuildS + s.times.stats.firstNativeS ≤
    s.times.stats.queueWaitS

/-! ### A message's times

What is recorded when a message leaves was noted at three moments: when it was queued, when
its first frame was handed over, and now.  `Recorded` is what the first two have left, for
the message that is partly sent.
-/

theorem elapsed_of_le {later earlier : ℚ} (h : earlier ≤ later) :
    elapsed later earlier = later - earlier := max_eq_left (sub_nonneg.mpr h)

/-- The steps of a first frame are within the wait that it ends. -/
theorem firstFrame_steps {t : ChunkingTimes} {now sent enqueueS : ℚ} {steps : FrameSteps}
    (hsent : t.sentAt.head? = some (sent, enqueueS)) (hle : sent ≤ now)
    (horder : InOrder steps now) :
    (t.firstFrame now steps).waitedS = now - sent ∧
      (t.firstFrame now steps).firstSteps.checkS + (t.firstFrame now steps).firstSteps.buildS +
        (t.firstFrame now steps).firstSteps.nativeS ≤ now - sent := by
  obtain ⟨hbuild, hnative, hnow⟩ := horder
  unfold ChunkingTimes.firstFrame
  rw [hsent]
  dsimp only [Option.getD_some]
  rw [elapsed_of_le hle, elapsed_of_le (max_le_max_right sent hbuild),
    elapsed_of_le (max_le_max_right sent hnative), elapsed_of_le (max_le hnow hle)]
  refine ⟨rfl, ?_⟩
  have hsince : sent ≤ max steps.checkStart sent := le_max_right _ _
  linarith only [hsince]

/-- What `leaving` records of the message that is first in the queue. -/
structure Recorded (leaving : Leaving) (life : Life) (clock : ℚ) : Prop where
  waitedS : leaving.waitedS = leaving.firstAt - life.queued
  steps : leaving.firstSteps.checkS + leaving.firstSteps.buildS + leaving.firstSteps.nativeS ≤
    leaving.waitedS
  firstAt : leaving.firstAt ≤ clock

/-- Only the first message of the queue is partly sent, and then it is the one leaving. -/
inductive Leaves (clock : ℚ) : Option Leaving → Bool → List Life → Prop
  | whole {lives : List Life} (h : ∀ l ∈ lives, l.first = none) : Leaves clock none false lives
  | partly {leaving : Leaving} {life : Life} {rest : List Life}
      (hfirst : life.first = some leaving.firstAt) (hrest : ∀ l ∈ rest, l.first = none)
      (h : Recorded leaving life clock) : Leaves clock (some leaving) true (life :: rest)

structure Inv (s : State) : Prop where
  wf : s.queue.WF
  lives : s.lives.length = s.queue.pending.length
  sentAt : s.times.sentAt.map Prod.fst = s.lives.map Life.queued
  queued : ∀ l ∈ s.lives, l.queued ≤ s.clock
  leaving : Leaves s.clock s.times.leaving s.queue.midMessage s.lives
  messagesSent : s.times.stats.messagesSent = s.left.length
  framesSent : s.times.stats.framesSent = s.handed.length
  queueWaitS : s.times.stats.queueWaitS = (s.left.map fun m => m.first - m.queued).sum
  sendS : s.times.stats.sendS = (s.left.map fun m => m.last - m.first).sum
  steps : s.times.stats.firstCheckS + s.times.stats.firstBuildS + s.times.stats.firstNativeS ≤
    s.times.stats.queueWaitS

theorem Inv.inStep {s : State} (h : Inv s) : InStep s where
  sentAt := by
    rw [← h.lives, ← List.length_map (f := Prod.fst), h.sentAt, List.length_map]
  leaving := by
    have hleaving := h.leaving
    generalize s.times.leaving = leaving at hleaving
    generalize s.queue.midMessage = mid at hleaving
    generalize s.lives = lives at hleaving
    cases hleaving with
    | whole => rfl
    | partly => rfl
  messagesSent := h.messagesSent
  framesSent := h.framesSent
  queueWaitS := h.queueWaitS
  sendS := h.sendS
  steps := h.steps

theorem Leaves.later {clock now : ℚ} {leaving : Option Leaving} {mid : Bool} {lives : List Life}
    (h : Leaves clock leaving mid lives) (hnow : clock ≤ now) : Leaves now leaving mid lives := by
  cases h with
  | whole hall => exact .whole hall
  | partly hfirst hrest h =>
      exact .partly hfirst hrest ⟨h.waitedS, h.steps, h.firstAt.trans hnow⟩

/-! ### A frame is handed over

A frame with more to come keeps the message in the queue and one without takes it out, and
`frameSent` reads the same off the frame's own header byte.  The two agree because the
header was written from the queue.
-/

theorem more_encode (h : Header) (payload : Bytes) : more (h.encode :: payload) = h.more := by
  simp [more]

/-- What `frameSent` does to the totals, with `leaving` the message the frame is of: a middle
frame counts as a frame only. -/
theorem frameSent_more (t : ChunkingTimes) {frame : Bytes} {now : ℚ} (steps : FrameSteps)
    (h : more frame = true) : ∃ native stalls stallS, t.frameSent frame now steps =
      { t with
        stats := { t.stats with
          framesSent := t.stats.framesSent + 1, nativeSendS := native, stalls, stallS }
        stalledSince := none
        leaving := some (t.leaving.getD (t.firstFrame now steps)) } := by
  unfold ChunkingTimes.frameSent
  rw [if_pos h]
  cases t.stalledSince with
  | none => exact ⟨_, _, _, rfl⟩
  | some since => exact ⟨_, _, _, rfl⟩

/-- The last frame of a message adds the times that its first frame recorded. -/
theorem frameSent_last {t : ChunkingTimes} {frame : Bytes} {now : ℚ} {steps : FrameSteps}
    {leaving : Leaving} (h : more frame = false)
    (hleaving : t.leaving.getD (t.firstFrame now steps) = leaving) :
    ∃ native stalls stallS, t.frameSent frame now steps =
      { t with
        stats := { t.stats with
          messagesSent := t.stats.messagesSent + 1
          framesSent := t.stats.framesSent + 1
          queueWaitS := t.stats.queueWaitS + leaving.waitedS
          enqueueS := t.stats.enqueueS + leaving.enqueueS
          firstCheckS := t.stats.firstCheckS + leaving.firstSteps.checkS
          firstBuildS := t.stats.firstBuildS + leaving.firstSteps.buildS
          firstNativeS := t.stats.firstNativeS + leaving.firstSteps.nativeS
          sendS := t.stats.sendS + elapsed now leaving.firstAt
          nativeSendS := native, stalls, stallS }
        stalledSince := none
        sentAt := t.sentAt.tail
        leaving := none } := by
  unfold ChunkingTimes.frameSent
  rw [if_neg (Bool.eq_false_iff.mp h), hleaving]
  cases t.stalledSince with
  | none => exact ⟨_, _, _, rfl⟩
  | some since => exact ⟨_, _, _, rfl⟩

variable {s : State} {now : ℚ} {steps : FrameSteps}

/-- The message that a frame is of, by the queue and by the times. -/
theorem recorded (h : Inv s) (hnow : s.clock ≤ now) (horder : InOrder steps now) {life : Life}
    {rest : List Life} (hlives : s.lives = life :: rest) {leaving : Leaving}
    (hleaving : s.times.leaving.getD (s.times.firstFrame now steps) = leaving) :
    Recorded leaving life now ∧ life.first.getD now = leaving.firstAt ∧
      ∀ l ∈ rest, l.first = none := by
  have hleaves := h.leaving
  have hsent := h.sentAt
  have hqueued : life.queued ≤ now :=
    (h.queued life (by rw [hlives]; exact List.mem_cons_self)).trans hnow
  rw [hlives] at hleaves hsent
  generalize hwas : s.times.leaving = was at hleaves
  generalize s.queue.midMessage = mid at hleaves
  rw [hwas] at hleaving
  cases hleaves with
  | whole hall =>
      subst hleaving
      have hhead : ∃ enqueueS, s.times.sentAt.head? = some (life.queued, enqueueS) := by
        cases hlist : s.times.sentAt with
        | nil =>
            rw [hlist] at hsent
            cases hsent
        | cons entry entries =>
            rw [hlist, List.map_cons, List.map_cons] at hsent
            exact ⟨entry.2, by rw [← (List.cons.inj hsent).1]; rfl⟩
      obtain ⟨enqueueS, hhead⟩ := hhead
      obtain ⟨hwaited, hsteps⟩ := firstFrame_steps hhead hqueued horder
      have hat : (s.times.firstFrame now steps).firstAt = now := rfl
      refine ⟨⟨?_, ?_, ?_⟩, ?_, fun l hl => hall l (List.mem_cons_of_mem life hl)⟩
      · show (s.times.firstFrame now steps).waitedS = _
        rw [hwaited]
        rfl
      · show (s.times.firstFrame now steps).firstSteps.checkS + _ + _ ≤ _
        exact hsteps.trans hwaited.ge
      · exact le_refl now
      · rw [hall life List.mem_cons_self]
        rfl
  | partly hfirst hrest hrec =>
      obtain rfl : _ = leaving := hleaving
      refine ⟨⟨hrec.waitedS, hrec.steps, hrec.firstAt.trans hnow⟩, ?_, hrest⟩
      rw [hfirst]
      rfl

/-- No message of the queue is partly sent. -/
theorem midMessage_of_offset {q : SendQueue} (h : ∀ p ∈ q.pending, p.offset = 0) :
    q.midMessage = false := by
  unfold SendQueue.midMessage
  cases hp : q.pending with
  | nil => rfl
  | cons p rest =>
      have hzero : p.offset = 0 := h p (by rw [hp]; exact List.mem_cons_self)
      simp [hzero]

theorem State.leave_cons {life : Life} {rest : List Life} {queue : SendQueue}
    (h : s.lives = life :: rest) :
    s.leave queue now =
      if queue.pending.length < s.queue.pending.length then
        (rest, s.left ++ [{ queued := life.queued, first := life.first.getD now, last := now }])
      else ({ life with first := some (life.first.getD now) } :: rest, s.left) := by
  unfold State.leave
  rw [h]

/-- A frame with more to come. -/
theorem inv_part {head : Pending} {rest : List Pending} {frame : Bytes} {queue : SendQueue}
    (h : Inv s) (hnow : s.clock ≤ now) (horder : InOrder steps now)
    (hp : s.queue.pending = head :: rest) (hwf : queue.WF) (hmore : more frame = true)
    {offset : Nat} (hoffset : 0 < offset)
    (hqueue : queue.pending = { head with offset } :: rest) :
    Inv {
      queue
      times := s.times.frameSent frame now steps
      clock := now
      lives := (s.leave queue now).1
      left := (s.leave queue now).2
      handed := s.handed ++ [frame] } := by
  have hlength : s.lives.length = rest.length + 1 := by rw [h.lives, hp]; rfl
  obtain ⟨life, lives, hlives⟩ := List.exists_cons_of_length_eq_add_one hlength
  obtain ⟨hrec, hfirst, hrest⟩ := recorded h hnow horder hlives rfl
  have hmid : queue.midMessage = true := by
    unfold SendQueue.midMessage
    rw [hqueue]
    exact decide_eq_true hoffset
  have hleave : s.leave queue now =
      ({ life with first := some (life.first.getD now) } :: lives, s.left) := by
    rw [State.leave_cons hlives, if_neg]
    rw [hqueue, hp]
    exact Nat.lt_irrefl _
  obtain ⟨native, stalls, stallS, htimes⟩ := frameSent_more s.times steps hmore
  rw [hleave, htimes]
  have hsentAt := h.sentAt
  have hqueued := h.queued
  rw [hlives] at hsentAt hqueued hlength
  refine ⟨hwf, ?_, hsentAt, fun l hl => ?_, ?_, h.messagesSent, ?_, h.queueWaitS, h.sendS,
    h.steps⟩
  · rw [hqueue]
    exact hlength
  · rcases List.mem_cons.mp hl with rfl | hl
    · exact (hqueued life List.mem_cons_self).trans hnow
    · exact (hqueued l (List.mem_cons_of_mem life hl)).trans hnow
  · rw [hmid]
    exact .partly (congrArg some hfirst) hrest ⟨hrec.waitedS, hrec.steps, hrec.firstAt⟩
  · rw [List.length_append, ← h.framesSent]
    rfl

/-- The last frame of a message. -/
theorem inv_last {head : Pending} {rest : List Pending} {frame : Bytes} {queue : SendQueue}
    (h : Inv s) (hnow : s.clock ≤ now) (horder : InOrder steps now)
    (hp : s.queue.pending = head :: rest) (hwf : queue.WF) (hlast : more frame = false)
    (hqueue : queue.pending = rest) :
    Inv {
      queue
      times := s.times.frameSent frame now steps
      clock := now
      lives := (s.leave queue now).1
      left := (s.leave queue now).2
      handed := s.handed ++ [frame] } := by
  have hlength : s.lives.length = rest.length + 1 := by rw [h.lives, hp]; rfl
  obtain ⟨life, lives, hlives⟩ := List.exists_cons_of_length_eq_add_one hlength
  obtain ⟨leaving, hleaving⟩ :
      ∃ leaving, s.times.leaving.getD (s.times.firstFrame now steps) = leaving := ⟨_, rfl⟩
  obtain ⟨hrec, hfirst, hrest⟩ := recorded h hnow horder hlives hleaving
  have hmid : queue.midMessage = false := by
    refine midMessage_of_offset fun p hmem => h.wf.rest p ?_
    rw [hp]
    exact hqueue ▸ hmem
  have hleave : s.leave queue now =
      (lives, s.left ++ [{ queued := life.queued, first := leaving.firstAt, last := now }]) := by
    rw [State.leave_cons hlives, if_pos, hfirst]
    rw [hqueue, hp]
    exact Nat.lt_succ_self _
  obtain ⟨native, stalls, stallS, htimes⟩ := frameSent_last hlast hleaving
  rw [hleave, htimes]
  have hsentAt := h.sentAt
  have hqueued := h.queued
  rw [hlives] at hsentAt hqueued hlength
  refine ⟨hwf, ?_, ?_, fun l hl => ?_, ?_, ?_, ?_, ?_, ?_, ?_⟩
  · rw [hqueue]
    exact Nat.succ.inj hlength
  · show s.times.sentAt.tail.map Prod.fst = lives.map Life.queued
    rw [List.map_tail, hsentAt]
    rfl
  · exact (hqueued l (List.mem_cons_of_mem life hl)).trans hnow
  · rw [hmid]
    exact .whole hrest
  · rw [List.length_append, ← h.messagesSent]
    rfl
  · rw [List.length_append, ← h.framesSent]
    rfl
  · rw [List.map_append, List.sum_append, ← h.queueWaitS, hrec.waitedS]
    simp
  · rw [List.map_append, List.sum_append, ← h.sendS, elapsed_of_le hrec.firstAt]
    simp
  · have hsteps := h.steps
    have hfirstSteps := hrec.steps
    dsimp only
    linarith only [hsteps, hfirstSteps]

/-! ### Every step -/

theorem midMessage_accept (q : SendQueue) (data : Bytes) (binary : Bool) :
    (q.accept data binary).midMessage = q.midMessage := by
  unfold SendQueue.midMessage SendQueue.accept
  cases q.pending with
  | nil => rfl
  | cons p rest => rfl

/-- A message that is queued has not left yet. -/
theorem Leaves.append {clock : ℚ} {leaving : Option Leaving} {mid : Bool} {lives : List Life}
    {life : Life} (h : Leaves clock leaving mid lives) (hlife : life.first = none) :
    Leaves clock leaving mid (lives ++ [life]) := by
  have hlast : ∀ {ls : List Life}, (∀ l ∈ ls, l.first = none) → ∀ l ∈ ls ++ [life],
      l.first = none := by
    intro ls hall l hl
    rcases List.mem_append.mp hl with hl | hl
    · exact hall l hl
    · rw [List.mem_singleton.mp hl]
      exact hlife
  cases h with
  | whole hall => exact .whole (hlast hall)
  | partly hfirst hrest h => exact .partly hfirst (hlast hrest) h

theorem inv_send {data : Bytes} {binary : Bool} (enqueueS : ℚ) (h : Inv s) (hnow : s.clock ≤ now)
    (hroom : s.queue.queued + data.length ≤ s.queue.config.queueLimit) :
    Inv { s with
      queue := s.queue.accept data binary
      times := s.times.queued now enqueueS
      clock := now
      lives := s.lives ++ [{ queued := now, first := none }] } := by
  refine ⟨SendQueue.accept_wf h.wf hroom, ?_, ?_, fun l hl => ?_, ?_, h.messagesSent, h.framesSent,
    h.queueWaitS, h.sendS, h.steps⟩
  · show (s.lives ++ [_]).length = (s.queue.pending ++ [_]).length
    rw [List.length_append, List.length_append, h.lives]
    rfl
  · show (s.times.sentAt ++ [_]).map Prod.fst = (s.lives ++ [_]).map Life.queued
    rw [List.map_append, List.map_append, h.sentAt]
    rfl
  · rcases List.mem_append.mp hl with hl | hl
    · exact (h.queued l hl).trans hnow
    · rw [List.mem_singleton.mp hl]
  · rw [midMessage_accept]
    exact (h.leaving.later hnow).append rfl

/-- Nothing but the clock goes on. -/
theorem inv_tick (h : Inv s) (hnow : s.clock ≤ now) : Inv { s with clock := now } :=
  ⟨h.wf, h.lives, h.sentAt, fun l hl => (h.queued l hl).trans hnow, h.leaving.later hnow,
    h.messagesSent, h.framesSent, h.queueWaitS, h.sendS, h.steps⟩

theorem inv_clear (h : Inv s) :
    Inv { s with queue := s.queue.clear, times := s.times.cleared, lives := [] } :=
  ⟨⟨rfl, Nat.zero_le _, nofun, nofun⟩, rfl, rfl, nofun, .whole nofun, h.messagesSent,
    h.framesSent, h.queueWaitS, h.sendS, h.steps⟩

/-- What arrives is timed apart from what leaves. -/
theorem inv_received (completes : Bool) (h : Inv s) :
    Inv { s with times := s.times.frameReceived completes now } := by
  unfold ChunkingTimes.frameReceived
  cases completes with
  | true =>
      exact ⟨h.wf, h.lives, h.sentAt, h.queued, h.leaving, h.messagesSent, h.framesSent,
        h.queueWaitS, h.sendS, h.steps⟩
  | false =>
      exact ⟨h.wf, h.lives, h.sentAt, h.queued, h.leaving, h.messagesSent, h.framesSent,
        h.queueWaitS, h.sendS, h.steps⟩

variable {config : SendConfig} {valid : config.validate = .ok ()} {opened : ℚ}

theorem inv_step (s : State) (a : Action) (t : State) (h : Inv s)
    (hstep : (machine config valid opened).step s a = some t) : Inv t := by
  cases a with
  | send data binary now enqueueS =>
      simp only [machine] at hstep
      split at hstep
      · rename_i hnow
        rcases s.queue.push_cases data binary with ⟨hpush, -, hroom⟩ | ⟨e, hpush⟩
        · rw [hpush] at hstep
          obtain rfl := Option.some.inj hstep
          exact inv_send enqueueS h hnow hroom
        · rw [hpush] at hstep
          obtain rfl := Option.some.inj hstep
          exact inv_tick h hnow
      · cases hstep
  | pump nativeBuffered steps now =>
      simp only [machine] at hstep
      split at hstep
      · rename_i hnow
        have hemits := s.queue.nextFrame_emits nativeBuffered
        generalize s.queue.nextFrame nativeBuffered = result at hemits hstep
        have hwf : result.2.WF := SendQueue.emits_wf h.wf hemits
        cases hemits with
        | held hheld =>
            obtain rfl := Option.some.inj hstep
            exact inv_tick h hnow.1
        | part hb hp hmore =>
            obtain rfl := Option.some.inj hstep
            refine inv_part h hnow.1 hnow.2 hp hwf (more_encode ..) ?_ rfl
            exact Nat.add_pos_right _ s.queue.room_pos
        | last hb hp hlast =>
            obtain rfl := Option.some.inj hstep
            exact inv_last h hnow.1 hnow.2 hp hwf (more_encode ..) rfl
      · cases hstep
  | stall now =>
      simp only [machine] at hstep
      split at hstep
      · rename_i hnow
        obtain rfl := Option.some.inj hstep
        have htick := inv_tick h hnow
        exact ⟨htick.wf, htick.lives, htick.sentAt, htick.queued, htick.leaving,
          htick.messagesSent, htick.framesSent, htick.queueWaitS, htick.sendS, htick.steps⟩
      · cases hstep
  | clear =>
      obtain rfl := Option.some.inj hstep
      exact inv_clear h
  | received completes now =>
      simp only [machine] at hstep
      split at hstep
      · rename_i hnow
        obtain rfl := Option.some.inj hstep
        exact inv_received completes (inv_tick h hnow)
      · cases hstep
  | resetReceive =>
      obtain rfl := Option.some.inj hstep
      exact ⟨h.wf, h.lives, h.sentAt, h.queued, h.leaving, h.messagesSent, h.framesSent,
        h.queueWaitS, h.sendS, h.steps⟩

/-- **The times stay in step with the queue.** -/
theorem times_in_step (config : SendConfig) (valid : config.validate = .ok ()) (opened : ℚ)
    {s : State} (h : (machine config valid opened).Reachable s) : InStep s := by
  refine (Machine.invariant (I := Inv) ?_ inv_step h).inStep
  exact ⟨⟨rfl, Nat.zero_le _, nofun, nofun⟩, rfl, rfl, nofun, .whole nofun, rfl, rfl, rfl,
    rfl, (by norm_num : (0 : ℚ) + 0 + 0 ≤ 0)⟩

theorem small_chunks_valid : ({ chunkSize := 2 } : SendConfig).validate = .ok () := rfl

/-- A message in two frames, the first begun before it was queued, a stall between them, and
an empty message. -/
theorem in_step_two_messages :
    InStep ((machine { chunkSize := 2 } small_chunks_valid 0).final
      (machine { chunkSize := 2 } small_chunks_valid 0).start
      [.send [1, 2] true 2 1, .pump 0 { checkStart := 0, buildStart := 1, nativeStart := 3 } 4,
        .stall 5, .send [] true 6 0,
        .pump 0 { checkStart := 6, buildStart := 6, nativeStart := 7 } 8,
        .received true 8, .pump 0 { checkStart := 8, buildStart := 8, nativeStart := 8 } 9]
      (by decide +kernel)) :=
  times_in_step _ _ _ (Machine.Reachable.start.run (Machine.run_final ..))

end Timed

end ReactorWebrtc
