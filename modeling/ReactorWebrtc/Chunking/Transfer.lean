/-
A queue and a reassembler put together lose nothing.

The sender pushes messages and asks for frames with whatever buffered amount it
likes, and every frame that comes out is fed to the reassembler at once.  The frames
carry neither a message id nor a length, so what ties the two ends together is only
where the head message stands: the payload the queue has handed out of it is the
payload the reassembler has been fed.  `Tracks` says that, and that the messages
completed so far are the accepted ones still missing from the queue.  One push and
one frame each keep it, so a run of any length does.

Nothing between the two ends is lost, changed or put out of order: that is what the channel
underneath promises when it is ordered and reliable, and chunking is used on no other.  How
many frames are on their way at any moment makes no difference to what arrives, as the
reassembler sees only their order.
-/
import ReactorWebrtc.Chunking.Recv
import ReactorWebrtc.Chunking.Send

namespace ReactorWebrtc

/-- A message as an application hands it over: its bytes, and whether it is binary. -/
abbrev Message := Bytes × Bool

/-- The message a queue entry was made from. -/
def Pending.message (p : Pending) : Message := (p.data, !p.text)

/-- Both ends of one channel, with what went in and what came out. -/
structure Transfer where
  queue : SendQueue
  reassembler : Reassembler
  /-- The messages `push` accepted. -/
  accepted : List Message := []
  /-- What the reassembler answered, frame by frame. -/
  outcomes : List (Except FrameError Delivery) := []

namespace Transfer

/-- A call on the sending side. -/
inductive Op
  | push (data : Bytes) (binary : Bool)
  | nextFrame (nativeBuffered : Nat)

/-- Take one call; a frame it hands out is fed to the reassembler. -/
def step (s : Transfer) : Op → Transfer
  | .push data binary =>
    match s.queue.push data binary with
    | (.ok (), queue) => { s with queue, accepted := s.accepted ++ [(data, binary)] }
    | (.error _, queue) => { s with queue }
  | .nextFrame nativeBuffered =>
    match s.queue.nextFrame nativeBuffered with
    | (none, queue) => { s with queue }
    | (some frame, queue) =>
      let (outcome, reassembler) := s.reassembler.push frame
      { s with queue, reassembler, outcomes := s.outcomes ++ [outcome] }

def run (s : Transfer) (ops : List Op) : Transfer := ops.foldl step s

/-- A fresh queue and a fresh reassembler. -/
def start (queue : SendQueue) (limit : Nat) : Transfer :=
  { queue, reassembler := Reassembler.new limit }

/-- What an outcome delivers, when it completes a message. -/
def delivered : Except FrameError Delivery → Option Delivery
  | .ok .pending => none
  | .ok d => some d
  | .error _ => none

/-- The messages and drops delivered so far, in order. -/
def deliveries (s : Transfer) : List Delivery := s.outcomes.filterMap delivered

/-- What the reassembler makes of a whole message. -/
def expected (limit : Nat) (m : Message) : Delivery := Reassembler.deliveryOf limit m.1 m.2

theorem delivered_expected (limit : Nat) (m : Message) :
    delivered (.ok (expected limit m)) = some (expected limit m) := by
  unfold expected Reassembler.deliveryOf
  split <;> rfl

/-! ### Where the head message stands

The queue knows how far it is by an offset into its first message, and the reassembler by
what it has kept.  What has been sent of the head is the link, and of a message that has not
begun nothing has been sent.
-/

/-- The part of the head message that has left the queue. -/
def sentOf (q : SendQueue) : Bytes :=
  match q.pending with
  | [] => []
  | head :: _ => head.data.take head.offset

/-- The type of the message being sent, when one has started to leave. -/
def typeOf (q : SendQueue) : Option Bool :=
  match q.pending with
  | [] => none
  | head :: _ => if head.offset > 0 then some head.text else none

theorem typeOf_isSome (q : SendQueue) : (typeOf q).isSome = q.midMessage := by
  unfold typeOf SendQueue.midMessage
  cases q.pending with
  | nil => rfl
  | cons head rest => by_cases h : head.offset > 0 <;> simp [h]

/-- An accepted message goes behind the head message and moves nothing. -/
theorem accept_stands (q : SendQueue) (data : Bytes) (binary : Bool) :
    sentOf (q.accept data binary) = sentOf q ∧ typeOf (q.accept data binary) = typeOf q := by
  cases hq : q.pending <;> simp [sentOf, typeOf, SendQueue.accept, hq]

/-- What is left when a message has gone starts from its first byte. -/
theorem fresh_stands {q : SendQueue} (h : ∀ p ∈ q.pending, p.offset = 0) :
    sentOf q = [] ∧ typeOf q = none := by
  cases hq : q.pending with
  | nil => simp [sentOf, typeOf, hq]
  | cons head rest =>
      have hzero : head.offset = 0 := h head (by simp [hq])
      simp [sentOf, typeOf, hq, hzero]

/-- The invariant that ties the two ends together. -/
structure Tracks (limit : Nat) (s : Transfer) : Prop where
  wf : s.queue.WF
  maxSize : s.reassembler.maxMessageSize = limit
  /-- The reassembler has been fed what the queue handed out of the head message. -/
  carries : s.reassembler.Carries (sentOf s.queue) (typeOf s.queue)
  /-- No frame was refused. -/
  noError : ∀ o ∈ s.outcomes, ∃ d, o = .ok d
  /-- The accepted messages are those delivered, then those in the queue. -/
  split : ∃ done, s.accepted = done ++ s.queue.pending.map Pending.message ∧
    s.deliveries = done.map (expected limit)

theorem start_tracks {config : SendConfig} {q : SendQueue} (h : SendQueue.new config = .ok q)
    (limit : Nat) : Tracks limit (start q limit) := by
  have hempty : q.pending = [] := by
    unfold SendQueue.new at h
    split at h
    · cases h
    · exact (Except.ok.inj h) ▸ rfl
  have hstands := fresh_stands (q := q) (by simp [hempty])
  refine ⟨SendQueue.new_wf h, rfl, ?_, by simp [start], [], by simp [start, hempty], rfl⟩
  show (Reassembler.new limit).Carries (sentOf q) (typeOf q)
  rw [hstands.1, hstands.2]
  exact Reassembler.new_carries limit

variable {limit : Nat} {s : Transfer}

theorem push_tracks (h : Tracks limit s) (data : Bytes) (binary : Bool) :
    Tracks limit (s.step (.push data binary)) := by
  rcases s.queue.push_cases data binary with ⟨hpush, -, hroom⟩ | ⟨e, hpush⟩
  · obtain ⟨hsent, htype⟩ := accept_stands s.queue data binary
    obtain ⟨done, hacc, hdel⟩ := h.split
    simp only [step, hpush]
    refine ⟨SendQueue.accept_wf h.wf hroom, h.maxSize, ?_, h.noError, done, ?_, hdel⟩
    · show s.reassembler.Carries (sentOf (s.queue.accept data binary))
        (typeOf (s.queue.accept data binary))
      rw [hsent, htype]
      exact h.carries
    · simp [SendQueue.accept, Pending.message, hacc]
  · simp only [step, hpush]
    exact h

/-- The type the reassembler holds fits the next frame of the head message. -/
theorem typeOf_continues {q : SendQueue} {head : Pending} {rest : List Pending}
    (hp : q.pending = head :: rest) : Reassembler.Continues (typeOf q) head.text := by
  unfold typeOf Reassembler.Continues
  rw [hp]
  by_cases h : head.offset > 0 <;> simp [h]

theorem nextFrame_tracks (h : Tracks limit s) (b : Nat) : Tracks limit (s.step (.nextFrame b)) := by
  have hemits := s.queue.nextFrame_emits b
  obtain ⟨done, hacc, hdel⟩ := h.split
  generalize hnext : s.queue.nextFrame b = answer at hemits
  have hwf : answer.2.WF := by rw [← hnext]; exact SendQueue.nextFrame_wf h.wf b
  cases hemits with
  | held =>
      simp only [step, hnext]
      exact h
  | @part head rest hb hp hmore =>
      have hsent : sentOf s.queue = head.data.take head.offset := by simp [sentOf, hp]
      obtain ⟨r, hr, hcarries, hlimit⟩ :=
        Reassembler.push_more h.carries (typeOf_continues hp)
          ((head.data.drop head.offset).take s.queue.room)
      simp only [step, hnext, hr]
      refine ⟨hwf, hlimit.trans h.maxSize, ?_, ?_, done, ?_, ?_⟩
      · have hpos : head.offset + s.queue.room > 0 := by
          have := s.queue.room_pos
          omega
        rw [hsent, ← List.take_add] at hcarries
        simpa [sentOf, typeOf, hpos] using hcarries
      · intro o ho
        rcases List.mem_append.mp ho with ho | ho
        · exact h.noError o ho
        · exact ⟨_, List.mem_singleton.mp ho⟩
      · simpa [hp, Pending.message] using hacc
      · have hnone : [(.ok .pending : Except FrameError Delivery)].filterMap delivered = [] := rfl
        rw [deliveries, List.filterMap_append, hnone, List.append_nil]
        exact hdel
  | @last head rest hb hp hlast =>
      have hsent : sentOf s.queue = head.data.take head.offset := by simp [sentOf, hp]
      obtain ⟨r, hr, hcarries, hlimit⟩ :=
        Reassembler.push_last h.carries (typeOf_continues hp) (head.data.drop head.offset)
      have hwhole : sentOf s.queue ++ head.data.drop head.offset = head.data := by
        rw [hsent, List.take_append_drop]
      rw [hwhole, h.maxSize] at hr
      simp only [step, hnext, hr]
      refine ⟨hwf, hlimit.trans h.maxSize, ?_, ?_, done ++ [head.message], ?_, ?_⟩
      · have hstands := fresh_stands (q := { s.queue with
            queued := s.queue.queued - head.left, pending := rest })
          (fun p hmem => h.wf.rest p (by rw [hp]; exact hmem))
        show r.Carries (sentOf { s.queue with
            queued := s.queue.queued - head.left, pending := rest }) _
        rw [hstands.1, hstands.2]
        exact hcarries
      · intro o ho
        rcases List.mem_append.mp ho with ho | ho
        · exact h.noError o ho
        · exact ⟨_, List.mem_singleton.mp ho⟩
      · simpa [hp] using hacc
      · have hone : delivered (.ok (Reassembler.deliveryOf limit head.data (!head.text)))
            = some (expected limit head.message) := delivered_expected limit head.message
        simp only [deliveries] at hdel
        simp [deliveries, List.filterMap_append, hdel, hone]

theorem run_tracks (h : Tracks limit s) (ops : List Op) : Tracks limit (s.run ops) := by
  induction ops generalizing s with
  | nil => exact h
  | cons op ops ih =>
      refine ih ?_
      cases op with
      | push data binary => exact push_tracks h data binary
      | nextFrame b => exact nextFrame_tracks h b

/-- What both ends agree on, wherever the calls stopped. -/
structure Lossless (limit : Nat) (s : Transfer) : Prop where
  /-- The reassembler never reports an error. -/
  noError : ∀ o ∈ s.outcomes, ∃ d, o = .ok d
  /-- The deliveries are an initial segment of the accepted messages, each whole or
  dropped for its size, and the rest of them are exactly what the queue still holds. -/
  split : ∃ done, s.accepted = done ++ s.queue.pending.map Pending.message ∧
    s.deliveries = done.map (expected limit)
  /-- Everything has been delivered exactly when the queue is empty. -/
  drained : s.deliveries = s.accepted.map (expected limit) ↔ s.queue.isEmpty = true
  mid : s.queue.midMessage = s.reassembler.midMessage

theorem Tracks.lossless (h : Tracks limit s) : Lossless limit s := by
  refine ⟨h.noError, h.split, ?_, ?_⟩
  · obtain ⟨done, hacc, hdel⟩ := h.split
    rw [hacc, hdel, SendQueue.isEmpty, List.isEmpty_iff]
    constructor
    · intro heq
      have hlen := congrArg List.length heq
      simp only [List.length_map, List.length_append] at hlen
      exact List.eq_nil_of_length_eq_zero (by omega)
    · intro hempty
      simp [hempty]
  · rw [← typeOf_isSome, Reassembler.midMessage, h.carries.text]

/--
**Chunking end to end.**  Whatever is pushed, accepted or refused, and whatever
buffered amounts the frames are asked for with, the other end delivers the accepted
messages in order, once each, and what it has not delivered is still queued.
-/
theorem chunking_lossless (config : SendConfig) (h : config.validate = .ok ()) :
    ∃ q, SendQueue.new config = .ok q ∧
      ∀ (limit : Nat) (ops : List Op), Lossless limit ((start q limit).run ops) :=
  ⟨_, SendQueue.new_ok h, fun limit ops =>
    (run_tracks (start_tracks (SendQueue.new_ok h) limit) ops).lossless⟩

/-- The defaults satisfy the hypothesis. -/
theorem chunking_lossless_default :
    ∃ q, SendQueue.new {} = .ok q ∧
      ∀ (limit : Nat) (ops : List Op), Lossless limit ((start q limit).run ops) :=
  chunking_lossless {} (by rfl)

end Transfer

end ReactorWebrtc
