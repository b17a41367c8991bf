/-
The send queue of one channel.

`push` takes a whole message, `nextFrame` hands out its frames one at a time while
the native buffer is below the high-water mark.  Sizes and counters are natural
numbers: the source keeps them in `u64` and `usize`, and `WF` bounds `queued` by the
queue limit, so none of its additions can pass the word as long as the messages in
memory do not.

`Emits` says once what a call of `nextFrame` can do: hold back, hand out a middle
frame of the head message, or hand out its last frame and drop it from the queue.
Everything proved later about frames is a case analysis of it, and `WF` is the
invariant that makes the cases usable: only the head message can be partly sent, it
is never sent to its end without being dropped, and `queued` counts what is left.
-/
import ReactorWebrtc.Chunking.Frame

namespace ReactorWebrtc

def DEFAULT_MAX_MESSAGE_SIZE : Nat := 64 * 1024 * 1024

def DEFAULT_SEND_BUFFER_LIMIT : Nat := 128 * 1024 * 1024

def DEFAULT_CHUNK_SIZE : Nat := 64 * 1024

def DEFAULT_HIGH_WATER : Nat := 8 * 1024 * 1024

def DEFAULT_LOW_WATER : Nat := 4 * 1024 * 1024

/-- libwebrtc closes a data channel when its send buffer would pass this. -/
def NATIVE_SEND_BUFFER_LIMIT : Nat := 16 * 1024 * 1024

def LEGACY_MAX_MESSAGE_SIZE : Nat := 256 * 1024

/-- How a queue splits and paces messages. -/
structure SendConfig where
  chunkSize : Nat := DEFAULT_CHUNK_SIZE
  highWater : Nat := DEFAULT_HIGH_WATER
  lowWater : Nat := DEFAULT_LOW_WATER
  queueLimit : Nat := DEFAULT_SEND_BUFFER_LIMIT
  maxMessageSize : Nat := DEFAULT_MAX_MESSAGE_SIZE
  deriving DecidableEq, Repr

/-- A `SendConfig` whose values cannot work together. -/
inductive ConfigError
  | chunkSize (n : Nat)
  | watermarks (low high : Nat)
  | highWater (n : Nat)
  | queueBelowMessage (queue message : Nat)
  deriving DecidableEq, Repr

/-- Check the values against each other and against libwebrtc's limits. -/
def SendConfig.validate (c : SendConfig) : Except ConfigError Unit :=
  if c.chunkSize < 2 ∨ c.chunkSize > LEGACY_MAX_MESSAGE_SIZE then
    .error (.chunkSize c.chunkSize)
  else if c.lowWater ≥ c.highWater then
    .error (.watermarks c.lowWater c.highWater)
  else if c.highWater > NATIVE_SEND_BUFFER_LIMIT - c.chunkSize then
    .error (.highWater c.highWater)
  else if c.queueLimit < c.maxMessageSize then
    .error (.queueBelowMessage c.queueLimit c.maxMessageSize)
  else
    .ok ()

/-- What a validated configuration promises. -/
structure SendConfig.Valid (c : SendConfig) : Prop where
  chunk : 2 ≤ c.chunkSize
  chunkMax : c.chunkSize ≤ LEGACY_MAX_MESSAGE_SIZE
  water : c.lowWater < c.highWater
  native : c.highWater + c.chunkSize ≤ NATIVE_SEND_BUFFER_LIMIT
  limit : c.maxMessageSize ≤ c.queueLimit

theorem SendConfig.validate_iff (c : SendConfig) : c.validate = .ok () ↔ c.Valid := by
  have hroom : LEGACY_MAX_MESSAGE_SIZE ≤ NATIVE_SEND_BUFFER_LIMIT := by decide
  constructor
  · intro h
    unfold validate at h
    split at h
    · cases h
    · split at h
      · cases h
      · split at h
        · cases h
        · split at h
          · cases h
          · exact ⟨by omega, by omega, by omega, by omega, by omega⟩
  · rintro ⟨hchunk, hmax, hwater, hnative, hlimit⟩
    unfold validate
    rw [if_neg (by omega), if_neg (by omega), if_neg (by omega), if_neg (by omega)]

/-- Why `push` refused a message. -/
inductive SendError
  | tooLarge (size max : Nat)
  | queueFull (queued size limit : Nat)
  deriving DecidableEq, Repr

/-- A message in the queue. -/
structure Pending where
  data : Bytes
  text : Bool
  /-- Payload bytes already handed out as frames. -/
  offset : Nat
  deriving DecidableEq, Repr

/-- The payload bytes not handed out yet. -/
def Pending.left (p : Pending) : Nat := p.data.length - p.offset

/-- Messages waiting to leave one channel, in send order. -/
structure SendQueue where
  config : SendConfig
  /-- `new` panics on any other configuration. -/
  valid : config.validate = .ok ()
  pending : List Pending
  queued : Nat

namespace SendQueue

/-- A queue for one channel; the error is the one the source panics with. -/
def new (config : SendConfig) : Except ConfigError SendQueue :=
  match h : config.validate with
  | .error e => .error e
  | .ok () => .ok { config, valid := h, pending := [], queued := 0 }

/-- Queue a whole message. `binary` is the type the receiver should see. -/
def push (q : SendQueue) (data : Bytes) (binary : Bool) : Except SendError Unit × SendQueue :=
  let size := data.length
  if size > q.config.maxMessageSize then
    (.error (.tooLarge size q.config.maxMessageSize), q)
  else if q.queued + size > q.config.queueLimit then
    (.error (.queueFull q.queued size q.config.queueLimit), q)
  else
    (.ok (), { q with
      queued := q.queued + size
      pending := q.pending ++ [{ data, text := !binary, offset := 0 }] })

/-- The next frame to hand to the native channel, if any. -/
def nextFrame (q : SendQueue) (nativeBuffered : Nat) : Option Bytes × SendQueue :=
  if nativeBuffered ≥ q.config.highWater then
    (none, q)
  else
    match q.pending with
    | [] => (none, q)
    | head :: rest =>
      let room := q.config.chunkSize - 1
      let take := min room (head.data.length - head.offset)
      let more := decide (head.offset + take < head.data.length)
      let frame :=
        Header.encode { more, text := head.text } :: (head.data.drop head.offset).take take
      let head := { head with offset := head.offset + take }
      (some frame, { q with
        queued := q.queued - take
        pending := if more then head :: rest else rest })

def isEmpty (q : SendQueue) : Bool := q.pending.isEmpty

/-- Whether a message has started leaving but its last frame has not. -/
def midMessage (q : SendQueue) : Bool :=
  match q.pending.head? with
  | some p => decide (p.offset > 0)
  | none => false

/-- Drop everything queued. -/
def clear (q : SendQueue) : SendQueue := { q with pending := [], queued := 0 }

/-- What one frame carries beside its header byte. -/
def room (q : SendQueue) : Nat := q.config.chunkSize - 1

theorem config_valid (q : SendQueue) : q.config.Valid := q.config.validate_iff.mp q.valid

theorem room_pos (q : SendQueue) : 0 < q.room := by
  have := q.config_valid.chunk
  unfold room
  omega

/-- The queue a valid configuration starts with. -/
theorem new_ok {config : SendConfig} (h : config.validate = .ok ()) :
    new config = .ok { config, valid := h, pending := [], queued := 0 } := by
  unfold new
  split
  · rename_i e he
    rw [h] at he
    cases he
  · rfl

/-! ### What one call can do

A push takes the message whole or leaves the queue as it was.  A frame is asked for with the
native buffer's fill, and the queue does not remember the answer: what it hands out depends
on the head message alone.
-/

/-- A message the queue accepted, as it stands in it. -/
def accept (q : SendQueue) (data : Bytes) (binary : Bool) : SendQueue :=
  { q with
    queued := q.queued + data.length
    pending := q.pending ++ [{ data, text := !binary, offset := 0 }] }

/-- A push queues the message or leaves the queue alone. -/
theorem push_cases (q : SendQueue) (data : Bytes) (binary : Bool) :
    (q.push data binary = (.ok (), q.accept data binary) ∧
      data.length ≤ q.config.maxMessageSize ∧ q.queued + data.length ≤ q.config.queueLimit) ∨
    ∃ e, q.push data binary = (.error e, q) := by
  unfold push
  by_cases hmax : data.length > q.config.maxMessageSize
  · exact .inr ⟨_, by rw [if_pos hmax]⟩
  · by_cases hfull : q.queued + data.length > q.config.queueLimit
    · exact .inr ⟨_, by rw [if_neg hmax, if_pos hfull]⟩
    · exact .inl ⟨by rw [if_neg hmax, if_neg hfull]; rfl, by omega, by omega⟩

/-- The three things `nextFrame` can do. -/
inductive Emits (q : SendQueue) (b : Nat) : Option Bytes × SendQueue → Prop
  /-- Nothing to send, or no room for it. -/
  | held (h : q.config.highWater ≤ b ∨ q.pending = []) : Emits q b (none, q)
  /-- A frame of the head message with more to come. -/
  | part {head : Pending} {rest : List Pending} (hb : b < q.config.highWater)
      (hp : q.pending = head :: rest) (hmore : head.offset + q.room < head.data.length) :
      Emits q b
        (some (Header.encode { more := true, text := head.text } ::
            (head.data.drop head.offset).take q.room),
          { q with
            queued := q.queued - q.room
            pending := { head with offset := head.offset + q.room } :: rest })
  /-- The head message's last frame. -/
  | last {head : Pending} {rest : List Pending} (hb : b < q.config.highWater)
      (hp : q.pending = head :: rest) (hlast : head.data.length ≤ head.offset + q.room) :
      Emits q b
        (some (Header.encode { more := false, text := head.text } :: head.data.drop head.offset),
          { q with
            queued := q.queued - head.left
            pending := rest })

theorem nextFrame_emits (q : SendQueue) (b : Nat) : Emits q b (q.nextFrame b) := by
  unfold nextFrame
  by_cases hb : b ≥ q.config.highWater
  · rw [if_pos hb]
    exact .held (.inl hb)
  · rw [if_neg hb]
    cases hp : q.pending with
    | nil => exact .held (.inr hp)
    | cons head rest =>
        by_cases hmore : head.offset + q.room < head.data.length
        · have htake : min (q.config.chunkSize - 1) (head.data.length - head.offset) = q.room := by
            unfold room at *
            omega
          simp only [htake, hmore, decide_true, if_true]
          exact .part (by omega) hp hmore
        · have htake : min (q.config.chunkSize - 1) (head.data.length - head.offset)
              = head.left := by
            unfold room at hmore
            unfold Pending.left
            omega
          have hlast : ¬ head.offset + head.left < head.data.length := by
            have := q.room_pos
            unfold Pending.left
            omega
          have hall : (head.data.drop head.offset).take head.left = head.data.drop head.offset := by
            rw [List.take_of_length_le (by rw [List.length_drop]; exact Nat.le_refl _)]
          simp only [htake, hlast, decide_false, hall]
          exact .last (by omega) hp (by omega)

/-! ### What a queue always satisfies

The counter of queued bytes is kept apart from the messages, and what it counts is what is
left of them: a message that is partly sent counts for its rest.
-/

/-- The payload bytes a list of messages still holds. -/
def leftOf (ps : List Pending) : Nat := (ps.map Pending.left).sum

@[simp] theorem leftOf_nil : leftOf [] = 0 := rfl

@[simp] theorem leftOf_cons (p : Pending) (ps : List Pending) :
    leftOf (p :: ps) = p.left + leftOf ps := by simp [leftOf]

@[simp] theorem leftOf_append (ps qs : List Pending) :
    leftOf (ps ++ qs) = leftOf ps + leftOf qs := by simp [leftOf]

/-- The counter counts what is left, and only the head message can be partly sent. -/
structure WF (q : SendQueue) : Prop where
  queued : q.queued = leftOf q.pending
  limit : q.queued ≤ q.config.queueLimit
  /-- A message that started leaving has a frame left. -/
  head : ∀ p, q.pending.head? = some p → 0 < p.offset → p.offset < p.data.length
  rest : ∀ p ∈ q.pending.tail, p.offset = 0

theorem new_wf {config : SendConfig} {q : SendQueue} (h : new config = .ok q) : q.WF := by
  unfold new at h
  split at h
  · cases h
  · obtain rfl := Except.ok.inj h
    exact ⟨rfl, Nat.zero_le _, by simp, by simp⟩

theorem accept_wf {q : SendQueue} {data : Bytes} {binary : Bool} (h : q.WF)
    (hroom : q.queued + data.length ≤ q.config.queueLimit) : (q.accept data binary).WF := by
  refine ⟨?_, hroom, ?_, ?_⟩
  · simp [accept, h.queued, Pending.left]
  · intro p hp hpos
    cases hq : q.pending with
    | nil =>
        simp only [accept, hq, List.nil_append, List.head?_cons, Option.some.injEq] at hp
        subst hp
        exact absurd hpos (Nat.lt_irrefl 0)
    | cons a as =>
        simp only [accept, hq, List.cons_append, List.head?_cons, Option.some.injEq] at hp
        exact h.head p (by rw [hq, ← hp]; rfl) hpos
  · intro p hp
    cases hq : q.pending with
    | nil => simp [accept, hq] at hp
    | cons a as =>
        simp only [accept, hq, List.cons_append, List.tail_cons, List.mem_append,
          List.mem_singleton] at hp
        rcases hp with hp | rfl
        · exact h.rest p (by rw [hq]; exact hp)
        · rfl

theorem emits_wf {q q' : SendQueue} {b : Nat} {frame : Option Bytes} (h : q.WF)
    (he : Emits q b (frame, q')) : q'.WF := by
  cases he with
  | held => exact h
  | @part head rest hb hp hmore =>
      have hq := h.queued
      have hlim := h.limit
      have hrest := h.rest
      rw [hp] at hq hrest
      rw [leftOf_cons, Pending.left] at hq
      refine ⟨?_, ?_, ?_, hrest⟩
      · show q.queued - q.room = leftOf ({ head with offset := head.offset + q.room } :: rest)
        rw [leftOf_cons, Pending.left]
        show q.queued - q.room = head.data.length - (head.offset + q.room) + leftOf rest
        omega
      · show q.queued - q.room ≤ q.config.queueLimit
        omega
      · intro p hhead _
        obtain rfl : { head with offset := head.offset + q.room } = p := by simpa using hhead
        exact hmore
  | @last head rest hb hp hlast =>
      have hq := h.queued
      have hlim := h.limit
      have hrest := h.rest
      rw [hp] at hq hrest
      rw [leftOf_cons] at hq
      refine ⟨?_, ?_, ?_, ?_⟩
      · show q.queued - head.left = leftOf rest
        omega
      · show q.queued - head.left ≤ q.config.queueLimit
        omega
      · intro p hhead hpos
        have hzero := hrest p (List.mem_of_mem_head? hhead)
        omega
      · exact fun p hmem => hrest p (List.mem_of_mem_tail hmem)

theorem nextFrame_wf {q : SendQueue} (h : q.WF) (b : Nat) : (q.nextFrame b).2.WF :=
  emits_wf h (q.nextFrame_emits b)

theorem clear_wf (q : SendQueue) : q.clear.WF :=
  ⟨rfl, Nat.zero_le _, by simp [clear], by simp [clear]⟩

/-- A frame is never empty and never larger than a chunk. -/
theorem emits_length {q q' : SendQueue} {b : Nat} {frame : Bytes}
    (he : Emits q b (some frame, q')) : 0 < frame.length ∧ frame.length ≤ q.config.chunkSize := by
  have hchunk := q.config_valid.chunk
  cases he with
  | part hb hp hmore =>
      simp only [List.length_cons, List.length_take, List.length_drop, room]
      omega
  | last hb hp hlast =>
      unfold room at hlast
      simp only [List.length_cons, List.length_drop]
      omega

end SendQueue

end ReactorWebrtc
