/-
The queue's counters in their words.

`SendQueue` counts in natural numbers, where a sum never wraps and a difference never goes
below zero.  `pushChecked` and `nextFrameChecked` are the same two calls with every sum and
difference of the source taken in a 64-bit word and every slice taken inside its bounds, and
`none` where one is not.  In every state a queue can get into they are `push` and
`nextFrame`, as long as the messages in memory at any moment fit the word together.

How long the queue takes to empty is counted by the messages and not by their bytes: one
without a byte still takes a frame.

A queue that a machine word cannot count would be one whose messages do not fit in memory,
so the bound asks nothing of a program that runs.
-/
import Mathlib.Algebra.Order.Floor.Div
import ReactorWebrtc.Chunking.Send
import ReactorWebrtc.Lib.Machine

namespace ReactorWebrtc

/-- A sum in a 64-bit word. -/
def add64 (a b : Nat) : Option Nat := if a + b < 2 ^ 64 then some (a + b) else none

def sub64 (a b : Nat) : Option Nat := if b ≤ a then some (a - b) else none

/-- `&data[from..to]` -/
def slice (data : Bytes) (start stop : Nat) : Option Bytes :=
  if start ≤ stop ∧ stop ≤ data.length then some ((data.drop start).take (stop - start)) else none

theorem add64_eq {a b : Nat} (h : a + b < 2 ^ 64) : add64 a b = some (a + b) := if_pos h

theorem sub64_eq {a b : Nat} (h : b ≤ a) : sub64 a b = some (a - b) := if_pos h

theorem slice_eq {data : Bytes} {start n : Nat} (h : start + n ≤ data.length) :
    slice data start (start + n) = some ((data.drop start).take n) := by
  unfold slice
  rw [if_pos ⟨Nat.le_add_right start n, h⟩, Nat.add_sub_cancel_left]

namespace SendQueue

/-- `push` in 64-bit words. -/
def pushChecked (q : SendQueue) (data : Bytes) (binary : Bool) :
    Option (Except SendError Unit × SendQueue) :=
  let size := data.length
  if size > q.config.maxMessageSize then
    some (.error (.tooLarge size q.config.maxMessageSize), q)
  else do
    let sum ← add64 q.queued size
    if sum > q.config.queueLimit then
      some (.error (.queueFull q.queued size q.config.queueLimit), q)
    else
      let queued ← add64 q.queued size
      some (.ok (), { q with
        queued
        pending := q.pending ++ [{ data, text := !binary, offset := 0 }] })

/-- `nextFrame` in 64-bit words. -/
def nextFrameChecked (q : SendQueue) (nativeBuffered : Nat) : Option (Option Bytes × SendQueue) :=
  if nativeBuffered ≥ q.config.highWater then
    some (none, q)
  else
    match q.pending with
    | [] => some (none, q)
    | head :: rest => do
      let room ← sub64 q.config.chunkSize 1
      let left ← sub64 head.data.length head.offset
      let take := min room left
      let sent ← add64 head.offset take
      let more := decide (sent < head.data.length)
      let _capacity ← add64 take 1
      let payload ← slice head.data head.offset sent
      let frame := Header.encode { more, text := head.text } :: payload
      let head := { head with offset := sent }
      let queued ← sub64 q.queued take
      some (some frame, { q with
        queued
        pending := if more then head :: rest else rest })

/-- The bytes of the messages in the queue, those handed out already among them. -/
def alive (q : SendQueue) : Nat := (q.pending.map fun p => p.data.length).sum

/-- The frames a message still takes. -/
def framesOf (room : Nat) (p : Pending) : Nat := max 1 (p.left ⌈/⌉ room)

/-- The frames a queue still takes. -/
def framesLeft (q : SendQueue) : Nat := (q.pending.map (framesOf q.room)).sum

/-- One call of `nextFrame` after another. -/
def drain (q : SendQueue) : List Nat → List Bytes × SendQueue
  | [] => ([], q)
  | b :: bs =>
    let (frame, q) := q.nextFrame b
    let (frames, q) := q.drain bs
    (frame.toList ++ frames, q)

inductive Call
  | push (data : Bytes) (binary : Bool)
  | nextFrame (nativeBuffered : Nat)
  | clear
  deriving DecidableEq, Repr

/-- A message is pushed only where there is memory for it beside those in the queue. -/
def step (q : SendQueue) : Call → Option SendQueue
  | .push data binary =>
    if q.alive + data.length < 2 ^ 64 then some (q.push data binary).2 else none
  | .nextFrame nativeBuffered => some (q.nextFrame nativeBuffered).2
  | .clear => some q.clear

def machine (config : SendConfig) (valid : config.validate = .ok ()) :
    Machine SendQueue Call where
  start := { config, valid, pending := [], queued := 0 }
  step := step

/-- What holds of a queue in every state. -/
structure Accounted (q : SendQueue) : Prop where
  queued : q.queued = (q.pending.map fun p => p.data.length - p.offset).sum
  limit : q.queued ≤ q.config.queueLimit
  /-- Only the head is partly sent, and never to its end. -/
  partly : ∀ i p, q.pending[i]? = some p → 0 < p.offset → i = 0 ∧ p.offset < p.data.length
  /-- No sum or difference leaves its word and no slice its bounds. -/
  pushes : ∀ data binary, q.alive + data.length < 2 ^ 64 →
    q.pushChecked data binary = some (q.push data binary)
  hands : ∀ b, q.nextFrameChecked b = some (q.nextFrame b)
  refused : ∀ data binary e, (q.push data binary).1 = .error e → (q.push data binary).2 = q
  frames : ∀ b frame, (q.nextFrame b).1 = some frame →
    1 ≤ frame.length ∧ frame.length ≤ q.config.chunkSize
  /-- Below the high-water mark each call hands out a frame until there is none left. -/
  drains : ∀ bs, (∀ b ∈ bs, b < q.config.highWater) →
    (q.drain bs).1.length = min bs.length q.framesLeft ∧
      ((q.drain bs).2.pending = [] ↔ q.framesLeft ≤ bs.length)

variable {q q' : SendQueue} {b : Nat}

/-! ### What is in memory -/

/-- The messages in the queue fit a word together, and no offset is past its message's end. -/
structure Fits (q : SendQueue) : Prop where
  wf : q.WF
  alive : q.alive < 2 ^ 64

theorem alive_accept (data : Bytes) (binary : Bool) :
    (q.accept data binary).alive = q.alive + data.length := by
  simp [alive, accept]

/-- A frame handed out leaves no more bytes in memory. -/
theorem alive_emits {r : Option Bytes × SendQueue} (he : Emits q b r) : r.2.alive ≤ q.alive := by
  cases he with
  | held => exact Nat.le_refl _
  | part hb hp hmore =>
      unfold alive
      rw [hp]
      exact Nat.le_refl _
  | last hb hp hlast =>
      unfold alive
      rw [hp, List.map_cons, List.sum_cons]
      exact Nat.le_add_left _ _

theorem Fits.step {c : Call} (h : Fits q) (hstep : q.step c = some q') : Fits q' := by
  cases c with
  | push data binary =>
      obtain ⟨hmem, hstep⟩ := Option.ite_none_right_eq_some.mp hstep
      obtain rfl := Option.some.inj hstep
      rcases q.push_cases data binary with ⟨hpush, -, hroom⟩ | ⟨e, hpush⟩
      · rw [hpush]
        exact ⟨accept_wf h.wf hroom, by rw [alive_accept]; exact hmem⟩
      · rw [hpush]
        exact h
  | nextFrame b =>
      obtain rfl := Option.some.inj hstep
      have hless := alive_emits (q.nextFrame_emits b)
      exact ⟨nextFrame_wf h.wf b, Nat.lt_of_le_of_lt hless h.alive⟩
  | clear =>
      obtain rfl := Option.some.inj hstep
      exact ⟨clear_wf q, Nat.two_pow_pos 64⟩

theorem fits_of_reachable {config : SendConfig} {valid : config.validate = .ok ()}
    (h : (machine config valid).Reachable q) : Fits q := by
  have hstart : Fits (machine config valid).start := ⟨new_wf (new_ok valid), Nat.two_pow_pos 64⟩
  refine Machine.invariant hstart ?_ h
  intro s c t hs hstep
  exact hs.step hstep

/-! ### The words

Two sums could wrap, the queued bytes and a message's offset, and one difference could go
below zero, the queued bytes less what a frame takes.  Each is bounded by bytes that lie in
memory at that moment.
-/

theorem leftOf_le_alive (q : SendQueue) : leftOf q.pending ≤ q.alive := by
  unfold alive
  induction q.pending with
  | nil => exact Nat.le_refl 0
  | cons p ps ih =>
      rw [leftOf_cons, List.map_cons, List.sum_cons]
      have hleft : p.left ≤ p.data.length := Nat.sub_le _ _
      omega

/-- The one sum of a push is of bytes that are in memory. -/
theorem pushChecked_eq (h : Fits q) {data : Bytes} (binary : Bool)
    (hmem : q.alive + data.length < 2 ^ 64) :
    q.pushChecked data binary = some (q.push data binary) := by
  have hsum : q.queued + data.length < 2 ^ 64 := by
    have hleft := q.leftOf_le_alive
    have hqueued := h.wf.queued
    omega
  unfold pushChecked push
  simp only [add64_eq hsum, Option.bind_eq_bind, Option.bind_some]
  split
  · rfl
  · split <;> rfl

/-- An offset is inside its message, and what is left of the head is counted. -/
theorem nextFrameChecked_eq (h : Fits q) (b : Nat) :
    q.nextFrameChecked b = some (q.nextFrame b) := by
  unfold nextFrameChecked nextFrame
  split
  · rfl
  · cases hp : q.pending with
    | nil => rfl
    | cons head rest =>
        have hchunk := q.config_valid.chunk
        have hmax := q.config_valid.chunkMax
        have hoffset : head.offset ≤ head.data.length := by
          rcases Nat.eq_zero_or_pos head.offset with hzero | hpos
          · omega
          · exact Nat.le_of_lt (h.wf.head head (by rw [hp]; rfl) hpos)
        have hlength : head.data.length < 2 ^ 64 := by
          have halive := h.alive
          rw [alive, hp, List.map_cons, List.sum_cons] at halive
          omega
        have hqueued : head.data.length - head.offset ≤ q.queued := by
          have hcount := h.wf.queued
          rw [hp, leftOf_cons, Pending.left] at hcount
          omega
        have hword : LEGACY_MAX_MESSAGE_SIZE < 2 ^ 64 - 1 := by decide
        have htake := Nat.min_le_right (q.config.chunkSize - 1) (head.data.length - head.offset)
        have hroom := Nat.min_le_left (q.config.chunkSize - 1) (head.data.length - head.offset)
        have hsent : head.offset + min (q.config.chunkSize - 1)
            (head.data.length - head.offset) ≤ head.data.length := by omega
        have hcapacity : min (q.config.chunkSize - 1) (head.data.length - head.offset) + 1 <
            2 ^ 64 := by omega
        simp only [sub64_eq (Nat.le_trans (by decide : 1 ≤ 2) hchunk), sub64_eq hoffset,
          add64_eq (Nat.lt_of_le_of_lt hsent hlength), add64_eq hcapacity, slice_eq hsent,
          sub64_eq (Nat.le_trans htake hqueued), Option.bind_eq_bind, Option.bind_some]

/-! ### How long it takes to empty

A message takes as many frames as its bytes fill, and one if it has none.  A call with room
in the native buffer takes exactly one frame off that count, so the calls that empty a queue
are counted in advance.
-/

theorem framesLeft_eq_zero : q.framesLeft = 0 ↔ q.pending = [] := by
  unfold framesLeft
  cases q.pending with
  | nil => exact iff_of_true rfl rfl
  | cons p ps =>
      have hone : 1 ≤ framesOf q.room p := Nat.le_max_left _ _
      rw [List.map_cons, List.sum_cons]
      exact iff_of_false (by omega) (List.cons_ne_nil _ _)

/-- A frame with more to come leaves one frame less of its message. -/
theorem framesOf_part {room : Nat} {p : Pending} (hroom : 0 < room)
    (hmore : p.offset + room < p.data.length) :
    framesOf room p = framesOf room { p with offset := p.offset + room } + 1 := by
  have hleft : p.left = Pending.left { p with offset := p.offset + room } + room := by
    show p.data.length - p.offset = p.data.length - (p.offset + room) + room
    omega
  have hpos : 1 ≤ Pending.left { p with offset := p.offset + room } := by
    show 1 ≤ p.data.length - (p.offset + room)
    omega
  have hceil : p.left ⌈/⌉ room =
      Pending.left { p with offset := p.offset + room } ⌈/⌉ room + 1 := by
    rw [Nat.ceilDiv_eq_add_pred_div, Nat.ceilDiv_eq_add_pred_div, hleft]
    rw [← Nat.add_div_right _ hroom]
    congr 1
    omega
  have hone : 1 ≤ Pending.left { p with offset := p.offset + room } ⌈/⌉ room := by
    rw [Nat.ceilDiv_eq_add_pred_div]
    exact (Nat.le_div_iff_mul_le hroom).mpr (by omega)
  unfold framesOf
  rw [hceil]
  omega

/-- What fits one frame takes one, also where it has no byte. -/
theorem framesOf_last {room : Nat} {p : Pending} (hroom : 0 < room)
    (hlast : p.data.length ≤ p.offset + room) : framesOf room p = 1 := by
  have hleft : p.left ≤ room := by
    unfold Pending.left
    omega
  have hceil : p.left ⌈/⌉ room ≤ 1 := by
    rw [ceilDiv_le_iff_le_mul hroom, Nat.mul_one]
    exact hleft
  exact Nat.max_eq_left hceil

/-- Below the high-water mark a call hands out a frame, or there is none left. -/
theorem emits_counts {r : Option Bytes × SendQueue} (he : Emits q b r)
    (hb : b < q.config.highWater) :
    r.2.config = q.config ∧
      (r.1 = none ∧ q.framesLeft = 0 ∧ r.2.framesLeft = 0 ∨
        ∃ frame, r.1 = some frame ∧ q.framesLeft = r.2.framesLeft + 1) := by
  cases he with
  | held h =>
      rcases h with hhigh | hempty
      · omega
      · exact ⟨rfl, .inl ⟨rfl, framesLeft_eq_zero.mpr hempty, framesLeft_eq_zero.mpr hempty⟩⟩
  | @part head rest _ hp hmore =>
      refine ⟨rfl, .inr ⟨_, rfl, ?_⟩⟩
      have hframes := framesOf_part q.room_pos hmore
      unfold framesLeft
      rw [hp, List.map_cons, List.sum_cons, hframes]
      exact Nat.add_right_comm _ _ _
  | @last head rest _ hp hlast =>
      refine ⟨rfl, .inr ⟨_, rfl, ?_⟩⟩
      have hframes := framesOf_last q.room_pos hlast
      unfold framesLeft
      rw [hp, List.map_cons, List.sum_cons, hframes]
      exact Nat.add_comm _ _

theorem drain_cons (q : SendQueue) (b : Nat) (bs : List Nat) :
    q.drain (b :: bs) =
      ((q.nextFrame b).1.toList ++ ((q.nextFrame b).2.drain bs).1,
        ((q.nextFrame b).2.drain bs).2) := rfl

theorem drain_counts (bs : List Nat) (q : SendQueue) (hbs : ∀ b ∈ bs, b < q.config.highWater) :
    (q.drain bs).1.length = min bs.length q.framesLeft ∧
      ((q.drain bs).2.pending = [] ↔ q.framesLeft ≤ bs.length) := by
  induction bs generalizing q with
  | nil =>
      refine ⟨(Nat.zero_min _).symm, ?_⟩
      show q.pending = [] ↔ q.framesLeft ≤ 0
      rw [← framesLeft_eq_zero, Nat.le_zero]
  | cons b bs ih =>
      obtain ⟨hconfig, hcount⟩ :=
        emits_counts (q.nextFrame_emits b) (hbs b List.mem_cons_self)
      obtain ⟨hlength, hempty⟩ := ih (q.nextFrame b).2 fun c hc => by
        rw [hconfig]
        exact hbs c (List.mem_cons_of_mem b hc)
      rw [drain_cons, hempty, List.length_append, hlength, List.length_cons]
      rcases hcount with ⟨hnone, hzero, hzero'⟩ | ⟨f, hsome, hone⟩
      · rw [hnone, hzero, hzero', Nat.min_zero, Nat.min_zero]
        exact ⟨rfl, iff_of_true (Nat.zero_le _) (Nat.zero_le _)⟩
      · rw [hsome, hone]
        show 1 + _ = _ ∧ _
        omega

/-! ### All of it -/

theorem WF.partly (h : q.WF) (i : Nat) (p : Pending) (hp : q.pending[i]? = some p)
    (hpos : 0 < p.offset) : i = 0 ∧ p.offset < p.data.length := by
  cases i with
  | zero =>
      refine ⟨rfl, h.head p ?_ hpos⟩
      rw [List.head?_eq_getElem?]
      exact hp
  | succ i =>
      have htail : p ∈ q.pending.tail := by
        refine List.mem_of_getElem? (i := i) ?_
        rw [List.getElem?_tail]
        exact hp
      have hzero := h.rest p htail
      omega

/--
**What a queue counts is what it holds.**  In every state that pushes, frames and clearing can
bring a queue into, as long as the messages in memory fit a 64-bit word together.
-/
theorem queue_accounted (config : SendConfig) (valid : config.validate = .ok ())
    {q : SendQueue} (h : (machine config valid).Reachable q) : Accounted q := by
  have hfits := fits_of_reachable h
  refine ⟨hfits.wf.queued, hfits.wf.limit, hfits.wf.partly,
    fun data binary hmem => pushChecked_eq hfits binary hmem, nextFrameChecked_eq hfits, ?_, ?_,
    fun bs hbs => drain_counts bs q hbs⟩
  · intro data binary e herror
    rcases q.push_cases data binary with ⟨hpush, -, -⟩ | ⟨e', hpush⟩
    · rw [hpush] at herror
      cases herror
    · rw [hpush]
  · intro b frame hframe
    have hemits := q.nextFrame_emits b
    rcases hnext : q.nextFrame b with ⟨handed, q'⟩
    rw [hnext] at hemits hframe
    obtain rfl : handed = some frame := hframe
    exact emits_length hemits

/-- An empty message behind one of which a frame has left. -/
theorem queue_accounted_partly :
    Accounted ((machine {} (by decide)).final (machine {} (by decide)).start
      [.push [1, 2] true, .push [] false, .nextFrame 0] (by decide +kernel)) :=
  queue_accounted {} (by decide) ⟨_, (machine {} (by decide)).run_final _
    [.push [1, 2] true, .push [] false, .nextFrame 0] (by decide +kernel)⟩

end SendQueue

end ReactorWebrtc
