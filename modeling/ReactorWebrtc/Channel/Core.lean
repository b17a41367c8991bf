/-
One chunked channel and every thread that uses it.

The connection has negotiated chunking and the channel is ordered and reliable, so the
only decision left is when.  `Shared` is what the threads share: the native channel,
the send queue, the try-lock and the flag of the pump, and its estimate of the native
buffer.  `Call` says where one call of `send`, `close`, `is_chunked` or the low-buffer
callback is.  A step is one access to something shared: a native call, a section under
the queue's lock, a load, a store or a swap.

A thread inside the pump is either outside its lock (`Call.pump`) or under it
(`Call.inside`); everything that happens under the lock is `Shared.move`.  The native
send of a frame is two steps, the send and the reading of the buffer after it, since a
callback may run in between, on the same thread even, and call the pump again.  The
native side opens, closes and drains whenever it likes.

The last five fields of `Shared` are not the code's: the messages accepted, the frames
returned by `nextFrame`, whether the native channel has refused one, the last pass of the
pump and the last pass of the last thread to have taken its lock.
-/
import Mathlib.Logic.Function.Basic
import ReactorWebrtc.Channel.Decision
import ReactorWebrtc.Lib.Lock
import ReactorWebrtc.Lib.Machine

namespace ReactorWebrtc

namespace Channel

def UNKNOWN : Nat := 2 ^ 64 - 1

/-- What the native channel has accepted. -/
inductive Handed
  | frame (bytes : Bytes)
  | plain (data : Bytes) (binary : Bool)
  deriving DecidableEq, Repr

/-- One pass of the pump: the amount it stopped on, whether libwebrtc was asked for it,
and how many messages had been accepted by then. -/
structure Pass where
  amount : Nat
  fresh : Bool
  seen : Nat
  deriving DecidableEq, Repr

structure Shared where
  native : DataChannelState := .connecting
  /-- libwebrtc's buffered amount. -/
  buffered : Nat := 0
  handed : List Handed := []
  decided : Bool := false
  queue : SendQueue
  /-- Who holds `pump`. -/
  lock : Option Nat := none
  pumpAgain : Bool := false
  nativeEst : Nat := UNKNOWN
  earlyLowThreshold : Nat := 0
  userLowThreshold : Nat := 0
  userLowArmed : Bool := false
  /-- How often the caller's low-buffer handler was notified. -/
  notified : Nat := 0
  accepted : List (Bytes × Bool) := []
  returned : List Bytes := []
  refused : Bool := false
  lastPass : Option Pass := none
  /-- The last pass of the last thread to have taken the lock. -/
  ownPass : Option Pass := none

/-- Up to here the estimate is trusted: `trust_below` is the queue's low-water mark. -/
def Shared.trustBelow (s : Shared) : Nat := s.queue.config.lowWater

/-- Where a thread is under the pump's lock. -/
inductive Inside
  /-- At `pump_again.swap(false)`. -/
  | swap
  /-- At the load of the estimate. -/
  | load
  /-- At `raw.buffered_amount()`. -/
  | read
  /-- At the store of what it read. -/
  | note (n seen : Nat)
  /-- At `next_frame`, with the amount it will pass. -/
  | build (buffered : Nat) (fresh : Bool) (seen : Nat)
  /-- At the native send of a frame. -/
  | native (frame : Bytes)
  /-- At the reading of the buffer after it. -/
  | measure (sent : Bool)
  /-- At the store of that reading. -/
  | settle (sent : Bool) (after : Nat)
  /-- At the clearing of the queue after a refusal, and at the return that follows. -/
  | failed
  | leave
  /-- At `drop(_guard)`. -/
  | unlock
  deriving DecidableEq, Repr

/-- What a step under the lock leads to. -/
inductive Moved
  | stay (pc : Inside)
  /-- Out of the lock, to look at the flag once more. -/
  | recheck
  /-- Out of the lock and back to the caller. -/
  | gone
  deriving DecidableEq, Repr

def Shared.move (s : Shared) : Inside → Shared × Moved
  | .swap =>
    if s.pumpAgain then ({ s with pumpAgain := false }, .stay .load) else (s, .stay .unlock)
  | .load =>
    if s.nativeEst ≤ s.trustBelow then
      (s, .stay (.build s.nativeEst false s.accepted.length))
    else
      (s, .stay .read)
  | .read => (s, .stay (.note s.buffered s.accepted.length))
  | .note n seen => ({ s with nativeEst := n }, .stay (.build n true seen))
  | .build buffered fresh seen =>
    match s.queue.nextFrame buffered with
    | (some frame, queue) =>
      ({ s with queue, returned := s.returned ++ [frame] }, .stay (.native frame))
    | (none, queue) =>
      let pass := { amount := buffered, fresh, seen }
      ({ s with queue, lastPass := some pass, ownPass := some pass }, .stay .swap)
  | .native frame =>
    if s.native = .opened then
      ({ s with buffered := s.buffered + frame.length, handed := s.handed ++ [.frame frame] },
        .stay (.measure true))
    else
      ({ s with refused := true }, .stay (.measure false))
  | .measure sent => (s, .stay (.settle sent s.buffered))
  | .settle sent after =>
    ({ s with nativeEst := after }, .stay (if sent then .load else .failed))
  | .failed => ({ s with queue := s.queue.clear }, .stay .leave)
  | .leave => ({ s with lock := none }, .gone)
  | .unlock => ({ s with lock := none }, .recheck)

/-- Why `send` fails. -/
inductive SendFailure
  /-- The native channel does not take it. -/
  | webrtc
  | dataChannel (e : SendError)
  deriving DecidableEq, Repr

/-- Who called `pump`. -/
inductive Pumper
  | send
  | low
  /-- The drain of a `close` before which this many messages were accepted. -/
  | drain (since : Nat)
  deriving DecidableEq, Repr

/-- Who called `chunked`, deciding the channel if it is open. -/
inductive Asker
  | send (data : Bytes) (binary : Bool)
  /-- `is_chunked`, or the `Open` transition. -/
  | query
  | threshold (n : Nat)
  | close (since : Nat)
  deriving DecidableEq, Repr

/-- Where one call is. -/
inductive Call
  | idle
  /-- At `decided.get()`. -/
  | ask (w : Asker)
  /-- At the native state, the channel being undecided. -/
  | look (w : Asker)
  /-- At the load of the early threshold, for the state the channel would be chunked with. -/
  | prepare (w : Asker)
  /-- At `get_or_init`. -/
  | decide (w : Asker) (threshold : Nat)
  /-- `send`: at the plain native send. -/
  | plain (data : Bytes) (binary : Bool)
  /-- `send`: at the second look at the native state, at the push, at the arming. -/
  | check (data : Bytes) (binary : Bool)
  | push (data : Bytes) (binary : Bool)
  | arm
  | sent (result : Except SendFailure Unit)
  /-- `pump`: at `pump_again.store(true)`, at the try-lock, at the last load of the flag. -/
  | store (k : Pumper)
  | tryLock (k : Pumper)
  | recheck (k : Pumper)
  | inside (k : Pumper) (pc : Inside)
  /-- `set_buffered_amount_low_threshold`: at its two stores. -/
  | early (n : Nat)
  | threshold (n : Nat)
  /-- `maybe_fire_user_low`: at its two readings, and at the swap of the arming. -/
  | fireRead
  | fireQueued (threshold native : Nat)
  | fireSwap
  /-- `drain`: at its two readings, and at the check of the state. -/
  | closeRead (since : Nat)
  | closeQueued (since native : Nat)
  | closeState (since : Nat)
  /-- `close`: at the native close, with what `drain` returned. -/
  | closeNative (drained : Bool) (since : Nat)
  | closed (drained : Bool) (since : Nat)
  | done

/-- Where the caller of `pump` goes on. -/
def Pumper.next : Pumper → Call
  | .send => .sent (.ok ())
  | .low => .fireRead
  | .drain since => .closeRead since

/-- Where the caller of `chunked` goes on, with a chunked channel and without one. -/
def Asker.chunked : Asker → Call
  | .send data binary => .check data binary
  | .query => .done
  | .threshold n => .threshold n
  | .close since => .closeRead since

def Asker.plain : Asker → Call
  | .send data binary => .plain data binary
  | .query | .threshold _ => .done
  | .close since => .closeNative false since

def Moved.next (k : Pumper) : Moved → Call
  | .stay pc => .inside k pc
  | .recheck => .recheck k
  | .gone => k.next

structure State where
  shared : Shared
  calls : Nat → Call

/-- What a new call is of. -/
inductive Kind
  | send (data : Bytes) (binary : Bool)
  | query
  | low
  | threshold (n : Nat)
  | close
  deriving DecidableEq, Repr

inductive Action
  | call (i : Nat) (k : Kind)
  | step (i : Nat)
  /-- The drain of call `i` runs out of time. -/
  | expire (i : Nat)
  /-- The native channel changes its state, and reports that it has closed. -/
  | native (next : DataChannelState)
  | closedEvent
  | drain (n : Nat)
  deriving DecidableEq, Repr

/-- Call `i` goes on to `c`, having left the shared state as `shared`. -/
def State.goto (s : State) (shared : Shared) (i : Nat) (c : Call) : State :=
  { shared, calls := Function.update s.calls i c }

/-- The next step of a call. -/
def advance (s : State) (i : Nat) : Call → Option State
  | .idle | .done | .sent _ | .closed _ _ => none
  | .ask w => some (s.goto s.shared i (if s.shared.decided then w.chunked else .look w))
  | .look w => some (s.goto s.shared i (if s.shared.native = .opened then .prepare w else w.plain))
  | .prepare w => some (s.goto s.shared i (.decide w s.shared.earlyLowThreshold))
  | .decide w threshold =>
    if s.shared.decided then some (s.goto s.shared i w.chunked)
    else
      some (s.goto { s.shared with decided := true, userLowThreshold := threshold } i w.chunked)
  | .plain data binary =>
    if s.shared.native = .opened then
      some (s.goto { s.shared with
        buffered := s.shared.buffered + data.length
        handed := s.shared.handed ++ [.plain data binary] } i (.sent (.ok ())))
    else
      some (s.goto s.shared i (.sent (.error .webrtc)))
  | .check data binary =>
    some (s.goto s.shared i
      (if s.shared.native = .opened then .push data binary else .sent (.error .webrtc)))
  | .push data binary =>
    match s.shared.queue.push data binary with
    | (.ok (), queue) =>
      some (s.goto { s.shared with
        queue, accepted := s.shared.accepted ++ [(data, binary)] } i .arm)
    | (.error e, queue) => some (s.goto { s.shared with queue } i (.sent (.error (.dataChannel e))))
  | .arm => some (s.goto { s.shared with userLowArmed := true } i (.store .send))
  | .store k => some (s.goto { s.shared with pumpAgain := true } i (.tryLock k))
  | .tryLock k =>
    match s.shared.lock with
    | none => some (s.goto { s.shared with lock := some i, ownPass := none } i (.inside k .swap))
    | some _ => some (s.goto s.shared i k.next)
  | .inside k pc =>
    let (shared, moved) := s.shared.move pc
    some (s.goto shared i (moved.next k))
  | .recheck k => some (s.goto s.shared i (if s.shared.pumpAgain then .store k else k.next))
  | .early n => some (s.goto { s.shared with earlyLowThreshold := n } i (.ask (.threshold n)))
  | .threshold n => some (s.goto { s.shared with userLowThreshold := n } i .done)
  | .fireRead =>
    some (s.goto s.shared i (.fireQueued s.shared.userLowThreshold s.shared.buffered))
  | .fireQueued threshold native =>
    some (s.goto s.shared i
      (if native + s.shared.queue.queued ≤ threshold then .fireSwap else .done))
  | .fireSwap =>
    some (s.goto { s.shared with
      userLowArmed := false
      notified := s.shared.notified + if s.shared.userLowArmed then 1 else 0 } i .done)
  | .closeRead since => some (s.goto s.shared i (.closeQueued since s.shared.buffered))
  | .closeQueued since native =>
    some (s.goto s.shared i
      (if native + s.shared.queue.queued = 0 then .closeNative true since else .closeState since))
  | .closeState since =>
    some (s.goto s.shared i
      (if s.shared.native = .opened then .store (.drain since) else .closeNative false since))
  | .closeNative drained since =>
    let native := match s.shared.native with
      | .connecting | .opened => .closing
      | native => native
    some (s.goto { s.shared with native } i (.closed drained since))

/-- Where a new call starts. -/
def Shared.enter (s : Shared) : Kind → Shared × Call
  | .send data binary => (s, .ask (.send data binary))
  | .query => (s, .ask .query)
  | .low =>
    if s.decided then (s, .store .low) else ({ s with notified := s.notified + 1 }, .done)
  | .threshold n => (s, .early n)
  | .close => (s, .ask (.close s.accepted.length))

/-- The changes of state the native channel makes by itself. -/
def allowed : DataChannelState → DataChannelState → Bool
  | .connecting, .opened | .connecting, .closing | .opened, .closing => true
  | .connecting, .closed | .opened, .closed | .closing, .closed => true
  | _, _ => false

def step (s : State) : Action → Option State
  | .call i k =>
    match s.calls i with
    | .idle =>
      let (shared, c) := s.shared.enter k
      some (s.goto shared i c)
    | _ => none
  | .step i => advance s i (s.calls i)
  | .expire i =>
    match s.calls i with
    | .closeState since => some (s.goto s.shared i (.closeNative false since))
    | _ => none
  | .native next =>
    if allowed s.shared.native next then some { s with shared := { s.shared with native := next } }
    else none
  | .closedEvent =>
    if s.shared.native = .closed then
      if s.shared.decided then
        some { s with shared := { s.shared with queue := s.shared.queue.clear } }
      else some s
    else none
  | .drain n => some { s with shared := { s.shared with buffered := s.shared.buffered - n } }

/-- A channel whose queue has this configuration. -/
def machine (config : SendConfig) (valid : config.validate = .ok ()) : Machine State Action where
  start :=
    { shared := { queue := { config, valid, pending := [], queued := 0 } }
      calls := fun _ => .idle }
  step := step

/-- Call `i` takes `n` steps. -/
def steps (i n : Nat) : List Action := List.replicate n (.step i)

end Channel

end ReactorWebrtc
