/-
The receiving side of one chunked channel.

Every invocation of `dc_on_message` feeds one native message to the reassembler, and a
whole message goes to the caller's handler, or waits for one to be set.  A `FrameError`
resets the reassembler and asks for a close, and that is all it does: the native side
may have queued more messages by then, and they are taken for the frames of a new
stream.

`only_sound_iff_silent` says when a byte of those reaches the handler: exactly when one
of them completes a message within the limit.  `late` marks the messages completed after
the error, and it is not the code's.

An invocation is one step: libwebrtc makes one at a time, and nothing else touches the
reassembler.  That a message may wait for a handler, and in what order such messages and new
ones reach it, is `Channel.Held`.
-/
import ReactorWebrtc.Chunking.Recv
import ReactorWebrtc.Lib.Machine

namespace ReactorWebrtc

/-- A message put together again. -/
structure Whole where
  data : Bytes
  binary : Bool
  late : Bool
  deriving DecidableEq, Repr

/-- What `dc_on_message` works on. -/
structure Inbox where
  reassembler : Reassembler
  /-- Whether `on_message` has been set, and what it was called with. -/
  handler : Bool := false
  got : List Whole := []
  pending : List Whole := []
  pendingBytes : Nat := 0
  pendingLimit : Nat
  /-- The error path has called `raw.close()`. -/
  closeAsked : Bool := false
  deriving DecidableEq, Repr

namespace Inbox

/-- Hand a whole message to the caller, or hold it until `on_message` is set. -/
def deliver (s : Inbox) (data : Bytes) (binary : Bool) : Inbox :=
  let message := { data, binary, late := s.closeAsked }
  if s.handler then
    { s with got := s.got ++ [message] }
  else if s.pendingBytes + data.length ≤ s.pendingLimit then
    { s with pendingBytes := s.pendingBytes + data.length, pending := s.pending ++ [message] }
  else s

/-- What the reassembler makes of a native message. -/
def delivery (s : Inbox) (bytes : Bytes) (binary : Bool) :
    Except FrameError Delivery × Reassembler :=
  -- every frame of a chunked channel is sent as binary
  if binary then s.reassembler.push bytes else (.error .typeChanged, s.reassembler)

def dcOnMessage (s : Inbox) (bytes : Bytes) (binary : Bool) : Inbox :=
  match s.delivery bytes binary with
  | (.ok (.message data binary), reassembler) => { s with reassembler }.deliver data binary
  | (.ok .pending, reassembler) | (.ok (.dropped _), reassembler) => { s with reassembler }
  | (.error _, reassembler) => { s with reassembler := reassembler.reset, closeAsked := true }

/-- A handler is set, and gets what was held. -/
def onMessage (s : Inbox) : Inbox :=
  { s with handler := true, got := s.got ++ s.pending, pending := [], pendingBytes := 0 }

inductive Event
  | message (bytes : Bytes) (binary : Bool)
  | onMessage
  /-- The native channel has closed. -/
  | closed
  deriving DecidableEq, Repr

def step (s : Inbox) : Event → Inbox
  | .message bytes binary => s.dcOnMessage bytes binary
  | .onMessage => s.onMessage
  | .closed => { s with reassembler := s.reassembler.reset }

/-- A channel with these limits. -/
def machine (maxMessageSize pendingLimit : Nat) : Machine Inbox Event where
  start := { reassembler := .new maxMessageSize, pendingLimit }
  step s e := some (s.step e)

/-- Of the messages completed after an error, no byte. -/
def NoneLate (messages : List Whole) : Prop := ∀ m ∈ messages, m.late = true → m.data = []

/-- The handler got no byte that came after an error. -/
def OnlySound (s : Inbox) : Prop := NoneLate s.got

/-- After an error, no frame completes a message of one byte or more while a handler is
set, and none is set while such a message is held. -/
def Silent (s : Inbox) : Event → Prop
  | .message bytes binary =>
    s.closeAsked = true → s.handler = true → binary = true →
      ∀ data, s.reassembler.Completes bytes data → data = []
  | .onMessage => NoneLate s.pending
  | .closed => True

variable {s : Inbox}

/-! ### One invocation

Whatever the frame is, at most one message reaches the handler, and it does only where the
frame completes one and a handler is set.  A text message of the native side is never a
frame.
-/

theorem deliver_got (s : Inbox) (data : Bytes) (binary : Bool) :
    (s.deliver data binary).got =
      if s.handler then s.got ++ [{ data, binary, late := s.closeAsked }] else s.got := by
  unfold deliver
  split
  · rfl
  · split <;> rfl

/-- The handler gets a message when the frame completes one, and nothing otherwise. -/
theorem dcOnMessage_got (s : Inbox) (bytes : Bytes) (binary : Bool) :
    (∃ data b, s.handler = true ∧ binary = true ∧
        (s.reassembler.push bytes).1 = .ok (.message data b) ∧
        (s.dcOnMessage bytes binary).got
          = s.got ++ [{ data, binary := b, late := s.closeAsked }]) ∨
      ((s.dcOnMessage bytes binary).got = s.got ∧
        (s.handler = true → binary = true →
          ∀ data b, (s.reassembler.push bytes).1 ≠ .ok (.message data b))) := by
  cases binary with
  | false => exact .inr ⟨rfl, fun _ h => by cases h⟩
  | true =>
      unfold dcOnMessage delivery
      simp only [if_true]
      generalize s.reassembler.push bytes = out
      obtain ⟨delivery, reassembler⟩ := out
      cases delivery with
      | error e => exact .inr ⟨rfl, fun _ _ data b h => by cases h⟩
      | ok d =>
          cases d with
          | pending => exact .inr ⟨rfl, fun _ _ data b h => by cases h⟩
          | dropped size => exact .inr ⟨rfl, fun _ _ data b h => by cases h⟩
          | message data b =>
              simp only [deliver_got]
              cases hset : s.handler with
              | true => exact .inl ⟨data, b, rfl, trivial, rfl, rfl⟩
              | false => exact .inr ⟨rfl, fun h => by cases h⟩

theorem noneLate_append {ms ns : List Whole} :
    NoneLate (ms ++ ns) ↔ NoneLate ms ∧ NoneLate ns := List.forall_mem_append

theorem onlySound_step (hsound : s.OnlySound) (e : Event) : (s.step e).OnlySound ↔ s.Silent e := by
  cases e with
  | message bytes binary =>
      show NoneLate (s.dcOnMessage bytes binary).got ↔ _
      rcases s.dcOnMessage_got bytes binary with
        ⟨data, b, hset, rfl, hpush, hgot⟩ | ⟨hgot, hnone⟩
      · rw [hgot, noneLate_append]
        constructor
        · rintro ⟨-, hlast⟩ hasked - - data' hcompletes
          obtain ⟨b', hpush'⟩ := (s.reassembler.push_message_iff bytes data').mpr hcompletes
          rw [hpush] at hpush'
          cases hpush'
          exact hlast _ (List.mem_singleton_self _) hasked
        · intro hsilent
          refine ⟨hsound, fun m hm hlate => ?_⟩
          rw [List.mem_singleton.mp hm] at hlate ⊢
          exact hsilent hlate hset rfl data
            ((s.reassembler.push_message_iff bytes data).mp ⟨b, hpush⟩)
      · rw [hgot]
        refine iff_of_true hsound fun _ hset hbinary data hcompletes => ?_
        obtain ⟨b, hpush⟩ := (s.reassembler.push_message_iff bytes data).mpr hcompletes
        exact absurd hpush (hnone hset hbinary data b)
  | onMessage => exact noneLate_append.trans (and_iff_right hsound)
  | closed => exact iff_of_true hsound trivial

/--
**No byte that comes after a frame error reaches the handler, all along a run, exactly
when no frame after it completes a message of one byte or more that the handler gets.**
-/
theorem only_sound_iff_silent (maxMessageSize pendingLimit : Nat) (es : List Event) :
    (machine maxMessageSize pendingLimit).Along OnlySound
        (machine maxMessageSize pendingLimit).start es ↔
      (machine maxMessageSize pendingLimit).Guarded Silent
        (machine maxMessageSize pendingLimit).start es := by
  obtain ⟨t, ht⟩ := (machine maxMessageSize pendingLimit).run_total (fun s e => ⟨s.step e, rfl⟩)
    (machine maxMessageSize pendingLimit).start es
  refine Machine.along_iff_guarded (I := fun _ => True) (fun _ _ _ _ _ => trivial) ?_ trivial ?_ ht
  · intro u e v _ hsound huv
    obtain rfl := Option.some.inj huv
    exact onlySound_step hsound e
  · intro m hm
    cases hm

/-- A frame of an unknown version, and then one that is a whole message. -/
theorem broken_stream_delivers :
    ¬ ∀ s, (machine 100 100).Reachable s → s.OnlySound := by
  intro h
  have hrun : (machine 100 100).run (machine 100 100).start
      [.onMessage, .message [4] true, .message [0, 97, 98] true] = some
        { reassembler := .new 100, handler := true, pendingLimit := 100, closeAsked := true
          got := [{ data := [97, 98], binary := true, late := true }] } := by decide +kernel
  exact absurd (h _ ⟨_, hrun⟩ _ (List.mem_singleton_self _) rfl) (by decide)

end Inbox

end ReactorWebrtc
