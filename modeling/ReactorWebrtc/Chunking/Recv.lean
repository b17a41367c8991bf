/-
The reassembler of one channel.

It holds at most one partial message, because the frames of a message arrive
contiguously.  Three fields describe that message between two frames: its type, the
bytes kept, and, once it has passed the limit, how many bytes were skipped instead.
`Carries` is the one statement about them: after the payload `pre` of an open message
the buffer is `pre`, or, when `pre` is past the limit, empty with the count of `pre`
in its place.  Between messages that reads as carrying nothing of no type, so a frame
that opens a message and a frame that continues one are the same case.

A message past the limit is not refused when it opens, as nothing in its first frame says
how long it will be.  Its bytes are counted from then on and not kept, and its last frame
reports the size.  A frame that cannot be read changes nothing here; what the channel makes
of it is `Channel.Receive`.
-/
import ReactorWebrtc.Chunking.Frame

namespace ReactorWebrtc

/-- What one frame completed. -/
inductive Delivery
  /-- The frame belongs to a message that is not complete yet. -/
  | pending
  /-- A whole message, with the type it was sent as. -/
  | message (data : Bytes) (binary : Bool)
  /-- A message larger than the local limit ended; none of it was kept. -/
  | dropped (size : Nat)
  deriving DecidableEq, Repr

/-- Turns one channel's frames back into messages. -/
structure Reassembler where
  maxMessageSize : Nat
  buf : Bytes
  /-- Type of the message in progress; `none` between messages. -/
  text : Option Bool
  /-- Bytes skipped so far when the message in progress passed the limit. -/
  skipping : Option Nat
  deriving DecidableEq, Repr

namespace Reassembler

/-- A reassembler that keeps messages up to `maxMessageSize` bytes. -/
def new (maxMessageSize : Nat) : Reassembler :=
  { maxMessageSize, buf := [], text := none, skipping := none }

/-- Keep a payload, or only count it once the message is past the limit. -/
def keep (r : Reassembler) (payload : Bytes) : Reassembler :=
  match r.skipping with
  | some skipped => { r with skipping := some (skipped + payload.length) }
  | none =>
    if r.buf.length + payload.length > r.maxMessageSize then
      { r with skipping := some (r.buf.length + payload.length), buf := [] }
    else
      { r with buf := r.buf ++ payload }

/-- Feed one frame as received from the channel. -/
def push (r : Reassembler) (frame : Bytes) : Except FrameError Delivery × Reassembler :=
  match frame with
  | [] => (.error .empty, r)
  | first :: payload =>
    match Header.decode first with
    | .error e => (.error e, r)
    | .ok header =>
      if r.text.any (· != header.text) then
        (.error .typeChanged, r)
      else
        let r := keep { r with text := some header.text } payload
        if header.more then
          (.ok .pending, r)
        else
          let r := { r with text := none }
          match r.skipping with
          | some size => (.ok (.dropped size), { r with skipping := none })
          | none => (.ok (.message r.buf (!header.text)), { r with buf := [] })

/-- Whether a message has started arriving but is not complete. -/
def midMessage (r : Reassembler) : Bool := r.text.isSome

/-- Discard any partial message. -/
def reset (r : Reassembler) : Reassembler := { r with buf := [], text := none, skipping := none }

@[simp] theorem keep_maxMessageSize (r : Reassembler) (payload : Bytes) :
    (r.keep payload).maxMessageSize = r.maxMessageSize := by
  unfold keep
  split
  · rfl
  · split <;> rfl

/-- What a whole message becomes under a receive limit. -/
def deliveryOf (limit : Nat) (data : Bytes) (binary : Bool) : Delivery :=
  if data.length ≤ limit then .message data binary else .dropped data.length

/-- The reassembler has been fed `pre` of an open message of type `t`. -/
structure Carries (r : Reassembler) (pre : Bytes) (t : Option Bool) : Prop where
  text : r.text = t
  kept : pre.length ≤ r.maxMessageSize → r.buf = pre ∧ r.skipping = none
  skipped : r.maxMessageSize < pre.length → r.buf = [] ∧ r.skipping = some pre.length

theorem new_carries (limit : Nat) : (new limit).Carries [] none :=
  ⟨rfl, fun _ => ⟨rfl, rfl⟩, fun h => absurd h (Nat.not_lt_zero _)⟩

theorem keep_carries {r : Reassembler} {pre : Bytes} {t : Option Bool} (h : r.Carries pre t)
    (payload : Bytes) : (r.keep payload).Carries (pre ++ payload) t := by
  rcases Nat.lt_or_ge r.maxMessageSize pre.length with hover | hwithin
  · -- already past the limit: the count goes on
    obtain ⟨hbuf, hskip⟩ := h.skipped hover
    have hkeep : r.keep payload = { r with skipping := some (pre.length + payload.length) } := by
      simp [keep, hskip]
    rw [hkeep]
    refine ⟨h.text, ?_, ?_⟩
    · intro hle
      have hle' : pre.length + payload.length ≤ r.maxMessageSize := by simpa using hle
      omega
    · intro _
      exact ⟨hbuf, by simp⟩
  · obtain ⟨hbuf, hskip⟩ := h.kept hwithin
    rcases Nat.lt_or_ge r.maxMessageSize (pre.length + payload.length) with hpast | hfits
    · -- this payload is the one that passes it
      have hkeep : r.keep payload
          = { r with skipping := some (pre.length + payload.length), buf := [] } := by
        simp [keep, hskip, hbuf, hpast]
      rw [hkeep]
      refine ⟨h.text, ?_, ?_⟩
      · intro hle
        have hle' : pre.length + payload.length ≤ r.maxMessageSize := by simpa using hle
        omega
      · intro _
        exact ⟨rfl, by simp⟩
    · have hkeep : r.keep payload = { r with buf := pre ++ payload } := by
        simp [keep, hskip, hbuf, Nat.not_lt.mpr hfits]
      rw [hkeep]
      refine ⟨h.text, fun _ => ⟨rfl, hskip⟩, ?_⟩
      intro hlt
      have hlt' : r.maxMessageSize < pre.length + payload.length := by simpa using hlt
      omega

/-! ### What one frame can do

As for the queue, one inductive predicate has all that `push` does, errors included, so that
no later proof looks at its branches.  A frame whose header is wrong is told apart from one
that opens, continues or ends a message before its payload is looked at.
-/

/-- The branches of `push`. -/
inductive Pushes (r : Reassembler) : Bytes → Except FrameError Delivery × Reassembler → Prop
  | empty : Pushes r [] (.error .empty, r)
  | version {first : UInt8} {payload : Bytes} {e : FrameError}
      (hfirst : Header.decode first = .error e) : Pushes r (first :: payload) (.error e, r)
  | changed {first : UInt8} {payload : Bytes} {header : Header}
      (hfirst : Header.decode first = .ok header)
      (htype : r.text.any (· != header.text) = true) :
      Pushes r (first :: payload) (.error .typeChanged, r)
  | pending {first : UInt8} {payload : Bytes} {header : Header}
      (hfirst : Header.decode first = .ok header)
      (htype : r.text.any (· != header.text) = false) (hmore : header.more = true) :
      Pushes r (first :: payload)
        (.ok .pending, keep { r with text := some header.text } payload)
  | dropped {first : UInt8} {payload : Bytes} {header : Header} {k : Reassembler} {size : Nat}
      (hfirst : Header.decode first = .ok header)
      (htype : r.text.any (· != header.text) = false) (hmore : header.more = false)
      (hk : keep { r with text := some header.text } payload = k)
      (hskip : k.skipping = some size) :
      Pushes r (first :: payload) (.ok (.dropped size), { k with text := none, skipping := none })
  | message {first : UInt8} {payload : Bytes} {header : Header} {k : Reassembler}
      (hfirst : Header.decode first = .ok header)
      (htype : r.text.any (· != header.text) = false) (hmore : header.more = false)
      (hk : keep { r with text := some header.text } payload = k) (hskip : k.skipping = none) :
      Pushes r (first :: payload)
        (.ok (.message k.buf (!header.text)), { k with text := none, buf := [] })

theorem push_pushes (r : Reassembler) (frame : Bytes) : Pushes r frame (r.push frame) := by
  unfold push
  split
  · exact .empty
  · split
    · rename_i e hfirst
      exact .version hfirst
    · rename_i header hfirst
      split
      · rename_i htype
        exact .changed hfirst htype
      · rename_i htype
        have htype := Bool.eq_false_iff.mpr htype
        dsimp only
        split
        · rename_i hmore
          exact .pending hfirst htype hmore
        · rename_i hmore
          have hmore := Bool.eq_false_iff.mpr hmore
          split
          · rename_i size hskip
            exact .dropped hfirst htype hmore rfl hskip
          · rename_i hskip
            exact .message hfirst htype hmore rfl hskip

/-- A payload is kept, rather than counted, exactly when the message is within the limit. -/
theorem keep_kept_iff (r : Reassembler) (payload : Bytes) :
    (r.keep payload).skipping = none ↔
      r.skipping = none ∧ r.buf.length + payload.length ≤ r.maxMessageSize := by
  unfold keep
  split
  · rename_i skipped hskip
    simp [hskip]
  · rename_i hskip
    split
    · rename_i hover
      simp [hskip, Nat.not_le.mpr hover]
    · rename_i hfits
      simp [hskip, Nat.not_lt.mp hfits]

theorem keep_buf (r : Reassembler) {payload : Bytes} (h : (r.keep payload).skipping = none) :
    (r.keep payload).buf = r.buf ++ payload := by
  obtain ⟨hskip, hfits⟩ := (keep_kept_iff r payload).mp h
  simp [keep, hskip, Nat.not_lt.mpr hfits]

/-- A frame that completes `data`: the last of its message, of the same type, and within
the limit. -/
structure Completes (r : Reassembler) (frame data : Bytes) : Prop where
  last : ∃ first payload header, frame = first :: payload ∧ Header.decode first = .ok header ∧
    header.more = false ∧ r.text.any (· != header.text) = false ∧ data = r.buf ++ payload
  kept : r.skipping = none
  fits : data.length ≤ r.maxMessageSize

theorem push_message_iff (r : Reassembler) (frame data : Bytes) :
    (∃ binary, (r.push frame).1 = .ok (.message data binary)) ↔ r.Completes frame data := by
  constructor
  · rintro ⟨binary, h⟩
    have hpush := r.push_pushes frame
    generalize r.push frame = out at h hpush
    cases hpush with
    | @message first payload header k hfirst htype hmore hk hskip =>
        subst hk
        obtain ⟨hnone, hfits⟩ := (keep_kept_iff _ _).mp hskip
        have hbuf := keep_buf _ hskip
        obtain ⟨rfl, -⟩ := Delivery.message.inj (Except.ok.inj h)
        refine ⟨⟨first, payload, header, rfl, hfirst, hmore, htype, hbuf⟩, hnone, ?_⟩
        rw [hbuf, List.length_append]
        exact hfits
    | _ => cases h
  · rintro ⟨⟨first, payload, header, rfl, hfirst, hmore, htype, rfl⟩, hnone, hfits⟩
    rw [List.length_append] at hfits
    have hskip := (keep_kept_iff { r with text := some header.text } payload).mpr ⟨hnone, hfits⟩
    have hbuf := keep_buf _ hskip
    refine ⟨!header.text, ?_⟩
    simp [push, hfirst, htype, hmore, hskip, hbuf]

/-! ### One frame of a message -/

variable {r : Reassembler} {pre : Bytes} {t : Option Bool} {text : Bool}

/-- The message in progress, if any, has the type of the frame at hand. -/
def Continues (t : Option Bool) (text : Bool) : Prop := t = none ∨ t = some text

theorem Continues.not_changed (h : Continues t text) : ¬ t.any (· != text) = true := by
  rcases h with rfl | rfl <;> simp

/-- A frame with more to come only adds its payload. -/
theorem push_more (h : r.Carries pre t) (ht : Continues t text) (payload : Bytes) :
    ∃ r', r.push (Header.encode { more := true, text } :: payload) = (.ok .pending, r') ∧
      r'.Carries (pre ++ payload) (some text) ∧ r'.maxMessageSize = r.maxMessageSize := by
  have hsame : ¬ r.text.any (· != text) = true := by rw [h.text]; exact ht.not_changed
  have hopen : ({ r with text := some text } : Reassembler).Carries pre (some text) :=
    ⟨rfl, h.kept, h.skipped⟩
  refine ⟨_, ?_, keep_carries hopen payload, by rw [keep_maxMessageSize]⟩
  simp [push, hsame]

/-- The last frame of a message completes it, as kept or as dropped. -/
theorem push_last (h : r.Carries pre t) (ht : Continues t text) (payload : Bytes) :
    ∃ r', r.push (Header.encode { more := false, text } :: payload)
        = (.ok (deliveryOf r.maxMessageSize (pre ++ payload) (!text)), r') ∧
      r'.Carries [] none ∧ r'.maxMessageSize = r.maxMessageSize := by
  have hsame : ¬ r.text.any (· != text) = true := by rw [h.text]; exact ht.not_changed
  have hopen : ({ r with text := some text } : Reassembler).Carries pre (some text) :=
    ⟨rfl, h.kept, h.skipped⟩
  have hkeep := keep_carries hopen payload
  set k := ({ r with text := some text } : Reassembler).keep payload with hk
  have hmax : k.maxMessageSize = r.maxMessageSize := by rw [hk, keep_maxMessageSize]
  rcases Nat.lt_or_ge r.maxMessageSize (pre ++ payload).length with hover | hwithin
  · obtain ⟨hbuf, hskip⟩ := hkeep.skipped (by rw [hmax]; exact hover)
    refine ⟨{ k with text := none, skipping := none }, ?_, ⟨rfl, ?_, ?_⟩, hmax⟩
    · simp only [push, Header.decode_encode, if_neg hsame, ← hk, hskip, deliveryOf,
        if_neg (Nat.not_le.mpr hover)]
      rfl
    · exact fun _ => ⟨hbuf, rfl⟩
    · exact fun hlt => absurd hlt (Nat.not_lt_zero _)
  · obtain ⟨hbuf, hskip⟩ := hkeep.kept (by rw [hmax]; exact hwithin)
    refine ⟨{ k with text := none, buf := [] }, ?_, ⟨rfl, ?_, ?_⟩, hmax⟩
    · simp only [push, Header.decode_encode, if_neg hsame, ← hk, hskip, hbuf, deliveryOf,
        if_pos hwithin]
      rfl
    · exact fun _ => ⟨rfl, hskip⟩
    · exact fun hlt => absurd hlt (Nat.not_lt_zero _)

end Reassembler

end ReactorWebrtc
