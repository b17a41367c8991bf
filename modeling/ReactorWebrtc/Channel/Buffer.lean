/-
How much the pump lets libwebrtc buffer.

The pump reads the native buffer only when its estimate is above the low-water mark,
and otherwise goes by an amount it may have stored long ago.  What makes that safe is
that the estimate never falls short: the buffer grows only while the pump's lock is
held, by the frame the pump has just sent, and the pump stores a reading taken after
every send before it looks at the estimate again.  So whatever amount a pass goes by,
the real one is no larger, and a frame is sent only below the high-water mark.

A message that leaves unframed is not the pump's, so the bound is stated for channels
that have handed over frames only.

The other half is what the bound is for: a pass that has found the buffer at the mark reads
no further frames, and the native callback for a low buffer starts the next one.
-/
import ReactorWebrtc.Channel.View

namespace ReactorWebrtc

namespace SendQueue

@[simp] theorem clear_config (q : SendQueue) : q.clear.config = q.config := rfl

@[simp] theorem accept_config (q : SendQueue) (data : Bytes) (binary : Bool) :
    (q.accept data binary).config = q.config := rfl

theorem Emits.config {q q' : SendQueue} {b : Nat} {frame : Option Bytes}
    (h : Emits q b (frame, q')) : q'.config = q.config := by
  cases h <;> rfl

end SendQueue

namespace Channel

theorem Outside.config {s t : Shared} (h : Outside s t) : t.queue.config = s.queue.config := by
  cases h <;> rfl

theorem Moves.config {s t : Shared} {pc : Inside} {m : Moved} (h : Moves s pc t m) :
    t.queue.config = s.queue.config := by
  cases h with
  | frame h => exact h.config
  | _ => rfl

/-- The configuration of a channel is the one it was built with. -/
theorem View.Step.config {v w : View} (h : View.Step v w) :
    w.shared.queue.config = v.shared.queue.config := by
  cases h with
  | outside h => exact h.config
  | take i h => rfl
  | stay h => exact h.config
  | leave h hm => exact h.config

/-! ### What a pass may go by

The estimate is one number among all passes, and a pass has an amount of its own besides.
`Bounded` says of both that the buffer is no larger, and of a frame that is on its way that
there is room for it.
-/

/-- The channel has handed over nothing but frames. -/
def Shared.FramesOnly (s : Shared) : Prop := ∀ x ∈ s.handed, ∃ f, x = .frame f

/-- Between the native send of a frame and the store of the reading after it. -/
def Inside.sending : Inside → Bool
  | .measure _ | .settle _ _ => true
  | _ => false

/-- What the thread under the lock may rely on. -/
def Shared.Room (s : Shared) : Inside → Prop
  | .note n _ => s.buffered ≤ n
  | .build amount fresh _ => s.buffered ≤ amount ∧ (fresh = false → amount ≤ s.trustBelow)
  | .native frame =>
    s.buffered < s.queue.config.highWater ∧ frame.length ≤ s.queue.config.chunkSize
  | .settle _ after => s.buffered ≤ after
  | _ => True

structure Bounded (v : View) : Prop where
  bound : v.shared.buffered < v.shared.queue.config.highWater + v.shared.queue.config.chunkSize
  /-- The estimate never falls short, except right after a send. -/
  est : (∀ pc, v.inside = some pc → pc.sending = false) → v.shared.buffered ≤ v.shared.nativeEst
  room : ∀ pc, v.inside = some pc → v.shared.Room pc

variable {s t : Shared}

/-- It survives whatever does not fill the buffer. -/
theorem Bounded.mono {pc : Option Inside} (h : Bounded ⟨s, pc⟩)
    (hbuffered : t.buffered ≤ s.buffered) (hest : t.nativeEst = s.nativeEst)
    (hconfig : t.queue.config = s.queue.config) :
    Bounded ⟨t, pc⟩ where
  bound := by
    have hbound := h.bound
    simp only at hbound ⊢
    rw [hconfig]
    omega
  est hpc := by
    have hreal := h.est hpc
    simp only at hreal ⊢
    omega
  room p hp := by
    have hroom := h.room p hp
    cases p with
    | note n seen => exact le_trans hbuffered hroom
    | build amount fresh seen =>
        refine ⟨le_trans hbuffered hroom.1, ?_⟩
        show fresh = false → amount ≤ t.queue.config.lowWater
        rw [hconfig]
        exact hroom.2
    | native frame =>
        show t.buffered < t.queue.config.highWater ∧ frame.length ≤ t.queue.config.chunkSize
        rw [hconfig]
        exact ⟨lt_of_le_of_lt hbuffered hroom.1, hroom.2⟩
    | settle sent after => exact le_trans hbuffered hroom
    | _ => trivial

/-- A step that neither fills the buffer nor touches the estimate. -/
theorem Bounded.keep {pc pc' : Inside} (h : Bounded ⟨s, some pc⟩) (hpc : pc.sending = false)
    (hbuffered : t.buffered = s.buffered) (hest : t.nativeEst = s.nativeEst)
    (hconfig : t.queue.config = s.queue.config) (hroom : t.Room pc') :
    Bounded ⟨t, some pc'⟩ where
  bound := by
    show t.buffered < t.queue.config.highWater + t.queue.config.chunkSize
    rw [hbuffered, hconfig]
    exact h.bound
  est _ := by
    show t.buffered ≤ t.nativeEst
    rw [hbuffered, hest]
    refine h.est fun p hp => ?_
    obtain rfl : pc = p := Option.some.inj hp
    exact hpc
  room p hp := by
    obtain rfl : pc' = p := Option.some.inj hp
    exact hroom

theorem Bounded.outside {pc : Option Inside} (h : Bounded ⟨s, pc⟩) (hout : Outside s t)
    (hframes : t.FramesOnly) : Bounded ⟨t, pc⟩ := by
  cases hout with
  | plain data binary hopen =>
      obtain ⟨f, hf⟩ := hframes (.plain data binary) (by simp)
      cases hf
  | drain n => exact h.mono (Nat.sub_le _ _) rfl rfl
  | _ => exact h.mono (Nat.le_refl _) rfl rfl

/-- A pass that gets no frame and leaves some behind went by a fresh reading. -/
theorem Shared.Room.stop {amount seen : Nat} {fresh : Bool} (h : s.Room (.build amount fresh seen))
    (hheld : s.queue.config.highWater ≤ amount ∨ s.queue.pending = [])
    (hleft : s.queue.isEmpty = false) : fresh = true ∧ s.queue.config.highWater ≤ amount := by
  have hwater : s.queue.config.lowWater < s.queue.config.highWater := s.queue.config_valid.water
  have hfull : s.queue.config.highWater ≤ amount := by
    rcases hheld with hfull | hempty
    · exact hfull
    · simp [SendQueue.isEmpty, hempty] at hleft
  refine ⟨?_, hfull⟩
  cases hfresh : fresh with
  | true => rfl
  | false =>
      have htrust := h.2 hfresh
      unfold Shared.trustBelow at htrust
      omega

/-- The thread under the lock goes on, and stays under it. -/
theorem Bounded.stay {pc pc' : Inside} (h : Bounded ⟨s, some pc⟩)
    (hmove : Moves s pc t (.stay pc')) : Bounded ⟨t, some pc'⟩ := by
  have hroom : s.Room pc := h.room pc rfl
  cases hmove with
  | again hagain => exact h.keep rfl rfl rfl rfl trivial
  | done hdone => exact h.keep rfl rfl rfl rfl trivial
  | trust htrust =>
      refine h.keep rfl rfl rfl rfl ⟨?_, fun _ => htrust⟩
      refine h.est fun p hp => ?_
      obtain rfl := Option.some.inj hp
      rfl
  | doubt hdoubt => exact h.keep rfl rfl rfl rfl trivial
  | read => exact h.keep rfl rfl rfl rfl (Nat.le_refl _)
  | note n seen =>
      refine ⟨h.bound, fun _ => hroom, fun p hp => ?_⟩
      obtain rfl := Option.some.inj hp
      exact ⟨hroom, fun hfresh => by cases hfresh⟩
  | @frame amount seen fresh frame queue hemits =>
      refine h.keep rfl rfl rfl hemits.config ?_
      show s.buffered < queue.config.highWater ∧ frame.length ≤ queue.config.chunkSize
      rw [hemits.config]
      refine ⟨?_, (SendQueue.emits_length hemits).2⟩
      have hbelow : amount < s.queue.config.highWater := by cases hemits <;> assumption
      exact lt_of_le_of_lt hroom.1 hbelow
  | stop hheld => exact h.keep rfl rfl rfl rfl trivial
  | send frame hopen =>
      refine ⟨Nat.add_lt_add_of_lt_of_le hroom.1 hroom.2, ?_, ?_⟩
      · intro hpc
        cases hpc _ rfl
      · intro p hp
        obtain rfl := Option.some.inj hp
        trivial
  | refuse frame hopen => exact h.keep rfl rfl rfl rfl trivial
  | measure sent =>
      refine ⟨h.bound, ?_, ?_⟩
      · intro hpc
        cases hpc _ rfl
      · intro p hp
        obtain rfl := Option.some.inj hp
        exact Nat.le_refl _
  | settle sent after =>
      refine ⟨h.bound, fun _ => hroom, fun p hp => ?_⟩
      obtain rfl := Option.some.inj hp
      cases sent <;> trivial
  | failed => exact h.keep rfl rfl rfl rfl trivial

/-- It leaves the lock only where its estimate is in order. -/
theorem Bounded.leave {pc : Inside} {m : Moved} (h : Bounded ⟨s, some pc⟩)
    (hmove : Moves s pc t m) (hm : m = .recheck ∨ m = .gone) : Bounded ⟨t, none⟩ := by
  cases hmove with
  | leave | unlock =>
      refine ⟨h.bound, fun _ => h.est fun p hp => ?_, fun p hp => by cases hp⟩
      obtain rfl := Option.some.inj hp
      rfl
  | _ => rcases hm with hm | hm <;> cases hm

theorem Outside.framesOnly (h : Outside s t) (ht : t.FramesOnly) : s.FramesOnly := by
  cases h with
  | plain data binary hopen => exact fun x hx => ht x (List.mem_append_left _ hx)
  | _ => exact ht

theorem Moves.framesOnly {pc : Inside} {m : Moved} (h : Moves s pc t m) (ht : t.FramesOnly) :
    s.FramesOnly := by
  cases h with
  | send frame hopen => exact fun x hx => ht x (List.mem_append_left _ hx)
  | _ => exact ht

/-- As long as only frames are handed over, the buffer stays within its bound. -/
theorem Bounded.step {v w : View} (h : v.shared.FramesOnly → Bounded v) (hstep : View.Step v w)
    (hw : w.shared.FramesOnly) : Bounded w := by
  cases hstep with
  | outside hout => exact (h (hout.framesOnly hw)).outside hout hw
  | take i hlock =>
      have hv := h hw
      refine ⟨hv.bound, fun _ => hv.est ?_, ?_⟩
      · intro p hp
        cases hp
      · intro p hp
        obtain rfl := Option.some.inj hp
        trivial
  | stay hmove => exact (h (hmove.framesOnly hw)).stay hmove
  | leave hmove hm => exact (h (hmove.framesOnly hw)).leave hmove hm

variable {config : SendConfig} {valid : config.validate = .ok ()}

/-! ### Every state -/

/-- What is known of the view of every reachable state. -/
theorem owns_reachable {s : State} (h : (machine config valid).Reachable s) :
    s.Owns ∧ s.shared.queue.config = config := by
  refine Machine.invariant (I := fun s => State.Owns s ∧ s.shared.queue.config = config) ?_ ?_ h
  · refine ⟨fun i => ?_, rfl⟩
    constructor
    · intro hi
      cases hi
    · intro hi
      cases hi
  · intro s a t hs hstep
    obtain ⟨hview, howns⟩ := step_view hs.1 hstep
    exact ⟨howns, hview.config.trans hs.2⟩

theorem bounded_reachable {s : State} (h : (machine config valid).Reachable s)
    (hframes : s.shared.FramesOnly) : Bounded s.view := by
  have hboth : State.Owns s ∧ (s.view.shared.FramesOnly → Bounded s.view) := by
    refine Machine.invariant
      (I := fun s => State.Owns s ∧ (s.view.shared.FramesOnly → Bounded s.view)) ?_ ?_ h
    · refine ⟨(owns_reachable Machine.Reachable.start).1, fun _ => ?_⟩
      have hchunk : 0 < config.chunkSize := by
        have := ((SendConfig.validate_iff config).mp valid).chunk
        omega
      refine ⟨?_, fun _ => Nat.zero_le _, fun pc hpc => by cases hpc⟩
      show 0 < config.highWater + config.chunkSize
      omega
    · intro s a t hs hstep
      obtain ⟨hview, howns⟩ := step_view hs.1 hstep
      exact ⟨howns, fun ht => Bounded.step hs.2 hview ht⟩
  exact hboth.2 hframes

/--
**The native buffer never passes the high-water mark by more than a frame**, and a pass
that stops with frames left has read an amount that is at or above the mark.
-/
theorem buffered_bounded {s : State} (h : (machine config valid).Reachable s)
    (hframes : s.shared.FramesOnly) :
    s.shared.buffered ≤ config.highWater - 1 + config.chunkSize ∧
    s.shared.buffered < NATIVE_SEND_BUFFER_LIMIT ∧
    ∀ i k amount fresh seen, s.calls i = .inside k (.build amount fresh seen) →
      (s.shared.queue.nextFrame amount).1 = none → s.shared.queue.isEmpty = false →
        fresh = true ∧ config.highWater ≤ amount := by
  obtain ⟨howns, hconfig⟩ := owns_reachable h
  have hbounded := bounded_reachable h hframes
  have hvalid : config.Valid := (SendConfig.validate_iff config).mp valid
  have hnative := hvalid.native
  have hwater := hvalid.water
  have hbound : s.shared.buffered < config.highWater + config.chunkSize := by
    have hbound := hbounded.bound
    rw [show s.view.shared = s.shared from rfl, hconfig] at hbound
    exact hbound
  refine ⟨by omega, by omega, ?_⟩
  intro i k amount fresh seen hc hnone hleft
  have hroom : s.shared.Room (.build amount fresh seen) := by
    refine hbounded.room _ ?_
    rw [(view_holder howns hc).2]
  have hheld : s.shared.queue.config.highWater ≤ amount ∨ s.shared.queue.pending = [] := by
    have hemits := s.shared.queue.nextFrame_emits amount
    generalize s.shared.queue.nextFrame amount = r at hemits hnone
    cases hemits with
    | held hheld => exact hheld
    | part => cases hnone
    | last => cases hnone
  rw [← hconfig]
  exact hroom.stop hheld hleft

/-- Frames of two bytes, and room for two of them. -/
def smallConfig : SendConfig :=
  { chunkSize := 2, highWater := 3, lowWater := 1, queueLimit := 10, maxMessageSize := 10 }

theorem smallConfig_valid : smallConfig.validate = .ok () := rfl

/-- The channel opens, and call 0 sends a message. -/
def sendFirst (data : Bytes) (n : Nat) : List Action :=
  .native .opened :: .call 0 (.send data true) :: steps 0 n

/-- Two frames of five are out, and the next pass finds no room. -/
def filled : State :=
  (machine smallConfig smallConfig_valid).final
    (machine smallConfig smallConfig_valid).start (sendFirst [1, 2, 3, 4, 5] 27) (by decide +kernel)

theorem buffered_bounded_filled :
    filled.calls 0 = .inside .send (.build 4 true 1) ∧ smallConfig.highWater ≤ 4 ∧
      filled.shared.buffered ≤ smallConfig.highWater - 1 + smallConfig.chunkSize := by
  have hreach : (machine smallConfig smallConfig_valid).Reachable filled :=
    Machine.Reachable.start.run (Machine.run_final ..)
  have hframes : filled.shared.FramesOnly := by
    intro x hx
    have hhanded : filled.shared.handed = [.frame [1, 1], .frame [1, 2]] := by decide +kernel
    rw [hhanded] at hx
    rcases List.mem_cons.mp hx with rfl | hx
    · exact ⟨_, rfl⟩
    · exact ⟨_, List.mem_singleton.mp hx⟩
  have hcall : filled.calls 0 = .inside .send (.build 4 true 1) := rfl
  obtain ⟨hbound, -, hstop⟩ := buffered_bounded hreach hframes
  exact ⟨hcall, (hstop 0 .send 4 true 1 hcall (by decide +kernel) (by decide +kernel)).2, hbound⟩

end Channel

end ReactorWebrtc
