/-
What happens to the two queues of a pre-encoded track when no frame is dropped.

`Queues` is what is left of a pipeline when only the order matters.  `Queues.Moves` says what
a step does to it, for any mix of pushes and for any state of the slot: without the Embed
step a frame passes and leaves the metadata where it is; with it a frame takes the metadata
that has waited longest, and carries it if the gate is open.

What a frame carries is said of the bytes: the payload that the callback has left, and
behind it the trailer of what was taken, if anything was (`appended`).  `step_moves` is the
connection with `ComposedSlot.run`, and nothing built on it looks at the slot again.
-/
import ReactorWebrtc.Metadata.Pipeline

namespace ReactorWebrtc

namespace Pipeline

/-- The frames that have not passed through the slot, by the numbers of their pushes, and
the metadata that has not been taken. -/
structure Queues where
  waiting : List Nat
  entries : List QueuedMeta
  sent : List Sent
  dropped : Nat
  pushes : List (Option Bytes)

def queues (s : Pipeline) : Queues where
  waiting := (s.encoder ++ s.track.queue ++ s.entering.toList).map (·.push)
  entries := s.track.senderMetaFifo.entries
  sent := s.sent
  dropped := s.dropped
  pushes := s.pushes

/-- What is appended for the metadata taken, by an Embed step with this gate if there is one. -/
def appended (prost : Prost) (embed : Option Bool) (taken : Option QueuedMeta) : Bytes :=
  match embed, taken with
  | some true, some m => encodeTrailer prost m.metadata
  | _, _ => []

/-- The metadata a frame takes. -/
def Queues.next (q : Queues) (embed : Option Bool) : Option QueuedMeta :=
  if embed.isSome then q.entries.head? else none

/-- One step of the pipeline, on the queues. -/
inductive Queues.Moves (prost : Prost) (enabled : Bool) (embed : Option Bool) (q : Queues) :
    Action → Queues → Prop
  | plain {data : Bytes} {timeMicros : Int} :
      Moves prost enabled embed q (.push data none timeMicros) { q with
        waiting := q.waiting ++ [q.pushes.length], pushes := q.pushes ++ [none] }
  | withMetadata {data userData : Bytes} {timeMicros : Int} (m : FrameMetadata)
      (hm : m.userData = userData) :
      Moves prost enabled embed q (.push data (some userData) timeMicros) { q with
        waiting := q.waiting ++ [q.pushes.length]
        entries :=
          if enabled then q.entries ++ [{ metadata := m, push := q.pushes.length }]
          else q.entries
        pushes := q.pushes ++ [some userData] }
  | enqueue : Moves prost enabled embed q .enqueue q
  | encode : Moves prost enabled embed q .encode q
  | forward {ssrc timestamp : UInt32} {answer : Answer} {rest : List Nat} (x : Sent)
      (hwaiting : q.waiting = x.push :: rest) (htaken : x.taken = q.next embed)
      (hbytes : x.bytes = x.payload ++ appended prost embed x.taken) :
      Moves prost enabled embed q (.transform ssrc timestamp answer) { q with
        waiting := rest
        entries := if embed.isSome then q.entries.tail else q.entries
        sent := q.sent ++ [x] }

variable {prost : Prost} {s t : Pipeline} {a : Action} {embed : Option Bool} {enabled : Bool}

theorem run_fifo {slot : ComposedSlot} (fifo : FifoMeta) {answer : Answer} (frame : EncodedFrame)
    (hmeta : slot.metaStep = embed.map .embed)
    (hpass : ¬ (slot.caller = true ∧ answer.action = .drop)) {taken : Option QueuedMeta}
    (htaken : taken = if embed.isSome then fifo.entries.head? else none) :
    slot.run fifo prost answer frame =
      { action := .forward
        frame := (slot.called answer frame).replaceData
          ((slot.called answer frame).currentData ++ appended prost embed taken)
        slot
        source :=
          if embed.isSome then { fifo with entries := fifo.entries.tail } else fifo } := by
  obtain ⟨entries⟩ := fifo
  unfold ComposedSlot.run
  rw [if_neg hpass, hmeta, htaken]
  cases embed with
  | none => simp [appended]
  | some gate => cases gate <;> cases entries <;> simp [appended, SenderMetaSource.take]

theorem takenBy_eq (fifo : FifoMeta) (embed : Option Bool) :
    fifo.takenBy (if embed.isSome then { fifo with entries := fifo.entries.tail } else fifo) =
      if embed.isSome then fifo.entries.head? else none := by
  cases embed with
  | none => simp [FifoMeta.takenBy]
  | some gate => exact fifo.takenBy_tail

/-- Whether the action passes a frame through the slot. -/
def Action.passes : Action → Bool
  | .transform .. => true
  | _ => false

/-- No frame that the action passes through the slot is dropped there. -/
def Forwards (s : Pipeline) : Action → Prop
  | .transform _ _ answer => ¬ (s.slot.caller = true ∧ answer.action = .drop)
  | _ => True

theorem step_push {data : Bytes} {userData : Option Bytes} {timeMicros : Int}
    (hstep : step prost s (.push data userData timeMicros) = some t) :
    Queues.Moves prost s.track.metadataEnabled embed s.queues (.push data userData timeMicros)
        t.queues ∧
      t.slot = s.slot ∧ t.track.metadataEnabled = s.track.metadataEnabled := by
  simp only [step] at hstep
  split at hstep
  · cases hstep
  · rename_i hentering
    have ht := (Option.some.inj hstep).symm
    cases userData with
    | none =>
        have hqueues : t.queues = { s.queues with
            waiting := s.queues.waiting ++ [s.queues.pushes.length]
            pushes := s.queues.pushes ++ [none] } := by
          rw [ht]
          simp [queues, hentering]
        rw [hqueues, ht]
        exact ⟨.plain, rfl, rfl⟩
    | some userData =>
        obtain ⟨m, hm, hpush⟩ := s.track.pushMeta_eq userData timeMicros s.pushes.length
        have hqueues : t.queues = { s.queues with
            waiting := s.queues.waiting ++ [s.queues.pushes.length]
            entries :=
              if s.track.metadataEnabled then
                s.queues.entries ++ [{ metadata := m, push := s.queues.pushes.length }]
              else s.queues.entries
            pushes := s.queues.pushes ++ [some userData] } := by
          rw [ht]
          simp [queues, hentering, hpush]
        rw [hqueues, ht]
        refine ⟨.withMetadata m hm, rfl, ?_⟩
        simp [hpush]

theorem step_forward {ssrc timestamp : UInt32} {answer : Answer}
    (hslot : s.slot.metaStep = embed.map .embed)
    (hpass : ¬ (s.slot.caller = true ∧ answer.action = .drop))
    (hstep : step prost s (.transform ssrc timestamp answer) = some t) :
    Queues.Moves prost s.track.metadataEnabled embed s.queues (.transform ssrc timestamp answer)
        t.queues ∧
      t.slot = s.slot ∧ t.track.metadataEnabled = s.track.metadataEnabled := by
  simp only [step] at hstep
  split at hstep
  · rename_i next encoder hencoder
    have hwaiting : s.queues.waiting = next.push ::
        (encoder ++ s.track.queue ++ s.entering.toList).map (·.push) := by
      simp [queues, hencoder]
    rw [run_fifo _ _ hslot hpass rfl] at hstep
    have ht := (Option.some.inj hstep).symm
    dsimp only at ht
    rw [takenBy_eq] at ht
    generalize s.slot.called answer { ssrc, timestamp, currentData := next.data } = frame at ht
    let x : Sent := {
      push := next.push
      bytes := frame.currentData ++ appended prost embed (s.queues.next embed)
      payload := frame.currentData
      taken := s.queues.next embed }
    have hqueues : t.queues = { s.queues with
        waiting := (encoder ++ s.track.queue ++ s.entering.toList).map (·.push)
        entries := if embed.isSome then s.queues.entries.tail else s.queues.entries
        sent := s.queues.sent ++ [x] } := by
      rw [ht]
      cases embed <;> rfl
    rw [hqueues, ht]
    exact ⟨.forward x hwaiting rfl rfl, rfl, rfl⟩
  · cases hstep

theorem step_moves (hslot : s.slot.metaStep = embed.map .embed) (ha : Forwards s a)
    (hstep : step prost s a = some t) :
    Queues.Moves prost s.track.metadataEnabled embed s.queues a t.queues ∧
      t.slot = s.slot ∧ t.track.metadataEnabled = s.track.metadataEnabled := by
  cases a with
  | push data userData timeMicros => exact step_push hstep
  | enqueue =>
      simp only [step] at hstep
      split at hstep
      · rename_i frame hentering
        have ht := (Option.some.inj hstep).symm
        have hqueues : t.queues = s.queues := by
          rw [ht]
          simp [queues, hentering]
        rw [hqueues, ht]
        exact ⟨.enqueue, rfl, rfl⟩
      · cases hstep
  | encode =>
      simp only [step] at hstep
      split at hstep
      · rename_i frame queue hqueue
        have ht := (Option.some.inj hstep).symm
        have hqueues : t.queues = s.queues := by
          rw [ht]
          simp [queues, hqueue]
        rw [hqueues, ht]
        exact ⟨.encode, rfl, rfl⟩
      · cases hstep
  | transform ssrc timestamp answer => exact step_forward hslot ha hstep

end Pipeline

end ReactorWebrtc
