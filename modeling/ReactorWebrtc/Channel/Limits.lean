/-
The two ends of a chunked channel keep each other's limits.

A peer's declaration reaches the sender as text and goes into one place, the smaller of
two message limits.  Taking the smaller can only shrink what `validate` has already
allowed, so no declaration makes the queue panic; and where the text is what the peer
declared of its own settings, the smaller of the two is within what its reassembler
keeps.  `Within` carries that through a run of both ends: whatever was accepted fits, so
whatever is completed is delivered whole.

Each end has three limits of its own: what a message may have, what may wait to be sent and
how long a frame may be.  Only the first is declared, and only the sender looks at what the
peer declared; the peer's reassembler goes by its own.
-/
import ReactorWebrtc.Channel.Decision
import ReactorWebrtc.Chunking.Transfer

namespace ReactorWebrtc

/-- A description on which a peer with these settings has declared them. -/
def DcChunking.Declares (c : DcChunking) (text : Text) : Prop :=
  ∃ sdp, Sdp.hasAttribute sdp = false ∧ text = Sdp.declare sdp c.declared

/-- What is read from it are the settings that were declared. -/
theorem DcChunking.Declares.parse {c : DcChunking} {text : Text} (h : c.Declares text)
    {p : Params} (hp : Sdp.parse text = some p) : p = c.declared := by
  obtain ⟨sdp, hclean, rfl⟩ := h
  by_cases hne : Text.lines sdp = []
  · have hsame : Sdp.declare sdp c.declared = sdp := by simp [Sdp.declare, hne]
    rw [hsame, Sdp.parse, hne] at hp
    cases hp
  · rw [Sdp.parse_declare hclean hne c.declared_fits] at hp
    exact (Option.some.inj hp).symm

/-- A channel that is decided is built with its own end's settings. -/
theorem Chunked.decide_eq_some {settings : DcChunking} {remote : Option Params}
    {ordered reliable : Bool} {c : Chunked}
    (h : Chunked.decide (some settings) remote ordered reliable = some c) :
    c.maxMessageSize = settings.maxMessageSize.toNat ∧
      ∃ p, remote = some p ∧ c.config = settings.sendConfig p := by
  cases remote with
  | none => cases h
  | some p =>
      simp only [decide] at h
      split at h
      · rw [← Option.some.inj h]
        exact ⟨rfl, p, rfl, rfl⟩
      · cases h

namespace Transfer

/-! ### Messages that are within the sender's limit

The reassembler drops a message only for its size, and the queue takes none above its own
limit.  So where the one limit is within the other nothing is dropped, whatever the run.
-/

/-- The queue has this configuration and every message accepted is within its limit. -/
structure Within (config : SendConfig) (s : Transfer) : Prop where
  queue : s.queue.config = config
  fits : ∀ m ∈ s.accepted, m.1.length ≤ config.maxMessageSize

variable {config : SendConfig} {s : Transfer}

theorem nextFrame_config (q : SendQueue) (b : Nat) : (q.nextFrame b).2.config = q.config := by
  have hemits := q.nextFrame_emits b
  generalize q.nextFrame b = answer at hemits
  cases hemits <;> rfl

theorem step_within (h : Within config s) (op : Op) : Within config (s.step op) := by
  obtain ⟨hconfig, hfits⟩ := h
  cases op with
  | push data binary =>
      rcases s.queue.push_cases data binary with ⟨hpush, hmax, -⟩ | ⟨e, hpush⟩
      · simp only [step, hpush]
        refine ⟨hconfig, fun m hm => ?_⟩
        rcases List.mem_append.mp hm with hm | hm
        · exact hfits m hm
        · rw [List.mem_singleton.mp hm, ← hconfig]
          exact hmax
      · simp only [step, hpush]
        exact ⟨hconfig, hfits⟩
  | nextFrame b =>
      have hkeep := nextFrame_config s.queue b
      generalize hnext : s.queue.nextFrame b = answer at hkeep
      obtain ⟨frame, queue⟩ := answer
      cases frame <;> simp only [step, hnext] <;> exact ⟨hkeep.trans hconfig, hfits⟩

theorem run_within (h : Within config s) (ops : List Op) : Within config (s.run ops) := by
  induction ops generalizing s with
  | nil => exact h
  | cons op ops ih => exact ih (step_within h op)

/-- Where the sender's limit is within the receiver's, nothing is dropped. -/
theorem not_dropped {limit : Nat} (hlossless : Lossless limit s) (hwithin : Within config s)
    (hlimit : config.maxMessageSize ≤ limit) (size : Nat) :
    .ok (.dropped size) ∉ s.outcomes := by
  intro hmem
  obtain ⟨done, hacc, hdel⟩ := hlossless.split
  have hdropped : Delivery.dropped size ∈ s.deliveries :=
    List.mem_filterMap.mpr ⟨_, hmem, rfl⟩
  rw [hdel] at hdropped
  obtain ⟨m, hm, hm'⟩ := List.mem_map.mp hdropped
  have hfits := hwithin.fits m (by rw [hacc]; exact List.mem_append_left _ hm)
  rw [expected, Reassembler.deliveryOf, if_pos (le_trans hfits hlimit)] at hm'
  cases hm'

end Transfer

namespace Chunked

/-- What a channel's sender may accept is within what the peer's reassembler keeps. -/
theorem decide_limit {ours theirs : DcChunking} {text : Text} (h : theirs.Declares text)
    {remote : Option Params} {ordered reliable : Bool} {c d : Chunked}
    (hc : Chunked.decide (some ours) (Sdp.parse text) ordered reliable = some c)
    (hd : Chunked.decide (some theirs) remote ordered reliable = some d) :
    c.config.maxMessageSize ≤ d.maxMessageSize := by
  obtain ⟨-, p, hp, hconfig⟩ := decide_eq_some hc
  obtain ⟨hmax, -⟩ := decide_eq_some hd
  obtain rfl := h.parse hp
  rw [hconfig, hmax]
  exact Nat.min_le_right _ _

/--
**No declaration breaks the sender, and the limits of the two ends agree.**  Whatever
text the settings meet, the queue is built; and when the text is what the peer declared,
the peer's reassembler drops nothing of what the queue accepts.
-/
theorem limits_agree {ours : DcChunking} (hours : ours.validate = .ok ()) (text : Text) :
    (∀ p, Sdp.parse text = some p → (ours.sendConfig p).validate = .ok ()) ∧
    ∀ ordered reliable c,
      Chunked.decide (some ours) (Sdp.parse text) ordered reliable = some c →
      ∃ q, SendQueue.new c.config = .ok q ∧
        ∀ theirs : DcChunking, theirs.validate = .ok () → theirs.Declares text →
        ∀ remote d, Chunked.decide (some theirs) remote ordered reliable = some d →
          (∀ queue : SendQueue, queue.config = c.config → ∀ data binary,
            (queue.push data binary).1 = .ok () → data.length ≤ d.maxMessageSize) ∧
          ∀ ops size, .ok (.dropped size) ∉
            ((Transfer.start q d.maxMessageSize).run ops).outcomes := by
  refine ⟨fun p _ => DcChunking.sendConfig_valid hours p, fun ordered reliable c hc => ?_⟩
  have hvalid := decide_valid hours hc
  have hnew := SendQueue.new_ok hvalid
  refine ⟨_, hnew, fun theirs _ hdeclares remote d hd => ?_⟩
  have hlimit := decide_limit hdeclares hc hd
  constructor
  · intro queue hqueue data binary hpush
    rcases queue.push_cases data binary with ⟨-, hmax, -⟩ | ⟨e, herror⟩
    · rw [hqueue] at hmax
      exact le_trans hmax hlimit
    · rw [herror] at hpush
      cases hpush
  · intro ops size
    have htracks := Transfer.run_tracks (Transfer.start_tracks hnew d.maxMessageSize) ops
    have hstart : Transfer.Within c.config (Transfer.start
        { config := c.config, valid := hvalid, pending := [], queued := 0 } d.maxMessageSize) :=
      ⟨rfl, fun m hm => absurd hm List.not_mem_nil⟩
    exact Transfer.not_dropped htracks.lossless (Transfer.run_within hstart ops) hlimit size

/-- Default settings, and a peer whose limit is smaller. -/
theorem limits_agree_smaller_peer :
    ∃ c q d, Chunked.decide (some {})
        (Sdp.parse (Sdp.declare ['m', '='] { maxMessageSize := 1000 : DcChunking }.declared))
        true true = some c ∧
      Chunked.decide (some { maxMessageSize := 1000 }) (some (.ofLocal 7)) true true = some d ∧
      SendQueue.new c.config = .ok q ∧
      ∀ ops size, .ok (.dropped size) ∉
        ((Transfer.start q d.maxMessageSize).run ops).outcomes := by
  obtain ⟨c, hc⟩ : ∃ c, Chunked.decide (some {})
      (Sdp.parse (Sdp.declare ['m', '='] { maxMessageSize := 1000 : DcChunking }.declared))
      true true = some c := Option.isSome_iff_exists.mp (by decide +kernel)
  have hours : ({} : DcChunking).validate = .ok () := by rfl
  obtain ⟨q, hq, hagree⟩ := (limits_agree hours _).2 true true c hc
  exact ⟨c, q, _, hc, rfl, hq, (hagree { maxMessageSize := 1000 } (by rfl)
    ⟨['m', '='], by decide, rfl⟩ (some (.ofLocal 7)) _ rfl).2⟩

end Chunked

end ReactorWebrtc
