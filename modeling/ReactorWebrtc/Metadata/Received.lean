/-
Received metadata and the frame it belongs to.

The strip step queues the metadata of a frame under the frame's key, and the sink asks
for it when the frame comes out of the decoder.  Frames are lost in between and come in
twice, so an answer takes its entry and everything before it, and a key that is among the
last ones seen is not queued again.  An entry is only ever queued for a frame that came
with it, which is all it takes for a wrong one never to be handed out.

That the right one is handed out needs the order.  `Waits` says where the entry of a frame
stands that the sink can still ask for: in the queue, and everything before it arrived
earlier.  So an answer takes nothing the sink has yet to ask for.
-/
import ReactorWebrtc.Lib.Machine
import ReactorWebrtc.Metadata.Pipeline

namespace ReactorWebrtc

/-- Whether an entry is the one for a decoded frame; an `ssrc` of 0 stands for none. -/
def FrameKey.isFor (k : FrameKey) (ssrc rtpTimestamp : UInt32) : Bool :=
  k.rtpTimestamp == rtpTimestamp && (ssrc == 0 || k.ssrc == ssrc)

/-- Take the metadata for the decoded frame `ssrc`/`rtpTimestamp`. -/
def takeReceiverMeta (q : List (FrameKey × FrameMetadata)) (ssrc rtpTimestamp : UInt32) :
    Option FrameMetadata × List (FrameKey × FrameMetadata) :=
  match q.findIdx? fun (k, _) => k.isFor ssrc rtpTimestamp with
  | none => (none, q)
  | some pos =>
    let q := q.drop pos
    (q.head?.map (·.2), q.tail)

/-- The first entry for the frame is taken, and everything before it goes. -/
theorem takeReceiverMeta_first {before : List (FrameKey × FrameMetadata)} {k : FrameKey}
    {ssrc rtpTimestamp : UInt32} (m : FrameMetadata) (after : List (FrameKey × FrameMetadata))
    (hbefore : ∀ e ∈ before, e.1.isFor ssrc rtpTimestamp = false)
    (hfor : k.isFor ssrc rtpTimestamp = true) :
    takeReceiverMeta (before ++ (k, m) :: after) ssrc rtpTimestamp = (some m, after) := by
  have hnone : before.findIdx? (fun (k, _) => k.isFor ssrc rtpTimestamp) = none :=
    List.findIdx?_eq_none_iff.mpr hbefore
  have hpos : (before ++ (k, m) :: after).findIdx? (fun (k, _) => k.isFor ssrc rtpTimestamp)
      = some before.length := by
    simp [List.findIdx?_append, hnone, List.findIdx?_cons, hfor]
  unfold takeReceiverMeta
  rw [hpos]
  simp

theorem takeReceiverMeta_none {q : List (FrameKey × FrameMetadata)} {ssrc rtpTimestamp : UInt32}
    (h : ∀ e ∈ q, e.1.isFor ssrc rtpTimestamp = false) :
    takeReceiverMeta q ssrc rtpTimestamp = (none, q) := by
  have hnone : q.findIdx? (fun (k, _) => k.isFor ssrc rtpTimestamp) = none :=
    List.findIdx?_eq_none_iff.mpr h
  unfold takeReceiverMeta
  rw [hnone]

/-- A queue has a first entry for the frame, or none. -/
theorem split_isFor (q : List (FrameKey × FrameMetadata)) (ssrc rtpTimestamp : UInt32) :
    (∃ before k m after, q = before ++ (k, m) :: after ∧ k.isFor ssrc rtpTimestamp = true ∧
      ∀ e ∈ before, e.1.isFor ssrc rtpTimestamp = false) ∨
    ∀ e ∈ q, e.1.isFor ssrc rtpTimestamp = false := by
  induction q with
  | nil => exact .inr (by simp)
  | cons e q ih =>
      by_cases he : e.1.isFor ssrc rtpTimestamp = true
      · exact .inl ⟨[], e.1, e.2, q, rfl, he, by simp⟩
      · have he := Bool.eq_false_iff.mpr he
        rcases ih with ⟨before, k, m, after, rfl, hfor, hbefore⟩ | hnone
        · refine .inl ⟨e :: before, k, m, after, rfl, hfor, ?_⟩
          exact List.forall_mem_cons.mpr ⟨he, hbefore⟩
        · exact .inr (List.forall_mem_cons.mpr ⟨he, hnone⟩)

/-- With a source given, an entry is for a frame exactly when it has its key. -/
theorem FrameKey.isFor_iff {k : FrameKey} {ssrc rtpTimestamp : UInt32} (h : ssrc ≠ 0) :
    k.isFor ssrc rtpTimestamp = true ↔ k = { ssrc, rtpTimestamp } := by
  obtain ⟨kssrc, kts⟩ := k
  simp [isFor, h]
  exact and_comm

/-- The receiving side of a transceiver, and what was stripped and asked so far. -/
structure Receiver where
  slot : ComposedSlot
  /-- The frames that passed the strip step, each with the metadata it came with. -/
  arrived : List (FrameKey × Option FrameMetadata) := []
  /-- The frames the sink asked for, each with the answer. -/
  asked : List (FrameKey × Option FrameMetadata) := []
  deriving DecidableEq, Repr

namespace Receiver

inductive Action
  /-- A received frame passes through the slot. -/
  | strip (frame : EncodedFrame) (answer : Answer)
  /-- The sink takes the metadata of a decoded frame. -/
  | take (ssrc rtpTimestamp : UInt32)
  /-- `attach_strip` again, after another description: the queue stays, what was seen does not. -/
  | attach
  deriving DecidableEq, Repr

def step (prost : Prost) (s : Receiver) : Action → Option Receiver
  | .strip frame answer =>
    let out := s.slot.run ({} : FifoMeta) prost answer frame
    match out.action with
    | .drop => some { s with slot := out.slot }
    | .forward =>
      let key := { ssrc := frame.ssrc, rtpTimestamp := frame.timestamp }
      let carried := decodeAndStripTrailer prost (s.slot.called answer frame).currentData
      some { s with slot := out.slot, arrived := s.arrived ++ [(key, carried.map (·.1))] }
  | .take ssrc rtpTimestamp =>
    match s.slot.metaStep with
    | some (.strip queue seen) =>
      let (m, queue) := takeReceiverMeta queue ssrc rtpTimestamp
      some { s with
        slot := { s.slot with metaStep := some (.strip queue seen) }
        asked := s.asked ++ [({ ssrc, rtpTimestamp }, m)] }
    | _ => none
  | .attach =>
    match s.slot.metaStep with
    | some (.strip queue _) =>
      some { s with slot := { s.slot with metaStep := some (.strip queue []) } }
    | _ => none

/-- A receiver whose strip step is attached, with or without a callback before it. -/
def machine (prost : Prost) (caller : Bool) : Machine Receiver Action where
  start := { slot := { caller, metaStep := some (.strip [] []) } }
  step := step prost

/-! ### What a step does to the queue

A frame that arrives may add an entry and a question may take some.  Nothing else touches
the queue, and the keys last seen are of frames that arrived with an entry.
-/

/-- The metadata waiting. -/
def queue (s : Receiver) : List (FrameKey × FrameMetadata) :=
  match s.slot.metaStep with
  | some (.strip queue _) => queue
  | _ => []

def seen (s : Receiver) : List FrameKey :=
  match s.slot.metaStep with
  | some (.strip _ seen) => seen
  | _ => []

/-- The strip step is attached. -/
def Strips (s : Receiver) : Prop := s.slot.metaStep = some (.strip s.queue s.seen)

/-- The queue, what was seen, and what was stripped and asked, before and after a step. -/
inductive Steps (s t : Receiver) : Prop
  /-- Nothing happens to the queue; fewer keys may be remembered. -/
  | same (hqueue : t.queue = s.queue) (hseen : ∀ k ∈ t.seen, k ∈ s.seen)
      (harrived : t.arrived = s.arrived) (hasked : t.asked = s.asked)
  /-- A frame without metadata, or one that was seen. -/
  | again (k : FrameKey) (m : Option FrameMetadata) (hm : m ≠ none → k ∈ s.seen)
      (hqueue : t.queue = s.queue) (hseen : t.seen = s.seen)
      (harrived : t.arrived = s.arrived ++ [(k, m)]) (hasked : t.asked = s.asked)
  | first (k : FrameKey) (m : FrameMetadata)
      (hqueue : t.queue = pushCapped RECEIVER_META_CAP s.queue (k, m))
      (hseen : t.seen = pushCapped SEEN_CAP s.seen k)
      (harrived : t.arrived = s.arrived ++ [(k, some m)]) (hasked : t.asked = s.asked)
  | take (k : FrameKey) (m : Option FrameMetadata)
      (htake : takeReceiverMeta s.queue k.ssrc k.rtpTimestamp = (m, t.queue))
      (hseen : t.seen = s.seen) (harrived : t.arrived = s.arrived)
      (hasked : t.asked = s.asked ++ [(k, m)])

variable {prost : Prost} {s t : Receiver} {a : Action}

theorem step_steps (h : Strips s) (hstep : step prost s a = some t) : Strips t ∧ Steps s t := by
  unfold Strips at h
  cases a with
  | strip frame answer =>
      by_cases hdrop : s.slot.caller = true ∧ answer.action = .drop
      · simp only [step, ComposedSlot.run_drop _ _ _ hdrop.1 hdrop.2] at hstep
        obtain rfl := Option.some.inj hstep
        exact ⟨h, .same rfl (fun k hk => hk) rfl rfl⟩
      · simp only [step, ComposedSlot.run_strip _ _ _ h hdrop rfl] at hstep
        cases hdata : decodeAndStripTrailer prost (s.slot.called answer frame).currentData with
        | none =>
            simp only [hdata] at hstep
            obtain rfl := Option.some.inj hstep
            exact ⟨h, .again _ none (fun hne => absurd rfl hne) rfl rfl rfl rfl⟩
        | some carried =>
            obtain ⟨m, stripped⟩ := carried
            simp only [hdata] at hstep
            obtain rfl := Option.some.inj hstep
            by_cases hseen : s.seen.contains
                ({ ssrc := frame.ssrc, rtpTimestamp := frame.timestamp } : FrameKey) = true
            · simp only [MetaStep.stripped, if_pos hseen]
              exact ⟨rfl, .again _ (some m) (fun _ => by simpa using hseen) rfl rfl rfl rfl⟩
            · simp only [MetaStep.stripped, if_neg hseen]
              exact ⟨rfl, .first _ m rfl rfl rfl rfl⟩
  | take ssrc rtpTimestamp =>
      simp only [step, h] at hstep
      obtain rfl := Option.some.inj hstep
      exact ⟨rfl, .take { ssrc, rtpTimestamp } _ rfl rfl rfl rfl⟩
  | attach =>
      simp only [step, h] at hstep
      obtain rfl := Option.some.inj hstep
      exact ⟨rfl, .same rfl (fun k hk => by cases hk) rfl rfl⟩

/-! ### Nothing is handed out for another frame

An entry has the key of the frame it came with, and a question finds it by that key.
-/

/-- What is waiting and what was handed out came with a frame of its key. -/
structure Sound (s : Receiver) : Prop where
  queue : ∀ e ∈ s.queue, (e.1, some e.2) ∈ s.arrived
  seen : ∀ k ∈ s.seen, ∃ m, (k, m) ∈ s.arrived
  asked : ∀ a ∈ s.asked, a.1.ssrc ≠ 0 → ∀ m, a.2 = some m → (a.1, some m) ∈ s.arrived

theorem mem_pushCapped {α : Type} {cap : Nat} {q : List α} {x y : α}
    (h : y ∈ pushCapped cap q x) : y ∈ q ∨ y = x := by
  unfold pushCapped at h
  rcases List.mem_append.mp h with h | h
  · split at h
    · exact .inl (List.mem_of_mem_tail h)
    · exact .inl h
  · exact .inr (List.mem_singleton.mp h)

theorem Sound.next (h : Sound s) (hstep : Steps s t) : Sound t := by
  obtain ⟨hq, hs, hasked⟩ := h
  cases hstep with
  | same hqueue hseen harrived hask =>
      refine ⟨?_, fun k hk => ?_, ?_⟩
      · rw [hqueue, harrived]
        exact hq
      · rw [harrived]
        exact hs k (hseen k hk)
      · rw [hask, harrived]
        exact hasked
  | again k m hm hqueue hseen harrived hask =>
      refine ⟨fun e he => ?_, fun j hj => ?_, fun x hx hx0 n hn => ?_⟩
      · rw [hqueue] at he
        rw [harrived]
        exact List.mem_append_left _ (hq e he)
      · rw [hseen] at hj
        obtain ⟨n, hn⟩ := hs j hj
        exact ⟨n, by rw [harrived]; exact List.mem_append_left _ hn⟩
      · rw [hask] at hx
        rw [harrived]
        exact List.mem_append_left _ (hasked x hx hx0 n hn)
  | first k m hqueue hseen harrived hask =>
      refine ⟨fun e he => ?_, fun j hj => ?_, fun x hx hx0 n hn => ?_⟩
      · rw [hqueue] at he
        rw [harrived]
        rcases mem_pushCapped he with he | rfl
        · exact List.mem_append_left _ (hq e he)
        · simp
      · rw [hseen] at hj
        rw [harrived]
        rcases mem_pushCapped hj with hj | rfl
        · obtain ⟨n, hn⟩ := hs j hj
          exact ⟨n, List.mem_append_left _ hn⟩
        · exact ⟨some m, by simp⟩
      · rw [hask] at hx
        rw [harrived]
        exact List.mem_append_left _ (hasked x hx hx0 n hn)
  | take k m htake hseen harrived hask =>
      rcases split_isFor s.queue k.ssrc k.rtpTimestamp with
        ⟨before, j, n, after, hsplit, hfor, hbefore⟩ | hnone
      · have hanswer := takeReceiverMeta_first n after hbefore hfor
        rw [← hsplit] at hanswer
        obtain ⟨rfl, hqueue⟩ := Prod.mk.inj (htake.symm.trans hanswer)
        refine ⟨fun e he => ?_, ?_, fun x hx hx0 n' hn' => ?_⟩
        · rw [harrived]
          rw [hqueue] at he
          exact hq e (by rw [hsplit]; simp [he])
        · rw [hseen, harrived]
          exact hs
        · rw [harrived]
          rw [hask] at hx
          rcases List.mem_append.mp hx with hx | hx
          · exact hasked x hx hx0 n' hn'
          · obtain rfl := List.mem_singleton.mp hx
            obtain rfl := Option.some.inj hn'
            obtain rfl : j = k := (FrameKey.isFor_iff hx0).mp hfor
            exact hq (j, n) (by rw [hsplit]; simp)
      · have hanswer := takeReceiverMeta_none hnone
        obtain ⟨rfl, hqueue⟩ := Prod.mk.inj (htake.symm.trans hanswer)
        refine ⟨?_, ?_, fun x hx hx0 n' hn' => ?_⟩
        · rw [hqueue, harrived]
          exact hq
        · rw [hseen, harrived]
          exact hs
        · rw [harrived]
          rw [hask] at hx
          rcases List.mem_append.mp hx with hx | hx
          · exact hasked x hx hx0 n' hn'
          · obtain rfl := List.mem_singleton.mp hx
            cases hn'

/-! ### Every frame gets its own -/

/-- When a frame first arrived, among the frames that did. -/
def first (s : Receiver) (k : FrameKey) : Nat := (s.arrived.map (·.1)).idxOf k

/-- The sink asks for frames that have arrived, in the order they first did and for none
twice; a frame that arrives again carries the trailer it had; nothing is pushed out. -/
structure Orderly (s : Receiver) : Prop where
  same : ∀ x ∈ s.arrived, ∀ y ∈ s.arrived, x.1 = y.1 → x.2 = y.2
  known : ∀ a ∈ s.asked, a.1.ssrc ≠ 0 ∧ a.1 ∈ s.arrived.map (·.1)
  inOrder : s.asked.Pairwise fun a b => s.first a.1 < s.first b.1
  room : s.queue.length < RECEIVER_META_CAP

instance (s : Receiver) : Decidable (Orderly s) :=
  decidable_of_iff (_ ∧ _ ∧ _ ∧ _)
    ⟨fun ⟨hsame, hknown, horder, hroom⟩ => ⟨hsame, hknown, horder, hroom⟩,
      fun ⟨hsame, hknown, horder, hroom⟩ => ⟨hsame, hknown, horder, hroom⟩⟩

/-- The entries of the frames the sink can still ask for. -/
structure Waits (s : Receiver) : Prop where
  waiting : ∀ k m, (k, some m) ∈ s.arrived → (∀ a ∈ s.asked, s.first a.1 < s.first k) →
    ∃ before after, s.queue = before ++ (k, m) :: after ∧ ∀ e ∈ before, s.first e.1 < s.first k
  answered : ∀ a ∈ s.asked, ∀ m, (a.1, some m) ∈ s.arrived → a.2 = some m

/-- Frames that come later change nothing about the order so far. -/
theorem first_append {k : FrameKey} {x : FrameKey × Option FrameMetadata}
    (harrived : t.arrived = s.arrived ++ [x]) (hk : k ∈ s.arrived.map (·.1)) :
    t.first k = s.first k := by
  unfold first
  rw [harrived, List.map_append, List.idxOf_append, if_pos hk]

theorem mem_keys {k : FrameKey} {m : Option FrameMetadata} (h : (k, m) ∈ s.arrived) :
    k ∈ s.arrived.map (·.1) := List.mem_map.mpr ⟨(k, m), h, rfl⟩

/-- A frame that is not new carries what it carried. -/
theorem mem_of_same {k : FrameKey} {m : FrameMetadata} {x : FrameKey × Option FrameMetadata}
    (ht : Orderly t) (harrived : t.arrived = s.arrived ++ [x]) (hk : k ∈ s.arrived.map (·.1))
    (h : (k, some m) ∈ t.arrived) : (k, some m) ∈ s.arrived := by
  obtain ⟨⟨k', n⟩, hn, rfl⟩ := List.mem_map.mp hk
  have hold : (k', n) ∈ t.arrived := by
    rw [harrived]
    exact List.mem_append_left _ hn
  obtain rfl : n = some m := ht.same _ hold _ h rfl
  exact hn

/-- What is in front of an entry for an older frame does not hide it. -/
theorem split_after {α : Type} {before after front rest : List α} {x y : α}
    (h : before ++ x :: after = front ++ y :: rest) (hbefore : y ∉ before) (hx : y ≠ x) :
    ∃ middle, after = middle ++ y :: rest ∧ front = before ++ x :: middle := by
  rcases List.append_eq_append_iff.mp h with ⟨middle, rfl, hmiddle⟩ | ⟨middle, rfl, hmiddle⟩
  · cases middle with
    | nil => exact absurd (List.cons.inj hmiddle).1.symm hx
    | cons z middle =>
        obtain ⟨rfl, hafter⟩ := List.cons.inj hmiddle
        exact ⟨middle, hafter, rfl⟩
  · cases middle with
    | nil => exact absurd (List.cons.inj hmiddle).1 hx
    | cons z middle =>
        obtain ⟨rfl, -⟩ := List.cons.inj hmiddle
        exact absurd (by simp) hbefore

theorem Sound.mem_keys (h : Sound s) {e : FrameKey × FrameMetadata} (he : e ∈ s.queue) :
    e.1 ∈ s.arrived.map (·.1) := Receiver.mem_keys (h.queue e he)

/-- A frame that had arrived waits as before, if the queue only grew behind it. -/
theorem Waits.keep (h : Waits s) (hs : Orderly s) (hsound : Sound s)
    {x : FrameKey × Option FrameMetadata} {back : List (FrameKey × FrameMetadata)}
    (harrived : t.arrived = s.arrived ++ [x]) (hask : t.asked = s.asked)
    (hback : t.queue = s.queue ++ back) {k : FrameKey} {m : FrameMetadata}
    (hk : (k, some m) ∈ s.arrived) (hlater : ∀ a ∈ t.asked, t.first a.1 < t.first k) :
    ∃ before after, t.queue = before ++ (k, m) :: after ∧
      ∀ e ∈ before, t.first e.1 < t.first k := by
  have hfirst := first_append harrived (mem_keys hk)
  obtain ⟨before, after, hqueue, hbefore⟩ := h.waiting k m hk (by
    intro a ha
    rw [← hfirst, ← first_append harrived (hs.known a ha).2]
    exact hlater a (by rw [hask]; exact ha))
  refine ⟨before, after ++ back, by rw [hback, hqueue]; simp, fun e he => ?_⟩
  rw [hfirst, first_append harrived (hsound.mem_keys (by rw [hqueue]; simp [he]))]
  exact hbefore e he

/-- A frame that arrives changes no answer. -/
theorem Waits.answered_keep (h : Waits s) (hs : Orderly s) (ht : Orderly t)
    {x : FrameKey × Option FrameMetadata} (harrived : t.arrived = s.arrived ++ [x])
    (hask : t.asked = s.asked) :
    ∀ a ∈ t.asked, ∀ m, (a.1, some m) ∈ t.arrived → a.2 = some m := by
  intro a ha m hm
  rw [hask] at ha
  exact h.answered a ha m (mem_of_same ht harrived (hs.known a ha).2 hm)

/-- A frame that is new waits behind everything else. -/
theorem waits_last (hsound : Sound s) {k : FrameKey} {m : FrameMetadata}
    (harrived : t.arrived = s.arrived ++ [(k, some m)]) (hqueue : t.queue = s.queue ++ [(k, m)])
    (hnew : k ∉ s.arrived.map (·.1)) :
    ∃ before after, t.queue = before ++ (k, m) :: after ∧
      ∀ e ∈ before, t.first e.1 < t.first k := by
  refine ⟨s.queue, [], hqueue, fun e he => ?_⟩
  have hlast : t.first k = s.arrived.length := by
    unfold Receiver.first
    rw [harrived, List.map_append, List.idxOf_append, if_neg hnew]
    simp
  rw [hlast, first_append harrived (hsound.mem_keys he)]
  have hlt := List.idxOf_lt_length_of_mem (hsound.mem_keys he)
  rwa [List.length_map] at hlt

/-- The sink takes the entry of the frame it asks for, when that one came with metadata. -/
theorem Waits.taken (h : Waits s) {k : FrameKey} {m : Option FrameMetadata} {n : FrameMetadata}
    {rest : List (FrameKey × FrameMetadata)} (hssrc : k.ssrc ≠ 0)
    (hlater : ∀ a ∈ s.asked, s.first a.1 < s.first k)
    (htake : takeReceiverMeta s.queue k.ssrc k.rtpTimestamp = (m, rest))
    (hn : (k, some n) ∈ s.arrived) :
    ∃ before, m = some n ∧ s.queue = before ++ (k, n) :: rest ∧
      ∀ e ∈ before, s.first e.1 < s.first k := by
  obtain ⟨before, after, hqueue, hbefore⟩ := h.waiting k n hn hlater
  have hother : ∀ e ∈ before, e.1.isFor k.ssrc k.rtpTimestamp = false := by
    intro e he
    refine Bool.eq_false_iff.mpr fun hfor => ?_
    have hkey : e.1 = k := (FrameKey.isFor_iff hssrc).mp hfor
    have hlt := hbefore e he
    rw [hkey] at hlt
    exact absurd hlt (Nat.lt_irrefl _)
  have hanswer := takeReceiverMeta_first n after hother ((FrameKey.isFor_iff hssrc).mpr rfl)
  rw [← hqueue, htake] at hanswer
  obtain ⟨hm, hrest⟩ := Prod.mk.inj hanswer
  exact ⟨before, hm, by rw [hrest]; exact hqueue, hbefore⟩

/-- Nothing is taken for a frame that came without. -/
theorem Sound.untaken (h : Sound s) {k : FrameKey} {m : Option FrameMetadata}
    {rest : List (FrameKey × FrameMetadata)} (hssrc : k.ssrc ≠ 0)
    (htake : takeReceiverMeta s.queue k.ssrc k.rtpTimestamp = (m, rest))
    (hplain : ¬ ∃ n, (k, some n) ∈ s.arrived) : rest = s.queue := by
  have hnone : ∀ e ∈ s.queue, e.1.isFor k.ssrc k.rtpTimestamp = false := by
    intro e he
    refine Bool.eq_false_iff.mpr fun hfor => hplain ⟨e.2, ?_⟩
    have hkey : e.1 = k := (FrameKey.isFor_iff hssrc).mp hfor
    rw [← hkey]
    exact h.queue e he
  have hanswer := takeReceiverMeta_none hnone
  rw [htake] at hanswer
  exact (Prod.mk.inj hanswer).2

/-- A frame the sink can still ask for is behind the one it asks for now. -/
theorem Waits.behind (h : Waits s) (hsound : Sound s) {k j : FrameKey} {m : Option FrameMetadata}
    {n : FrameMetadata} {rest : List (FrameKey × FrameMetadata)} (hssrc : k.ssrc ≠ 0)
    (hlater : ∀ a ∈ s.asked, s.first a.1 < s.first k)
    (htake : takeReceiverMeta s.queue k.ssrc k.rtpTimestamp = (m, rest))
    (hj : (j, some n) ∈ s.arrived) (hjlater : ∀ a ∈ s.asked, s.first a.1 < s.first j)
    (hjk : s.first k < s.first j) :
    ∃ before after, rest = before ++ (j, n) :: after ∧
      ∀ e ∈ before, s.first e.1 < s.first j := by
  obtain ⟨front, back, hqueue, hfront⟩ := h.waiting j n hj hjlater
  by_cases hcarried : ∃ n', (k, some n') ∈ s.arrived
  · obtain ⟨n', hn'⟩ := hcarried
    obtain ⟨before, -, hsplit, hbefore⟩ := h.taken hssrc hlater htake hn'
    have hnot : (j, n) ∉ before :=
      fun hmem => absurd (hbefore _ hmem) (Nat.not_lt.mpr (Nat.le_of_lt hjk))
    have hne : (j, n) ≠ (k, n') := by
      intro heq
      rw [(Prod.mk.inj heq).1] at hjk
      exact absurd hjk (Nat.lt_irrefl _)
    obtain ⟨middle, hafter, hfrontEq⟩ := split_after (hsplit.symm.trans hqueue) hnot hne
    refine ⟨middle, back, hafter, fun e he => hfront e ?_⟩
    rw [hfrontEq]
    simp [he]
  · rw [hsound.untaken hssrc htake hcarried]
    exact ⟨front, back, hqueue, hfront⟩

theorem Waits.next (hs : Orderly s) (ht : Orderly t) (hsound : Sound s) (h : Waits s)
    (hstep : Steps s t) : Waits t := by
  cases hstep with
  | same hqueue hseen harrived hask =>
      have hfirst : ∀ k, t.first k = s.first k := fun k => by unfold first; rw [harrived]
      refine ⟨?_, ?_⟩
      · intro k m
        simp only [harrived, hask, hqueue, hfirst]
        exact h.waiting k m
      · rw [hask, harrived]
        exact h.answered
  | again k m hm hqueue hseen harrived hask =>
      refine ⟨fun j n hj hlater => ?_, h.answered_keep hs ht harrived hask⟩
      have hold : (j, some n) ∈ s.arrived := by
        have hj' := hj
        rw [harrived] at hj'
        rcases List.mem_append.mp hj' with hj' | hj'
        · exact hj'
        · obtain ⟨rfl, rfl⟩ := Prod.mk.inj (List.mem_singleton.mp hj')
          obtain ⟨n', hn'⟩ := hsound.seen j (hm (by simp))
          exact mem_of_same ht harrived (mem_keys hn') hj
      have hback : t.queue = s.queue ++ [] := by rw [hqueue, List.append_nil]
      exact h.keep hs hsound harrived hask hback hold hlater
  | first k m hqueue hseen harrived hask =>
      have hpush : t.queue = s.queue ++ [(k, m)] := by
        rw [hqueue, pushCapped, if_neg (Nat.not_le.mpr hs.room)]
      refine ⟨fun j n hj hlater => ?_, h.answered_keep hs ht harrived hask⟩
      by_cases hold : j ∈ s.arrived.map (·.1)
      · exact h.keep hs hsound harrived hask hpush (mem_of_same ht harrived hold hj) hlater
      · have hnew : (j, some n) = (k, some m) := by
          have hj' := hj
          rw [harrived] at hj'
          rcases List.mem_append.mp hj' with hj' | hj'
          · exact absurd (mem_keys hj') hold
          · exact List.mem_singleton.mp hj'
        obtain ⟨rfl, hn⟩ := Prod.mk.inj hnew
        obtain rfl := Option.some.inj hn
        exact waits_last hsound harrived hpush hold
  | take k m htake hseen harrived hask =>
      have hfirst : ∀ j, t.first j = s.first j := fun j => by unfold first; rw [harrived]
      have hlast : (k, m) ∈ t.asked := by rw [hask]; simp
      obtain ⟨hssrc, -⟩ := ht.known (k, m) hlast
      have hinOrder := ht.inOrder
      rw [hask, List.pairwise_append] at hinOrder
      have hlater : ∀ a ∈ s.asked, s.first a.1 < s.first k := by
        intro a ha
        rw [← hfirst, ← hfirst]
        exact hinOrder.2.2 a ha (k, m) (by simp)
      refine ⟨fun j n hj hall => ?_, fun a ha n hn => ?_⟩
      · rw [harrived] at hj
        simp only [hfirst] at hall ⊢
        refine h.behind hsound hssrc hlater htake hj (fun a ha => ?_) (hall (k, m) hlast)
        exact hall a (by rw [hask]; exact List.mem_append_left _ ha)
      · rw [harrived] at hn
        rw [hask] at ha
        rcases List.mem_append.mp ha with ha | ha
        · exact h.answered a ha n hn
        · rw [List.mem_singleton.mp ha] at hn ⊢
          obtain ⟨-, hm, -⟩ := h.taken hssrc hlater htake hn
          exact hm

theorem start_sound (prost : Prost) (caller : Bool) :
    Strips (machine prost caller).start ∧ Sound (machine prost caller).start ∧
      Waits (machine prost caller).start := by
  refine ⟨rfl, ⟨?_, ?_, ?_⟩, ?_, ?_⟩
  · exact fun e he => absurd he List.not_mem_nil
  · exact fun k hk => absurd hk List.not_mem_nil
  · exact fun a ha => absurd ha List.not_mem_nil
  · exact fun k m hk => absurd hk List.not_mem_nil
  · exact fun a ha => absurd ha List.not_mem_nil

/--
**The sink gets the metadata of the frame it asks for, or none.**  And as long as it asks
in order, for frames that arrived, with room in the queue, it gets it whenever the frame
came with one.
-/
theorem take_gives_own (prost : Prost) (caller : Bool) {as : List Action} {s : Receiver}
    (hrun : (machine prost caller).run (machine prost caller).start as = some s) :
    (∀ a ∈ s.asked, a.1.ssrc ≠ 0 → ∀ m, a.2 = some m → (a.1, some m) ∈ s.arrived) ∧
    ((machine prost caller).Along Orderly (machine prost caller).start as →
      ∀ a ∈ s.asked, ∀ m, (a.1, some m) ∈ s.arrived → a.2 = some m) := by
  obtain ⟨hstrips, hsound, hwaits⟩ := start_sound prost caller
  constructor
  · have hinv := Machine.run_invariant (I := fun u => Strips u ∧ Sound u) ?_
      ⟨hstrips, hsound⟩ hrun
    · exact hinv.2.asked
    · rintro u a v ⟨hu, hs⟩ huv
      obtain ⟨hv, hstep⟩ := step_steps hu huv
      exact ⟨hv, hs.next hstep⟩
  · intro halong
    have hinv := Machine.run_invariant_along (P := Orderly)
      (I := fun u => Strips u ∧ Sound u ∧ Waits u) ?_ halong ⟨hstrips, hsound, hwaits⟩ hrun
    · exact hinv.2.2.answered
    · rintro u a v hpu hpv ⟨hu, hs, hw⟩ huv
      obtain ⟨hv, hstep⟩ := step_steps hu huv
      exact ⟨hv, hs.next hstep, hw.next hpu hpv hs hstep⟩

/-- A frame as it arrives, with the number of its trailer. -/
def frame (ssrc timestamp : UInt32) (frameId : UInt64) : EncodedFrame :=
  { ssrc, timestamp, currentData := 7 :: encodeTrailer proto3 { frameId } }

/-- A frame lost before the decoder, one that arrives twice, and timestamps that wrap. -/
def lossy : List Action :=
  [.strip (frame 9 0xFFFFFFFE 1) { action := .forward },
    .strip (frame 9 0xFFFFFFFF 2) { action := .forward }, .take 9 0xFFFFFFFE,
    .strip (frame 9 0xFFFFFFFE 1) { action := .forward },
    .strip (frame 9 5 3) { action := .forward }, .take 9 5]

theorem take_gives_own_lossy :
    (machine proto3 false).Along Orderly (machine proto3 false).start lossy ∧
      ∀ a ∈ ((machine proto3 false).final (machine proto3 false).start lossy
          (by decide +kernel)).asked,
        ∀ m, (a.1, some m) ∈ ((machine proto3 false).final (machine proto3 false).start lossy
          (by decide +kernel)).arrived → a.2 = some m := by
  have horderly : (machine proto3 false).Along Orderly (machine proto3 false).start lossy := by
    decide +kernel
  exact ⟨horderly, (take_gives_own proto3 false
    ((machine proto3 false).run_final _ lossy (by decide +kernel))).2 horderly⟩

end Receiver

end ReactorWebrtc
