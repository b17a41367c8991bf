/-
The outgoing metadata of a raw track, and the capture times it is keyed by.

A push claims a capture millisecond of its own: the caller's, or the one after the last
claimed when the caller's is not past it.  The metadata is stored under the millisecond, and
the frame carries it in microseconds.  `i64` arithmetic wraps here, as it does in a release
build; a build that checks it panics where `Safe` fails.

`claimed` is the millisecond the allocator would hold if nothing wrapped.  As long as it
fits when multiplied by 1000 the two agree (`Kept`), and the first push that takes it past
that sends a negative capture time.  `claimed_le_iff` makes of it a condition on what was
declared: each declared millisecond may be pushed forward by one for every push after it.
-/
import ReactorWebrtc.Lib.Machine
import ReactorWebrtc.Media.VideoFrame
import ReactorWebrtc.Metadata.Slot

namespace ReactorWebrtc

/-- Claim `rawMs` as a capture millisecond, past the last one claimed. -/
def nextUniqueCaptureMs (last rawMs : Int64) : Int64 := max rawMs (last + 1)

def SENDER_META_CAP : Nat := 300

/-- A track's outgoing metadata, keyed by the frame's capture timestamp. -/
structure CaptureTimeMeta where
  stored : List (Int64 × FrameMetadata) := []
  /-- The keys, as they are to be evicted. -/
  order : List Int64 := []
  deriving DecidableEq, Repr

namespace CaptureTimeMeta

/-- Looked up, not removed: the layers of one frame share its capture time. -/
def take (m : CaptureTimeMeta) (captureTimeMs : Int64) : Option FrameMetadata :=
  if captureTimeMs ≤ 0 then none else m.stored.lookup captureTimeMs

/-- Make room for one more. -/
def evict (m : CaptureTimeMeta) : CaptureTimeMeta :=
  if m.order.length ≥ SENDER_META_CAP then
    match m.order with
    | oldKey :: order => { stored := m.stored.filter (·.1 ≠ oldKey), order }
    | [] => m
  else m

def insert (m : CaptureTimeMeta) (captureMs : Int64) (x : FrameMetadata) : CaptureTimeMeta :=
  let m := m.evict
  { stored := if (m.stored.lookup captureMs).isSome then m.stored else m.stored ++ [(captureMs, x)]
    order := m.order ++ [captureMs] }

/-- These frames' metadata, the first of them the first to go. -/
def ofEntries (entries : List (Int64 × FrameMetadata)) : CaptureTimeMeta :=
  { stored := entries, order := entries.map Prod.fst }

theorem evict_of_few {entries : List (Int64 × FrameMetadata)}
    (hfew : entries.length < SENDER_META_CAP) : (ofEntries entries).evict = ofEntries entries := by
  unfold evict
  rw [if_neg]
  show ¬ (entries.map Prod.fst).length ≥ SENDER_META_CAP
  rw [List.length_map]
  exact Nat.not_le.mpr hfew

theorem evict_cons {entry : Int64 × FrameMetadata} {entries : List (Int64 × FrameMetadata)}
    (hnodup : ((entry :: entries).map Prod.fst).Nodup)
    (hfull : SENDER_META_CAP ≤ (entry :: entries).length) :
    (ofEntries (entry :: entries)).evict = ofEntries entries := by
  rw [List.map_cons, List.nodup_cons] at hnodup
  have hkeep : entries.filter (·.1 ≠ entry.1) = entries := by
    refine List.filter_eq_self.mpr fun other hother => decide_eq_true fun heq => hnodup.1 ?_
    rw [← heq]
    exact List.mem_map_of_mem hother
  have hdrop : (entry :: entries).filter (·.1 ≠ entry.1) = entries := by
    rw [List.filter_cons_of_neg (by simp), hkeep]
  unfold evict
  rw [if_pos]
  · show CaptureTimeMeta.mk ((entry :: entries).filter (·.1 ≠ entry.1)) (entries.map Prod.fst) = _
    rw [hdrop]
    rfl
  · show SENDER_META_CAP ≤ ((entry :: entries).map Prod.fst).length
    rwa [List.length_map]

/-- What is held is the last of all that was inserted, if no key comes twice. -/
theorem insert_ofEntries {entries : List (Int64 × FrameMetadata)} {captureMs : Int64}
    {x : FrameMetadata} (hnodup : ((entries ++ [(captureMs, x)]).map Prod.fst).Nodup) :
    (ofEntries (entries.drop (entries.length - SENDER_META_CAP))).insert captureMs x =
      ofEntries ((entries ++ [(captureMs, x)]).drop (entries.length + 1 - SENDER_META_CAP)) := by
  have hinsert : ∀ kept : List (Int64 × FrameMetadata), kept ⊆ entries →
      (ofEntries (entries.drop (entries.length - SENDER_META_CAP))).evict = ofEntries kept →
      (ofEntries (entries.drop (entries.length - SENDER_META_CAP))).insert captureMs x =
        ofEntries (kept ++ [(captureMs, x)]) := by
    intro kept hsub hevict
    rw [List.map_append, List.nodup_append] at hnodup
    have hnew : kept.lookup captureMs = none := by
      refine List.lookup_eq_none_iff.mpr fun entry hentry => ?_
      have hold : entry.1 ∈ entries.map Prod.fst := List.mem_map_of_mem (hsub hentry)
      exact bne_iff_ne.mpr (hnodup.2.2 entry.1 hold captureMs List.mem_cons_self).symm
    unfold insert
    rw [hevict]
    show CaptureTimeMeta.mk
      (if (kept.lookup captureMs).isSome then kept else kept ++ [(captureMs, x)])
      (kept.map Prod.fst ++ [captureMs]) = _
    rw [hnew, ofEntries, List.map_append]
    rfl
  rcases Nat.lt_or_ge entries.length SENDER_META_CAP with hfew | hfull
  · have hall : entries.length - SENDER_META_CAP = 0 := by omega
    have hnext : entries.length + 1 - SENDER_META_CAP = 0 := by omega
    rw [hinsert entries (List.Subset.refl _) (by rw [hall]; exact evict_of_few hfew), hnext]
    rfl
  · have hlt : entries.length - SENDER_META_CAP < entries.length := by
      unfold SENDER_META_CAP at *
      omega
    have hnext : entries.length + 1 - SENDER_META_CAP = entries.length - SENDER_META_CAP + 1 := by
      omega
    rw [hinsert (entries.drop (entries.length - SENDER_META_CAP + 1)) (List.drop_subset _ _),
      hnext, List.drop_append_of_le_length hlt]
    have hrest : (((entries.drop (entries.length - SENDER_META_CAP)).map Prod.fst)).Nodup := by
      rw [List.map_append, List.nodup_append] at hnodup
      exact hnodup.1.sublist ((List.drop_sublist _ _).map _)
    have hlength : SENDER_META_CAP
        ≤ (entries.drop (entries.length - SENDER_META_CAP)).length := by
      rw [List.length_drop]
      omega
    rw [List.drop_eq_getElem_cons hlt] at hrest hlength ⊢
    exact evict_cons hrest hlength

/-- Each entry is found under its own key. -/
theorem take_ofEntries {entries : List (Int64 × FrameMetadata)} {captureMs : Int64}
    {x : FrameMetadata} (hnodup : (entries.map Prod.fst).Nodup)
    (hmem : (captureMs, x) ∈ entries) (hpos : 0 < captureMs.toInt) :
    (ofEntries entries).take captureMs = some x := by
  have hlookup : entries.lookup captureMs = some x := by
    obtain ⟨before, rest, rfl⟩ := List.append_of_mem hmem
    rw [List.map_append, List.nodup_append] at hnodup
    refine List.lookup_eq_some_iff.mpr ⟨before, rest, rfl, fun entry hentry => ?_⟩
    exact bne_iff_ne.mpr
      (hnodup.2.2 entry.1 (List.mem_map_of_mem hentry) captureMs List.mem_cons_self).symm
  unfold take
  rw [if_neg, ofEntries, hlookup]
  rw [Int64.le_iff_toInt_le]
  exact Int.not_le.mpr hpos

end CaptureTimeMeta

/-- A frame that was pushed with metadata, as it was handed to the native track. -/
structure Pushed where
  declared : Int64
  userData : Bytes
  metadata : FrameMetadata
  captureUs : Int64
  deriving DecidableEq, Repr

/-- The capture time the encoded frame will have. -/
def Pushed.captureMs (p : Pushed) : Int64 := p.captureUs / 1000

/-- What is stored for it. -/
def Pushed.entry (p : Pushed) : Int64 × FrameMetadata := (p.captureMs, p.metadata)

@[simp] theorem Pushed.entry_fst (p : Pushed) : p.entry.1 = p.captureMs := rfl

/-- A raw video track.  What it has pushed is not kept by the code. -/
structure Track where
  isRemote : Bool := false
  metadataEnabled : Bool := true
  frameCounter : UInt64 := 0
  lastSendMs : Int64 := 0
  senderMeta : CaptureTimeMeta := {}
  pushed : List Pushed := []
  deriving DecidableEq, Repr

namespace Track

/-- `frame_counter.fetch_add(1)`, and 1 in place of the 0 that stands for unset. -/
def nextFrameId (t : Track) : UInt64 × Track :=
  let raw := t.frameCounter
  (if raw.toNat = 2 ^ 64 - 1 then 1 else raw + 1, { t with frameCounter := raw + 1 })

/-- A capture timestamp in microseconds, from the caller's own or from the clock. -/
def allocSendCaptureUs (t : Track) (requested : Option Int64) (timeMicros : Int64) :
    Int64 × Track :=
  let rawMs := requested.getD timeMicros / 1000
  let next := nextUniqueCaptureMs t.lastSendMs rawMs
  (next * 1000, { t with lastSendMs := next })

def insertSenderMeta (t : Track) (captureMs : Int64) (m : FrameMetadata) : Track :=
  { t with senderMeta := t.senderMeta.insert captureMs m }

def pushMetadataFrame (t : Track) (userData : Bytes) (captureTimeUs : Option Int64)
    (timeMicros : Int64) : Track :=
  let declared := captureTimeUs.getD timeMicros
  let (captureUs, t) := t.allocSendCaptureUs (some declared) timeMicros
  let (frameId, t) := t.nextFrameId
  let metadata : FrameMetadata :=
    { frameId, captureTimeUs := (max declared 0).toUInt64, userData }
  let t := t.insertSenderMeta (captureUs / 1000) metadata
  { t with pushed := t.pushed ++ [{ declared, userData, metadata, captureUs }] }

/-- `push_frame_with_metadata`, and `push_frame_with_metadata_at` with a capture time. -/
def pushWithMetadata (t : Track) (frame : VideoFrame) (userData : Bytes)
    (captureTimeUs : Option Int64) (timeMicros : Int64) : Except PushError Unit × Track :=
  if t.isRemote then (.error .remote, t)
  else
    match checkFrame frame with
    | .error e => (.error e, t)
    | .ok () =>
      if t.metadataEnabled then
        (.ok (), t.pushMetadataFrame userData captureTimeUs timeMicros)
      -- the frame itself still flows, without a trailer
      else (.ok (), t)

/-- A call, and what the clock says meanwhile. -/
structure Push where
  frame : VideoFrame
  userData : Bytes
  captureTimeUs : Option Int64
  timeMicros : Int64
  deriving DecidableEq, Repr

/-- A local track that carries metadata. -/
def machine : Machine Track Push where
  start := {}
  step t p := some (t.pushWithMetadata p.frame p.userData p.captureTimeUs p.timeMicros).2

/-- What the call declares, if it does not fail. -/
def Push.declares (p : Push) : Option Int64 :=
  match checkFrame p.frame with
  | .error _ => none
  | .ok () => some (p.captureTimeUs.getD p.timeMicros)

/-- An `i64`. -/
def Fits (n : Int) : Prop := -2 ^ 63 ≤ n ∧ n < 2 ^ 63

instance (n : Int) : Decidable (Fits n) := inferInstanceAs (Decidable (_ ∧ _))

/-- Neither the sum nor the product leaves the range. -/
def Safe (t : Track) (p : Push) : Prop :=
  ∀ us, p.declares = some us → Fits (t.lastSendMs.toInt + 1) ∧
    Fits ((nextUniqueCaptureMs t.lastSendMs (us / 1000)).toInt * 1000)

/-- The capture times handed to the native track go up. -/
def Increasing (t : Track) : Prop := t.pushed.Pairwise fun p q => p.captureUs < q.captureUs

instance (t : Track) : Decidable (Increasing t) := inferInstanceAs (Decidable (List.Pairwise _ _))

/-- The pushes whose metadata is still held. -/
@[irreducible]
def recent (t : Track) : List Pushed := t.pushed.drop (t.pushed.length - SENDER_META_CAP)

/-- Outgoing metadata reaches its own frame. -/
structure Matched (t : Track) : Prop where
  keysUp : t.pushed.Pairwise fun p q => p.captureMs < q.captureMs
  keys : ∀ key, (t.senderMeta.stored.lookup key).isSome ↔ key ∈ t.senderMeta.order
  order : t.senderMeta.order.Nodup
  atMost : t.senderMeta.order.length ≤ SENDER_META_CAP
  take : ∀ p ∈ t.recent, t.senderMeta.take p.captureMs = some p.metadata
  own : ∀ p ∈ t.pushed, p.metadata.userData = p.userData ∧
    (p.metadata.captureTimeUs.toNat : Int) = max p.declared.toInt 0

/-- The largest millisecond there is in microseconds. -/
def LAST_MS : Int := 9223372036854775

/-- No declared millisecond is too late to be pushed forward by one for every later push. -/
def Headroom (declared : List Int64) : Prop :=
  declared.length ≤ LAST_MS ∧ ∀ (i : Nat) (h : i < declared.length),
    declared[i].toInt.tdiv 1000 + (declared.length - 1 - i : Nat) ≤ LAST_MS

/-! ### Milliseconds that do not wrap

Each claim is past the one before, so a declared time that lies far ahead pushes all later
ones forward, one millisecond a push.  Whether that fits depends on where the time stands
among the pushes, and on nothing else.
-/

/-- The millisecond last claimed, in whole numbers. -/
def claimed (last : Int) (declared : List Int64) : Int :=
  declared.foldl (fun last us => max (us.toInt.tdiv 1000) (last + 1)) last

/-- Every push claims at least one more. -/
theorem add_length_le_claimed (declared : List Int64) (last : Int) :
    last + declared.length ≤ claimed last declared := by
  induction declared generalizing last with
  | nil => simp [claimed]
  | cons us declared ih =>
      have hrest := ih (max (us.toInt.tdiv 1000) (last + 1))
      have hmax : last + 1 ≤ max (us.toInt.tdiv 1000) (last + 1) := le_max_right _ _
      show _ ≤ claimed (max (us.toInt.tdiv 1000) (last + 1)) declared
      rw [List.length_cons]
      push_cast
      omega

/-- A bound on what is claimed is one on each declared millisecond, and on how many there are. -/
theorem claimed_le_iff (declared : List Int64) (last bound : Int) :
    claimed last declared ≤ bound ↔ last + declared.length ≤ bound ∧
      ∀ (i : Nat) (h : i < declared.length),
        declared[i].toInt.tdiv 1000 + (declared.length - 1 - i : Nat) ≤ bound := by
  induction declared generalizing last with
  | nil => simp [claimed]
  | cons us declared ih =>
      have hcons : claimed last (us :: declared)
          = claimed (max (us.toInt.tdiv 1000) (last + 1)) declared := rfl
      rw [hcons, ih, max_add, max_le_iff]
      simp only [List.length_cons]
      constructor
      · rintro ⟨⟨hfirst, hlast⟩, hrest⟩
        refine ⟨by push_cast; omega, fun i h => ?_⟩
        cases i with
        | zero => simpa using hfirst
        | succ i =>
            have hi := hrest i (by omega)
            rw [List.getElem_cons_succ]
            have hlater : declared.length + 1 - 1 - (i + 1) = declared.length - 1 - i := by omega
            rwa [hlater]
      · rintro ⟨hlast, hall⟩
        refine ⟨⟨by simpa using hall 0 (by omega), by push_cast at hlast; omega⟩, fun i h => ?_⟩
        have hi := hall (i + 1) (by omega)
        have hlater : declared.length + 1 - 1 - (i + 1) = declared.length - 1 - i := by omega
        rwa [hlater, List.getElem_cons_succ] at hi

theorem headroom_iff (declared : List Int64) :
    Headroom declared ↔ claimed 0 declared ≤ LAST_MS := by
  rw [claimed_le_iff, zero_add]
  rfl

/-! ### The allocator in whole numbers -/

theorem toInt_div_thousand (us : Int64) : (us / 1000).toInt = us.toInt.tdiv 1000 :=
  Int64.toInt_div_of_ne_right us 1000 (by decide)

/-- No microsecond there is lies in a millisecond past the last. -/
theorem tdiv_le_last (us : Int64) : us.toInt.tdiv 1000 ≤ LAST_MS :=
  Int.tdiv_le_tdiv (by decide) (Int.le_sub_one_of_lt us.toInt_lt)

theorem nextUniqueCaptureMs_toInt {last : Int64} (us : Int64) (hlo : 0 ≤ last.toInt)
    (hhi : last.toInt ≤ LAST_MS) :
    (nextUniqueCaptureMs last (us / 1000)).toInt
      = max (us.toInt.tdiv 1000) (last.toInt + 1) := by
  have hadd : (last + 1).toInt = last.toInt + 1 := by
    rw [Int64.toInt_add]
    unfold LAST_MS at hhi
    apply Int.bmod_eq_of_le <;> simp <;> omega
  have hle : us / 1000 ≤ last + 1 ↔ us.toInt.tdiv 1000 ≤ last.toInt + 1 := by
    rw [Int64.le_iff_toInt_le, toInt_div_thousand, hadd]
  show (if us / 1000 ≤ last + 1 then last + 1 else us / 1000).toInt = _
  split
  · rename_i h
    rw [hadd, max_eq_right (hle.mp h)]
  · rename_i h
    have hpast : ¬ us.toInt.tdiv 1000 ≤ last.toInt + 1 := mt hle.mpr h
    rw [toInt_div_thousand, max_eq_left (by omega)]

/-- A millisecond that fits comes back from its microseconds. -/
theorem mul_thousand {ms : Int64} (hlo : 0 ≤ ms.toInt) (hhi : ms.toInt ≤ LAST_MS) :
    (ms * 1000).toInt = ms.toInt * 1000 ∧ ms * 1000 / 1000 = ms := by
  have hmul : (ms * 1000).toInt = ms.toInt * 1000 := by
    rw [Int64.toInt_mul]
    unfold LAST_MS at hhi
    apply Int.bmod_eq_of_le <;> simp <;> omega
  refine ⟨hmul, ?_⟩
  rw [← Int64.toInt_inj, toInt_div_thousand, hmul, Int.mul_tdiv_cancel _ (by decide)]

/-- The first millisecond that does not fit turns negative. -/
theorem mul_thousand_wraps {ms : Int64} (h : ms.toInt = LAST_MS + 1) :
    (ms * 1000).toInt < 0 ∧ ms * 1000 / 1000 ≤ 0 := by
  have hms : ms = 9223372036854776 := by
    rw [← Int64.toInt_inj, h]
    decide
  rw [hms]
  decide

/-! ### What a push does

A push that fails a check declares nothing and changes nothing.  One that does not claims
the allocator's next millisecond, and the two cases after that are whether it fits when
multiplied.
-/

/-- The frame as it is pushed, once its millisecond is claimed. -/
def frameOf (t : Track) (us : Int64) (userData : Bytes) (ms : Int64) : Pushed :=
  { declared := us
    userData
    metadata :=
      { frameId := t.nextFrameId.1, captureTimeUs := (max us 0).toUInt64, userData }
    captureUs := ms * 1000 }

/-- A call that fails leaves the track as it was. -/
theorem step_of_fails {t : Track} {p : Push} (h : p.declares = none) :
    machine.step t p = some t := by
  unfold Push.declares at h
  show some (t.pushWithMetadata p.frame p.userData p.captureTimeUs p.timeMicros).2 = _
  unfold pushWithMetadata
  split
  · rfl
  · cases hcheck : checkFrame p.frame with
    | error e => rfl
    | ok u =>
        rw [hcheck] at h
        cases h

/-- What a call that does not fail leaves. -/
theorem step_of_declares {t : Track} {p : Push} {us : Int64} (hlocal : t.isRemote = false)
    (hcarries : t.metadataEnabled = true) (h : p.declares = some us) :
    ∃ t', machine.step t p = some t' ∧
      t'.isRemote = false ∧ t'.metadataEnabled = true ∧
      t'.lastSendMs = nextUniqueCaptureMs t.lastSendMs (us / 1000) ∧
      t'.pushed = t.pushed ++ [t.frameOf us p.userData t'.lastSendMs] ∧
      t'.senderMeta = t.senderMeta.insert (t.frameOf us p.userData t'.lastSendMs).captureMs
        (t.frameOf us p.userData t'.lastSendMs).metadata := by
  refine ⟨_, rfl, ?_⟩
  unfold Push.declares at h
  cases hcheck : checkFrame p.frame with
  | error e =>
      rw [hcheck] at h
      cases h
  | ok u =>
      rw [hcheck] at h
      obtain rfl := Option.some.inj h
      have hpush : (t.pushWithMetadata p.frame p.userData p.captureTimeUs p.timeMicros).2
          = t.pushMetadataFrame p.userData p.captureTimeUs p.timeMicros := by
        unfold pushWithMetadata
        rw [hlocal, hcheck, hcarries]
        rfl
      rw [hpush]
      exact ⟨hlocal, hcarries, rfl, rfl, rfl⟩

/-- The metadata carries what was declared, or 0 in place of what is negative. -/
theorem frameOf_own (t : Track) (us : Int64) (userData : Bytes) (ms : Int64) :
    (t.frameOf us userData ms).metadata.userData = userData ∧
      ((t.frameOf us userData ms).metadata.captureTimeUs.toNat : Int) = max us.toInt 0 := by
  refine ⟨rfl, ?_⟩
  show ((if us ≤ 0 then (0 : Int64) else us).toUInt64.toNat : Int) = _
  split
  · rename_i h
    have hneg : us.toInt ≤ 0 := Int64.le_iff_toInt_le.mp h
    rw [max_eq_right hneg]
    rfl
  · rename_i h
    have hpos : 0 < us.toInt := by
      refine Int.not_le.mp fun hneg => h ?_
      rw [Int64.le_iff_toInt_le]
      exact hneg
    rw [Int64.toNat_toUInt64_of_le (Int64.le_iff_toInt_le.mpr hpos.le), max_eq_left hpos.le]
    exact Int.toNat_of_nonneg hpos.le

theorem recent_sublist (t : Track) : t.recent.Sublist t.pushed := by
  unfold recent
  exact List.drop_sublist _ _

theorem length_recent_le (t : Track) : t.recent.length ≤ SENDER_META_CAP := by
  unfold recent
  simp only [List.length_drop]
  omega

theorem map_recent (t : Track) : t.recent.map Pushed.entry = (t.pushed.map Pushed.entry).drop
    ((t.pushed.map Pushed.entry).length - SENDER_META_CAP) := by
  unfold recent
  rw [List.map_drop, List.length_map]

/-- As long as what was claimed fits. -/
structure Kept (t : Track) : Prop where
  isLocal : t.isRemote = false
  carries : t.metadataEnabled = true
  last_nonneg : 0 ≤ t.lastSendMs.toInt
  last_fits : t.lastSendMs.toInt ≤ LAST_MS
  /-- What was pushed is positive and not past the last claimed. -/
  upToLast : ∀ p ∈ t.pushed, 0 < p.captureMs.toInt ∧ p.captureMs ≤ t.lastSendMs ∧
    p.captureUs = p.captureMs * 1000
  keysUp : t.pushed.Pairwise fun p q => p.captureMs < q.captureMs
  senderMeta : t.senderMeta = .ofEntries (t.recent.map Pushed.entry)
  own : ∀ p ∈ t.pushed, p.metadata.userData = p.userData ∧
    (p.metadata.captureTimeUs.toNat : Int) = max p.declared.toInt 0

theorem kept_start : Kept machine.start where
  isLocal := rfl
  carries := rfl
  last_nonneg := by decide
  last_fits := by decide
  upToLast p hp := absurd hp List.not_mem_nil
  keysUp := .nil
  senderMeta := by
    rw [List.sublist_nil.mp machine.start.recent_sublist]
    rfl
  own p hp := absurd hp List.not_mem_nil

/-- Keys that go up are not repeated. -/
theorem nodup_of_keysUp {pushed : List Pushed}
    (h : pushed.Pairwise fun p q => p.captureMs < q.captureMs) :
    (pushed.map Pushed.captureMs).Nodup := by
  refine List.pairwise_map.mpr (h.imp fun {p q} hlt heq => ?_)
  rw [heq] at hlt
  exact Int64.lt_irrefl hlt

theorem Kept.order {t : Track} (h : Kept t) :
    t.senderMeta.order = t.recent.map Pushed.captureMs := by
  rw [h.senderMeta, CaptureTimeMeta.ofEntries, List.map_map]
  exact List.map_congr_left fun p _ => p.entry_fst

theorem Kept.nodup {t : Track} (h : Kept t) : t.senderMeta.order.Nodup := by
  rw [h.order]
  exact (nodup_of_keysUp h.keysUp).sublist (t.recent_sublist.map _)

theorem Kept.matched {t : Track} (h : Kept t) : Matched t where
  keysUp := h.keysUp
  keys key := by
    rw [List.lookup_isSome_iff, h.order, h.senderMeta, CaptureTimeMeta.ofEntries]
    constructor
    · rintro ⟨entry, hentry, hkey⟩
      obtain ⟨p, hp, rfl⟩ := List.mem_map.mp hentry
      exact List.mem_map.mpr ⟨p, hp, (beq_iff_eq.mp hkey).symm⟩
    · intro hkey
      obtain ⟨p, hp, rfl⟩ := List.mem_map.mp hkey
      exact ⟨_, List.mem_map.mpr ⟨p, hp, rfl⟩, beq_self_eq_true _⟩
  order := h.nodup
  atMost := by
    simp only [h.order, List.length_map]
    exact t.length_recent_le
  take p hp := by
    have hnodup := h.nodup
    have hpushed : p ∈ t.pushed := t.recent_sublist.subset hp
    rw [h.senderMeta] at hnodup ⊢
    have hentry : p.entry ∈ t.recent.map Pushed.entry := List.mem_map_of_mem hp
    exact CaptureTimeMeta.take_ofEntries hnodup hentry (h.upToLast p hpushed).1
  own := h.own

/-- Milliseconds that fit go up with their microseconds. -/
theorem Kept.increasing {t : Track} (h : Kept t) : Increasing t := by
  refine h.keysUp.imp_of_mem fun {p q} hp hq hlt => ?_
  have hus : ∀ r ∈ t.pushed, r.captureUs.toInt = r.captureMs.toInt * 1000 := by
    intro r hr
    obtain ⟨hpos, hle, hmul⟩ := h.upToLast r hr
    rw [hmul]
    exact (mul_thousand hpos.le ((Int64.le_iff_toInt_le.mp hle).trans h.last_fits)).1
  rw [Int64.lt_iff_toInt_lt] at hlt ⊢
  rw [hus p hp, hus q hq]
  omega

/-- The sum does not leave the range, and the product does just when the claim is too late. -/
theorem Kept.safe_iff {t : Track} (h : Kept t) {p : Push} {us : Int64}
    (hdecl : p.declares = some us) :
    Safe t p ↔ max (us.toInt.tdiv 1000) (t.lastSendMs.toInt + 1) ≤ LAST_MS := by
  have hnext := nextUniqueCaptureMs_toInt us h.last_nonneg h.last_fits
  have hlo := h.last_nonneg
  have hhi := h.last_fits
  unfold Safe Fits
  rw [hdecl]
  unfold LAST_MS at *
  constructor
  · intro hsafe
    obtain ⟨-, -, hmul⟩ := hsafe us rfl
    rw [hnext] at hmul
    omega
  · intro hfits other hother
    obtain rfl := Option.some.inj hother
    rw [hnext]
    omega

/-- A push that claims a millisecond that fits keeps everything in step. -/
theorem Kept.step {t t' : Track} {p : Push} (h : Kept t) (hsafe : Safe t p)
    (hstep : machine.step t p = some t') : Kept t' := by
  cases hdecl : p.declares with
  | none =>
      rw [step_of_fails hdecl] at hstep
      rwa [← Option.some.inj hstep]
  | some us =>
      obtain ⟨u, hu, hlocal, hcarries, hlast, hpushed, hmeta⟩ :=
        step_of_declares h.isLocal h.carries hdecl
      rw [hu] at hstep
      obtain rfl := Option.some.inj hstep
      have hms : u.lastSendMs.toInt = max (us.toInt.tdiv 1000) (t.lastSendMs.toInt + 1) := by
        rw [hlast]
        exact nextUniqueCaptureMs_toInt _ h.last_nonneg h.last_fits
      have hpast : t.lastSendMs.toInt < u.lastSendMs.toInt := by
        rw [hms]
        exact lt_of_lt_of_le (Int.lt_succ _) (le_max_right _ _)
      have hfits : u.lastSendMs.toInt ≤ LAST_MS := hms ▸ (h.safe_iff hdecl).mp hsafe
      have hpos : 0 < u.lastSendMs.toInt := lt_of_le_of_lt h.last_nonneg hpast
      have hkey : (t.frameOf us p.userData u.lastSendMs).captureMs = u.lastSendMs :=
        (mul_thousand hpos.le hfits).2
      generalize hq : t.frameOf us p.userData u.lastSendMs = q at *
      have hup : u.pushed.Pairwise fun p q => p.captureMs < q.captureMs := by
        rw [hpushed, List.pairwise_append]
        refine ⟨h.keysUp, List.pairwise_singleton _ _, fun r hr s hs => ?_⟩
        rw [List.mem_singleton.mp hs, hkey, Int64.lt_iff_toInt_lt]
        exact lt_of_le_of_lt (Int64.le_iff_toInt_le.mp (h.upToLast r hr).2.1) hpast
      refine ⟨hlocal, hcarries, hpos.le, hfits, ?_, hup, ?_, ?_⟩
      · rw [hpushed]
        intro r hr
        rcases List.mem_append.mp hr with hold | hnew
        · obtain ⟨hr0, hle, hmul⟩ := h.upToLast r hold
          refine ⟨hr0, ?_, hmul⟩
          rw [Int64.le_iff_toInt_le] at hle ⊢
          exact hle.trans hpast.le
        · rw [List.mem_singleton.mp hnew, hkey]
          refine ⟨hpos, Int64.le_refl _, ?_⟩
          rw [← hq]
          rfl
      · have hnodup : ((t.pushed.map Pushed.entry ++ [(q.captureMs, q.metadata)]).map
            Prod.fst).Nodup := by
          have hall := nodup_of_keysUp hup
          rw [hpushed, List.map_append] at hall
          rw [List.map_append, List.map_map]
          exact hall
        rw [hmeta, h.senderMeta, map_recent, map_recent, hpushed, List.map_append,
          CaptureTimeMeta.insert_ofEntries hnodup, List.length_append]
        rfl
      · rw [hpushed]
        intro r hr
        rcases List.mem_append.mp hr with hold | hnew
        · exact h.own r hold
        · rw [List.mem_singleton.mp hnew, ← hq]
          exact t.frameOf_own us p.userData _

/-- A push that claims one too late sends a negative capture time. -/
theorem Kept.step_of_late {t t' : Track} {p : Push} (h : Kept t) (hlate : ¬ Safe t p)
    (hstep : machine.step t p = some t') :
    ∃ q, t'.pushed = t.pushed ++ [q] ∧ q.captureUs.toInt < 0 ∧ q.captureMs ≤ 0 := by
  cases hdecl : p.declares with
  | none =>
      refine absurd (fun us hus => ?_) hlate
      rw [hdecl] at hus
      cases hus
  | some us =>
      obtain ⟨u, hu, -, -, hlast, hpushed, -⟩ := step_of_declares h.isLocal h.carries hdecl
      rw [hu] at hstep
      obtain rfl := Option.some.inj hstep
      have hms : u.lastSendMs.toInt = LAST_MS + 1 := by
        have hclaim := nextUniqueCaptureMs_toInt us h.last_nonneg h.last_fits
        have hnot := mt (h.safe_iff hdecl).mpr hlate
        have hraw := tdiv_le_last us
        have hhi := h.last_fits
        rw [hlast, hclaim]
        omega
      obtain ⟨hneg, hkey⟩ := mul_thousand_wraps hms
      exact ⟨_, hpushed, hneg, hkey⟩

/-! ### Runs -/

theorem step_total (t : Track) (p : Push) : ∃ t', machine.step t p = some t' := ⟨_, rfl⟩

/-- What is claimed in a run is safe as long as it fits. -/
theorem guarded_iff_claimed {t : Track} (h : Kept t) (calls : List Push) :
    machine.Guarded Safe t calls ↔
      claimed t.lastSendMs.toInt (calls.filterMap Push.declares) ≤ LAST_MS := by
  induction calls generalizing t with
  | nil => exact iff_of_true trivial h.last_fits
  | cons p calls ih =>
      cases hdecl : p.declares with
      | none =>
          have hsafe : Safe t p := fun us hus => by
            rw [hdecl] at hus
            cases hus
          rw [machine.guarded_cons (step_of_fails hdecl), ih h, List.filterMap_cons_none hdecl]
          exact and_iff_right hsafe
      | some us =>
          obtain ⟨t', hstep, -, -, hlast, -, -⟩ := step_of_declares h.isLocal h.carries hdecl
          have hms : t'.lastSendMs.toInt = max (us.toInt.tdiv 1000) (t.lastSendMs.toInt + 1) := by
            rw [hlast]
            exact nextUniqueCaptureMs_toInt _ h.last_nonneg h.last_fits
          have hclaim : claimed t.lastSendMs.toInt (us :: calls.filterMap Push.declares)
              = claimed t'.lastSendMs.toInt (calls.filterMap Push.declares) := by
            rw [hms]
            rfl
          rw [machine.guarded_cons hstep, List.filterMap_cons_some hdecl, hclaim]
          constructor
          · rintro ⟨hsafe, hrest⟩
            exact (ih (h.step hsafe hstep)).mp hrest
          · intro hfits
            have hmore := add_length_le_claimed (calls.filterMap Push.declares) t'.lastSendMs.toInt
            have hsafe : Safe t p := by
              rw [h.safe_iff hdecl, ← hms]
              omega
            exact ⟨hsafe, (ih (h.step hsafe hstep)).mpr hfits⟩

theorem guarded_iff_headroom (calls : List Push) :
    machine.Guarded Safe machine.start calls ↔ Headroom (calls.filterMap Push.declares) := by
  rw [headroom_iff]
  exact guarded_iff_claimed kept_start calls

/-- From a start where all is well, all stays well just as long as the steps are safe. -/
theorem along_iff_headroom {P : Track → Prop} (hkept : ∀ t, Kept t → P t)
    (hlate : ∀ t t' p, Kept t → ¬ Safe t p → machine.step t p = some t' → ¬ P t')
    (calls : List Push) :
    machine.Along P machine.start calls ↔ Headroom (calls.filterMap Push.declares) := by
  obtain ⟨t, hrun⟩ := machine.run_total step_total machine.start calls
  rw [← guarded_iff_headroom]
  refine Machine.along_iff_guarded_kept (fun t p t' h _ hsafe hstep => h.step hsafe hstep)
    (fun t p t' h _ hstep => ⟨fun hP => ?_, fun hsafe => hkept _ (h.step hsafe hstep)⟩)
    kept_start (hkept _ kept_start) hrun
  by_contra hunsafe
  exact hlate t t' p h hunsafe hstep hP

theorem not_matched_of_late {t t' : Track} {p : Push} (h : Kept t) (hlate : ¬ Safe t p)
    (hstep : machine.step t p = some t') : ¬ Matched t' := by
  intro hmatched
  obtain ⟨q, hpushed, -, hkey⟩ := h.step_of_late hlate hstep
  have hrecent : q ∈ t'.recent := by
    have hlt : (t.pushed ++ [q]).length - SENDER_META_CAP ≤ t.pushed.length := by
      rw [List.length_append, List.length_singleton]
      unfold SENDER_META_CAP
      omega
    unfold recent
    rw [hpushed, List.drop_append_of_le_length hlt]
    exact List.mem_append_right _ List.mem_cons_self
  have htake := hmatched.take q hrecent
  rw [CaptureTimeMeta.take, if_pos hkey] at htake
  cases htake

/--
**Outgoing metadata reaches its own frame** in every state of a run exactly if the declared
times leave room to be pushed forward.
-/
theorem matched_iff_headroom (calls : List Push) :
    machine.Along Matched machine.start calls ↔ Headroom (calls.filterMap Push.declares) :=
  along_iff_headroom (fun _ h => h.matched) (fun _ _ _ h => not_matched_of_late h) calls

/-- One pixel with this stamp. -/
def pixelAt (us : Int64) : Push :=
  { frame := { pixels := [0, 0, 0, 0], width := 1, height := 1 }
    userData := [7]
    captureTimeUs := some us
    timeMicros := 0 }

/-- A stamp more than a billion microseconds before the end of time is still pushed past it,
by one millisecond for every later push. -/
theorem not_matched_of_many :
    (9223372035854775806 : Int64).toInt < 2 ^ 63 - 1 - 10 ^ 9 ∧
      ¬ machine.Along Matched machine.start
        (List.replicate 1000002 (pixelAt 9223372035854775806)) := by
  refine ⟨by decide, fun h => ?_⟩
  have hdecl : (pixelAt 9223372035854775806).declares = some 9223372035854775806 := by decide
  have hroom := (along_iff_headroom (fun _ h => h.matched) (fun _ _ _ h => not_matched_of_late h)
    _).mp h
  rw [List.filterMap_replicate_of_some hdecl] at hroom
  have hfirst := hroom.2 0 (by rw [List.length_replicate]; decide)
  rw [List.getElem_replicate, List.length_replicate] at hfirst
  revert hfirst
  decide

theorem along_kept_iff (calls : List Push) :
    machine.Along Kept machine.start calls ↔ Headroom (calls.filterMap Push.declares) := by
  refine along_iff_headroom (fun _ h => h) (fun t t' p h hlate hstep hkept => ?_) calls
  obtain ⟨q, hpushed, -, hkey⟩ := h.step_of_late hlate hstep
  have hpos := (hkept.upToLast q (hpushed ▸ List.mem_append_right _ List.mem_cons_self)).1
  exact Int.not_le.mpr hpos (Int64.le_iff_toInt_le.mp hkey)

/--
**The capture times neither overflow nor repeat** exactly if the declared times leave room
to be pushed forward.
-/
theorem captureTimes_iff_headroom (calls : List Push) :
    machine.Guarded Safe machine.start calls ∧ machine.Along Increasing machine.start calls ↔
      Headroom (calls.filterMap Push.declares) := by
  constructor
  · rintro ⟨hsafe, -⟩
    exact (guarded_iff_headroom calls).mp hsafe
  · intro hroom
    have hkept : machine.Along Kept machine.start calls := (along_kept_iff calls).mpr hroom
    exact ⟨(guarded_iff_headroom calls).mpr hroom, hkept.mono fun _ h => h.increasing⟩

/-- The second of two pushes at the largest stamp there is goes out with a negative one. -/
theorem captureTimes_wrap :
    ¬ (machine.Guarded Safe machine.start [pixelAt Int64.maxValue, pixelAt Int64.maxValue] ∧
      machine.Along Increasing machine.start
        [pixelAt Int64.maxValue, pixelAt Int64.maxValue]) := by
  refine fun h => absurd h.2 ?_
  decide +kernel

end Track

end ReactorWebrtc
