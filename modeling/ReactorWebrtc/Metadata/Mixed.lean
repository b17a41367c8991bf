/-
Pushes with and without metadata on one track.

A push without metadata puts nothing in the metadata queue, and its frame asks the queue
like any other when it passes the slot.  The frame it was meant for is then still on its
way: what the queue holds is the metadata of the frames behind.  So a plain frame goes out
as it was pushed only if nothing behind it carries metadata (`inTurn`); otherwise it takes
the metadata of the next frame that does.

Once a plain frame has taken an entry, the queue is short of one, and the frame it was for
finds the next one's or nothing.  The theorem is about the first such frame: up to it all is
well.
-/
import ReactorWebrtc.Metadata.Dropped

namespace ReactorWebrtc

namespace Pipeline

/-- Whether the push came with metadata. -/
def carries (pushes : List (Option Bytes)) (push : Nat) : Bool := pushes[push]?.join.isSome

/-- The next frame carries metadata, or no frame behind it does. -/
def Queues.inTurn (q : Queues) : Bool :=
  match q.waiting with
  | next :: rest => carries q.pushes next || rest.all fun push => !carries q.pushes push
  | [] => true

/-- A frame that was pushed plain is sent as it is, any other with its own trailer. -/
def OwnOrNone (prost : Prost) (pushes : List (Option Bytes)) (x : Sent) : Prop :=
  if pushes[x.push]? = some none then x.taken = none ∧ x.bytes = x.payload
  else Own prost pushes x

/-- A track that carries metadata, on a sender with an open gate that drops no frame. -/
def mixed (prost : Prost) (caller : Bool) : Machine Pipeline Action :=
  (machine prost { caller, metaStep := some (.embed true) }).restrict
    fun a => !a.answers .drop

/-- The metadata that waits is that of the frames that wait, in their order. -/
structure Aligned (q : Queues) : Prop where
  known : ∀ push ∈ q.waiting, push < q.pushes.length
  entries : q.entries.map (·.push) = q.waiting.filter (carries q.pushes)
  userData : ∀ m ∈ q.entries, q.pushes[m.push]? = some (some m.metadata.userData)

variable {prost : Prost} {q r : Queues} {a : Action} {s : Pipeline}

theorem carries_append {pushes : List (Option Bytes)} {push : Nat} (h : push < pushes.length)
    (data : Option Bytes) : carries (pushes ++ [data]) push = carries pushes push := by
  unfold carries
  rw [List.getElem?_append_left h]

theorem carries_last (pushes : List (Option Bytes)) (data : Option Bytes) :
    carries (pushes ++ [data]) pushes.length = data.isSome := by
  unfold carries
  rw [List.getElem?_concat_length]
  rfl

theorem plain_of_not_carries {pushes : List (Option Bytes)} {push : Nat}
    (hlt : push < pushes.length) (h : carries pushes push = false) :
    pushes[push]? = some none := by
  unfold carries at h
  rw [List.getElem?_eq_getElem hlt] at h ⊢
  cases hdata : pushes[push] with
  | none => rfl
  | some userData => rw [hdata] at h; cases h

theorem OwnOrNone.more {pushes : List (Option Bytes)} {x : Sent} (h : OwnOrNone prost pushes x)
    (data : Option Bytes) : OwnOrNone prost (pushes ++ [data]) x := by
  unfold OwnOrNone at h ⊢
  by_cases hplain : pushes[x.push]? = some none
  · have hlt := (List.getElem?_eq_some_iff.mp hplain).1
    rw [if_pos hplain] at h
    rwa [List.getElem?_append_left hlt, if_pos hplain]
  · rw [if_neg hplain] at h
    have hown : Own prost pushes x := h
    obtain ⟨m, -, -, hdata, -⟩ := h
    have hlt := (List.getElem?_eq_some_iff.mp hdata).1
    rw [List.getElem?_append_left hlt, if_neg hplain]
    exact hown.more data

theorem OwnOrNone.taken_none {pushes : List (Option Bytes)} {x : Sent}
    (h : OwnOrNone prost pushes x) (hplain : pushes[x.push]? = some none) : x.taken = none := by
  unfold OwnOrNone at h
  rw [if_pos hplain] at h
  exact h.1

/-! ### What a push and a passing frame do

The entries are those of the waiting frames that carry metadata, in their order (`Aligned`).
A frame that carries some finds its own first, and a plain frame finds that of the first
behind it.
-/

/-- A push adds to both queues or to neither of the entries and the frames that carry. -/
theorem Aligned.push (h : Aligned q) {data : Option Bytes} {entries : List QueuedMeta}
    (hentries : entries = q.entries ∧ data = none ∨
      ∃ m : FrameMetadata, data = some m.userData ∧
        entries = q.entries ++ [{ metadata := m, push := q.pushes.length }]) :
    Aligned { q with
      waiting := q.waiting ++ [q.pushes.length], entries, pushes := q.pushes ++ [data] } := by
  have hold : q.waiting.filter (carries (q.pushes ++ [data])) =
      q.waiting.filter (carries q.pushes) :=
    List.filter_congr fun push hpush => carries_append (h.known push hpush) data
  have hdata : ∀ m ∈ q.entries,
      (q.pushes ++ [data])[m.push]? = some (some m.metadata.userData) := by
    intro m hm
    have hm := h.userData m hm
    rw [List.getElem?_append_left (List.getElem?_eq_some_iff.mp hm).1]
    exact hm
  have hknown : ∀ push ∈ q.waiting ++ [q.pushes.length], push < (q.pushes ++ [data]).length := by
    intro push hpush
    rw [List.length_append, List.length_singleton]
    rcases List.mem_append.mp hpush with hpush | hpush
    · exact Nat.lt_succ_of_lt (h.known push hpush)
    · rw [List.mem_singleton.mp hpush]
      exact Nat.lt_succ_self _
  rcases hentries with ⟨rfl, rfl⟩ | ⟨m, rfl, rfl⟩
  · refine ⟨hknown, ?_, hdata⟩
    rw [List.filter_append, hold, h.entries, List.filter_singleton, carries_last]
    simp
  · refine ⟨hknown, ?_, ?_⟩
    · rw [List.filter_append, hold, List.map_append, h.entries, List.filter_singleton, carries_last]
      rfl
    · intro x hx
      rcases List.mem_append.mp hx with hx | hx
      · exact hdata x hx
      · rw [List.mem_singleton.mp hx]
        exact List.getElem?_concat_length

/-- The first metadata is that of the next frame, if that one carries any. -/
theorem Aligned.head_of_carries (h : Aligned q) {next : Nat} {rest : List Nat}
    (hwaiting : q.waiting = next :: rest) (hnext : carries q.pushes next = true) :
    ∃ m ms, q.entries = m :: ms ∧ m.push = next ∧
      ms.map (·.push) = rest.filter (carries q.pushes) := by
  have hentries := h.entries
  rw [hwaiting, List.filter_cons_of_pos hnext] at hentries
  exact List.map_eq_cons_iff.mp hentries

/-- Ahead of a plain frame there is only metadata of the frames behind it. -/
theorem Aligned.entries_of_plain (h : Aligned q) {next : Nat} {rest : List Nat}
    (hwaiting : q.waiting = next :: rest) (hnext : carries q.pushes next = false) :
    q.entries = [] ↔ q.inTurn = true := by
  have hentries := h.entries
  rw [hwaiting, List.filter_cons_of_neg (by simp [hnext])] at hentries
  rw [← List.map_eq_nil_iff, hentries, List.filter_eq_nil_iff]
  unfold Queues.inTurn
  rw [hwaiting]
  simp [hnext]

/-- A frame that passes leaves the queues aligned if it is in turn. -/
theorem Aligned.pass (h : Aligned q) {next : Nat} {rest : List Nat}
    (hwaiting : q.waiting = next :: rest) (hturn : q.inTurn = true) (sent : List Sent) :
    Aligned { q with waiting := rest, entries := q.entries.tail, sent } := by
  have hknown : ∀ push ∈ rest, push < q.pushes.length := by
    intro push hpush
    exact h.known push (by rw [hwaiting]; exact List.mem_cons_of_mem next hpush)
  refine ⟨hknown, ?_, fun m hm => h.userData m (List.mem_of_mem_tail hm)⟩
  show q.entries.tail.map (·.push) = rest.filter (carries q.pushes)
  cases hnext : carries q.pushes next with
  | true =>
      obtain ⟨m, ms, hentries, -, hrest⟩ := h.head_of_carries hwaiting hnext
      rw [hentries]
      exact hrest
  | false =>
      have hempty := (h.entries_of_plain hwaiting hnext).mpr hturn
      have hentries := h.entries
      rw [hwaiting, List.filter_cons_of_neg (by simp [hnext])] at hentries
      rw [hempty] at hentries ⊢
      exact hentries

/-- The frame is sent with what it was pushed with exactly if it is in turn. -/
theorem Aligned.own_iff_inTurn (h : Aligned q) {x : Sent} {rest : List Nat}
    (hwaiting : q.waiting = x.push :: rest) (htaken : x.taken = q.next (some true))
    (hbytes : x.bytes = x.payload ++ appended prost (some true) x.taken) :
    OwnOrNone prost q.pushes x ↔ q.inTurn = true := by
  have htaken : x.taken = q.entries.head? := htaken
  have hlt : x.push < q.pushes.length := h.known _ (by rw [hwaiting]; exact List.mem_cons_self)
  unfold OwnOrNone
  cases hnext : carries q.pushes x.push with
  | true =>
      obtain ⟨m, ms, hentries, hpush, -⟩ := h.head_of_carries hwaiting hnext
      have hdata := h.userData m (by rw [hentries]; exact List.mem_cons_self)
      rw [hpush] at hdata
      rw [hentries] at htaken
      rw [if_neg (by rw [hdata]; simp)]
      refine iff_of_true ⟨m, htaken, hpush, hdata, ?_⟩ ?_
      · rw [hbytes, htaken]
        rfl
      · unfold Queues.inTurn
        rw [hwaiting]
        simp [hnext]
  | false =>
      rw [if_pos (plain_of_not_carries hlt hnext), ← h.entries_of_plain hwaiting hnext, htaken]
      constructor
      · rintro ⟨hnone, -⟩
        exact List.head?_eq_none_iff.mp hnone
      · intro hempty
        refine ⟨by rw [hempty]; rfl, ?_⟩
        rw [hbytes, htaken, hempty]
        exact List.append_nil _

theorem Queues.Moves.aligned (h : Aligned q) (hstep : q.Moves prost true (some true) a r)
    (hturn : a.passes = true → q.inTurn = true) : Aligned r := by
  cases hstep with
  | plain => exact h.push (.inl ⟨rfl, rfl⟩)
  | withMetadata m hm => exact h.push (.inr ⟨m, by rw [hm], rfl⟩)
  | enqueue => exact h
  | encode => exact h
  | forward x hwaiting htaken hbytes => exact h.pass hwaiting (hturn rfl) _

theorem Queues.Moves.ownOrNone (h : Aligned q) (hstep : q.Moves prost true (some true) a r)
    (hown : ∀ x ∈ q.sent, OwnOrNone prost q.pushes x) :
    (∀ x ∈ r.sent, OwnOrNone prost r.pushes x) ↔ (a.passes = true → q.inTurn = true) := by
  cases hstep with
  | plain => exact iff_of_true (fun x hx => (hown x hx).more _) fun hpass => by cases hpass
  | withMetadata m hm =>
      exact iff_of_true (fun x hx => (hown x hx).more _) fun hpass => by cases hpass
  | enqueue => exact iff_of_true hown fun hpass => by cases hpass
  | encode => exact iff_of_true hown fun hpass => by cases hpass
  | forward x hwaiting htaken hbytes =>
      have hlast := h.own_iff_inTurn hwaiting htaken hbytes
      constructor
      · intro hall _
        exact hlast.mp (hall x (by simp))
      · intro hturn y hy
        rcases List.mem_append.mp hy with hy | hy
        · exact hown y hy
        · rw [List.mem_singleton.mp hy]
          exact hlast.mpr (hturn rfl)

/-! ### Runs -/

/-- Every frame sent goes out with what it was pushed with. -/
def AllOwnOrNone (prost : Prost) (s : Pipeline) : Prop := ∀ x ∈ s.sent, OwnOrNone prost s.pushes x

structure Mixes (s : Pipeline) : Prop where
  metaStep : s.slot.metaStep = some (.embed true)
  enabled : s.track.metadataEnabled = true
  aligned : Aligned s.queues

theorem mixed_step {caller : Bool} {t : Pipeline} (h : Mixes s)
    (hstep : (mixed prost caller).step s a = some t) :
    Queues.Moves prost true (some true) s.queues a t.queues ∧
      t.slot = s.slot ∧ t.track.metadataEnabled = s.track.metadataEnabled := by
  obtain ⟨hallowed, hstep⟩ := (Machine.restrict_step _).mp hstep
  have hforwards : Forwards s a := forwards_of_not_drop (by simpa using hallowed)
  have hslot : s.slot.metaStep = (some true).map .embed := h.metaStep
  have hmoves := step_moves hslot hforwards hstep
  rw [h.enabled] at hmoves ⊢
  exact hmoves

/--
**Every frame is sent with what it was pushed with, all along a run, exactly when every frame
that passes the slot is in turn.**
-/
theorem all_own_or_none_iff_in_turn (prost : Prost) (caller : Bool) {as : List Action}
    (hrun : (mixed prost caller).run (mixed prost caller).start as = some s) :
    (mixed prost caller).Along (AllOwnOrNone prost) (mixed prost caller).start as ↔
      (mixed prost caller).Guarded (fun u a => a.passes = true → u.queues.inTurn = true)
        (mixed prost caller).start as := by
  have hstart : Mixes (mixed prost caller).start := by
    refine ⟨rfl, rfl, ?_, rfl, ?_⟩
    · intro push hpush
      exact absurd hpush List.not_mem_nil
    · intro m hm
      exact absurd hm List.not_mem_nil
  refine Machine.along_iff_guarded_kept (I := Mixes) ?_ ?_ hstart ?_ hrun
  · intro u a v hu _ hturn hstep
    obtain ⟨hmoves, hslot, henabled⟩ := mixed_step hu hstep
    exact ⟨hslot ▸ hu.metaStep, henabled ▸ hu.enabled, hmoves.aligned hu.aligned hturn⟩
  · intro u a v hu hown hstep
    exact (mixed_step hu hstep).1.ownOrNone hu.aligned hown
  · intro x hx
    exact absurd hx List.not_mem_nil

/-- A plain frame is sent before one with metadata is pushed, and another one after it. -/
theorem all_own_or_none_iff_in_turn_waits :
    (mixed proto3 false).Along (AllOwnOrNone proto3) (mixed proto3 false).start
      [.push [1] none 5, .enqueue, .encode, .transform 1 90 { action := .forward },
        .push [2] (some [20]) 6, .enqueue, .encode, .push [3] none 7, .enqueue,
        .transform 1 91 { action := .forward }, .encode,
        .transform 1 92 { action := .forward }] :=
  (all_own_or_none_iff_in_turn proto3 false
    ((mixed proto3 false).run_final _ _ (by decide +kernel))).mpr (by decide +kernel)

/-- The plain frame takes the metadata of the frame behind it, which goes without. -/
theorem plain_frame_takes_metadata :
    ¬ ∀ s, (mixed proto3 false).Reachable s → AllOwnOrNone proto3 s := by
  intro h
  have hrun := (mixed proto3 false).run_final (mixed proto3 false).start
    [.push [1] none 5, .enqueue, .push [2] (some [20]) 6, .enqueue, .encode,
      .transform 1 90 { action := .forward }] (by decide +kernel)
  have hown := h _ ⟨_, hrun⟩
  have hplain := fun x hx => (hown x hx).taken_none
  exact absurd hplain (by decide +kernel)

end Pipeline

end ReactorWebrtc
