/-
What a dropped frame does to the metadata of the others.

A frame that the caller's callback drops never reaches the metadata step, so its entry
stays in the queue, and the next frame that is forwarded takes it.  `InStep` says how the
two queues stand: the frames that have not passed yet are the last ones pushed, and the
metadata not taken yet belongs to them and, before them, to as many frames as were dropped.
So the frames forwarded carry their own metadata exactly as long as none was dropped before
them.

The condition is about answers alone: that the callback answers Forward for no frame after
one for which it answered Drop.  The frames before are sent with their own, however many
there are.
-/
import ReactorWebrtc.Metadata.Forwarding

namespace ReactorWebrtc

namespace Pipeline

/-- Every push comes with user data. -/
def withMetadata : Action → Bool
  | .push _ none _ => false
  | _ => true

def Action.answers (action : FrameAction) : Action → Bool
  | .transform _ _ answer => decide (answer.action = action)
  | _ => false

/-- The frame carries the trailer of its own push, with the user data of that push. -/
def Own (prost : Prost) (pushes : List (Option Bytes)) (x : Sent) : Prop :=
  ∃ m, x.taken = some m ∧ m.push = x.push ∧
    pushes[x.push]? = some (some m.metadata.userData) ∧
    x.bytes = x.payload ++ encodeTrailer prost m.metadata

/-- Every frame forwarded carries its own trailer. -/
def AllOwn (prost : Prost) (s : Pipeline) : Prop := ∀ x ∈ s.sent, Own prost s.pushes x

/-! ### The two queues

A frame that is dropped leaves the one queue and not the other, so what is behind in the
metadata queue grows by one with each, and never falls.
-/

/-- What a step of the pipeline does to them. -/
inductive Queues.Step (prost : Prost) (q : Queues) : Action → Queues → Prop
  | push {data userData : Bytes} {timeMicros : Int} (m : FrameMetadata)
      (hm : m.userData = userData) :
      Step prost q (.push data (some userData) timeMicros) { q with
        waiting := q.waiting ++ [q.pushes.length]
        entries := q.entries ++ [{ metadata := m, push := q.pushes.length }]
        pushes := q.pushes ++ [some userData] }
  | move {a : Action} (ha : ∀ action, a.answers action = false) : Step prost q a q
  | drop {a : Action} {next : Nat} {rest : List Nat} (ha : a.answers .drop = true)
      (hnot : a.answers .forward = false) (hwaiting : q.waiting = next :: rest) :
      Step prost q a { q with waiting := rest, dropped := q.dropped + 1 }
  | forward {a : Action} {rest : List Nat} (x : Sent) (ha : a.answers .forward = true)
      (hnot : a.answers .drop = false) (hwaiting : q.waiting = x.push :: rest)
      (htaken : x.taken = q.entries.head?)
      (hbytes : ∀ m, x.taken = some m → x.bytes = x.payload ++ encodeTrailer prost m.metadata) :
      Step prost q a { q with
        waiting := rest, entries := q.entries.tail, sent := q.sent ++ [x] }

variable {prost : Prost} {s t : Pipeline} {a : Action}

/-- A track that carries metadata, on a sender with a callback and an open gate. -/
structure Embeds (s : Pipeline) : Prop where
  caller : s.slot.caller = true
  metaStep : s.slot.metaStep = some (.embed true)
  enabled : s.track.metadataEnabled = true

theorem forwards_of_not_drop (h : ¬ a.answers .drop = true) : Forwards s a := by
  cases a with
  | transform ssrc timestamp answer =>
      rintro ⟨-, hdrop⟩
      exact h (by simp [Action.answers, hdrop])
  | _ => trivial

/-- A frame that the callback drops leaves its metadata. -/
theorem step_drop (hcaller : s.slot.caller = true) (ha : a.answers .drop = true)
    (hstep : step prost s a = some t) :
    Queues.Step prost s.queues a t.queues ∧ t.slot = s.slot ∧
      t.track.metadataEnabled = s.track.metadataEnabled := by
  cases a with
  | transform ssrc timestamp answer =>
      have haction : answer.action = .drop := of_decide_eq_true ha
      simp only [step] at hstep
      split at hstep
      · rename_i next encoder hencoder
        have hwaiting : s.queues.waiting = next.push ::
            (encoder ++ s.track.queue ++ s.entering.toList).map (·.push) := by
          simp [queues, hencoder]
        rw [ComposedSlot.run_drop _ _ _ hcaller haction] at hstep
        obtain rfl := Option.some.inj hstep
        exact ⟨.drop ha (by simp [Action.answers, haction]) hwaiting, rfl, rfl⟩
      · cases hstep
  | _ => cases ha

/-- Any other frame takes what has waited longest. -/
theorem Queues.Moves.step {q r : Queues} (hmoves : q.Moves prost true (some true) a r)
    (ha : Pipeline.withMetadata a = true) (hnot : ¬ a.answers .drop = true) :
    q.Step prost a r := by
  cases hmoves with
  | plain => cases ha
  | withMetadata m hm => exact .push m hm
  | enqueue => exact .move fun _ => rfl
  | encode => exact .move fun _ => rfl
  | @forward ssrc timestamp answer rest x hwaiting htaken hbytes =>
      have hdrop : answer.action ≠ .drop := fun hdrop => hnot (decide_eq_true hdrop)
      have hforward : answer.action = .forward := by
        cases haction : answer.action with
        | forward => rfl
        | drop => exact absurd haction hdrop
      refine .forward x (decide_eq_true hforward) (decide_eq_false hdrop) hwaiting htaken ?_
      intro m hm
      rw [hbytes, hm]
      rfl

theorem step_queues (h : Embeds s) (ha : withMetadata a = true) (hstep : step prost s a = some t) :
    Queues.Step prost s.queues a t.queues ∧ Embeds t := by
  obtain ⟨hcaller, hmeta, henabled⟩ := h
  have hall : Queues.Step prost s.queues a t.queues ∧ t.slot = s.slot ∧
      t.track.metadataEnabled = s.track.metadataEnabled := by
    by_cases hdrop : a.answers .drop = true
    · exact step_drop hcaller hdrop hstep
    · have hslot : s.slot.metaStep = (some true).map .embed := hmeta
      obtain ⟨hmoves, hkeep⟩ := step_moves hslot (forwards_of_not_drop hdrop) hstep
      rw [henabled] at hmoves
      exact ⟨hmoves.step ha hdrop, hkeep⟩
  obtain ⟨hqueues, hslot, hkeep⟩ := hall
  exact ⟨hqueues, by rw [hslot]; exact hcaller, by rw [hslot]; exact hmeta,
    by rw [hkeep]; exact henabled⟩

/-! ### In step

What has not been taken is the end of what was pushed, and it is longer than the queue of
frames by the number of those dropped.
-/

/-- How the two queues stand to each other. -/
structure InStep (q : Queues) : Prop where
  total : q.sent.length + q.dropped + q.waiting.length = q.pushes.length
  waiting : q.waiting = List.range' (q.sent.length + q.dropped) q.waiting.length
  /-- The metadata of as many frames as were dropped is still there. -/
  entries : q.entries.map (·.push) = List.range' q.sent.length (q.dropped + q.waiting.length)
  userData : ∀ m ∈ q.entries, q.pushes[m.push]? = some (some m.metadata.userData)

theorem InStep.next {q r : Queues} (h : InStep q) (hstep : q.Step prost a r) : InStep r := by
  obtain ⟨htotal, hwaiting, hentries, hdata⟩ := h
  cases hstep with
  | push m hm =>
      refine ⟨?_, ?_, ?_, ?_⟩
      · simp only [List.length_append, List.length_singleton]
        omega
      · rw [List.length_append, List.length_singleton, List.range'_1_concat, ← hwaiting, htotal]
      · rw [List.map_append, hentries, List.length_append, List.length_singleton,
          ← Nat.add_assoc, List.range'_1_concat, ← Nat.add_assoc, htotal]
        rfl
      · intro x hx
        rcases List.mem_append.mp hx with hx | hx
        · have hlt := (List.getElem?_eq_some_iff.mp (hdata x hx)).1
          rw [List.getElem?_append_left hlt]
          exact hdata x hx
        · obtain rfl := List.mem_singleton.mp hx
          simp [hm]
  | move ha => exact ⟨htotal, hwaiting, hentries, hdata⟩
  | @drop a next rest ha hnot hrest =>
      rw [hrest, List.length_cons] at htotal hentries hwaiting
      rw [List.range'_succ] at hwaiting
      refine ⟨?_, (List.cons.inj hwaiting).2, ?_, hdata⟩
      · show q.sent.length + (q.dropped + 1) + rest.length = q.pushes.length
        omega
      · show q.entries.map (·.push) = List.range' q.sent.length (q.dropped + 1 + rest.length)
        rw [hentries]
        congr 1
        omega
  | @forward a rest x ha hnot hrest htaken hbytes =>
      rw [hrest, List.length_cons] at htotal hentries hwaiting
      rw [List.range'_succ] at hwaiting
      have hlength : (q.sent ++ [x]).length = q.sent.length + 1 := by simp
      refine ⟨?_, ?_, ?_, fun m hm => hdata m (List.mem_of_mem_tail hm)⟩
      · rw [hlength]
        show q.sent.length + 1 + q.dropped + rest.length = q.pushes.length
        omega
      · rw [hlength]
        show rest = List.range' (q.sent.length + 1 + q.dropped) rest.length
        rw [Nat.add_right_comm]
        exact (List.cons.inj hwaiting).2
      · rw [hlength]
        show q.entries.tail.map (·.push)
          = List.range' (q.sent.length + 1) (q.dropped + rest.length)
        rw [List.map_tail, hentries, List.tail_range']
        rfl

/-- Sent frames keep the trailer they have. -/
theorem Own.more {pushes : List (Option Bytes)} {x : Sent} (h : Own prost pushes x)
    (data : Option Bytes) : Own prost (pushes ++ [data]) x := by
  obtain ⟨m, htaken, hpush, hdata, hbytes⟩ := h
  have hlt := (List.getElem?_eq_some_iff.mp hdata).1
  exact ⟨m, htaken, hpush, by rw [List.getElem?_append_left hlt]; exact hdata, hbytes⟩

/-- **A frame that is forwarded carries its own trailer exactly when none was dropped.** -/
theorem InStep.own_forward {q : Queues} {x : Sent} {rest : List Nat} (h : InStep q)
    (hwaiting : q.waiting = x.push :: rest) (htaken : x.taken = q.entries.head?)
    (hbytes : ∀ m, x.taken = some m → x.bytes = x.payload ++ encodeTrailer prost m.metadata) :
    Own prost q.pushes x ↔ q.dropped = 0 := by
  have hpush : x.push = q.sent.length + q.dropped := by
    have hrange := h.waiting
    rw [hwaiting, List.length_cons, List.range'_succ] at hrange
    exact (List.cons.inj hrange).1
  have hentries := h.entries
  rw [hwaiting, List.length_cons, ← Nat.add_assoc, List.range'_succ] at hentries
  obtain ⟨m, ms, hm, hfirst, -⟩ := List.map_eq_cons_iff.mp hentries
  have hhead : x.taken = some m := by rw [htaken, hm]; rfl
  constructor
  · rintro ⟨m', htaken', hpush', -⟩
    rw [hhead] at htaken'
    cases htaken'
    omega
  · intro hzero
    have hsame : m.push = x.push := by omega
    refine ⟨m, hhead, hsame, ?_, hbytes m hhead⟩
    rw [← hsame]
    exact h.userData m (by rw [hm]; exact List.mem_cons_self)

theorem Queues.Step.allOwn {q r : Queues} (h : InStep q) (hstep : q.Step prost a r)
    (hown : ∀ x ∈ q.sent, Own prost q.pushes x) :
    (∀ x ∈ r.sent, Own prost r.pushes x) ↔ (0 < q.dropped → ¬ a.answers .forward = true) := by
  cases hstep with
  | push m hm =>
      exact iff_of_true (fun x hx => (hown x hx).more _) fun _ => by simp [Action.answers]
  | move ha => exact iff_of_true hown fun _ => by simp [ha]
  | drop ha hnot hwaiting => exact iff_of_true hown fun _ => by simp [hnot]
  | forward x ha hnot hwaiting htaken hbytes =>
      have hlast := h.own_forward hwaiting htaken hbytes
      constructor
      · intro hall hpos
        have hzero := hlast.mp (hall x (by simp))
        omega
      · intro hzero y hy
        rcases List.mem_append.mp hy with hy | hy
        · exact hown y hy
        · rw [List.mem_singleton.mp hy]
          refine hlast.mpr ?_
          by_contra hne
          exact hzero (Nat.pos_of_ne_zero hne) ha

theorem Queues.Step.dropped {q r : Queues} (hstep : q.Step prost a r) :
    0 < r.dropped ↔ 0 < q.dropped ∨ a.answers .drop = true := by
  cases hstep with
  | push m hm => simp [Action.answers]
  | move ha => simp [ha]
  | drop ha hnot hwaiting => simp [ha]
  | forward x ha hnot hwaiting htaken hbytes => simp [hnot]

/-- A track fed only with metadata, on a sender with a callback and an open gate. -/
def withCallback (prost : Prost) : Machine Pipeline Action :=
  (machine prost { caller := true, metaStep := some (.embed true) }).restrict withMetadata

theorem withCallback_step (h : (withCallback prost).step s a = some t) (hs : Embeds s) :
    Queues.Step prost s.queues a t.queues ∧ Embeds t := by
  obtain ⟨ha, hstep⟩ := (Machine.restrict_step _).mp h
  exact step_queues hs ha hstep

/--
**Every frame forwarded carries its own metadata, all along a run, exactly when the
callback forwards no frame after it has dropped one.**
-/
theorem all_own_iff_no_forward_after_drop (prost : Prost) {as : List Action}
    (hrun : (withCallback prost).run (withCallback prost).start as = some s) :
    (withCallback prost).Along (AllOwn prost) (withCallback prost).start as ↔
      as.Pairwise fun a b => a.answers .drop = true → ¬ b.answers .forward = true := by
  have hstart : Embeds (withCallback prost).start ∧ InStep (withCallback prost).start.queues :=
    ⟨⟨rfl, rfl, rfl⟩, rfl, rfl, rfl, fun m hm => by cases hm⟩
  have hinv : ∀ u a v, Embeds u ∧ InStep u.queues → (withCallback prost).step u a = some v →
      Embeds v ∧ InStep v.queues := by
    rintro u a v ⟨hu, hin⟩ huv
    obtain ⟨hstep, hv⟩ := withCallback_step huv hu
    exact ⟨hv, hin.next hstep⟩
  have hguard := Machine.along_iff_guarded (P := AllOwn prost)
    (G := fun u a => 0 < u.dropped → ¬ a.answers .forward = true) hinv ?_ hstart ?_ hrun
  · rw [hguard, Machine.guarded_iff_pairwise (F := fun a => a.answers .drop = true) hinv ?_
      hstart hrun]
    · exact and_iff_right fun hpos => absurd hpos (Nat.lt_irrefl 0)
    · rintro u a v ⟨hu, -⟩ huv
      exact (withCallback_step huv hu).1.dropped
  · rintro u a v ⟨hu, hin⟩ hown huv
    exact (withCallback_step huv hu).1.allOwn hin hown
  · intro x hx
    cases hx

theorem Own.taken_push {pushes : List (Option Bytes)} {x : Sent} (h : Own prost pushes x) :
    x.taken.map (·.push) = some x.push := by
  obtain ⟨m, htaken, hpush, -⟩ := h
  rw [htaken, ← hpush]
  rfl

/-- A frame is pushed, taken by the encoder, and passes through the slot. -/
def passes (data userData : Bytes) (action : FrameAction) : List Action :=
  [.push data (some userData) 5, .enqueue, .encode, .transform 1 90 { action }]

theorem all_own_iff_no_forward_after_drop_last :
    (withCallback proto3).Along (AllOwn proto3) (withCallback proto3).start
      (passes [1] [10] .forward ++ passes [2] [20] .forward ++ passes [3] [30] .drop) :=
  (all_own_iff_no_forward_after_drop proto3
    ((withCallback proto3).run_final _ _ (by decide +kernel))).mpr (by decide +kernel)

/-- The frame after a dropped one carries the trailer of the dropped one. -/
theorem dropped_frame_shifts_metadata :
    ¬ ∀ s, (withCallback proto3).Reachable s → AllOwn proto3 s := by
  intro h
  have hrun := (withCallback proto3).run_final (withCallback proto3).start
    (passes [1] [10] .drop ++ passes [2] [20] .forward) (by decide +kernel)
  have hown := h _ ⟨_, hrun⟩
  have hpushes := fun x hx => (hown x hx).taken_push
  exact absurd hpushes (by decide +kernel)

end Pipeline

end ReactorWebrtc
