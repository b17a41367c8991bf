/-
What becomes of the frames of a native transformer.

A frame is to go to the sink that was registered for it when it came, its ssrc's or else the
sender's, and only if the callback says 0.  Which sink that is and what the callback said is
known without the transformer: `History` reads it off the actions of a run alone, the
registrations and the answers, with each frame under the number in which it came.  A call is
named in an action by its place among those under way, so the history keeps the numbers of the
frames under way in the same places.

`Told` says of a state what of it the history determines: the sinks registered, as long as
anybody has the transformer, and for each call where it is with its frame.  A step adds to the
one what it adds to the other (`told_step`), and a frame whose call has returned is accounted
for (`Accounted`): it was handed on to its sink, or dropped because of the answer or for want
of a sink.

`transformer_safe` puts that beside what `NativeTransform` has of the objects in use.
-/
import Mathlib.Data.List.InsertIdx
import Mathlib.Data.List.Nodup
import Mathlib.Logic.Function.Basic
import ReactorWebrtc.Metadata.NativeTransform

namespace ReactorWebrtc.NativeTransform

/-- What the actions of a run say of the frames. -/
structure History where
  /-- The sender's sink, and the sink of each ssrc. -/
  send : Option Nat := none
  recv : Nat → Option Nat := fun _ => none
  /-- How many frames have come. -/
  count : Nat := 0
  /-- The frames under way, in the places of their calls. -/
  underWay : List Nat := []
  /-- The frames that came, with the sink registered for each then. -/
  came : List (Nat × Option Nat) := []
  answers : List (Nat × Int) := []
  /-- The frames whose call is over. -/
  returned : List Nat := []

namespace History

/-- The history with one more action. -/
def next (h : History) : Action → History
  | .register none i => { h with send := some i }
  | .register (some ssrc) i => { h with recv := Function.update h.recv ssrc (some i) }
  | .unregister none => { h with send := none }
  | .unregister (some ssrc) => { h with recv := Function.update h.recv ssrc none }
  | .transform ssrc =>
    { h with
      count := h.count + 1
      underWay := h.underWay ++ [h.count]
      came := h.came ++ [(h.count, (h.recv ssrc).or h.send)] }
  | .answer k emit => { h with answers := h.answers ++ (h.underWay[k]?.map (·, emit)).toList }
  | .finish k =>
    { h with
      underWay := h.underWay.eraseIdx k
      returned := h.returned ++ h.underWay[k]?.toList }
  | _ => h

/-- The frame was not to be handed on: the callback said so, or there was no sink for it. -/
def Refused (h : History) (n : Nat) : Prop :=
  (∃ emit, emit ≠ 0 ∧ (n, emit) ∈ h.answers) ∨ (n, 0) ∈ h.answers ∧ (n, none) ∈ h.came

end History

def history (as : List Action) : History := as.foldl History.next {}

theorem history_concat (as : List Action) (a : Action) :
    history (as ++ [a]) = (history as).next a := List.foldl_concat ..

/-- What became of the frames of a run is what the registrations and the answers say. -/
structure Accounted (h : History) (s : State) : Prop where
  /-- Every frame is under way or has returned, once. -/
  frames : (h.returned ++ h.underWay).Perm (List.range h.count)
  /-- The callback answers once for a frame. -/
  answers : (h.answers.map Prod.fst).Nodup
  /-- Nothing is handed on but to its sink, and after an answer that says so. -/
  passedOn : ∀ n i, (n, i) ∈ s.passedOn → (n, some i) ∈ h.came ∧ (n, 0) ∈ h.answers
  /-- What has returned was handed on if it was to be, -/
  handedOn : ∀ n ∈ h.returned, ∀ i,
    (n, i) ∈ s.passedOn ↔ (n, some i) ∈ h.came ∧ (n, 0) ∈ h.answers
  /-- and else it was dropped. -/
  dropped : ∀ n, n ∈ s.dropped ↔ n ∈ h.returned ∧ h.Refused n

/-! ### What the history determines

Whether a frame may be dropped is settled by its answer, and where it may go by what was
registered when it came.  So a call stands somewhere that the history allows (`Stands`), and
the frames that have returned are in one of two lists.
-/

/-- Where a call is with its frame. -/
structure Stands (came : List (Nat × Option Nat)) (answers : List (Nat × Int))
    (passedOn : List (Nat × Nat)) (c : Call) : Prop where
  came : (c.frame, c.sink) ∈ came
  /-- Before the callback has answered. -/
  asked : c.stage = .picked ∨ c.stage = .running → ∀ emit, (c.frame, emit) ∉ answers
  answered : ∀ emit, c.stage = .answered emit → (c.frame, emit) ∈ answers
  passed : c.stage = .passed → ∃ i, (c.frame, i) ∈ passedOn

structure Told (h : History) (s : State) : Prop where
  frames : s.frames = h.count
  calls : s.calls.map Call.frame = h.underWay
  /-- Until the transformer is let go of. -/
  registry : 0 < s.refs → (∀ ssrc, s.recvSinks.lookup ssrc = h.recv ssrc) ∧ s.sendSink = h.send
  came : h.came.map Prod.fst = List.range h.count
  under : (h.returned ++ h.underWay).Perm (List.range h.count)
  stands : ∀ c ∈ s.calls, Stands h.came h.answers s.passedOn c
  answers : (h.answers.map Prod.fst).Nodup
  known : ∀ n emit, (n, emit) ∈ h.answers → n < h.count
  passedOn : ∀ n i, (n, i) ∈ s.passedOn → (n, some i) ∈ h.came ∧ (n, 0) ∈ h.answers
  dropped : ∀ n ∈ s.dropped, n ∈ h.returned ∧ h.Refused n
  returned : ∀ n ∈ h.returned, (∃ i, (n, i) ∈ s.passedOn) ∨ n ∈ s.dropped

variable {s t : State} {h : History} {a : Action} {k : Nat} {c : Call}

theorem told_start : Told (history []) machine.start where
  frames := rfl
  calls := rfl
  registry _ := ⟨fun _ => rfl, rfl⟩
  came := rfl
  under := .refl _
  stands c hc := by cases hc
  answers := List.nodup_nil
  known n emit hn := by cases hn
  passedOn n i hn := by cases hn
  dropped n hn := by cases hn
  returned n hn := by cases hn

/-- A step of which the frames know nothing. -/
theorem Told.same (ht : Told h s) (hframes : t.frames = s.frames) (hcalls : t.calls = s.calls)
    (hpassed : t.passedOn = s.passedOn) (hdropped : t.dropped = s.dropped)
    (hregistry : 0 < t.refs →
      0 < s.refs ∧ t.recvSinks = s.recvSinks ∧ t.sendSink = s.sendSink) : Told h t where
  frames := hframes.trans ht.frames
  calls := by rw [hcalls, ht.calls]
  registry hrefs := by
    obtain ⟨hbefore, hrecv, hsend⟩ := hregistry hrefs
    rw [hrecv, hsend]
    exact ht.registry hbefore
  came := ht.came
  under := ht.under
  stands := by
    rw [hcalls, hpassed]
    exact ht.stands
  answers := ht.answers
  known := ht.known
  passedOn := by
    rw [hpassed]
    exact ht.passedOn
  dropped := by
    rw [hdropped]
    exact ht.dropped
  returned := by
    rw [hpassed, hdropped]
    exact ht.returned

/-- A reference given up: what was registered stays, or nobody is left. -/
theorem Told.letGo (ht : Told h s) (hobject : s.object.Held (s.refs + 1)) : Told h s.letGo := by
  unfold State.letGo
  by_cases hlast : s.object.count = 1
  · rw [if_pos hlast]
    refine { ht with registry := fun hrefs => ?_ }
    have hcount := hobject.count
    have hsame : 0 < s.refs := hrefs
    omega
  · rw [if_neg hlast]
    exact { ht with }

/-! ### Registering

The registrations are the same in both, as long as the transformer is there to have any;
when it goes, its sinks go with it, and no frame comes any more.
-/

theorem lookup_filter_ne (l : List (Nat × Nat)) (x y : Nat) :
    (l.filter (·.1 != x)).lookup y = if y = x then none else l.lookup y := by
  induction l with
  | nil => simp
  | cons e l ih =>
      obtain ⟨z, i⟩ := e
      by_cases hz : z = x
      · subst hz
        rw [List.filter_cons_of_neg (by simp), ih]
        by_cases hy : y = z
        · rw [if_pos hy, if_pos hy]
        · rw [if_neg hy, if_neg hy, List.lookup_cons, beq_false_of_ne hy]
      · rw [List.filter_cons_of_pos (by simpa using hz), List.lookup_cons, List.lookup_cons, ih]
        by_cases hy : y = z
        · rw [hy, beq_self_eq_true]
          exact (if_neg hz).symm
        · rw [beq_false_of_ne hy]

/-- A key is taken off, in the transformer and in the history. -/
theorem Told.unregister (ht : Told h s) (key : Option Nat) (hrefs : 0 < s.refs) :
    Told (h.next (.unregister key)) (effect s (.unregister key)) := by
  obtain ⟨hrecv, hsend⟩ := ht.registry hrefs
  cases key with
  | none => exact { ht with registry := fun _ => ⟨hrecv, rfl⟩ }
  | some ssrc =>
      refine { ht with registry := fun _ => ⟨fun y => ?_, hsend⟩ }
      show (s.recvSinks.filter (·.1 != ssrc)).lookup y = Function.update h.recv ssrc none y
      rw [lookup_filter_ne, Function.update_apply, hrecv]

theorem Told.register (ht : Told h s) (key : Option Nat) (i : Nat) (hrefs : 0 < s.refs) :
    Told (h.next (.register key i)) (effect s (.register key i)) := by
  obtain ⟨hrecv, hsend⟩ := ht.registry hrefs
  cases key with
  | none => exact { ht with registry := fun _ => ⟨hrecv, rfl⟩ }
  | some ssrc =>
      refine { ht with registry := fun _ => ⟨fun y => ?_, hsend⟩ }
      show ((ssrc, i) :: s.recvSinks.filter (·.1 != ssrc)).lookup y =
        Function.update h.recv ssrc (some i) y
      rw [List.lookup_cons, lookup_filter_ne, Function.update_apply, hrecv]
      by_cases hy : y = ssrc
      · rw [hy, beq_self_eq_true, if_pos rfl]
        exact (if_pos rfl).symm
      · rw [beq_false_of_ne hy, if_neg hy, if_neg hy]

/-! ### A frame and its call -/

/-- A frame under way has come, and no other call has it. -/
theorem Told.frame_lt (ht : Told h s) (hc : c ∈ s.calls) : c.frame < h.count := by
  refine List.mem_range.mp (ht.under.subset (List.mem_append_right _ ?_))
  rw [← ht.calls]
  exact List.mem_map_of_mem hc

theorem Told.nodup (ht : Told h s) : (h.returned ++ h.underWay).Nodup :=
  ht.under.nodup_iff.mpr List.nodup_range

theorem Told.transform (ht : Told h s) (ssrc : Nat) (hrefs : 0 < s.refs) :
    Told (h.next (.transform ssrc)) (effect s (.transform ssrc)) := by
  obtain ⟨hrecv, hsend⟩ := ht.registry hrefs
  have hpick : s.pick ssrc = (h.recv ssrc).or h.send := by rw [State.pick, hrecv, hsend]
  have hnew : ∀ n emit, (n, emit) ∈ h.answers → n ≠ h.count := fun n emit hn =>
    Nat.ne_of_lt (ht.known n emit hn)
  refine ⟨congrArg (· + 1) ht.frames, ?_, fun _ => ⟨hrecv, hsend⟩, ?_, ?_, fun c hc => ?_,
    ht.answers, fun n emit hn => Nat.lt_succ_of_lt (ht.known n emit hn), fun n i hn => ?_,
    fun n hn => ?_, ht.returned⟩
  · show (s.calls ++ [_]).map Call.frame = h.underWay ++ [h.count]
    rw [List.map_append, ht.calls, List.map_singleton, ht.frames]
  · show (h.came ++ [_]).map Prod.fst = List.range (h.count + 1)
    rw [List.map_append, ht.came, List.range_succ]
    rfl
  · show (h.returned ++ (h.underWay ++ [h.count])).Perm (List.range (h.count + 1))
    rw [← List.append_assoc, List.range_succ]
    exact ht.under.append_right _
  · rcases List.mem_append.mp hc with hc | hc
    · have hold := ht.stands c hc
      exact ⟨List.mem_append_left _ hold.came, hold.asked, hold.answered, hold.passed⟩
    · obtain rfl := List.mem_singleton.mp hc
      refine ⟨List.mem_append_right _ (List.mem_singleton.mpr ?_), fun _ emit hn => ?_, nofun, nofun⟩
      · rw [ht.frames, hpick]
      · exact hnew _ emit hn ht.frames
  · obtain ⟨hcame, hanswer⟩ := ht.passedOn n i hn
    exact ⟨List.mem_append_left _ hcame, hanswer⟩
  · obtain ⟨hreturned, hrefused⟩ := ht.dropped n hn
    exact ⟨hreturned, hrefused.imp id fun hnone => ⟨hnone.1, List.mem_append_left _ hnone.2⟩⟩

/-- The call at a place, among the others. -/
structure At (h : History) (s : State) (k : Nat) (c : Call) : Prop where
  call : s.calls[k]? = some c
  frame : h.underWay[k]? = some c.frame
  goto : ∀ stage, (s.goto k stage).map Call.frame = h.underWay
  /-- After the call has gone on, the others are where they were. -/
  others : ∀ stage, ∀ c' ∈ s.goto k stage, c' = { c with stage } ∨
    c' ∈ s.calls ∧ c'.frame ≠ c.frame
  erased : (s.calls.eraseIdx k).map Call.frame = h.underWay.eraseIdx k

theorem Told.at (ht : Told h s) {p : Call → Bool} (hen : s.callIs k p) :
    ∃ c, p c = true ∧ At h s k c := by
  obtain ⟨l, c, r, hc, hck, hcalls, hgoto, -⟩ := State.callIs_split hen
  have hframe : h.underWay[k]? = some c.frame := by rw [← ht.calls, List.getElem?_map, hck]; rfl
  have hnodup : ((l ++ c :: r).map Call.frame).Nodup := by
    rw [← hcalls, ht.calls]
    exact (List.nodup_append.mp ht.nodup).2.1
  refine ⟨c, hc, hck, hframe, fun stage => ?_, fun stage c' hc' => ?_, ?_⟩
  · rw [hgoto, ← ht.calls, hcalls, List.map_append, List.map_append]
    rfl
  · rw [hgoto] at hc'
    rw [List.map_append, List.map_cons, List.nodup_middle, List.nodup_cons,
      ← List.map_append] at hnodup
    have hout : ∀ c' ∈ l ++ r, c'.frame ≠ c.frame := fun c' hc' heq =>
      hnodup.1 (heq ▸ List.mem_map_of_mem hc')
    rcases List.mem_append.mp hc' with hl | hr
    · refine .inr ⟨?_, hout c' (List.mem_append_left _ hl)⟩
      rw [hcalls]
      exact List.mem_append_left _ hl
    · rcases List.mem_cons.mp hr with rfl | hr
      · exact .inl rfl
      · refine .inr ⟨?_, hout c' (List.mem_append_right _ hr)⟩
        rw [hcalls]
        exact List.mem_append_right _ (List.mem_cons_of_mem _ hr)
  · rw [← ht.calls, List.eraseIdx_map]

theorem Told.invoke (ht : Told h s) (hen : s.callIs k (·.stage == .picked)) :
    Told h (effect s (.invoke k)) := by
  obtain ⟨c, hstage, hat⟩ := ht.at hen
  have hrefs : 0 < s.refs := Inv.call_refs hen
  refine { ht with calls := hat.goto _, registry := fun _ => ht.registry hrefs, stands := ?_ }
  intro c' hc'
  rcases hat.others _ c' hc' with rfl | ⟨hc', -⟩
  · have hold := ht.stands c (List.mem_of_getElem? hat.call)
    exact ⟨hold.came, fun _ => hold.asked (.inl (eq_of_beq hstage)), nofun, nofun⟩
  · exact ht.stands c' hc'

theorem Told.answer (ht : Told h s) (emit : Int) (hen : s.callIs k (·.stage == .running)) :
    Told (h.next (.answer k emit)) (effect s (.answer k emit)) := by
  obtain ⟨c, hstage, hat⟩ := ht.at hen
  have hrefs : 0 < s.refs := Inv.call_refs hen
  have hc := List.mem_of_getElem? hat.call
  have hold := ht.stands c hc
  have hnext : h.next (.answer k emit) =
      { h with answers := h.answers ++ [(c.frame, emit)] } := by
    rw [History.next, hat.frame]
    rfl
  rw [hnext]
  refine ⟨ht.frames, hat.goto _, fun _ => ht.registry hrefs, ht.came, ht.under, fun c' hc' => ?_,
    ?_, fun n e hn => ?_, fun n i hn => ?_, fun n hn => ?_, ht.returned⟩
  · rcases hat.others _ c' hc' with rfl | ⟨hc', hne⟩
    · refine ⟨hold.came, nofun, fun e he => ?_, nofun⟩
      obtain rfl : emit = e := Stage.answered.inj he
      exact List.mem_append_right _ List.mem_cons_self
    · have hother := ht.stands c' hc'
      refine ⟨hother.came, fun hasked e hn => ?_, fun e he => ?_, hother.passed⟩
      · rcases List.mem_append.mp hn with hn | hn
        · exact hother.asked hasked e hn
        · exact hne (Prod.mk.inj (List.mem_singleton.mp hn)).1
      · exact List.mem_append_left _ (hother.answered e he)
  · rw [List.map_append, List.map_singleton, List.nodup_append]
    refine ⟨ht.answers, List.nodup_singleton _, fun n hn m hm heq => ?_⟩
    obtain ⟨⟨n', e⟩, hmem, rfl⟩ := List.mem_map.mp hn
    rw [List.mem_singleton.mp hm] at heq
    change n' = c.frame at heq
    exact hold.asked (.inr (eq_of_beq hstage)) e (heq ▸ hmem)
  · rcases List.mem_append.mp hn with hn | hn
    · exact ht.known n e hn
    · rw [(Prod.mk.inj (List.mem_singleton.mp hn)).1]
      exact ht.frame_lt hc
  · obtain ⟨hcame, hanswer⟩ := ht.passedOn n i hn
    exact ⟨hcame, List.mem_append_left _ hanswer⟩
  · obtain ⟨hreturned, hrefused⟩ := ht.dropped n hn
    refine ⟨hreturned, hrefused.imp ?_ fun hnone => ⟨List.mem_append_left _ hnone.1, hnone.2⟩⟩
    rintro ⟨e, he, hmem⟩
    exact ⟨e, he, List.mem_append_left _ hmem⟩

theorem Told.pass (ht : Told h s) (hen : s.callIs k Call.goes) : Told h (effect s (.pass k)) := by
  obtain ⟨c, hgoes, hat⟩ := ht.at hen
  have hrefs : 0 < s.refs := Inv.call_refs hen
  have hold := ht.stands c (List.mem_of_getElem? hat.call)
  unfold Call.goes at hgoes
  rw [Bool.and_eq_true, beq_iff_eq, Option.isSome_iff_exists] at hgoes
  obtain ⟨hstage, i, hi⟩ := hgoes
  have hpassed : (effect s (.pass k)).passedOn = (c.frame, i) :: s.passedOn := by
    show (s.frameOf k).zip (s.sinkOf k).toList ++ s.passedOn = _
    rw [State.frameOf, State.sinkOf, hat.call]
    simp [hi]
  refine ⟨ht.frames, hat.goto _, fun _ => ht.registry hrefs, ht.came, ht.under, fun c' hc' => ?_,
    ht.answers, ht.known, fun n j hn => ?_, ht.dropped, fun n hn => ?_⟩
  · rw [hpassed]
    rcases hat.others _ c' hc' with rfl | ⟨hc', -⟩
    · exact ⟨hold.came, nofun, nofun, fun _ => ⟨i, List.mem_cons_self⟩⟩
    · have hother := ht.stands c' hc'
      refine ⟨hother.came, hother.asked, hother.answered, fun hstage => ?_⟩
      obtain ⟨j, hj⟩ := hother.passed hstage
      exact ⟨j, List.mem_cons_of_mem _ hj⟩
  · rw [hpassed] at hn
    rcases List.mem_cons.mp hn with heq | hn
    · obtain ⟨rfl, rfl⟩ := Prod.mk.inj heq
      exact ⟨hi ▸ hold.came, hold.answered 0 hstage⟩
    · exact ht.passedOn n j hn
  · rw [hpassed]
    refine (ht.returned n hn).imp ?_ id
    rintro ⟨j, hj⟩
    exact ⟨j, List.mem_cons_of_mem _ hj⟩

theorem Told.finish (ht : Told h s) (hen : s.callIs k Call.ended) :
    Told (h.next (.finish k)) (effect s (.finish k)) := by
  obtain ⟨c, hended, hat⟩ := ht.at hen
  have hrefs : 0 < s.refs := Inv.call_refs hen
  have hold := ht.stands c (List.mem_of_getElem? hat.call)
  have hnext : h.next (.finish k) =
      { h with underWay := h.underWay.eraseIdx k, returned := h.returned ++ [c.frame] } := by
    rw [History.next, hat.frame]
    rfl
  have hdropped : (effect s (.finish k)).dropped =
      (if c.holdsFrame then [c.frame] else []) ++ s.dropped := by
    show (if s.calls[k]?.any Call.holdsFrame then s.frameOf k else []) ++ s.dropped = _
    rw [State.frameOf, hat.call]
    rfl
  -- a frame that the call still has is not to be handed on
  have hrefused : c.holdsFrame = true → h.Refused c.frame := by
    intro hholds
    unfold Call.ended at hended
    cases hstage : c.stage with
    | picked | running =>
        rw [hstage] at hended
        cases hended
    | passed =>
        rw [Call.holdsFrame, hstage] at hholds
        cases hholds
    | answered emit =>
        rw [hstage] at hended
        by_cases hemit : emit = 0
        · subst hemit
          have hnone : c.sink = none := by simpa using hended
          exact .inr ⟨hold.answered 0 hstage, hnone ▸ hold.came⟩
        · exact .inl ⟨emit, hemit, hold.answered emit hstage⟩
  have hperm : ((h.returned ++ [c.frame]) ++ h.underWay.eraseIdx k).Perm
      (h.returned ++ h.underWay) := by
    rw [List.append_assoc]
    refine List.Perm.append_left _ ?_
    obtain ⟨hk, hget⟩ := List.getElem?_eq_some_iff.mp hat.frame
    rw [← hget]
    exact List.getElem_cons_eraseIdx_perm hk
  rw [hnext]
  refine ⟨ht.frames, hat.erased, fun _ => ht.registry hrefs, ht.came, hperm.trans ht.under,
    fun c' hc' => ht.stands c' (List.mem_of_mem_eraseIdx hc'), ht.answers, ht.known, ht.passedOn,
    fun n hn => ?_, fun n hn => ?_⟩
  · rw [hdropped] at hn
    rcases List.mem_append.mp hn with hn | hn
    · split at hn
      · rename_i hholds
        rw [List.mem_singleton.mp hn]
        exact ⟨List.mem_append_right _ List.mem_cons_self, hrefused hholds⟩
      · cases hn
    · obtain ⟨hreturned, hwhy⟩ := ht.dropped n hn
      exact ⟨List.mem_append_left _ hreturned, hwhy⟩
  · rw [hdropped]
    rcases List.mem_append.mp hn with hn | hn
    · exact (ht.returned n hn).imp id (List.mem_append_right _)
    · rw [List.mem_singleton.mp hn]
      by_cases hholds : c.holdsFrame = true
      · refine .inr (List.mem_append_left _ ?_)
        rw [if_pos hholds]
        exact List.mem_cons_self
      · refine .inl (hold.passed ?_)
        rw [Call.holdsFrame, bne_iff_ne, ne_eq, not_not] at hholds
        exact hholds

/-! ### Run by run -/

theorem told_step (hinv : Inv s) (ht : Told h s) (hstep : machine.step s a = some t) :
    Told (h.next a) t := by
  obtain ⟨hen, rfl⟩ := Machine.ofEffect_step.mp hstep
  cases a with
  | attach =>
      refine ht.same rfl rfl rfl rfl fun _ => ⟨?_, rfl, rfl⟩
      unfold State.refs
      rw [show s.handle = true from hen, Bool.toNat_true]
      omega
  | share => exact ht.same rfl rfl rfl rfl fun _ => ⟨Inv.refs_pos_of_users hen, rfl, rfl⟩
  | detach =>
      have hrefs : s.refs = ({ s with users := s.users - 1 } : State).refs + 1 := by
        have husers : 0 < s.users := hen
        unfold State.refs
        dsimp only
        omega
      refine Told.letGo (s := { s with users := s.users - 1 })
        (ht.same rfl rfl rfl rfl fun hpos => ⟨by omega, rfl, rfl⟩) (hrefs ▸ hinv.object)
  | destroy =>
      have hrefs : s.refs = ({ s with handle := false } : State).refs + 1 := by
        unfold State.refs
        dsimp only
        rw [show s.handle = true from hen, Bool.toNat_true, Bool.toNat_false]
        omega
      refine Told.letGo (s := { s with handle := false })
        (ht.same rfl rfl rfl rfl fun hpos => ⟨by omega, rfl, rfl⟩) (hrefs ▸ hinv.object)
  | makeSink i | shareSink i | dropSink i =>
      exact ht.same rfl rfl rfl rfl fun hpos => ⟨hpos, rfl, rfl⟩
  | register key i => exact ht.register key i (Inv.refs_pos_of_users hen.1)
  | unregister key => exact ht.unregister key (Inv.refs_pos_of_users hen)
  | transform ssrc => exact ht.transform ssrc (Inv.refs_pos_of_users hen)
  | invoke k => exact ht.invoke hen
  | answer k emit => exact ht.answer emit hen
  | pass k => exact ht.pass hen
  | finish k => exact ht.finish hen

/-- The frames are in order in every run. -/
theorem told {as : List Action} (hrun : machine.run machine.start as = some s) :
    Told (history as) s := by
  refine (Machine.history (P := fun as s => Inv s ∧ Told (history as) s) ⟨inv_start, told_start⟩
    (fun as s a t _ hs hstep => ⟨inv_step s a t hs.1 hstep, ?_⟩) hrun).2
  rw [history_concat]
  exact told_step hs.1 hs.2 hstep

/-- What came with one sink did not come with another, and what was answered was answered once. -/
theorem Told.accounted (ht : Told h s) : Accounted h s := by
  have hcame : ∀ n x y, (n, x) ∈ h.came → (n, y) ∈ h.came → x = y := by
    intro n x y hx hy
    have hnodup : (h.came.map Prod.fst).Nodup := ht.came ▸ List.nodup_range
    exact (Prod.mk.inj (List.inj_on_of_nodup_map hnodup hx hy rfl)).2
  have hanswers : ∀ n x y, (n, x) ∈ h.answers → (n, y) ∈ h.answers → x = y := by
    intro n x y hx hy
    exact (Prod.mk.inj (List.inj_on_of_nodup_map ht.answers hx hy rfl)).2
  have hapart : ∀ n i, (n, i) ∈ s.passedOn → ¬ h.Refused n := by
    intro n i hn hrefused
    obtain ⟨hsink, hzero⟩ := ht.passedOn n i hn
    rcases hrefused with ⟨emit, hemit, hanswer⟩ | ⟨-, hnone⟩
    · exact hemit (hanswers n emit 0 hanswer hzero)
    · cases hcame n _ _ hsink hnone
  refine ⟨ht.under, ht.answers, ht.passedOn, fun n hn i => ⟨ht.passedOn n i, ?_⟩,
    fun n => ⟨ht.dropped n, ?_⟩⟩
  · rintro ⟨hsink, hzero⟩
    rcases ht.returned n hn with ⟨j, hj⟩ | hdropped
    · obtain rfl := Option.some.inj (hcame n _ _ hsink (ht.passedOn n j hj).1)
      exact hj
    · exfalso
      rcases (ht.dropped n hdropped).2 with ⟨emit, hemit, hanswer⟩ | ⟨-, hnone⟩
      · exact hemit (hanswers n emit 0 hanswer hzero)
      · cases hcame n _ _ hsink hnone
  · rintro ⟨hreturned, hrefused⟩
    rcases ht.returned n hreturned with ⟨j, hj⟩ | hdropped
    · exact absurd hrefused (hapart n j hj)
    · exact hdropped

/--
**A transformer is there as long as it is used, and every frame goes where it is to go.**  In
every run nothing is used, and nothing freed, that is not there, and the callback goes with
the last who has the transformer; and what became of the frames is what the registrations and
the callback's answers say: each goes on, once, to the sink registered for it when it came, if
the callback said 0, and is dropped, once, if it did not or there was none.
-/
theorem transformer_safe {as : List Action} (hrun : machine.run machine.start as = some s) :
    Safe s ∧ Accounted (history as) s :=
  ⟨safe_of_reachable ⟨as, hrun⟩, (told hrun).accounted⟩

/-- Two frames of one ssrc, whose sink is taken off with the first in the callback; the second
goes to the sender's sink, and a third is dropped. -/
def threeFrames : List Action :=
  inFlight.take 3 ++
    [.makeSink 1, .register none 1, .register (some 7) 0, .transform 7, .unregister (some 7),
      .dropSink 0, .share, .transform 7, .share, .transform 7, .invoke 0, .invoke 1, .invoke 2,
      .answer 1 0, .answer 0 0, .answer 2 5, .pass 1, .pass 0, .finish 2, .finish 0, .finish 0]

theorem transformer_safe_threeFrames : ∃ s, machine.run machine.start threeFrames = some s ∧
    Safe s ∧ Accounted (history threeFrames) s ∧ s.passedOn = [(0, 0), (1, 1)] ∧ s.dropped = [2] ∧
    (history threeFrames).came = [(0, some 0), (1, some 1), (2, some 1)] ∧
    (history threeFrames).answers = [(1, 0), (0, 0), (2, 5)] :=
  ⟨_, rfl, (@transformer_safe _ threeFrames rfl).1,
    (@transformer_safe _ threeFrames rfl).2, rfl, rfl, rfl, rfl⟩

end ReactorWebrtc.NativeTransform
