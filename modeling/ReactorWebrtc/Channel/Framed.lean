/-
What leaves a chunked channel.

The frames the native channel has accepted are the ones `nextFrame` returned, in that
order, and the one on its way is the last of them; a frame is lost only when the native
channel refuses it.  `Ledger` keeps that account.

A message that leaves as it is does so through the plain branch of `send`, which a call
takes on finding the channel not open.  By the time it gets to its native send the
channel may have opened, and decided.  `Unopened` rules that out, and
`only_frames_iff_unopened` says that nothing else puts an unframed message on the
channel.
-/
import ReactorWebrtc.Channel.View

namespace ReactorWebrtc

namespace Channel

/-- The frames among what was handed over. -/
def framesOf (handed : List Handed) : List Bytes :=
  handed.filterMap fun
    | .frame f => some f
    | .plain _ _ => none

/-- The frame a thread has from `nextFrame` and is about to send. -/
def inHand : Option Inside → List Bytes
  | some (.native f) => [f]
  | _ => []

structure Ledger (v : View) : Prop where
  sublist : (framesOf v.shared.handed ++ inHand v.inside).Sublist v.shared.returned
  /-- As long as none was refused, none is missing. -/
  exact : v.shared.refused = false →
    framesOf v.shared.handed ++ inHand v.inside = v.shared.returned

theorem framesOf_append_frame (handed : List Handed) (f : Bytes) :
    framesOf (handed ++ [.frame f]) = framesOf handed ++ [f] := by
  simp [framesOf]

theorem framesOf_append_plain (handed : List Handed) (data : Bytes) (binary : Bool) :
    framesOf (handed ++ [.plain data binary]) = framesOf handed := by
  simp [framesOf]

variable {s t : Shared}

/-- A step that neither takes a frame nor sends one. -/
theorem Ledger.keep {pc pc' : Option Inside} (h : Ledger ⟨s, pc⟩)
    (hhanded : framesOf t.handed = framesOf s.handed) (hreturned : t.returned = s.returned)
    (hrefused : t.refused = s.refused) (hpc : inHand pc' = inHand pc) : Ledger ⟨t, pc'⟩ := by
  obtain ⟨hsub, hexact⟩ := h
  constructor
  · show (framesOf t.handed ++ inHand pc').Sublist t.returned
    rw [hhanded, hreturned, hpc]
    exact hsub
  · show t.refused = false → framesOf t.handed ++ inHand pc' = t.returned
    rw [hhanded, hreturned, hrefused, hpc]
    exact hexact

theorem Ledger.outside {pc : Option Inside} (h : Ledger ⟨s, pc⟩) (hout : Outside s t) :
    Ledger ⟨t, pc⟩ := by
  cases hout with
  | plain data binary hopen => exact h.keep (framesOf_append_plain ..) rfl rfl rfl
  | _ => exact h.keep rfl rfl rfl rfl

theorem Ledger.moves {pc : Inside} {pc' : Option Inside} {m : Moved} (h : Ledger ⟨s, some pc⟩)
    (hmove : Moves s pc t m) (hpc' : pc' = match m with | .stay p => some p | _ => none) :
    Ledger ⟨t, pc'⟩ := by
  subst hpc'
  cases hmove with
  | @frame amount seen fresh f queue hemits =>
      obtain ⟨hsub, hexact⟩ := h
      simp only [inHand, List.append_nil] at hsub hexact
      constructor
      · exact hsub.append (List.Sublist.refl [f])
      · intro hrefused
        show framesOf s.handed ++ [f] = s.returned ++ [f]
        rw [hexact hrefused]
  | send f hopen =>
      obtain ⟨hsub, hexact⟩ := h
      constructor
      · show (framesOf (s.handed ++ [Handed.frame f]) ++ []).Sublist s.returned
        rw [framesOf_append_frame, List.append_nil]
        exact hsub
      · show s.refused = false → framesOf (s.handed ++ [Handed.frame f]) ++ [] = s.returned
        rw [framesOf_append_frame, List.append_nil]
        exact hexact
  | refuse f hopen =>
      refine ⟨?_, fun hrefused => by cases hrefused⟩
      show (framesOf s.handed ++ []).Sublist s.returned
      rw [List.append_nil]
      exact (List.sublist_append_left _ _).trans h.sublist
  | settle sent after => exact h.keep rfl rfl rfl (by cases sent <;> rfl)
  | _ => exact h.keep rfl rfl rfl rfl

theorem Ledger.step {v w : View} (h : Ledger v) (hstep : View.Step v w) : Ledger w := by
  cases hstep with
  | outside hout => exact h.outside hout
  | take i hlock => exact h.keep rfl rfl rfl rfl
  | stay hmove => exact h.moves hmove rfl
  | leave hmove hm =>
      refine h.moves hmove ?_
      rcases hm with rfl | rfl <;> rfl

/-! ### Unframed messages

The plain branch is taken by what a call has read, and the native send comes later.  What
has to be ruled out is therefore said of the step that sends, by the stage of its call and
by the native state before it.
-/

/-- Everything handed over is a frame of the queue's. -/
def State.OnlyFrames (s : State) : Prop :=
  ∀ x ∈ s.shared.handed, ∃ f ∈ s.shared.returned, x = .frame f

/-- A send that found the channel not open gets to its native send before it opens. -/
def State.Unopened (s : State) : Action → Prop
  | .step i =>
    match s.calls i with
    | .plain _ _ => s.shared.native ≠ .opened
    | _ => True
  | _ => True

/-- What is known of every state of a run. -/
structure Kept (s : State) : Prop where
  owns : s.Owns
  ledger : Ledger s.view

variable {config : SendConfig} {valid : config.validate = .ok ()}

theorem kept_start : Kept (machine config valid).start where
  owns i := by
    constructor
    · intro hi
      cases hi
    · intro hi
      cases hi
  ledger := ⟨List.Sublist.refl _, fun _ => rfl⟩

variable {s t : State}

theorem Kept.next {a : Action} (h : Kept s) (hstep : step s a = some t) : Kept t := by
  obtain ⟨hview, howns⟩ := step_view h.owns hstep
  exact ⟨howns, h.ledger.step hview⟩

/-- With frames only, each of them is one that was returned. -/
theorem Kept.onlyFrames (h : Kept s) (hframes : ∀ x ∈ s.shared.handed, ∃ f, x = .frame f) :
    s.OnlyFrames := by
  intro x hx
  obtain ⟨f, rfl⟩ := hframes x hx
  refine ⟨f, ?_, rfl⟩
  have hf : f ∈ framesOf s.shared.handed := List.mem_filterMap.mpr ⟨_, hx, rfl⟩
  exact h.ledger.sublist.subset (List.mem_append_left _ hf)

/-- What is handed over grows by a frame or not at all, a plain send apart. -/
theorem handed_step {a : Action} (hstep : step s a = some t)
    (hplain : ∀ i data binary, a = .step i → s.calls i ≠ .plain data binary) :
    t.shared.handed = s.shared.handed ∨ ∃ f, t.shared.handed = s.shared.handed ++ [.frame f] := by
  cases step_steps hstep with
  | step i hadvance =>
      generalize hc : s.calls i = c at hadvance
      cases hadvance with
      | plain hopen => exact absurd hc (hplain i _ _ rfl)
      | inside k hmove =>
          cases hmove with
          | send f hopen => exact .inr ⟨f, rfl⟩
          | _ => exact .inl rfl
      | _ => exact .inl rfl
  | _ => exact .inl rfl

theorem Kept.onlyFrames_step {a : Action} (h : Kept s) (honly : s.OnlyFrames)
    (hstep : step s a = some t) : t.OnlyFrames ↔ s.Unopened a := by
  have hold : ∀ x ∈ s.shared.handed, ∃ f, x = Handed.frame f := by
    intro x hx
    obtain ⟨f, -, hf⟩ := honly x hx
    exact ⟨f, hf⟩
  by_cases hplain : ∃ i data binary, a = .step i ∧ s.calls i = .plain data binary
  · obtain ⟨i, data, binary, rfl, hc⟩ := hplain
    have hguard : s.Unopened (.step i) ↔ s.shared.native ≠ .opened := by
      simp [State.Unopened, hc]
    rw [hguard]
    simp only [step, hc, advance] at hstep
    split at hstep
    · rename_i hopen
      obtain rfl := Option.some.inj hstep
      refine iff_of_false ?_ fun hne => hne hopen
      intro ht
      obtain ⟨f, -, hf⟩ := ht (.plain data binary) (by simp [State.goto])
      cases hf
    · rename_i hopen
      obtain rfl := Option.some.inj hstep
      exact iff_of_true honly hopen
  · have hnot : ∀ i data binary, a = .step i → s.calls i ≠ .plain data binary :=
      fun i data binary ha hc => hplain ⟨i, data, binary, ha, hc⟩
    refine iff_of_true ?_ ?_
    · refine (h.next hstep).onlyFrames ?_
      rcases handed_step hstep hnot with hsame | ⟨f, hmore⟩
      · rw [hsame]
        exact hold
      · rw [hmore]
        intro x hx
        rcases List.mem_append.mp hx with hx | hx
        · exact hold x hx
        · exact ⟨f, List.mem_singleton.mp hx⟩
    · unfold State.Unopened
      split
      · rename_i i
        split
        · rename_i data binary hc
          exact absurd hc (hnot i data binary rfl)
        · trivial
      · trivial

/--
**Only frames leave the channel, all along a run, exactly when no send that found it
not open gets to its native send once it is.**
-/
theorem only_frames_iff_unopened (config : SendConfig) (valid : config.validate = .ok ())
    {as : List Action}
    (hrun : (machine config valid).run (machine config valid).start as = some s) :
    (machine config valid).Along State.OnlyFrames (machine config valid).start as ↔
      (machine config valid).Guarded State.Unopened (machine config valid).start as := by
  refine Machine.along_iff_guarded (I := Kept) ?_ ?_ kept_start ?_ hrun
  · intro u a v hu huv
    exact hu.next huv
  · intro u a v hu honly huv
    exact hu.onlyFrames_step honly huv
  · intro x hx
    cases hx

instance (s : State) : Decidable s.OnlyFrames :=
  decidable_of_iff (∀ x ∈ s.shared.handed, x ∈ s.shared.returned.map .frame) (by
    unfold State.OnlyFrames
    simp only [List.mem_map, eq_comm])

instance (s : State) (a : Action) : Decidable (s.Unopened a) :=
  match a with
  | .step i =>
    match h : s.calls i with
    | .plain _ _ => decidable_of_iff (s.shared.native ≠ .opened) (by simp [State.Unopened, h])
    | .idle | .ask _ | .look _ | .prepare _ | .decide _ _ | .check _ _ | .push _ _ | .arm
    | .sent _ | .store _ | .tryLock _ | .recheck _ | .inside _ _ | .early _ | .threshold _
    | .fireRead | .fireQueued _ _ | .fireSwap | .closeRead _ | .closeQueued _ _
    | .closeState _ | .closeNative _ _ | .closed _ _ | .done =>
      .isTrue (by simp [State.Unopened, h])
  | .call _ _ | .expire _ | .native _ | .closedEvent | .drain _ => .isTrue trivial

/-- The configuration a channel has by default. -/
theorem default_valid : ({} : SendConfig).validate = .ok () := rfl

/-- A send asks and finds the channel connecting, the channel opens and decides, and the
send goes on. -/
def sendAcrossOpen : List Action :=
  .call 0 (.send [7] true) :: (steps 0 2 ++
    .native .opened :: .call 1 .query :: (steps 1 4 ++ steps 0 1))

/-- The same two calls, the send after the opening. -/
theorem only_frames_iff_unopened_after_open :
    (machine {} default_valid).Along State.OnlyFrames (machine {} default_valid).start
      (.native .opened :: .call 1 .query :: (steps 1 4 ++
        .call 0 (.send [7] true) :: steps 0 13)) :=
  (only_frames_iff_unopened {} default_valid
    ((machine {} default_valid).run_final _ _ (by decide +kernel))).mpr (by decide +kernel)

theorem message_can_leave_unframed :
    ¬ ∀ s, (machine {} default_valid).Reachable s → s.OnlyFrames := by
  intro h
  have hrun := (machine {} default_valid).run_final (machine {} default_valid).start
    sendAcrossOpen (by decide +kernel)
  exact absurd (h _ (Machine.Reachable.start.run hrun)) (by decide +kernel)

end Channel

end ReactorWebrtc
