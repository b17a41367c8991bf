/-
No request to pump is lost.

A caller of the pump sets `pump_again` and tries the lock; when the lock is busy it
leaves, and relies on the holder to see the flag.  Two facts carry the argument.  While
the flag is set some thread is still in the pump, since whoever leaves has either found
the lock held or found the flag clear.  And the last message accepted is owed a pass
that starts after it: `Owed` says, for every place the holder can be at, whether that
pass is still to come, under way, or done, and until a thread between its push and its
flag has set it the debt is that thread's.

So once nobody is in the pump or on the way to it, the last pass read its amount after
the last message was accepted, and it stopped either with the queue empty or at the
high-water mark.  The last thread to have held the lock need not be the one that made
that pass: the flag it set may have been taken by the holder before it.
-/
import ReactorWebrtc.Channel.Framed
import ReactorWebrtc.Channel.Buffer

namespace ReactorWebrtc

namespace Channel

/-- On the way to the flag, with a message accepted or a pass to ask for. -/
def Call.asking : Call → Bool
  | .arm | .store _ => true
  | _ => false

/-- Where a thread is only after the native channel refused its frame. -/
def Inside.refusing : Inside → Bool
  | .measure false | .settle false _ | .failed | .leave => true
  | _ => false

/-- The flag is set, or somebody is on the way to set it. -/
def State.Asked (s : State) : Prop :=
  s.shared.pumpAgain = true ∨ ∃ i, (s.calls i).asking = true

/-- Nothing is left to send, or the last pass found no room after the last message came. -/
def Shared.Good (s : Shared) : Prop :=
  s.queue.pending = [] ∨ ∃ p, s.lastPass = some p ∧ p.fresh = true ∧
    s.queue.config.highWater ≤ p.amount ∧ p.seen = s.accepted.length

/-- The pass that the last message is owed. -/
def State.Owed (s : State) : Option Inside → Prop
  | some (.note _ seen) | some (.build _ _ seen) => seen = s.shared.accepted.length ∨ s.Asked
  | some .load | some .read | some (.native _) | some (.measure _) | some (.settle _ _) => True
  | _ => s.Asked ∨ s.shared.Good

structure Served (s : State) : Prop where
  kept : Kept s
  refused : ∀ pc, s.view.inside = some pc → pc.refusing = true → s.shared.refused = true
  trust : ∀ amount fresh seen, s.view.inside = some (.build amount fresh seen) →
    fresh = false → amount ≤ s.shared.trustBelow
  /-- While the flag is set, somebody is in the pump. -/
  heard : s.shared.refused = false → s.shared.pumpAgain = true → ∃ i, (s.calls i).inPump = true
  owed : s.shared.refused = false → s.Owed s.view.inside

variable {s t : State} {i : Nat} {c c' : Call} {shared : Shared}

/-! ### The flag

A thread sets the flag before it tries the lock, and the holder clears it before it makes
its pass.  So a flag that is set has somebody in the pump who will see it.
-/

theorem Call.asking_inPump_or_arm (h : c.asking = true) : c = .arm ∨ c.inPump = true := by
  cases c with
  | arm => exact .inl rfl
  | store k => exact .inr rfl
  | _ => cases h

theorem Call.inPump_of_holds (h : c.holds = true) : c.inPump = true := by
  cases c with
  | inside k pc => rfl
  | _ => cases h

theorem Call.not_inPump_of_aside (h : c.aside = true) : c.inPump = false := by
  cases hc : c.inPump with
  | false => rfl
  | true => simp [Call.aside, hc] at h

theorem Call.not_asking_of_aside (h : c.aside = true) : c.asking = false := by
  cases c with
  | arm => cases h
  | store k => cases h
  | _ => rfl

/-- Another thread that is in the pump stays there. -/
theorem inPump_goto (h : ∃ j, j ≠ i ∧ (s.calls j).inPump = true) :
    ∃ j, ((s.goto shared i c').calls j).inPump = true := by
  obtain ⟨j, hj, hpump⟩ := h
  exact ⟨j, by rw [goto_of_ne s shared c' hj]; exact hpump⟩

/-- A thread that moves on keeps the flag heard, unless it was the one in the pump. -/
theorem heard_goto (h : s.shared.pumpAgain = true → ∃ j, (s.calls j).inPump = true)
    (hflag : shared.pumpAgain = true → s.shared.pumpAgain = true)
    (hpump : (s.calls i).inPump = true → c'.inPump = true) :
    shared.pumpAgain = true → ∃ j, ((s.goto shared i c').calls j).inPump = true := by
  intro hset
  obtain ⟨j, hj⟩ := h (hflag hset)
  by_cases hji : j = i
  · subst hji
    exact ⟨j, by rw [goto_self]; exact hpump hj⟩
  · exact inPump_goto ⟨j, hji, hj⟩

theorem Advances.heard (hadvance : Advances s i (s.calls i) t) (h : Served s)
    (hold : s.shared.refused = false) :
    t.shared.pumpAgain = true → ∃ j, (t.calls j).inPump = true := by
  have hheard := h.heard hold
  generalize hc : s.calls i = c at hadvance
  cases hadvance with
  | aside decided early user armed notified haside hquiet =>
      refine heard_goto hheard (fun hset => hset) fun hin => ?_
      rw [hc, Call.not_inPump_of_aside haside] at hin
      cases hin
  | store k => exact fun _ => ⟨i, by rw [goto_self]; rfl⟩
  | take k hlock => exact fun _ => ⟨i, by rw [goto_self]; rfl⟩
  | again k hagain => exact fun _ => ⟨i, by rw [goto_self]; rfl⟩
  | busy k j hlock =>
      intro _
      have hj : (s.calls j).holds = true := (h.kept.owns j).mpr hlock
      refine inPump_goto ⟨j, ?_, Call.inPump_of_holds hj⟩
      rintro rfl
      rw [hc] at hj
      cases hj
  | rest k hrest =>
      intro hset
      rw [show (s.goto s.shared i k.next).shared = s.shared from rfl, hrest] at hset
      cases hset
  | @inside k pc shared m hmove =>
      cases hmove with
      | leave =>
          have hview := (view_holder h.kept.owns hc).2
          have hwas := h.refused .leave (by rw [hview]) rfl
          rw [hold] at hwas
          cases hwas
      | _ => exact fun _ => ⟨i, by rw [goto_self]; rfl⟩
  | _ =>
      refine heard_goto hheard (fun hset => hset) fun hin => ?_
      rw [hc] at hin
      cases hin

/-! ### The pass that is owed

The debt begins with a push and is paid by a pass that reads its amount afterwards.  In
between it changes hands: from the thread that pushed to the flag, and from the flag to the
thread under the lock.
-/

/-- Somebody on the way to the flag is still on the way, or has set it. -/
theorem asked_goto (h : s.Asked) (hflag : s.shared.pumpAgain = true → shared.pumpAgain = true)
    (hcall : (s.calls i).asking = true → c'.asking = true ∨ shared.pumpAgain = true) :
    (s.goto shared i c').Asked := by
  rcases h with hset | ⟨j, hj⟩
  · exact .inl (hflag hset)
  · by_cases hji : j = i
    · subst hji
      rcases hcall hj with hasking | hset
      · exact .inr ⟨j, by rw [goto_self]; exact hasking⟩
      · exact .inl hset
    · exact .inr ⟨j, by rw [goto_of_ne s shared c' hji]; exact hj⟩

/-- What is owed at a place stays owed when nothing it depends on changes. -/
theorem State.Owed.mono {inside : Option Inside} (h : s.Owed inside)
    (hasked : s.Asked → t.Asked) (haccepted : t.shared.accepted = s.shared.accepted)
    (hgood : s.shared.Good → t.shared.Good) : t.Owed inside := by
  have hpass : ∀ seen, (seen = s.shared.accepted.length ∨ s.Asked) →
      seen = t.shared.accepted.length ∨ t.Asked := by
    intro seen hseen
    rw [haccepted]
    exact hseen.imp_right hasked
  have hrest : s.Asked ∨ s.shared.Good → t.Asked ∨ t.shared.Good := Or.imp hasked hgood
  cases inside with
  | none => exact hrest h
  | some pc =>
      cases pc with
      | note n seen => exact hpass seen h
      | build amount fresh seen => exact hpass seen h
      | load | read | native | measure | settle => trivial
      | _ => exact hrest h

/-- Whoever has asked is owed nothing more before the flag is looked at. -/
theorem State.Asked.owed (h : t.Asked) (inside : Option Inside) : t.Owed inside := by
  cases inside with
  | none => exact .inl h
  | some pc =>
      cases pc with
      | note n seen => exact .inr h
      | build amount fresh seen => exact .inr h
      | load | read | native | measure | settle => trivial
      | _ => exact .inl h

/-- A step under the lock. -/
theorem Served.owed_moves (h : Served s) {k : Pumper} {pc : Inside} {m : Moved}
    (hc : s.calls i = .inside k pc) (hmove : Moves s.shared pc shared m)
    (hold : s.shared.refused = false) (hrefused : shared.refused = false) :
    (s.goto shared i (m.next k)).Owed (match m with | .stay pc' => some pc' | _ => none) := by
  have hview := (view_holder h.kept.owns hc).2
  have howed : s.Owed (some pc) := by
    have howed := h.owed hold
    rwa [hview] at howed
  have hnot : pc.refusing = false := by
    cases hr : pc.refusing with
    | false => rfl
    | true =>
        have hwas := h.refused pc (by rw [hview]) hr
        rw [hold] at hwas
        cases hwas
  have hcall : (s.calls i).asking = true → False := by
    intro hasking
    rw [hc] at hasking
    cases hasking
  have hasked : ∀ {shared : Shared} {c' : Call},
      (s.shared.pumpAgain = true → shared.pumpAgain = true) → s.Asked →
        (s.goto shared i c').Asked :=
    fun hflag ha => asked_goto ha hflag fun hasking => (hcall hasking).elim
  cases hmove with
  | again hagain => trivial
  | done hdone => exact howed.imp (hasked fun hset => hset) fun hgood => hgood
  | trust htrust => exact .inl rfl
  | doubt hdoubt => trivial
  | read => exact .inl rfl
  | note n seen => exact howed.imp (fun hseen => hseen) (hasked fun hset => hset)
  | frame hemits => trivial
  | @stop amount seen fresh hheld =>
      rcases howed with hseen | hwas
      · right
        rcases hheld with hfull | hempty
        · refine .inr ⟨_, rfl, ?_, hfull, hseen⟩
          cases hfresh : fresh with
          | true => rfl
          | false =>
              have htrust := h.trust amount fresh seen (by rw [hview]) hfresh
              have hwater := s.shared.queue.config_valid.water
              unfold Shared.trustBelow at htrust
              omega
        · exact .inl hempty
      · exact .inl (hasked (fun hset => hset) hwas)
  | send frame hopen => trivial
  | refuse frame hopen => cases hrefused
  | measure sent => trivial
  | settle sent after =>
      cases sent with
      | true => trivial
      | false => cases hnot
  | failed => cases hnot
  | leave => cases hnot
  | unlock => exact howed.imp (hasked fun hset => hset) fun hgood => hgood

/-- A step of a call outside the lock that asks for nothing and brings nothing. -/
theorem Served.owed_goto (h : Served s) (hold : s.shared.refused = false)
    (hnow : (s.calls i).holds = false) (hc' : c'.holds = false)
    (hlock : shared.lock = s.shared.lock) (haccepted : shared.accepted = s.shared.accepted)
    (hflag : shared.pumpAgain = s.shared.pumpAgain) (hnot : (s.calls i).asking = false)
    (hgood : s.shared.Good → shared.Good) :
    (s.goto shared i c').Owed (s.goto shared i c').view.inside := by
  rw [(view_goto h.kept.owns hlock hnow hc').1]
  refine (h.owed hold).mono ?_ haccepted hgood
  intro hasked
  refine asked_goto hasked (fun hset => hflag.trans hset) fun hasking => ?_
  rw [hnot] at hasking
  cases hasking

theorem Advances.owed (hadvance : Advances s i (s.calls i) t) (h : Served s)
    (hrefused : t.shared.refused = false) (hold : s.shared.refused = false) :
    t.Owed t.view.inside := by
  have hset : ∀ {c' : Call} {shared : Shared}, c'.asking = true →
      (s.goto shared i c').Owed (s.goto shared i c').view.inside := by
    intro c' shared hasking
    exact State.Asked.owed (.inr ⟨i, by rw [goto_self]; exact hasking⟩) _
  generalize hc : s.calls i = c at hadvance
  cases hadvance with
  | aside decided early user armed notified haside hquiet =>
      refine h.owed_goto hold ?_ (Call.holds_of_aside hquiet.aside) rfl rfl rfl ?_
        fun hgood => hgood
      · rw [hc]
        exact Call.holds_of_aside haside
      · rw [hc]
        exact Call.not_asking_of_aside haside
  | plain hopen =>
      exact h.owed_goto hold (by rw [hc]; rfl) rfl rfl rfl rfl (by rw [hc]; rfl) fun hgood => hgood
  | accept hroom => exact hset rfl
  | arm => exact hset rfl
  | store k => exact State.Asked.owed (.inl rfl) _
  | take k hlock =>
      have hnone : s.view.inside = none := by simp [State.view, hlock]
      have howed := h.owed hold
      rw [hnone] at howed
      have hinside : (s.goto { s.shared with lock := some i, ownPass := none } i
          (.inside k .swap)).view.inside = some .swap := by
        simp [State.view, State.goto, Call.pc]
      rw [hinside]
      refine howed.imp (fun hasked => ?_) fun hgood => hgood
      refine asked_goto hasked (fun hset => hset) fun hasking => ?_
      rw [hc] at hasking
      cases hasking
  | busy k j hlock =>
      exact h.owed_goto hold (by rw [hc]; rfl) (Call.holds_of_aside k.next_quiet.aside) rfl rfl rfl
        (by rw [hc]; rfl) fun hgood => hgood
  | again k hagain => exact hset rfl
  | rest k hrest =>
      exact h.owed_goto hold (by rw [hc]; rfl) (Call.holds_of_aside k.next_quiet.aside) rfl rfl rfl
        (by rw [hc]; rfl) fun hgood => hgood
  | @inside k pc shared m hmove =>
      have howed := h.owed_moves hc hmove hold hrefused
      obtain ⟨hlock, -⟩ := view_holder h.kept.owns hc
      rcases hmove.lock with ⟨⟨pc', rfl⟩, hkeep⟩ | ⟨hm, hfree⟩
      · have hinside : (s.goto shared i (.inside k pc')).view.inside = some pc' := by
          simp [State.view, State.goto, hkeep, hlock, Call.pc]
        show (s.goto shared i (.inside k pc')).Owed (s.goto shared i (.inside k pc')).view.inside
        rw [hinside]
        exact howed
      · have hinside : (s.goto shared i (m.next k)).view.inside = none := by
          simp [State.view, State.goto, hfree]
        rw [hinside]
        rcases hm with rfl | rfl <;> exact howed
  | drained hzero =>
      exact h.owed_goto hold (by rw [hc]; rfl) rfl rfl rfl rfl (by rw [hc]; rfl) fun hgood => hgood
  | refill hopen => exact hset rfl
  | close drained since next hnext =>
      exact h.owed_goto hold (by rw [hc]; rfl) rfl rfl rfl rfl (by rw [hc]; rfl) fun hgood => hgood

/-! ### Every step, every run -/

/-- Once refused, always refused. -/
theorem View.Step.refused {v w : View} (h : View.Step v w) (hw : w.shared.refused = false) :
    v.shared.refused = false := by
  cases h with
  | outside hout => cases hout <;> exact hw
  | take i hlock => exact hw
  | stay hmove =>
      cases hmove with
      | refuse frame hopen => cases hw
      | _ => exact hw
  | leave hmove hm => cases hmove <;> first | exact hw | (rcases hm with hm | hm <;> cases hm)

/-- The thread under the lock is where a refusal leads only after one. -/
theorem View.Step.refusing {v w : View} (h : View.Step v w)
    (hv : ∀ pc, v.inside = some pc → pc.refusing = true → v.shared.refused = true) :
    ∀ pc, w.inside = some pc → pc.refusing = true → w.shared.refused = true := by
  intro p hp hrefusing
  cases h with
  | outside hout =>
      have hwas := hv p hp hrefusing
      cases hout <;> exact hwas
  | take i hlock =>
      obtain rfl := Option.some.inj hp
      cases hrefusing
  | stay hmove =>
      obtain rfl := Option.some.inj hp
      cases hmove with
      | refuse frame hopen => rfl
      | measure sent =>
          cases sent with
          | true => cases hrefusing
          | false => exact hv _ rfl rfl
      | settle sent after =>
          cases sent with
          | true => cases hrefusing
          | false => exact hv (.settle false after) rfl rfl
      | failed => exact hv _ rfl rfl
      | _ => cases hrefusing
  | leave hmove hm => cases hp

/-- A pass that goes by the estimate goes by one it trusts. -/
theorem View.Step.trust {v w : View} (h : View.Step v w)
    (hv : ∀ amount fresh seen, v.inside = some (.build amount fresh seen) → fresh = false →
      amount ≤ v.shared.trustBelow) :
    ∀ amount fresh seen, w.inside = some (.build amount fresh seen) → fresh = false →
      amount ≤ w.shared.trustBelow := by
  intro amount fresh seen hp hfresh
  cases h with
  | outside hout =>
      have hwas := hv amount fresh seen hp hfresh
      unfold Shared.trustBelow at hwas ⊢
      rw [hout.config]
      exact hwas
  | take i hlock => cases hp
  | stay hmove =>
      cases hmove with
      | trust htrust =>
          cases hp
          exact htrust
      | note n m =>
          cases hp
          cases hfresh
      | settle sent after => cases sent <;> cases hp
      | _ => cases hp
  | leave hmove hm => cases hp

theorem Served.next {a : Action} (h : Served s) (hstep : step s a = some t) : Served t := by
  obtain ⟨hview, howns⟩ := step_view h.kept.owns hstep
  have hold : t.shared.refused = false → s.shared.refused = false := hview.refused
  refine ⟨h.kept.next hstep, hview.refusing h.refused, hview.trust h.trust, ?_, ?_⟩
  · intro hrefused
    have hheard := h.heard (hold hrefused)
    cases step_steps hstep with
    | start hidle hc =>
        refine heard_goto hheard (fun hset => hset) fun hin => ?_
        rw [hidle] at hin
        cases hin
    | low hidle hdecided => exact fun _ => ⟨_, by rw [goto_self]; rfl⟩
    | lowPlain hidle hdecided =>
        refine heard_goto hheard (fun hset => hset) fun hin => ?_
        rw [hidle] at hin
        cases hin
    | step i hadvance => exact hadvance.heard h (hold hrefused)
    | expire hc =>
        refine heard_goto hheard (fun hset => hset) fun hin => ?_
        rw [hc] at hin
        cases hin
    | _ => exact hheard
  · intro hrefused
    have howed := h.owed (hold hrefused)
    cases step_steps hstep with
    | start hidle hc =>
        exact h.owed_goto (hold hrefused) (by rw [hidle]; rfl) (Call.holds_of_aside hc) rfl rfl rfl
          (by rw [hidle]; rfl) fun hgood => hgood
    | low hidle hdecided =>
        exact State.Asked.owed (.inr ⟨_, by rw [goto_self]; rfl⟩) _
    | lowPlain hidle hdecided =>
        exact h.owed_goto (hold hrefused) (by rw [hidle]; rfl) rfl rfl rfl rfl
          (by rw [hidle]; rfl) fun hgood => hgood
    | step i hadvance => exact hadvance.owed h hrefused (hold hrefused)
    | expire hc =>
        exact h.owed_goto (hold hrefused) (by rw [hc]; rfl) rfl rfl rfl rfl
          (by rw [hc]; rfl) fun hgood => hgood
    | clear hclosed hdecided =>
        exact State.Owed.mono howed (fun hasked => hasked) rfl fun _ => .inl rfl
    | native hnext => exact State.Owed.mono howed (fun hasked => hasked) rfl fun hgood => hgood
    | ignore => exact howed
    | drain n => exact State.Owed.mono howed (fun hasked => hasked) rfl fun hgood => hgood

variable {config : SendConfig} {valid : config.validate = .ok ()}

theorem served_start : Served (machine config valid).start where
  kept := kept_start
  refused _ h := by cases h
  trust _ _ _ h := by cases h
  heard _ h := by cases h
  owed _ := .inr (.inl rfl)

theorem served_reachable (h : (machine config valid).Reachable s) : Served s :=
  Machine.invariant (I := Served) served_start (fun _ _ _ hs hstep => hs.next hstep) h

/--
**No request to pump is lost.**  As long as no frame was refused: with no thread in the
pump the flag is clear; with none between its push and the pump either, the queue is
empty or the last pass read an amount at or above the high-water mark after the last
message had been accepted.  And the frames handed over are those `nextFrame` returned,
in that order, up to the one that may be on its way.
-/
theorem no_request_lost (h : (machine config valid).Reachable s)
    (hrefused : s.shared.refused = false) :
    ((∀ i, (s.calls i).inPump = false) →
      s.shared.pumpAgain = false ∧
      ((∀ i, s.calls i ≠ .arm) →
        s.shared.queue.isEmpty = true ∨ ∃ p, s.shared.lastPass = some p ∧ p.fresh = true ∧
          config.highWater ≤ p.amount ∧ p.seen = s.shared.accepted.length)) ∧
    framesOf s.shared.handed ++ inHand s.view.inside = s.shared.returned := by
  have hserved := served_reachable h
  refine ⟨fun hidle => ?_, hserved.kept.ledger.exact hrefused⟩
  have hclear : s.shared.pumpAgain = false := by
    cases hset : s.shared.pumpAgain with
    | false => rfl
    | true =>
        obtain ⟨i, hi⟩ := hserved.heard hrefused hset
        rw [hidle i] at hi
        cases hi
  refine ⟨hclear, fun harm => ?_⟩
  have hfree : s.view.inside = none := by
    cases hlock : s.shared.lock with
    | none => simp [State.view, hlock]
    | some i =>
        have hi := Call.inPump_of_holds ((hserved.kept.owns i).mpr hlock)
        rw [hidle i] at hi
        cases hi
  have howed := hserved.owed hrefused
  rw [hfree] at howed
  rcases howed with hasked | hgood
  · rcases hasked with hset | ⟨i, hi⟩
    · rw [hclear] at hset
      cases hset
    · rcases Call.asking_inPump_or_arm hi with hc | hc
      · exact absurd hc (harm i)
      · rw [hidle i] at hc
        cases hc
  · rw [← (owns_reachable h).2]
    refine hgood.imp_left fun hempty => ?_
    simp [SendQueue.isEmpty, hempty]

/-- A message is accepted, and its thread has not called the pump yet. -/
def pushed : State :=
  (machine smallConfig smallConfig_valid).final
    (machine smallConfig smallConfig_valid).start (sendFirst [1] 6) (by decide +kernel)

/-- Call 0 fills the buffer; before it looks at the flag once more, call 1 has accepted a
message and set it.  Call 0 makes the pass this asks for and leaves, and call 1 takes the
lock to find the flag clear. -/
def twoSends : List Action :=
  sendFirst [1, 2, 3, 4, 5] 28 ++ .call 1 (.send [6] true) :: (steps 1 5 ++ steps 0 8 ++ steps 1 4)

def servedByOther : State :=
  (machine smallConfig smallConfig_valid).final
    (machine smallConfig smallConfig_valid).start twoSends (by decide +kernel)

/-- All calls of a run of the first two are where those two are, or idle. -/
theorem calls_of_two {as : List Action} {P : Call → Prop}
    (hrun : (machine config valid).run (machine config valid).start as = some s)
    (hothers : ∀ a ∈ as, a.of = some 0 ∨ a.of = some 1 ∨ a.of = none) (hidle : P .idle)
    (hzero : P (s.calls 0)) (hone : P (s.calls 1)) (i : Nat) : P (s.calls i) := by
  match i with
  | 0 => exact hzero
  | 1 => exact hone
  | i + 2 =>
      have hstay : s.calls (i + 2) = .idle := by
        refine run_others hrun fun a ha => ?_
        rcases hothers a ha with h | h | h <;> rw [h] <;> simp
      rw [hstay]
      exact hidle

theorem Call.ne_arm (h : c.asking = false) : c ≠ .arm := by
  rintro rfl
  cases h

theorem servedByOther_idle (i : Nat) :
    (servedByOther.calls i).inPump = false ∧ (servedByOther.calls i).asking = false :=
  calls_of_two (P := fun c => c.inPump = false ∧ c.asking = false)
    ((machine smallConfig smallConfig_valid).run_final _ twoSends (by decide +kernel))
    (by decide +kernel) ⟨rfl, rfl⟩ (by decide +kernel) (by decide +kernel) i

theorem no_request_lost_two_sends :
    servedByOther.shared.pumpAgain = false ∧
      ∃ p, servedByOther.shared.lastPass = some p ∧ p.fresh = true ∧
        smallConfig.highWater ≤ p.amount ∧ p.seen = servedByOther.shared.accepted.length := by
  have hreach : (machine smallConfig smallConfig_valid).Reachable servedByOther :=
    Machine.Reachable.start.run (Machine.run_final ..)
  obtain ⟨hclear, hpass⟩ :=
    (no_request_lost hreach (by decide +kernel)).1 fun i => (servedByOther_idle i).1
  refine ⟨hclear, ?_⟩
  rcases hpass fun i => Call.ne_arm (servedByOther_idle i).2 with hempty | hpass
  · exact absurd hempty (by decide +kernel)
  · exact hpass

/-- With nobody in the pump, a message may still wait for the thread that accepted it to
call the pump; and when none does, the last thread to have held the lock may have made no
pass of its own. -/
theorem last_holder_need_not_have_read :
    (¬ ∀ s, (machine smallConfig smallConfig_valid).Reachable s → s.shared.refused = false →
      (∀ i, (s.calls i).inPump = false) →
      s.shared.pumpAgain = false ∧ (s.shared.queue.isEmpty = true ∨
        ∃ p, s.shared.ownPass = some p ∧ p.fresh = true ∧ smallConfig.highWater ≤ p.amount ∧
          p.seen = s.shared.accepted.length)) ∧
    (¬ ∀ s, (machine smallConfig smallConfig_valid).Reachable s → s.shared.refused = false →
      (∀ i, (s.calls i).inPump = false) → (∀ i, s.calls i ≠ .arm) →
      s.shared.pumpAgain = false ∧ (s.shared.queue.isEmpty = true ∨
        ∃ p, s.shared.ownPass = some p ∧ p.fresh = true ∧ smallConfig.highWater ≤ p.amount ∧
          p.seen = s.shared.accepted.length)) := by
  constructor
  · intro h
    have hrun := (machine smallConfig smallConfig_valid).run_final
      (machine smallConfig smallConfig_valid).start (sendFirst [1] 6) (by decide +kernel)
    have hidle : ∀ i, (pushed.calls i).inPump = false :=
      calls_of_two (P := fun c => c.inPump = false) hrun (by decide +kernel) rfl
        (by decide +kernel) (by decide +kernel)
    rcases (h pushed (Machine.Reachable.start.run hrun) (by decide +kernel) hidle).2 with
      hempty | ⟨p, hp, -⟩
    · exact absurd hempty (by decide +kernel)
    · exact absurd hp (by rw [show pushed.shared.ownPass = none by decide +kernel]; nofun)
  · intro h
    have hrun := (machine smallConfig smallConfig_valid).run_final
      (machine smallConfig smallConfig_valid).start twoSends (by decide +kernel)
    rcases (h servedByOther (Machine.Reachable.start.run hrun) (by decide +kernel)
      (fun i => (servedByOther_idle i).1) fun i => Call.ne_arm (servedByOther_idle i).2).2 with
      hempty | ⟨p, hp, -⟩
    · exact absurd hempty (by decide +kernel)
    · exact absurd hp (by
        rw [show servedByOther.shared.ownPass = none by decide +kernel]; nofun)

end Channel

end ReactorWebrtc
