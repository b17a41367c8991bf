/-
When the two ends of a connection agree.

An offer always declares chunking when it leaves, and an answer declares it exactly
when the offer it answers still did in the delivery the answer was created from.  An
end that records its own answer looks at the delivery it has on record by then, which
may be a later one of the same offer.  So the parameters an end settles with say what
became of the offer of that round on its way: in the delivery the answer was created
from, and for the answering end also in the one in force when it recorded the answer.
`Settled` ties them to the answer the end settled on, through rejections, rollbacks
and late answers, and `State.fate` is what they come to.

The ends therefore agree whenever they settle on the same round and its offer was
delivered once, and also when they settle on two rounds whose offers fared alike.
They need not settle on the same round: when the offerer's libwebrtc refuses the
answer the answerer has already applied, the next round to complete settles the
offerer only.  Nor does one round suffice where its offer is delivered twice, intact
and then stripped, with the answer created in between: the answer still carries its
line to the offerer, while the answerer settles without.  `SameFate` is the condition
this leaves on the signalling, and `agree_iff_sameFate` says it is exact.
-/
import ReactorWebrtc.Negotiation.Exchange

namespace ReactorWebrtc

namespace Exchange

/-- Both ends settled: both with the other's parameters, or both without. -/
def State.Agree (s : State) : Prop :=
  (s.peers .a).state.settled = true → (s.peers .b).state.settled = true →
    (s.peers .a).state.remote.isSome = (s.peers .b).state.remote.isSome

/-- Whether the offer of answer `j` still declared chunking when it was delivered. -/
def State.kept? (s : State) (j : Nat) : Option Bool := (s.answers[j]?).map (·.kept)

/-- What became of the offer of answer `j` on its way: whether it kept its line in the
delivery the answer was created from, and in the one in force when the answer was recorded. -/
def State.fate (s : State) (j : Nat) (delivered : Bool) : Option Bool :=
  (s.kept? j).map (· && delivered)

/-- An end that settles after the other one does so with an offer that fared alike. -/
def State.SameFate (s : State) : Action → Prop
  | .record e d =>
    match d.answer? with
    | some j =>
      (s.peers e).state.settled = false → (s.peers e.other).state.settled = true →
        s.fate j (s.peers e).signaling.delivered =
          s.fate (s.peers e.other).settledOn (s.peers e.other).settledDelivery
    | none => True
  | _ => True

/-! ### What one record does

An end's record and its signaling state are about the same round.  `Matches` says so between
two descriptions, and `Settled` of the round that settled the end, whatever came afterwards.
-/

/-- Every text created so far declares what it should. -/
structure Texts (s : State) : Prop where
  offers : ∀ o ∈ s.offers, Sdp.hasAttribute o.sdp = true ∧ (Sdp.parse o.sdp).isSome = true
  answers : ∀ r ∈ s.answers,
    Sdp.hasAttribute r.sdp = r.kept ∧ (Sdp.parse r.sdp).isSome = r.kept

/-- The record fits the round the end is in. -/
structure Matches (st : NegotiationState) (sig : SignalingState) : Prop where
  awaiting : ∀ i, sig.awaiting = some i → st.localOfferDeclared = true
  answering : ∀ i kept, sig.answering = some (i, kept) → st.pending.isSome = kept

/-- Settled parameters are there exactly when the offer of answer `j` kept its line on its
way, in the delivery that was in force too. -/
def Settled (s : State) (st : NegotiationState) (j : Nat) (delivered : Bool) : Prop :=
  st.settled = true → ∃ r, s.answers[j]? = some r ∧ st.remote.isSome = (r.kept && delivered)

variable {s t : State} {e : End} {d : Description} {sig sig' : SignalingState}
  {st : NegotiationState} {r : Side × SessionDescription}

theorem ownAnswer_eq_some {j : Nat} {x : Nat × Bool} (h : s.ownAnswer e j = some x) :
    ∃ ans, s.answers[j]? = some ans ∧ (s.peers e).signaling.answering = some x := by
  unfold State.ownAnswer at h
  split at h
  · rename_i ans i delivered hans hsig
    split at h
    · obtain rfl : (i, delivered) = x := Option.some.inj h
      exact ⟨ans, hans, hsig⟩
    · cases h
  · cases h

theorem peerAnswer_eq_some {j i : Nat} (h : s.peerAnswer e j = some i) :
    ∃ ans, s.answers[j]? = some ans ∧ (s.peers e).signaling.awaiting = some i := by
  unfold State.peerAnswer at h
  split at h
  · rename_i ans k hans hsig
    split at h
    · obtain rfl : k = i := Option.some.inj h
      exact ⟨ans, hans, hsig⟩
    · cases h
  · cases h

theorem delivered_of_answering {i : Nat} {delivered : Bool}
    (h : sig.answering = some (i, delivered)) : sig.delivered = delivered := by
  rw [SignalingState.delivered, h]
  rfl

/-- An end that awaits an answer is answering nothing. -/
theorem delivered_of_awaiting {i : Nat} (h : sig.awaiting = some i) : sig.delivered = true := by
  cases sig with
  | haveLocalOffer _ | haveRemotePrAnswer _ => rfl
  | stable | haveRemoteOffer _ _ | haveLocalPrAnswer _ _ => cases h

theorem next_localOffer {i : Nat} (h : s.next e (.localOffer i) = some sig) :
    sig = .haveLocalOffer i := by
  simp only [State.next] at h
  split at h
  · split at h
    · exact (Option.some.inj h).symm
    · cases h
  · split at h
    · exact (Option.some.inj h).symm
    · cases h
  · cases h

theorem next_remoteOffer {i : Nat} {kept : Bool} (h : s.next e (.remoteOffer i kept) = some sig) :
    sig = .haveRemoteOffer i kept := by
  simp only [State.next] at h
  split at h
  · split at h
    · exact (Option.some.inj h).symm
    · cases h
  · split at h
    · exact (Option.some.inj h).symm
    · cases h
  · cases h

theorem next_rollback (hd : d = .localRollback ∨ d = .remoteRollback)
    (h : s.next e d = some sig) : sig = .stable := by
  rcases hd with rfl | rfl
  all_goals
    simp only [State.next] at h
    split at h
    · exact (Option.some.inj h).symm
    · exact (Option.some.inj h).symm
    · cases h

theorem Matches.stable (st : NegotiationState) : Matches st .stable := by
  constructor
  · intro i h
    cases h
  · intro i kept h
    cases h

theorem Matches.of_awaiting {i : Nat} (hsig : sig = .haveLocalOffer i ∨ sig = .haveRemotePrAnswer i)
    (h : st.localOfferDeclared = true) : Matches st sig := by
  refine ⟨fun _ _ => h, ?_⟩
  rcases hsig with rfl | rfl
  all_goals
    intro i kept hk
    cases hk

theorem Matches.of_answering {i : Nat} {kept : Bool}
    (hsig : sig = .haveRemoteOffer i kept ∨ sig = .haveLocalPrAnswer i kept)
    (h : st.pending.isSome = kept) : Matches st sig := by
  rcases hsig with rfl | rfl
  all_goals
    constructor
    · intro i hk
      cases hk
    · intro j k hk
      obtain ⟨-, rfl⟩ : i = j ∧ kept = k := by simpa [SignalingState.answering] using hk
      exact h

/-- Recorded in order, a description leaves a record that fits the state it leads to. -/
theorem Matches.record (htexts : Texts s) (h : Matches st (s.peers e).signaling)
    (hnext : s.next e d = some sig) (hreq : s.request d = some r) :
    Matches (st.record r.1 r.2) sig := by
  cases d with
  | localOffer i =>
      obtain ⟨o, ho, rfl⟩ := Option.map_eq_some_iff.mp hreq
      refine .of_awaiting (.inl (next_localOffer hnext)) ?_
      exact (htexts.offers o (List.mem_of_getElem? ho)).1
  | remoteOffer i kept =>
      obtain ⟨o, ho, rfl⟩ := Option.map_eq_some_iff.mp hreq
      refine .of_answering (.inl (next_remoteOffer hnext)) ?_
      show (Sdp.parse (if kept then o.sdp else Sdp.strip o.sdp)).isSome = kept
      cases kept with
      | true => exact (htexts.offers o (List.mem_of_getElem? ho)).2
      | false => simp [Sdp.parse_eq_none (Sdp.hasAttribute_strip o.sdp)]
  | localPrAnswer j =>
      obtain ⟨ans, hans, rfl⟩ := Option.map_eq_some_iff.mp hreq
      obtain ⟨⟨i, kept⟩, hx, rfl⟩ := Option.map_eq_some_iff.mp hnext
      obtain ⟨-, -, hsig⟩ := ownAnswer_eq_some hx
      exact .of_answering (.inr rfl) (h.answering i kept hsig)
  | remotePrAnswer j =>
      obtain ⟨ans, hans, rfl⟩ := Option.map_eq_some_iff.mp hreq
      obtain ⟨i, hx, rfl⟩ := Option.map_eq_some_iff.mp hnext
      obtain ⟨-, -, hsig⟩ := peerAnswer_eq_some hx
      exact .of_awaiting (.inr rfl) (h.awaiting i hsig)
  | localAnswer j =>
      obtain ⟨-, -, rfl⟩ := Option.map_eq_some_iff.mp hnext
      exact .stable _
  | remoteAnswer j =>
      obtain ⟨-, -, rfl⟩ := Option.map_eq_some_iff.mp hnext
      exact .stable _
  | localRollback =>
      obtain rfl := next_rollback (.inl rfl) hnext
      exact .stable _
  | remoteRollback =>
      obtain rfl := next_rollback (.inr rfl) hnext
      exact .stable _

/-- The first answer recorded settles with what became of its offer. -/
theorem Matches.settles {j : Nat} (htexts : Texts s) (h : Matches st (s.peers e).signaling)
    (hnext : s.next e d = some sig) (hreq : s.request d = some r)
    (hopen : st.settled = false) (hj : d.answer? = some j) :
    ∃ ans, s.answers[j]? = some ans ∧ (st.record r.1 r.2).settled = true ∧
      (st.record r.1 r.2).remote.isSome = (ans.kept && (s.peers e).signaling.delivered) := by
  cases d with
  | localAnswer k =>
      obtain rfl : k = j := Option.some.inj hj
      obtain ⟨ans, hans, rfl⟩ := Option.map_eq_some_iff.mp hreq
      obtain ⟨⟨i, delivered⟩, hx, -⟩ := Option.map_eq_some_iff.mp hnext
      obtain ⟨-, -, hsig⟩ := ownAnswer_eq_some hx
      have hpending : st.pending.isSome = delivered := h.answering i delivered hsig
      have hdeclares := (htexts.answers ans (List.mem_of_getElem? hans)).1
      refine ⟨ans, hans, NegotiationState.settle_settled _ _, ?_⟩
      have hmid : ({ st with pending := none } : NegotiationState).settled = false := hopen
      show (NegotiationState.settle { st with pending := none }
        (st.pending.filter fun _ => Sdp.hasAttribute ans.sdp)).remote.isSome = _
      rw [NegotiationState.settle_of_unsettled hmid, hdeclares, delivered_of_answering hsig,
        ← hpending]
      show (st.pending.filter fun _ => ans.kept).isSome = (ans.kept && st.pending.isSome)
      -- the parameters on record are kept only where the answer declares chunking too
      cases st.pending with
      | none => simp
      | some p => cases hk : ans.kept <;> simp
  | remoteAnswer k =>
      obtain rfl : k = j := Option.some.inj hj
      obtain ⟨ans, hans, rfl⟩ := Option.map_eq_some_iff.mp hreq
      obtain ⟨i, hx, -⟩ := Option.map_eq_some_iff.mp hnext
      obtain ⟨-, -, hsig⟩ := peerAnswer_eq_some hx
      have hoffered : st.localOfferDeclared = true := h.awaiting i hsig
      have hparsed := (htexts.answers ans (List.mem_of_getElem? hans)).2
      refine ⟨ans, hans, NegotiationState.settle_settled _ _, ?_⟩
      show (st.settle ((Sdp.parse ans.sdp).filter fun _ => st.localOfferDeclared)).remote.isSome
        = _
      rw [NegotiationState.settle_of_unsettled hopen, hoffered, delivered_of_awaiting hsig,
        Bool.and_true]
      show ((Sdp.parse ans.sdp).filter fun _ => true).isSome = ans.kept
      rw [← hparsed]
      cases Sdp.parse ans.sdp <;> rfl
  | _ => cases hj

/-- Nothing but a final answer settles. -/
theorem record_of_not_answer (st : NegotiationState) (hreq : s.request d = some r)
    (hj : d.answer? = none) :
    (st.record r.1 r.2).settled = st.settled ∧ (st.record r.1 r.2).remote = st.remote := by
  refine NegotiationState.record_of_ne_answer ?_ st r.1
  cases d with
  | localAnswer j => cases hj
  | remoteAnswer j => cases hj
  | localRollback | remoteRollback =>
      obtain rfl := Option.some.inj hreq
      intro hk
      cases hk
  | _ =>
      obtain ⟨_, -, rfl⟩ := Option.map_eq_some_iff.mp hreq
      intro hk
      cases hk

/-! ### What holds of both ends

While a description is being applied its record is one ahead of what libwebrtc has taken, so
what is kept is about the record without it (`Peer.steady`).
-/

/-- The record without the description under way. -/
def Peer.steady (p : Peer) : NegotiationState :=
  match p.applying with
  | some (_, before) => before
  | none => p.state

/-- What holds of one end between any two steps. -/
structure Peer.Inv (s : State) (p : Peer) : Prop where
  steady : Matches p.steady p.signaling
  /-- A description under way leads to a state its record fits. -/
  target : ∀ next before, p.applying = some (next, before) → Matches p.state next
  settled : Settled s p.state p.settledOn p.settledDelivery
  /-- What a rejection would put back is settled alike, if at all. -/
  undo : ∀ next before, p.applying = some (next, before) → before.settled = true →
    p.state.settled = true ∧ p.state.remote = before.remote

structure Inv (s : State) : Prop where
  texts : Texts s
  peers : ∀ e, (s.peers e).Inv s

theorem inv_start : Inv {} where
  texts := by
    constructor
    · intro o ho
      cases ho
    · intro r hr
      cases hr
  peers _ :=
    { steady := .stable _
      target := fun _ _ h => nomatch h
      settled := fun h => nomatch h
      undo := fun _ _ h => nomatch h }

/-- What is known of an answer stays known: answers are only added. -/
theorem Settled.mono {j : Nat} {delivered : Bool} (h : Settled s st j delivered)
    (hanswers : ∀ r, s.answers[j]? = some r → t.answers[j]? = some r) :
    Settled t st j delivered := by
  intro hsettled
  obtain ⟨r, hr, hkept⟩ := h hsettled
  exact ⟨r, hanswers r hr, hkept⟩

theorem Peer.Inv.mono {p : Peer} (h : p.Inv s)
    (hanswers : ∀ (j : Nat) (r : Answer), s.answers[j]? = some r → t.answers[j]? = some r) :
    p.Inv t where
  steady := h.steady
  target := h.target
  settled := h.settled.mono (hanswers _)
  undo := h.undo

variable {settings : End → DcChunking}

theorem Inv.createOffer (h : Inv s) {native : Sdp.Native}
    (hstep : step settings s (.createOffer e native) = some t) : Inv t := by
  obtain rfl := Option.some.inj hstep
  refine ⟨⟨?_, h.texts.answers⟩, fun f => (h.peers f).mono fun _ _ hr => hr⟩
  intro o ho
  rcases List.mem_append.mp ho with ho | ho
  · exact h.texts.offers o ho
  · obtain rfl := List.mem_singleton.mp ho
    constructor
    · exact Sdp.hasAttribute_declare native.lines_ne _
    · show (Sdp.parse (Sdp.declare native.text (settings e).declared)).isSome = true
      rw [Sdp.parse_declare native.plain native.lines_ne (settings e).declared_fits]
      rfl

/-- An answer declares chunking exactly when the offer being answered did on arrival. -/
theorem answer_declares {native : Sdp.Native} {kept : Bool}
    (h : (s.peers e).state.pending.isSome = kept) :
    Sdp.hasAttribute ((s.negotiation settings e).answer ⟨.answer, native.text⟩).sdp = kept ∧
      (Sdp.parse ((s.negotiation settings e).answer ⟨.answer, native.text⟩).sdp).isSome = kept := by
  subst h
  show Sdp.hasAttribute (if (s.peers e).state.pending.isSome then _ else _ : SessionDescription).sdp
      = _ ∧ (Sdp.parse
        (if (s.peers e).state.pending.isSome then _ else _ : SessionDescription).sdp).isSome = _
  cases (s.peers e).state.pending.isSome with
  | true =>
      refine ⟨Sdp.hasAttribute_declare native.lines_ne _, ?_⟩
      show (Sdp.parse (Sdp.declare native.text (settings e).declared)).isSome = true
      rw [Sdp.parse_declare native.plain native.lines_ne (settings e).declared_fits]
      rfl
  | false =>
      refine ⟨native.plain, ?_⟩
      show (Sdp.parse native.text).isSome = false
      rw [Sdp.parse_eq_none native.plain]
      rfl

theorem Inv.createAnswer (h : Inv s) {native : Sdp.Native}
    (hstep : step settings s (.createAnswer e native) = some t) : Inv t := by
  simp only [step] at hstep
  split at hstep
  · rename_i offer kept happlying hsig
    obtain rfl := Option.some.inj hstep
    have hsteady : (s.peers e).steady = (s.peers e).state := by
      unfold Peer.steady
      rw [happlying]
    have hpending : (s.peers e).state.pending.isSome = kept := by
      rw [← hsteady]
      exact (h.peers e).steady.answering offer kept hsig
    refine ⟨⟨h.texts.offers, ?_⟩, fun f => (h.peers f).mono fun j r hr => ?_⟩
    · intro r hr
      rcases List.mem_append.mp hr with hr | hr
      · exact h.texts.answers r hr
      · obtain rfl := List.mem_singleton.mp hr
        exact answer_declares hpending
    · rw [← hr]
      exact List.getElem?_append_left (List.getElem?_eq_some_iff.mp hr).1
  · cases hstep

/-- One end moves on, the texts and the other end stay. -/
theorem Inv.put (h : Inv s) {p : Peer} (hp : p.Inv s) : Inv (s.put e p) where
  texts := ⟨h.texts.offers, h.texts.answers⟩
  peers f := by
    show (Function.update s.peers e p f).Inv (s.put e p)
    by_cases hf : f = e
    · subst hf
      rw [Function.update_self]
      exact hp.mono fun _ _ hr => hr
    · rw [Function.update_of_ne hf]
      exact (h.peers f).mono fun _ _ hr => hr

theorem step_record (hstep : step settings s (.record e d) = some t) :
    ∃ next r, (s.peers e).applying = none ∧ s.next e d = some next ∧ s.request d = some r ∧
      t = s.put e ((s.peers e).recorded d next r) := by
  simp only [step] at hstep
  split at hstep
  · rename_i next r happlying hnext hreq
    exact ⟨next, r, happlying, hnext, hreq, (Option.some.inj hstep).symm⟩
  · cases hstep

theorem step_native {ok : Bool} (hstep : step settings s (.native e ok) = some t) :
    ∃ signaling before, (s.peers e).applying = some (signaling, before) ∧
      t = s.put e (if ok then { s.peers e with signaling, applying := none }
        else { s.peers e with state := before, applying := none }) := by
  simp only [step] at hstep
  split at hstep
  · rename_i signaling before happlying
    refine ⟨signaling, before, happlying, ?_⟩
    cases ok with
    | true => exact (Option.some.inj hstep).symm
    | false => exact (Option.some.inj hstep).symm
  · cases hstep

/-- Between two applies the record fits the state of the native side. -/
theorem Peer.Inv.matches {p : Peer} (h : p.Inv s) (happlying : p.applying = none) :
    Matches p.state p.signaling := by
  have hsteady := h.steady
  unfold Peer.steady at hsteady
  rwa [happlying] at hsteady

theorem Inv.record (h : Inv s) {next : SignalingState} (happlying : (s.peers e).applying = none)
    (hnext : s.next e d = some next) (hreq : s.request d = some r) :
    ((s.peers e).recorded d next r).Inv s := by
  have hmatches := (h.peers e).matches happlying
  refine ⟨hmatches, ?_, ?_, ?_⟩
  · intro sig before hsig
    obtain ⟨rfl, -⟩ : next = sig ∧ (s.peers e).state = before := by
      simpa [Peer.recorded] using hsig
    exact hmatches.record h.texts hnext hreq
  · intro _
    by_cases hsettled : (s.peers e).state.settled = true
    · have hkeep := NegotiationState.record_of_settled hsettled r.1 r.2
      obtain ⟨ans, hans, hkept⟩ := (h.peers e).settled hsettled
      refine ⟨ans, ?_, ?_⟩
      · simpa [Peer.recorded, hsettled] using hans
      · simpa [Peer.recorded, hsettled] using (congrArg Option.isSome hkeep.2).trans hkept
    · cases hj : d.answer? with
      | none =>
          have hkeep := record_of_not_answer (s.peers e).state hreq hj
          rename_i hnow
          exact absurd (hkeep.1.symm.trans hnow) hsettled
      | some j =>
          obtain ⟨ans, hans, -, hkept⟩ :=
            hmatches.settles h.texts hnext hreq (Bool.eq_false_iff.mpr hsettled) hj
          refine ⟨ans, ?_, ?_⟩
          · simpa [Peer.recorded, hsettled, hj] using hans
          · simpa [Peer.recorded, hsettled, hj] using hkept
  · intro sig before hsig hbefore
    obtain ⟨-, rfl⟩ : next = sig ∧ (s.peers e).state = before := by
      simpa [Peer.recorded] using hsig
    exact NegotiationState.record_of_settled hbefore r.1 r.2

theorem Inv.native (h : Inv s) {sig : SignalingState} {before : NegotiationState} (ok : Bool)
    (happlying : (s.peers e).applying = some (sig, before)) :
    (if ok then { s.peers e with signaling := sig, applying := none }
      else { s.peers e with state := before, applying := none } : Peer).Inv s := by
  have hpeer := h.peers e
  cases ok with
  | true =>
      exact ⟨hpeer.target sig before happlying, (fun _ _ hk => nomatch hk), hpeer.settled,
        (fun _ _ hk => nomatch hk)⟩
  | false =>
      have hsteady := hpeer.steady
      unfold Peer.steady at hsteady
      rw [happlying] at hsteady
      refine ⟨hsteady, (fun _ _ hk => nomatch hk), ?_, (fun _ _ hk => nomatch hk)⟩
      intro hbefore
      obtain ⟨hsettled, hremote⟩ := hpeer.undo sig before happlying hbefore
      obtain ⟨ans, hans, hkept⟩ := hpeer.settled hsettled
      exact ⟨ans, hans, (congrArg Option.isSome hremote).symm.trans hkept⟩

theorem inv_step {a : Action} (h : Inv s) (hstep : step settings s a = some t) : Inv t := by
  cases a with
  | createOffer e native => exact h.createOffer hstep
  | createAnswer e native => exact h.createAnswer hstep
  | record e d =>
      obtain ⟨next, r, happlying, hnext, hreq, rfl⟩ := step_record hstep
      exact h.put (h.record happlying hnext hreq)
  | native e ok =>
      obtain ⟨sig, before, happlying, rfl⟩ := step_native hstep
      exact h.put (h.native ok happlying)

/-! ### The guard is exact -/

/-- Agreement, seen from either end. -/
theorem agree_iff (e : End) : s.Agree ↔
    ((s.peers e).state.settled = true → (s.peers e.other).state.settled = true →
      (s.peers e).state.remote.isSome = (s.peers e.other).state.remote.isSome) := by
  cases e with
  | a => exact Iff.rfl
  | b =>
      constructor
      · intro h hb ha
        exact (h ha hb).symm
      · intro h ha hb
        exact (h hb ha).symm

theorem agree_put {p : Peer} : (s.put e p).Agree ↔
    (p.state.settled = true → (s.peers e.other).state.settled = true →
      p.state.remote.isSome = (s.peers e.other).state.remote.isSome) := by
  have hother : e.other ≠ e := by cases e <;> decide
  rw [agree_iff e]
  simp only [State.put, Function.update_self, Function.update_of_ne hother]

/-- An end whose settled parameters are as they were changes nothing. -/
theorem Inv.agree_of_same (h : s.Agree) {p : Peer}
    (hp : p.state.settled = true → (s.peers e).state.settled = true ∧
      (s.peers e).state.remote = p.state.remote) : (s.put e p).Agree := by
  rw [agree_put]
  intro hsettled hother
  obtain ⟨hbefore, hremote⟩ := hp hsettled
  rw [← hremote]
  exact (agree_iff e).mp h hbefore hother

theorem Inv.agree_record (h : Inv s) (hagree : s.Agree) {next : SignalingState}
    (happlying : (s.peers e).applying = none) (hnext : s.next e d = some next)
    (hreq : s.request d = some r) :
    (s.put e ((s.peers e).recorded d next r)).Agree ↔ s.SameFate (.record e d) := by
  cases hj : d.answer? with
  | none =>
      have hkeep := record_of_not_answer (s.peers e).state hreq hj
      refine iff_of_true (agree_of_same hagree fun hsettled => ?_) ?_
      · exact ⟨hkeep.1.symm.trans hsettled, hkeep.2.symm⟩
      · simp [State.SameFate, hj]
  | some j =>
      by_cases hsettled : (s.peers e).state.settled = true
      · have hkeep := NegotiationState.record_of_settled hsettled r.1 r.2
        refine iff_of_true (agree_of_same hagree fun _ => ⟨hsettled, hkeep.2.symm⟩) ?_
        simp [State.SameFate, hj, hsettled]
      · have hopen : (s.peers e).state.settled = false := Bool.eq_false_iff.mpr hsettled
        obtain ⟨ans, hans, hnow, hkept⟩ :=
          ((h.peers e).matches happlying).settles h.texts hnext hreq hopen hj
        have hmine : s.fate j (s.peers e).signaling.delivered =
            some (ans.kept && (s.peers e).signaling.delivered) := by
          simp [State.fate, State.kept?, hans]
        rw [agree_put]
        simp only [State.SameFate, hj, hmine]
        constructor
        · intro hsame _ hother
          obtain ⟨ans', hans', hkept'⟩ := (h.peers e.other).settled hother
          have htheirs : s.fate (s.peers e.other).settledOn (s.peers e.other).settledDelivery =
              some (ans'.kept && (s.peers e.other).settledDelivery) := by
            simp [State.fate, State.kept?, hans']
          rw [htheirs, ← hkept, ← hkept']
          exact congrArg some (hsame hnow hother)
        · intro hfate _ hother
          obtain ⟨ans', hans', hkept'⟩ := (h.peers e.other).settled hother
          have htheirs : s.fate (s.peers e.other).settledOn (s.peers e.other).settledDelivery =
              some (ans'.kept && (s.peers e.other).settledDelivery) := by
            simp [State.fate, State.kept?, hans']
          have hfates := hfate hopen hother
          rw [htheirs] at hfates
          exact hkept.trans ((Option.some.inj hfates).trans hkept'.symm)

theorem Inv.agree_step (h : Inv s) (hagree : s.Agree) {a : Action}
    (hstep : step settings s a = some t) : t.Agree ↔ s.SameFate a := by
  cases a with
  | createOffer e native =>
      obtain rfl := Option.some.inj hstep
      exact iff_of_true hagree trivial
  | createAnswer e native =>
      simp only [step] at hstep
      split at hstep
      · obtain rfl := Option.some.inj hstep
        exact iff_of_true hagree trivial
      · cases hstep
  | record e d =>
      obtain ⟨next, r, happlying, hnext, hreq, rfl⟩ := step_record hstep
      exact h.agree_record hagree happlying hnext hreq
  | native e ok =>
      obtain ⟨sig, before, happlying, rfl⟩ := step_native hstep
      refine iff_of_true (agree_of_same hagree fun hsettled => ?_) trivial
      cases ok with
      | true => exact ⟨hsettled, rfl⟩
      | false => exact (h.peers e).undo sig before happlying hsettled

/--
**The ends agree in every state of a run exactly when whichever end settles second
does so with an offer that fared like the other one's.**
-/
theorem agree_iff_sameFate (settings : End → DcChunking) {as : List Action}
    (hrun : (machine settings).run {} as = some s) :
    (machine settings).Along State.Agree {} as ↔
      (machine settings).Guarded State.SameFate {} as := by
  refine Machine.along_iff_guarded (I := Inv) ?_ ?_ inv_start ?_ hrun
  · intro u a v hu huv
    exact inv_step hu huv
  · intro u a v hu hagree huv
    exact hu.agree_step hagree huv
  · intro ha
    cases ha

instance (s : State) : Decidable s.Agree :=
  inferInstanceAs (Decidable (_ → _ → _))

instance (s : State) (a : Action) : Decidable (s.SameFate a) :=
  match a with
  | .record e d =>
    match h : d.answer? with
    | some j => decidable_of_iff
        ((s.peers e).state.settled = false → (s.peers e.other).state.settled = true →
          s.fate j (s.peers e).signaling.delivered =
            s.fate (s.peers e.other).settledOn (s.peers e.other).settledDelivery)
        (by simp [State.SameFate, h])
    | none => .isTrue (by simp [State.SameFate, h])
  | .createOffer _ _ | .createAnswer _ _ | .native _ _ => .isTrue trivial

/-- The smallest description libwebrtc could hand over. -/
def smallest : Sdp.Native where
  text := ['v', '=', '0']
  lines_ne := by decide
  plain := by decide

/-- Two rounds, the first completed on the answerer's side only: libwebrtc refuses its
answer on the offerer's side, the offerer rolls back and offers again, and the second
offer reaches the answerer with or without its line. -/
def refusedThenAgain (kept : Bool) : List Action :=
  [.createOffer .a smallest, .record .a (.localOffer 0), .native .a true,
   .record .b (.remoteOffer 0 true), .native .b true,
   .createAnswer .b smallest, .record .b (.localAnswer 0), .native .b true,
   .record .a (.remoteAnswer 0), .native .a false,
   .record .a .localRollback, .native .a true,
   .createOffer .a smallest, .record .a (.localOffer 1), .native .a true,
   .record .b (.remoteOffer 1 kept), .native .b true,
   .createAnswer .b smallest, .record .b (.localAnswer 1), .native .b true,
   .record .a (.remoteAnswer 1), .native .a true]

/-- One round whose offer is delivered twice: intact, and once the answer is created,
stripped. -/
def deliveredAgain : List Action :=
  [.createOffer .a smallest, .record .a (.localOffer 0), .native .a true,
   .record .b (.remoteOffer 0 true), .native .b true, .createAnswer .b smallest,
   .record .b (.remoteOffer 0 false), .native .b true,
   .record .b (.localAnswer 0), .native .b true,
   .record .a (.remoteAnswer 0), .native .a true]

/-- Both offers arrive with their line, and the ends agree although they settle on two rounds. -/
theorem agree_iff_sameFate_both_kept :
    (machine fun _ => {}).Along State.Agree {} (refusedThenAgain true) :=
  (agree_iff_sameFate (fun _ => {})
    ((machine fun _ => {}).run_final {} (refusedThenAgain true) (by decide +kernel))).mpr
    (by decide +kernel)

-- The condition tells the two ends of one round apart as well.
example : ¬ (machine fun _ => {}).Guarded State.SameFate {} deliveredAgain := by decide +kernel

/-- An answer that reaches the offerer intact does not make the ends agree. -/
theorem ends_can_disagree :
    ¬ ∀ s, (machine fun _ => {}).Reachable s → s.Agree := by
  intro h
  have hrun := (machine fun _ => {}).run_final {} (refusedThenAgain false) (by decide +kernel)
  exact absurd (h _ (Machine.Reachable.start.run hrun)) (by decide +kernel)

end Exchange

end ReactorWebrtc
