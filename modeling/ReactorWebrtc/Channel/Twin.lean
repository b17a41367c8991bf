/-
The two ends of one channel, and what each of them decides.

Under the channel the two connections exchange descriptions, unmodified and all of
them accepted, and nobody rolls back; so an end that has recorded a final answer holds
the other's parameters and one that has not holds none.  The channel may open at an
end as soon as that end has applied a local and a remote description of one round.  A
final answer does that, and so does a provisional one, which the record passes over.
From then on any number of threads may ask the channel whether it is chunked, each in
four steps with the others in between.

An end that is asked between the provisional answer and the final one therefore stays
plain for good, and its twin, asked after the final answer, is chunked.  `SameSide`
says that this does not happen, and `twins_alike_iff_sameSide` that nothing else can.
-/
import ReactorWebrtc.Channel.Decision
import ReactorWebrtc.Negotiation.Agreement

namespace ReactorWebrtc

namespace Twin

open Exchange (End)

/-- Where one call of `chunked` is. -/
inductive Ask
  | idle
  /-- It found no decision stored. -/
  | undecided
  /-- It has read the native state: open. -/
  | opened
  /-- It has a decision to store, and whether its end had recorded a final answer. -/
  | holding (decision : Option Chunked) (final : Bool)

structure ChannelEnd where
  /-- A local and a remote description of one round are applied here. -/
  connected : Bool := false
  opened : Bool := false
  asks : Nat → Ask := fun _ => .idle
  decided : Option (Option Chunked) := none
  /-- What the thread that stored the decision held with it. -/
  final : Bool := false

structure State where
  exchange : Exchange.State := {}
  ends : End → ChannelEnd := fun _ => {}

inductive Action
  | signal (a : Exchange.Action)
  | opens (e : End)
  | ask (e : End) (i : Nat)
  | look (e : End) (i : Nat)
  | evaluate (e : End) (i : Nat)
  | store (e : End) (i : Nat)

/-- Signalling that modifies nothing, refuses nothing and takes nothing back. -/
def plain : Exchange.Action → Bool
  | .createOffer _ _ | .createAnswer _ _ => true
  | .record _ (.remoteOffer _ kept) => kept
  | .record _ .localRollback | .record _ .remoteRollback => false
  | .record _ _ => true
  | .native _ ok => ok

/-- The states an end is in once it has applied an answer, provisional or final. -/
def connects : SignalingState → Bool
  | .stable | .haveLocalPrAnswer _ _ | .haveRemotePrAnswer _ => true
  | _ => false

def State.put (s : State) (e : End) (c : ChannelEnd) : State :=
  { s with ends := Function.update s.ends e c }

/-- Thread `i` of the end goes on to `ask`. -/
def ChannelEnd.goto (c : ChannelEnd) (i : Nat) (ask : Ask) : ChannelEnd :=
  { c with asks := Function.update c.asks i ask }

/-- `get_or_init`: the first decision stored is the one that stays. -/
def ChannelEnd.store (c : ChannelEnd) (decision : Option Chunked) (final : Bool) : ChannelEnd :=
  match c.decided with
  | none => { c with decided := some decision, final }
  | some _ => c

/-- The end whose description libwebrtc has just taken. -/
def State.connect (s : State) : Exchange.Action → State
  | .native e _ =>
    if connects (s.exchange.peers e).signaling then s.put e { s.ends e with connected := true }
    else s
  | _ => s

variable (settings : End → DcChunking)

def step (s : State) : Action → Option State
  | .signal a =>
    if plain a then
      (Exchange.step settings s.exchange a).map fun exchange => State.connect { s with exchange } a
    else none
  | .opens e =>
    if (s.ends e).connected && !(s.ends e).opened then
      some (s.put e { s.ends e with opened := true })
    else none
  | .ask e i =>
    match (s.ends e).asks i, (s.ends e).decided with
    | .idle, none => some (s.put e ((s.ends e).goto i .undecided))
    | .idle, some _ => some s
    | _, _ => none
  | .look e i =>
    match (s.ends e).asks i with
    | .undecided =>
      some (s.put e ((s.ends e).goto i (if (s.ends e).opened then .opened else .idle)))
    | _ => none
  | .evaluate e i =>
    match (s.ends e).asks i with
    | .opened =>
      let st := (s.exchange.peers e).state
      let decision := Chunked.decide (some (settings e)) st.remote true true
      some (s.put e ((s.ends e).goto i (.holding decision st.settled)))
    | _ => none
  | .store e i =>
    match (s.ends e).asks i with
    | .holding decision final => some (s.put e (((s.ends e).goto i .idle).store decision final))
    | _ => none

def machine : Machine State Action := { start := {}, step := step settings }

/-- Both ends decided: both chunked, or both plain. -/
def State.Alike (s : State) : Prop :=
  ∀ da ∈ (s.ends .a).decided, ∀ db ∈ (s.ends .b).decided, da.isSome = db.isSome

/-- An end that stores its decision after the other one read it on the same side of its
end's final answer. -/
def State.SameSide (s : State) : Action → Prop
  | .store e i =>
    match (s.ends e).asks i with
    | .holding _ final =>
      (s.ends e).decided = none → (s.ends e.other).decided.isSome = true →
        final = (s.ends e.other).final
    | _ => True
  | _ => True

/-! ### The record under unmodified signalling

Nothing is stripped and nothing refused, so an offer that is in force at either end has its
line and every answer declares.  Then the record of a final answer has the other end's
parameters.
-/

/-- Every offer is delivered with its line, and only a settled record has parameters. -/
structure Unmodified (x : Exchange.State) : Prop where
  answers : ∀ r ∈ x.answers, r.kept = true
  answering : ∀ e i kept, (x.peers e).signaling.answering = some (i, kept) → kept = true
  target : ∀ e sig before, (x.peers e).applying = some (sig, before) →
    ∀ i kept, sig.answering = some (i, kept) → kept = true
  settledDelivery : ∀ e, (x.peers e).settledDelivery = true
  unsettled : ∀ e, (x.peers e).state.settled = false → (x.peers e).state.remote = none

theorem unmodified_start : Unmodified {} where
  answers r hr := by cases hr
  answering e i kept h := by cases h
  target e sig before h := by cases h
  settledDelivery e := rfl
  unsettled e _ := rfl

variable {settings} {x y : Exchange.State} {e : End}

theorem Unmodified.put (h : Unmodified x) {p : Exchange.Peer}
    (hanswering : ∀ i kept, p.signaling.answering = some (i, kept) → kept = true)
    (htarget : ∀ sig before, p.applying = some (sig, before) →
      ∀ i kept, sig.answering = some (i, kept) → kept = true)
    (hdelivery : p.settledDelivery = true)
    (hunsettled : p.state.settled = false → p.state.remote = none) : Unmodified (x.put e p) := by
  have hpeers : ∀ f, (x.put e p).peers f = p ∧ f = e ∨ (x.put e p).peers f = x.peers f := by
    intro f
    by_cases hf : f = e
    · subst hf
      exact .inl ⟨Function.update_self .., rfl⟩
    · exact .inr (Function.update_of_ne hf ..)
  refine ⟨h.answers, fun f => ?_, fun f => ?_, fun f => ?_, fun f => ?_⟩
  · rcases hpeers f with ⟨hf, -⟩ | hf
    · rw [hf]
      exact hanswering
    · rw [hf]
      exact h.answering f
  · rcases hpeers f with ⟨hf, -⟩ | hf
    · rw [hf]
      exact htarget
    · rw [hf]
      exact h.target f
  · rcases hpeers f with ⟨hf, -⟩ | hf
    · rw [hf]
      exact hdelivery
    · rw [hf]
      exact h.settledDelivery f
  · rcases hpeers f with ⟨hf, -⟩ | hf
    · rw [hf]
      exact hunsettled
    · rw [hf]
      exact h.unsettled f

/-- The delivery in force left the offer its line. -/
theorem Unmodified.delivered (h : Unmodified x) (e : End) :
    (x.peers e).signaling.delivered = true := by
  cases hanswering : (x.peers e).signaling.answering with
  | none => rw [SignalingState.delivered, hanswering]; rfl
  | some offer =>
      obtain ⟨i, kept⟩ := offer
      rw [Exchange.delivered_of_answering hanswering]
      exact h.answering e i kept hanswering

/-- Where an unmodified description leads, the offer under answer has its line. -/
theorem Unmodified.next (h : Unmodified x) {d : Exchange.Description} {sig : SignalingState}
    (hplain : plain (.record e d) = true) (hnext : x.next e d = some sig) (i : Nat) (kept : Bool)
    (hsig : sig.answering = some (i, kept)) : kept = true := by
  cases d with
  | localOffer k =>
      rw [Exchange.next_localOffer hnext] at hsig
      cases hsig
  | remoteOffer k delivered =>
      rw [Exchange.next_remoteOffer hnext] at hsig
      obtain ⟨-, rfl⟩ : k = i ∧ delivered = kept := by
        simpa [SignalingState.answering] using hsig
      exact hplain
  | localPrAnswer j =>
      obtain ⟨⟨k, delivered⟩, hx, rfl⟩ := Option.map_eq_some_iff.mp hnext
      obtain ⟨-, -, hown⟩ := Exchange.ownAnswer_eq_some hx
      obtain ⟨-, rfl⟩ : k = i ∧ delivered = kept := by
        simpa [SignalingState.answering] using hsig
      exact h.answering e k delivered hown
  | remotePrAnswer j =>
      obtain ⟨k, -, rfl⟩ := Option.map_eq_some_iff.mp hnext
      cases hsig
  | localAnswer j =>
      obtain ⟨-, -, rfl⟩ := Option.map_eq_some_iff.mp hnext
      cases hsig
  | remoteAnswer j =>
      obtain ⟨-, -, rfl⟩ := Option.map_eq_some_iff.mp hnext
      cases hsig
  | localRollback => cases hplain
  | remoteRollback => cases hplain

theorem Unmodified.step (h : Unmodified x) {a : Exchange.Action} (hplain : plain a = true)
    (hstep : Exchange.step settings x a = some y) : Unmodified y := by
  cases a with
  | createOffer e native =>
      obtain rfl := Option.some.inj hstep
      exact ⟨h.answers, h.answering, h.target, h.settledDelivery, h.unsettled⟩
  | createAnswer e native =>
      simp only [Exchange.step] at hstep
      split at hstep
      · rename_i offer kept happlying hsig
        obtain rfl := Option.some.inj hstep
        refine ⟨fun r hr => ?_, h.answering, h.target, h.settledDelivery, h.unsettled⟩
        rcases List.mem_append.mp hr with hr | hr
        · exact h.answers r hr
        · obtain rfl := List.mem_singleton.mp hr
          exact h.answering e offer kept hsig
      · cases hstep
  | record e d =>
      obtain ⟨next, r, happlying, hnext, hreq, rfl⟩ := Exchange.step_record hstep
      refine h.put (h.answering e) ?_ ?_ ?_
      · intro sig before hsig
        obtain ⟨rfl, -⟩ : next = sig ∧ (x.peers e).state = before := by
          simpa [Exchange.Peer.recorded] using hsig
        exact h.next hplain hnext
      · simp [Exchange.Peer.recorded, h.settledDelivery e, h.delivered e]
      · exact NegotiationState.record_unsettled (h.unsettled e) r.1 r.2
  | native e ok =>
      obtain ⟨sig, before, happlying, rfl⟩ := Exchange.step_native hstep
      have hok : ok = true := hplain
      subst hok
      refine h.put (h.target e sig before happlying) ?_ (h.settledDelivery e) (h.unsettled e)
      intro _ _ hk
      cases hk

/-- An end holds the other's parameters exactly once it has recorded a final answer. -/
theorem Unmodified.remote (h : Unmodified x) (hinv : Exchange.Inv x) (e : End) :
    (x.peers e).state.remote.isSome = (x.peers e).state.settled := by
  cases hsettled : (x.peers e).state.settled with
  | false => rw [h.unsettled e hsettled]; rfl
  | true =>
      obtain ⟨r, hr, hkept⟩ := (hinv.peers e).settled hsettled
      rw [hkept, h.answers r (List.mem_of_getElem? hr), h.settledDelivery e]
      rfl

/-! ### Decisions read from the record

A decision is read at one step and stored at another, and the first to be stored stays.
What a later final answer brings is too late for it.
-/

/-- A decision is to be chunked exactly when it was read after the final answer. -/
structure ChannelEnd.Inv (c : ChannelEnd) : Prop where
  asks : ∀ i decision final, c.asks i = .holding decision final → decision.isSome = final
  decided : ∀ decision, c.decided = some decision → decision.isSome = c.final

structure Inv (s : State) : Prop where
  exchange : Exchange.Inv s.exchange
  unmodified : Unmodified s.exchange
  ends : ∀ e, (s.ends e).Inv

theorem inv_start : Inv {} where
  exchange := Exchange.inv_start
  unmodified := unmodified_start
  ends _ :=
    { asks := fun _ _ _ h => nomatch h
      decided := fun _ h => nomatch h }

variable {s t : State}

theorem Inv.put (h : Inv s) {c : ChannelEnd} (hc : c.Inv) : Inv (s.put e c) where
  exchange := h.exchange
  unmodified := h.unmodified
  ends f := by
    show (Function.update s.ends e c f).Inv
    by_cases hf : f = e
    · subst hf
      rw [Function.update_self]
      exact hc
    · rw [Function.update_of_ne hf]
      exact h.ends f

/-- A thread that does not come to hold a decision leaves the end as good as it was. -/
theorem ChannelEnd.Inv.goto {c : ChannelEnd} (h : c.Inv) {i : Nat} {ask : Ask}
    (hask : ∀ decision final, ask = .holding decision final → decision.isSome = final) :
    (c.goto i ask).Inv where
  asks j decision final hj := by
    have hj' : Function.update c.asks i ask j = .holding decision final := hj
    by_cases hji : j = i
    · subst hji
      rw [Function.update_self] at hj'
      exact hask decision final hj'
    · rw [Function.update_of_ne hji] at hj'
      exact h.asks j decision final hj'
  decided := h.decided

theorem ChannelEnd.Inv.store {c : ChannelEnd} (h : c.Inv) {decision : Option Chunked}
    {final : Bool} (hdecision : decision.isSome = final) : (c.store decision final).Inv := by
  unfold ChannelEnd.store
  split
  · refine ⟨h.asks, fun d hd => ?_⟩
    obtain rfl : decision = d := Option.some.inj hd
    exact hdecision
  · exact h

theorem step_store {i : Nat} (h : step settings s (.store e i) = some t) :
    ∃ decision final, (s.ends e).asks i = .holding decision final ∧
      t = s.put e (((s.ends e).goto i .idle).store decision final) := by
  simp only [step] at h
  split at h
  · rename_i decision final hask
    exact ⟨decision, final, hask, (Option.some.inj h).symm⟩
  · cases h

theorem put_decided (s : State) {e : End} {c : ChannelEnd}
    (hdecided : c.decided = (s.ends e).decided) (f : End) :
    ((s.put e c).ends f).decided = (s.ends f).decided := by
  show (Function.update s.ends e c f).decided = _
  by_cases hf : f = e
  · subst hf
    rw [Function.update_self, hdecided]
  · rw [Function.update_of_ne hf]

/-- Any other step keeps the invariant and leaves every stored decision alone. -/
theorem Inv.step_other (h : Inv s) {a : Action} (ha : ∀ e i, a ≠ .store e i)
    (hstep : step settings s a = some t) :
    Inv t ∧ ∀ e, (t.ends e).decided = (s.ends e).decided := by
  have hput : ∀ {e : End} {c : ChannelEnd}, c.Inv → c.decided = (s.ends e).decided →
      Inv (s.put e c) ∧ ∀ f, ((s.put e c).ends f).decided = (s.ends f).decided :=
    fun hc hdecided => ⟨h.put hc, put_decided s hdecided⟩
  cases a with
  | signal a =>
      simp only [step] at hstep
      split at hstep
      · rename_i hplain
        obtain ⟨x, hx, rfl⟩ := Option.map_eq_some_iff.mp hstep
        have hmid : Inv { s with exchange := x } :=
          ⟨Exchange.inv_step h.exchange hx, h.unmodified.step hplain hx, h.ends⟩
        cases a with
        | native e ok =>
            simp only [State.connect]
            split
            · have hends : ChannelEnd.Inv { s.ends e with connected := true } :=
                ⟨(h.ends e).asks, (h.ends e).decided⟩
              exact ⟨hmid.put hends, put_decided { s with exchange := x } rfl⟩
            · exact ⟨hmid, fun _ => rfl⟩
        | _ => exact ⟨hmid, fun _ => rfl⟩
      · cases hstep
  | opens e =>
      simp only [step] at hstep
      split at hstep
      · obtain rfl := Option.some.inj hstep
        exact hput ⟨(h.ends e).asks, (h.ends e).decided⟩ rfl
      · cases hstep
  | ask e i =>
      simp only [step] at hstep
      split at hstep
      · obtain rfl := Option.some.inj hstep
        exact hput ((h.ends e).goto fun _ _ hk => nomatch hk) rfl
      · obtain rfl := Option.some.inj hstep
        exact ⟨h, fun _ => rfl⟩
      · cases hstep
  | look e i =>
      simp only [step] at hstep
      split at hstep
      · obtain rfl := Option.some.inj hstep
        refine hput ((h.ends e).goto fun _ _ hk => ?_) rfl
        split at hk <;> cases hk
      · cases hstep
  | evaluate e i =>
      simp only [step] at hstep
      split at hstep
      · obtain rfl := Option.some.inj hstep
        refine hput ((h.ends e).goto fun decision final hk => ?_) rfl
        obtain ⟨rfl, rfl⟩ := Ask.holding.inj hk
        rw [Chunked.decide_isSome]
        exact h.unmodified.remote h.exchange e
      · cases hstep
  | store e i => exact absurd rfl (ha e i)

theorem inv_step (h : Inv s) {a : Action} (hstep : step settings s a = some t) : Inv t := by
  cases a with
  | store e i =>
      obtain ⟨decision, final, hask, rfl⟩ := step_store hstep
      refine h.put
        (ChannelEnd.Inv.store ((h.ends e).goto ?_) ((h.ends e).asks i decision final hask))
      intro _ _ hk
      cases hk
  | _ =>
      refine (h.step_other ?_ hstep).1
      intro f i hk
      cases hk

/-! ### The guard is exact -/

theorem alike_iff (e : End) : s.Alike ↔
    ∀ da ∈ (s.ends e).decided, ∀ db ∈ (s.ends e.other).decided, da.isSome = db.isSome := by
  cases e with
  | a => exact Iff.rfl
  | b =>
      constructor
      · intro h db hdb da hda
        exact (h da hda db hdb).symm
      · intro h da hda db hdb
        exact (h db hdb da hda).symm

theorem Inv.alike_store (h : Inv s) (halike : s.Alike) {i : Nat} {decision : Option Chunked}
    {final : Bool} (hask : (s.ends e).asks i = .holding decision final) :
    (s.put e (((s.ends e).goto i .idle).store decision final)).Alike ↔ s.SameSide (.store e i) := by
  have hother : e.other ≠ e := by cases e <;> decide
  have hheld : decision.isSome = final := (h.ends e).asks i decision final hask
  rw [alike_iff e]
  simp only [State.put, Function.update_self, Function.update_of_ne hother]
  simp only [State.SameSide, hask]
  cases hdecided : (s.ends e).decided with
  | some d =>
      have hkept : (((s.ends e).goto i .idle).store decision final).decided = some d := by
        have hgoto : ((s.ends e).goto i .idle).decided = some d := hdecided
        unfold ChannelEnd.store
        rw [hgoto]
        exact hgoto
      rw [hkept, ← hdecided]
      refine iff_of_true ((alike_iff e).mp halike) fun hnone => ?_
      rw [hdecided] at hnone
      cases hnone
  | none =>
      have hnew : (((s.ends e).goto i .idle).store decision final).decided = some decision := by
        have hgoto : ((s.ends e).goto i .idle).decided = none := hdecided
        unfold ChannelEnd.store
        rw [hgoto]
      rw [hnew]
      constructor
      · intro hsame _ hsome
        obtain ⟨d, hd⟩ := Option.isSome_iff_exists.mp hsome
        rw [← hheld, ← (h.ends e.other).decided d hd]
        exact hsame decision rfl d hd
      · intro hside da hda db hdb
        obtain rfl : decision = da := Option.some.inj hda
        rw [hheld, (h.ends e.other).decided db hdb]
        exact hside rfl (by rw [Option.mem_def.mp hdb]; rfl)

theorem Inv.alike_step (h : Inv s) (halike : s.Alike) {a : Action}
    (hstep : step settings s a = some t) : t.Alike ↔ s.SameSide a := by
  cases a with
  | store e i =>
      obtain ⟨decision, final, hask, rfl⟩ := step_store hstep
      exact h.alike_store halike hask
  | _ =>
      have hsame := (h.step_other (by intro f i hk; cases hk) hstep).2
      refine iff_of_true ?_ trivial
      unfold State.Alike
      rw [hsame, hsame]
      exact halike

/--
**The twins decide alike in every state of a run exactly when whichever end stores its
decision second read it on the same side of its final answer as the first.**
-/
theorem twins_alike_iff_sameSide (settings : End → DcChunking) {as : List Action}
    (hrun : (machine settings).run {} as = some s) :
    (machine settings).Along State.Alike {} as ↔
      (machine settings).Guarded State.SameSide {} as := by
  refine Machine.along_iff_guarded (I := Inv) ?_ ?_ inv_start ?_ hrun
  · intro u a v hu huv
    exact inv_step hu huv
  · intro u a v hu halike huv
    exact hu.alike_step halike huv
  · intro da hda
    cases hda

instance (s : State) : Decidable s.Alike :=
  inferInstanceAs (Decidable (∀ da ∈ (s.ends .a).decided, ∀ db ∈ (s.ends .b).decided,
    da.isSome = db.isSome))

instance (s : State) (a : Action) : Decidable (s.SameSide a) :=
  match a with
  | .store e i =>
    match h : (s.ends e).asks i with
    | .holding _ final => decidable_of_iff
        ((s.ends e).decided = none → (s.ends e.other).decided.isSome = true →
          final = (s.ends e.other).final) (by simp [State.SameSide, h])
    | .idle | .undecided | .opened => .isTrue (by simp [State.SameSide, h])
  | .signal _ | .opens _ | .ask _ _ | .look _ _ | .evaluate _ _ => .isTrue trivial

/-- One round of which the answerer has applied a provisional answer, or its final one. -/
def round (answer : Nat → Exchange.Description) : List Action :=
  [.signal (.createOffer .a Exchange.smallest),
   .signal (.record .a (.localOffer 0)), .signal (.native .a true),
   .signal (.record .b (.remoteOffer 0 true)), .signal (.native .b true),
   .signal (.createAnswer .b Exchange.smallest),
   .signal (.record .b (answer 0)), .signal (.native .b true)]

/-- The channel opens at an end and is asked there. -/
def openAndAsk (e : End) : List Action :=
  [.opens e, .ask e 0, .look e 0, .evaluate e 0, .store e 0]

/-- The offerer applies the final answer and its end of the channel opens. -/
def offererAnswered : List Action :=
  [.signal (.record .a (.remoteAnswer 0)), .signal (.native .a true)] ++ openAndAsk .a

theorem twins_alike_iff_sameSide_one_answer :
    (machine fun _ => {}).Along State.Alike {}
      (round .localAnswer ++ openAndAsk .b ++ offererAnswered) :=
  (twins_alike_iff_sameSide (fun _ => {})
    ((machine fun _ => {}).run_final {} _ (by decide +kernel))).mpr (by decide +kernel)

/-- A provisional answer is enough to open the channel.  One end is asked then, the other
after the final answer. -/
theorem twins_can_differ : ¬ ∀ s, (machine fun _ => {}).Reachable s → s.Alike := by
  intro h
  have hrun := (machine fun _ => {}).run_final {}
    (round .localPrAnswer ++
      [.signal (.record .a (.remotePrAnswer 0)), .signal (.native .a true)] ++ openAndAsk .b ++
      [.signal (.record .b (.localAnswer 0)), .signal (.native .b true)] ++ offererAnswered)
    (by decide +kernel)
  exact absurd (h _ (Machine.Reachable.start.run hrun)) (by decide +kernel)

end Twin

end ReactorWebrtc
