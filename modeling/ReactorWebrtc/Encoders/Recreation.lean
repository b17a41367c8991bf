/-
Encoder instances and the tracks they are made for.

libwebrtc makes the first encoder of each track in the order the tracks were created in,
which is what the registry's line relies on, but it may make another one for a track at any
time, and nothing tells the registry that it did.  The instance takes the next reservation
in the line like any other: that of a track which is still waiting for its first encoder.

As long as that has not happened, the line is exactly the live tracks without an encoder
(`Aligned`), so an instance that is not a first one finds it empty if there are none, and
takes another track's slot otherwise.
-/
import ReactorWebrtc.Encoders.Registry
import ReactorWebrtc.Lib.Machine

namespace ReactorWebrtc

/-- What a track is created with. -/
inductive TrackEncoder
  | raw (backend : H264BackendPref)
  | preEncoded
  | inline
  deriving DecidableEq, Repr

structure TrackState where
  nativeId : Nat
  live : Bool
  deriving DecidableEq, Repr

/-- An encoder instance, the track it is made for, and whether it asks the registry for frames. -/
structure Instance where
  track : Nat
  custom : Bool
  deriving DecidableEq, Repr

/-- A factory: its tracks by number, which is that of their reservation, and the instances
by encoder id. -/
structure Factory where
  registry : EncoderRegistry := {}
  tracks : List TrackState := []
  instances : List Instance := []
  deriving DecidableEq, Repr

namespace Factory

inductive Action
  | createTrack (nativeId : Nat) (encoder : TrackEncoder)
  | dropTrack (track : Nat)
  /-- `ReactorCompositeVideoEncoderFactory::Create`, for a sender of the track. -/
  | create (track : Nat)
  /-- An instance that asks the registry is given a raw frame. -/
  | encode (encoderId : Nat)
  deriving DecidableEq, Repr

def isLive (s : Factory) (j : Nat) : Bool := s.tracks[j]?.any (·.live)

def hasInstance (s : Factory) (j : Nat) : Bool := s.instances.any (·.track == j)

/-- The tracks that still wait for their first encoder. -/
def unserved (s : Factory) : List Nat :=
  (List.range s.tracks.length).filter fun j => s.isLive j && !s.hasInstance j

/-- The instance would be the first for a live track. -/
def isFirst (s : Factory) (k : Nat) : Bool := s.isLive k && !s.hasInstance k

/-- libwebrtc makes first encoders in the order of the tracks, and others at any time. -/
def mayCreate (s : Factory) (k : Nat) : Bool :=
  decide (k < s.tracks.length) && (!s.isFirst k || s.unserved.head? == some k)

def step (s : Factory) : Action → Option Factory
  | .createTrack nativeId encoder =>
    if s.tracks.any fun tr => tr.live && tr.nativeId == nativeId then none
    else
      let number := s.tracks.length
      some { s with
        registry :=
          match encoder with
          | .raw backend => s.registry.addRawSlotWithBackend nativeId backend number
          | .preEncoded => s.registry.addEncodedSlot nativeId number
          | .inline => s.registry.addInlineSlot nativeId number
        tracks := s.tracks ++ [{ nativeId, live := true }] }
  | .dropTrack k =>
    match s.tracks[k]? with
    | some { nativeId, live := true } =>
      some { s with
        registry := s.registry.retract nativeId
        tracks := s.tracks.set k { nativeId, live := false } }
    | _ => none
  | .create k =>
    if s.mayCreate k then
      let id := s.instances.length
      let (builtin, registry) := s.registry.useBuiltinFor id
      some { s with registry, instances := s.instances ++ [{ track := k, custom := !builtin }] }
    else none
  | .encode encoderId =>
    match s.instances[encoderId]? with
    | some { track := _, custom := true } =>
      some { s with registry := (s.registry.slotFor encoderId).2 }
    | _ => none

def machine : Machine Factory Action where
  start := {}
  step := step

/-- Every slot that is bound belongs to the track its instance was made for, and an instance
without one is a builtin encoder. -/
structure Own (s : Factory) : Prop where
  slots : ∀ p ∈ s.registry.assigned, s.instances[p.1]?.map (·.track) = p.2.number
  builtin : ∀ (id : Nat) (i : Instance), s.instances[id]? = some i → i.custom = true →
    id ∈ s.registry.assigned.map (·.1)

/-! ### What a step does

A track that is created takes the last place in the line, and one that is dropped leaves it;
an instance takes the first place, if there is one.
-/

/-- The registry, the tracks and the instances, before and after. -/
inductive Moves (s t : Factory) : Action → Prop
  | createTrack {nativeId : Nat} {encoder : TrackEncoder} (x : RegistryReservation)
      (hx : x.number = s.tracks.length ∧ x.nativeId = nativeId)
      (hfresh : ∀ tr ∈ s.tracks, tr.live = true → tr.nativeId ≠ nativeId)
      (hregistry : t.registry = s.registry.reserve x)
      (htracks : t.tracks = s.tracks ++ [{ nativeId, live := true }])
      (hinstances : t.instances = s.instances) : Moves s t (.createTrack nativeId encoder)
  | dropTrack {k nativeId : Nat} (hk : s.tracks[k]? = some { nativeId, live := true })
      (hregistry : t.registry = s.registry.retract nativeId)
      (htracks : t.tracks = s.tracks.set k { nativeId, live := false })
      (hinstances : t.instances = s.instances) : Moves s t (.dropTrack k)
  | builtin {k : Nat} (hmay : s.mayCreate k = true) (hempty : s.registry.pending = [])
      (hregistry : t.registry = s.registry) (htracks : t.tracks = s.tracks)
      (hinstances : t.instances = s.instances ++ [{ track := k, custom := false }]) :
      Moves s t (.create k)
  | bind {k : Nat} (hmay : s.mayCreate k = true) (x : RegistryReservation)
      (pending : List RegistryReservation) (custom : Bool)
      (hpending : s.registry.pending = x :: pending)
      (hregistry : t.registry =
        { pending, assigned := s.registry.assigned ++ [(s.instances.length, x.assigned)] })
      (htracks : t.tracks = s.tracks)
      (hinstances : t.instances = s.instances ++ [{ track := k, custom }]) : Moves s t (.create k)
  | encode {id : Nat} (ht : t = s) : Moves s t (.encode id)

/-- What holds of a factory at any time. -/
structure Basic (s : Factory) : Prop where
  pending : ∀ r ∈ s.registry.pending,
    s.tracks[r.number]? = some (TrackState.mk r.nativeId true)
  distinct : ∀ (i j n : Nat), s.tracks[i]? = some (TrackState.mk n true) →
    s.tracks[j]? = some (TrackState.mk n true) → i = j
  ids : ∀ p ∈ s.registry.assigned, p.1 < s.instances.length
  builtin : ∀ (id : Nat) (i : Instance), s.instances[id]? = some i → i.custom = true →
    id ∈ s.registry.assigned.map (·.1)
  known : ∀ i ∈ s.instances, i.track < s.tracks.length

variable {s t : Factory} {a : Action}

theorem lookup_eq_none_of_ids {assigned : List (Nat × AssignedSlot)} {id : Nat}
    (h : ∀ p ∈ assigned, p.1 < id) : assigned.lookup id = none := by
  rw [List.lookup_eq_none_iff]
  intro p hp
  have hlt := h p hp
  simp only [bne_iff_ne]
  omega

theorem step_moves (hs : Basic s) (hstep : s.step a = some t) : Moves s t a := by
  cases a with
  | createTrack nativeId encoder =>
      simp only [step] at hstep
      split at hstep
      · cases hstep
      · rename_i hany
        obtain rfl := Option.some.inj hstep
        have hfresh : ∀ tr ∈ s.tracks, tr.live = true → tr.nativeId ≠ nativeId := by
          intro tr htr hlive hsame
          exact hany (List.any_eq_true.mpr ⟨tr, htr, by simp [hlive, hsame]⟩)
        cases encoder with
        | raw backend => exact .createTrack _ ⟨rfl, rfl⟩ hfresh rfl rfl rfl
        | preEncoded => exact .createTrack _ ⟨rfl, rfl⟩ hfresh rfl rfl rfl
        | inline => exact .createTrack _ ⟨rfl, rfl⟩ hfresh rfl rfl rfl
  | dropTrack k =>
      simp only [step] at hstep
      split at hstep
      · rename_i nativeId hk
        obtain rfl := Option.some.inj hstep
        exact .dropTrack hk rfl rfl rfl
      · cases hstep
  | create k =>
      simp only [step] at hstep
      split at hstep
      · rename_i hmay
        have hnew := lookup_eq_none_of_ids hs.ids
        unfold EncoderRegistry.useBuiltinFor at hstep
        rw [hnew] at hstep
        cases hpending : s.registry.pending with
        | nil =>
            simp only [hpending] at hstep
            obtain rfl := Option.some.inj hstep
            exact .builtin hmay hpending rfl rfl rfl
        | cons x pending =>
            simp only [hpending] at hstep
            obtain rfl := Option.some.inj hstep
            exact .bind hmay x pending _ hpending rfl rfl rfl
      · cases hstep
  | encode id =>
      simp only [step] at hstep
      split at hstep
      · rename_i track hid
        obtain rfl := Option.some.inj hstep
        obtain ⟨p, hp, hpid⟩ := List.mem_map.mp (hs.builtin id _ hid rfl)
        refine .encode ?_
        unfold EncoderRegistry.slotFor
        split
        · rfl
        · rename_i hnone
          have hne := List.lookup_eq_none_iff.mp hnone p hp
          rw [hpid] at hne
          simp at hne
      · cases hstep

theorem isLive_iff {j : Nat} :
    s.isLive j = true ↔ ∃ n, s.tracks[j]? = some (TrackState.mk n true) := by
  unfold isLive
  cases htrack : s.tracks[j]? with
  | none => simp
  | some tr =>
      obtain ⟨n, live⟩ := tr
      cases live <;> simp

theorem mem_unserved {j : Nat} :
    j ∈ s.unserved ↔ s.isLive j = true ∧ s.hasInstance j = false := by
  rw [unserved, List.mem_filter, List.mem_range, Bool.and_eq_true, Bool.not_eq_true']
  refine ⟨And.right, fun h => ⟨?_, h⟩⟩
  obtain ⟨n, hn⟩ := isLive_iff.mp h.1
  exact (List.getElem?_eq_some_iff.mp hn).1

/-! ### What holds at any time

This much needs no condition: reservations are numbered by their tracks, an instance's slot
is that of some reservation, and nothing is bound twice.
-/

theorem lt_of_mayCreate {k : Nat} (hmay : s.mayCreate k = true) : k < s.tracks.length := by
  simp only [mayCreate, Bool.and_eq_true, decide_eq_true_eq] at hmay
  exact hmay.1

/-- A live track is an old one or the new one. -/
theorem live_of_createTrack {nativeId : Nat}
    (htracks : t.tracks = s.tracks ++ [{ nativeId, live := true }]) {i n : Nat}
    (hi : t.tracks[i]? = some (TrackState.mk n true)) :
    s.tracks[i]? = some (TrackState.mk n true) ∨ i = s.tracks.length ∧ n = nativeId := by
  rw [htracks, List.getElem?_append] at hi
  split at hi
  · exact .inl hi
  · obtain ⟨hlt, hval⟩ := List.getElem?_eq_some_iff.mp hi
    rw [List.length_singleton] at hlt
    refine .inr ⟨by omega, ?_⟩
    rw [List.getElem_singleton] at hval
    exact (TrackState.mk.inj hval).1.symm

/-- A live track was live before, and is not the one dropped. -/
theorem live_of_dropTrack {k nativeId : Nat}
    (htracks : t.tracks = s.tracks.set k { nativeId, live := false }) {i n : Nat}
    (hi : t.tracks[i]? = some (TrackState.mk n true)) :
    s.tracks[i]? = some (TrackState.mk n true) ∧ i ≠ k := by
  rw [htracks, List.getElem?_set] at hi
  split at hi
  · split at hi
    · cases hi
    · cases hi
  · rename_i hne
    exact ⟨hi, fun heq => hne heq.symm⟩

theorem Basic.createTrack (h : Basic s) {nativeId : Nat} {x : RegistryReservation}
    (hx : x.number = s.tracks.length ∧ x.nativeId = nativeId)
    (hfresh : ∀ tr ∈ s.tracks, tr.live = true → tr.nativeId ≠ nativeId)
    (hregistry : t.registry = s.registry.reserve x)
    (htracks : t.tracks = s.tracks ++ [{ nativeId, live := true }])
    (hinstances : t.instances = s.instances) : Basic t := by
  refine ⟨fun r hr => ?_, fun i j n hi hj => ?_, ?_, ?_, ?_⟩
  · rw [hregistry] at hr
    rcases List.mem_append.mp hr with hr | hr
    · have htrack := h.pending r hr
      rw [htracks, List.getElem?_append_left (List.getElem?_eq_some_iff.mp htrack).1]
      exact htrack
    · rw [List.mem_singleton.mp hr, hx.1, hx.2, htracks]
      simp
  · rcases live_of_createTrack htracks hi with hi | ⟨hi, rfl⟩ <;>
      rcases live_of_createTrack htracks hj with hj | ⟨hj, hn⟩
    · exact h.distinct i j n hi hj
    · exact absurd hn (hfresh _ (List.mem_of_getElem? hi) rfl)
    · exact absurd rfl (hfresh _ (List.mem_of_getElem? hj) rfl)
    · rw [hi, hj]
  · rw [hregistry, hinstances]
    exact h.ids
  · rw [hregistry, hinstances]
    exact h.builtin
  · rw [hinstances, htracks, List.length_append]
    exact fun i hi => Nat.lt_of_lt_of_le (h.known i hi) (Nat.le_add_right _ _)

theorem Basic.dropTrack (h : Basic s) {k nativeId : Nat}
    (hk : s.tracks[k]? = some { nativeId, live := true })
    (hregistry : t.registry = s.registry.retract nativeId)
    (htracks : t.tracks = s.tracks.set k { nativeId, live := false })
    (hinstances : t.instances = s.instances) : Basic t := by
  refine ⟨fun r hr => ?_, fun i j n hi hj => ?_, ?_, ?_, ?_⟩
  · rw [hregistry] at hr
    obtain ⟨hr, hother⟩ := List.mem_filter.mp hr
    have htrack := h.pending r hr
    have hne : k ≠ r.number := by
      rintro rfl
      rw [hk] at htrack
      have hsame := (TrackState.mk.inj (Option.some.inj htrack)).1
      simp [hsame] at hother
    rw [htracks, List.getElem?_set_ne hne]
    exact htrack
  · exact h.distinct i j n (live_of_dropTrack htracks hi).1 (live_of_dropTrack htracks hj).1
  · rw [hregistry, hinstances]
    intro p hp
    obtain ⟨p', hp', rfl⟩ := List.mem_map.mp hp
    exact h.ids p' hp'
  · rw [hregistry, hinstances]
    intro id i hi hcustom
    have hkeys : (s.registry.retract nativeId).assigned.map (·.1)
        = s.registry.assigned.map (·.1) := by
      simp [EncoderRegistry.retract]
    rw [hkeys]
    exact h.builtin id i hi hcustom
  · rw [hinstances, htracks, List.length_set]
    exact h.known

/-- What an instance more leaves as it is, whether it takes a reservation or not. -/
theorem Basic.instance_append (h : Basic s) {k : Nat} {custom : Bool}
    (hmay : s.mayCreate k = true) (htracks : t.tracks = s.tracks)
    (hinstances : t.instances = s.instances ++ [{ track := k, custom }]) :
    (∀ p ∈ s.registry.assigned, p.1 < t.instances.length) ∧
      (∀ (id : Nat) (i : Instance), t.instances[id]? = some i → i.custom = true →
        id ∈ s.registry.assigned.map (·.1) ∨ id = s.instances.length ∧ custom = true) ∧
      ∀ i ∈ t.instances, i.track < t.tracks.length := by
  refine ⟨fun p hp => ?_, fun id i hi hcustom => ?_, fun i hi => ?_⟩
  · rw [hinstances, List.length_append]
    exact Nat.lt_of_lt_of_le (h.ids p hp) (Nat.le_add_right _ _)
  · rw [hinstances, List.getElem?_append] at hi
    split at hi
    · exact .inl (h.builtin id i hi hcustom)
    · obtain ⟨hlt, hval⟩ := List.getElem?_eq_some_iff.mp hi
      rw [List.length_singleton] at hlt
      rw [List.getElem_singleton] at hval
      rw [← hval] at hcustom
      exact .inr ⟨by omega, hcustom⟩
  · rw [hinstances] at hi
    rw [htracks]
    rcases List.mem_append.mp hi with hi | hi
    · exact h.known i hi
    · rw [List.mem_singleton.mp hi]
      exact lt_of_mayCreate hmay

theorem Moves.basic (hmoves : Moves s t a) (h : Basic s) : Basic t := by
  cases hmoves with
  | createTrack x hx hfresh hregistry htracks hinstances =>
      exact h.createTrack hx hfresh hregistry htracks hinstances
  | dropTrack hk hregistry htracks hinstances => exact h.dropTrack hk hregistry htracks hinstances
  | builtin hmay hempty hregistry htracks hinstances =>
      obtain ⟨hids, hbuiltin, hknown⟩ := h.instance_append hmay htracks hinstances
      refine ⟨?_, ?_, ?_, ?_, hknown⟩
      · rw [hregistry, htracks]
        exact h.pending
      · rw [htracks]
        exact h.distinct
      · rw [hregistry]
        exact hids
      · rw [hregistry]
        intro id i hi hcustom
        rcases hbuiltin id i hi hcustom with hid | ⟨-, hfalse⟩
        · exact hid
        · cases hfalse
  | bind hmay x pending custom hfirst hregistry htracks hinstances =>
      obtain ⟨hids, hbuiltin, hknown⟩ := h.instance_append hmay htracks hinstances
      refine ⟨?_, ?_, ?_, ?_, hknown⟩
      · rw [hregistry, htracks]
        exact fun r hr => h.pending r (by rw [hfirst]; exact List.mem_cons_of_mem _ hr)
      · rw [htracks]
        exact h.distinct
      · rw [hregistry]
        intro p hp
        rcases List.mem_append.mp hp with hp | hp
        · exact hids p hp
        · rw [List.mem_singleton.mp hp, hinstances, List.length_append]
          exact Nat.lt_succ_self _
      · rw [hregistry]
        intro id i hi hcustom
        rw [List.map_append]
        rcases hbuiltin id i hi hcustom with hid | ⟨hid, -⟩
        · exact List.mem_append_left _ hid
        · simp [hid]
  | encode ht =>
      rw [ht]
      exact h

/-! ### The line and the tracks without an encoder

Where the line is that of the tracks that wait, a first instance finds its own track's
reservation in front if it is in turn.  An instance that is made again finds its track's
gone, and takes what is there.
-/

/-- The line is what the live tracks without an encoder reserved, in their order. -/
def Aligned (s : Factory) : Prop := s.registry.pending.map (·.number) = s.unserved

theorem hasInstance_append {k : Nat} {custom : Bool}
    (hinstances : t.instances = s.instances ++ [{ track := k, custom }]) (j : Nat) :
    t.hasInstance j = (s.hasInstance j || k == j) := by
  unfold hasInstance
  rw [hinstances, List.any_append, List.any_cons, List.any_nil, Bool.or_false]

/-- An instance more leaves one track less without. -/
theorem unserved_append {k : Nat} {custom : Bool} (htracks : t.tracks = s.tracks)
    (hinstances : t.instances = s.instances ++ [{ track := k, custom }]) :
    t.unserved = s.unserved.filter (· ≠ k) := by
  unfold unserved
  rw [htracks, List.filter_filter]
  refine List.filter_congr fun j _ => ?_
  have hlive : t.isLive j = s.isLive j := by rw [isLive, isLive, htracks]
  rw [hlive, hasInstance_append hinstances]
  by_cases hjk : j = k
  · simp [hjk]
  · have hkj : (k == j) = false := by simpa using Ne.symm hjk
    simp [hjk, hkj]

theorem unserved_createTrack {nativeId : Nat} (hs : Basic s)
    (htracks : t.tracks = s.tracks ++ [{ nativeId, live := true }])
    (hinstances : t.instances = s.instances) :
    t.unserved = s.unserved ++ [s.tracks.length] := by
  have hnone : t.hasInstance s.tracks.length = false := by
    unfold hasInstance
    rw [hinstances, List.any_eq_false]
    intro i hi
    have hlt := hs.known i hi
    simp only [beq_iff_eq]
    omega
  have hlast : t.isLive s.tracks.length = true := by
    unfold isLive
    rw [htracks]
    simp
  unfold unserved
  rw [htracks, List.length_append, List.length_singleton, List.range_succ, List.filter_append]
  congr 1
  · refine List.filter_congr fun j hj => ?_
    have hlt := List.mem_range.mp hj
    have hlive : t.isLive j = s.isLive j := by
      unfold isLive
      rw [htracks, List.getElem?_append_left hlt]
    have hinst : t.hasInstance j = s.hasInstance j := by rw [hasInstance, hasInstance, hinstances]
    rw [hlive, hinst]
  · simp [hlast, hnone]

theorem unserved_dropTrack {k nativeId : Nat}
    (hk : s.tracks[k]? = some { nativeId, live := true })
    (htracks : t.tracks = s.tracks.set k { nativeId, live := false })
    (hinstances : t.instances = s.instances) : t.unserved = s.unserved.filter (· ≠ k) := by
  unfold unserved
  rw [htracks, List.length_set, List.filter_filter]
  refine List.filter_congr fun j _ => ?_
  have hinst : t.hasInstance j = s.hasInstance j := by rw [hasInstance, hasInstance, hinstances]
  rw [hinst]
  unfold isLive
  rw [htracks]
  by_cases hjk : j = k
  · rw [hjk, List.getElem?_set_self (List.getElem?_eq_some_iff.mp hk).1]
    simp
  · rw [List.getElem?_set_ne (Ne.symm hjk)]
    simp [hjk]

/-- The slot an instance takes is its own exactly when its track is the next in the line. -/
theorem own_bind {k : Nat} {x : RegistryReservation} {pending : List RegistryReservation}
    {custom : Bool} (hs : Basic s) (ht : Basic t) (hown : Own s)
    (hregistry : t.registry =
      { pending, assigned := s.registry.assigned ++ [(s.instances.length, x.assigned)] })
    (hinstances : t.instances = s.instances ++ [{ track := k, custom }]) :
    Own t ↔ k = x.number := by
  have hnew : t.instances[s.instances.length]?.map (·.track) = some k := by
    rw [hinstances]
    simp
  constructor
  · intro h
    have hslot := h.slots (s.instances.length, x.assigned) (by rw [hregistry]; simp)
    rw [hnew] at hslot
    exact Option.some.inj hslot
  · intro hk
    refine ⟨fun p hp => ?_, ht.builtin⟩
    rw [hregistry] at hp
    rcases List.mem_append.mp hp with hp | hp
    · rw [hinstances, List.getElem?_append_left (hs.ids p hp)]
      exact hown.slots p hp
    · rw [List.mem_singleton.mp hp, hnew, hk]
      rfl

theorem Moves.aligned (hmoves : Moves s t a) (hs : Basic s) (ht : Basic t) (hown : Own s)
    (halign : Aligned s) (hownt : Own t) : Aligned t := by
  unfold Aligned at halign ⊢
  cases hmoves with
  | createTrack x hx hfresh hregistry htracks hinstances =>
      rw [hregistry, unserved_createTrack hs htracks hinstances, ← halign, ← hx.1]
      exact List.map_append
  | @dropTrack k nativeId hk hregistry htracks hinstances =>
      rw [hregistry, unserved_dropTrack hk htracks hinstances, ← halign, List.filter_map]
      refine congrArg _ (List.filter_congr fun r hr => ?_)
      have hr' := hs.pending r hr
      have hiff : r.nativeId = nativeId ↔ r.number = k := by
        constructor
        · intro hsame
          rw [hsame] at hr'
          exact hs.distinct _ _ nativeId hr' hk
        · rintro rfl
          rw [hk] at hr'
          exact (TrackState.mk.inj (Option.some.inj hr')).1.symm
      simp [hiff]
  | builtin hmay hempty hregistry htracks hinstances =>
      rw [hempty, List.map_nil] at halign
      rw [hregistry, hempty, unserved_append htracks hinstances, ← halign]
      rfl
  | @bind k hmay x pending custom hfirst hregistry htracks hinstances =>
      obtain rfl := (own_bind hs ht hown hregistry hinstances).mp hownt
      rw [hfirst, List.map_cons] at halign
      have hnodup : s.unserved.Nodup := List.nodup_range.filter _
      rw [← halign, List.nodup_cons] at hnodup
      rw [hregistry, unserved_append htracks hinstances, ← halign,
        List.filter_cons_of_neg (by simp)]
      refine (List.filter_eq_self.mpr fun j hj => ?_).symm
      have hne : j ≠ x.number := fun heq => hnodup.1 (heq ▸ hj)
      simpa using hne
  | encode hsame =>
      rw [hsame]
      exact halign

/-- An instance that is not a first one is made when no live track waits for its first. -/
def inTurn (s : Factory) : Action → Bool
  | .create k => s.isFirst k || s.unserved.isEmpty
  | _ => true

theorem Moves.own_iff (hmoves : Moves s t a) (hs : Basic s) (ht : Basic t) (hown : Own s)
    (halign : Aligned s) : Own t ↔ s.inTurn a = true := by
  have hsame : t.instances = s.instances →
      (∀ p ∈ t.registry.assigned, ∃ p' ∈ s.registry.assigned, p'.1 = p.1 ∧
        p'.2.number = p.2.number) → Own t := by
    intro hinstances hassigned
    refine ⟨fun p hp => ?_, ht.builtin⟩
    obtain ⟨p', hp', hid, hnumber⟩ := hassigned p hp
    rw [hinstances, ← hid, ← hnumber]
    exact hown.slots p' hp'
  cases hmoves with
  | createTrack x hx hfresh hregistry htracks hinstances =>
      refine iff_of_true (hsame hinstances fun p hp => ?_) rfl
      rw [hregistry] at hp
      exact ⟨p, hp, rfl, rfl⟩
  | @dropTrack k nativeId hk hregistry htracks hinstances =>
      refine iff_of_true (hsame hinstances fun p hp => ?_) rfl
      rw [hregistry] at hp
      obtain ⟨p', hp', rfl⟩ := List.mem_map.mp hp
      exact ⟨p', hp', rfl, (EncoderRegistry.degrade_nativeId nativeId p'.2).2.symm⟩
  | builtin hmay hempty hregistry htracks hinstances =>
      have hnone : s.unserved = [] := by
        rw [← halign, hempty]
        rfl
      refine iff_of_true ⟨fun p hp => ?_, ht.builtin⟩ (by simp [inTurn, hnone])
      rw [hregistry] at hp
      rw [hinstances, List.getElem?_append_left (hs.ids p hp)]
      exact hown.slots p hp
  | @bind k hmay x pending custom hfirst hregistry htracks hinstances =>
      have hline : s.unserved = x.number :: pending.map (·.number) := by
        rw [← halign, hfirst]
        rfl
      rw [own_bind hs ht hown hregistry hinstances, inTurn, hline, List.isEmpty_cons,
        Bool.or_false]
      constructor
      · rintro rfl
        have hmem : x.number ∈ s.unserved := by
          rw [hline]
          exact List.mem_cons_self
        obtain ⟨hlive, hinst⟩ := mem_unserved.mp hmem
        simp [isFirst, hlive, hinst]
      · intro hisFirst
        simp only [mayCreate, hisFirst, hline, Bool.not_true, Bool.false_or, Bool.and_eq_true,
          List.head?_cons, beq_iff_eq, Option.some.injEq] at hmay
        exact hmay.2.symm
  | encode heq =>
      rw [heq]
      exact iff_of_true hown rfl

/--
**An encoder has the slot of the track it was made for, all along a run, exactly when
libwebrtc makes an instance that is not a track's first only while no live track waits for
its first.**
-/
theorem own_slots_iff_in_turn {as : List Action} (hrun : machine.run machine.start as = some s) :
    machine.Along Own machine.start as ↔
      machine.Guarded (fun s a => s.inTurn a = true) machine.start as := by
  refine Machine.along_iff_guarded_kept (I := fun s => Basic s ∧ Aligned s) ?_ ?_ ?_ ?_ hrun
  · rintro u a v ⟨hu, halign⟩ hown hturn hstep
    have hmoves := step_moves hu hstep
    have hv := hmoves.basic hu
    have hownv := (hmoves.own_iff hu hv hown halign).mpr hturn
    exact ⟨hv, hmoves.aligned hu hv hown halign hownv⟩
  · rintro u a v ⟨hu, halign⟩ hown hstep
    have hmoves := step_moves hu hstep
    exact hmoves.own_iff hu (hmoves.basic hu) hown halign
  · refine ⟨⟨?_, ?_, ?_, ?_, ?_⟩, rfl⟩
    · exact fun r hr => absurd hr List.not_mem_nil
    · exact fun i j n hi => by cases hi
    · exact fun p hp => absurd hp List.not_mem_nil
    · exact fun id i hi => by cases hi
    · exact fun i hi => absurd hi List.not_mem_nil
  · exact ⟨fun p hp => absurd hp List.not_mem_nil, fun id i hi => by cases hi⟩

/-- Two tracks get their encoders, and then the first another one, before it is dropped. -/
theorem own_slots_iff_in_turn_recreated :
    machine.Along Own machine.start
      [.createTrack 7 .preEncoded, .createTrack 8 (.raw .auto), .create 0, .create 1, .create 0,
        .dropTrack 0, .create 0] :=
  (own_slots_iff_in_turn (machine.run_final machine.start _ (by decide +kernel))).mpr
    (by decide +kernel)

/-- An encoder made again for the first track, after it was dropped, takes the slot of the
second. -/
theorem recreated_encoder_takes_slot :
    ¬ ∀ s, machine.Reachable s → Own s := by
  intro h
  have hrun := machine.run_final machine.start
    [.createTrack 7 .preEncoded, .createTrack 8 .preEncoded, .create 0, .dropTrack 0, .create 0]
    (by decide +kernel)
  have hslots := (h _ ⟨_, hrun⟩).slots
  exact absurd hslots (by decide +kernel)

end Factory

end ReactorWebrtc
