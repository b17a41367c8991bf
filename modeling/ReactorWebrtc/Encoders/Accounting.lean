/-
What the encoder registry keeps straight.

A reservation goes through the line once and is bound at most once, so what is bound, in
the order it was bound, and what is still in the line make one increasing sequence of
reservations: `Accounts` is that, and where every reservation has gone.  A queue belongs to
one reservation, so the frames handed out of it went to one instance.  And a reservation
that its track has taken back is out of reach for good: nothing gives it a slot again.

All of it holds in any order of steps, also where instances are made again or for tracks
that are gone.  Whether an instance has the slot of its own track is another question, and
that is `Encoders.Recreation`.
-/
import Mathlib.Data.List.Pairwise
import ReactorWebrtc.Encoders.Registry
import ReactorWebrtc.Lib.Machine
import ReactorWebrtc.Metadata.Pipeline

namespace ReactorWebrtc

/-- A registry, the queues its slots share with the tracks, and what came of them. -/
structure Encoders where
  registry : EncoderRegistry := {}
  queues : Nat → List EncodedVideoFrame := fun _ => []
  /-- Every reservation made. -/
  made : List RegistryReservation := []
  /-- The reservations taken back before they were bound. -/
  retracted : List Nat := []
  /-- The frames pushed, each with its queue. -/
  pushed : List (Nat × EncodedVideoFrame) := []
  /-- The frames returned, each with the encoder id and the queue. -/
  returned : List (Nat × Nat × EncodedVideoFrame) := []
  /-- The callbacks run, and the listeners asked for a key frame, each by its encoder id. -/
  called : List (Nat × Nat) := []
  keyFrameRequests : List (Nat × Nat) := []

namespace Encoders

inductive Action
  | addEncodedSlot (nativeId : Nat)
  | addInlineSlot (nativeId : Nat)
  | addRawSlot (nativeId : Nat) (backend : H264BackendPref)
  | useBuiltinFor (encoderId : Nat)
  | encodeFor (encoderId : Nat) (requestKeyFrame : Bool)
  | retract (nativeId : Nat)
  /-- A track pushes a frame into the queue it was given. -/
  | pushFrame (queue : Nat) (frame : EncodedVideoFrame)
  deriving DecidableEq, Repr

def setQueue (queues : Nat → List EncodedVideoFrame) (q : Nat) (frames : List EncodedVideoFrame) :
    Nat → List EncodedVideoFrame := fun p => if p = q then frames else queues p

/-- The queue is one a track was given. -/
def isQueue (s : Encoders) (q : Nat) : Bool := s.made.any (·.slot == .custom q)

/-- `encode_for`: the next frame of a queue, or whatever a callback makes of the raw frame. -/
def encodeFor (s : Encoders) (encoderId : Nat) (requestKeyFrame : Bool) : Encoders :=
  let (a, registry) := s.registry.slotFor encoderId
  let s := { s with registry }
  match a.slot with
  | .custom q =>
    let s :=
      if requestKeyFrame then { s with keyFrameRequests := s.keyFrameRequests ++ [(encoderId, q)] }
      else s
    match s.queues q with
    | frame :: rest =>
      { s with
        queues := setQueue s.queues q rest
        returned := s.returned ++ [(encoderId, q, frame)] }
    | [] => s
  | .inline cb => { s with called := s.called ++ [(encoderId, cb)] }
  | .builtin _ => s

def step (s : Encoders) : Action → Option Encoders
  | .addEncodedSlot nativeId =>
    let number := s.made.length
    some { s with
      registry := s.registry.addEncodedSlot nativeId number
      made := s.made ++ [{ nativeId, slot := .custom number, number }] }
  | .addInlineSlot nativeId =>
    let number := s.made.length
    some { s with
      registry := s.registry.addInlineSlot nativeId number
      made := s.made ++ [{ nativeId, slot := .inline number, number }] }
  | .addRawSlot nativeId backend =>
    let number := s.made.length
    some { s with
      registry := s.registry.addRawSlotWithBackend nativeId backend number
      made := s.made ++ [{ nativeId, slot := .builtin backend, number }] }
  | .useBuiltinFor encoderId => some { s with registry := (s.registry.useBuiltinFor encoderId).2 }
  | .encodeFor encoderId requestKeyFrame => some (s.encodeFor encoderId requestKeyFrame)
  | .retract nativeId =>
    some { s with
      registry := s.registry.retract nativeId
      retracted := s.retracted ++
        (s.registry.pending.filter (·.nativeId = nativeId)).map (·.number) }
  | .pushFrame q frame =>
    if s.isQueue q then
      some { s with queues := setQueue s.queues q (s.queues q ++ [frame])
                    pushed := s.pushed ++ [(q, frame)] }
    else none

def machine : Machine Encoders Action where
  start := {}
  step := step

/-! ### What a step does to the registry -/

/-- The registry, what was reserved and what was taken back, before and after. -/
inductive Moves (s t : Encoders) : Prop
  | reserve (x : RegistryReservation) (hx : x.number = s.made.length)
      (hslot : x.slot = .custom x.number ∨ x.slot = .inline x.number ∨ x.slot.isBuiltin = true)
      (hregistry : t.registry = s.registry.reserve x) (hmade : t.made = s.made ++ [x])
      (hretracted : t.retracted = s.retracted)
  | ask (encoderId : Nat) (hbinds : s.registry.Binds encoderId t.registry)
      (hmade : t.made = s.made) (hretracted : t.retracted = s.retracted)
  | retract (nativeId : Nat) (hregistry : t.registry = s.registry.retract nativeId)
      (hmade : t.made = s.made)
      (hretracted : t.retracted = s.retracted ++
        (s.registry.pending.filter (·.nativeId = nativeId)).map (·.number))

/-- The queues and what was taken from them, before and after; the encoder is bound to what
it takes from. -/
inductive Feeds (s t : Encoders) : Prop
  | same (hqueues : t.queues = s.queues) (hpushed : t.pushed = s.pushed)
      (hreturned : t.returned = s.returned) (hcalled : t.called = s.called)
  | push (q : Nat) (frame : EncodedVideoFrame)
      (hqueues : t.queues = setQueue s.queues q (s.queues q ++ [frame]))
      (hpushed : t.pushed = s.pushed ++ [(q, frame)])
      (hreturned : t.returned = s.returned) (hcalled : t.called = s.called)
  | take (encoderId q : Nat) (frame : EncodedVideoFrame) (rest : List EncodedVideoFrame)
      (a : AssignedSlot) (ha : t.registry.assigned.lookup encoderId = some a)
      (hslot : a.slot = .custom q) (hqueue : s.queues q = frame :: rest)
      (hqueues : t.queues = setQueue s.queues q rest) (hpushed : t.pushed = s.pushed)
      (hreturned : t.returned = s.returned ++ [(encoderId, q, frame)])
      (hcalled : t.called = s.called)
  | call (encoderId cb : Nat)
      (a : AssignedSlot) (ha : t.registry.assigned.lookup encoderId = some a)
      (hslot : a.slot = .inline cb) (hqueues : t.queues = s.queues) (hpushed : t.pushed = s.pushed)
      (hreturned : t.returned = s.returned) (hcalled : t.called = s.called ++ [(encoderId, cb)])

variable {s t : Encoders} {a : Action}

theorem encodeFor_moves (s : Encoders) (encoderId : Nat) (requestKeyFrame : Bool) :
    Moves s (s.encodeFor encoderId requestKeyFrame) ∧
      Feeds s (s.encodeFor encoderId requestKeyFrame) := by
  obtain ⟨hbinds, hbound⟩ := s.registry.slotFor_binds encoderId
  unfold encodeFor
  generalize s.registry.slotFor encoderId = answer at hbinds hbound
  obtain ⟨a, registry⟩ := answer
  cases hslot : a.slot with
  | custom q =>
      cases hqueue : s.queues q with
      | nil =>
          cases requestKeyFrame with
          | true =>
              simp only [hslot, if_true, hqueue]
              exact ⟨.ask encoderId hbinds rfl rfl, .same rfl rfl rfl rfl⟩
          | false =>
              simp only [hslot, Bool.false_eq_true, if_false, hqueue]
              exact ⟨.ask encoderId hbinds rfl rfl, .same rfl rfl rfl rfl⟩
      | cons frame rest =>
          cases requestKeyFrame with
          | true =>
              simp only [hslot, if_true, hqueue]
              exact ⟨.ask encoderId hbinds rfl rfl,
                .take encoderId q frame rest a hbound hslot hqueue rfl rfl rfl rfl⟩
          | false =>
              simp only [hslot, Bool.false_eq_true, if_false, hqueue]
              exact ⟨.ask encoderId hbinds rfl rfl,
                .take encoderId q frame rest a hbound hslot hqueue rfl rfl rfl rfl⟩
  | inline cb =>
      simp only [hslot]
      exact ⟨.ask encoderId hbinds rfl rfl, .call encoderId cb a hbound hslot rfl rfl rfl rfl⟩
  | builtin backend =>
      simp only [hslot]
      exact ⟨.ask encoderId hbinds rfl rfl, .same rfl rfl rfl rfl⟩

theorem step_moves (hstep : step s a = some t) : Moves s t ∧ Feeds s t := by
  cases a with
  | addEncodedSlot nativeId =>
      obtain rfl := Option.some.inj hstep
      exact ⟨.reserve _ rfl (.inl rfl) rfl rfl rfl, .same rfl rfl rfl rfl⟩
  | addInlineSlot nativeId =>
      obtain rfl := Option.some.inj hstep
      exact ⟨.reserve _ rfl (.inr (.inl rfl)) rfl rfl rfl, .same rfl rfl rfl rfl⟩
  | addRawSlot nativeId backend =>
      obtain rfl := Option.some.inj hstep
      exact ⟨.reserve _ rfl (.inr (.inr rfl)) rfl rfl rfl, .same rfl rfl rfl rfl⟩
  | useBuiltinFor encoderId =>
      obtain rfl := Option.some.inj hstep
      exact ⟨.ask encoderId (s.registry.useBuiltinFor_binds encoderId) rfl rfl,
        .same rfl rfl rfl rfl⟩
  | encodeFor encoderId requestKeyFrame =>
      obtain rfl := Option.some.inj hstep
      exact s.encodeFor_moves encoderId requestKeyFrame
  | retract nativeId =>
      obtain rfl := Option.some.inj hstep
      exact ⟨.retract nativeId rfl rfl rfl, .same rfl rfl rfl rfl⟩
  | pushFrame q frame =>
      simp only [step] at hstep
      split at hstep
      · obtain rfl := Option.some.inj hstep
        exact ⟨.ask 0 .same rfl rfl, .push q frame rfl rfl rfl rfl⟩
      · cases hstep

/-! ### Where the reservations are

The line keeps its order and is taken from the front, so what is bound and what waits are
one sequence in the order of the reservations, with gaps where tracks have taken theirs
back.
-/

/-- The reservations that are bound, in the order they were. -/
def bound (s : Encoders) : List Nat := s.registry.assigned.filterMap (·.2.number)

/-- The reservations in the line. -/
def waiting (s : Encoders) : List Nat := s.registry.pending.map (·.number)

/-- A slot that is bound is the one of its reservation, or was taken back. -/
def Origin (made : List RegistryReservation) (a : AssignedSlot) : Prop :=
  (a.number = none ∧ a.slot.isBuiltin = true) ∨
    ∃ r : RegistryReservation, a.number = some r.number ∧ made[r.number]? = some r ∧
      a.nativeId = r.nativeId ∧
      (a.slot = r.slot ∨ a.slot.isBuiltin = true)

structure Accounts (s : Encoders) : Prop where
  numbered : ∀ (q : Nat) (r : RegistryReservation), s.made[q]? = some r → r.number = q ∧
    (r.slot = .custom q ∨ r.slot = .inline q ∨ r.slot.isBuiltin = true)
  pending : ∀ r ∈ s.registry.pending, s.made[r.number]? = some r
  assigned : ∀ p ∈ s.registry.assigned, Origin s.made p.2
  increasing : (s.bound ++ s.waiting).Pairwise (· < ·)
  settled : ∀ q < s.made.length, q ∈ s.bound ∨ q ∈ s.waiting ∨ q ∈ s.retracted

theorem Origin.more {made : List RegistryReservation} {a : AssignedSlot} (h : Origin made a)
    (x : RegistryReservation) : Origin (made ++ [x]) a := by
  rcases h with h | ⟨r, hnumber, hmade, hrest⟩
  · exact .inl h
  · have hlt := (List.getElem?_eq_some_iff.mp hmade).1
    exact .inr ⟨r, hnumber, by rw [List.getElem?_append_left hlt]; exact hmade, hrest⟩

theorem Origin.degrade {made : List RegistryReservation} {a : AssignedSlot} (h : Origin made a)
    (nativeId : Nat) : Origin made (EncoderRegistry.degrade nativeId a) := by
  unfold EncoderRegistry.degrade
  split
  · rcases h with h | ⟨r, hnumber, hmade, hnative, -⟩
    · exact .inl ⟨h.1, rfl⟩
    · exact .inr ⟨r, hnumber, hmade, hnative, .inr rfl⟩
  · exact h

theorem Accounts.lt_made (h : Accounts s) {q : Nat} (hq : q ∈ s.bound ++ s.waiting) :
    q < s.made.length := by
  rcases List.mem_append.mp hq with hq | hq
  · obtain ⟨p, hp, hnumber⟩ := List.mem_filterMap.mp hq
    rcases h.assigned p hp with ⟨hnone, -⟩ | ⟨r, hr, hmade, -⟩
    · rw [hnone] at hnumber
      cases hnumber
    · obtain rfl := Option.some.inj (hr.symm.trans hnumber)
      exact (List.getElem?_eq_some_iff.mp hmade).1
  · obtain ⟨r, hr, rfl⟩ := List.mem_map.mp hq
    exact (List.getElem?_eq_some_iff.mp (h.pending r hr)).1

theorem Accounts.reserve (h : Accounts s) {x : RegistryReservation}
    (hx : x.number = s.made.length)
    (hslot : x.slot = .custom x.number ∨ x.slot = .inline x.number ∨ x.slot.isBuiltin = true)
    (hregistry : t.registry = s.registry.reserve x) (hmade : t.made = s.made ++ [x])
    (hretracted : t.retracted = s.retracted) : Accounts t := by
  have hbound : t.bound = s.bound := by rw [bound, hregistry]; rfl
  have hwaiting : t.waiting = s.waiting ++ [x.number] := by
    rw [waiting, hregistry]
    simp [EncoderRegistry.reserve, waiting]
  have hold : ∀ {q : Nat} {r : RegistryReservation}, s.made[q]? = some r →
      t.made[q]? = some r := by
    intro q r hr
    rw [hmade, List.getElem?_append_left (List.getElem?_eq_some_iff.mp hr).1]
    exact hr
  have hnew : t.made[x.number]? = some x := by
    rw [hmade, hx]
    simp
  refine ⟨fun q r hr => ?_, fun r hr => ?_, fun p hp => ?_, ?_, fun q hq => ?_⟩
  · by_cases hlt : q < s.made.length
    · rw [hmade, List.getElem?_append_left hlt] at hr
      exact h.numbered q r hr
    · have hle : q = s.made.length := by
        have hlen := (List.getElem?_eq_some_iff.mp hr).1
        rw [hmade, List.length_append, List.length_singleton] at hlen
        omega
      rw [hle, ← hx, hnew] at hr
      obtain rfl := Option.some.inj hr
      rw [hle, ← hx]
      exact ⟨rfl, hslot⟩
  · rw [hregistry] at hr
    rcases List.mem_append.mp hr with hr | hr
    · exact hold (h.pending r hr)
    · rw [List.mem_singleton.mp hr]
      exact hnew
  · rw [hregistry] at hp
    rw [hmade]
    exact (h.assigned p hp).more x
  · rw [hbound, hwaiting, ← List.append_assoc, List.pairwise_append]
    refine ⟨h.increasing, List.pairwise_singleton _ _, fun q hq y hy => ?_⟩
    rw [List.mem_singleton.mp hy, hx]
    exact h.lt_made hq
  · rw [hbound, hwaiting, hretracted]
    rw [hmade, List.length_append, List.length_singleton] at hq
    by_cases hlt : q < s.made.length
    · rcases h.settled q hlt with hb | hw | hr
      · exact .inl hb
      · exact .inr (.inl (List.mem_append_left _ hw))
      · exact .inr (.inr hr)
    · refine .inr (.inl (List.mem_append_right _ ?_))
      rw [List.mem_singleton, hx]
      omega

theorem Accounts.ask (h : Accounts s) {encoderId : Nat}
    (hbinds : s.registry.Binds encoderId t.registry) (hmade : t.made = s.made)
    (hretracted : t.retracted = s.retracted) : Accounts t := by
  -- what is bound next is what is first in the line, so the sequence of both stays
  have hkeep : t.bound ++ t.waiting = s.bound ++ s.waiting ∧
      (∀ r ∈ t.registry.pending, r ∈ s.registry.pending) ∧
      ∀ p ∈ t.registry.assigned, p ∈ s.registry.assigned ∨ Origin s.made p.2 := by
    unfold bound waiting
    generalize t.registry = registry at hbinds ⊢
    cases hbinds with
    | same => exact ⟨rfl, fun r hr => hr, fun p hp => .inl hp⟩
    | @next x pending hnew hpending =>
        refine ⟨?_, fun r hr => ?_, fun p hp => ?_⟩
        · rw [hpending]
          simp [RegistryReservation.assigned]
        · rw [hpending]
          exact List.mem_cons_of_mem _ hr
        · rcases List.mem_append.mp hp with hp | hp
          · exact .inl hp
          · rw [List.mem_singleton.mp hp]
            have hx := h.pending x (by rw [hpending]; exact List.mem_cons_self)
            exact .inr (.inr ⟨x, rfl, hx, rfl, .inl rfl⟩)
    | none hnew hpending =>
        refine ⟨?_, fun r hr => hr, fun p hp => ?_⟩
        · simp [EncoderRegistry.fallback]
        · rcases List.mem_append.mp hp with hp | hp
          · exact .inl hp
          · rw [List.mem_singleton.mp hp]
            exact .inr (.inl ⟨rfl, rfl⟩)
  obtain ⟨hsequence, hpending, hassigned⟩ := hkeep
  refine ⟨?_, fun r hr => ?_, fun p hp => ?_, ?_, fun q hq => ?_⟩
  · rw [hmade]
    exact h.numbered
  · rw [hmade]
    exact h.pending r (hpending r hr)
  · rw [hmade]
    rcases hassigned p hp with hp | horigin
    · exact h.assigned p hp
    · exact horigin
  · rw [hsequence]
    exact h.increasing
  · have hmem : ∀ q, q ∈ t.bound ∨ q ∈ t.waiting ↔ q ∈ s.bound ∨ q ∈ s.waiting := by
      intro q
      rw [← List.mem_append, ← List.mem_append, hsequence]
    rw [hmade] at hq
    rw [hretracted, ← or_assoc, hmem, or_assoc]
    exact h.settled q hq

theorem Accounts.retract (h : Accounts s) {nativeId : Nat}
    (hregistry : t.registry = s.registry.retract nativeId) (hmade : t.made = s.made)
    (hretracted : t.retracted = s.retracted ++
      (s.registry.pending.filter (·.nativeId = nativeId)).map (·.number)) : Accounts t := by
  have hbound : t.bound = s.bound := by
    unfold bound
    rw [hregistry, EncoderRegistry.retract, List.filterMap_map]
    congr 1
    funext p
    exact (EncoderRegistry.degrade_nativeId nativeId p.2).2
  have hpending : t.registry.pending = s.registry.pending.filter (·.nativeId ≠ nativeId) := by
    rw [hregistry]
    rfl
  refine ⟨?_, fun r hr => ?_, fun p hp => ?_, ?_, fun q hq => ?_⟩
  · rw [hmade]
    exact h.numbered
  · rw [hpending] at hr
    rw [hmade]
    exact h.pending r (List.mem_of_mem_filter hr)
  · rw [hregistry] at hp
    obtain ⟨p', hp', rfl⟩ := List.mem_map.mp hp
    rw [hmade]
    exact (h.assigned p' hp').degrade nativeId
  · refine h.increasing.sublist ?_
    rw [hbound, waiting, hpending]
    exact (List.filter_sublist.map _).append_left _
  · rw [hmade] at hq
    rw [hbound, hretracted, waiting, hpending]
    rcases h.settled q hq with hb | hw | hr
    · exact .inl hb
    · obtain ⟨r, hr, rfl⟩ := List.mem_map.mp hw
      by_cases hnative : r.nativeId = nativeId
      · refine .inr (.inr (List.mem_append_right _ (List.mem_map_of_mem ?_)))
        exact List.mem_filter.mpr ⟨hr, by simpa using hnative⟩
      · refine .inr (.inl (List.mem_map_of_mem ?_))
        exact List.mem_filter.mpr ⟨hr, by simpa using hnative⟩
    · exact .inr (.inr (List.mem_append_left _ hr))

theorem Moves.accounts (hmoves : Moves s t) (h : Accounts s) : Accounts t := by
  cases hmoves with
  | reserve x hx hslot hregistry hmade hretracted =>
      exact h.reserve hx hslot hregistry hmade hretracted
  | ask encoderId hbinds hmade hretracted => exact h.ask hbinds hmade hretracted
  | retract nativeId hregistry hmade hretracted => exact h.retract hregistry hmade hretracted

/-- What an instance is bound to stays, whatever becomes of the slot. -/
theorem Moves.keeps (hmoves : Moves s t) {id : Nat} {a : AssignedSlot}
    (ha : s.registry.assigned.lookup id = some a) :
    ∃ a', t.registry.assigned.lookup id = some a' ∧ a'.nativeId = a.nativeId ∧
      a'.number = a.number := by
  cases hmoves with
  | reserve x hx hslot hregistry hmade hretracted =>
      rw [hregistry]
      exact ⟨a, ha, rfl, rfl⟩
  | ask encoderId hbinds hmade hretracted => exact ⟨a, hbinds.keeps ha, rfl, rfl⟩
  | retract nativeId hregistry hmade hretracted =>
      rw [hregistry, EncoderRegistry.lookup_retract, ha]
      exact ⟨_, rfl, EncoderRegistry.degrade_nativeId nativeId a⟩

/-! ### Frames

Frames come out of a queue in the order in which they went in, and the instance that takes
them is the one that the queue's reservation is bound to.
-/

/-- What was handed out, and to whom. -/
structure Handed (s : Encoders) : Prop where
  queues : ∀ q, (s.returned.filter (·.2.1 = q)).map (·.2.2) ++ s.queues q
    = (s.pushed.filter (·.1 = q)).map (·.2)
  returned : ∀ x ∈ s.returned,
    ∃ a, s.registry.assigned.lookup x.1 = some a ∧ a.number = some x.2.1

/-- A slot with a queue or a callback of its own is that of its reservation. -/
theorem Accounts.number_of_slot (h : Accounts s) {id q : Nat} {a : AssignedSlot}
    (ha : s.registry.assigned.lookup id = some a)
    (hslot : a.slot = .custom q ∨ a.slot = .inline q) : a.number = some q := by
  obtain ⟨front, rest, hassigned, -⟩ := List.lookup_eq_some_iff.mp ha
  have hnot : ¬ a.slot.isBuiltin = true := by
    rcases hslot with hslot | hslot <;> simp [hslot, RegistrySlot.isBuiltin]
  rcases h.assigned (id, a) (by rw [hassigned]; simp) with
    ⟨-, hbuiltin⟩ | ⟨r, hnumber, hr, -, hrest⟩
  · exact absurd hbuiltin hnot
  · rcases hrest with hsame | hbuiltin
    · have hkind := (h.numbered _ _ hr).2
      rw [← hsame] at hkind
      rw [hnumber]
      rcases hslot with hslot | hslot <;> simpa [hslot, RegistrySlot.isBuiltin, eq_comm] using hkind
    · exact absurd hbuiltin hnot

theorem Feeds.handed (hfeeds : Feeds s t) (hmoves : Moves s t) (ht : Accounts t) (h : Handed s) :
    Handed t := by
  have hold : ∀ x ∈ s.returned,
      ∃ a, t.registry.assigned.lookup x.1 = some a ∧ a.number = some x.2.1 := by
    intro x hx
    obtain ⟨a, ha, hnumber⟩ := h.returned x hx
    obtain ⟨a', ha', -, hsame⟩ := hmoves.keeps ha
    exact ⟨a', ha', hsame.trans hnumber⟩
  cases hfeeds with
  | same hqueues hpushed hreturned hcalled =>
      refine ⟨?_, by rw [hreturned]; exact hold⟩
      rw [hqueues, hpushed, hreturned]
      exact h.queues
  | push q frame hqueues hpushed hreturned hcalled =>
      refine ⟨fun p => ?_, by rw [hreturned]; exact hold⟩
      rw [hqueues, hpushed, hreturned]
      by_cases hp : p = q
      · rw [hp, setQueue, if_pos rfl, ← List.append_assoc, h.queues q]
        simp
      · rw [setQueue, if_neg hp, h.queues p]
        simp [Ne.symm hp]
  | take encoderId q frame rest a ha hslot hqueue hqueues hpushed hreturned hcalled =>
      refine ⟨fun p => ?_, ?_⟩
      · rw [hqueues, hpushed, hreturned]
        have hsum := h.queues p
        by_cases hp : p = q
        · rw [hp, hqueue] at hsum
          rw [hp, setQueue, if_pos rfl, ← hsum]
          simp
        · rw [setQueue, if_neg hp, ← hsum]
          simp [Ne.symm hp]
      · rw [hreturned]
        intro x hx
        rcases List.mem_append.mp hx with hx | hx
        · exact hold x hx
        · rw [List.mem_singleton.mp hx]
          exact ⟨a, ha, ht.number_of_slot ha (.inl hslot)⟩
  | call encoderId cb a ha hslot hqueues hpushed hreturned hcalled =>
      refine ⟨?_, by rw [hreturned]; exact hold⟩
      rw [hqueues, hpushed, hreturned]
      exact h.queues

/-! ### A reservation that was taken back -/

/-- Nothing can hand out a frame of this reservation, or run its callback. -/
structure Dead (q : Nat) (s : Encoders) : Prop where
  made : q < s.made.length
  pending : q ∉ s.waiting
  assigned : ∀ p ∈ s.registry.assigned, p.2.number = some q → p.2.slot.isBuiltin = true

theorem Moves.dead (hmoves : Moves s t) {q : Nat} (h : Dead q s) : Dead q t := by
  obtain ⟨hlt, hpending, hassigned⟩ := h
  cases hmoves with
  | reserve x hx hslot hregistry hmade hretracted =>
      refine ⟨?_, ?_, ?_⟩
      · rw [hmade, List.length_append]
        omega
      · rw [waiting, hregistry, EncoderRegistry.reserve, List.map_append]
        intro hmem
        rcases List.mem_append.mp hmem with hmem | hmem
        · exact hpending hmem
        · have hq : q = x.number := by simpa using hmem
          omega
      · rw [hregistry]
        exact hassigned
  | ask encoderId hbinds hmade hretracted =>
      suffices hrest : q ∉ t.registry.pending.map (·.number) ∧
          ∀ p ∈ t.registry.assigned, p.2.number = some q → p.2.slot.isBuiltin = true from
        ⟨by rw [hmade]; exact hlt, hrest.1, hrest.2⟩
      unfold waiting at hpending
      generalize t.registry = registry at hbinds ⊢
      cases hbinds with
      | same => exact ⟨hpending, hassigned⟩
      | @next x pending hnew hfirst =>
          rw [hfirst, List.map_cons, List.mem_cons, not_or] at hpending
          refine ⟨hpending.2, fun p hp hnumber => ?_⟩
          rcases List.mem_append.mp hp with hp | hp
          · exact hassigned p hp hnumber
          · rw [List.mem_singleton.mp hp] at hnumber
            exact absurd (Option.some.inj hnumber).symm hpending.1
      | none hnew hempty =>
          refine ⟨hpending, fun p hp hnumber => ?_⟩
          rcases List.mem_append.mp hp with hp | hp
          · exact hassigned p hp hnumber
          · rw [List.mem_singleton.mp hp]
            rfl
  | retract nativeId hregistry hmade hretracted =>
      refine ⟨by rw [hmade]; exact hlt, fun hmem => hpending ?_, fun p hp hnumber => ?_⟩
      · rw [waiting, hregistry] at hmem
        obtain ⟨r, hr, hq⟩ := List.mem_map.mp hmem
        exact List.mem_map.mpr ⟨r, List.mem_of_mem_filter hr, hq⟩
      · rw [hregistry] at hp
        obtain ⟨p', hp', rfl⟩ := List.mem_map.mp hp
        have hold := hassigned p' hp'
          ((EncoderRegistry.degrade_nativeId nativeId p'.2).2.symm.trans hnumber)
        exact EncoderRegistry.degrade_builtin nativeId hold

theorem Feeds.dead (hfeeds : Feeds s t) (ht : Accounts t) {q : Nat} (h : Dead q t) :
    t.returned.filter (·.2.1 = q) = s.returned.filter (·.2.1 = q) ∧
      t.called.filter (·.2 = q) = s.called.filter (·.2 = q) := by
  have hother : ∀ {id p : Nat} {a : AssignedSlot}, t.registry.assigned.lookup id = some a →
      (a.slot = .custom p ∨ a.slot = .inline p) → p ≠ q := by
    rintro id p a ha hslot rfl
    obtain ⟨front, rest, hassigned, -⟩ := List.lookup_eq_some_iff.mp ha
    have hbuiltin := h.assigned (id, a) (by rw [hassigned]; simp) (ht.number_of_slot ha hslot)
    rcases hslot with hslot | hslot <;> simp [hslot, RegistrySlot.isBuiltin] at hbuiltin
  cases hfeeds with
  | same hqueues hpushed hreturned hcalled => rw [hreturned, hcalled]; exact ⟨rfl, rfl⟩
  | push p frame hqueues hpushed hreturned hcalled => rw [hreturned, hcalled]; exact ⟨rfl, rfl⟩
  | take encoderId p frame rest a ha hslot hqueue hqueues hpushed hreturned hcalled =>
      rw [hreturned, hcalled]
      simp [hother ha (.inl hslot)]
  | call encoderId cb a ha hslot hqueues hpushed hreturned hcalled =>
      rw [hreturned, hcalled]
      simp [hother ha (.inr hslot)]

/-! ### Runs -/

theorem reachable_accounts (h : machine.Reachable s) : Accounts s ∧ Handed s := by
  refine Machine.invariant (I := fun s => Accounts s ∧ Handed s) ⟨⟨?_, ?_, ?_, ?_, ?_⟩, ?_, ?_⟩
    ?_ h
  · exact fun q r hr => by cases hr
  · exact fun r hr => absurd hr List.not_mem_nil
  · exact fun p hp => absurd hp List.not_mem_nil
  · exact List.Pairwise.nil
  · exact fun q hq => absurd hq (Nat.not_lt_zero q)
  · exact fun q => rfl
  · exact fun x hx => absurd hx List.not_mem_nil
  · rintro u a v ⟨hu, hhanded⟩ hstep
    obtain ⟨hmoves, hfeeds⟩ := step_moves hstep
    have hv := hmoves.accounts hu
    exact ⟨hv, hfeeds.handed hmoves hv hhanded⟩

/-- An instance stays with the track it is bound to. -/
theorem run_keeps {as : List Action} (hrun : machine.run s as = some t) {id : Nat}
    {a : AssignedSlot} (ha : s.registry.assigned.lookup id = some a) :
    ∃ a', t.registry.assigned.lookup id = some a' ∧ a'.nativeId = a.nativeId ∧
      a'.number = a.number := by
  refine Machine.run_invariant (M := machine) (I := fun u => ∃ a',
    u.registry.assigned.lookup id = some a' ∧ a'.nativeId = a.nativeId ∧ a'.number = a.number)
    ?_ ⟨a, ha, rfl, rfl⟩ hrun
  rintro u x v ⟨a', ha', hnative, hnumber⟩ hstep
  obtain ⟨a'', ha'', hnative', hnumber'⟩ := (step_moves hstep).1.keeps ha'
  exact ⟨a'', ha'', hnative'.trans hnative, hnumber'.trans hnumber⟩

/-- What was taken back is never handed out again. -/
theorem run_dead {as : List Action} {q : Nat} (hs : Accounts s) (hq : Dead q s)
    (hrun : machine.run s as = some t) :
    t.returned.filter (·.2.1 = q) = s.returned.filter (·.2.1 = q) ∧
      t.called.filter (·.2 = q) = s.called.filter (·.2 = q) := by
  refine (Machine.run_invariant (M := machine) (I := fun u => Accounts u ∧ Dead q u ∧
    u.returned.filter (·.2.1 = q) = s.returned.filter (·.2.1 = q) ∧
      u.called.filter (·.2 = q) = s.called.filter (·.2 = q))
    ?_ ⟨hs, hq, rfl, rfl⟩ hrun).2.2
  rintro u x v ⟨hu, hdead, hreturned, hcalled⟩ hstep
  obtain ⟨hmoves, hfeeds⟩ := step_moves hstep
  have hv := hmoves.accounts hu
  have hvdead := hmoves.dead hdead
  obtain ⟨hreturned', hcalled'⟩ := hfeeds.dead hv hvdead
  exact ⟨hv, hvdead, hreturned'.trans hreturned, hcalled'.trans hcalled⟩

/-- What holds of a registry at any time. -/
structure Accounted (s : Encoders) : Prop where
  oneEncoder : ∀ id id' a a' q, s.registry.assigned.lookup id = some a →
    s.registry.assigned.lookup id' = some a' → a.number = some q → a'.number = some q → id = id'
  inOrder : s.bound.Pairwise (· < ·)
  /-- Whatever was reserved before what is bound is bound, or was taken back. -/
  noneSkipped : ∀ q ∈ s.bound, ∀ p < q, p ∈ s.bound ∨ p ∈ s.retracted
  /-- What an instance was given, and what is still queued for it, is what was pushed. -/
  frames : ∀ id a q, s.registry.assigned.lookup id = some a → a.number = some q →
    (s.returned.filter (·.1 = id)).map (·.2.2) ++ s.queues q
      = (s.pushed.filter (·.1 = q)).map (·.2)

/-- What the drop of a track does. -/
structure Retracted (nativeId : Nat) (s t : Encoders) : Prop where
  pending : ∀ r ∈ t.registry.pending, r.nativeId ≠ nativeId
  assigned : ∀ id a, t.registry.assigned.lookup id = some a → a.nativeId = nativeId →
    a.slot.isBuiltin = true
  /-- No later call returns a frame of the track or runs its callback. -/
  later : ∀ as u, machine.run t as = some u → ∀ (q : Nat) (r : RegistryReservation),
    t.made[q]? = some r → r.nativeId = nativeId →
    u.returned.filter (·.2.1 = q) = t.returned.filter (·.2.1 = q) ∧
      u.called.filter (·.2 = q) = t.called.filter (·.2 = q)
  othersPending : t.registry.pending = s.registry.pending.filter (·.nativeId ≠ nativeId)
  othersAssigned : ∀ id a, a.nativeId ≠ nativeId →
    (t.registry.assigned.lookup id = some a ↔ s.registry.assigned.lookup id = some a)
  queues : t.queues = s.queues

theorem accounted (hs : Accounts s) (hhanded : Handed s) : Accounted s := by
  have hsorted := (List.pairwise_append.mp hs.increasing).1
  have hone : ∀ id id' a a' q, s.registry.assigned.lookup id = some a →
      s.registry.assigned.lookup id' = some a' → a.number = some q → a'.number = some q →
      id = id' := by
    intro id id' a a' q ha ha' hq hq'
    obtain ⟨front, rest, hassigned, -⟩ := List.lookup_eq_some_iff.mp ha
    obtain ⟨front', rest', hassigned', -⟩ := List.lookup_eq_some_iff.mp ha'
    have hnodup : s.bound.Nodup := hsorted.imp fun h => Nat.ne_of_lt h
    rw [bound, hassigned, List.filterMap_append, List.filterMap_cons_some (f := fun
      (p : Nat × AssignedSlot) => p.2.number) hq, List.nodup_append] at hnodup
    obtain ⟨-, hcons, hapart⟩ := hnodup
    have hmem : (id', a') ∈ front ++ (id, a) :: rest := by
      rw [← hassigned, hassigned']
      simp
    rcases List.mem_append.mp hmem with hmem | hmem
    · have hin : q ∈ front.filterMap (·.2.number) := List.mem_filterMap.mpr ⟨_, hmem, hq'⟩
      exact absurd rfl (hapart q hin q List.mem_cons_self)
    · rcases List.mem_cons.mp hmem with heq | hmem
      · exact (Prod.mk.inj heq).1.symm
      · have hin : q ∈ rest.filterMap (·.2.number) := List.mem_filterMap.mpr ⟨_, hmem, hq'⟩
        exact absurd hin (List.nodup_cons.mp hcons).1
  refine ⟨hone, hsorted, fun q hq p hp => ?_, fun id a q ha hq => ?_⟩
  · have hlt := hs.lt_made (List.mem_append_left _ hq)
    rcases hs.settled p (hp.trans hlt) with hb | hw | hr
    · exact .inl hb
    · have hqp := (List.pairwise_append.mp hs.increasing).2.2 q hq p hw
      omega
    · exact .inr hr
  · have hsame : s.returned.filter (·.1 = id) = s.returned.filter (·.2.1 = q) := by
      refine List.filter_congr fun x hx => ?_
      obtain ⟨a', ha', hnumber⟩ := hhanded.returned x hx
      rw [decide_eq_decide]
      constructor
      · rintro rfl
        rw [ha] at ha'
        obtain rfl := Option.some.inj ha'
        exact Option.some.inj (hnumber.symm.trans hq)
      · rintro rfl
        exact hone x.1 id a' a _ ha' ha hnumber hq
    rw [hsame]
    exact hhanded.queues q

theorem retracted_of_step {nativeId : Nat} (hs : Accounts s)
    (hstep : s.step (.retract nativeId) = some t) : Retracted nativeId s t := by
  have ht := (step_moves hstep).1.accounts hs
  have hregistry : t.registry = s.registry.retract nativeId ∧ t.queues = s.queues := by
    obtain rfl := Option.some.inj hstep
    exact ⟨rfl, rfl⟩
  obtain ⟨hregistry, hqueues⟩ := hregistry
  have hpending : t.registry.pending = s.registry.pending.filter (·.nativeId ≠ nativeId) := by
    rw [hregistry]
    rfl
  have hnone : ∀ r ∈ t.registry.pending, r.nativeId ≠ nativeId := by
    intro r hr
    rw [hpending] at hr
    simpa using (List.mem_filter.mp hr).2
  have hbuiltin : ∀ p ∈ t.registry.assigned, p.2.nativeId = nativeId →
      p.2.slot.isBuiltin = true := by
    intro p hp hnative
    rw [hregistry] at hp
    obtain ⟨p', hp', rfl⟩ := List.mem_map.mp hp
    exact EncoderRegistry.degrade_isBuiltin
      ((EncoderRegistry.degrade_nativeId nativeId p'.2).1.symm.trans hnative)
  refine ⟨hnone, fun id a ha hnative => ?_, fun as u hrun q r hr hnative => ?_, hpending,
    fun id a hnative => ?_, hqueues⟩
  · obtain ⟨front, rest, hassigned, -⟩ := List.lookup_eq_some_iff.mp ha
    exact hbuiltin (id, a) (by rw [hassigned]; simp) hnative
  · refine run_dead ht ⟨(List.getElem?_eq_some_iff.mp hr).1, fun hw => ?_, fun p hp hnumber => ?_⟩
      hrun
    · obtain ⟨r', hr', rfl⟩ := List.mem_map.mp hw
      rw [ht.pending r' hr'] at hr
      obtain rfl := Option.some.inj hr
      exact hnone r' hr' hnative
    · rcases ht.assigned p hp with ⟨hno, -⟩ | ⟨r', hnumber', hr', hnative', -⟩
      · rw [hno] at hnumber
        cases hnumber
      · obtain rfl := Option.some.inj (hnumber'.symm.trans hnumber)
        rw [hr'] at hr
        obtain rfl := Option.some.inj hr
        exact hbuiltin p hp (hnative'.trans hnative)
  · rw [hregistry, EncoderRegistry.lookup_retract]
    constructor
    · intro h
      obtain ⟨a', ha', rfl⟩ := Option.map_eq_some_iff.mp h
      have hother : a'.nativeId ≠ nativeId := by
        rwa [(EncoderRegistry.degrade_nativeId nativeId a').1] at hnative
      rw [EncoderRegistry.degrade_other hother]
      exact ha'
    · intro h
      rw [h, Option.map_some, EncoderRegistry.degrade_other hnative]

/--
**The registry's accounts.**  A reservation is bound once and in its turn, an instance
stays with its track, every frame handed out is the next one pushed for it, and a track
that is dropped takes back what is its own and nothing else.
-/
theorem registry_accounts :
    (∀ s, machine.Reachable s → Accounted s) ∧
    (∀ s as t, machine.Reachable s → machine.run s as = some t →
      ∀ id a, s.registry.assigned.lookup id = some a →
        ∃ a', t.registry.assigned.lookup id = some a' ∧ a'.nativeId = a.nativeId ∧
          a'.number = a.number) ∧
    ∀ s nativeId t, machine.Reachable s → s.step (.retract nativeId) = some t →
      Retracted nativeId s t := by
  refine ⟨fun s hs => ?_, fun s as t _ hrun id a ha => run_keeps hrun ha,
    fun s nativeId t hs hstep => ?_⟩
  · obtain ⟨haccounts, hhanded⟩ := reachable_accounts hs
    exact accounted haccounts hhanded
  · exact retracted_of_step (reachable_accounts hs).1 hstep

/-- Two tracks, of which the second is dropped with a frame in its queue. -/
theorem registry_accounts_two_tracks :
    ∃ s, Accounted s ∧ s.returned = [(0, 0, { data := [1], push := 0 })] ∧ s.retracted = [1] := by
  have hrun := machine.run_final machine.start
    [.addEncodedSlot 7, .addEncodedSlot 8, .useBuiltinFor 0,
      .pushFrame 0 { data := [1], push := 0 },
      .pushFrame 1 { data := [2], push := 1 }, .retract 8, .encodeFor 0 false, .encodeFor 1 false]
    (by decide +kernel)
  exact ⟨_, registry_accounts.1 _ ⟨_, hrun⟩, by decide +kernel, by decide +kernel⟩

end Encoders

end ReactorWebrtc
