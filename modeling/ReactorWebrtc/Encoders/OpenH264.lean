/-
The codecs of the loaded OpenH264 library.

The library is loaded once for a factory and shared: the encoder factory, the decoder factory
and every codec they make have a reference to it, and it is unloaded with the last of them.
A codec has a native object of the library's for as long as it is initialised, and every call
on that object is code of the library.  Initialising may fail halfway, may be asked for twice,
and a codec may be deleted in any state.

What the encoder hands on is put together from layers, which the native object leaves in
buffers of its own: `encode_assembles` says that the image has them whole and in order.
-/
import Mathlib.Data.List.Nodup
import ReactorWebrtc.Lib.Counted
import ReactorWebrtc.Lib.Machine
import ReactorWebrtc.Lib.Arena
import ReactorWebrtc.Lib.Traverse
import ReactorWebrtc.Chunking.Frame

namespace ReactorWebrtc.OpenH264

/-- Which of the two factories makes a codec, and what it is then. -/
inductive Kind
  | encoder | decoder
  deriving DecidableEq, Repr

/-- How far a native object is: made, past its `Initialize`, past its `Uninitialize`. -/
inductive Phase
  | made | ready | closed
  deriving DecidableEq, Repr

/-- An `OpenH264VideoEncoder` or `OpenH264VideoDecoder`. -/
structure Codec where
  kind : Kind
  native : Option Nat := none
  deriving DecidableEq, Repr

/-- From where the library is loaded and both factories have it. -/
structure State where
  /-- The pointer of `factory_create` itself. -/
  opening : Bool := true
  factories : Kind → Bool := fun _ => true
  library : Counted := { count := 3 }
  /-- What was loaded. -/
  handle : Counted := {}
  codecs : List Codec := []
  objects : Arena Nat := {}
  phase : Nat → Phase := fun _ => .made
  next : Nat := 0
  /-- Calls on a native object in a phase that they are not for. -/
  misused : Nat := 0

/-- What the creating thread, the factories and the codecs do, in any order. -/
inductive Action
  | leave
  | dropFactory (kind : Kind)
  | create (kind : Kind)
  /-- `InitEncode` or `Configure`; the library makes the object or not, initialises it or not. -/
  | init (k : Nat) (made ok : Bool)
  /-- `Encode`, `Decode` or `SetRates` -/
  | use (k : Nat)
  | release (k : Nat)
  | delete (k : Nat)
  deriving DecidableEq, Repr

/-- Only who is there can do anything: a factory until it is dropped, a codec until it is
deleted. -/
def enabled (s : State) : Action → Prop
  | .leave => s.opening = true
  | .dropFactory kind | .create kind => s.factories kind = true
  | .init k _ _ | .use k | .release k | .delete k => k < s.codecs.length

instance (s : State) : ∀ a, Decidable (enabled s a)
  | .leave | .dropFactory _ | .create _ => inferInstanceAs (Decidable (_ = _))
  | .init _ _ _ | .use _ | .release _ | .delete _ => inferInstanceAs (Decidable (_ < _))

namespace State

/-- The codec's object, if it has one. -/
def native (s : State) (k : Nat) : Option Nat := s.codecs[k]?.bind Codec.native

/-- `Release`: the object, if there is one, is closed and destroyed. -/
def close (s : State) (k : Nat) : State :=
  match s.native k with
  | none => s
  | some n =>
    { s with
      handle := s.handle.use
      objects := (s.objects.read n).free n
      phase := Function.update s.phase n .closed
      misused := if s.phase n = .ready then s.misused else s.misused + 1
      codecs := s.codecs.modify k fun c => { c with native := none } }

/-- A new object is made, and kept if it can be initialised.  Initialising is all that is called
on it here: for an encoder `GetDefaultParams` before `InitializeExt`, and if that succeeds an
option after it. -/
def start (s : State) (k : Nat) (made ok : Bool) : State :=
  if made then
    if ok then
      { s with
        handle := s.handle.use
        objects := (s.objects.alloc s.next).read s.next
        phase := Function.update s.phase s.next .ready
        next := s.next + 1
        codecs := s.codecs.modify k fun c => { c with native := some s.next } }
    else
      { s with
        handle := s.handle.use
        objects := ((s.objects.alloc s.next).read s.next).free s.next
        next := s.next + 1 }
  else { s with handle := s.handle.use }

/-- A call on the object; a codec that has none answers by itself. -/
def useNative (s : State) (k : Nat) : State :=
  match s.native k with
  | none => s
  | some n =>
    { s with
      handle := s.handle.use
      objects := s.objects.read n
      misused := if s.phase n = .ready then s.misused else s.misused + 1 }

/-- One reference to the library less; the last one unloads it. -/
def letGo (s : State) : State :=
  { s with
    library := s.library.release
    handle := if s.library.count = 1 then s.handle.release else s.handle }

end State

/-- Initialising takes the old object apart first, and so does deleting. -/
def effect (s : State) : Action → State
  | .leave => { s with opening := false }.letGo
  | .dropFactory kind => { s with factories := Function.update s.factories kind false }.letGo
  | .create kind => { s with library := s.library.retain, codecs := s.codecs ++ [{ kind }] }
  | .init k made ok => (s.close k).start k made ok
  | .use k => s.useNative k
  | .release k => s.close k
  | .delete k =>
    let t := s.close k
    { t with codecs := t.codecs.eraseIdx k }.letGo

/-- From the moment at which the library has been loaded. -/
def machine : Machine State Action := .ofEffect {} enabled effect

/-! ### What is kept

A codec's native object is known by a number of its own, and belongs to one codec.  The
handle of the library is there as long as anybody has a reference, so the code that runs is.
-/

variable {s t : State} {a : Action} {k n : Nat}

namespace State

/-- The references to the library. -/
def refs (s : State) : Nat :=
  s.opening.toNat + (s.factories .encoder).toNat + (s.factories .decoder).toNat + s.codecs.length

/-- The objects of all the codecs. -/
def natives (s : State) : List Nat := s.codecs.filterMap Codec.native

end State

/-- What is there and how many references there are to it, by who has one. -/
structure Inv (s : State) : Prop where
  library : s.library.Held s.refs
  handle : s.handle.Held (if s.refs = 0 then 0 else 1)
  objects : s.objects.Holds (· ∈ s.natives)
  /-- No two codecs have the same object. -/
  once : s.natives.Nodup
  ready : ∀ n ∈ s.natives, s.phase n = .ready
  fresh : ∀ n, s.next ≤ n → s.objects.life n = .unborn
  misused : s.misused = 0

namespace Inv

theorem loaded (h : Inv s) (hrefs : 0 < s.refs) : s.handle.Held 1 := by
  have hhandle := h.handle
  rwa [if_neg (Nat.ne_of_gt hrefs)] at hhandle

/-- A state in which somebody has the library. -/
theorem of_refs {refs : Nat} (hrefs : t.refs = refs) (hpos : 0 < refs)
    (hlibrary : t.library.Held refs) (hhandle : t.handle.Held 1)
    (hobjects : t.objects.Holds (· ∈ t.natives))
    (honce : t.natives.Nodup) (hready : ∀ n ∈ t.natives, t.phase n = .ready)
    (hfresh : ∀ n, t.next ≤ n → t.objects.life n = .unborn) (hmisused : t.misused = 0) : Inv t where
  library := hrefs.symm ▸ hlibrary
  handle := by
    rw [hrefs, if_neg (Nat.ne_of_gt hpos)]
    exact hhandle
  objects := hobjects
  once := honce
  ready := hready
  fresh := hfresh
  misused := hmisused

theorem refs_pos (hk : k < s.codecs.length) : 0 < s.refs := by
  unfold State.refs
  omega

/-- The codec stands between others, and may get another object, or go. -/
theorem around (hk : k < s.codecs.length) :
    ∃ l c r, s.codecs = l ++ c :: r ∧ s.native k = c.native ∧
      (∀ native, s.codecs.modify k (fun c => { c with native }) = l ++ { c with native } :: r) ∧
      s.codecs.eraseIdx k = l ++ r := by
  have hget : s.codecs[k]? = some s.codecs[k] := List.getElem?_eq_getElem hk
  obtain ⟨l, r, hcodecs, hmodify, -, herase⟩ := Traverse.exists_around hget
  refine ⟨l, s.codecs[k], r, hcodecs, ?_, fun native => hmodify _, herase⟩
  unfold State.native
  rw [hget]
  rfl

/-- A codec's object is ready, and is no other codec's. -/
theorem of_native (h : Inv s) (hk : k < s.codecs.length) (hn : s.native k = some n) :
    n ∈ s.natives ∧ s.phase n = .ready := by
  obtain ⟨l, c, r, hcodecs, hnative, -, -⟩ := around hk
  have hmem : n ∈ s.natives := by
    refine List.mem_filterMap.mpr ⟨c, ?_, hnative.symm.trans hn⟩
    rw [hcodecs]
    simp
  exact ⟨hmem, h.ready n hmem⟩

/-- The objects, with the one of this codec between the others. -/
theorem natives_around (hk : k < s.codecs.length) :
    ∃ l r, s.natives = l ++ ((s.native k).toList ++ r) ∧
      ∀ native, (s.codecs.modify k fun c => { c with native }).filterMap Codec.native =
        l ++ (native.toList ++ r) := by
  obtain ⟨l, c, r, hcodecs, hnative, hmodify, -⟩ := around hk
  have hsplit (c : Codec) : (l ++ c :: r).filterMap Codec.native =
      l.filterMap Codec.native ++ (c.native.toList ++ r.filterMap Codec.native) := by
    rw [List.filterMap_append, List.filterMap_cons]
    cases c.native <;> rfl
  refine ⟨l.filterMap Codec.native, r.filterMap Codec.native, ?_, fun native => ?_⟩
  · unfold State.natives
    rw [hcodecs, hsplit, hnative]
  · rw [hmodify, hsplit]

theorem lt_next (h : Inv s) (hn : n ∈ s.natives) : n < s.next := by
  rcases Nat.lt_or_ge n s.next with hlt | hge
  · exact hlt
  · exact absurd (h.fresh n hge) (h.objects.ne_unborn hn)

/-- Closing destroys the codec's own object, and no other. -/
theorem close (h : Inv s) (hk : k < s.codecs.length) :
    Inv (s.close k) ∧ (s.close k).codecs.length = s.codecs.length ∧
      (s.close k).native k = none := by
  unfold State.close
  cases hn : s.native k with
  | none => exact ⟨h, rfl, hn⟩
  | some n =>
      obtain ⟨hmem, hready⟩ := h.of_native hk hn
      obtain ⟨l, r, hnatives, hmodify⟩ := natives_around hk
      rw [hn] at hnatives
      have hnodup : (n :: (l ++ r)).Nodup := List.nodup_middle.mp (hnatives ▸ h.once)
      obtain ⟨hnot, hrest⟩ := List.nodup_cons.mp hnodup
      have hpos : 0 < s.refs := refs_pos hk
      have hlength : (s.codecs.modify k fun c => { c with native := none }).length =
          s.codecs.length := List.length_modify ..
      have hmem_iff (m : Nat) :
          m ∈ (s.codecs.modify k fun c => { c with native := none }).filterMap Codec.native ↔
            m ∈ s.natives ∧ m ≠ n := by
        rw [hmodify, hnatives]
        show m ∈ l ++ r ↔ m ∈ l ++ n :: r ∧ m ≠ n
        rw [List.mem_append, List.mem_append, List.mem_cons]
        refine ⟨fun hm => ⟨hm.imp_right .inr, ?_⟩, fun ⟨hm, hne⟩ => ?_⟩
        · rintro rfl
          exact hnot (List.mem_append.mpr hm)
        · exact hm.imp_right fun hm => hm.resolve_left hne
      have hrefs : s.opening.toNat + (s.factories .encoder).toNat + (s.factories .decoder).toNat +
          (s.codecs.modify k fun c => { c with native := none }).length = s.refs := by
        rw [hlength]
        rfl
      refine ⟨of_refs hrefs hpos h.library ((h.loaded hpos).use Nat.one_pos) ?_ ?_ ?_ ?_ ?_,
        hlength, ?_⟩
      · show ((s.objects.read n).free n).Holds _
        rw [h.objects.read hmem]
        exact h.objects.free hmem hmem_iff
      · show ((s.codecs.modify k _).filterMap Codec.native).Nodup
        rw [hmodify]
        exact hrest
      · intro m hm
        obtain ⟨hm, hne⟩ := (hmem_iff m).mp hm
        show Function.update s.phase n .closed m = .ready
        rw [Function.update_of_ne hne]
        exact h.ready m hm
      · intro m hm
        have hne : m ≠ n := Nat.ne_of_gt (Nat.lt_of_lt_of_le (h.lt_next hmem) hm)
        show ((s.objects.read n).free n).life m = .unborn
        rw [h.objects.read hmem]
        show Function.update s.objects.life n .freed m = .unborn
        rw [Function.update_of_ne hne]
        exact h.fresh m hm
      · show (if s.phase n = .ready then s.misused else s.misused + 1) = 0
        rw [if_pos hready]
        exact h.misused
      · show ((s.codecs.modify k fun c => { c with native := none })[k]?).bind Codec.native = none
        rw [List.getElem?_modify_eq, List.getElem?_eq_getElem hk]
        rfl

theorem start (h : Inv s) (hk : k < s.codecs.length) (hn : s.native k = none) (made ok : Bool) :
    Inv (s.start k made ok) := by
  have hpos : 0 < s.refs := refs_pos hk
  have hhandle := (h.loaded hpos).use Nat.one_pos
  have hfresh := h.fresh s.next (Nat.le_refl _)
  have hnot : s.next ∉ s.natives := fun hmem => h.objects.ne_unborn hmem hfresh
  have hmade : (s.objects.alloc s.next).Holds fun m => m ∈ s.natives ∨ m = s.next :=
    h.objects.alloc hfresh fun _ => Iff.rfl
  have hlater (m : Nat) (hm : s.next + 1 ≤ m) (life : Life) :
      Function.update s.objects.life s.next life m = .unborn := by
    rw [Function.update_of_ne (by omega)]
    exact h.fresh m (by omega)
  unfold State.start
  cases made with
  | false =>
      refine { h with handle := ?_ }
      show s.handle.use.Held (if s.refs = 0 then 0 else 1)
      rwa [if_neg (Nat.ne_of_gt hpos)]
  | true =>
      have hread : (s.objects.alloc s.next).read s.next = s.objects.alloc s.next :=
        hmade.read (.inr rfl)
      cases ok with
      | false =>
          -- The object that cannot be initialised goes again.
          refine of_refs rfl hpos h.library hhandle ?_ h.once h.ready ?_ h.misused
          · show (((s.objects.alloc s.next).read s.next).free s.next).Holds (· ∈ s.natives)
            rw [hread]
            refine hmade.free (.inr rfl) fun m => ?_
            exact ⟨fun hm => ⟨.inl hm, fun he => hnot (he ▸ hm)⟩, fun hm => hm.1.resolve_right hm.2⟩
          · intro m hm
            show (((s.objects.alloc s.next).read s.next).free s.next).life m = .unborn
            rw [hread]
            have hm : s.next + 1 ≤ m := hm
            show Function.update (Function.update s.objects.life s.next .live) s.next .freed m =
              .unborn
            rw [Function.update_idem]
            exact hlater m hm .freed
      | true =>
          obtain ⟨l, r, hnatives, hmodify⟩ := natives_around hk
          rw [hn] at hnatives
          have hnatives : s.natives = l ++ r := hnatives
          have hlength : (s.codecs.modify k fun c => { c with native := some s.next }).length =
              s.codecs.length := List.length_modify ..
          have hrefs : s.opening.toNat + (s.factories .encoder).toNat +
              (s.factories .decoder).toNat +
              (s.codecs.modify k fun c => { c with native := some s.next }).length = s.refs := by
            rw [hlength]
            rfl
          have hmem_iff (m : Nat) :
              m ∈ (s.codecs.modify k fun c => { c with native := some s.next }).filterMap
                Codec.native ↔ m ∈ s.natives ∨ m = s.next := by
            rw [hmodify, hnatives]
            show m ∈ l ++ s.next :: r ↔ m ∈ l ++ r ∨ m = s.next
            rw [List.mem_append, List.mem_append, List.mem_cons, or_comm (a := m = s.next),
              or_assoc]
          refine of_refs hrefs hpos h.library hhandle ?_ ?_ ?_ ?_ h.misused
          · show ((s.objects.alloc s.next).read s.next).Holds _
            rw [hread]
            exact hmade.congr fun m => (hmem_iff m).symm
          · show ((s.codecs.modify k _).filterMap Codec.native).Nodup
            rw [hmodify]
            refine List.nodup_middle.mpr (List.nodup_cons.mpr ⟨?_, hnatives ▸ h.once⟩)
            exact fun hm => hnot (hnatives ▸ hm)
          · intro m hm
            show Function.update s.phase s.next .ready m = .ready
            rcases (hmem_iff m).mp hm with hm | rfl
            · have hne : m ≠ s.next := fun he => hnot (he ▸ hm)
              rw [Function.update_of_ne hne]
              exact h.ready m hm
            · exact Function.update_self ..
          · intro m hm
            show ((s.objects.alloc s.next).read s.next).life m = .unborn
            rw [hread]
            exact hlater m hm .live

theorem useNative (h : Inv s) (hk : k < s.codecs.length) : Inv (s.useNative k) := by
  unfold State.useNative
  cases hn : s.native k with
  | none => exact h
  | some n =>
      obtain ⟨hmem, hready⟩ := h.of_native hk hn
      have hpos : 0 < s.refs := refs_pos hk
      dsimp only
      rw [h.objects.read hmem, if_pos hready, (h.loaded hpos).use_eq Nat.one_pos]
      exact h

/-- One reference to the library less, of those that were counted. -/
theorem letGo (hlibrary : s.library.Held (s.refs + 1)) (hhandle : s.handle.Held 1)
    (hobjects : s.objects.Holds (· ∈ s.natives)) (honce : s.natives.Nodup)
    (hready : ∀ n ∈ s.natives, s.phase n = .ready)
    (hfresh : ∀ n, s.next ≤ n → s.objects.life n = .unborn) (hmisused : s.misused = 0) :
    Inv s.letGo := by
  refine ⟨hlibrary.release, ?_, hobjects, honce, hready, hfresh, hmisused⟩
  show (if s.library.count = 1 then s.handle.release else s.handle).Held
    (if s.refs = 0 then 0 else 1)
  rw [hlibrary.count]
  by_cases hlast : s.refs = 0
  · rw [hlast]
    exact hhandle.release
  · rw [if_neg hlast, if_neg (by omega)]
    exact hhandle

theorem create (h : Inv s) {kind : Kind} (hen : s.factories kind = true) :
    Inv { s with library := s.library.retain, codecs := s.codecs ++ [{ kind }] } := by
  have hpos : 0 < s.refs := by
    unfold State.refs
    cases kind <;> rw [hen, Bool.toNat_true] <;> omega
  have hmore : s.opening.toNat + (s.factories .encoder).toNat + (s.factories .decoder).toNat +
      (s.codecs ++ [{ kind : Codec }]).length = s.refs + 1 := by
    unfold State.refs
    rw [List.length_append, List.length_singleton]
    omega
  have hnatives : (s.codecs ++ [{ kind : Codec }]).filterMap Codec.native = s.natives := by
    rw [List.filterMap_append]
    exact List.append_nil _
  refine of_refs hmore (Nat.succ_pos _) (h.library.retain hpos) (h.loaded hpos) ?_ ?_ ?_ h.fresh
    h.misused
  · exact h.objects.congr fun m => by
      show m ∈ s.natives ↔ m ∈ (s.codecs ++ [_]).filterMap Codec.native
      rw [hnatives]
  · show ((s.codecs ++ [_]).filterMap Codec.native).Nodup
    rw [hnatives]
    exact h.once
  · intro m hm
    have hm : m ∈ (s.codecs ++ [{ kind : Codec }]).filterMap Codec.native := hm
    rw [hnatives] at hm
    exact h.ready m hm

theorem leave (h : Inv s) (hen : s.opening = true) :
    Inv ({ s with opening := false } : State).letGo := by
  have hrefs : s.refs = ({ s with opening := false } : State).refs + 1 := by
    show s.opening.toNat + (s.factories .encoder).toNat + (s.factories .decoder).toNat +
      s.codecs.length = false.toNat + (s.factories .encoder).toNat + (s.factories .decoder).toNat +
      s.codecs.length + 1
    rw [hen, Bool.toNat_true, Bool.toNat_false]
    omega
  exact letGo (hrefs ▸ h.library) (h.loaded (by omega)) h.objects h.once h.ready h.fresh h.misused

theorem dropFactory (h : Inv s) {kind : Kind} (hen : s.factories kind = true) :
    Inv ({ s with factories := Function.update s.factories kind false } : State).letGo := by
  have hrefs : s.refs =
      ({ s with factories := Function.update s.factories kind false } : State).refs + 1 := by
    unfold State.refs
    cases kind <;> simp [hen] <;> omega
  exact letGo (hrefs ▸ h.library) (h.loaded (by omega)) h.objects h.once h.ready h.fresh h.misused

/-- A codec without an object goes, and its reference to the library. -/
theorem delete (h : Inv s) (hk : k < s.codecs.length) (hnone : s.native k = none) :
    Inv ({ s with codecs := s.codecs.eraseIdx k } : State).letGo := by
  obtain ⟨l, c, r, hcodecs, hnative, -, herase⟩ := around hk
  have hc : c.native = none := hnative.symm.trans hnone
  have hnatives : (s.codecs.eraseIdx k).filterMap Codec.native = s.natives := by
    unfold State.natives
    rw [herase, hcodecs, List.filterMap_append, List.filterMap_append, List.filterMap_cons_none hc]
  have hrefs : s.refs = ({ s with codecs := s.codecs.eraseIdx k } : State).refs + 1 := by
    show s.opening.toNat + (s.factories .encoder).toNat + (s.factories .decoder).toNat +
      s.codecs.length = s.opening.toNat + (s.factories .encoder).toNat +
      (s.factories .decoder).toNat + (s.codecs.eraseIdx k).length + 1
    rw [herase, hcodecs, List.length_append, List.length_append, List.length_cons]
    omega
  refine letGo (hrefs ▸ h.library) (h.loaded (by omega)) ?_ ?_ ?_ h.fresh h.misused
  · exact h.objects.congr fun m => by
      show m ∈ s.natives ↔ m ∈ (s.codecs.eraseIdx k).filterMap Codec.native
      rw [hnatives]
  · show ((s.codecs.eraseIdx k).filterMap Codec.native).Nodup
    rw [hnatives]
    exact h.once
  · intro m hm
    have hm : m ∈ (s.codecs.eraseIdx k).filterMap Codec.native := hm
    rw [hnatives] at hm
    exact h.ready m hm

end Inv

theorem inv_start : Inv machine.start where
  library := ⟨rfl, rfl, rfl⟩
  handle := Counted.Held.new
  objects := Arena.Holds.empty.congr fun _ => by simp [machine, Machine.ofEffect, State.natives]
  once := List.nodup_nil
  ready _ h := absurd h List.not_mem_nil
  fresh _ _ := rfl
  misused := rfl

theorem inv_step (s : State) (a : Action) (t : State) (h : Inv s)
    (hstep : machine.step s a = some t) : Inv t := by
  obtain ⟨hen, rfl⟩ := Machine.ofEffect_step.mp hstep
  cases a with
  | leave => exact h.leave hen
  | dropFactory kind => exact h.dropFactory hen
  | create kind => exact h.create hen
  | init k made ok =>
      obtain ⟨hclosed, hlength, hnone⟩ := h.close hen
      exact hclosed.start (hlength ▸ hen) hnone made ok
  | use k => exact h.useNative hen
  | release k => exact (h.close hen).1
  | delete k =>
      obtain ⟨hclosed, hlength, hnone⟩ := h.close hen
      exact hclosed.delete (hlength ▸ hen) hnone

theorem inv_of_reachable (h : machine.Reachable s) : Inv s :=
  Machine.invariant inv_start inv_step h

/-! ### What comes of it -/

/-- Neither a factory nor a codec is left, nor is one about to be made. -/
def State.Alone (s : State) : Prop :=
  s.opening = false ∧ (∀ kind, s.factories kind = false) ∧ s.codecs = []

theorem State.refs_eq_zero_iff (s : State) : s.refs = 0 ↔ s.Alone := by
  unfold State.refs State.Alone
  constructor
  · intro h
    refine ⟨Bool.toNat_eq_zero.mp (by omega), fun kind => ?_,
      List.eq_nil_of_length_eq_zero (by omega)⟩
    cases kind <;> exact Bool.toNat_eq_zero.mp (by omega)
  · rintro ⟨hopening, hfactories, hcodecs⟩
    rw [hopening, hfactories, hfactories, hcodecs]
    rfl

/-- What an application may rely on, in any order of these calls. -/
structure Safe (s : State) : Prop where
  /-- No code of the library is called that is not loaded, and no object that is not there. -/
  handle : s.handle.stale = 0
  objects : s.objects.stale = 0
  /-- An object is asked for something between its `Initialize` and its `Uninitialize` only. -/
  misused : s.misused = 0
  /-- The objects that are there are those of the codecs, of each its own. -/
  live : ∀ n, s.objects.life n = .live ↔ ∃ c ∈ s.codecs, c.native = some n
  once : (s.codecs.filterMap Codec.native).Nodup
  /-- The library is unloaded once, after the last codec and both factories, and no object is
  left behind. -/
  unloaded : s.handle.freed ≤ 1 ∧ (s.handle.freed = 1 ↔ s.Alone)

theorem openh264_safe (h : machine.Reachable s) : Safe s := by
  have hinv := inv_of_reachable h
  refine ⟨hinv.handle.stale, hinv.objects.stale, hinv.misused, fun n => ?_, hinv.once,
    hinv.handle.freed_le_one, ?_⟩
  · rw [hinv.objects.live]
    exact List.mem_filterMap
  · rw [hinv.handle.freed_eq_one_iff, ← s.refs_eq_zero_iff]
    split <;> simp_all

/-- An encoder is initialised, then again without success, and deleted; the decoder outlives
both factories. -/
theorem openh264_safe_again : ∃ s, machine.run machine.start
      [.create .encoder, .create .decoder, .leave, .init 0 true true, .init 1 true true, .use 0,
        .init 0 true false, .use 0, .delete 0, .dropFactory .encoder, .dropFactory .decoder,
        .use 0, .delete 0] = some s ∧ Safe s ∧ s.handle.freed = 1 :=
  ⟨_, rfl, openh264_safe ⟨[.create .encoder, .create .decoder, .leave, .init 0 true true,
    .init 1 true true, .use 0, .init 0 true false, .use 0, .delete 0, .dropFactory .encoder,
    .dropFactory .decoder, .use 0, .delete 0], rfl⟩, rfl⟩

/-! ### The bitstream of a frame

The native encoder leaves its layers where it likes and says how long each unit is.  The
image is allocated for the sum, and filled layer by layer.
-/

/-- `EVideoFrameType`, in its order. -/
inductive FrameType
  | invalid | idr | i | p | skip | ipMixed
  deriving DecidableEq, Repr

/-- The lengths of a layer's NAL units, and what there is to read where they are. -/
structure Layer where
  nalLengthInByte : List Nat
  bsBuf : Bytes
  deriving DecidableEq, Repr

/-- `SFrameBSInfo`, as far as it is read. -/
structure FrameBSInfo where
  frameType : FrameType
  layers : List Layer
  deriving DecidableEq, Repr

/-- What the encoder hands on to its callback. -/
structure EncodedImage where
  data : Bytes
  keyFrame : Bool
  encodedWidth : Nat
  encodedHeight : Nat
  rtpTimestamp : Nat
  deriving DecidableEq, Repr

/-- What `EncodeFrame` returns: zero or something else. -/
inductive Returned
  | ok | error
  deriving DecidableEq, Repr

/-- The first loop over the NAL units of a layer. -/
def Layer.length (l : Layer) : Nat := l.nalLengthInByte.foldl (· + ·) 0

/-- The first loop over the layers. -/
def total (layers : List Layer) : Nat := layers.foldl (fun n l => n + l.length) 0

/-- `none` if that reads or writes beyond what is there. -/
def memcpy (buffer : Bytes) (offset : Nat) (src : Bytes) (len : Nat) : Option Bytes :=
  if offset + len ≤ buffer.length ∧ len ≤ src.length then
    some (buffer.take offset ++ (src.take len ++ buffer.drop (offset + len)))
  else none

/-- Each layer is copied behind the one before. -/
def copyLayers : List Layer → Bytes → Nat → Option Bytes
  | [], buffer, _ => some buffer
  | l :: layers, buffer, offset => do
    let buffer ← memcpy buffer offset l.bsBuf l.length
    copyLayers layers buffer (offset + l.length)

/-- `Encode` from where the native object has answered, or failed.  `create` is what a new buffer
holds. -/
def encode (width height : Nat) (callback : Bool) (create : Nat → Bytes)
    (info : Option FrameBSInfo) (rtpTimestamp : Nat) : Option (Returned × Option EncodedImage) :=
  match info with
  | none => some (.error, none)
  | some info =>
    if info.frameType = .skip ∨ info.layers.length = 0 ∨ callback = false then some (.ok, none)
    else if total info.layers = 0 then some (.ok, none)
    else do
      let data ← copyLayers info.layers (create (total info.layers)) 0
      some (.ok, some
        { data
          keyFrame := info.frameType = .idr
          encodedWidth := width
          encodedHeight := height
          rtpTimestamp })

/-- The layer's NAL units, one after the other. -/
def Layer.bytes (l : Layer) : Bytes := l.bsBuf.take l.length

/-- The layers one behind another, which is the frame. -/
def bitstream (layers : List Layer) : Bytes := layers.flatMap Layer.bytes

/-- A layer's buffer has all of its NAL units. -/
def Layer.Whole (l : Layer) : Prop := l.length ≤ l.bsBuf.length

theorem Layer.length_bytes {l : Layer} (h : l.Whole) : l.bytes.length = l.length :=
  List.length_take_of_le h

theorem foldl_total (layers : List Layer) (n : Nat) :
    layers.foldl (fun n l => n + l.length) n = n + total layers := by
  induction layers generalizing n with
  | nil => rfl
  | cons l layers ih =>
      unfold total
      rw [List.foldl_cons, List.foldl_cons, ih, ih, Nat.zero_add, Nat.add_assoc]

theorem total_cons (l : Layer) (layers : List Layer) :
    total (l :: layers) = l.length + total layers := by
  rw [total, List.foldl_cons, foldl_total, Nat.zero_add]

theorem length_bitstream {layers : List Layer} (h : ∀ l ∈ layers, l.Whole) :
    (bitstream layers).length = total layers := by
  induction layers with
  | nil => rfl
  | cons l layers ih =>
      obtain ⟨hl, hlayers⟩ := List.forall_mem_cons.mp h
      rw [total_cons, ← ih hlayers, ← Layer.length_bytes hl, ← List.length_append]
      rfl

/-- What is before the offset stays, and the layers fill the rest. -/
theorem copyLayers_eq {layers : List Layer} (h : ∀ l ∈ layers, l.Whole) {buffer : Bytes}
    {offset : Nat} (hroom : buffer.length = offset + total layers) :
    copyLayers layers buffer offset = some (buffer.take offset ++ bitstream layers) := by
  induction layers generalizing buffer offset with
  | nil =>
      have hroom : buffer.length = offset := hroom
      rw [← hroom, List.take_length]
      exact congrArg some (List.append_nil buffer).symm
  | cons l layers ih =>
      obtain ⟨hl, hlayers⟩ := List.forall_mem_cons.mp h
      rw [total_cons] at hroom
      have hcopy : memcpy buffer offset l.bsBuf l.length =
          some (buffer.take offset ++ (l.bytes ++ buffer.drop (offset + l.length))) :=
        if_pos ⟨by omega, hl⟩
      have hbefore : (buffer.take offset ++ l.bytes).length = offset + l.length := by
        rw [List.length_append, List.length_take_of_le (by omega), Layer.length_bytes hl]
      have hlength : (buffer.take offset ++
          (l.bytes ++ buffer.drop (offset + l.length))).length =
          offset + l.length + total layers := by
        rw [← List.append_assoc, List.length_append, hbefore, List.length_drop]
        omega
      show (memcpy buffer offset l.bsBuf l.length).bind
        (fun buffer => copyLayers layers buffer (offset + l.length)) = _
      rw [hcopy, Option.bind_some, ih hlayers hlength, ← List.append_assoc,
        List.take_left' hbefore, List.append_assoc]
      rfl

/-- An answer of the native object is handed on as one image, whole and in order, whatever the
buffer held before and without a byte read or written elsewhere; where there is nothing to hand
on, or nobody to hand it to, there is none. -/
theorem encode_assembles {create : Nat → Bytes} (hcreate : ∀ n, (create n).length = n)
    (info : FrameBSInfo) (hwhole : ∀ l ∈ info.layers, l.Whole) (width height : Nat)
    (callback : Bool) (rtpTimestamp : Nat) :
    encode width height callback create (some info) rtpTimestamp =
      some (.ok,
        if callback = true ∧ info.frameType ≠ .skip ∧ bitstream info.layers ≠ [] then
          some ⟨bitstream info.layers, info.frameType = .idr, width, height, rtpTimestamp⟩
        else none) := by
  have hempty : bitstream info.layers = [] ↔ total info.layers = 0 := by
    rw [← length_bitstream hwhole, List.length_eq_zero_iff]
  unfold encode
  dsimp only
  by_cases hnone : info.frameType = .skip ∨ info.layers.length = 0 ∨ callback = false
  · have hnot : ¬ (callback = true ∧ info.frameType ≠ .skip ∧ bitstream info.layers ≠ []) := by
      rintro ⟨hcallback, hskip, hbytes⟩
      rcases hnone with h | h | h
      · exact hskip h
      · rw [List.length_eq_zero_iff] at h
        exact hbytes (by rw [h]; rfl)
      · rw [h] at hcallback
        cases hcallback
    rw [if_pos hnone, if_neg hnot]
  · rw [if_neg hnone]
    obtain ⟨hskip, hrest⟩ := not_or.mp hnone
    have hcallback : callback = true := Bool.eq_true_of_not_eq_false (not_or.mp hrest).2
    by_cases htotal : total info.layers = 0
    · have hnot : ¬ (callback = true ∧ info.frameType ≠ .skip ∧ bitstream info.layers ≠ []) :=
        fun h => h.2.2 (hempty.mpr htotal)
      rw [if_pos htotal, if_neg hnot]
    · have hroom : (create (total info.layers)).length = 0 + total info.layers := by
        rw [hcreate, Nat.zero_add]
      rw [if_neg htotal, copyLayers_eq hwhole hroom,
        if_pos ⟨hcallback, hskip, fun h => htotal (hempty.mp h)⟩]
      rfl

/-- The parameter sets and the slice of a key frame, in layers of their own. -/
theorem encode_assembles_key :
    encode 640 480 true (fun n => List.replicate n 0xff)
      (some ⟨.idr, [⟨[2, 1], [1, 2, 3, 9]⟩, ⟨[3], [4, 5, 6]⟩]⟩) 90000 =
    some (.ok, some ⟨[1, 2, 3, 4, 5, 6], true, 640, 480, 90000⟩) :=
  (encode_assembles (fun n => List.length_replicate)
    ⟨.idr, [⟨[2, 1], [1, 2, 3, 9]⟩, ⟨[3], [4, 5, 6]⟩]⟩ (by unfold Layer.Whole; decide)
    640 480 true 90000).trans (by decide)

end ReactorWebrtc.OpenH264
