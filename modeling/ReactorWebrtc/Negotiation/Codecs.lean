/-
The order of the codecs, and the one a sender is locked to.

`setVideoCodecPreferences` puts the codecs of the preferred names first and drops nothing, so
retransmission and error correction stand in the order like any codec.  Once a description
has been negotiated, `lockNegotiatedSendCodec` takes the first name in that order which was
negotiated, whatever it stands for.

Codecs share their names: `rtx` stands after each of those that it repairs.  So the first name
is all that counts, and `find?_order` says which it is in terms of what went into the order.

`VideoFirst` is what a caller has to know of the two lists to be sure of a video codec, and
`locked_best_iff` that it is all there is to know.  The order itself, as a regrouping of the
capabilities, is in `Negotiation.Regrouping`.
-/
import Mathlib.Data.List.Find
import Mathlib.Data.List.ReduceOption

namespace ReactorWebrtc

/-- A codec, of a capability list or of a sender's parameters. -/
structure RtpCodec where
  name : String
  payloadType : Nat
  deriving DecidableEq, Repr

/-- What libwebrtc calls retransmission, redundancy and error correction. -/
def REPAIR : List String := ["rtx", "red", "ulpfec", "flexfec-03"]

def RtpCodec.IsVideo (c : RtpCodec) : Prop := c.name ∉ REPAIR

instance (c : RtpCodec) : Decidable c.IsVideo := inferInstanceAs (Decidable (¬ _))

/-- One encoding of a sender, and the codec it is locked to. -/
structure RtpEncoding where
  codec : Option RtpCodec := none
  deriving DecidableEq, Repr

structure RtpParameters where
  codecs : List RtpCodec
  encodings : List RtpEncoding
  deriving DecidableEq, Repr

namespace Codecs

/-- The pass of one name over the capabilities, each with whether it is used. -/
def useNamed (name : String) (marked : List (RtpCodec × Bool)) :
    List RtpCodec × List (RtpCodec × Bool) :=
  ((marked.filter fun (c, used) => !used && c.name == name).map Prod.fst,
    marked.map fun (c, used) => (c, used || c.name == name))

/-- The preferred names, one after another; a null name is passed over. -/
def usePreferred : List (Option String) → List RtpCodec × List (RtpCodec × Bool) →
    List RtpCodec × List (RtpCodec × Bool)
  | [], state => state
  | none :: names, state => usePreferred names state
  | some name :: names, (ordered, marked) =>
    let (named, marked) := useNamed name marked
    usePreferred names (ordered ++ named, marked)

/-- The order `set_video_codec_preferences` hands to libwebrtc. -/
def setVideoCodecPreferences (codecNames : List (Option String)) (caps : List RtpCodec) :
    List RtpCodec :=
  let (ordered, marked) := usePreferred codecNames ([], caps.map fun c => (c, false))
  ordered ++ (marked.filter fun (_, used) => !used).map Prod.fst

/-- The two loops: the first negotiated codec of the first name that has one. -/
def findNegotiated (preferences codecs : List RtpCodec) : Option RtpCodec :=
  preferences.findSome? fun pref => codecs.find? fun c => c.name == pref.name

/-- The parameters that `lock_negotiated_send_codec` sets, if it comes to that. -/
def lockNegotiatedSendCodec (preferences : List RtpCodec) (sender : Option RtpParameters) :
    Option RtpParameters :=
  if preferences = [] then none
  else
    match sender with
    | none => none
    | some { codecs, encodings } =>
      match encodings with
      | [] => none
      | encoding :: others =>
        (findNegotiated preferences codecs).map fun c =>
          { codecs, encodings := { encoding with codec := some c } :: others }

/-- The codec that the first encoding is set to. -/
def locked (params : Option RtpParameters) : Option RtpCodec :=
  params.bind fun params => params.encodings.head?.bind (·.codec)

/-- The locked codec is the best of those that were negotiated. -/
structure Best (preferences codecs : List RtpCodec) (chosen : Option RtpCodec) : Prop where
  best : (∃ d ∈ codecs, d.IsVideo) → ∃ c, chosen = some c ∧ c ∈ codecs ∧ c.IsVideo ∧
    ∀ d ∈ codecs, d.IsVideo →
      (preferences.map (·.name)).idxOf c.name ≤ (preferences.map (·.name)).idxOf d.name
  never : ∀ c, chosen = some c → c.IsVideo

/-- A name of a capability that was negotiated. -/
def Common (caps codecs : List RtpCodec) (name : String) : Prop :=
  name ∈ caps.map (·.name) ∧ name ∈ codecs.map (·.name)

instance (caps codecs : List RtpCodec) (name : String) : Decidable (Common caps codecs name) :=
  inferInstanceAs (Decidable (_ ∧ _))

/-- Of the preferred names and then the capabilities' own, a negotiated video codec comes
before what repairs, and none is negotiated that is not a capability. -/
structure VideoFirst (codecNames : List (Option String)) (caps codecs : List RtpCodec) :
    Prop where
  first : ∀ before name after,
    codecNames.reduceOption ++ caps.map (·.name) = before ++ name :: after →
      Common caps codecs name → name ∈ REPAIR →
        ∃ video ∈ before, Common caps codecs video ∧ video ∉ REPAIR
  capable : (∃ d ∈ codecs, d.IsVideo) → ∃ d ∈ codecs, d.IsVideo ∧ d.name ∈ caps.map (·.name)

/-! ### The first name that was negotiated

The order is built by marking what has been used, and a name that is used up finds nothing
the second time.  So the names of the order are those of the list, each where it stands
first, and then those of the capabilities.
-/

/-- The capabilities, those of these names used. -/
def markedBy (seen : List String) (caps : List RtpCodec) : List (RtpCodec × Bool) :=
  caps.map fun c => (c, decide (c.name ∈ seen))

theorem useNamed_markedBy (name : String) (seen : List String) (caps : List RtpCodec) :
    useNamed name (markedBy seen caps) =
      (caps.filter fun c => decide (c.name ∉ seen) && c.name == name,
        markedBy (name :: seen) caps) := by
  refine Prod.ext ?_ ?_
  · show ((caps.map _).filter _).map Prod.fst = _
    rw [List.filter_map, List.map_map]
    show (caps.filter fun c => !decide (c.name ∈ seen) && c.name == name).map id = _
    rw [List.map_id]
    refine List.filter_congr fun c _ => ?_
    rw [decide_not]
  · show (caps.map _).map _ = _
    rw [List.map_map]
    refine List.map_congr_left fun c _ => Prod.ext rfl ?_
    show (decide (c.name ∈ seen) || c.name == name) = decide (c.name ∈ name :: seen)
    rw [Bool.eq_iff_iff]
    simp [or_comm]

variable (p : String → Bool) (caps : List RtpCodec)

/-- The name of a capability. -/
def capable (name : String) : Bool := decide (name ∈ caps.map (·.name))

theorem find?_useNamed (seen : List String) (name : String) :
    ((useNamed name (markedBy seen caps)).1.map (·.name)).find? p =
      if name ∉ seen ∧ p name = true ∧ capable caps name = true then some name else none := by
  rw [useNamed_markedBy, List.find?_map, List.find?_filter]
  cases hfind : caps.find? _ with
  | none =>
      rw [if_neg]
      · rfl
      · rintro ⟨hnew, hp, hcapable⟩
        obtain ⟨c, hc, rfl⟩ := List.mem_map.mp (of_decide_eq_true hcapable)
        refine List.find?_eq_none.mp hfind c hc ?_
        simp [hnew, hp]
  | some c =>
      have hmem : c ∈ caps := List.mem_of_find?_eq_some hfind
      have hcond := List.find?_some hfind
      simp only [Bool.and_eq_true, decide_eq_true_eq, beq_iff_eq, Function.comp_apply] at hcond
      obtain ⟨⟨hnew, rfl⟩, hp⟩ := hcond
      rw [if_pos ⟨hnew, hp, decide_eq_true (List.mem_map_of_mem hmem)⟩]
      rfl

/-- The first of the preferred names comes first. -/
theorem find?_usePreferred (names : List (Option String)) (seen : List String)
    (ordered : List RtpCodec)
    (hseen : ∀ n ∈ seen, p n = true → capable caps n = true →
      (ordered.map (·.name)).find? p ≠ none) :
    ((usePreferred names (ordered, markedBy seen caps)).1.map (·.name)).find? p =
        ((ordered.map (·.name)).find? p).or
          (names.reduceOption.find? fun n => p n && capable caps n) ∧
      ∃ seen', (usePreferred names (ordered, markedBy seen caps)).2 = markedBy seen' caps ∧
        ∀ n ∈ seen', n ∈ seen ∨ n ∈ names.reduceOption := by
  induction names generalizing seen ordered with
  | nil => exact ⟨(Option.or_none).symm, seen, rfl, fun n hn => .inl hn⟩
  | cons name names ih =>
      cases name with
      | none => exact ih seen ordered hseen
      | some name =>
          have hmarked : (useNamed name (markedBy seen caps)).2 = markedBy (name :: seen) caps := by
            rw [useNamed_markedBy]
          have hstep : usePreferred (some name :: names) (ordered, markedBy seen caps)
              = usePreferred names (ordered ++ (useNamed name (markedBy seen caps)).1,
                markedBy (name :: seen) caps) := by
            rw [← hmarked]
            rfl
          have hnamed : ((ordered ++ (useNamed name (markedBy seen caps)).1).map (·.name)).find? p
              = ((ordered.map (·.name)).find? p).or
                (if name ∉ seen ∧ p name = true ∧ capable caps name = true then some name
                  else none) := by
            rw [List.map_append, List.find?_append, find?_useNamed]
          obtain ⟨hfirst, seen', hseen', hsub⟩ := ih (name :: seen)
            (ordered ++ (useNamed name (markedBy seen caps)).1) (by
              intro n hn hp hcapable hnone
              rw [hnamed, Option.or_eq_none_iff] at hnone
              by_cases hold : n ∈ seen
              · exact hseen n hold hp hcapable hnone.1
              · obtain rfl := (List.mem_cons.mp hn).resolve_right hold
                rw [if_pos ⟨hold, hp, hcapable⟩] at hnone
                cases hnone.2)
          rw [hstep, List.reduceOption_cons_of_some]
          refine ⟨?_, seen', hseen', fun n hn => ?_⟩
          · rw [hfirst, hnamed, Option.or_assoc]
            cases hordered : (ordered.map (·.name)).find? p with
            | some n => rfl
            | none =>
                rw [Option.none_or, Option.none_or, List.find?_cons]
                cases hp : p name && capable caps name with
                | true =>
                    obtain ⟨hpn, hcapable⟩ := Bool.and_eq_true_iff.mp hp
                    have hnew : name ∉ seen := fun hold => hseen name hold hpn hcapable hordered
                    rw [if_pos ⟨hnew, hpn, hcapable⟩]
                    rfl
                | false =>
                    rw [if_neg fun h => Bool.false_ne_true (hp ▸ Bool.and_eq_true_iff.mpr h.2)]
                    rfl
          · rcases hsub n hn with hold | hlater
            · rcases List.mem_cons.mp hold with rfl | hold
              · exact .inr List.mem_cons_self
              · exact .inl hold
            · exact .inr (List.mem_cons_of_mem _ hlater)

/-- The first name of the order, by what went into it. -/
theorem find?_order (names : List (Option String)) :
    ((setVideoCodecPreferences names caps).map (·.name)).find? p =
      (names.reduceOption ++ caps.map (·.name)).find? fun n => p n && capable caps n := by
  obtain ⟨hfirst, seen, hmarked, hseen⟩ := find?_usePreferred p caps names [] []
    (fun n hn => absurd hn List.not_mem_nil)
  have horder : (setVideoCodecPreferences names caps).map (·.name)
      = (usePreferred names ([], markedBy [] caps)).1.map (·.name)
        ++ (caps.map (·.name)).filter fun n => decide (n ∉ seen) := by
    have hstart : markedBy [] caps = caps.map fun c => (c, false) :=
      List.map_congr_left fun c _ => by simp
    rw [hstart] at hmarked ⊢
    unfold setVideoCodecPreferences
    dsimp only
    rw [hmarked, List.map_append]
    congr 1
    rw [markedBy, List.filter_map, List.map_map, List.filter_map, List.map_map]
    refine congrArg (List.map _) (List.filter_congr fun c _ => ?_)
    exact (decide_not).symm
  rw [horder, List.find?_append, List.find?_append, hfirst, List.map_nil, List.find?_nil,
    Option.none_or, List.find?_filter]
  cases hnames : names.reduceOption.find? fun n => p n && capable caps n with
  | some n => rfl
  | none =>
      rw [Option.none_or, Option.none_or]
      refine List.find?_congr fun n hn => ?_
      rw [capable, decide_eq_true hn, Bool.and_true]
      by_cases hold : n ∈ seen
      · have hpreferred := (hseen n hold).resolve_left List.not_mem_nil
        have hnot := List.find?_eq_none.mp hnames n hpreferred
        rw [capable, decide_eq_true hn, Bool.and_true] at hnot
        simp [hnot]
      · simp [hold]

theorem findNegotiated_name (preferences codecs : List RtpCodec) :
    (findNegotiated preferences codecs).map (·.name) =
      (preferences.map (·.name)).find? fun n => decide (n ∈ codecs.map (·.name)) := by
  induction preferences with
  | nil => rfl
  | cons pref preferences ih =>
      rw [findNegotiated, List.findSome?_cons, List.map_cons, List.find?_cons]
      cases hfind : codecs.find? fun c => c.name == pref.name with
      | none =>
          have hnot : decide (pref.name ∈ codecs.map (·.name)) = false := by
            refine decide_eq_false fun hmem => ?_
            obtain ⟨c, hc, hname⟩ := List.mem_map.mp hmem
            exact List.find?_eq_none.mp hfind c hc (beq_iff_eq.mpr hname)
          rw [hnot]
          exact ih
      | some c =>
          have hname := List.find?_some hfind
          rw [beq_iff_eq] at hname
          have hmem : decide (pref.name ∈ codecs.map (·.name)) = true :=
            decide_eq_true (hname ▸ List.mem_map_of_mem (List.mem_of_find?_eq_some hfind))
          rw [hmem]
          exact congrArg some hname

theorem findNegotiated_mem {preferences codecs : List RtpCodec} {c : RtpCodec}
    (h : findNegotiated preferences codecs = some c) : c ∈ codecs := by
  obtain ⟨pref, -, hfind⟩ := List.exists_of_findSome?_eq_some h
  exact List.mem_of_find?_eq_some hfind

/-- The first that satisfies `p` stands before all that do. -/
theorem idxOf_le_of_find? {p : String → Bool} {names : List String} {n m : String}
    (h : names.find? p = some n) (hm : p m = true) : names.idxOf n ≤ names.idxOf m := by
  induction names with
  | nil => cases h
  | cons name names ih =>
      rw [List.find?_cons] at h
      split at h
      · obtain rfl := Option.some.inj h
        rw [List.idxOf_cons_self]
        exact Nat.zero_le _
      · rename_i hname
        have hne : ∀ k, p k = true → name ≠ k := by
          rintro k hk rfl
          rw [hname] at hk
          cases hk
        rw [List.idxOf_cons_ne _ (hne n (List.find?_some h)), List.idxOf_cons_ne _ (hne m hm)]
        exact Nat.succ_le_succ (ih h)

/-! ### The choice -/

theorem findNegotiated_order (codecNames : List (Option String)) (caps codecs : List RtpCodec) :
    (findNegotiated (setVideoCodecPreferences codecNames caps) codecs).map (·.name) =
      (codecNames.reduceOption ++ caps.map (·.name)).find? fun n =>
        decide (Common caps codecs n) := by
  rw [findNegotiated_name, find?_order]
  refine List.find?_congr fun n _ => ?_
  rw [Bool.eq_iff_iff, Bool.and_eq_true_iff, capable, decide_eq_true_iff, decide_eq_true_iff,
    decide_eq_true_iff]
  exact and_comm

/-- The choice is the best one exactly if a video codec comes first. -/
theorem best_iff (codecNames : List (Option String)) (caps codecs : List RtpCodec) :
    Best (setVideoCodecPreferences codecNames caps) codecs
        (findNegotiated (setVideoCodecPreferences codecNames caps) codecs) ↔
      VideoFirst codecNames caps codecs := by
  have hname := findNegotiated_order codecNames caps codecs
  cases hfirst : (codecNames.reduceOption ++ caps.map (·.name)).find? fun n =>
      decide (Common caps codecs n) with
  | none =>
      rw [hfirst, Option.map_eq_none_iff] at hname
      have hnone := List.find?_eq_none.mp hfirst
      rw [hname]
      constructor
      · intro h
        refine ⟨fun before name after hlist hcommon => ?_, fun hvideo => ?_⟩
        · refine absurd (decide_eq_true hcommon) (hnone name ?_)
          rw [hlist]
          exact List.mem_append_right _ List.mem_cons_self
        · obtain ⟨c, hc, -⟩ := h.best hvideo
          cases hc
      · intro h
        refine ⟨fun hvideo => ?_, fun c hc => by cases hc⟩
        obtain ⟨d, hd, -, hcap⟩ := h.capable hvideo
        have hcommon : Common caps codecs d.name := ⟨hcap, List.mem_map_of_mem hd⟩
        exact absurd (decide_eq_true hcommon) (hnone d.name (List.mem_append_right _ hcap))
  | some n =>
      rw [hfirst, Option.map_eq_some_iff] at hname
      obtain ⟨c, hfound, rfl⟩ := hname
      have hcommon := List.find?_some hfirst
      rw [decide_eq_true_iff] at hcommon
      have hmem := findNegotiated_mem hfound
      rw [hfound]
      constructor
      · intro h
        have hvideo : c.IsVideo := h.never c rfl
        refine ⟨fun before name after hlist hname hrepair => ⟨c.name, ?_, hcommon, hvideo⟩,
          fun _ => ⟨c, hmem, hvideo, hcommon.1⟩⟩
        rw [hlist, List.find?_append] at hfirst
        cases hbefore : before.find? fun n => decide (Common caps codecs n) with
        | some m =>
            rw [hbefore, Option.some_or] at hfirst
            obtain rfl := Option.some.inj hfirst
            exact List.mem_of_find?_eq_some hbefore
        | none =>
            rw [hbefore, Option.none_or, List.find?_cons, decide_eq_true hname] at hfirst
            obtain rfl := Option.some.inj hfirst
            exact absurd hrepair hvideo
      · intro h
        have hvideo : c.IsVideo := by
          intro hrepair
          obtain ⟨-, before, after, hlist, hnot⟩ := List.find?_eq_some_iff_append.mp hfirst
          obtain ⟨video, hbefore, hcommon', -⟩ := h.first before c.name after hlist hcommon hrepair
          have hfalse := hnot video hbefore
          rw [decide_eq_true hcommon'] at hfalse
          cases hfalse
        refine ⟨fun _ => ⟨c, rfl, hmem, hvideo, fun d hd _ => ?_⟩, fun d hd => ?_⟩
        · have hplace := findNegotiated_name (setVideoCodecPreferences codecNames caps) codecs
          rw [hfound] at hplace
          exact idxOf_le_of_find? hplace.symm (decide_eq_true (List.mem_map_of_mem hd))
        · obtain rfl := Option.some.inj hd
          exact hvideo

/-- With an encoding to set, what is locked is what was found. -/
theorem locked_lock (preferences codecs : List RtpCodec) (encoding : RtpEncoding)
    (others : List RtpEncoding) :
    locked (lockNegotiatedSendCodec preferences
        (some { codecs, encodings := encoding :: others })) =
      findNegotiated preferences codecs := by
  unfold lockNegotiatedSendCodec
  cases preferences with
  | nil => rfl
  | cons pref preferences =>
      rw [if_neg (List.cons_ne_nil _ _)]
      dsimp only
      cases findNegotiated (pref :: preferences) codecs with
      | none => rfl
      | some c => rfl

/--
**The locked send codec is the best negotiated media codec** exactly if, of the preferred
names and then the capabilities, a negotiated video codec comes before what repairs.
-/
theorem locked_best_iff (codecNames : List (Option String)) (caps codecs : List RtpCodec)
    (encoding : RtpEncoding) (others : List RtpEncoding) :
    Best (setVideoCodecPreferences codecNames caps) codecs
        (locked (lockNegotiatedSendCodec (setVideoCodecPreferences codecNames caps)
          (some { codecs, encodings := encoding :: others }))) ↔
      VideoFirst codecNames caps codecs := by
  rw [locked_lock]
  exact best_iff codecNames caps codecs

/-- With VP8 refused by the peer, the retransmission that stands after it is locked. -/
theorem locked_retransmission :
    ¬ Best (setVideoCodecPreferences [some "VP8"]
        [⟨"VP8", 96⟩, ⟨"rtx", 97⟩, ⟨"VP9", 98⟩, ⟨"rtx", 99⟩, ⟨"red", 100⟩])
      [⟨"VP9", 98⟩, ⟨"rtx", 99⟩]
      (locked (lockNegotiatedSendCodec (setVideoCodecPreferences [some "VP8"]
          [⟨"VP8", 96⟩, ⟨"rtx", 97⟩, ⟨"VP9", 98⟩, ⟨"rtx", 99⟩, ⟨"red", 100⟩])
        (some { codecs := [⟨"VP9", 98⟩, ⟨"rtx", 99⟩], encodings := [{}] }))) := by
  intro h
  refine h.never ⟨"rtx", 99⟩ (by decide +kernel) (by decide)

end Codecs

end ReactorWebrtc
