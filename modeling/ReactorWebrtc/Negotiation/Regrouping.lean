/-
The order that `set_video_codec_preferences` builds, as a regrouping of the capabilities.

The nested loop marks what a name has used, so a name that comes again finds nothing left.
After any number of names what is not used is what has none of them (`markedBy`), and what
has been pushed is their groups; so the whole is `Regroup.regroup` with the codec's name as
the key, and what is known of that holds of the order.

An application that asks for the same preferences again, or lists a name twice, or one that
this build has no codec for, gets the order it had: each of these is a law of regrouping and
nothing of its own.
-/
import ReactorWebrtc.Lib.Regroup
import ReactorWebrtc.Negotiation.Codecs

namespace ReactorWebrtc.Codecs

open Regroup

/-- After these names, what is pushed and what is left make up the rest of the regrouping. -/
theorem usePreferred_regroup (codecNames : List (Option String)) (seen : List String)
    (ordered caps : List RtpCodec) :
    (usePreferred codecNames (ordered, markedBy seen caps)).1
        ++ ((usePreferred codecNames (ordered, markedBy seen caps)).2.filter
          fun (_, used) => !used).map Prod.fst =
      ordered ++ regroup RtpCodec.name codecNames.reduceOption
        (caps.filter fun c => decide (c.name ∉ seen)) := by
  induction codecNames generalizing seen ordered with
  | nil =>
      refine congrArg (ordered ++ ·) ?_
      show ((caps.map _).filter _).map Prod.fst = _
      rw [List.filter_map, List.map_map, List.reduceOption_nil, regroup]
      show (caps.filter fun c => !decide (c.name ∈ seen)).map id = _
      rw [List.map_id]
      exact List.filter_congr fun c _ => decide_not.symm
  | cons name codecNames ih =>
      cases name with
      | none =>
          rw [List.reduceOption_cons_of_none]
          exact ih seen ordered
      | some name =>
          have hpass : usePreferred (some name :: codecNames) (ordered, markedBy seen caps)
              = usePreferred codecNames
                (ordered ++ caps.filter fun c => decide (c.name ∉ seen) && c.name == name,
                  markedBy (name :: seen) caps) := by
            rw [usePreferred, useNamed_markedBy]
          rw [hpass, ih, List.append_assoc, List.reduceOption_cons_of_some, regroup,
            List.filter_filter, List.filter_filter]
          congr 3
          · exact funext fun c => Bool.and_comm _ _
          · refine List.filter_congr fun c _ => ?_
            rw [Bool.eq_iff_iff]
            simp [not_or]

theorem setVideoCodecPreferences_eq (codecNames : List (Option String)) (caps : List RtpCodec) :
    setVideoCodecPreferences codecNames caps =
      regroup RtpCodec.name codecNames.reduceOption caps := by
  have hstart : (caps.map fun c => (c, false)) = markedBy [] caps :=
    List.map_congr_left fun c _ => by simp
  have hall : (caps.filter fun c => decide (c.name ∉ ([] : List String))) = caps := by simp
  have h := usePreferred_regroup codecNames [] [] caps
  rw [hall, List.nil_append] at h
  rw [← h, setVideoCodecPreferences, hstart]

/-- A name that has no effect where it stands: null, listed before, or of no capability. -/
def Idle (before : List (Option String)) (caps : List RtpCodec) (name : Option String) : Prop :=
  name = none ∨ name ∈ before ∨ ∀ c ∈ caps, name ≠ some c.name

theorem regroup_idle {before : List (Option String)} {caps : List RtpCodec}
    {name : Option String} (h : Idle before caps name) (after : List (Option String)) :
    regroup RtpCodec.name (before ++ name :: after).reduceOption caps =
      regroup RtpCodec.name (before ++ after).reduceOption caps := by
  cases name with
  | none => rw [List.reduceOption_append, List.reduceOption_cons_of_none,
      List.reduceOption_append]
  | some name =>
      rw [List.reduceOption_append, List.reduceOption_cons_of_some, List.reduceOption_append]
      rcases h with h | h | h
      · cases h
      · exact regroup_repeated _ (List.reduceOption_mem_iff.mpr h) _ _
      · exact regroup_unknown _ (fun c hc heq => h c hc (congrArg some heq.symm)) _ _

/--
**Codec preferences are a stable regrouping.**  Every capability stands in the order once:
those of each listed name first, a name where it is first listed, and then the others, all
of them in the order of the capabilities.  Regrouping the order again changes nothing, and
neither does a name that is null, repeated or unknown.
-/
theorem setVideoCodecPreferences_regroups (codecNames : List (Option String))
    (caps : List RtpCodec) :
    (setVideoCodecPreferences codecNames caps).Perm caps ∧
      setVideoCodecPreferences codecNames caps =
        codecNames.reduceOption.eraseDups.flatMap (fun name => caps.filter (·.name == name))
          ++ caps.filter (fun c => decide (c.name ∉ codecNames.reduceOption)) ∧
      setVideoCodecPreferences codecNames (setVideoCodecPreferences codecNames caps) =
        setVideoCodecPreferences codecNames caps ∧
      ∀ before name after, codecNames = before ++ name :: after → Idle before caps name →
        setVideoCodecPreferences codecNames caps =
          setVideoCodecPreferences (before ++ after) caps := by
  simp only [setVideoCodecPreferences_eq]
  refine ⟨regroup_perm _ _ _, regroup_eq _ _ _, regroup_regroup _ _ _, ?_⟩
  rintro before name after rfl hidle
  exact regroup_idle hidle after

/-- What a library offers: retransmission stands twice, and so does `H264`. -/
def offered : List RtpCodec :=
  [⟨"VP8", 96⟩, ⟨"rtx", 97⟩, ⟨"H264", 98⟩, ⟨"rtx", 99⟩, ⟨"H264", 100⟩]

/-- A null name, an unknown one and one that comes again could each as well be left out. -/
theorem setVideoCodecPreferences_regroups_idle :
    setVideoCodecPreferences [some "H264", none, some "VP8"] offered =
        setVideoCodecPreferences [some "H264", some "VP8"] offered ∧
      setVideoCodecPreferences [some "H264", some "VP9", some "VP8"] offered =
        setVideoCodecPreferences [some "H264", some "VP8"] offered ∧
      setVideoCodecPreferences [some "H264", some "VP8", some "H264"] offered =
        setVideoCodecPreferences [some "H264", some "VP8"] offered ∧
      setVideoCodecPreferences [some "H264", some "VP8"] offered =
        [⟨"H264", 98⟩, ⟨"H264", 100⟩, ⟨"VP8", 96⟩, ⟨"rtx", 97⟩, ⟨"rtx", 99⟩] :=
  ⟨(setVideoCodecPreferences_regroups _ offered).2.2.2 [some "H264"] none [some "VP8"] rfl
      (.inl rfl),
    (setVideoCodecPreferences_regroups _ offered).2.2.2 [some "H264"] (some "VP9") [some "VP8"] rfl
      (.inr (.inr (by decide))),
    (setVideoCodecPreferences_regroups _ offered).2.2.2 [some "H264", some "VP8"] (some "H264") []
      rfl (.inr (.inl (by decide))),
    by decide +kernel⟩

end ReactorWebrtc.Codecs
