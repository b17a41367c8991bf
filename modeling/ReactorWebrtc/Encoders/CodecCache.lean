/-
The cache of the downloaded codec library.

A call of `ensure_available` hands out the library's path when both cached files are there,
the library and the sentinel that is written after it.  Else it downloads, verifies and
decompresses, and writes the library and then the sentinel.  A call is a sequence of steps
here: each may fail or be the last, writing adds to a file bit by bit, and between calls
either file may be deleted.  Calls do not overlap, in one process or in several: the next begins
when the last has returned or was cut off.

Where the calls look for the files is found once (`locate`), and that the two are not the
same file is part of it.  The digest and the decompressor are parameters: what matters is
that the content handed out came out of them.

`along_sound_iff` says what the sentinel is worth.  A library is written over the old one
with an old sentinel still in place, if only the library was deleted; cut short there, the
next call takes what was written so far.
-/
import Mathlib.Logic.Function.Basic
import ReactorWebrtc.Chunking.Frame
import ReactorWebrtc.Lib.Machine
import ReactorWebrtc.Lib.Text

namespace ReactorWebrtc

/-- A path, component by component. -/
abbrev Path := List Text

/-- The ways in which it fails, with what the caller is told. -/
inductive OpenH264Error
  | unsupportedPlatform (os arch : Text)
  | missingExpectedHash (file : Text)
  | noCacheDir
  | download (msg : Text)
  | hashMismatch (expected actual : Text)
  | decompress (msg : Text)
  | io (msg : Text)
  deriving DecidableEq, Repr

namespace CodecCache

/-- The version that is downloaded; the cache has a directory for each. -/
def OPENH264_VERSION : Text := "2.6.0".toList

/-- What is published for a platform, and the digest of the archive, in hexadecimal. -/
structure Target where
  archiveName : Text
  sha1 : Text
  deriving DecidableEq, Repr

/-- The file for a platform, and its hash. -/
def targetFor (os arch : Text) : Except OpenH264Error Target :=
  if os = "linux".toList ∧ arch = "x86_64".toList then
    .ok ⟨"libopenh264-2.6.0-linux64.8.so.bz2".toList,
      "1ae7464e33a249c1cd0b6998d09f9ada5937b64d".toList⟩
  else if os = "linux".toList ∧ arch = "aarch64".toList then
    .ok ⟨"libopenh264-2.6.0-linux-arm64.8.so.bz2".toList,
      "16727ec3b37dbea3c8616418ba0c4bc87e0eb4aa".toList⟩
  else if os = "windows".toList ∧ arch = "x86_64".toList then
    .ok ⟨"openh264-2.6.0-win64.dll.bz2".toList,
      "78661d7bf890e3c526acae6904679afd05941fbe".toList⟩
  else if os = "windows".toList ∧ arch = "aarch64".toList then
    .ok ⟨"openh264-2.6.0-win-arm64.dll.bz2".toList,
      "34c17127d00ea0be6f3b96b8e91c667357bef800".toList⟩
  else
    .error (.unsupportedPlatform os arch)

/-- The library and its sentinel. -/
def cachePaths (cacheRoot : Path) (libFilename : Text) : Path × Path :=
  (cacheRoot ++ [libFilename], cacheRoot ++ [libFilename ++ ".ok".toList])

theorem cachePaths_apart (cacheRoot : Path) (libFilename : Text) :
    (cachePaths cacheRoot libFilename).1 ≠ (cachePaths cacheRoot libFilename).2 := by
  intro h
  have hname : [libFilename] = [libFilename ++ ".ok".toList] := List.append_cancel_left h
  have hlength := congrArg List.length (List.cons.inj hname).1
  rw [List.length_append] at hlength
  exact absurd hlength (Nat.ne_of_lt (Nat.lt_add_of_pos_right (by decide)))

/-- What the calls of one process are about. -/
structure Located where
  target : Target
  libPath : Path
  sentinel : Path
  apart : libPath ≠ sentinel

/-- The archive's name without its `.bz2`. -/
def libFilename (archiveName : Text) : Text :=
  if ".bz2".toList.isSuffixOf archiveName then archiveName.take (archiveName.length - 4)
  else archiveName

/-- What a call finds out before it touches the disk. -/
def locate (os arch : Text) (cacheDir userCacheDir : Option Path) :
    Except OpenH264Error Located := do
  let target ← targetFor os arch
  if target.sha1.isEmpty then
    throw (.missingExpectedHash target.archiveName)
  let some base := cacheDir.or userCacheDir | throw .noCacheDir
  let root := base ++ ["reactor-webrtc".toList, "openh264".toList, OPENH264_VERSION]
  let name := libFilename target.archiveName
  return ⟨target, (cachePaths root name).1, (cachePaths root name).2, cachePaths_apart root name⟩

/-- Two digits for each byte, in lower case. -/
def hexEncode (bytes : Bytes) : Text :=
  bytes.flatMap fun b => [Nat.digitChar (b.toNat / 16), Nat.digitChar (b.toNat % 16)]

/-- `eq_ignore_ascii_case`: `Char.toLower` is of ASCII letters only. -/
def eqIgnoreAsciiCase (a b : Text) : Bool := a.map Char.toLower == b.map Char.toLower

/-- SHA-1, and bzip2: the content, or what the decoder has to say. -/
structure Codecs where
  sha1 : Bytes → Bytes
  bz2 : Bytes → Except Text Bytes

/-- The hash of what was downloaded against the one that is expected. -/
def verifySha1 (codecs : Codecs) (data : Bytes) (expectedHex : Text) :
    Except OpenH264Error Unit :=
  let actualHex := hexEncode (codecs.sha1 data)
  if !eqIgnoreAsciiCase actualHex expectedHex then .error (.hashMismatch expectedHex actualHex)
  else .ok ()

/-- The content, or what the decoder has to say as an error. -/
def decompressBz2 (codecs : Codecs) (data : Bytes) : Except OpenH264Error Bytes :=
  match codecs.bz2 data with
  | .ok out => .ok out
  | .error msg => .error (.decompress msg)

/-! ### A call, step by step

A failure ends the call with its own error, and so does being cut off, without any.
Whatever was written by then stays on the disk.
-/

/-- The files and their contents. -/
abbrev Disk := Path → Option Bytes

/-- Where the call is; between calls, what the last one returned. -/
inductive Phase
  | idle (returned : Option (Except OpenH264Error Path))
  /-- At the cache's directory, at the test for a hit, and at the download. -/
  | rooting
  | looking
  | downloading
  /-- At the verification, at the decompression, and at the library's file. -/
  | downloaded (compressed : Bytes)
  | verified (compressed : Bytes)
  | decompressed (content : Bytes)
  /-- With this much of the library on the disk and this much to come, and with all of it. -/
  | writing (done rest : Bytes)
  | written
  | marked
  /-- The same for the sentinel. -/
  | confirming (done rest : Bytes)
  deriving DecidableEq

/-- The disk, and how far the call is. -/
structure State where
  disk : Disk
  phase : Phase

/-- What happens in a call, that it is cut short, and what happens between calls. -/
inductive Action
  | call
  /-- What is next, where it succeeds or only the code decides. -/
  | next
  | received (compressed : Bytes)
  | wrote (n : Nat)
  /-- What is next fails, or the process ends before it. -/
  | fail (msg : Text)
  | cut
  | deleteLibrary
  | deleteSentinel
  deriving DecidableEq, Repr

variable (codecs : Codecs) (loc : Located)

/-- A hit: both files are there. -/
def hit (disk : Disk) : Bool := (disk loc.libPath).isSome && (disk loc.sentinel).isSome

/-- The call is further on, and nothing on the disk has changed. -/
def State.goto (s : State) (phase : Phase) : State := { s with phase }

/-- The call returns. -/
def State.giveBack (s : State) (result : Except OpenH264Error Path) : State :=
  s.goto (.idle (some result))

/-- `fs::write` so far: the file has this content. -/
def State.put (s : State) (path : Path) (content : Bytes) (phase : Phase) : State :=
  { disk := Function.update s.disk path (some content), phase }

/-- What is next, where it is for the code to say. -/
def advance (s : State) : Phase → Option State
  | .rooting => some (s.goto .looking)
  | .looking => some (if hit loc s.disk then s.giveBack (.ok loc.libPath) else s.goto .downloading)
  | .downloaded compressed =>
    match verifySha1 codecs compressed loc.target.sha1 with
    | .ok () => some (s.goto (.verified compressed))
    | .error e => some (s.giveBack (.error e))
  | .verified compressed =>
    match decompressBz2 codecs compressed with
    | .ok content => some (s.goto (.decompressed content))
    | .error e => some (s.giveBack (.error e))
  | .decompressed content => some (s.put loc.libPath [] (.writing [] content))
  | .writing _ [] => some (s.goto .written)
  -- whether the file could be marked executable does not matter
  | .written => some (s.goto .marked)
  | .marked => some (s.put loc.sentinel [] (.confirming [] ['o'.toUInt8, 'k'.toUInt8]))
  | .confirming _ [] => some (s.giveBack (.ok loc.libPath))
  | _ => none

/-- What is next fails, where it may. -/
def failed (s : State) (msg : Text) : Phase → Option State
  | .downloading => some (s.giveBack (.error (.download msg)))
  | .rooting | .decompressed _ | .writing .. | .marked | .confirming .. =>
    some (s.giveBack (.error (.io msg)))
  | _ => none

/-- A part of a file is written, where one is being written. -/
def wrote (s : State) (n : Nat) : Phase → Option State
  | .writing done rest =>
    some (s.put loc.libPath (done ++ rest.take n) (.writing (done ++ rest.take n) (rest.drop n)))
  | .confirming done rest =>
    some (s.put loc.sentinel (done ++ rest.take n)
      (.confirming (done ++ rest.take n) (rest.drop n)))
  | _ => none

/-- No call is under way. -/
def Phase.isIdle : Phase → Bool
  | .idle _ => true
  | _ => false

/-- A file is deleted between calls. -/
def delete (s : State) (path : Path) : State :=
  { disk := Function.update s.disk path none, phase := .idle none }

/-- A call goes through its phases; the rest happens when there is none. -/
def step (s : State) : Action → Option State
  | .call => if s.phase.isIdle then some (s.goto .rooting) else none
  | .next => advance codecs loc s s.phase
  | .received compressed =>
    if s.phase = .downloading then some (s.goto (.downloaded compressed)) else none
  | .wrote n => wrote loc s n s.phase
  | .fail msg => failed s msg s.phase
  | .cut => if s.phase.isIdle then none else some (s.goto (.idle none))
  | .deleteLibrary => if s.phase.isIdle then some (delete s loc.libPath) else none
  | .deleteSentinel => if s.phase.isIdle then some (delete s loc.sentinel) else none

/-- The calls on a cache that begins empty. -/
def machine : Machine State Action where
  start := { disk := fun _ => none, phase := .idle none }
  step := step codecs loc

/-! ### What is handed out -/

/-- The complete decompression of an archive that has the pinned digest. -/
def Genuine (content : Bytes) : Prop :=
  ∃ archive, verifySha1 codecs archive loc.target.sha1 = .ok () ∧
    decompressBz2 codecs archive = .ok content

/-- The file is there, and genuine. -/
def Holds (disk : Disk) (path : Path) : Prop :=
  ∃ content, disk path = some content ∧ Genuine codecs loc content

/-- What a call has just handed out is genuine, and so is what one would hand out now. -/
structure Sound (s : State) : Prop where
  returned : ∀ path, s.phase = .idle (some (.ok path)) → Holds codecs loc s.disk path
  ready : s.phase.isIdle = true → hit loc s.disk = true → Holds codecs loc s.disk loc.libPath

/-- A library that is left in the middle is left without a sentinel, or is genuine as it is. -/
def NotTorn (s : State) (a : Action) : Prop :=
  match a with
  | .cut | .fail _ =>
    match s.phase with
    | .writing done _ => (s.disk loc.sentinel).isSome = true → Genuine codecs loc done
    | _ => True
  | _ => True

/-! ### What each step relies on

Between calls it is enough that a sentinel stands beside a complete library only.  Inside
one, the content that is about to be written is genuine, and the sentinel is written when
the library is whole.
-/

/-- A hit now would be genuine. -/
def Settled (disk : Disk) : Prop :=
  hit loc disk = true → Holds codecs loc disk loc.libPath

/-- What a call has found out, or left on the disk, by where it is. -/
def Fits (s : State) : Prop :=
  match s.phase with
  | .idle returned =>
    ∀ path, returned = some (.ok path) → path = loc.libPath ∧ hit loc s.disk = true
  | .rooting | .looking | .downloading | .downloaded _ => Settled codecs loc s.disk
  | .verified compressed =>
    Settled codecs loc s.disk ∧ verifySha1 codecs compressed loc.target.sha1 = .ok ()
  | .decompressed content => Settled codecs loc s.disk ∧ Genuine codecs loc content
  | .writing done rest =>
    s.disk loc.libPath = some done ∧ Genuine codecs loc (done ++ rest)
  | .written | .marked => Holds codecs loc s.disk loc.libPath
  | .confirming .. =>
    Holds codecs loc s.disk loc.libPath ∧ (s.disk loc.sentinel).isSome = true

variable {codecs loc} {s t : State} {a : Action}

theorem sound_of_busy (h : s.phase.isIdle = false) : Sound codecs loc s := by
  refine ⟨fun path hpath => ?_, fun hidle => ?_⟩
  · rw [hpath] at h
    cases h
  · rw [h] at hidle
    cases hidle

/-- Between calls, what counts is what a hit would be. -/
theorem sound_iff_settled (hidle : s.phase.isIdle = true) (hfits : Fits codecs loc s) :
    Sound codecs loc s ↔ Settled codecs loc s.disk := by
  constructor
  · exact fun h => h.ready hidle
  · intro h
    refine ⟨fun path hpath => ?_, fun _ => h⟩
    rw [Fits, hpath] at hfits
    obtain ⟨rfl, hhit⟩ := hfits path rfl
    exact h hhit

/-- No path was returned. -/
def Fruitless (returned : Option (Except OpenH264Error Path)) : Prop :=
  ∀ path, returned ≠ some (.ok path)

theorem fruitless_none : Fruitless none := fun path h => by cases h

theorem fruitless_error (e : OpenH264Error) : Fruitless (some (.error e)) :=
  fun path h => by cases h

theorem fits_idle {disk : Disk} {returned : Option (Except OpenH264Error Path)}
    (h : Fruitless returned) : Fits codecs loc ⟨disk, .idle returned⟩ :=
  fun path hpath => absurd hpath (h path)

/-- A call that ends without a path leaves what a hit would be. -/
theorem ends_settled {disk : Disk} {returned : Option (Except OpenH264Error Path)}
    (h : Fruitless returned) (hsettled : Settled codecs loc disk) :
    Fits codecs loc ⟨disk, .idle returned⟩ ∧ Sound codecs loc ⟨disk, .idle returned⟩ :=
  ⟨fits_idle h, (sound_iff_settled rfl (fits_idle h)).mpr hsettled⟩

/-- A call that ends with the library's path had both files. -/
theorem ends_ok {disk : Disk} (hhit : hit loc disk = true)
    (hholds : Holds codecs loc disk loc.libPath) :
    Fits codecs loc ⟨disk, .idle (some (.ok loc.libPath))⟩ ∧
      Sound codecs loc ⟨disk, .idle (some (.ok loc.libPath))⟩ := by
  have hfits : Fits codecs loc ⟨disk, .idle (some (.ok loc.libPath))⟩ := by
    intro path hpath
    obtain rfl := Except.ok.inj (Option.some.inj hpath)
    exact ⟨rfl, hhit⟩
  exact ⟨hfits, (sound_iff_settled rfl hfits).mpr fun _ => hholds⟩

theorem holds_put {s : State} {content : Bytes} {phase : Phase}
    (h : Holds codecs loc s.disk loc.libPath) :
    Holds codecs loc (s.put loc.sentinel content phase).disk loc.libPath := by
  obtain ⟨b, hb, hgenuine⟩ := h
  refine ⟨b, ?_, hgenuine⟩
  rw [← hb]
  exact Function.update_of_ne loc.apart _ _

/-- What is decided without the disk's or the network's help. -/
theorem advance_fits (hfits : Fits codecs loc s) (hstep : advance codecs loc s s.phase = some t) :
    Fits codecs loc t ∧ Sound codecs loc t := by
  obtain ⟨disk, phase⟩ := s
  cases phase with
  | idle returned => cases hstep
  | downloading => cases hstep
  | rooting =>
      obtain rfl := Option.some.inj hstep
      exact ⟨hfits, sound_of_busy rfl⟩
  | looking =>
      obtain rfl := Option.some.inj hstep
      cases hhit : hit loc disk with
      | true =>
          rw [if_pos rfl]
          exact ends_ok hhit (hfits hhit)
      | false =>
          rw [if_neg Bool.false_ne_true]
          exact ⟨hfits, sound_of_busy rfl⟩
  | downloaded compressed =>
      simp only [advance] at hstep
      cases hverify : verifySha1 codecs compressed loc.target.sha1 with
      | ok u =>
          rw [hverify] at hstep
          obtain rfl := Option.some.inj hstep
          exact ⟨⟨hfits, hverify⟩, sound_of_busy rfl⟩
      | error e =>
          rw [hverify] at hstep
          obtain rfl := Option.some.inj hstep
          exact ends_settled (fruitless_error e) hfits
  | verified compressed =>
      obtain ⟨hsettled, hverify⟩ := hfits
      simp only [advance] at hstep
      cases hcontent : decompressBz2 codecs compressed with
      | ok content =>
          rw [hcontent] at hstep
          obtain rfl := Option.some.inj hstep
          exact ⟨⟨hsettled, compressed, hverify, hcontent⟩, sound_of_busy rfl⟩
      | error e =>
          rw [hcontent] at hstep
          obtain rfl := Option.some.inj hstep
          exact ends_settled (fruitless_error e) hsettled
  | decompressed content =>
      obtain rfl := Option.some.inj hstep
      exact ⟨⟨Function.update_self _ _ _, hfits.2⟩, sound_of_busy rfl⟩
  | writing done rest =>
      cases rest with
      | nil =>
          obtain rfl := Option.some.inj hstep
          obtain ⟨hdone, hgenuine⟩ := hfits
          rw [List.append_nil] at hgenuine
          exact ⟨⟨done, hdone, hgenuine⟩, sound_of_busy rfl⟩
      | cons b rest => cases hstep
  | written =>
      obtain rfl := Option.some.inj hstep
      exact ⟨hfits, sound_of_busy rfl⟩
  | marked =>
      obtain rfl := Option.some.inj hstep
      refine ⟨⟨holds_put hfits, ?_⟩, sound_of_busy rfl⟩
      show (Function.update disk loc.sentinel _ loc.sentinel).isSome = true
      rw [Function.update_self]
      rfl
  | confirming done rest =>
      cases rest with
      | nil =>
          obtain rfl := Option.some.inj hstep
          obtain ⟨hholds, hsentinel⟩ := hfits
          refine ends_ok ?_ hholds
          obtain ⟨b, hb, -⟩ := hholds
          exact Bool.and_eq_true_iff.mpr ⟨Option.isSome_of_eq_some hb, hsentinel⟩
      | cons b rest => cases hstep

theorem wrote_fits {n : Nat} (hfits : Fits codecs loc s) (hstep : wrote loc s n s.phase = some t) :
    Fits codecs loc t ∧ Sound codecs loc t := by
  obtain ⟨disk, phase⟩ := s
  cases phase with
  | writing done rest =>
      obtain rfl := Option.some.inj hstep
      obtain ⟨-, hgenuine⟩ := hfits
      refine ⟨⟨Function.update_self _ _ _, ?_⟩, sound_of_busy rfl⟩
      rwa [List.append_assoc, List.take_append_drop]
  | confirming done rest =>
      obtain rfl := Option.some.inj hstep
      refine ⟨⟨holds_put hfits.1, ?_⟩, sound_of_busy rfl⟩
      show (Function.update disk loc.sentinel _ loc.sentinel).isSome = true
      rw [Function.update_self]
      rfl
  | _ => cases hstep

/-- A call left where it is: in the middle of the library it counts what is on the disk. -/
theorem left_sound {returned : Option (Except OpenH264Error Path)}
    (h : Fruitless returned) (hbusy : s.phase.isIdle = false)
    (hfits : Fits codecs loc s) :
    Sound codecs loc (s.goto (.idle returned)) ↔ NotTorn codecs loc s .cut := by
  obtain ⟨disk, phase⟩ := s
  have hiff : Sound codecs loc ⟨disk, .idle returned⟩ ↔ Settled codecs loc disk :=
    sound_iff_settled rfl (fits_idle h)
  refine hiff.trans ?_
  cases phase with
  | idle returned => cases hbusy
  | writing done rest =>
      obtain ⟨hdone, -⟩ := hfits
      change disk loc.libPath = some done at hdone
      have hholds : Holds codecs loc disk loc.libPath ↔ Genuine codecs loc done := by
        unfold Holds
        rw [hdone]
        simp
      rw [Settled, hholds, hit, hdone]
      rfl
  | rooting => exact iff_of_true hfits trivial
  | looking => exact iff_of_true hfits trivial
  | downloading => exact iff_of_true hfits trivial
  | downloaded compressed => exact iff_of_true hfits trivial
  | verified compressed => exact iff_of_true hfits.1 trivial
  | decompressed content => exact iff_of_true hfits.1 trivial
  | written => exact iff_of_true (fun _ => hfits) trivial
  | marked => exact iff_of_true (fun _ => hfits) trivial
  | confirming done rest => exact iff_of_true (fun _ => hfits.1) trivial

theorem failed_eq {msg : Text} (hstep : failed s msg s.phase = some t) :
    s.phase.isIdle = false ∧ ∃ e, t = s.giveBack (.error e) := by
  cases hphase : s.phase with
  | rooting | decompressed | writing | marked | confirming =>
      rw [hphase] at hstep
      exact ⟨rfl, .io msg, (Option.some.inj hstep).symm⟩
  | downloading =>
      rw [hphase] at hstep
      exact ⟨rfl, .download msg, (Option.some.inj hstep).symm⟩
  | _ =>
      rw [hphase] at hstep
      cases hstep

theorem delete_settled (codecs : Codecs) {path : Path}
    (h : path = loc.libPath ∨ path = loc.sentinel) (disk : Disk) :
    Settled codecs loc (Function.update disk path none) := by
  intro hhit
  rw [hit, Bool.and_eq_true] at hhit
  rcases h with rfl | rfl
  · rw [Function.update_self] at hhit
    cases hhit.1
  · rw [Function.update_self] at hhit
    cases hhit.2

theorem step_fits (hfits : Fits codecs loc s) (hsound : Sound codecs loc s)
    (hstep : step codecs loc s a = some t) :
    Fits codecs loc t ∧ (Sound codecs loc t ↔ NotTorn codecs loc s a) := by
  cases a with
  | call =>
      rw [step, Option.ite_none_right_eq_some] at hstep
      obtain ⟨hidle, hstep⟩ := hstep
      obtain rfl := Option.some.inj hstep
      exact ⟨hsound.ready hidle, iff_of_true (sound_of_busy rfl) trivial⟩
  | next =>
      obtain ⟨ht, hsound'⟩ := advance_fits hfits hstep
      exact ⟨ht, iff_of_true hsound' trivial⟩
  | received compressed =>
      rw [step, Option.ite_none_right_eq_some] at hstep
      obtain ⟨hphase, hstep⟩ := hstep
      obtain rfl := Option.some.inj hstep
      rw [Fits, hphase] at hfits
      exact ⟨hfits, iff_of_true (sound_of_busy rfl) trivial⟩
  | wrote n =>
      obtain ⟨ht, hsound'⟩ := wrote_fits hfits hstep
      exact ⟨ht, iff_of_true hsound' trivial⟩
  | fail msg =>
      obtain ⟨hbusy, e, rfl⟩ := failed_eq hstep
      have hnot := fruitless_error e
      exact ⟨fits_idle hnot, left_sound hnot hbusy hfits⟩
  | cut =>
      rw [step, Option.ite_none_left_eq_some] at hstep
      obtain ⟨hbusy, hstep⟩ := hstep
      obtain rfl := Option.some.inj hstep
      have hbusy := Bool.eq_false_iff.mpr hbusy
      exact ⟨fits_idle fruitless_none, left_sound fruitless_none hbusy hfits⟩
  | deleteLibrary =>
      rw [step, Option.ite_none_right_eq_some] at hstep
      obtain rfl := Option.some.inj hstep.2
      obtain ⟨ht, hsound'⟩ := ends_settled fruitless_none
        (delete_settled codecs (.inl rfl) s.disk)
      exact ⟨ht, iff_of_true hsound' trivial⟩
  | deleteSentinel =>
      rw [step, Option.ite_none_right_eq_some] at hstep
      obtain rfl := Option.some.inj hstep.2
      obtain ⟨ht, hsound'⟩ := ends_settled fruitless_none
        (delete_settled codecs (.inr rfl) s.disk)
      exact ⟨ht, iff_of_true hsound' trivial⟩

/--
**When the cache hands out only what was verified.**  Exactly if no call leaves the library
in the middle with a sentinel of an earlier call in place, unless that much of it is genuine.
-/
theorem along_sound_iff (codecs : Codecs) (loc : Located) {as : List Action} {t : State}
    (hrun : (machine codecs loc).run (machine codecs loc).start as = some t) :
    (machine codecs loc).Along (Sound codecs loc) (machine codecs loc).start as ↔
      (machine codecs loc).Guarded (NotTorn codecs loc) (machine codecs loc).start as := by
  obtain ⟨hfits, hsound⟩ := @ends_settled codecs loc (fun _ => none) _
    fruitless_none fun h => by cases h
  exact Machine.along_iff_guarded_kept
    (fun s a t hfits hsound _ hstep => (step_fits hfits hsound hstep).1)
    (fun s a t hfits hsound hstep => (step_fits hfits hsound hstep).2) hfits hsound hrun

/-- One archive with the pinned digest, stored as it is. -/
def stored : Codecs where
  sha1 data := if data = [66, 90, 104] then [1] else [0]
  bz2 data := .ok data

/-- A library for the history below. -/
def lib : Located := ⟨⟨"lib.so.bz2".toList, "01".toList⟩, ["lib.so".toList],
  ["lib.so.ok".toList], by decide⟩

/-- A first call; the library deleted; a second call cut short; and a third. -/
def tornHistory : List Action :=
  [.call, .next, .next, .received [66, 90, 104], .next, .next, .next, .wrote 3, .next, .next,
    .next, .wrote 2, .next, .deleteLibrary,
    .call, .next, .next, .received [66, 90, 104], .next, .next, .next, .wrote 1, .cut,
    .call, .next, .next]

theorem along_sound_iff_first :
    (machine stored lib).Along (Sound stored lib) (machine stored lib).start
        (tornHistory.take 13) ↔
      (machine stored lib).Guarded (NotTorn stored lib) (machine stored lib).start
        (tornHistory.take 13) :=
  along_sound_iff stored lib
    ((machine stored lib).run_final (machine stored lib).start (tornHistory.take 13)
      (by decide +kernel))

/-- The third call hands out a library that is one byte long. -/
theorem torn_library :
    ∃ t, (machine stored lib).run (machine stored lib).start tornHistory = some t ∧
      t.phase = .idle (some (.ok lib.libPath)) ∧ ¬ Holds stored lib t.disk lib.libPath := by
  refine ⟨_, (machine stored lib).run_final (machine stored lib).start tornHistory
    (by decide +kernel), by decide +kernel, ?_⟩
  rintro ⟨content, hcontent, archive, hverify, hdecompress⟩
  have hone : ((machine stored lib).final (machine stored lib).start tornHistory
      (by decide +kernel)).disk lib.libPath = some [66] := by decide +kernel
  obtain rfl := Option.some.inj (hone.symm.trans hcontent)
  obtain rfl : archive = [66] := Except.ok.inj hdecompress
  have hrefused : verifySha1 stored [66] lib.target.sha1 ≠ .ok () := by decide +kernel
  exact hrefused hverify

end CodecCache

end ReactorWebrtc
