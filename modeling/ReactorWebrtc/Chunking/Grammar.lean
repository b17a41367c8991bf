/-
What a sequence of frames means, whoever sends it.

The reference parser keeps the accepted frames of the open message, all of them, and
looks at nothing else: a frame is read on its own, then held against the first frame of
the open message, and a frame that ends a run of accepted frames yields the message of
the run.  It never forgets a byte.  The reassembler keeps at most its limit and a counter,
and gives the same results: what ties the two is `Carries`, with the payload of the open
run for what has been fed.

The counter of skipped bytes does not wrap here, which no peer lives to see: it would
take 2^64 bytes of one message.

What ties a run to what is carried bounds the memory as well: whatever a peer sends, no more
is kept than the limit (`Fed.bounded`).
-/
import ReactorWebrtc.Chunking.Transfer
import ReactorWebrtc.Lib.Machine

namespace ReactorWebrtc

/-- A frame, read. -/
structure Frame where
  /-- More frames of the message follow. -/
  more : Bool
  text : Bool
  payload : Bytes
  deriving DecidableEq, Repr

namespace Frame

/-- The frame some bytes are: one byte with two flags in it, and the payload. -/
def read : Bytes → Except FrameError Frame
  | [] => .error .empty
  | first :: payload =>
    if first.toNat < 4 then
      .ok { more := first.toNat.testBit 0, text := first.toNat.testBit 1, payload }
    else .error (.unknownVersion first)

/-- A frame is of the message `run` has the first frames of. -/
def accept (run : List Frame) (bytes : Bytes) : Except FrameError Frame :=
  match read bytes with
  | .error e => .error e
  | .ok frame =>
    if run.head?.any (·.text != frame.text) then .error .typeChanged else .ok frame

def payloads (run : List Frame) : Bytes := run.flatMap (·.payload)

/-- What a complete run yields. -/
def yields (limit : Nat) (run : List Frame) : Delivery :=
  if (payloads run).length ≤ limit then
    .message (payloads run) (!run.head?.any (·.text))
  else .dropped (payloads run).length

/-- The accepted frames of the message that is open after `frame`. -/
def after (run : List Frame) (frame : Frame) : List Frame :=
  if frame.more then run ++ [frame] else []

/-- The frames that are accepted. -/
def accepted : List Frame → List Bytes → List Frame
  | _, [] => []
  | run, bytes :: rest =>
    match accept run bytes with
    | .error _ => accepted run rest
    | .ok frame => frame :: accepted (after run frame) rest

/-- The reference parser: what each frame gives. -/
def parse (limit : Nat) : List Frame → List Bytes → List (Except FrameError Delivery)
  | _, [] => []
  | run, bytes :: rest =>
    match accept run bytes with
    | .error e => .error e :: parse limit run rest
    | .ok frame =>
      .ok (if frame.more then .pending else yields limit (run ++ [frame])) ::
        parse limit (after run frame) rest

/-- Frames cut into runs: the last frame of a run is the one that has no more to follow. -/
structure Runs (frames : List Frame) (runs : List (List Frame)) (opened : List Frame) : Prop where
  whole : frames = runs.flatten ++ opened
  ended : ∀ run ∈ runs, ∃ front last, run = front ++ [last] ∧ last.more = false ∧
    ∀ frame ∈ front, frame.more = true
  opened : ∀ frame ∈ opened, frame.more = true

/-! ### The reference parser yields the runs of the accepted frames -/

/-- What is open when all frames are read. -/
def left : List Frame → List Bytes → List Frame
  | run, [] => run
  | run, bytes :: rest =>
    match accept run bytes with
    | .error _ => left run rest
    | .ok frame => left (after run frame) rest

theorem parse_runs (limit : Nat) {run : List Frame} (hrun : ∀ frame ∈ run, frame.more = true)
    (frames : List Bytes) :
    ∃ runs, Runs (run ++ accepted run frames) runs (left run frames) ∧
      (parse limit run frames).filterMap Transfer.delivered = runs.map (yields limit) := by
  induction frames generalizing run with
  | nil => exact ⟨[], ⟨by simp [accepted, left], by simp, hrun⟩, rfl⟩
  | cons bytes rest ih =>
      rw [accepted, parse, left]
      cases accept run bytes with
      | error e =>
          obtain ⟨runs, hruns, hyields⟩ := ih hrun
          exact ⟨runs, hruns, hyields⟩
      | ok frame =>
          dsimp only
          cases hmore : frame.more with
          | true =>
              have hafter : after run frame = run ++ [frame] := by simp [after, hmore]
              have hopen : ∀ x ∈ run ++ [frame], x.more = true := by
                intro x hx
                rcases List.mem_append.mp hx with hx | hx
                · exact hrun x hx
                · rw [List.mem_singleton.mp hx, hmore]
              obtain ⟨runs, hruns, hyields⟩ := ih hopen
              refine ⟨runs, ?_, ?_⟩
              · rw [hafter]
                rw [List.append_assoc] at hruns
                exact hruns
              · rw [hafter, ← hyields]
                rfl
          | false =>
              have hafter : after run frame = [] := by simp [after, hmore]
              obtain ⟨runs, ⟨hwhole, hended, hopened⟩, hyields⟩ :=
                @ih [] (by simp)
              rw [List.nil_append] at hwhole
              refine ⟨(run ++ [frame]) :: runs, ⟨?_, ?_, ?_⟩, ?_⟩
              · rw [hafter, hwhole]
                simp
              · intro x hx
                rcases List.mem_cons.mp hx with rfl | hx
                · exact ⟨run, frame, rfl, hmore, hrun⟩
                · exact hended x hx
              · rw [hafter]
                exact hopened
              · rw [hafter, List.map_cons, ← hyields, List.filterMap_cons]
                have hone : Transfer.delivered (.ok (yields limit (run ++ [frame])))
                    = some (yields limit (run ++ [frame])) := by
                  unfold yields
                  split <;> rfl
                simp [hone]

/-! ### The reassembler gives the same

A frame that the parser refuses leaves the open run as it is, and the reassembler what it
carries.  A frame that is accepted adds its payload to both, and if it ends the run both
start afresh.  So one frame keeps the tie, and a sequence of them does.
-/

/-- A frame that reads is the header of its flags and its payload. -/
theorem read_eq_ok {bytes : Bytes} {frame : Frame} (h : read bytes = .ok frame) :
    bytes = Header.encode { more := frame.more, text := frame.text } :: frame.payload := by
  have hall : ∀ n : Fin 4, UInt8.ofNat n =
      Header.encode { more := n.val.testBit 0, text := n.val.testBit 1 } := by decide
  unfold read at h
  split at h
  · cases h
  · rename_i first payload
    split at h
    · rename_i hlt
      obtain rfl := Except.ok.inj h
      have hfirst := hall ⟨first.toNat, hlt⟩
      simp only [UInt8.ofNat_toNat] at hfirst
      rw [← hfirst]
    · cases h

/-- A first byte that sets another bit is refused by its version. -/
theorem decode_of_ge {first : UInt8} (h : 4 ≤ first.toNat) :
    Header.decode first = .error (.unknownVersion first) := by
  have hall : ∀ n : Fin 256, 4 ≤ n.val → UInt8.ofNat n &&& Header.VERSION_MASK ≠ 0 := by
    decide +kernel
  have hbits := hall ⟨first.toNat, first.toNat_lt⟩ h
  simp only [UInt8.ofNat_toNat] at hbits
  rw [Header.decode, if_pos hbits]

theorem accept_eq_ok {run : List Frame} {bytes : Bytes} {frame : Frame}
    (h : accept run bytes = .ok frame) :
    bytes = Header.encode { more := frame.more, text := frame.text } :: frame.payload ∧
      Reassembler.Continues (run.head?.map (·.text)) frame.text := by
  unfold accept at h
  split at h
  · cases h
  · rename_i other hread
    split at h
    · cases h
    · rename_i htype
      obtain rfl := Except.ok.inj h
      refine ⟨read_eq_ok hread, ?_⟩
      cases hhead : run.head? with
      | none => exact .inl rfl
      | some head =>
          rw [hhead] at htype
          refine .inr ?_
          simpa using htype

/-- The reassembler has been fed the frames of `run`. -/
structure Fed (limit : Nat) (r : Reassembler) (run : List Frame) : Prop where
  maxSize : r.maxMessageSize = limit
  carries : r.Carries (payloads run) (run.head?.map (·.text))

variable {limit : Nat} {r : Reassembler} {run : List Frame}

theorem fed_new (limit : Nat) : Fed limit (Reassembler.new limit) [] :=
  ⟨rfl, Reassembler.new_carries limit⟩

/-- A frame that is not accepted changes nothing. -/
theorem Fed.push_rejected (h : Fed limit r run) {bytes : Bytes} {e : FrameError}
    (haccept : accept run bytes = .error e) : r.push bytes = (.error e, r) := by
  unfold accept at haccept
  cases bytes with
  | nil =>
      obtain rfl := Except.error.inj haccept
      rfl
  | cons first payload =>
      by_cases hlt : first.toNat < 4
      · obtain ⟨header, hheader⟩ : ∃ header : Header, header =
            { more := first.toNat.testBit 0, text := first.toNat.testBit 1 } := ⟨_, rfl⟩
        have hread : read (first :: payload)
            = .ok { more := header.more, text := header.text, payload } := by
          simp [read, hlt, hheader]
        have hdecode : Header.decode first = .ok header := by
          rw [(List.cons.inj (read_eq_ok hread)).1]
          exact Header.decode_encode header
        rw [hread] at haccept
        dsimp only at haccept
        split at haccept
        · rename_i htype
          obtain rfl := Except.error.inj haccept
          have hchanged : r.text.any (· != header.text) = true := by
            rw [h.carries.text, Option.any_map]
            exact htype
          simp [Reassembler.push, hdecode, hchanged]
        · cases haccept
      · have hread : read (first :: payload) = .error (.unknownVersion first) := by
          simp [read, hlt]
        rw [hread] at haccept
        obtain rfl := Except.error.inj haccept
        simp [Reassembler.push, decode_of_ge (Nat.not_lt.mp hlt)]

/-- One frame, accepted. -/
theorem Fed.push_accepted (h : Fed limit r run) {bytes : Bytes} {frame : Frame}
    (haccept : accept run bytes = .ok frame) :
    ∃ r', r.push bytes
        = (.ok (if frame.more then .pending else yields limit (run ++ [frame])), r') ∧
      Fed limit r' (after run frame) := by
  obtain ⟨rfl, hcontinues⟩ := accept_eq_ok haccept
  have hpayloads : payloads (run ++ [frame]) = payloads run ++ frame.payload := by
    simp [payloads]
  have htext : (run ++ [frame]).head?.map (·.text) = some frame.text := by
    rcases hcontinues with hnone | hsome
    · have hrun : run.head? = none := by simpa using hnone
      rw [List.head?_append, hrun]
      rfl
    · rw [List.head?_append]
      cases hhead : run.head? with
      | none => rfl
      | some head =>
          rw [hhead] at hsome
          exact hsome
  cases hmore : frame.more with
  | true =>
      obtain ⟨r', hpush, hcarries, hmax⟩ :=
        Reassembler.push_more h.carries hcontinues frame.payload
      refine ⟨r', ?_, ?_⟩
      · rw [hpush]
        rfl
      · rw [after, hmore, if_pos rfl]
        refine ⟨hmax.trans h.maxSize, ?_⟩
        rw [hpayloads, htext]
        exact hcarries
  | false =>
      obtain ⟨r', hpush, hcarries, hmax⟩ :=
        Reassembler.push_last h.carries hcontinues frame.payload
      refine ⟨r', ?_, ?_⟩
      · have hany : (run ++ [frame]).head?.any (·.text) = frame.text := by
          have hmap := congrArg (fun t => t.any id) htext
          simpa [Option.any_map] using hmap
        have hyields : yields limit (run ++ [frame])
            = Reassembler.deliveryOf limit (payloads run ++ frame.payload) (!frame.text) := by
          rw [yields, hpayloads, hany]
          rfl
        rw [hpush, h.maxSize, ← hyields]
        rfl
      · rw [after, hmore, if_neg (by simp)]
        exact ⟨hmax.trans h.maxSize, hcarries⟩

/-- The buffer never outgrows the limit, and is empty while a message is skipped. -/
theorem Fed.bounded (h : Fed limit r run) :
    r.buf.length ≤ limit ∧ (r.skipping ≠ none → r.buf = []) := by
  rcases Nat.lt_or_ge r.maxMessageSize (payloads run).length with hover | hwithin
  · obtain ⟨hbuf, -⟩ := h.carries.skipped hover
    rw [hbuf]
    exact ⟨Nat.zero_le _, fun _ => rfl⟩
  · obtain ⟨hbuf, hskip⟩ := h.carries.kept hwithin
    rw [hbuf, ← h.maxSize]
    exact ⟨hwithin, fun hne => absurd hskip hne⟩

end Frame

namespace Reassembler

open ReactorWebrtc.Frame

/-- Feed one frame after another. -/
def pushAll : Reassembler → List Bytes → List (Except FrameError Delivery) × Reassembler
  | r, [] => ([], r)
  | r, frame :: frames =>
    let (outcome, r) := r.push frame
    let (outcomes, r) := pushAll r frames
    (outcome :: outcomes, r)

theorem pushAll_eq {limit : Nat} {r : Reassembler} {run : List Frame} (h : Fed limit r run)
    (frames : List Bytes) :
    (r.pushAll frames).1 = parse limit run frames ∧
      Fed limit (r.pushAll frames).2 (left run frames) := by
  induction frames generalizing r run with
  | nil => exact ⟨rfl, h⟩
  | cons bytes rest ih =>
      rw [parse, left, pushAll]
      cases haccept : accept run bytes with
      | error e =>
          rw [h.push_rejected haccept]
          obtain ⟨hparse, hfed⟩ := ih h
          exact ⟨congrArg _ hparse, hfed⟩
      | ok frame =>
          obtain ⟨r', hpush, hfed⟩ := h.push_accepted haccept
          rw [hpush]
          obtain ⟨hparse, hrest⟩ := ih hfed
          exact ⟨congrArg _ hparse, hrest⟩

/-- A call on the reassembler. -/
inductive Call
  | push (frame : Bytes)
  | reset

def call (r : Reassembler) : Call → Reassembler
  | .push frame => (r.push frame).2
  | .reset => r.reset

/-- A reassembler, used in any way. -/
def machine (limit : Nat) : Machine Reassembler Call where
  start := new limit
  step r c := some (r.call c)

theorem fed_of_reachable {limit : Nat} {r : Reassembler} (h : (machine limit).Reachable r) :
    ∃ run, Fed limit r run := by
  refine Machine.invariant (I := fun r => ∃ run, Fed limit r run) ⟨[], fed_new limit⟩ ?_ h
  rintro r c r' ⟨run, hfed⟩ hstep
  obtain rfl := Option.some.inj hstep
  cases c with
  | push bytes =>
      cases haccept : accept run bytes with
      | error e =>
          rw [call, hfed.push_rejected haccept]
          exact ⟨run, hfed⟩
      | ok frame =>
          obtain ⟨r', hpush, hfed'⟩ := hfed.push_accepted haccept
          rw [call, hpush]
          exact ⟨_, hfed'⟩
  | reset =>
      refine ⟨[], hfed.maxSize, rfl, fun _ => ⟨rfl, rfl⟩, fun hlt => ?_⟩
      exact absurd hlt (Nat.not_lt_zero _)

/-- A frame that gives an error leaves the reassembler as it was. -/
theorem push_error {r : Reassembler} {frame : Bytes} {e : FrameError}
    (h : (r.push frame).1 = .error e) : (r.push frame).2 = r := by
  have hpush := r.push_pushes frame
  generalize r.push frame = out at h hpush
  cases hpush with
  | empty => rfl
  | version hfirst => rfl
  | changed hfirst htype => rfl
  | _ => cases h

/--
**Whatever a peer sends, the reassembler gives what the reference parser gives**, a
rejected frame leaves it as it was, and it holds no more than its limit.
-/
theorem push_parses (limit : Nat) (frames : List Bytes) :
    ((new limit).pushAll frames).1 = parse limit [] frames ∧
    (∃ runs, Runs (accepted [] frames) runs (left [] frames) ∧
      ((new limit).pushAll frames).1.filterMap Transfer.delivered
        = runs.map (yields limit)) ∧
    ∀ r, (machine limit).Reachable r →
      (∀ frame e, (r.push frame).1 = .error e → (r.push frame).2 = r) ∧
      r.buf.length ≤ limit ∧ (r.skipping ≠ none → r.buf = []) := by
  obtain ⟨hparse, -⟩ := pushAll_eq (fed_new limit) frames
  refine ⟨hparse, ?_, fun r hr => ⟨fun frame e he => push_error he, ?_⟩⟩
  · rw [hparse]
    exact parse_runs limit (fun _ h => absurd h List.not_mem_nil) frames
  · obtain ⟨run, hfed⟩ := fed_of_reachable hr
    exact hfed.bounded

end Reassembler

end ReactorWebrtc
