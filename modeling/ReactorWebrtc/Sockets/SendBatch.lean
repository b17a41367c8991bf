/-
The batching of a thread's UDP sends, over any number of sockets.

While a scope is open `SendTo` queues, and the socket goes on the thread's list; the
outermost scope flushes the list when it closes, and a queue that is full is flushed at once.
`SetOption`, `Send` and `Close` flush the socket first, and one that is destroyed comes off
the list.  A step is one such operation with the kernel's answers to its calls, all of them
and no more.

`Between` ties the queues to the list and the depth: what is queued is queued on a socket that is
open, on the list, and inside a scope.  That is why a datagram sent directly finds nothing
queued before it, and why the end of the outermost scope leaves nothing.

`Traced` ties the log to the run.  Each operation adds to the log what was asked of it, in
order, and a call for each of the kernel's answers, and nothing else of either kind
(`Grows`), so the log of a run is what its operations asked for and were told.
-/
import Mathlib.Logic.Function.Basic
import ReactorWebrtc.Lib.Machine
import ReactorWebrtc.Sockets.Flush

namespace ReactorWebrtc.Sockets

structure PhysicalSocket where
  udp : Bool
  /-- Whether `s_` is valid. -/
  isOpen : Bool
  sendBatch : Queue := {}
  inSendBatchList : Bool := false
  deriving DecidableEq, Repr

/-- A thread and its sockets. -/
structure State where
  sockets : Nat → Option PhysicalSocket := fun _ => none
  depth : Nat := 0
  listed : List Nat := []
  sendmsgXWorks : Bool := true
  log : List Event := []
  /-- Whether a socket that is gone was flushed. -/
  dangling : Bool := false

inductive Action
  | construct (k : Nat) (udp isOpen : Bool)
  | destroy (k : Nat) (answers : List Answer)
  | openScope
  | closeScope (answers : List Answer)
  | sendTo (k : Nat) (d : Datagram) (answers : List Answer)
  | send (k : Nat) (answers : List Answer)
  | setOption (k : Nat) (answers : List Answer)
  | close (k : Nat) (answers : List Answer)
  deriving DecidableEq, Repr

namespace State

def put (s : State) (k : Nat) (socket : Option PhysicalSocket) : State :=
  { s with sockets := Function.update s.sockets k socket }

def record (s : State) (e : Event) : State := { s with log := s.log ++ [e] }

/-- The datagrams a socket has queued. -/
def queued (s : State) (k : Nat) : List Datagram :=
  match s.sockets k with
  | some socket => socket.sendBatch.datagrams
  | none => []

/-- Send what is queued, and clear the queue. -/
def flushSendBatch (platform : Platform) (s : State) (k : Nat) (answers : List Answer) :
    Option (State × List Answer) :=
  match s.sockets k with
  | none => some ({ s with dangling := true }, answers)
  | some socket =>
    if socket.sendBatch.batch = [] then some (s, answers)
    else
      let s := s.record (.flush k socket.sendBatch.batch.length)
      let result :=
        if socket.isOpen then
          flushLoop platform k s.sendmsgXWorks socket.sendBatch.datagrams answers
        else some ([], s.sendmsgXWorks, answers)
      result.map fun (events, works, answers) =>
        ({ s.put k (some { socket with sendBatch := {} }) with
            log := s.log ++ events, sendmsgXWorks := works }, answers)

/-- The outermost scope closes: flush the sockets that were listed. -/
def flushListed (platform : Platform) :
    State → List Nat → List Answer → Option (State × List Answer)
  | s, [], answers => some (s, answers)
  | s, k :: ks, answers =>
    let s := s.put k ((s.sockets k).map fun socket => { socket with inSendBatchList := false })
    (s.flushSendBatch platform k answers).bind fun (s, answers) =>
      flushListed platform s ks answers

/-- On the queue, and the socket on the list. -/
def enqueue (s : State) (k : Nat) (socket : PhysicalSocket) (d : Datagram) : State :=
  { s.put k (some { socket with
      sendBatch := socket.sendBatch.push d.addr d.data, inSendBatchList := true }) with
    listed := if socket.inSendBatchList then s.listed else s.listed ++ [k] }

/-- Queue a datagram, and flush a queue that is full. -/
def queueForSendBatch (platform : Platform) (s : State) (k : Nat) (socket : PhysicalSocket)
    (d : Datagram) (answers : List Answer) : Option (State × List Answer) :=
  let s := s.enqueue k socket d
  if kMaxUdpSendBatch ≤ (socket.sendBatch.push d.addr d.data).batch.length then
    s.flushSendBatch platform k answers
  else some (s, answers)

/-- One call of `sendto` for a datagram that is not queued. -/
def sendDirect (s : State) (k : Nat) (socket : PhysicalSocket) (d : Datagram) :
    List Answer → Option (State × List Answer)
  | .took 1 :: answers =>
    if socket.isOpen then some (s.record (.direct k d .accepted), answers) else none
  | .took _ :: _ | [] => none
  | .blocking :: answers => some (s.record (.direct k d .dropped), answers)
  | _ :: answers => some (s.record (.direct k d .skipped), answers)

def sendTo (platform : Platform) (s : State) (k : Nat) (socket : PhysicalSocket) (d : Datagram)
    (answers : List Answer) : Option (State × List Answer) :=
  if socket.udp ∧ socket.isOpen ∧ 0 < s.depth then
    (s.record (.sendTo k d)).queueForSendBatch platform k socket d answers
  else s.sendDirect k socket d answers

/-- `Close`, of a socket that may be closed already. -/
def close (platform : Platform) (s : State) (k : Nat) (socket : PhysicalSocket)
    (answers : List Answer) : Option (State × List Answer) :=
  if !socket.isOpen then some (s, answers)
  else (s.flushSendBatch platform k answers).map fun (s, answers) =>
    ((s.record (.close k)).put k ((s.sockets k).map fun socket => { socket with isOpen := false }),
      answers)

/-- Off the list, and gone. -/
def remove (s : State) (k : Nat) : State :=
  match s.sockets k with
  | some socket =>
    { s.put k none with
      listed := if socket.inSendBatchList then s.listed.filter (· ≠ k) else s.listed }
  | none => s

end State

/-- An operation has its answers, and no more. -/
def finished : Option (State × List Answer) → Option State
  | some (s, []) => some s
  | _ => none

def step (platform : Platform) (s : State) : Action → Option State
  | .construct k udp isOpen =>
    if s.sockets k = none then some (s.put k (some { udp, isOpen })) else none
  | .destroy k answers =>
    (s.sockets k).bind fun socket =>
      (finished (s.close platform k socket answers)).map (·.remove k)
  | .openScope => some { s with depth := s.depth + 1 }
  | .closeScope answers =>
    if s.depth = 0 then none
    else if 0 < s.depth - 1 then finished (some ({ s with depth := s.depth - 1 }, answers))
    else finished (State.flushListed platform { s with depth := 0, listed := [] } s.listed answers)
  | .sendTo k d answers =>
    (s.sockets k).bind fun socket => finished (s.sendTo platform k socket d answers)
  | .send k answers =>
    (s.sockets k).bind fun _ =>
      (finished (s.flushSendBatch platform k answers)).map (·.record (.send k))
  | .setOption k answers =>
    (s.sockets k).bind fun _ =>
      (finished (s.flushSendBatch platform k answers)).map (·.record (.setOption k))
  | .close k answers =>
    (s.sockets k).bind fun socket => finished (s.close platform k socket answers)

def machine (platform : Platform) : Machine State Action where
  start := {}
  step := step platform

/-! ### What the operations of a run come to

These read the actions, and for `Close` whether the socket was open, and not the log.
-/

/-- The kernel's answers to the calls of an operation. -/
def Action.answers : Action → List Answer
  | .construct .. | .openScope => []
  | .destroy _ answers | .closeScope answers | .sendTo _ _ answers | .send _ answers
  | .setOption _ answers | .close _ answers => answers

/-- What an operation asks for; a socket that is closed is not closed again. -/
def asks (s : State) (a : Action) (_ : State) : List Request :=
  match a with
  | .sendTo k d _ => [.sendTo k d]
  | .setOption k _ => [.setOption k]
  | .send k _ => [.send k]
  | .close k _ | .destroy k _ => if (s.sockets k).any (·.isOpen) then [.close k] else []
  | .construct .. | .openScope | .closeScope _ => []

/-- The datagram an operation gives a socket. -/
def Action.sends (k : Nat) : Action → List Datagram
  | .sendTo j d _ => if j = k then [d] else []
  | _ => []

def Action.opens : Action → Bool
  | .openScope => true
  | _ => false

def Action.closes : Action → Bool
  | .closeScope _ => true
  | _ => false

/-- The log is what the operations of the run asked for and were told. -/
structure Traced (platform : Platform) (as : List Action) (s : State) : Prop where
  sent : ∀ k, sentTo k s.log = as.flatMap (Action.sends k)
  requests : s.log.filterMap Event.request =
    (machine platform).seen asks (machine platform).start as
  answered : List.Forall₂ Event.Answers (s.log.filter Event.isCall) (as.flatMap Action.answers)
  depth : s.depth + as.countP Action.closes = as.countP Action.opens

/-- What is so whatever the thread did and whatever the kernel answered. -/
structure Orderly (s : State) : Prop where
  ordered : Ordered s.log
  books : ∀ k, (settled k s.log).map Prod.fst ++ s.queued k = sentTo k s.log
  once : ∀ k, (accepted k s.log).Sublist (sentTo k s.log)
  idle : s.depth = 0 → ∀ k, s.queued k = []
  safe : s.dangling = false

/-! ### The queues, the list and the depth

`Core` is about every socket, `Listing` about the list: whatever is queued is queued on a
socket that is listed.  A flush of one socket leaves the others as they were.
-/

/-- What is queued is queued on an open UDP socket, and accounts for what the log leaves. -/
structure Core (s : State) : Prop where
  ordered : Ordered s.log
  books : ∀ k, (settled k s.log).map Prod.fst ++ s.queued k = sentTo k s.log
  cap : ∀ k, (s.queued k).length ≤ kMaxUdpSendBatch
  ready : ∀ k socket, s.sockets k = some socket → socket.sendBatch.batch ≠ [] →
    socket.isOpen = true ∧ socket.udp = true
  safe : s.dangling = false

/-- These are the sockets to be flushed, and they know it. -/
structure Listing (listed : List Nat) (s : State) : Prop where
  filled : ∀ k socket, s.sockets k = some socket → socket.sendBatch.batch ≠ [] → k ∈ listed
  flagged : ∀ k, k ∈ listed ↔ ∃ socket, s.sockets k = some socket ∧ socket.inSendBatchList = true
  nodup : listed.Nodup

/-- Between operations. -/
structure Between (s : State) : Prop where
  core : Core s
  listing : Listing s.listed s
  room : ∀ k, (s.queued k).length < kMaxUdpSendBatch
  idle : s.depth = 0 → s.listed = []

variable {platform : Platform} {s t : State} {k : Nat} {answers answers' : List Answer}

theorem put_sockets_self (s : State) (k : Nat) (socket : Option PhysicalSocket) :
    (s.put k socket).sockets k = socket := Function.update_self _ _ _

theorem put_sockets_of_ne (s : State) {j k : Nat} (h : j ≠ k) (socket : Option PhysicalSocket) :
    (s.put k socket).sockets j = s.sockets j := Function.update_of_ne h _ _

theorem queued_put_self (s : State) (k : Nat) (socket : PhysicalSocket) :
    (s.put k (some socket)).queued k = socket.sendBatch.datagrams := by
  simp [State.queued, State.put]

theorem queued_put_of_ne (s : State) {j k : Nat} (h : j ≠ k) (socket : Option PhysicalSocket) :
    (s.put k socket).queued j = s.queued j := by
  simp [State.queued, State.put, h]

theorem queued_of_socket {socket : PhysicalSocket} (h : s.sockets k = some socket) :
    s.queued k = socket.sendBatch.datagrams := by
  rw [State.queued, h]

theorem Listing.queued_eq_nil (h : Listing [] s) : s.queued k = [] := by
  by_contra hne
  cases hk : s.sockets k with
  | none => exact hne (by rw [State.queued, hk])
  | some socket =>
      rw [queued_of_socket hk, Queue.datagrams_eq_nil] at hne
      exact absurd (h.filled k socket hk hne) List.not_mem_nil

/-- What a flush changes: the queue, which is empty then, and the log. -/
structure Flushed (k : Nat) (s t : State) : Prop where
  socket : ∃ socket queue, s.sockets k = some socket ∧ queue.batch = [] ∧
    t.sockets = Function.update s.sockets k (some { socket with sendBatch := queue })
  depth : t.depth = s.depth
  listed : t.listed = s.listed

theorem Flushed.queued (h : Flushed k s t) : t.queued k = [] := by
  obtain ⟨socket, queue, -, hqueue, hsockets⟩ := h.socket
  rw [State.queued, hsockets, Function.update_self]
  exact Queue.datagrams_eq_nil.mpr hqueue

theorem Flushed.others (h : Flushed k s t) {j : Nat} (hj : j ≠ k) : t.queued j = s.queued j := by
  obtain ⟨socket, queue, -, -, hsockets⟩ := h.socket
  rw [State.queued, State.queued, hsockets, Function.update_of_ne hj]

/-- The flags are as they were, and what is queued elsewhere is. -/
theorem Flushed.sockets (h : Flushed k s t) (j : Nat) (socket : PhysicalSocket)
    (hj : t.sockets j = some socket) :
    ∃ old, s.sockets j = some old ∧ old.isOpen = socket.isOpen ∧ old.udp = socket.udp ∧
      old.inSendBatchList = socket.inSendBatchList ∧
      (socket.sendBatch.batch ≠ [] → old.sendBatch.batch ≠ []) := by
  obtain ⟨old, queue, hold, hqueue, hsockets⟩ := h.socket
  rw [hsockets] at hj
  by_cases hjk : j = k
  · subst hjk
    rw [Function.update_self] at hj
    obtain rfl := Option.some.inj hj
    exact ⟨old, hold, rfl, rfl, rfl, fun hne => absurd hqueue hne⟩
  · rw [Function.update_of_ne hjk] at hj
    exact ⟨socket, hj, rfl, rfl, rfl, id⟩

theorem Flushed.flags (h : Flushed k s t) (j : Nat) :
    (∃ socket, t.sockets j = some socket ∧ socket.inSendBatchList = true) ↔
      ∃ socket, s.sockets j = some socket ∧ socket.inSendBatchList = true := by
  obtain ⟨old, queue, hold, -, hsockets⟩ := h.socket
  rw [hsockets]
  by_cases hjk : j = k
  · subst hjk
    rw [Function.update_self, hold]
    simp
  · rw [Function.update_of_ne hjk]

theorem Flushed.listing {listed : List Nat} (h : Flushed k s t) (hlisting : Listing listed s) :
    Listing listed t where
  filled j socket hj hne := by
    obtain ⟨old, hold, -, -, -, hfull⟩ := h.sockets j socket hj
    exact hlisting.filled j old hold (hfull hne)
  flagged j := (hlisting.flagged j).trans (h.flags j).symm
  nodup := hlisting.nodup

theorem clear_of_books (hbooks : (settled k s.log).map Prod.fst ++ s.queued k = sentTo k s.log)
    (hempty : s.queued k = []) : Clear k s.log := by
  rwa [hempty, List.append_nil] at hbooks

/-- A flush deals with all that is queued. -/
theorem flush_core {socket : PhysicalSocket} (hcore : Core s) (hk : s.sockets k = some socket)
    (h : s.flushSendBatch platform k answers = some (t, answers')) : Flushed k s t ∧ Core t := by
  simp only [State.flushSendBatch, hk] at h
  split at h
  · rename_i hempty
    obtain ⟨rfl, -⟩ := Prod.mk.inj (Option.some.inj h)
    refine ⟨⟨⟨socket, socket.sendBatch, hk, hempty, ?_⟩, rfl, rfl⟩, hcore⟩
    exact (Function.update_eq_self_iff.mpr hk.symm).symm
  · rename_i hfull
    obtain ⟨hopen, -⟩ := hcore.ready k socket hk hfull
    rw [if_pos hopen] at h
    obtain ⟨⟨events, works, rest⟩, hloop, heq⟩ := Option.map_eq_some_iff.mp h
    obtain ⟨ht, rfl⟩ := Prod.mk.inj heq
    have hflushed : Flushed k s t := by
      rw [← ht]
      exact ⟨⟨socket, {}, hk, rfl, rfl⟩, rfl, rfl⟩
    have hlog : t.log = s.log ++ [.flush k socket.sendBatch.batch.length] ++ events := by
      rw [← ht]
      rfl
    have hqueued : s.queued k = socket.sendBatch.datagrams := queued_of_socket hk
    have hcap := hcore.cap k
    have hbooks := hcore.books k
    rw [hqueued] at hcap hbooks
    have hlength : socket.sendBatch.batch.length ≤ kMaxUdpSendBatch := by
      rwa [Queue.datagrams, List.length_map] at hcap
    obtain ⟨hordered, honly, hclear⟩ := flushLoop_settles
      (hcore.ordered.concat (e := .flush k socket.sendBatch.batch.length) hlength)
      (by simpa [Event.settles, Event.sends] using hbooks) hcap hloop
    refine ⟨hflushed, ?_, fun j => ?_, fun j => ?_, fun j socket hj hne => ?_, ?_⟩
    · rw [hlog]
      exact hordered
    · by_cases hj : j = k
      · rw [hj, hflushed.queued, List.append_nil, hlog]
        exact hclear
      · rw [hflushed.others hj, hlog, settled_append, sentTo_append, honly.settled_eq_nil hj,
          honly.sentTo_eq_nil, List.append_nil, List.append_nil, settled_append, sentTo_append]
        simpa [Event.settles, Event.sends] using hcore.books j
    · by_cases hj : j = k
      · rw [hj, hflushed.queued]
        exact Nat.zero_le _
      · rw [hflushed.others hj]
        exact hcore.cap j
    · obtain ⟨old, hold, hopen', hudp, -, hfull'⟩ := hflushed.sockets j socket hj
      rw [← hopen', ← hudp]
      exact hcore.ready j old hold (hfull' hne)
    · rw [← ht]
      exact hcore.safe

/-- What neither sends nor settles is recorded where it is allowed. -/
theorem record_core {e : Event} (hcore : Core s) (he : Allowed s.log e)
    (hquiet : ∀ j, e.sends j = [] ∧ e.settles j = []) : Core (s.record e) where
  ordered := hcore.ordered.concat he
  books j := by
    show (settled j (s.log ++ [e])).map Prod.fst ++ s.queued j = sentTo j (s.log ++ [e])
    rw [settled_append, sentTo_append, settled_singleton, sentTo_singleton, (hquiet j).1,
      (hquiet j).2, List.append_nil, List.append_nil]
    exact hcore.books j
  cap := hcore.cap
  ready := hcore.ready
  safe := hcore.safe

/-- A socket whose queue stays as it is, or is empty. -/
theorem put_core {socket new : PhysicalSocket} (hcore : Core s) (hk : s.sockets k = some socket)
    (hqueue : new.sendBatch = socket.sendBatch)
    (hready : new.sendBatch.batch ≠ [] → new.isOpen = true ∧ new.udp = true) :
    Core (s.put k (some new)) := by
  have hqueued : ∀ j, (s.put k (some new)).queued j = s.queued j := by
    intro j
    by_cases hj : j = k
    · rw [hj, queued_put_self, queued_of_socket hk, hqueue]
    · exact queued_put_of_ne s hj _
  refine ⟨hcore.ordered, fun j => ?_, fun j => ?_, fun j socket' hj hne => ?_, hcore.safe⟩
  · rw [hqueued]
    exact hcore.books j
  · rw [hqueued]
    exact hcore.cap j
  · by_cases hjk : j = k
    · rw [hjk, put_sockets_self] at hj
      obtain rfl := Option.some.inj hj
      exact hready hne
    · rw [put_sockets_of_ne s hjk] at hj
      exact hcore.ready j socket' hj hne

/-- A socket comes off the list: its queue is empty and its flag is not set, or it is gone. -/
theorem Listing.without {listed listed' : List Nat} (h : Listing listed s)
    (hnodup : listed'.Nodup) (hmem : ∀ j, j ∈ listed' ↔ j ≠ k ∧ j ∈ listed)
    (hothers : ∀ j, j ≠ k → t.sockets j = s.sockets j) (hempty : t.queued k = [])
    (hflag : ∀ socket, t.sockets k = some socket → socket.inSendBatchList = false) :
    Listing listed' t where
  filled j socket hj hne := by
    by_cases hjk : j = k
    · rw [hjk] at hj
      rw [queued_of_socket hj, Queue.datagrams_eq_nil] at hempty
      exact absurd hempty hne
    · rw [hothers j hjk] at hj
      exact (hmem j).mpr ⟨hjk, h.filled j socket hj hne⟩
  flagged j := by
    rw [hmem, h.flagged]
    by_cases hjk : j = k
    · refine iff_of_false (fun hne => hne.1 hjk) ?_
      rintro ⟨socket, hj, hset⟩
      rw [hjk] at hj
      rw [hflag socket hj] at hset
      cases hset
    · rw [hothers j hjk]
      exact and_iff_right hjk
  nodup := hnodup

/-- Flushing what was listed leaves nothing queued. -/
theorem flushListed_core {ks : List Nat} (hcore : Core s) (hlisting : Listing ks s)
    (h : State.flushListed platform s ks answers = some (t, answers')) :
    Core t ∧ Listing [] t ∧ t.depth = s.depth ∧ t.listed = s.listed := by
  induction ks generalizing s answers with
  | nil =>
      obtain ⟨rfl, -⟩ := Prod.mk.inj (Option.some.inj h)
      exact ⟨hcore, hlisting, rfl, rfl⟩
  | cons k ks ih =>
      obtain ⟨socket, hk, -⟩ := (hlisting.flagged k).mp List.mem_cons_self
      obtain ⟨hk', hnodup⟩ := List.nodup_cons.mp hlisting.nodup
      simp only [State.flushListed, hk, Option.map_some] at h
      obtain ⟨⟨u, rest⟩, hflush, hrest⟩ := Option.bind_eq_some_iff.mp h
      have hcore' : Core (s.put k (some { socket with inSendBatchList := false })) :=
        put_core hcore hk rfl (hcore.ready k socket hk)
      obtain ⟨hflushed, hu⟩ := flush_core hcore' (put_sockets_self _ _ _) hflush
      obtain ⟨old, queue, hold, hqueue, hsockets⟩ := hflushed.socket
      rw [put_sockets_self] at hold
      obtain rfl := Option.some.inj hold
      have hlisting' : Listing ks u := by
        refine hlisting.without (k := k) hnodup (fun j => ?_) (fun j hj => ?_) hflushed.queued
          fun socket' hsocket => ?_
        · rw [List.mem_cons]
          exact ⟨fun hj => ⟨fun heq => hk' (heq ▸ hj), .inr hj⟩,
            fun hj => hj.2.resolve_left hj.1⟩
        · rw [hsockets, Function.update_of_ne hj, put_sockets_of_ne s hj]
        · rw [hsockets, Function.update_self] at hsocket
          obtain rfl := Option.some.inj hsocket
          rfl
      obtain ⟨ht, hnone, hdepth, hlisted⟩ := ih hu hlisting' hrest
      exact ⟨ht, hnone, hdepth.trans hflushed.depth, hlisted.trans hflushed.listed⟩

/-! ### The operations

One lemma for each, from `Between` to `Between`.  That a plain send, an option or a close
finds everything settled is the same argument three times: the socket has just been flushed.
-/

theorem finished_eq {result : Option (State × List Answer)} (h : finished result = some t) :
    result = some (t, []) := by
  unfold finished at h
  split at h
  · rw [Option.some.inj h]
  · cases h

/-- Room in every queue stays where queues only empty. -/
theorem Flushed.room (h : Flushed k s t) (hroom : ∀ j, (s.queued j).length < kMaxUdpSendBatch)
    (j : Nat) : (t.queued j).length < kMaxUdpSendBatch := by
  by_cases hj : j = k
  · rw [hj, h.queued]
    decide
  · rw [h.others hj]
    exact hroom j

theorem Flushed.between (h : Flushed k s t) (hs : Between s) (ht : Core t) : Between t where
  core := ht
  listing := by
    rw [h.listed]
    exact h.listing hs.listing
  room := h.room hs.room
  idle hdepth := by
    rw [h.listed]
    exact hs.idle (h.depth ▸ hdepth)

/-- An effect comes after what was queued before it. -/
theorem effect_between {e : Event} (hs : Between s) (hclear : Clear k s.log)
    (he : e = .setOption k ∨ e = .send k ∨ e = .close k) : Between (s.record e) := by
  have hcore : Core (s.record e) := by
    rcases he with rfl | rfl | rfl
    · exact record_core hs.core hclear fun j => ⟨rfl, rfl⟩
    · exact record_core hs.core hclear fun j => ⟨rfl, rfl⟩
    · exact record_core hs.core hclear fun j => ⟨rfl, rfl⟩
  exact ⟨hcore, ⟨hs.listing.filled, hs.listing.flagged, hs.listing.nodup⟩, hs.room, hs.idle⟩

/-- A socket that keeps its queue and its place on the list. -/
theorem put_between {socket new : PhysicalSocket} (hs : Between s)
    (hk : s.sockets k = some socket) (hqueue : new.sendBatch = socket.sendBatch)
    (hflag : new.inSendBatchList = socket.inSendBatchList)
    (hready : new.sendBatch.batch ≠ [] → new.isOpen = true ∧ new.udp = true) :
    Between (s.put k (some new)) where
  core := put_core hs.core hk hqueue hready
  listing := by
    refine ⟨fun j socket' hj hne => ?_, fun j => ?_, hs.listing.nodup⟩
    · by_cases hjk : j = k
      · rw [hjk, put_sockets_self] at hj
        obtain rfl := Option.some.inj hj
        rw [hjk]
        exact hs.listing.filled k socket hk (hqueue ▸ hne)
      · rw [put_sockets_of_ne s hjk] at hj
        exact hs.listing.filled j socket' hj hne
    · refine (hs.listing.flagged j).trans ?_
      by_cases hjk : j = k
      · rw [hjk, put_sockets_self, hk]
        simp [hflag]
      · rw [put_sockets_of_ne s hjk]
  room j := by
    by_cases hjk : j = k
    · rw [hjk, queued_put_self, hqueue, ← queued_of_socket hk]
      exact hs.room k
    · rw [queued_put_of_ne s hjk]
      exact hs.room j
  idle := hs.idle

theorem flush_between {socket : PhysicalSocket} (hs : Between s) (hk : s.sockets k = some socket)
    (h : s.flushSendBatch platform k answers = some (t, answers')) :
    Between t ∧ Clear k t.log ∧ Flushed k s t := by
  obtain ⟨hflushed, hcore⟩ := flush_core hs.core hk h
  exact ⟨hflushed.between hs hcore, clear_of_books (hcore.books k) hflushed.queued, hflushed⟩

/-- The end of a socket: nothing is queued on it, and it cannot be queued on any more. -/
theorem close_between {socket : PhysicalSocket} (hs : Between s) (hk : s.sockets k = some socket)
    (h : s.close platform k socket answers = some (t, answers')) :
    Between t ∧ t.queued k = [] ∧ ∃ socket, t.sockets k = some socket := by
  unfold State.close at h
  cases hopen : socket.isOpen with
  | false =>
      rw [hopen, Bool.not_false, if_pos rfl] at h
      obtain ⟨rfl, -⟩ := Prod.mk.inj (Option.some.inj h)
      refine ⟨hs, ?_, socket, hk⟩
      by_contra hne
      rw [queued_of_socket hk, Queue.datagrams_eq_nil] at hne
      have hready := (hs.core.ready k socket hk hne).1
      rw [hopen] at hready
      cases hready
  | true =>
      rw [hopen, Bool.not_true, if_neg Bool.false_ne_true] at h
      obtain ⟨⟨u, rest⟩, hflush, heq⟩ := Option.map_eq_some_iff.mp h
      obtain ⟨ht, -⟩ := Prod.mk.inj heq
      obtain ⟨hu, hclear, hflushed⟩ := flush_between hs hk hflush
      obtain ⟨old, queue, -, hqueue, hsockets⟩ := hflushed.socket
      have hu' : Between (u.record (.close k)) := effect_between hu hclear (.inr (.inr rfl))
      have hk' : (u.record (.close k)).sockets k = some { old with sendBatch := queue } := by
        show u.sockets k = _
        rw [hsockets, Function.update_self]
      have hmap : (u.sockets k).map (fun socket => { socket with isOpen := false })
          = some { old with sendBatch := queue, isOpen := false } := by
        rw [hsockets, Function.update_self]
        rfl
      rw [hmap] at ht
      subst ht
      refine ⟨put_between hu' hk' rfl rfl fun hne => absurd hqueue hne, ?_, _,
        put_sockets_self _ _ _⟩
      rw [queued_put_self]
      exact Queue.datagrams_eq_nil.mpr hqueue

theorem remove_between {socket : PhysicalSocket} (hs : Between s) (hk : s.sockets k = some socket)
    (hempty : s.queued k = []) : Between (s.remove k) := by
  have hgone : ∀ j, (s.put k none).queued j = s.queued j := by
    intro j
    by_cases hj : j = k
    · rw [hj, hempty, State.queued, put_sockets_self]
    · exact queued_put_of_ne s hj _
  have hlisted : (if socket.inSendBatchList then s.listed.filter (· ≠ k) else s.listed)
      = s.listed.filter (· ≠ k) := by
    split
    · rfl
    · rename_i hflag
      refine (List.filter_eq_self.mpr fun j hj => decide_eq_true ?_).symm
      rintro rfl
      obtain ⟨socket', hsocket, hset⟩ := (hs.listing.flagged j).mp hj
      obtain rfl := Option.some.inj (hk.symm.trans hsocket)
      exact hflag hset
  have hremove : s.remove k = { s.put k none with listed := s.listed.filter (· ≠ k) } := by
    rw [← hlisted, State.remove, hk]
  rw [hremove]
  refine ⟨⟨hs.core.ordered, fun j => ?_, fun j => ?_, fun j socket' hj => ?_, hs.core.safe⟩, ?_,
    fun j => ?_, fun hdepth => ?_⟩
  · exact (congrArg _ (hgone j)).trans (hs.core.books j)
  · show ((s.put k none).queued j).length ≤ _
    rw [hgone]
    exact hs.core.cap j
  · by_cases hjk : j = k
    · rw [hjk] at hj
      cases (put_sockets_self s k none).symm.trans hj
    · exact hs.core.ready j socket' ((put_sockets_of_ne s hjk none).symm.trans hj)
  · refine hs.listing.without (k := k) (hs.listing.nodup.filter _) (fun j => ?_)
      (fun j hj => put_sockets_of_ne s hj none) ((hgone k).trans hempty) fun socket' hsocket => ?_
    · rw [List.mem_filter, decide_eq_true_iff]
      exact and_comm
    · cases (put_sockets_self s k none).symm.trans hsocket
  · show ((s.put k none).queued j).length < _
    rw [hgone]
    exact hs.room j
  · show s.listed.filter _ = []
    rw [hs.idle hdepth]
    rfl

/-- What queueing a datagram changes: it is the last on its socket, which is listed. -/
structure Pushed (k : Nat) (d : Datagram) (s t : State) : Prop where
  self : ∃ socket, t.sockets k = some socket ∧ socket.isOpen = true ∧ socket.udp = true ∧
    socket.inSendBatchList = true ∧ socket.sendBatch.datagrams = s.queued k ++ [d]
  others : ∀ j, j ≠ k → t.sockets j = s.sockets j
  log : t.log = s.log ++ [.sendTo k d]
  mem : ∀ j, j ∈ t.listed ↔ j = k ∨ j ∈ s.listed
  nodup : t.listed.Nodup
  depth : t.depth = s.depth
  safe : t.dangling = s.dangling

namespace Pushed

variable {d : Datagram}

theorem queued_self (h : Pushed k d s t) : t.queued k = s.queued k ++ [d] := by
  obtain ⟨socket, hk, -, -, -, hqueued⟩ := h.self
  rw [queued_of_socket hk, hqueued]

theorem queued_others (h : Pushed k d s t) {j : Nat} (hj : j ≠ k) : t.queued j = s.queued j := by
  rw [State.queued, State.queued, h.others j hj]

theorem core (h : Pushed k d s t) (hs : Between s) : Core t := by
  have hnone : ∀ j, (Event.sendTo k d).settles j = [] := fun j => rfl
  refine ⟨?_, fun j => ?_, fun j => ?_, fun j socket hj hne => ?_, h.safe.trans hs.core.safe⟩
  · rw [h.log]
    exact hs.core.ordered.concat trivial
  · rw [h.log, settled_append, sentTo_append, settled_singleton, sentTo_singleton, hnone,
      List.append_nil]
    by_cases hj : j = k
    · rw [hj, h.queued_self, Event.sends, if_pos rfl, ← List.append_assoc, hs.core.books]
    · rw [h.queued_others hj, Event.sends, if_neg (Ne.symm hj), List.append_nil]
      exact hs.core.books j
  · by_cases hj : j = k
    · rw [hj, h.queued_self, List.length_append]
      exact hs.room k
    · rw [h.queued_others hj]
      exact hs.core.cap j
  · by_cases hjk : j = k
    · obtain ⟨new, hk, hopen, hudp, -⟩ := h.self
      rw [hjk, hk] at hj
      obtain rfl := Option.some.inj hj
      exact ⟨hopen, hudp⟩
    · rw [h.others j hjk] at hj
      exact hs.core.ready j socket hj hne

theorem listing (h : Pushed k d s t) (hs : Between s) : Listing t.listed t := by
  refine ⟨fun j socket hj hne => ?_, fun j => ?_, h.nodup⟩
  · rw [h.mem]
    by_cases hjk : j = k
    · exact .inl hjk
    · rw [h.others j hjk] at hj
      exact .inr (hs.listing.filled j socket hj hne)
  · rw [h.mem]
    by_cases hjk : j = k
    · obtain ⟨new, hk, -, -, hflag, -⟩ := h.self
      rw [hjk, hk]
      exact iff_of_true (.inl rfl) ⟨new, rfl, hflag⟩
    · rw [h.others j hjk, or_iff_right hjk]
      exact hs.listing.flagged j

end Pushed

/-- The list, with the socket on it. -/
theorem nodup_listed {socket : PhysicalSocket} (hs : Between s) (hk : s.sockets k = some socket) :
    (if socket.inSendBatchList then s.listed else s.listed ++ [k]).Nodup ∧
      ∀ j, j ∈ (if socket.inSendBatchList then s.listed else s.listed ++ [k]) ↔
        j = k ∨ j ∈ s.listed := by
  split
  · rename_i hflag
    have hin : k ∈ s.listed := (hs.listing.flagged k).mpr ⟨socket, hk, hflag⟩
    exact ⟨hs.listing.nodup, fun j => ⟨.inr, fun hj => hj.elim (fun heq => heq ▸ hin) id⟩⟩
  · rename_i hflag
    refine ⟨?_, fun j => ?_⟩
    · refine List.nodup_append.mpr ⟨hs.listing.nodup, List.pairwise_singleton _ k, ?_⟩
      rintro j hj k' hk' rfl
      rw [List.mem_singleton.mp hk', hs.listing.flagged] at hj
      obtain ⟨socket', hsocket, hset⟩ := hj
      obtain rfl := Option.some.inj (hk.symm.trans hsocket)
      exact hflag hset
    · rw [List.mem_append, List.mem_singleton]
      exact or_comm

/-- A datagram is queued, and the queue flushed when it is full. -/
theorem queue_between {socket : PhysicalSocket} {d : Datagram} (hs : Between s)
    (hk : s.sockets k = some socket) (hopen : socket.isOpen = true) (hudp : socket.udp = true)
    (hdepth : 0 < s.depth)
    (h : (s.record (.sendTo k d)).queueForSendBatch platform k socket d answers =
      some (t, answers')) : Between t := by
  unfold State.queueForSendBatch at h
  obtain ⟨hnodup, hmem⟩ := nodup_listed hs hk
  have hpushed : Pushed k d s ((s.record (.sendTo k d)).enqueue k socket d) := by
    refine ⟨⟨_, put_sockets_self _ _ _, hopen, hudp, rfl, ?_⟩,
      fun j hj => put_sockets_of_ne _ hj _, rfl, hmem, hnodup, rfl, rfl⟩
    rw [queued_of_socket hk]
    exact Queue.datagrams_push _ _ _
  have hcore := hpushed.core hs
  have hroom : ∀ j, j ≠ k → _ := fun j hj => Nat.lt_of_le_of_lt
    (Nat.le_of_eq (congrArg List.length (hpushed.queued_others hj))) (hs.room j)
  split at h
  · obtain ⟨hflushed, ht⟩ := flush_core hcore hpushed.self.choose_spec.1 h
    refine ⟨ht, ?_, fun j => ?_, fun hzero => ?_⟩
    · rw [hflushed.listed]
      exact hflushed.listing (hpushed.listing hs)
    · by_cases hj : j = k
      · rw [hj, hflushed.queued]
        decide
      · rw [hflushed.others hj]
        exact hroom j hj
    · have hopened := hflushed.depth.trans hpushed.depth
      omega
  · rename_i hfew
    obtain ⟨rfl, -⟩ := Prod.mk.inj (Option.some.inj h)
    refine ⟨hcore, hpushed.listing hs, fun j => ?_, fun hzero => ?_⟩
    · by_cases hj : j = k
      · have hlength : (s.queued k).length = socket.sendBatch.batch.length := by
          rw [queued_of_socket hk, Queue.datagrams, List.length_map]
        rw [hj, hpushed.queued_self, List.length_append, hlength]
        rw [Queue.push, List.length_append] at hfew
        exact Nat.lt_of_not_le hfew
      · exact hroom j hj
    · exact absurd hzero (Nat.ne_of_gt hdepth)

/-- A datagram that goes out by itself finds nothing queued before it. -/
theorem direct_between {socket : PhysicalSocket} {d : Datagram} (hs : Between s)
    (hk : s.sockets k = some socket) (hnot : ¬ (socket.udp ∧ socket.isOpen ∧ 0 < s.depth))
    (h : s.sendDirect k socket d answers = some (t, answers')) : Between t := by
  have hempty : s.queued k = [] := by
    by_contra hne
    rw [queued_of_socket hk, Queue.datagrams_eq_nil] at hne
    obtain ⟨hopen, hudp⟩ := hs.core.ready k socket hk hne
    have hlisted := hs.listing.filled k socket hk hne
    refine hnot ⟨hudp, hopen, Nat.pos_of_ne_zero fun hzero => ?_⟩
    rw [hs.idle hzero] at hlisted
    cases hlisted
  have hrecord : ∀ fate, Between (s.record (.direct k d fate)) := by
    intro fate
    refine ⟨⟨hs.core.ordered.concat (clear_of_books (hs.core.books k) hempty), fun j => ?_,
      hs.core.cap, hs.core.ready, hs.core.safe⟩,
      ⟨hs.listing.filled, hs.listing.flagged, hs.listing.nodup⟩, hs.room, hs.idle⟩
    show (settled j (s.log ++ [_])).map Prod.fst ++ s.queued j = sentTo j (s.log ++ [_])
    rw [settled_append, sentTo_append, settled_singleton, sentTo_singleton, Event.settles,
      Event.sends]
    by_cases hj : k = j
    · rw [if_pos hj, if_pos hj, ← hj, hempty, List.append_nil, List.map_append,
        clear_of_books (hs.core.books k) hempty]
      rfl
    · rw [if_neg hj, if_neg hj, List.append_nil, List.append_nil]
      exact hs.core.books j
  cases answers with
  | nil => cases h
  | cons a answers =>
      cases a with
      | took n =>
          cases n with
          | zero => cases h
          | succ n =>
              cases n with
              | zero =>
                  rw [State.sendDirect, Option.ite_none_right_eq_some] at h
                  obtain ⟨rfl, -⟩ := Prod.mk.inj (Option.some.inj h.2)
                  exact hrecord .accepted
              | succ n => cases h
      | _ =>
          obtain ⟨rfl, -⟩ := Prod.mk.inj (Option.some.inj h)
          exact hrecord _

/-- The end of a scope: the outermost flushes what was listed. -/
theorem closeScope_between (hs : Between s)
    (h : step platform s (.closeScope answers) = some t) : Between t := by
  simp only [step] at h
  split at h
  · cases h
  · split at h
    · rename_i hopen
      obtain ⟨rfl, -⟩ := Prod.mk.inj (Option.some.inj (finished_eq h))
      exact ⟨⟨hs.core.ordered, hs.core.books, hs.core.cap, hs.core.ready, hs.core.safe⟩,
        ⟨hs.listing.filled, hs.listing.flagged, hs.listing.nodup⟩, hs.room,
        fun hzero => absurd hzero (Nat.ne_of_gt hopen)⟩
    · obtain ⟨ht, hlisting, -, hlisted⟩ := flushListed_core
        (s := { s with depth := 0, listed := [] })
        ⟨hs.core.ordered, hs.core.books, hs.core.cap, hs.core.ready, hs.core.safe⟩
        ⟨hs.listing.filled, hs.listing.flagged, hs.listing.nodup⟩ (finished_eq h)
      refine ⟨ht, by rwa [hlisted], fun j => ?_, fun _ => hlisted⟩
      rw [hlisting.queued_eq_nil]
      exact Nat.succ_pos _

theorem construct_between {udp isOpen : Bool} (hs : Between s) (hk : s.sockets k = none) :
    Between (s.put k (some { udp, isOpen })) := by
  have hqueued : ∀ j, (s.put k (some { udp, isOpen })).queued j = s.queued j := by
    intro j
    by_cases hj : j = k
    · rw [hj, queued_put_self, State.queued, hk]
      rfl
    · exact queued_put_of_ne s hj _
  refine ⟨⟨hs.core.ordered, fun j => ?_, fun j => ?_, fun j socket hj hne => ?_, hs.core.safe⟩,
    ⟨fun j socket hj hne => ?_, fun j => ?_, hs.listing.nodup⟩, fun j => ?_, hs.idle⟩
  · rw [hqueued]
    exact hs.core.books j
  · rw [hqueued]
    exact hs.core.cap j
  · by_cases hjk : j = k
    · rw [hjk, put_sockets_self] at hj
      obtain rfl := Option.some.inj hj
      exact absurd rfl hne
    · rw [put_sockets_of_ne s hjk] at hj
      exact hs.core.ready j socket hj hne
  · by_cases hjk : j = k
    · rw [hjk, put_sockets_self] at hj
      obtain rfl := Option.some.inj hj
      exact absurd rfl hne
    · rw [put_sockets_of_ne s hjk] at hj
      exact hs.listing.filled j socket hj hne
  · refine (hs.listing.flagged j).trans ?_
    by_cases hjk : j = k
    · rw [hjk, put_sockets_self, hk]
      simp
    · rw [put_sockets_of_ne s hjk]
  · rw [hqueued]
    exact hs.room j

theorem step_between {a : Action} (hs : Between s) (h : step platform s a = some t) :
    Between t := by
  cases a with
  | construct k udp isOpen =>
      rw [step, Option.ite_none_right_eq_some] at h
      obtain rfl := Option.some.inj h.2
      exact construct_between hs h.1
  | destroy k answers =>
      obtain ⟨socket, hk, h⟩ := Option.bind_eq_some_iff.mp h
      obtain ⟨u, hclose, rfl⟩ := Option.map_eq_some_iff.mp h
      obtain ⟨hu, hempty, socket', hk'⟩ := close_between hs hk (finished_eq hclose)
      exact remove_between hu hk' hempty
  | openScope =>
      obtain rfl := Option.some.inj h
      exact ⟨⟨hs.core.ordered, hs.core.books, hs.core.cap, hs.core.ready, hs.core.safe⟩,
        ⟨hs.listing.filled, hs.listing.flagged, hs.listing.nodup⟩, hs.room,
        fun hzero => absurd hzero (Nat.succ_ne_zero _)⟩
  | closeScope answers => exact closeScope_between hs h
  | sendTo k d answers =>
      obtain ⟨socket, hk, h⟩ := Option.bind_eq_some_iff.mp h
      have h := finished_eq h
      unfold State.sendTo at h
      split at h
      · rename_i hbatch
        exact queue_between hs hk hbatch.2.1 hbatch.1 hbatch.2.2 h
      · rename_i hbatch
        exact direct_between hs hk hbatch h
  | send k answers =>
      obtain ⟨socket, hk, h⟩ := Option.bind_eq_some_iff.mp h
      obtain ⟨u, hflush, rfl⟩ := Option.map_eq_some_iff.mp h
      obtain ⟨hu, hclear, -⟩ := flush_between hs hk (finished_eq hflush)
      exact effect_between hu hclear (.inr (.inl rfl))
  | setOption k answers =>
      obtain ⟨socket, hk, h⟩ := Option.bind_eq_some_iff.mp h
      obtain ⟨u, hflush, rfl⟩ := Option.map_eq_some_iff.mp h
      obtain ⟨hu, hclear, -⟩ := flush_between hs hk (finished_eq hflush)
      exact effect_between hu hclear (.inl rfl)
  | close k answers =>
      obtain ⟨socket, hk, h⟩ := Option.bind_eq_some_iff.mp h
      exact (close_between hs hk (finished_eq h)).1

theorem between_start (platform : Platform) : Between (machine platform).start where
  core := ⟨ordered_nil, fun k => rfl, fun k => Nat.zero_le _, fun k socket h => (by cases h), rfl⟩
  listing := by
    refine ⟨fun k socket h => ?_, fun k => ?_, List.nodup_nil⟩
    · cases h
    · refine iff_of_false List.not_mem_nil ?_
      rintro ⟨socket, h, -⟩
      cases h
  room k := Nat.succ_pos _
  idle _ := rfl

/-- An open scope is all that keeps a datagram queued. -/
theorem Between.orderly (h : Between s) : Orderly s where
  ordered := h.core.ordered
  books := h.core.books
  once k := by
    have hprefix : ((settled k s.log).map Prod.fst).Sublist (sentTo k s.log) := by
      rw [← h.core.books k]
      exact List.sublist_append_left _ _
    exact (List.filter_sublist.map Prod.fst).trans hprefix
  idle hdepth k := (h.idle hdepth ▸ h.listing).queued_eq_nil
  safe := h.core.safe

/-! ### The log of a run

`Grows` composes, so what an operation adds is what its parts add, one behind another.
-/

/-- What an operation adds to the log: what was asked of it, and the calls it made. -/
structure Grows (s t : State) (asked : List Request) (told : List Answer) : Prop where
  log : ∃ more, t.log = s.log ++ more ∧ more.filterMap Event.request = asked ∧
    List.Forall₂ Event.Answers (more.filter Event.isCall) told
  depth : t.depth = s.depth

namespace Grows

variable {u : State} {asked asked' : List Request} {told told' : List Answer}

theorem of_log (hlog : t.log = s.log) (hdepth : t.depth = s.depth) : Grows s t [] [] :=
  ⟨⟨[], by rw [hlog, List.append_nil], rfl, .nil⟩, hdepth⟩

theorem trans (h : Grows s t asked told) (h' : Grows t u asked' told') :
    Grows s u (asked ++ asked') (told ++ told') := by
  obtain ⟨more, hlog, hasked, htold⟩ := h.log
  obtain ⟨more', hlog', hasked', htold'⟩ := h'.log
  refine ⟨⟨more ++ more', ?_, ?_, ?_⟩, h'.depth.trans h.depth⟩
  · rw [hlog', hlog, List.append_assoc]
  · rw [List.filterMap_append, hasked, hasked']
  · rw [List.filter_append]
    exact List.rel_append htold htold'

/-- What is asked for without a call. -/
theorem record {e : Event} (hcall : e.isCall = false) :
    Grows s (s.record e) e.request.toList [] := by
  refine ⟨⟨[e], rfl, ?_, ?_⟩, rfl⟩
  · cases e <;> rfl
  · rw [List.filter_cons, hcall, if_neg Bool.false_ne_true]
    exact .nil

end Grows

theorem flush_grows (h : s.flushSendBatch platform k answers = some (t, answers')) :
    ∃ told, answers = told ++ answers' ∧ Grows s t [] told := by
  unfold State.flushSendBatch at h
  cases hk : s.sockets k with
  | none =>
      rw [hk] at h
      obtain ⟨rfl, rfl⟩ := Prod.mk.inj (Option.some.inj h)
      exact ⟨[], rfl, .of_log rfl rfl⟩
  | some socket =>
      rw [hk] at h
      dsimp only at h
      split at h
      · obtain ⟨rfl, rfl⟩ := Prod.mk.inj (Option.some.inj h)
        exact ⟨[], rfl, .of_log rfl rfl⟩
      · obtain ⟨⟨events, works, rest⟩, hloop, heq⟩ := Option.map_eq_some_iff.mp h
        obtain ⟨rfl, rfl⟩ := Prod.mk.inj heq
        have hflush : Grows s (s.record (.flush k socket.sendBatch.batch.length)) [] [] :=
          .record rfl
        split at hloop
        · obtain ⟨told, rfl, honly, htold⟩ := flushLoop_told hloop
          refine ⟨told, rfl, hflush.trans ⟨⟨events, rfl, honly.request_eq_nil, htold⟩, rfl⟩⟩
        · obtain ⟨rfl, hrest⟩ := Prod.mk.inj (Option.some.inj hloop)
          obtain ⟨-, rfl⟩ := Prod.mk.inj hrest
          exact ⟨[], rfl, hflush.trans ⟨⟨[], rfl, rfl, .nil⟩, rfl⟩⟩

theorem flushListed_grows {ks : List Nat}
    (h : State.flushListed platform s ks answers = some (t, answers')) :
    ∃ told, answers = told ++ answers' ∧ Grows s t [] told := by
  induction ks generalizing s answers with
  | nil =>
      obtain ⟨rfl, rfl⟩ := Prod.mk.inj (Option.some.inj h)
      exact ⟨[], rfl, .of_log rfl rfl⟩
  | cons k ks ih =>
      simp only [State.flushListed] at h
      obtain ⟨⟨u, rest⟩, hflush, hrest⟩ := Option.bind_eq_some_iff.mp h
      obtain ⟨told, rfl, hgrows⟩ := flush_grows hflush
      obtain ⟨told', rfl, hgrows'⟩ := ih hrest
      have hflag : ∀ socket, Grows s (s.put k socket) [] [] := fun _ => .of_log rfl rfl
      exact ⟨told ++ told', (List.append_assoc _ _ _).symm,
        (hflag _).trans (hgrows.trans hgrows')⟩

theorem queue_grows {socket : PhysicalSocket} {d : Datagram}
    (h : s.queueForSendBatch platform k socket d answers = some (t, answers')) :
    ∃ told, answers = told ++ answers' ∧ Grows s t [] told := by
  unfold State.queueForSendBatch at h
  have hqueued : Grows s (s.enqueue k socket d) [] [] := .of_log rfl rfl
  split at h
  · obtain ⟨told, rfl, hgrows⟩ := flush_grows h
    exact ⟨told, rfl, hqueued.trans hgrows⟩
  · obtain ⟨rfl, rfl⟩ := Prod.mk.inj (Option.some.inj h)
    exact ⟨[], rfl, hqueued⟩

theorem direct_grows {socket : PhysicalSocket} {d : Datagram}
    (h : s.sendDirect k socket d answers = some (t, answers')) :
    ∃ told, answers = told ++ answers' ∧ Grows s t [.sendTo k d] told := by
  have hcall : ∀ a : Answer, Grows s (s.record (.direct k d a.fate)) [.sendTo k d] [a] := fun a =>
    ⟨⟨[.direct k d a.fate], rfl, rfl, .cons rfl .nil⟩, rfl⟩
  cases answers with
  | nil => cases h
  | cons a answers =>
      cases a with
      | took n =>
          cases n with
          | zero => cases h
          | succ n =>
              cases n with
              | zero =>
                  rw [State.sendDirect, Option.ite_none_right_eq_some] at h
                  obtain ⟨rfl, rfl⟩ := Prod.mk.inj (Option.some.inj h.2)
                  exact ⟨[.took 1], rfl, hcall (.took 1)⟩
              | succ n => cases h
      | interrupted =>
          obtain ⟨rfl, rfl⟩ := Prod.mk.inj (Option.some.inj h)
          exact ⟨[.interrupted], rfl, hcall .interrupted⟩
      | noSys =>
          obtain ⟨rfl, rfl⟩ := Prod.mk.inj (Option.some.inj h)
          exact ⟨[.noSys], rfl, hcall .noSys⟩
      | blocking =>
          obtain ⟨rfl, rfl⟩ := Prod.mk.inj (Option.some.inj h)
          exact ⟨[.blocking], rfl, hcall .blocking⟩
      | error =>
          obtain ⟨rfl, rfl⟩ := Prod.mk.inj (Option.some.inj h)
          exact ⟨[.error], rfl, hcall .error⟩

theorem sendTo_grows {socket : PhysicalSocket} {d : Datagram}
    (h : s.sendTo platform k socket d answers = some (t, answers')) :
    ∃ told, answers = told ++ answers' ∧ Grows s t [.sendTo k d] told := by
  unfold State.sendTo at h
  split at h
  · obtain ⟨told, rfl, hgrows⟩ := queue_grows h
    exact ⟨told, rfl, (Grows.record (e := .sendTo k d) rfl).trans hgrows⟩
  · exact direct_grows h

/-- What is asked for after the flush that it waits for. -/
theorem flush_record_grows {e : Event} (hcall : e.isCall = false)
    (h : s.flushSendBatch platform k answers = some (t, answers')) :
    ∃ told, answers = told ++ answers' ∧ Grows s (t.record e) e.request.toList told := by
  obtain ⟨told, rfl, hgrows⟩ := flush_grows h
  have heffect := hgrows.trans (Grows.record hcall)
  rw [List.append_nil] at heffect
  exact ⟨told, rfl, heffect⟩

theorem close_grows {socket : PhysicalSocket}
    (h : s.close platform k socket answers = some (t, answers')) :
    ∃ told, answers = told ++ answers' ∧
      Grows s t (if socket.isOpen then [.close k] else []) told := by
  unfold State.close at h
  cases hopen : socket.isOpen with
  | false =>
      rw [hopen, Bool.not_false, if_pos rfl] at h
      obtain ⟨rfl, rfl⟩ := Prod.mk.inj (Option.some.inj h)
      exact ⟨[], rfl, .of_log rfl rfl⟩
  | true =>
      rw [hopen, Bool.not_true, if_neg Bool.false_ne_true] at h
      obtain ⟨⟨u, rest⟩, hflush, heq⟩ := Option.map_eq_some_iff.mp h
      obtain ⟨rfl, rfl⟩ := Prod.mk.inj heq
      obtain ⟨told, rfl, hgrows⟩ := flush_record_grows (e := .close k) rfl hflush
      exact ⟨told, rfl, hgrows.log, hgrows.depth⟩

theorem remove_log (s : State) (k : Nat) : (s.remove k).log = s.log := by
  unfold State.remove
  split <;> rfl

theorem remove_depth (s : State) (k : Nat) : (s.remove k).depth = s.depth := by
  unfold State.remove
  split <;> rfl

/-- An operation is asked for what its action says, and is told all its answers. -/
theorem step_log {a : Action} (h : step platform s a = some t) :
    ∃ more, t.log = s.log ++ more ∧ more.filterMap Event.request = asks s a t ∧
      List.Forall₂ Event.Answers (more.filter Event.isCall) a.answers := by
  cases a with
  | construct k udp isOpen =>
      rw [step, Option.ite_none_right_eq_some] at h
      obtain rfl := Option.some.inj h.2
      exact (Grows.of_log rfl rfl).log
  | destroy k answers =>
      obtain ⟨socket, hk, h⟩ := Option.bind_eq_some_iff.mp h
      obtain ⟨u, hclose, rfl⟩ := Option.map_eq_some_iff.mp h
      obtain ⟨told, htold, hgrows⟩ := close_grows (finished_eq hclose)
      rw [List.append_nil] at htold
      subst htold
      rw [remove_log]
      simpa only [asks, hk, Option.any_some, Action.answers] using hgrows.log
  | openScope =>
      obtain rfl := Option.some.inj h
      exact (Grows.of_log (s := s) rfl rfl).log
  | closeScope answers =>
      simp only [step] at h
      split at h
      · cases h
      · split at h
        · obtain ⟨rfl, rfl⟩ := Prod.mk.inj (Option.some.inj (finished_eq h))
          exact (Grows.of_log (s := s) rfl rfl).log
        · obtain ⟨told, htold, hgrows⟩ := flushListed_grows (finished_eq h)
          rw [List.append_nil] at htold
          subst htold
          exact hgrows.log
  | sendTo k d answers =>
      obtain ⟨socket, hk, h⟩ := Option.bind_eq_some_iff.mp h
      obtain ⟨told, htold, hgrows⟩ := sendTo_grows (finished_eq h)
      rw [List.append_nil] at htold
      subst htold
      exact hgrows.log
  | send k answers =>
      obtain ⟨socket, hk, h⟩ := Option.bind_eq_some_iff.mp h
      obtain ⟨u, hflush, rfl⟩ := Option.map_eq_some_iff.mp h
      obtain ⟨told, htold, hgrows⟩ := flush_record_grows (e := .send k) rfl (finished_eq hflush)
      rw [List.append_nil] at htold
      subst htold
      exact hgrows.log
  | setOption k answers =>
      obtain ⟨socket, hk, h⟩ := Option.bind_eq_some_iff.mp h
      obtain ⟨u, hflush, rfl⟩ := Option.map_eq_some_iff.mp h
      obtain ⟨told, htold, hgrows⟩ :=
        flush_record_grows (e := .setOption k) rfl (finished_eq hflush)
      rw [List.append_nil] at htold
      subst htold
      exact hgrows.log
  | close k answers =>
      obtain ⟨socket, hk, h⟩ := Option.bind_eq_some_iff.mp h
      obtain ⟨told, htold, hgrows⟩ := close_grows (finished_eq h)
      rw [List.append_nil] at htold
      subst htold
      simpa only [asks, hk, Option.any_some, Action.answers] using hgrows.log

/-- Only the scopes change the depth. -/
theorem step_depth {a : Action} (h : step platform s a = some t) :
    t.depth + (if a.closes then 1 else 0) = s.depth + if a.opens then 1 else 0 := by
  cases a with
  | construct k udp isOpen =>
      rw [step, Option.ite_none_right_eq_some] at h
      obtain rfl := Option.some.inj h.2
      rfl
  | destroy k answers =>
      obtain ⟨socket, -, h⟩ := Option.bind_eq_some_iff.mp h
      obtain ⟨u, hclose, rfl⟩ := Option.map_eq_some_iff.mp h
      obtain ⟨told, -, hgrows⟩ := close_grows (finished_eq hclose)
      rw [remove_depth, hgrows.depth]
      rfl
  | openScope =>
      obtain rfl := Option.some.inj h
      rfl
  | closeScope answers =>
      simp only [step] at h
      split at h
      · cases h
      · rename_i hdepth
        split at h
        · obtain ⟨rfl, -⟩ := Prod.mk.inj (Option.some.inj (finished_eq h))
          exact Nat.sub_add_cancel (Nat.pos_of_ne_zero hdepth)
        · rename_i hlast
          obtain ⟨told, -, hgrows⟩ := flushListed_grows (finished_eq h)
          have hzero : t.depth = 0 := hgrows.depth
          rw [hzero]
          show 0 + 1 = s.depth + 0
          omega
  | sendTo k d answers =>
      obtain ⟨socket, -, h⟩ := Option.bind_eq_some_iff.mp h
      obtain ⟨told, -, hgrows⟩ := sendTo_grows (finished_eq h)
      rw [hgrows.depth]
      rfl
  | send k answers | setOption k answers =>
      obtain ⟨socket, -, h⟩ := Option.bind_eq_some_iff.mp h
      obtain ⟨u, hflush, rfl⟩ := Option.map_eq_some_iff.mp h
      obtain ⟨told, -, hgrows⟩ := flush_grows (finished_eq hflush)
      exact congrArg (· + 0) hgrows.depth
  | close k answers =>
      obtain ⟨socket, -, h⟩ := Option.bind_eq_some_iff.mp h
      obtain ⟨told, -, hgrows⟩ := close_grows (finished_eq h)
      rw [hgrows.depth]
      rfl

/-- Of what is asked for, the datagrams are those of the action. -/
theorem asks_sends (s : State) (a : Action) (t : State) (k : Nat) :
    (asks s a t).flatMap (Request.sends k) = a.sends k := by
  cases a with
  | sendTo j d answers => exact List.flatMap_singleton _ _
  | close j answers | destroy j answers =>
      unfold asks
      dsimp only
      split <;> rfl
  | _ => rfl

/-- The log of a run is what its operations asked for and were told. -/
theorem traced {as : List Action}
    (hrun : (machine platform).run (machine platform).start as = some s) :
    Traced platform as s := by
  refine Machine.history ⟨fun k => rfl, rfl, .nil, rfl⟩ ?_ hrun
  intro as u a v hbefore h hstep
  obtain ⟨more, hlog, hasked, htold⟩ := step_log hstep
  refine ⟨fun k => ?_, ?_, ?_, ?_⟩
  · rw [hlog, sentTo_append, h.sent, sentTo_eq_requests, hasked, asks_sends, List.flatMap_append,
      List.flatMap_singleton]
  · rw [hlog, List.filterMap_append, h.requests, hasked, Machine.seen_concat asks hbefore hstep]
  · rw [hlog, List.filter_append, List.flatMap_append, List.flatMap_singleton]
    exact List.rel_append h.answered htold
  · have hdepth := step_depth hstep
    have hopened := h.depth
    rw [List.countP_append, List.countP_append, List.countP_singleton, List.countP_singleton]
    omega

/-- One operation deals with no more of a socket's datagrams than fit one flush. -/
theorem step_handles {a : Action} (hs : Between s) (h : step platform s a = some t) (k : Nat) :
    (settled k t.log).length ≤ (settled k s.log).length + kMaxUdpSendBatch := by
  obtain ⟨more, hlog, hasked, -⟩ := step_log h
  have hsent : sentTo k t.log = sentTo k s.log ++ a.sends k := by
    rw [hlog, sentTo_append, sentTo_eq_requests k more, hasked, asks_sends]
  have hbefore := congrArg List.length (hs.core.books k)
  have hafter := congrArg List.length ((step_between hs h).core.books k)
  have hone : (a.sends k).length ≤ 1 := by
    cases a with
    | sendTo j d answers =>
        unfold Action.sends
        dsimp only
        split <;> simp
    | _ => exact Nat.zero_le _
  have hroom := hs.room k
  rw [hsent] at hafter
  simp only [List.length_append, List.length_map] at hbefore hafter
  omega

/--
**Batched sends keep their order and lose nothing extra**, whatever the thread does and the
kernel answers.  What is offered is what comes next, no flush handles more than its bound, and
an option, a plain send and the end of a socket find nothing queued before them (`Ordered`);
what a socket was given is what the answers settled and what is queued; and nothing is queued
outside a scope.  What was given, asked for and answered is what the operations of the run had
(`Traced`), and one operation deals with at most one flush of a socket.
-/
theorem sendBatch_orderly (platform : Platform) {as : List Action} {s : State}
    (hrun : (machine platform).run (machine platform).start as = some s) :
    Orderly s ∧ Traced platform as s ∧
      ∀ a t, step platform s a = some t → ∀ k,
        (settled k t.log).length ≤ (settled k s.log).length + kMaxUdpSendBatch := by
  have hs : Between s := Machine.run_invariant (M := machine platform)
    (fun _ _ _ hs hstep => step_between hs hstep) (between_start platform) hrun
  exact ⟨hs.orderly, traced hrun, fun a t hstep k => step_handles hs hstep k⟩

/-- Four datagrams to two sockets in nested scopes, and an option between them. -/
def burst : List Action :=
  [.construct 0 true true, .construct 1 true true, .openScope, .openScope,
    .sendTo 0 ⟨[4], [1]⟩ [], .sendTo 1 ⟨[5], [2]⟩ [], .sendTo 0 ⟨[4], [3, 3]⟩ [],
    .setOption 0 [.took 1, .interrupted, .error], .sendTo 0 ⟨[4], [4]⟩ [],
    .closeScope [], .closeScope [.took 1, .blocking]]

/-- The first socket's datagrams are taken, skipped and, at the end, taken; the other's is
dropped. -/
theorem sendBatch_orderly_burst :
    Orderly ((machine .linux).final (machine .linux).start burst (by decide +kernel)) ∧
      settled 0 ((machine .linux).final (machine .linux).start burst (by decide +kernel)).log =
        [(⟨[4], [1]⟩, .accepted), (⟨[4], [3, 3]⟩, .skipped), (⟨[4], [4]⟩, .accepted)] ∧
      settled 1 ((machine .linux).final (machine .linux).start burst (by decide +kernel)).log =
        [(⟨[5], [2]⟩, .dropped)] :=
  ⟨(sendBatch_orderly .linux ((machine .linux).run_final _ _ _)).1, by decide +kernel,
    by decide +kernel⟩

end ReactorWebrtc.Sockets
