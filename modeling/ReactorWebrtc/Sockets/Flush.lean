/-
What a socket has queued, and how it is offered to the kernel.

The queue keeps its datagrams one behind another in one buffer (`Queue.datagrams` cuts them
out again).  A flush offers all of it to `sendmmsg`, or to `sendmsg_x`, and after each answer
what has not been dealt with; where there is no `sendmsg_x` it offers one datagram after
another to `sendto`.

What is known of a thread is the log of its calls and of the kernel's answers.  `sentTo` and
`settled` read two lists off it for each socket, the datagrams it was given and those that
were dealt with, and `Ordered` says that the two stay in step: what is offered is the next
that was given, and an option, a plain send or the end of the socket finds them equal.

The log is written by the operations it is to judge, so what is in it must be tied to what
was asked of the thread and to what the kernel said.  `Event.request` is what an event asks
of a socket, and `Event.Answers` which answer of the kernel's an event stands for; between
them nothing can be left out of the log, or put into it.
-/
import Mathlib.Logic.Basic
import Mathlib.Data.List.Basic
import Mathlib.Data.List.Forall2
import ReactorWebrtc.Chunking.Frame

namespace ReactorWebrtc.Sockets

/-- The bound on what one flush handles. -/
def kMaxUdpSendBatch : Nat := 16

/-- A datagram and where it goes, the address as the kernel takes it. -/
structure Datagram where
  addr : Bytes
  data : Bytes
  deriving DecidableEq, Repr

structure QueuedDatagram where
  addr : Bytes
  /-- Where it stands in the buffer. -/
  offset : Nat
  length : Nat
  deriving DecidableEq, Repr

/-- `send_batch_`, and `send_batch_bytes_` beside it. -/
structure Queue where
  batch : List QueuedDatagram := []
  bytes : Bytes := []
  within : ∀ d ∈ batch, d.offset + d.length ≤ bytes.length := by decide
  deriving DecidableEq, Repr

namespace Queue

def push (q : Queue) (addr data : Bytes) : Queue where
  batch := q.batch ++ [{ addr, offset := q.bytes.length, length := data.length }]
  bytes := q.bytes ++ data
  within d hd := by
    rw [List.length_append]
    rcases List.mem_append.mp hd with hd | hd
    · have := q.within d hd
      omega
    · obtain rfl := List.mem_singleton.mp hd
      exact Nat.le_refl _

/-- What is in the buffer from its offset on, as far as it is long. -/
def cut (bytes : Bytes) (d : QueuedDatagram) : Datagram :=
  { addr := d.addr, data := (bytes.drop d.offset).take d.length }

def datagrams (q : Queue) : List Datagram := q.batch.map (cut q.bytes)

theorem cut_append {bytes more : Bytes} {d : QueuedDatagram}
    (h : d.offset + d.length ≤ bytes.length) : cut (bytes ++ more) d = cut bytes d := by
  unfold cut
  rw [List.drop_append_of_le_length (by omega), List.take_append_of_le_length]
  rw [List.length_drop]
  omega

/-- A datagram comes out of the buffer as it went in, whatever was put behind it. -/
theorem datagrams_push (q : Queue) (addr data : Bytes) :
    (q.push addr data).datagrams = q.datagrams ++ [⟨addr, data⟩] := by
  have hold : q.batch.map (cut (q.bytes ++ data)) = q.batch.map (cut q.bytes) :=
    List.map_congr_left fun d hd => cut_append (q.within d hd)
  have hnew : cut (q.bytes ++ data) ⟨addr, q.bytes.length, data.length⟩ = ⟨addr, data⟩ := by
    simp [cut]
  show (q.batch ++ [_]).map (cut (q.bytes ++ data)) = _
  rw [List.map_append, hold, List.map_singleton, hnew]
  rfl

theorem datagrams_eq_nil {q : Queue} : q.datagrams = [] ↔ q.batch = [] := List.map_eq_nil_iff

end Queue

/-! ### The kernel

An answer settles the datagrams at the front of what was offered, and how many depends on
the call: `sendmmsg` that would block drops all of them, the others one.
-/

inductive Syscall
  | sendmmsg | sendmsgX | sendto
  deriving DecidableEq, Repr

/-- What the kernel does with what it is offered. -/
inductive Answer
  /-- It takes the first so many. -/
  | took (n : Nat)
  | interrupted
  | noSys
  | blocking
  /-- Any other error. -/
  | error
  deriving DecidableEq, Repr

inductive Fate
  | accepted
  /-- Not taken, for an error of its own or because the socket would block. -/
  | skipped
  | dropped
  deriving DecidableEq, Repr

/-- What an answer settles of what was offered. -/
def Answer.settles (call : Syscall) (offered : List Datagram) : Answer → List (Datagram × Fate)
  | took n => (offered.take n).map (·, .accepted)
  | interrupted | noSys => []
  | blocking =>
    match call with
    | .sendmmsg => offered.map (·, .dropped)
    | .sendmsgX | .sendto => (offered.take 1).map (·, .dropped)
  | error => (offered.take 1).map (·, .skipped)

/-- What a thread does with its sockets, and what comes of it. -/
inductive Event
  | sendTo (k : Nat) (d : Datagram)
  | flush (k n : Nat)
  | offer (k : Nat) (call : Syscall) (offered : List Datagram) (answer : Answer)
  /-- A datagram that is not queued. -/
  | direct (k : Nat) (d : Datagram) (fate : Fate)
  /-- These take effect. -/
  | setOption (k : Nat)
  | send (k : Nat)
  | close (k : Nat)
  deriving DecidableEq, Repr

def Event.sends (k : Nat) : Event → List Datagram
  | sendTo j d | direct j d _ => if j = k then [d] else []
  | _ => []

def Event.settles (k : Nat) : Event → List (Datagram × Fate)
  | offer j call offered answer => if j = k then answer.settles call offered else []
  | direct j d fate => if j = k then [(d, fate)] else []
  | _ => []

/-- The datagrams a socket was given, in order. -/
def sentTo (k : Nat) (log : List Event) : List Datagram := log.flatMap (Event.sends k)

/-- Those of them that were dealt with, in order, and how. -/
def settled (k : Nat) (log : List Event) : List (Datagram × Fate) := log.flatMap (Event.settles k)

/-- Those that the kernel accepted. -/
def accepted (k : Nat) (log : List Event) : List Datagram :=
  ((settled k log).filter (·.2 == .accepted)).map Prod.fst

/-- What an operation asks of a socket. -/
inductive Request
  | sendTo (k : Nat) (d : Datagram)
  | setOption (k : Nat)
  | send (k : Nat)
  | close (k : Nat)
  deriving DecidableEq, Repr

/-- What is asked of a socket where the event is logged. -/
def Event.request : Event → Option Request
  | sendTo k d | direct k d _ => some (.sendTo k d)
  | setOption k => some (.setOption k)
  | send k => some (.send k)
  | close k => some (.close k)
  | flush .. | offer .. => none

def Request.sends (k : Nat) : Request → List Datagram
  | sendTo j d => if j = k then [d] else []
  | _ => []

/-- The events that are calls of the kernel. -/
def Event.isCall : Event → Bool
  | offer .. | direct .. => true
  | _ => false

/-- A socket was given what was asked to be sent on it. -/
theorem sentTo_eq_requests (k : Nat) (log : List Event) :
    sentTo k log = (log.filterMap Event.request).flatMap (Request.sends k) := by
  induction log with
  | nil => rfl
  | cons e log ih =>
      rw [sentTo, List.flatMap_cons, List.filterMap_cons]
      cases e with
      | flush _ _ | offer _ _ _ _ => exact ih
      | sendTo _ _ | direct _ _ _ | setOption _ | send _ | close _ =>
          exact congrArg₂ (· ++ ·) rfl ih

@[simp] theorem sentTo_append (k : Nat) (log more : List Event) :
    sentTo k (log ++ more) = sentTo k log ++ sentTo k more := List.flatMap_append

@[simp] theorem settled_append (k : Nat) (log more : List Event) :
    settled k (log ++ more) = settled k log ++ settled k more := List.flatMap_append

@[simp] theorem sentTo_singleton (k : Nat) (e : Event) : sentTo k [e] = e.sends k :=
  List.flatMap_singleton _ _

@[simp] theorem settled_singleton (k : Nat) (e : Event) : settled k [e] = e.settles k :=
  List.flatMap_singleton _ _

/-- Everything a socket was given was dealt with. -/
def Clear (k : Nat) (log : List Event) : Prop := (settled k log).map Prod.fst = sentTo k log

/-- What may come after a log. -/
def Allowed (log : List Event) : Event → Prop
  | .sendTo .. => True
  | .flush _ n => n ≤ kMaxUdpSendBatch
  | .offer k call offered _ =>
    offered ≠ [] ∧ offered.length ≤ kMaxUdpSendBatch ∧
      (settled k log).map Prod.fst ++ offered <+: sentTo k log ∧
      (call ≠ .sendto → (settled k log).map Prod.fst ++ offered = sentTo k log)
  | .direct k .. | .setOption k | .send k | .close k => Clear k log

/-- Every event is allowed where it comes. -/
def Ordered (log : List Event) : Prop :=
  ∀ before e after, log = before ++ e :: after → Allowed before e

theorem ordered_nil : Ordered [] := by
  intro before e after h
  exact absurd h.symm (List.append_ne_nil_of_right_ne_nil _ (List.cons_ne_nil _ _))

theorem Ordered.concat {log : List Event} {e : Event} (h : Ordered log) (he : Allowed log e) :
    Ordered (log ++ [e]) := by
  intro before e' after heq
  rcases List.append_eq_append_iff.mp heq with ⟨as, rfl, has⟩ | ⟨cs, rfl, hcs⟩
  · cases as with
    | nil =>
        obtain ⟨rfl, -⟩ := List.cons.inj has
        rwa [List.append_nil]
    | cons a as =>
        have hlong := congrArg List.length has
        simp at hlong
  · cases cs with
    | nil =>
        obtain ⟨rfl, -⟩ := List.cons.inj hcs
        rwa [List.append_nil] at he
    | cons c cs =>
        obtain ⟨rfl, -⟩ := List.cons.inj hcs
        exact h before e' cs rfl

/-! ### The loop of a flush

Each turn offers what is left.  It takes an answer off the list that the kernel gives, so a
flush with too few answers is no flush at all, and what it leaves of the list is for the
next one.
-/

/-- Which call a flush makes: on a Mac, `sendmsg_x` if the system has it. -/
inductive Platform
  | linux
  | mac (sendmsgX : Bool)
  deriving DecidableEq, Repr

def Platform.call (sendmsgXWorks : Bool) : Platform → Syscall
  | linux => .sendmmsg
  | mac sendmsgX => if sendmsgX && sendmsgXWorks then .sendmsgX else .sendto

/-- How the loop reads an answer. -/
def Answer.read (call : Syscall) : Answer → Answer
  -- nothing taken counts as a full buffer
  | took 0 => if call = .sendmsgX then .blocking else .took 0
  | noSys => if call = .sendmsgX then .noSys else .error
  | a => a

/-- How a datagram that goes out by itself fares. -/
def Answer.fate : Answer → Fate
  | took _ => .accepted
  | blocking => .dropped
  | interrupted | noSys | error => .skipped

/-- The event is a call that was answered so. -/
def Event.Answers : Event → Answer → Prop
  | offer _ call _ answer, a => answer = a.read call
  | direct _ _ fate, a => fate = a.fate
  | _, _ => False

/-- Offer what is left until all is dealt with, to a kernel that gives these answers. -/
def flushLoop (platform : Platform) (k : Nat) :
    Bool → List Datagram → List Answer → Option (List Event × Bool × List Answer)
  | works, [], answers => some ([], works, answers)
  | _, _ :: _, [] => none
  | works, d :: rest, a :: answers =>
    let call := platform.call works
    let offered := if call = .sendto then [d] else d :: rest
    let answer := a.read call
    let next := fun works left =>
      (flushLoop platform k works left answers).map fun (events, result) =>
        (.offer k call offered answer :: events, result)
    match answer with
    | .took n => if 0 < n ∧ n ≤ offered.length then next works ((d :: rest).drop n) else none
    | .interrupted => next works (d :: rest)
    | .noSys => next false (d :: rest)
    | .blocking =>
      if call = .sendmmsg then some ([.offer k call offered answer], works, answers)
      else next works rest
    | .error => next works rest

variable {platform : Platform} {k : Nat}

/-- What one call is made with, and what is left after it. -/
structure Offers (k : Nat) (left : List Datagram) (e : Event) (after : List Datagram) : Prop where
  isOffer : ∃ call offered answer, e = .offer k call offered answer ∧ offered ≠ [] ∧
    offered <+: left ∧ (call ≠ .sendto → offered = left)
  settles : (e.settles k).map Prod.fst ++ after = left

theorem offers_of {left after offered : List Datagram} {call : Syscall} {answer : Answer}
    (hne : offered ≠ []) (hfirst : offered <+: left) (hall : call ≠ .sendto → offered = left)
    (h : (answer.settles call offered).map Prod.fst ++ after = left) :
    Offers k left (.offer k call offered answer) after := by
  refine ⟨⟨call, offered, answer, rfl, hne, hfirst, hall⟩, ?_⟩
  rw [Event.settles, if_pos rfl]
  exact h

theorem map_fst_pair (l : List Datagram) (fate : Fate) :
    (l.map fun d => (d, fate)).map Prod.fst = l := by
  rw [List.map_map]
  exact List.map_id l

/-- One turn of the loop: a call, and then the rest of the loop, or nothing left. -/
theorem flushLoop_cases {works works' : Bool} {d : Datagram} {rest : List Datagram} {a : Answer}
    {answers answers' : List Answer} {events : List Event}
    (h : flushLoop platform k works (d :: rest) (a :: answers) = some (events, works', answers')) :
    ∃ e after, Offers k (d :: rest) e after ∧ e.Answers a ∧
      ((events = [e] ∧ after = [] ∧ answers' = answers) ∨
        ∃ next more, flushLoop platform k next after answers = some (more, works', answers') ∧
          events = e :: more) := by
  simp only [flushLoop] at h
  obtain ⟨call, hcall⟩ : ∃ call, platform.call works = call := ⟨_, rfl⟩
  obtain ⟨offered, hoffered⟩ :
      ∃ offered, (if call = .sendto then [d] else d :: rest) = offered := ⟨_, rfl⟩
  rw [hcall, hoffered] at h
  have hne : offered ≠ [] := by
    rw [← hoffered]
    split <;> exact List.cons_ne_nil _ _
  have hfirst : offered <+: d :: rest := by
    rw [← hoffered]
    split
    · exact ⟨rest, rfl⟩
    · exact List.prefix_rfl
  have hall : call ≠ .sendto → offered = d :: rest := fun h => by rw [← hoffered, if_neg h]
  have hone : offered.take 1 = [d] := by
    rw [← hoffered]
    split <;> rfl
  -- a turn after which the loop goes on
  have hnext : ∀ {next : Bool} {after : List Datagram} {answer : Answer}, a.read call = answer →
      ((flushLoop platform k next after answers).map fun x =>
        (Event.offer k call offered answer :: x.1, x.2)) = some (events, works', answers') →
      (answer.settles call offered).map Prod.fst ++ after = d :: rest →
      ∃ e after, Offers k (d :: rest) e after ∧ e.Answers a ∧
        ((events = [e] ∧ after = [] ∧ answers' = answers) ∨
          ∃ next more, flushLoop platform k next after answers = some (more, works', answers') ∧
            events = e :: more) := by
    intro next after answer hread hmap hsettles
    obtain ⟨⟨more, result⟩, hloop, heq⟩ := Option.map_eq_some_iff.mp hmap
    obtain ⟨rfl, rfl⟩ := Prod.mk.inj heq
    exact ⟨_, after, offers_of hne hfirst hall hsettles, hread.symm,
      .inr ⟨next, more, hloop, rfl⟩⟩
  cases hanswer : a.read call with
  | took n =>
      rw [hanswer] at h
      dsimp only at h
      split at h
      · rename_i hn
        refine hnext hanswer h ?_
        rw [Answer.settles, map_fst_pair]
        obtain ⟨more, hmore⟩ := hfirst
        rw [← hmore, List.drop_append_of_le_length hn.2, ← List.append_assoc,
          List.take_append_drop]
      · cases h
  | interrupted =>
      rw [hanswer] at h
      exact hnext hanswer h rfl
  | noSys =>
      rw [hanswer] at h
      exact hnext hanswer h rfl
  | blocking =>
      rw [hanswer] at h
      dsimp only at h
      split at h
      · rename_i hmmsg
        subst hmmsg
        obtain ⟨rfl, hrest⟩ := Prod.mk.inj (Option.some.inj h)
        obtain ⟨-, rfl⟩ := Prod.mk.inj hrest
        refine ⟨_, [], offers_of hne hfirst hall ?_, hanswer.symm, .inl ⟨rfl, rfl, rfl⟩⟩
        rw [Answer.settles, map_fst_pair, List.append_nil]
        exact hall (by decide)
      · rename_i hmmsg
        refine hnext hanswer h ?_
        cases call with
        | sendmmsg => exact absurd rfl hmmsg
        | sendmsgX | sendto =>
            rw [Answer.settles, map_fst_pair, hone]
            rfl
  | error =>
      rw [hanswer] at h
      refine hnext hanswer h ?_
      rw [Answer.settles, map_fst_pair, hone]
      rfl

/-- The events of a flush of a socket. -/
def OnlyOffers (k : Nat) (events : List Event) : Prop :=
  ∀ e ∈ events, ∃ call offered answer, e = .offer k call offered answer

theorem OnlyOffers.sentTo_eq_nil {events : List Event} (h : OnlyOffers k events) (j : Nat) :
    sentTo j events = [] := by
  refine List.flatMap_eq_nil_iff.mpr fun e he => ?_
  obtain ⟨call, offered, answer, rfl⟩ := h e he
  rfl

theorem OnlyOffers.settled_eq_nil {events : List Event} (h : OnlyOffers k events) {j : Nat}
    (hj : j ≠ k) : settled j events = [] := by
  refine List.flatMap_eq_nil_iff.mpr fun e he => ?_
  obtain ⟨call, offered, answer, rfl⟩ := h e he
  rw [Event.settles, if_neg hj.symm]

theorem OnlyOffers.request_eq_nil {events : List Event} (h : OnlyOffers k events) :
    events.filterMap Event.request = [] := by
  refine List.filterMap_eq_nil_iff.mpr fun e he => ?_
  obtain ⟨call, offered, answer, rfl⟩ := h e he
  rfl

/-- A flush makes one call for each answer that it uses up. -/
theorem flushLoop_told {works works' : Bool} {left : List Datagram} {answers answers' : List Answer}
    {events : List Event}
    (h : flushLoop platform k works left answers = some (events, works', answers')) :
    ∃ told, answers = told ++ answers' ∧ OnlyOffers k events ∧
      List.Forall₂ Event.Answers (events.filter Event.isCall) told := by
  induction answers generalizing works left events with
  | nil =>
      cases left with
      | nil =>
          obtain ⟨rfl, hrest⟩ := Prod.mk.inj (Option.some.inj h)
          obtain ⟨-, rfl⟩ := Prod.mk.inj hrest
          exact ⟨[], rfl, fun e he => absurd he List.not_mem_nil, .nil⟩
      | cons d rest => cases h
  | cons a answers ih =>
      cases left with
      | nil =>
          obtain ⟨rfl, hrest⟩ := Prod.mk.inj (Option.some.inj h)
          obtain ⟨-, rfl⟩ := Prod.mk.inj hrest
          exact ⟨[], rfl, fun e he => absurd he List.not_mem_nil, .nil⟩
      | cons d rest =>
          obtain ⟨e, after, hoffers, hanswers, hnext⟩ := flushLoop_cases h
          obtain ⟨call, offered, answer, rfl, -⟩ := hoffers.isOffer
          rcases hnext with ⟨rfl, -, rfl⟩ | ⟨next, more, hmore, rfl⟩
          · refine ⟨[a], rfl, fun e he => ?_, .cons hanswers .nil⟩
            exact ⟨call, offered, answer, List.mem_singleton.mp he⟩
          · obtain ⟨told, rfl, honly, htold⟩ := ih hmore
            refine ⟨a :: told, rfl, fun e he => ?_, .cons hanswers htold⟩
            rcases List.mem_cons.mp he with rfl | he
            · exact ⟨call, offered, answer, rfl⟩
            · exact honly e he

/-- A flush offers what is queued in order, and deals with all of it. -/
theorem flushLoop_settles {works works' : Bool} {left : List Datagram}
    {answers answers' : List Answer} {events log : List Event} (hlog : Ordered log)
    (hbooks : (settled k log).map Prod.fst ++ left = sentTo k log)
    (hcap : left.length ≤ kMaxUdpSendBatch)
    (h : flushLoop platform k works left answers = some (events, works', answers')) :
    Ordered (log ++ events) ∧ OnlyOffers k events ∧ Clear k (log ++ events) := by
  induction answers generalizing works left events log with
  | nil =>
      cases left with
      | nil =>
          obtain ⟨rfl, -⟩ := Prod.mk.inj (Option.some.inj h)
          rw [List.append_nil] at hbooks ⊢
          exact ⟨hlog, fun e he => absurd he List.not_mem_nil, hbooks⟩
      | cons d rest => cases h
  | cons a answers ih =>
      cases left with
      | nil =>
          obtain ⟨rfl, -⟩ := Prod.mk.inj (Option.some.inj h)
          rw [List.append_nil] at hbooks ⊢
          exact ⟨hlog, fun e he => absurd he List.not_mem_nil, hbooks⟩
      | cons d rest =>
          obtain ⟨e, after, hoffers, -, hnext⟩ := flushLoop_cases h
          obtain ⟨call, offered, answer, rfl, hne, hfirst, hall⟩ := hoffers.isOffer
          have hsent : sentTo k [Event.offer k call offered answer] = [] := rfl
          have hallowed : Allowed log (.offer k call offered answer) := by
            refine ⟨hne, Nat.le_trans hfirst.length_le hcap, ?_, fun hcall => ?_⟩
            · rw [← hbooks]
              exact (List.prefix_append_right_inj _).mpr hfirst
            · rw [hall hcall, hbooks]
          have hlog' := hlog.concat hallowed
          have hbooks' : (settled k (log ++ [.offer k call offered answer])).map Prod.fst ++ after
              = sentTo k (log ++ [.offer k call offered answer]) := by
            rw [settled_append, sentTo_append, hsent, List.append_nil, List.map_append,
              List.append_assoc, settled_singleton, hoffers.settles, hbooks]
          rcases hnext with ⟨rfl, rfl, -⟩ | ⟨next, more, hmore, rfl⟩
          · rw [List.append_nil] at hbooks'
            refine ⟨hlog', fun e he => ?_, hbooks'⟩
            exact ⟨call, offered, answer, List.mem_singleton.mp he⟩
          · have hshort : after.length ≤ (d :: rest).length := by
              rw [← hoffers.settles, List.length_append]
              exact Nat.le_add_left _ _
            obtain ⟨hord, honly, hclear⟩ := ih hlog' hbooks' (Nat.le_trans hshort hcap) hmore
            rw [List.append_assoc] at hord hclear
            refine ⟨hord, fun e he => ?_, hclear⟩
            rcases List.mem_cons.mp he with rfl | he
            · exact ⟨call, offered, answer, rfl⟩
            · exact honly e he

end ReactorWebrtc.Sockets
