/-
Messages on their way out of the node (`protocols/writing.rs`): the calls of
`queue_message` behind `unicast`, `unicast_fast` and `broadcast`, over the
`senders` map and the writer tasks of `Pea2Pea.Writing`.

An entry of `senders` has the sending half of one writer's channel. The
receiving half is the writer's: it goes when the task's future is dropped,
after its `SenderCleanup`. Until the writer is adopted its only sender is with
the setup task, which awaits the writer and sends nothing, and nobody else has
a handle of the task: the writer does not end there.

A call is one step: `try_send` never blocks, and the `senders` guard is held
across it. A broadcast takes one step for the snapshot of the addresses and
one for each of them.
-/
import Pea2Pea.Lib.Pool
import Pea2Pea.WriterTask
import Pea2Pea.Writing

namespace Pea2Pea.Outbound

open Pool
open Writer (Wrapped)
open Writing (Request RequestPc WriterPc)

variable {μ : Type}

/-- `io::ErrorKind`, where `queue_message` produces one. -/
inductive QueueError
  | unsupported
  | notConnected
  | quotaExceeded
  | brokenPipe
  deriving DecidableEq

/-- The channel of a writer. -/
structure Channel (μ : Type) where
  /-- The receiver has not been dropped. -/
  isOpen : Bool
  queue : List (Wrapped μ)
  /-- What the writer has received, and what was dropped with the receiver
  (read by no step). -/
  received : List (Wrapped μ)
  dropped : List (Wrapped μ)

def Channel.new : Channel μ := ⟨true, [], [], []⟩

/-- All that was sent into the channel. -/
def Channel.stream (c : Channel μ) : List (Wrapped μ) := c.received ++ c.queue ++ c.dropped

/-- A message `queue_message` accepted, and the broadcast it was part of. -/
structure Accepted (μ : Type) where
  addr : SocketAddr
  msg : Wrapped μ
  via : Option Nat

/-- A call of `broadcast`. `own`: the caller's `Message` type is that of the
impl that has enabled Writing, so that the downcast of its senders succeeds;
another impl with the same `Message` type passes as well. -/
structure Broadcast (μ : Type) where
  own : Bool
  msg : μ
  addrs : List SocketAddr
  /-- The addresses it has not come to. -/
  left : List SocketAddr
  /-- The addresses it has skipped (read by no step). -/
  refused : List (SocketAddr × QueueError)
  result : Option (Except QueueError Unit)

structure State (μ : Type) where
  net : Writing.State
  /-- The writer whose sender is in the entry of `senders`. -/
  channelOf : Table SocketAddr Nat
  /-- The channels, each at its writer's index. -/
  channels : List (Channel μ)
  broadcasts : List (Broadcast μ)
  /-- The messages accepted, and the writers published, in that order (read
  by no step). -/
  accepted : List (Accepted μ)
  published : List Nat

def State.init (cfg : NodeConfig) : State μ where
  net := .init cfg
  channelOf := ∅
  channels := []
  broadcasts := []
  accepted := []
  published := []

namespace State

def channelGoto (s : State μ) (w : Nat) (c : Channel μ) : State μ := { s with channels := s.channels.set w c }

/-- The message is put into the channel of writer `w`, which is `c`. -/
def accept (s : State μ) (w : Nat) (c : Channel μ) (m : Accepted μ) : State μ :=
  { s.channelGoto w { c with queue := c.queue ++ [m.msg] } with accepted := s.accepted ++ [m] }

end State

/-- `queue_message`: its result, and what it leaves. -/
def queueMessage (depth : Nat) (s : State μ) (via : Option Nat) (own : Bool) (addr : SocketAddr) (msg : μ)
    (confirmDelivery : Bool) : Except QueueError (Option Nat) × State μ :=
  if s.net.enabled = false then (.error .unsupported, s)
  else match s.channelOf.lookup addr with
    | none => (.error .notConnected, s)
    | some w =>
      -- the sender is of the message type of the impl that has enabled Writing
      if own = false then (.error .unsupported, s)
      else match s.channels[w]? with
        | none => (.error .brokenPipe, s)
        | some c =>
          if c.isOpen = false then (.error .brokenPipe, s)
          else if c.queue.length ≥ depth then (.error .quotaExceeded, s)
          else
            let m : Wrapped μ := ⟨msg, if confirmDelivery then some s.accepted.length else none⟩
            (.ok m.notifier, s.accept w c ⟨addr, m, via⟩)

inductive Act (μ : Type)
  | net (a : Writing.Act)
  /-- `recv_many` returns `n` messages to writer `w`. -/
  | recvMany (w n : Nat)
  /-- The future of writer `w` is dropped to its end. -/
  | dropReceiver (w : Nat)
  /-- `unicast`, or without a confirmation `unicast_fast`. -/
  | unicast (own : Bool) (addr : SocketAddr) (msg : μ) (confirmDelivery : Bool)
  /-- `broadcast` takes its snapshot. -/
  | broadcast (own : Bool) (msg : μ) (addrs : List SocketAddr)
  /-- The broadcast `b` comes to its next address, or returns. -/
  | broadcastNext (b : Nat)

namespace State

/-- What the handler and the writers may do: a writer that is not adopted
does not end. -/
def allows (s : State μ) : Writing.Act → Bool
  | .endWriter w => (s.net.writers[w]?).all fun x => !s.net.awaited w x.id
  | _ => true

/-- The senders in the entries, after a step of the network. -/
def react (s : State μ) (net : Writing.State) : Writing.Act → State μ
  | .spawnWriter _ => { s with net := net, channels := s.channels ++ [.new] }
  | .adoptWriter q =>
    match s.net.requests[q]? with
    | some ⟨_, addr, _, .spawned w⟩ =>
      { s with net := net, channelOf := s.channelOf.insert addr w, published := s.published ++ [w] }
    | _ => { s with net := net }
  | .base (.finalize j) =>
    match s.net.base.discs[j]? with
    | some d => { s with net := net, channelOf := if s.net.enabled then s.channelOf.erase d.addr else s.channelOf }
    | none => { s with net := net }
  | .cleanup w =>
    match s.net.writers[w]? with
    | some x =>
      { s with
        net := net
        channelOf := if s.net.senders.lookup x.addr = some x.id then s.channelOf.erase x.addr else s.channelOf }
    | none => { s with net := net }
  | _ => { s with net := net }

def broadcastGoto (s : State μ) (b : Nat) (x : Broadcast μ) : State μ := { s with broadcasts := s.broadcasts.set b x }

end State

def step (cfg : NodeConfig) (depth : Nat) (s : State μ) : Act μ → Option (State μ)
  | .net a =>
    if s.allows a then (Writing.step cfg s.net a).map fun net => s.react net a else none
  | .recvMany w n => do
    let x ← s.net.writers[w]?
    let c ← s.channels[w]?
    if x.pc = .running ∧ 0 < n ∧ n ≤ depth ∧ n ≤ c.queue.length then
      some (s.channelGoto w { c with queue := c.queue.drop n, received := c.received ++ c.queue.take n })
    else none
  | .dropReceiver w => do
    let x ← s.net.writers[w]?
    let c ← s.channels[w]?
    if x.pc = .gone ∧ c.isOpen then
      some (s.channelGoto w { c with isOpen := false, queue := [], dropped := c.queue })
    else none
  | .unicast own addr msg confirmDelivery => some (queueMessage depth s none own addr msg confirmDelivery).2
  | .broadcast own msg addrs =>
    if s.net.enabled = false then
      some { s with broadcasts := s.broadcasts ++ [⟨own, msg, [], [], [], some (.error .unsupported)⟩] }
    else if addrs.Nodup ∧ addrs.toFinset = s.channelOf.keys then
      some { s with broadcasts := s.broadcasts ++ [⟨own, msg, addrs, addrs, [], none⟩] }
    else none
  | .broadcastNext b => do
    let x ← s.broadcasts[b]?
    match x.result, x.left with
    | none, [] => some (s.broadcastGoto b { x with result := some (.ok ()) })
    | none, addr :: left =>
      match queueMessage depth s (some b) x.own addr x.msg false with
      | (.error .unsupported, s) => some (s.broadcastGoto b { x with result := some (.error .unsupported) })
      | (.error e, s) => some (s.broadcastGoto b { x with left := left, refused := x.refused ++ [(addr, e)] })
      | (.ok _, s) => some (s.broadcastGoto b { x with left := left })
    | some _, _ => none

/-- The node's outbound messages; `depth` is `MESSAGE_QUEUE_DEPTH`. -/
def outbound (cfg : NodeConfig) (depth : Nat) : Machine (State μ) (Act μ) := ⟨.init cfg, step cfg depth⟩

/-! ## The steps as a relation -/

variable {cfg : NodeConfig} {depth : Nat} {s s' : State μ} {a : Act μ}

/-- A call fails and changes nothing, or its message goes into the channel of
the entry's writer, which has room. -/
theorem queueMessage_cases (depth : Nat) (s : State μ) (via : Option Nat) (own : Bool) (addr : SocketAddr) (msg : μ)
    (confirmDelivery : Bool) :
    (∃ e, queueMessage depth s via own addr msg confirmDelivery = (.error e, s)) ∨
      ∃ w c m, s.net.enabled = true ∧ own = true ∧ s.channelOf.lookup addr = some w ∧ s.channels[w]? = some c ∧
        c.isOpen = true ∧ c.queue.length < depth ∧ m.msg = msg ∧
        queueMessage depth s via own addr msg confirmDelivery = (.ok m.notifier, s.accept w c ⟨addr, m, via⟩) := by
  unfold queueMessage
  split
  · exact .inl ⟨_, rfl⟩
  next he =>
  split
  · exact .inl ⟨_, rfl⟩
  next w hw =>
  split
  · exact .inl ⟨_, rfl⟩
  next ho =>
  split
  · exact .inl ⟨_, rfl⟩
  next c hc =>
  split
  · exact .inl ⟨_, rfl⟩
  next hopen =>
  split
  · exact .inl ⟨_, rfl⟩
  next hfull =>
    exact .inr ⟨w, c, _, by simpa using he, by simpa using ho, hw, hc, by simpa using hopen, by omega, rfl, rfl⟩

/-- What a step does to the network, the channels and the log; what it does
to broadcasts is left out. -/
inductive StepR (cfg : NodeConfig) (depth : Nat) (s : State μ) : Act μ → State μ → Prop
  | net {a net} (ha : s.allows a = true) (hn : Writing.StepR cfg s.net a net) :
      StepR cfg depth s (.net a) (s.react net a)
  | recvMany {w n x c} (hx : s.net.writers[w]? = some x) (hc : s.channels[w]? = some c) (hpc : x.pc = .running) :
      StepR cfg depth s (.recvMany w n)
        (s.channelGoto w { c with queue := c.queue.drop n, received := c.received ++ c.queue.take n })
  | dropReceiver {w x c} (hx : s.net.writers[w]? = some x) (hc : s.channels[w]? = some c) (hpc : x.pc = .gone)
      (ho : c.isOpen = true) :
      StepR cfg depth s (.dropReceiver w) (s.channelGoto w { c with isOpen := false, queue := [], dropped := c.queue })
  | accept {a w c m B} (he : s.net.enabled = true) (hw : s.channelOf.lookup m.addr = some w)
      (hc : s.channels[w]? = some c) (ho : c.isOpen = true) (hroom : c.queue.length < depth) :
      StepR cfg depth s a { s.accept w c m with broadcasts := B }
  | other {a B} : StepR cfg depth s a { s with broadcasts := B }

theorem step_sound (h : step cfg depth s a = some s') : StepR cfg depth s a s' := by
  cases a with
  | net a =>
    simp only [step] at h
    split at h
    next ha =>
      obtain ⟨n, hn, rfl⟩ := Option.map_eq_some_iff.1 h
      exact .net ha (Writing.step_sound hn)
    · cases h
  | recvMany w n =>
    simp only [step, Option.bind_eq_bind, Option.bind_eq_some_iff] at h
    obtain ⟨x, hx, c, hc, h⟩ := h
    split at h
    next hcond => cases h; exact .recvMany hx hc hcond.1
    · cases h
  | dropReceiver w =>
    simp only [step, Option.bind_eq_bind, Option.bind_eq_some_iff] at h
    obtain ⟨x, hx, c, hc, h⟩ := h
    split at h
    next hcond => cases h; exact .dropReceiver hx hc hcond.1 hcond.2
    · cases h
  | unicast own addr msg confirmDelivery =>
    simp only [step, Option.some.injEq] at h
    subst h
    rcases queueMessage_cases depth s none own addr msg confirmDelivery with
      ⟨e, he⟩ | ⟨w, c, m, he, -, hw, hc, ho, hroom, -, hq⟩
    · rw [he]; exact .other
    · rw [hq]; exact .accept he hw hc ho hroom
  | broadcast own msg addrs =>
    simp only [step] at h
    split at h
    · cases h; exact .other
    · split at h
      · cases h; exact .other
      · cases h
  | broadcastNext b =>
    simp only [step, Option.bind_eq_bind, Option.bind_eq_some_iff] at h
    obtain ⟨x, hx, h⟩ := h
    split at h
    · cases h; exact .other
    next addr left _ _ =>
      rcases queueMessage_cases depth s (some b) x.own addr x.msg false with
        ⟨e, he⟩ | ⟨w, c, m, he, -, hw, hc, ho, hroom, -, hq⟩
      · rw [he] at h
        cases e <;> cases h <;> exact .other
      · rw [hq] at h
        cases h
        exact .accept he hw hc ho hroom
    · cases h

end Pea2Pea.Outbound
