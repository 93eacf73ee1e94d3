/-
The writer task of one connection (`protocols/writing.rs`), from
`queue_message` to the delivery reports and the sent counters.

Each accepted message has the number of those accepted before it, which is
also its notifier's if a report was asked for. `recv_many` takes any number
of the queued messages, up to the queue's depth. Between the flush of a
batch and the next `recv_many` there is no await: the reports go out one by
one, and then the counters are raised, each by an atomic operation. An
abort is at an await.

The node's counters are shared: other connections' tasks raise them too.
-/
import Pea2Pea.Stats
import Pea2Pea.WriteBatch

namespace Pea2Pea.Writer

open Framed

variable {β σ μ ε : Type}

/-- `WrappedMessage`; the message itself is taken out of it by
`write_batch`. -/
structure Wrapped (μ : Type) where
  msg : μ
  notifier : Option Nat
  deriving DecidableEq

/-- What a notifier is sent. -/
abbrev Report (ε : Type) := Except (WriteError ε) Unit

/-- A batch that was received, as far as it was encoded. -/
structure Batch (β μ : Type) where
  messages : List (Wrapped μ)
  encodings : List (List β)
  flushed : Bool

/-- How the task ended: the channel was closed, a batch failed, the encoder
panicked, or the task was aborted. -/
inductive Ending
  | closed
  | failed
  | panicked
  | aborted
  deriving DecidableEq

/-- The counters, in the order they are raised in. -/
inductive Counter
  | connMsgs
  | connBytes
  | nodeMsgs
  | nodeBytes
  deriving DecidableEq

inductive Pc (ε : Type)
  /-- In `recv_many`. -/
  | receiving
  /-- In `write_batch`. -/
  | writing
  /-- `write_batch` has returned; these notifiers are left. -/
  | notifying (r : Except (WriteError ε) (Nat × Nat)) (left : List Nat)
  /-- The counter is next. -/
  | registering (c : Counter) (msgs bytes : Nat)
  | ended (e : Ending)

structure State (β σ μ ε : Type) where
  /-- The call of `write_batch`; between two, an empty one. -/
  write : Write β σ μ ε
  /-- The messages of the batch being written. -/
  batch : List (Wrapped μ)
  queue : List (Wrapped μ)
  /-- Whether the connection's sender is still there. -/
  isOpen : Bool
  conn : Stats
  node : Stats
  /-- The reports sent, with their notifiers. -/
  reports : List (Nat × Report ε)
  pc : Pc ε
  /-- What other tasks have raised the node's counters by, the messages
  accepted and the batches before the current one (read by no step). -/
  others : Nat × Nat
  accepted : List (Wrapped μ)
  past : List (Batch β μ)

def State.init (sink : Sink β σ) (conn node : Stats) : State β σ μ ε where
  write := .begin sink []
  batch := []
  queue := []
  isOpen := true
  conn := conn
  node := node
  reports := []
  pc := .receiving
  others := (0, 0)
  accepted := []
  past := []

inductive Act (μ ε : Type)
  /-- `queue_message`, accepted. -/
  | queue (msg : μ) (confirm : Bool)
  /-- The sender is dropped from `senders`. -/
  | close
  /-- `recv_many` returns `n` messages. -/
  | recv (n : Nat)
  /-- `recv_many` returns none. -/
  | recvClosed
  | write (a : WriteAct ε)
  /-- `write_batch` returns, or unwinds. -/
  | conclude
  | notify
  | register
  | abort
  /-- Another task registers sent messages with the node. -/
  | elsewhere (msgs bytes : Nat)

/-- The batch is being written, or its outcome dealt with. -/
def State.current (s : State β σ μ ε) : Batch β μ := ⟨s.batch, s.write.encodings, s.write.isFlushed⟩

def Pc.isEnded : Pc ε → Bool
  | .ended _ => true
  | _ => false

/-- The task is at an await. -/
def State.atAwait (s : State β σ μ ε) : Bool :=
  match s.pc with
  | .receiving => true
  | .writing => s.write.atAwait
  | _ => false

/-- `register_sent_messages` for the connection and for the node: one
counter, and where the task is then. -/
def State.register (s : State β σ μ ε) (c : Counter) (msgs bytes : Nat) : State β σ μ ε :=
  match c with
  | .connMsgs => { s with conn := s.conn.addMsgsSent msgs, pc := .registering .connBytes msgs bytes }
  | .connBytes => { s with conn := s.conn.addBytesSent bytes, pc := .registering .nodeMsgs msgs bytes }
  | .nodeMsgs => { s with node := s.node.addMsgsSent msgs, pc := .registering .nodeBytes msgs bytes }
  | .nodeBytes =>
    { s with
      write := .begin s.write.sink []
      batch := []
      node := s.node.addBytesSent bytes
      past := s.past ++ [s.current]
      pc := .receiving }

def step (E : Encoder β σ μ ε) (depth : Nat) (s : State β σ μ ε) : Act μ ε → Option (State β σ μ ε)
  | .queue msg confirm =>
    -- the sender is gone, the receiver is, or the queue is full
    if s.isOpen ∧ s.pc.isEnded = false ∧ s.queue.length < depth then
      let m : Wrapped μ := ⟨msg, if confirm then some s.accepted.length else none⟩
      some { s with queue := s.queue ++ [m], accepted := s.accepted ++ [m] }
    else none
  | .close => if s.isOpen then some { s with isOpen := false } else none
  | .recv n =>
    match s.pc with
    | .receiving =>
      if 0 < n ∧ n ≤ depth ∧ n ≤ s.queue.length then
        let batch := s.queue.take n
        some { s with
          write := .begin s.write.sink (batch.map (·.msg))
          batch := batch
          queue := s.queue.drop n
          pc := .writing }
      else none
    | _ => none
  | .recvClosed =>
    match s.pc with
    | .receiving => if s.queue.isEmpty ∧ s.isOpen = false then some { s with pc := .ended .closed } else none
    | _ => none
  | .write a =>
    match s.pc with
    | .writing => (s.write.step E a).map fun w => { s with write := w }
    | _ => none
  | .conclude =>
    match s.pc, s.write.pc with
    | .writing, .returned r => some { s with pc := .notifying r (s.batch.filterMap (·.notifier)) }
    | .writing, .panicked => some { s with pc := .ended .panicked }
    | _, _ => none
  | .notify =>
    match s.pc with
    | .notifying r (i :: left) =>
      some { s with reports := s.reports ++ [(i, r.map fun _ => ())], pc := .notifying r left }
    | .notifying (.ok (msgs, bytes)) [] => some { s with pc := .registering .connMsgs msgs bytes }
    | .notifying (.error _) [] => some { s with pc := .ended .failed }
    | _ => none
  | .register =>
    match s.pc with
    | .registering c msgs bytes => some (s.register c msgs bytes)
    | _ => none
  | .abort => if s.atAwait then some { s with pc := .ended .aborted } else none
  | .elsewhere msgs bytes =>
    some { s with
      node := s.node.registerSentMessages msgs bytes
      others := (s.others.1 + msgs, s.others.2 + bytes) }

/-- A writer task with the codec in `sink`, and the counters it starts
with. -/
def writer (E : Encoder β σ μ ε) (depth : Nat) (sink : Sink β σ) (conn node : Stats) :
    Machine (State β σ μ ε) (Act μ ε) :=
  ⟨.init sink conn node, step E depth⟩

/-! ## The steps as a relation -/

inductive StepR (E : Encoder β σ μ ε) (depth : Nat) (s : State β σ μ ε) : Act μ ε → State β σ μ ε → Prop
  | queue {msg confirm} (hq : s.queue.length < depth) :
      StepR E depth s (.queue msg confirm) { s with
        queue := s.queue ++ [⟨msg, if confirm then some s.accepted.length else none⟩]
        accepted := s.accepted ++ [⟨msg, if confirm then some s.accepted.length else none⟩] }
  | close (ho : s.isOpen = true) : StepR E depth s .close { s with isOpen := false }
  | recv {n} (hpc : s.pc = .receiving) (hn : 0 < n) :
      StepR E depth s (.recv n) { s with
        write := .begin s.write.sink ((s.queue.take n).map (·.msg))
        batch := s.queue.take n
        queue := s.queue.drop n
        pc := .writing }
  | recvClosed (hpc : s.pc = .receiving) : StepR E depth s .recvClosed { s with pc := .ended .closed }
  | write {a w} (hpc : s.pc = .writing) (hw : Write.StepR E s.write a w) :
      StepR E depth s (.write a) { s with write := w }
  | returned {r} (hpc : s.pc = .writing) (hw : s.write.pc = .returned r) :
      StepR E depth s .conclude { s with pc := .notifying r (s.batch.filterMap (·.notifier)) }
  | panicked (hpc : s.pc = .writing) (hw : s.write.pc = .panicked) :
      StepR E depth s .conclude { s with pc := .ended .panicked }
  | notify {r i left} (hpc : s.pc = .notifying r (i :: left)) :
      StepR E depth s .notify { s with reports := s.reports ++ [(i, r.map fun _ => ())], pc := .notifying r left }
  | notified {msgs bytes} (hpc : s.pc = .notifying (.ok (msgs, bytes)) []) :
      StepR E depth s .notify { s with pc := .registering .connMsgs msgs bytes }
  | gaveUp {e} (hpc : s.pc = .notifying (.error e) []) : StepR E depth s .notify { s with pc := .ended .failed }
  | register {c msgs bytes} (hpc : s.pc = .registering c msgs bytes) :
      StepR E depth s .register (s.register c msgs bytes)
  | abort (ha : s.atAwait = true) : StepR E depth s .abort { s with pc := .ended .aborted }
  | elsewhere {msgs bytes} :
      StepR E depth s (.elsewhere msgs bytes) { s with
        node := s.node.registerSentMessages msgs bytes
        others := (s.others.1 + msgs, s.others.2 + bytes) }

theorem step_sound {E : Encoder β σ μ ε} {depth : Nat} {s s' : State β σ μ ε} {a : Act μ ε}
    (h : step E depth s a = some s') : StepR E depth s a s' := by
  cases a <;> simp only [step] at h
  case queue =>
    split at h
    next hc => cases h; exact .queue hc.2.2
    · cases h
  case close =>
    split at h
    next ho => cases h; exact .close ho
    · cases h
  case recv =>
    split at h
    next hpc =>
      split at h
      next hc => cases h; exact .recv hpc hc.1
      · cases h
    · cases h
  case recvClosed =>
    split at h
    next hpc =>
      split at h
      · cases h; exact .recvClosed hpc
      · cases h
    · cases h
  case write =>
    split at h
    next hpc =>
      obtain ⟨w, hw, rfl⟩ := Option.map_eq_some_iff.mp h
      exact .write hpc (Write.step_sound hw)
    · cases h
  case conclude =>
    split at h
    next hpc hw => cases h; exact .returned hpc hw
    next hpc hw => cases h; exact .panicked hpc hw
    · cases h
  case notify =>
    split at h
    next hpc => cases h; exact .notify hpc
    next hpc => cases h; exact .notified hpc
    next hpc => cases h; exact .gaveUp hpc
    · cases h
  case register =>
    split at h
    next hpc => cases h; exact .register hpc
    · cases h
  case abort =>
    split at h
    next ha => cases h; exact .abort ha
    · cases h
  case elsewhere => cases h; exact .elsewhere

end Pea2Pea.Writer
