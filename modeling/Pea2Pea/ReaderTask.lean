/-
The reader and inbound-processing tasks of one connection
(`protocols/reading.rs`), from the socket to `process_message`, once the
connection is ready.

The reader polls its source: it reads when the decoder needs more, and
calls the decoder otherwise. A message goes into the inbound queue. With
`Reading::BACKPRESSURE` the reader waits for a slot; without, a message that
finds the queue full is dropped. The processing task passes the messages to
`process_message` one at a time. Either task may end by itself, panic in the
user's code, or be aborted at an await; the queue ends with the processing
task, and what is in it stays there.

The decoder is any here; the source's is a `CountingCodec` around the user's,
which yields what that one yields (`Counting`).
-/
import Pea2Pea.Lib.Framed
import Pea2Pea.Lib.Transition

namespace Pea2Pea.Reader

open Framed

variable {β δ μ ε : Type}

inductive ReaderPc (μ : Type)
  /-- In `framed.next()`. -/
  | polling
  /-- With a message, waiting for a slot. -/
  | sending (m : μ)
  | ended

inductive ProcPc
  | receiving
  | processing
  | ended
  deriving DecidableEq

/-- A decoded message: how many were queued then, whether the processing
task had ended, and whether it got into the queue (or waits to). -/
structure Entry (μ : Type) where
  msg : μ
  queued : Nat
  late : Bool
  kept : Bool

structure State (β δ μ : Type) where
  source : Source β δ
  reader : ReaderPc μ
  queue : List μ
  proc : ProcPc
  /-- The messages passed to `process_message`. -/
  processed : List μ
  /-- What was read, and what was decoded (read by no step). -/
  chunks : List (List β)
  decoded : List (Entry μ)

def State.init (codec : δ) : State β δ μ where
  source := .new codec
  reader := .polling
  queue := []
  proc := .receiving
  processed := []
  chunks := []
  decoded := []

inductive Act (β : Type)
  /-- A read from the socket; an empty one is the end of the stream. -/
  | read (chunk : List β)
  /-- The read fails, or the connection was idle for too long. -/
  | stop
  | decode
  /-- A send that waits gets a slot, or finds the queue gone. -/
  | send
  | abortReader
  /-- The next message is passed to `process_message`. -/
  | take
  | processed
  /-- `process_message` panics. -/
  | panic
  /-- The queue is empty, and the reader gone. -/
  | drained
  | abortProc

namespace State

/-- The reader has the message `m`: it is sent, or waits for a slot. -/
def deliver (depth : Nat) (backpressure : Bool) (s : State β δ μ) (m : μ) : State β δ μ :=
  let late : Bool := s.proc = .ended
  if backpressure then
    { s with reader := .sending m, decoded := s.decoded ++ [⟨m, s.queue.length, late, true⟩] }
  else if late then
    { s with reader := .ended, decoded := s.decoded ++ [⟨m, s.queue.length, true, false⟩] }
  else if s.queue.length < depth then
    { s with queue := s.queue ++ [m], decoded := s.decoded ++ [⟨m, s.queue.length, false, true⟩] }
  else { s with decoded := s.decoded ++ [⟨m, s.queue.length, false, false⟩] }

/-- The reader waits for the socket. -/
def awaitsRead (s : State β δ μ) : Bool :=
  match s.reader with
  | .polling => !s.source.readable
  | _ => false

end State

def step (D : Decoder β δ μ ε) (depth : Nat) (backpressure : Bool) (s : State β δ μ) : Act β → Option (State β δ μ)
  | .read chunk =>
    if s.awaitsRead then some { s with source := s.source.read chunk, chunks := s.chunks ++ [chunk] } else none
  | .stop => if s.awaitsRead then some { s with reader := .ended } else none
  | .decode =>
    match s.reader with
    | .polling =>
      if s.source.readable then
        match s.source.poll D with
        | (codec, buffer, .item m) =>
          some ({ s with source := { s.source with codec := codec, buffer := buffer } }.deliver depth backpressure m)
        | (codec, buffer, .more) =>
          some { s with
            source := { s.source with codec := codec, buffer := buffer, readable := false }
            reader := if s.source.eof then .ended else .polling }
        | (_, _, .error _) | (_, _, .panic) => some { s with reader := .ended }
      else none
    | _ => none
  | .send =>
    match s.reader with
    | .sending m =>
      if s.proc = .ended then some { s with reader := .ended }
      else if s.queue.length < depth then some { s with queue := s.queue ++ [m], reader := .polling }
      else none
    | _ => none
  | .abortReader =>
    match s.reader with
    | .polling => if s.source.readable then none else some { s with reader := .ended }
    | .sending _ => some { s with reader := .ended }
    | .ended => none
  | .take =>
    match s.proc, s.queue with
    | .receiving, m :: queue => some { s with queue := queue, proc := .processing, processed := s.processed ++ [m] }
    | _, _ => none
  | .processed => if s.proc = .processing then some { s with proc := .receiving } else none
  | .panic => if s.proc = .processing then some { s with proc := .ended } else none
  | .drained =>
    match s.proc, s.queue, s.reader with
    | .receiving, [], .ended => some { s with proc := .ended }
    | _, _, _ => none
  | .abortProc => if s.proc = .ended then none else some { s with proc := .ended }

def reader (D : Decoder β δ μ ε) (depth : Nat) (backpressure : Bool) (codec : δ) : Machine (State β δ μ) (Act β) :=
  ⟨.init codec, step D depth backpressure⟩

/-! ## The steps as a relation -/

inductive StepR (D : Decoder β δ μ ε) (depth : Nat) (backpressure : Bool) (s : State β δ μ) :
    Act β → State β δ μ → Prop
  | read {chunk} (hr : s.reader = .polling) (hn : s.source.readable = false) :
      StepR D depth backpressure s (.read chunk)
        { s with source := s.source.read chunk, chunks := s.chunks ++ [chunk] }
  | item {codec buffer m} (hr : s.reader = .polling) (hn : s.source.readable = true)
      (hp : s.source.poll D = (codec, buffer, .item m)) :
      StepR D depth backpressure s .decode
        ({ s with source := { s.source with codec := codec, buffer := buffer } }.deliver depth backpressure m)
  | more {codec buffer} (hr : s.reader = .polling) (hn : s.source.readable = true)
      (hp : s.source.poll D = (codec, buffer, .more)) :
      StepR D depth backpressure s .decode { s with
        source := { s.source with codec := codec, buffer := buffer, readable := false }
        reader := if s.source.eof then .ended else .polling }
  | send {m} (hr : s.reader = .sending m) (hq : s.queue.length < depth) :
      StepR D depth backpressure s .send { s with queue := s.queue ++ [m], reader := .polling }
  | endReader {a} : StepR D depth backpressure s a { s with reader := .ended }
  | take {m queue} (hq : s.queue = m :: queue) :
      StepR D depth backpressure s .take
        { s with queue := queue, proc := .processing, processed := s.processed ++ [m] }
  | processed (hp : s.proc = .processing) : StepR D depth backpressure s .processed { s with proc := .receiving }
  | endProc {a} : StepR D depth backpressure s a { s with proc := .ended }

theorem step_sound {D : Decoder β δ μ ε} {depth : Nat} {backpressure : Bool} {s s' : State β δ μ} {a : Act β}
    (h : step D depth backpressure s a = some s') : StepR D depth backpressure s a s' := by
  have waits : s.awaitsRead = true → s.reader = .polling ∧ s.source.readable = false := by
    intro hw
    unfold State.awaitsRead at hw
    split at hw
    next hr => exact ⟨hr, by simpa using hw⟩
    · cases hw
  cases a <;> simp only [step] at h
  case read =>
    split at h
    next hw => cases h; exact .read (waits hw).1 (waits hw).2
    · cases h
  case stop =>
    split at h
    · cases h; exact .endReader
    · cases h
  case decode =>
    split at h
    next hr =>
      split at h
      next hn =>
        split at h
        next hp => cases h; exact .item hr hn hp
        next hp => cases h; exact .more hr hn hp
        · cases h; exact .endReader
        · cases h; exact .endReader
      · cases h
    · cases h
  case send =>
    split at h
    next hr =>
      split at h
      · cases h; exact .endReader
      · split at h
        next hq => cases h; exact .send hr hq
        · cases h
    · cases h
  case abortReader =>
    split at h
    · split at h
      · cases h
      · cases h; exact .endReader
    · cases h; exact .endReader
    · cases h
  case take =>
    split at h
    next hq => cases h; exact .take hq
    · cases h
  case processed =>
    split at h
    next hp => cases h; exact .processed hp
    · cases h
  case panic =>
    split at h
    · cases h; exact .endProc
    · cases h
  case drained =>
    split at h
    · cases h; exact .endProc
    · cases h
  case abortProc =>
    split at h
    · cases h
    · cases h; exact .endProc

end Pea2Pea.Reader
