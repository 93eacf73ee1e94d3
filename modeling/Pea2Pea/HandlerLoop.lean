/-
The protocol handler loops (`run_setup_handler_loop`,
`run_hook_handler_loop`): the senders of a handler's channel, the loop, and
the setup tasks it tracks in its `JoinSet`.

An iteration polls the arms of the biased `select!` in their order, one
step each, so sends, task completions and the shutdown signal may come
between two polls. Once the loop is broken out of, the `JoinSet` is dropped,
which aborts the tasks left in it and waits for none of them: each is
cancelled later, in any order, and may still get ahead of its cancellation.

The signal is a `watch` channel that all handler loops share. A loop
subscribes when it is first polled, and a value that is sent while nobody has
subscribed is not stored: a loop that subscribes later waits for another one.
-/
import Pea2Pea.Lib.Mpsc
import Pea2Pea.Lib.Pool
import Pea2Pea.Lib.Transition

namespace Pea2Pea.HandlerLoop

/-- `run_setup_handler_loop` or `run_hook_handler_loop`. -/
inductive LoopKind
  | setup
  | hook
  deriving DecidableEq

/-- Where a request is: the item sent and, with it, its response sender. -/
inductive ReqPc
  /-- Its send is waiting for a slot. -/
  | sending
  /-- Its send has a slot, the value is not written. -/
  | acquired
  | queued
  /-- A setup task has it. -/
  | spawned
  /-- The setup task used the response sender. -/
  | answered
  /-- The response sender was dropped, by the loop or with its task. -/
  | dropped
  /-- The hook loop processed it. -/
  | processed
  /-- It was dropped without having been sent. -/
  | unsent
  deriving DecidableEq

/-- A request; `late` if it was received by a draining loop. -/
structure Req where
  pc : ReqPc
  late : Bool
  deriving DecidableEq

/-- The arm the loop polls next, or how far it has ended. -/
inductive LoopPc
  /-- Not polled yet. -/
  | starting
  | join
  | recv
  | shutdown
  | parked
  /-- Broken out of; the `JoinSet` is being dropped. -/
  | unwinding
  | exited
  deriving DecidableEq

structure State where
  chan : Mpsc Nat
  reqs : List Req
  /-- What the `watch` channel of the phase-two shutdown signal holds. -/
  signal : Bool
  draining : Bool
  pc : LoopPc
  /-- `setup_tasks`: the requests whose tasks are in the `JoinSet`. -/
  tasks : List Nat
  /-- The requests whose tasks the dropped `JoinSet` has aborted. -/
  aborted : List Nat
  /-- The requests received, in order. -/
  log : List Nat

inductive Act
  /-- A caller starts to send an item. -/
  | request
  | acquire (q : Nat)
  /-- The send fails, the channel being closed, or is dropped before it has
  a slot. -/
  | giveUp (q : Nat)
  | write (q : Nat)
  /-- `signal_handlers`, with another loop subscribed or not. -/
  | signalShutdown (others : Bool)
  /-- The first poll: `ShutdownState::handler_signal`. -/
  | subscribe
  /-- The first arm: a finished task is reaped, or there is none. -/
  | joinTask (q : Nat)
  | joinNone
  | pollRecv
  | pollShutdown
  /-- The parked loop is polled again. -/
  | wake
  /-- A setup task ends, having used the response sender or not. -/
  | complete (q : Nat)
  | panic (q : Nat)
  /-- The `JoinSet` is dropped. -/
  | dropTasks
  /-- An aborted setup task is cancelled. -/
  | cancelTask (q : Nat)
  | exit
  deriving DecidableEq

/-- The first arm of the `select!`. -/
def LoopKind.head : LoopKind → LoopPc
  | .setup => .join
  | .hook => .recv

/-- The loop has a receiver of the signal. -/
def LoopPc.subscribed : LoopPc → Bool
  | .starting | .unwinding | .exited => false
  | _ => true

/-- What the loop makes of an item it received. -/
def LoopKind.receive (kind : LoopKind) (draining : Bool) : ReqPc :=
  match kind with
  | .setup => if draining then .dropped else .spawned
  | .hook => .processed

def State.reqGoto (s : State) (q : Nat) (r : Req) (pc : ReqPc) : State :=
  { s with reqs := s.reqs.set q { r with pc := pc } }

def step (kind : LoopKind) (s : State) : Act → Option State
  | .request => some { s with reqs := s.reqs ++ [⟨.sending, false⟩] }
  | .acquire q => do
    let r ← s.reqs[q]?
    match r.pc with
    | .sending => do
      let c ← s.chan.acquire
      some { s.reqGoto q r .acquired with chan := c }
    | _ => none
  | .giveUp q => do
    let r ← s.reqs[q]?
    match r.pc with
    | .sending => some (s.reqGoto q r .unsent)
    | _ => none
  | .write q => do
    let r ← s.reqs[q]?
    match r.pc with
    | .acquired => some { s.reqGoto q r .queued with chan := s.chan.write q }
    | _ => none
  | .signalShutdown others => some { s with signal := s.signal || others || s.pc.subscribed }
  | .subscribe => if s.pc = .starting then some { s with pc := kind.head } else none
  | .joinTask q => do
    let r ← s.reqs[q]?
    if s.pc = .join ∧ q ∈ s.tasks ∧ r.pc ≠ .spawned then some { s with tasks := s.tasks.erase q } else none
  | .joinNone =>
    if s.pc = .join ∧ s.tasks.all (fun q => (s.reqs[q]?).any (·.pc == .spawned)) then some { s with pc := .recv }
    else none
  | .pollRecv =>
    if s.pc = .recv then
      match s.chan.recv with
      | .item q c => do
        let r ← s.reqs[q]?
        some { s with
          chan := c
          reqs := s.reqs.set q { r with pc := kind.receive s.draining, late := s.draining }
          pc := kind.head
          tasks := if kind.receive s.draining = .spawned then s.tasks ++ [q] else s.tasks
          log := s.log ++ [q] }
      | .ended => some { s with pc := .unwinding }
      | .pending => some { s with pc := .shutdown }
    else none
  | .pollShutdown =>
    if s.pc = .shutdown then
      if s.draining = false ∧ s.signal = true then
        some { s with chan := s.chan.close, draining := true, pc := kind.head }
      else some { s with pc := .parked }
    else none
  | .wake => if s.pc = .parked then some { s with pc := kind.head } else none
  | .complete q => do
    let r ← s.reqs[q]?
    match r.pc with
    | .spawned => some (s.reqGoto q r .answered)
    | _ => none
  | .panic q => do
    let r ← s.reqs[q]?
    match r.pc with
    | .spawned => some (s.reqGoto q r .dropped)
    | _ => none
  | .dropTasks =>
    if s.pc = .unwinding ∧ s.tasks ≠ [] then some { s with tasks := [], aborted := s.aborted ++ s.tasks } else none
  | .cancelTask q => do
    let r ← s.reqs[q]?
    if q ∈ s.aborted then
      some { s.reqGoto q r (if r.pc = .spawned then .dropped else r.pc) with aborted := s.aborted.erase q }
    else none
  | .exit => if s.pc = .unwinding ∧ s.tasks = [] then some { s with pc := .exited } else none

def State.init (capacity : Nat) : State where
  chan := .new capacity
  reqs := []
  signal := false
  draining := false
  pc := .starting
  tasks := []
  aborted := []
  log := []

/-- A handler loop with its channel and its callers. -/
def handlerLoop (kind : LoopKind) (capacity : Nat) : Machine State Act := ⟨.init capacity, step kind⟩

/-! ## The steps as a relation -/

inductive StepR (kind : LoopKind) (s : State) : Act → State → Prop
  | request : StepR kind s .request { s with reqs := s.reqs ++ [⟨.sending, false⟩] }
  | acquire {q r} (hr : s.reqs[q]? = some r) (hpc : r.pc = .sending) (hc : s.chan.closed = false)
      (hf : s.chan.slots + s.chan.queue.length < s.chan.capacity) :
      StepR kind s (.acquire q)
        { s.reqGoto q r .acquired with chan := { s.chan with slots := s.chan.slots + 1 } }
  | giveUp {q r} (hr : s.reqs[q]? = some r) (hpc : r.pc = .sending) :
      StepR kind s (.giveUp q) (s.reqGoto q r .unsent)
  | write {q r} (hr : s.reqs[q]? = some r) (hpc : r.pc = .acquired) :
      StepR kind s (.write q) { s.reqGoto q r .queued with chan := s.chan.write q }
  | signalShutdown {others} :
      StepR kind s (.signalShutdown others) { s with signal := s.signal || others || s.pc.subscribed }
  | subscribe (hpc : s.pc = .starting) : StepR kind s .subscribe { s with pc := kind.head }
  | joinTask {q r} (hr : s.reqs[q]? = some r) (hpc : s.pc = .join) (hq : q ∈ s.tasks) (hn : r.pc ≠ .spawned) :
      StepR kind s (.joinTask q) { s with tasks := s.tasks.erase q }
  | joinNone (hpc : s.pc = .join) (hn : s.tasks.all (fun q => (s.reqs[q]?).any (·.pc == .spawned)) = true) :
      StepR kind s .joinNone { s with pc := .recv }
  | recvItem {q r rest} (hpc : s.pc = .recv) (hq : s.chan.queue = q :: rest) (hr : s.reqs[q]? = some r) :
      StepR kind s .pollRecv { s with
        chan := { s.chan with queue := rest }
        reqs := s.reqs.set q { r with pc := kind.receive s.draining, late := s.draining }
        pc := kind.head
        tasks := if kind.receive s.draining = .spawned then s.tasks ++ [q] else s.tasks
        log := s.log ++ [q] }
  | recvEnded (hpc : s.pc = .recv) (he : s.chan.Ended) : StepR kind s .pollRecv { s with pc := .unwinding }
  | recvPending (hpc : s.pc = .recv) (hq : s.chan.queue = []) : StepR kind s .pollRecv { s with pc := .shutdown }
  | close (hpc : s.pc = .shutdown) (hd : s.draining = false) (hs : s.signal = true) :
      StepR kind s .pollShutdown { s with chan := s.chan.close, draining := true, pc := kind.head }
  | park (hpc : s.pc = .shutdown) (hn : ¬ (s.draining = false ∧ s.signal = true)) :
      StepR kind s .pollShutdown { s with pc := .parked }
  | wake (hpc : s.pc = .parked) : StepR kind s .wake { s with pc := kind.head }
  | complete {q r} (hr : s.reqs[q]? = some r) (hpc : r.pc = .spawned) :
      StepR kind s (.complete q) (s.reqGoto q r .answered)
  | panic {q r} (hr : s.reqs[q]? = some r) (hpc : r.pc = .spawned) : StepR kind s (.panic q) (s.reqGoto q r .dropped)
  | dropTasks (hpc : s.pc = .unwinding) (ht : s.tasks ≠ []) :
      StepR kind s .dropTasks { s with tasks := [], aborted := s.aborted ++ s.tasks }
  | cancelTask {q r} (hr : s.reqs[q]? = some r) (hq : q ∈ s.aborted) :
      StepR kind s (.cancelTask q)
        { s.reqGoto q r (if r.pc = .spawned then .dropped else r.pc) with aborted := s.aborted.erase q }
  | exit (hpc : s.pc = .unwinding) (ht : s.tasks = []) : StepR kind s .exit { s with pc := .exited }

theorem step_sound {kind : LoopKind} {s s' : State} {a : Act} (h : step kind s a = some s') : StepR kind s a s' := by
  cases a <;> simp only [step, Option.bind_eq_bind, Option.bind_eq_some_iff, Option.some.injEq] at h
  case request => exact h ▸ .request
  case signalShutdown => exact h ▸ .signalShutdown
  case subscribe =>
    split at h
    next hpc => cases h; exact .subscribe hpc
    · cases h
  case dropTasks =>
    split at h
    next hc => cases h; exact .dropTasks hc.1 hc.2
    · cases h
  case joinNone =>
    split at h
    next hc => cases h; exact .joinNone hc.1 hc.2
    · cases h
  case pollRecv =>
    split at h
    next hpc =>
      split at h
      next q c hrecv =>
        obtain ⟨hq, hc⟩ := Mpsc.recv_item hrecv
        obtain ⟨r, hr, h⟩ := Option.bind_eq_some_iff.mp h
        cases h
        rw [hc]
        exact .recvItem hpc hq hr
      next hrecv => cases h; exact .recvEnded hpc (Mpsc.recv_ended hrecv)
      next hrecv => cases h; exact .recvPending hpc (Mpsc.recv_pending hrecv)
    · cases h
  case pollShutdown =>
    split at h
    next hpc =>
      split at h
      next hc => cases h; exact .close hpc hc.1 hc.2
      next hc => cases h; exact .park hpc hc
    · cases h
  case wake =>
    split at h
    next hpc => cases h; exact .wake hpc
    · cases h
  case exit =>
    split at h
    next hc => cases h; exact .exit hc.1 hc.2
    · cases h
  all_goals obtain ⟨r, hr, h⟩ := h
  case acquire =>
    split at h
    next hpc =>
      obtain ⟨c, hc, h⟩ := Option.bind_eq_some_iff.mp h
      obtain ⟨hopen, hfree, rfl⟩ := Mpsc.acquire_some hc
      cases h
      exact .acquire hr hpc hopen hfree
    · cases h
  case giveUp =>
    split at h
    next hpc => cases h; exact .giveUp hr hpc
    · cases h
  case write =>
    split at h
    next hpc => cases h; exact .write hr hpc
    · cases h
  case joinTask =>
    split at h
    next hc => cases h; exact .joinTask hr hc.1 hc.2.1 hc.2.2
    · cases h
  case complete =>
    split at h
    next hpc => cases h; exact .complete hr hpc
    · cases h
  case panic =>
    split at h
    next hpc => cases h; exact .panic hr hpc
    · cases h
  case cancelTask =>
    split at h
    next hc => cases h; exact .cancelTask hr hc
    · cases h

end Pea2Pea.HandlerLoop
