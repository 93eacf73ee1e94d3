/-
The setup protocols over the hooks' system: `Node::enable_protocols` and the
rest of `adapt_stream`, the three setup handlers (`protocols/handshake.rs`,
`reading.rs`, `writing.rs`), and the tasks a connection gets from them.

A `Connection` goes from its driver, the setup, into a request, from there
to a setup task, and back through the response oneshot, once for each
enabled protocol; then into `active`. It is dropped where it is when what
has it is: its tasks are aborted and what they wait for is dropped with it.
The steps of a setup task between two of its awaits are one step, and so is
the drop of its future.

The user's part is arbitrary: a handshake or a codec fails, panics or takes
its time, a setup task or a handler's loop panics where it calls the user's
type or allocates, and the tasks read, decode, process and write when they
can. A handshake that succeeds returns the connection it was given. What a
task does to `senders` and to the counters is left out here.
-/
import Pea2Pea.Hooks
import Pea2Pea.Ledger

namespace Pea2Pea.Protocols

open Shutdown (NodeTask)
open HandlerLoop (ReqPc)

/-! ## Connections -/

/-- The protocols of a connection's setup, in their order. -/
inductive Stage
  | handshake
  | reading
  | writing
  deriving DecidableEq

/-- The protocol's node task. -/
def Stage.kind : Stage → NodeTask
  | .handshake => .handshake
  | .reading => .reading
  | .writing => .writing

/-- Where a connection's driver is. -/
inductive DriverPc
  /-- About to look the protocol's handler up. -/
  | before (st : Stage)
  /-- In `trigger`, or in `await_handler_response`. -/
  | waiting (st : Stage) (q : Nat)
  /-- The channel is closed: in the grace period. -/
  | grace (st : Stage) (q : Nat)
  /-- Past `enable_protocols`. -/
  | through
  /-- `enable_protocols` failed, or the future was dropped there. -/
  | over
  deriving DecidableEq

def Stage.next : Stage → DriverPc
  | .handshake => .before .reading
  | .reading => .before .writing
  | .writing => .through

/-- The request the driver awaits the response to. -/
def DriverPc.request : DriverPc → Option (Stage × Nat)
  | .waiting st q | .grace st q => some (st, q)
  | _ => none

/-- Where a setup task is. -/
inductive SetupTaskPc
  /-- Not polled yet. -/
  | fresh
  /-- In the handshake's future. -/
  | shaking
  /-- At the readiness of the task `k`. -/
  | awaiting (k : Handle)
  deriving DecidableEq

/-- Where a `Connection` is. -/
inductive Place
  | driver
  /-- In a request, on its way to the loop. -/
  | request (st : Stage) (q : Nat)
  /-- In a setup task. -/
  | setup (st : Stage) (q : Nat) (pc : SetupTaskPc)
  /-- In the response oneshot. -/
  | reply
  | active
  /-- With the disconnect that took it out of `active`. -/
  | removed
  | dropped
  deriving DecidableEq

/-- The task whose readiness is awaited there. -/
def Place.awaits : Place → Option Handle
  | .setup _ _ (.awaiting k) => some k
  | _ => none

/-- An error a setup responds with: one with the `ShuttingDown` payload, or
another. -/
inductive SetupError
  | shuttingDown
  | other
  deriving DecidableEq

/-- A connection's handshake: not looked up yet, not enabled, triggered, or
successful. -/
inductive Handshaken
  | ahead
  | skipped
  | begun
  | succeeded
  deriving DecidableEq

structure Conn where
  driver : Nat
  addr : SocketAddr
  pc : DriverPc
  place : Place
  tasks : List Handle
  /-- The error in the response oneshot. -/
  error : Option SetupError
  /-- Read by no step. -/
  handshake : Handshaken
  deriving DecidableEq

/-! ## The tasks of a connection -/

inductive TaskKind
  | processing
  | reader
  | writer
  deriving DecidableEq

/-- The origin of the task's `DisconnectOnDrop`. -/
def TaskKind.origin : TaskKind → DisconnectOrigin
  | .processing | .reader => .reading
  | .writer => .writing

inductive TaskPc
  /-- Spawned, its readiness not signaled. -/
  | starting
  /-- A reader at its conn-ready receiver. -/
  | waiting
  | running
  /-- Out of its loop by itself; its `DisconnectOnDrop` not dropped. -/
  | leaving
  /-- Its abort was carried out; its `DisconnectOnDrop` not dropped. -/
  | cut
  | finished
  | cancelled
  deriving DecidableEq

/-- The other end of what a task waits for: the sender of its messages or,
for a reader, the conn-ready sender. -/
inductive Remote
  /-- With the setup: in its task, in the connection, or with the driver. -/
  | held
  /-- With the reader, sent, or published in `senders`. -/
  | passed
  | dropped
  deriving DecidableEq

structure Task where
  kind : TaskKind
  /-- The connection it is for. -/
  id : Nat
  pc : TaskPc
  /-- `abort` was called on its handle. -/
  aborted : Bool
  remote : Remote
  /-- The messages in its channel. -/
  queue : Nat
  deriving DecidableEq

def Task.new (kind : TaskKind) (id : Nat) : Task := ⟨kind, id, .starting, false, .held, 0⟩

/-- What a task does that can be seen from outside. -/
inductive Event
  | read
  /-- A message is decoded and counted. -/
  | decoded
  /-- A message is passed to `process_message`. -/
  | processed
  | wrote
  deriving DecidableEq

/-- Who made a disconnect: a `Node::disconnect`, a `shut_down`, or the
`DisconnectOnDrop` of a task or of an OnConnect hook. -/
inductive Cause
  | user
  | shutdown (n : Nat)
  | task (k : Handle)
  | hook (h : Handle)
  deriving DecidableEq

/-! ## The system -/

structure Handler where
  loop : HandlerLoop.State
  /-- The loop's task, once the handler is published. -/
  task : Option Handle
  /-- The connections, by their requests. -/
  items : List Nat

structure State where
  base : Hooks.State
  handlers : Stage → Handler
  conns : Table Nat Conn
  tasks : List Task
  /-- The OnConnect hooks that panicked, and those whose `DisconnectOnDrop`
  was dropped armed. -/
  panicked : List Handle
  disarmed : List Handle
  /-- The setups and the toggles that returned a `ShuttingDown` error, what
  the tasks did, and who made each disconnect (read by no step). -/
  denied : List Nat
  refused : List Nat
  log : List (Nat × Event)
  causes : List Cause

def State.init (cfg : NodeConfig) : State where
  base := .init cfg
  handlers _ := ⟨.init cfg.maxConnecting, none, []⟩
  conns := ∅
  tasks := []
  panicked := []
  disarmed := []
  denied := []
  refused := []
  log := []
  causes := []

inductive DriverAct
  /-- The next handler is looked up and triggered. -/
  | lookup
  /-- The send finds the channel closed. -/
  | sendFailed
  /-- The connection is back. -/
  | respond
  /-- The response is an error. -/
  | failed
  /-- The response sender is gone. -/
  | noResponse
  /-- The channel is found closed. -/
  | closing
  | graceExpired
  /-- The driver's future is dropped at an await. -/
  | cancel
  /-- The conn-ready notification. -/
  | ready
  deriving DecidableEq

inductive SetupAct
  /-- `perform_handshake` is called, and returns its future. -/
  | shake
  /-- The task panics outside its catches: `perform_handshake` does when it is
  called, or Reading's or Writing's setup does before it spawns its task. -/
  | panic
  /-- The handshake succeeds. -/
  | shaken
  /-- The response is an error: the handshake's, a caught panic or a timeout;
  or there is no codec or no stream. -/
  | fail (e : SetupError)
  | spawnProcessing
  | spawnReader
  | returnReading
  | spawnWriter
  | returnWriting
  deriving DecidableEq

inductive TaskAct
  /-- The first poll, with the readiness signal. -/
  | start
  /-- A reader's conn-ready receiver resolves. -/
  | connReady
  | read
  | decode
  | process
  /-- `queue_message`, accepted. -/
  | queueMessage
  | write
  /-- A writer's sender goes from `senders`. -/
  | unpublish
  /-- The task ends by itself, or panics. -/
  | leave
  /-- The task's abort is carried out. -/
  | cut
  /-- The task's `DisconnectOnDrop` is dropped. -/
  | dropGuard
  deriving DecidableEq

inductive Act
  | base (a : Hooks.Act)
  /-- A request's send, or the loop. -/
  | loop (st : Stage) (a : HandlerLoop.Act)
  /-- The loop's task, aborted, is dropped; then what is queued. -/
  | dropLoop (st : Stage)
  | dropItem (st : Stage)
  /-- The loop panics when it is to spawn the setup task of what it received. -/
  | panicLoop (st : Stage)
  /-- The driver of connection `id`. -/
  | driver (id : Nat) (a : DriverAct)
  /-- The setup task that has connection `id`. -/
  | setup (id : Nat) (a : SetupAct)
  | task (k : Handle) (a : TaskAct)
  /-- An OnConnect hook panics. -/
  | hookPanic (h : Handle)
  /-- The `DisconnectOnDrop` of an OnConnect hook is dropped armed. -/
  | hookGuard (h : Handle)
  deriving DecidableEq

namespace Handler

/-- The acts of a request's send are its driver's; those of the loop need
the loop. -/
def allows (x : Handler) : HandlerLoop.Act → Bool
  | .acquire _ | .write _ => true
  | .subscribe | .joinTask _ | .joinNone | .pollRecv | .pollShutdown | .wake | .dropTasks | .cancelTask _ | .exit =>
    x.task.isSome
  | _ => false

/-- The request that leaves the queue, or loses its setup task. -/
def takes (x : Handler) : HandlerLoop.Act → Option Nat
  | .pollRecv => if x.loop.pc = .recv then x.loop.chan.queue.head? else none
  | .cancelTask q => if (x.loop.reqs[q]?).any (·.pc = .spawned) then some q else none
  | _ => none

/-- `signal_handlers`, the value being stored or not. -/
def signaled (x : Handler) (stored : Bool) : Handler :=
  { x with loop := { x.loop with signal := x.loop.signal || stored } }

/-- The loop's future is dropped: the receiver closes the channel. -/
def unwind (x : Handler) : Handler :=
  { x with loop := { x.loop with chan := x.loop.chan.close, pc := .unwinding } }

/-- A new request, with connection `id`. -/
def request (x : Handler) (id : Nat) : Handler :=
  { x with loop := { x.loop with reqs := x.loop.reqs ++ [⟨.sending, false⟩] }, items := x.items ++ [id] }

end Handler

/-- `Connection::drop` for connection `id` with the tasks `hs`, and the drop
of what the setup had of theirs. -/
def release (tasks : List Task) (id : Nat) (hs : List Handle) : List Task :=
  tasks.mapIdx fun k t =>
    { t with
      aborted := t.aborted || k ∈ hs
      remote := if t.id = id ∧ t.remote = .held then .dropped else t.remote }

/-- `Connection::drop` alone. -/
def abortAll (tasks : List Task) (hs : List Handle) : List Task :=
  tasks.mapIdx fun k t => { t with aborted := t.aborted || k ∈ hs }

/-- The conn-ready notification reaches the reader of connection `id`. -/
def notifyReady (tasks : List Task) (id : Nat) : List Task :=
  tasks.map fun t => if t.id = id ∧ t.kind = .reader ∧ t.remote = .held then { t with remote := .passed } else t

/-- A message gets into the inbound queue of connection `id`. -/
def deliver (tasks : List Task) (id : Nat) : List Task :=
  tasks.map fun t =>
    if t.id = id ∧ t.kind = .processing ∧ t.remote = .passed then { t with queue := t.queue + 1 } else t

/-- The reader of connection `id` is gone, and with it the sender of the
inbound queue. -/
def closeInbound (tasks : List Task) (id : Nat) : List Task :=
  tasks.map fun t => if t.id = id ∧ t.kind = .processing ∧ t.remote = .passed then { t with remote := .dropped } else t

/-- Task `k`, which is `t`, is over. -/
def endTask (tasks : List Task) (k : Handle) (t : Task) (pc : TaskPc) : List Task :=
  let tasks := tasks.set k { t with pc := pc }
  if t.kind = .reader then closeInbound tasks t.id else tasks

namespace State

def put (s : State) (st : Stage) (x : Handler) : State := { s with handlers := Function.update s.handlers st x }

def set (s : State) (id : Nat) (c : Conn) : State := { s with conns := s.conns.insert id c }

/-- Connection `id`, which is `c`, is dropped by what has it. -/
def drop (s : State) (id : Nat) (c : Conn) : State :=
  { s with conns := s.conns.insert id { c with place := .dropped }, tasks := release s.tasks id c.tasks }

/-- A setup task sends connection `id` into the response oneshot of its
request `q`. -/
def giveBack (s : State) (id : Nat) (c : Conn) (st : Stage) (q : Nat) : State :=
  if c.pc.request = some (st, q) then s.set id { c with place := .reply } else s.drop id c

/-- The lifecycle's state. -/
def node (s : State) : Pea2Pea.State := s.base.base.base

/-- The connection of setup `i`. -/
def connOf (s : State) (i : Nat) : Option Nat := (s.node.setups[i]?).bind Setup.connId

/-- The setup task that spawned `k` awaits its readiness. -/
def awaited (s : State) (k : Handle) (id : Nat) : Bool := (s.conns.lookup id).any (·.place.awaits = some k)

/-- The steps of the hooks' system that are nobody's here: a setup fails in
`enable_protocols`, leaves it and goes on from its insertion by acts of its
own, every disconnect is somebody's, a loop's task ends with the loop, and
the shutdown signal is stored if one of the loops has subscribed. -/
def free (s : State) : Hooks.Act → Bool
  | .base (.base (.fail i)) => (s.connOf i).isNone
  | .base (.base (.wired i)) =>
    (s.connOf i).any fun id => (s.conns.lookup id).any (·.pc = .through)
  | .base (.base (.schedule i)) =>
    -- the conn-ready notification comes first
    (s.connOf i).any fun id => s.tasks.all fun t => ¬ (t.id = id ∧ t.kind = .reader ∧ t.remote = .held)
  | .base (.base (.disconnect _ origin connId)) => origin = .user ∧ connId = none
  | .base (.base (.disconnectOnDrop _ _ _)) => false
  | .base (.finishTask h) =>
    [Stage.handshake, .reading, .writing].all fun st =>
      (s.handlers st).task = some h → (s.handlers st).loop.pc = .exited
  | .base (.signalHandlers _ stored) =>
    stored || !([Stage.handshake, .reading, .writing].any fun st => (s.handlers st).loop.pc.subscribed)
  | _ => true

/-- A handler is published: the call's task is its loop's. -/
def wire (s : State) (c : Nat) (st : Stage) : Handler :=
  match s.base.base.calls[c]? with
  | some ⟨kind, _, .registered h⟩ =>
    if kind = st.kind ∧ kind ∉ s.base.base.published then { s.handlers st with task := some h } else s.handlers st
  | _ => s.handlers st

/-- A connection is somewhere else. -/
def move (s : State) (id : Option Nat) (place : Place) : State :=
  match id.bind fun id => (s.conns.lookup id).map (id, ·) with
  | some (id, c) => s.set id { c with place := place }
  | none => s

/-- What a step of the lifecycle is here besides. -/
def reactNode (s : State) : Pea2Pea.Act → State
  | .adapt i =>
    match s.node.setups[i]? with
    | some t => s.set s.node.nextId ⟨i, t.addr, .before .handshake, .driver, [], none, .ahead⟩
    | none => s
  | .start i => if s.node.flag then { s with denied := i :: s.denied } else s
  | .checkFlag i =>
    if s.node.flag then
      match (s.connOf i).bind fun id => (s.conns.lookup id).map (id, ·) with
      | some (id, c) => { s.drop id c with denied := i :: s.denied }
      | none => { s with denied := i :: s.denied }
    else s
  | .insert i _ => s.move (s.connOf i) .active
  | .remove j => s.move ((s.node.discs[j]?).bind fun d => (s.node.active.lookup d.addr).map (·.id)) .removed
  | .notifyDrain j =>
    match s.node.discs[j]? with
    | some ⟨_, _, _, .removed _ got⟩ =>
      { s.move (some got) .dropped with
        tasks := abortAll s.tasks ((s.conns.lookup got).elim [] (·.tasks)) }
    | _ => s
  | .disconnect _ _ _ => { s with causes := s.causes ++ [.user] }
  | _ => s

/-- What a step of the hooks' system is here besides. -/
def react (s : State) : Hooks.Act → State
  | .base (.base a) => s.reactNode a
  | .base (.publish c) => { s with handlers := s.wire c }
  | .base (.signalHandlers _ stored) => { s with handlers := fun st => (s.handlers st).signaled stored }
  | .base (.toggleOff c) =>
    if s.base.base.registry.lookup .listener = none then { s with refused := c :: s.refused } else s
  | .base (.checkFlag c) =>
    -- an `enable_*` returns nothing
    if s.node.flag ∧ (s.base.base.calls[c]?).any (·.kind = .listener) then { s with refused := c :: s.refused } else s
  | .base (.snapshot n addrs) => { s with causes := s.causes ++ addrs.map fun _ => .shutdown n }
  | _ => s

/-- The cause of a disconnect that a dropped guard may have made. -/
def fire (s : State) (b : Hooks.State) (cause : Cause) : List Cause :=
  if s.node.discs.length < b.base.base.discs.length then s.causes ++ [cause] else s.causes

end State

section

variable (cfg : NodeConfig) (abortable : Bool) (s : State)

/-- The driver of `c` returns an error, or is dropped. -/
def stepFail (c : Conn) : Option Hooks.State := Hooks.step cfg abortable s.base (.base (.base (.fail c.driver)))

/-- `DisconnectOnDrop::drop`. -/
def stepGuard (addr : SocketAddr) (origin : DisconnectOrigin) (id : Nat) : Option Hooks.State :=
  Hooks.step cfg abortable s.base (.base (.base (.disconnectOnDrop addr origin id)))

/-- The driver of connection `id`, which is `c`. -/
def stepDriver (id : Nat) (c : Conn) : DriverAct → Option State
  | .lookup =>
    match c.pc with
    | .before st =>
      let x := s.handlers st
      match x.task with
      | some _ =>
        some ((s.put st (x.request id)).set id { c with
          pc := .waiting st x.loop.reqs.length
          place := .request st x.loop.reqs.length
          error := none
          handshake := if st = .handshake then .begun else c.handshake })
      | none =>
        some (s.set id { c with
          pc := st.next
          handshake := if st = .handshake then .skipped else c.handshake })
    | _ => none
  | .sendFailed =>
    match c.pc with
    | .waiting st q => do
      let x := s.handlers st
      if x.loop.chan.closed then
        let l ← HandlerLoop.step .setup x.loop (.giveUp q)
        some ((s.put st { x with loop := l }).drop id c)
      else none
    | _ => none
  | .respond => do
    let (st, _) ← c.pc.request
    if c.place = .reply then some (s.set id { c with pc := st.next, place := .driver }) else none
  | .failed => do
    let _ ← c.pc.request
    let e ← c.error
    let b ← stepFail cfg abortable s c
    some { s.set id { c with pc := .over } with
      base := b
      denied := if e = .shuttingDown then c.driver :: s.denied else s.denied }
  | .noResponse => do
    let (st, q) ← c.pc.request
    let r ← (s.handlers st).loop.reqs[q]?
    let b ← stepFail cfg abortable s c
    if r.pc = .dropped ∨ r.pc = .unsent then
      some { s.set id { c with pc := .over } with base := b, denied := c.driver :: s.denied }
    else none
  | .closing =>
    match c.pc with
    | .waiting st q => do
      let x := s.handlers st
      let r ← x.loop.reqs[q]?
      if x.loop.chan.closed ∧ r.pc ≠ .sending ∧ r.pc ≠ .acquired then some (s.set id { c with pc := .grace st q })
      else none
    | _ => none
  | .graceExpired =>
    match c.pc with
    | .grace _ _ => do
      let b ← stepFail cfg abortable s c
      -- a response that is there is taken
      if c.place ≠ .reply ∧ c.error = none then
        some { s.set id { c with pc := .over } with base := b, denied := c.driver :: s.denied }
      else none
    | _ => none
  | .cancel => do
    let (st, q) ← c.pc.request
    let x := s.handlers st
    let r ← x.loop.reqs[q]?
    let b ← stepFail cfg abortable s c
    match r.pc with
    -- between the slot and the write there is no await
    | .acquired => none
    | .sending => do
      let l ← HandlerLoop.step .setup x.loop (.giveUp q)
      some { (s.put st { x with loop := l }).drop id { c with pc := .over } with base := b }
    | _ =>
      if c.place = .reply then some { s.drop id { c with pc := .over } with base := b }
      else some { s.set id { c with pc := .over } with base := b }
  | .ready => do
    let t ← s.node.setups[c.driver]?
    match t.pc with
    | .established id' _ => if id' = id then some { s with tasks := notifyReady s.tasks id } else none
    | _ => none

/-- The setup task of request `q`, which has connection `id`. -/
def stepSetup (id : Nat) (c : Conn) (st : Stage) (q : Nat) (pc : SetupTaskPc) : SetupAct → Option State
  | .shake =>
    if st = .handshake ∧ pc = .fresh then some (s.set id { c with place := .setup st q .shaking }) else none
  | .panic => do
    let x := s.handlers st
    let l ← HandlerLoop.step .setup x.loop (.panic q)
    -- the connection is with the call
    if pc = .fresh then some ((s.put st { x with loop := l }).drop id c) else none
  | .shaken => do
    let x := s.handlers st
    let l ← HandlerLoop.step .setup x.loop (.complete q)
    if pc = .shaking then
      some ((s.put st { x with loop := l }).giveBack id { c with handshake := .succeeded } st q)
    else none
  | .fail e => do
    let x := s.handlers st
    let l ← HandlerLoop.step .setup x.loop (.complete q)
    if pc = .shaking ∨ st ≠ .handshake ∧ pc = .fresh ∧ e = .other then
      some ((s.put st { x with loop := l }).drop id { c with error := some e })
    else none
  | .spawnProcessing =>
    if st = .reading ∧ pc = .fresh then
      some { s.set id { c with place := .setup st q (.awaiting s.tasks.length) } with
        tasks := s.tasks ++ [.new .processing id] }
    else none
  | .spawnReader =>
    match pc with
    | .awaiting k => do
      let t ← s.tasks[k]?
      if t.kind = .processing ∧ t.pc ≠ .starting then
        some { s.set id { c with tasks := c.tasks ++ [k], place := .setup st q (.awaiting s.tasks.length) } with
          tasks := s.tasks.set k { t with remote := .passed } ++ [.new .reader id] }
      else none
    | _ => none
  | .returnReading =>
    match pc with
    | .awaiting k => do
      let t ← s.tasks[k]?
      let x := s.handlers st
      let l ← HandlerLoop.step .setup x.loop (.complete q)
      if t.kind = .reader ∧ t.pc ≠ .starting then
        some ((s.put st { x with loop := l }).giveBack id { c with tasks := c.tasks ++ [k] } st q)
      else none
    | _ => none
  | .spawnWriter =>
    if st = .writing ∧ pc = .fresh then
      some { s.set id { c with place := .setup st q (.awaiting s.tasks.length) } with
        tasks := s.tasks ++ [.new .writer id] }
    else none
  | .returnWriting =>
    match pc with
    | .awaiting k => do
      let t ← s.tasks[k]?
      let x := s.handlers st
      let l ← HandlerLoop.step .setup x.loop (.complete q)
      if t.kind = .writer ∧ t.pc ≠ .starting then
        -- `adopt_writer`, and the response
        some ({ s.put st { x with loop := l } with tasks := s.tasks.set k { t with remote := .passed } }.giveBack id
          { c with tasks := c.tasks ++ [k] } st q)
      else none
    | _ => none

/-- The task `k`, which is `t`. -/
def stepTask (k : Handle) (t : Task) : TaskAct → Option State
  | .start =>
    if t.pc = .starting then
      if s.awaited k t.id then
        some { s with tasks := s.tasks.set k { t with pc := if t.kind = .reader then .waiting else .running } }
      else some { s with tasks := endTask s.tasks k t .finished }
    else none
  | .connReady =>
    if t.pc = .waiting then
      match t.remote with
      | .held => none
      | .passed => some { s with tasks := s.tasks.set k { t with pc := .running } }
      | .dropped => some { s with tasks := endTask s.tasks k t .finished }
    else none
  | .read =>
    if t.kind = .reader ∧ t.pc = .running then some { s with log := s.log ++ [(t.id, .read)] } else none
  | .decode =>
    if t.kind = .reader ∧ t.pc = .running then
      some { s with tasks := deliver s.tasks t.id, log := s.log ++ [(t.id, .decoded)] }
    else none
  | .process =>
    if t.kind = .processing ∧ t.pc = .running ∧ 0 < t.queue then
      some { s with tasks := s.tasks.set k { t with queue := t.queue - 1 }, log := s.log ++ [(t.id, .processed)] }
    else none
  | .queueMessage =>
    if t.kind = .writer ∧ t.remote = .passed then some { s with tasks := s.tasks.set k { t with queue := t.queue + 1 } }
    else none
  | .write =>
    if t.kind = .writer ∧ t.pc = .running ∧ 0 < t.queue then
      some { s with tasks := s.tasks.set k { t with queue := t.queue - 1 }, log := s.log ++ [(t.id, .wrote)] }
    else none
  | .unpublish =>
    if t.kind = .writer ∧ t.remote = .passed then some { s with tasks := s.tasks.set k { t with remote := .dropped } }
    else none
  | .leave => if t.pc = .running then some { s with tasks := s.tasks.set k { t with pc := .leaving } } else none
  | .cut =>
    if t.aborted then
      match t.pc with
      | .starting | .waiting => some { s with tasks := endTask s.tasks k t .cancelled }
      | .running => some { s with tasks := s.tasks.set k { t with pc := .cut } }
      | _ => none
    else none
  | .dropGuard => do
    let c ← s.conns.lookup t.id
    let b ← stepGuard cfg abortable s c.addr t.kind.origin t.id
    match t.pc with
    | .leaving => some { s with base := b, tasks := endTask s.tasks k t .finished, causes := s.fire b (.task k) }
    | .cut => some { s with base := b, tasks := endTask s.tasks k t .cancelled, causes := s.fire b (.task k) }
    | _ => none

def step : Act → Option State
  | .base a => do
    let b ← Hooks.step cfg abortable s.base a
    if s.free a then some { s.react a with base := b } else none
  | .loop st a => do
    let x := s.handlers st
    let l ← HandlerLoop.step .setup x.loop a
    if x.allows a then
      let s' := s.put st { x with loop := l }
      match x.takes a with
      | some q => do
        let id ← x.items[q]?
        let c ← s.conns.lookup id
        if a = .pollRecv ∧ x.loop.draining = false then some (s'.set id { c with place := .setup st q .fresh })
        else some (s'.drop id c)
      | none => some s'
    else none
  | .dropLoop st => do
    let x := s.handlers st
    let h ← x.task
    let t ← s.base.base.tasks[h]?
    if t.status = .aborted ∧ x.loop.pc = .parked then some (s.put st x.unwind) else none
  | .dropItem st => do
    let x := s.handlers st
    match x.loop.pc, x.loop.chan.queue with
    | .unwinding, q :: queue => do
      let r ← x.loop.reqs[q]?
      let id ← x.items[q]?
      let c ← s.conns.lookup id
      let l := { x.loop.reqGoto q r .dropped with chan := { x.loop.chan with queue := queue } }
      some ((s.put st { x with loop := l }).drop id c)
    | _, _ => none
  | .panicLoop st =>
    let x := s.handlers st
    if x.task.isSome ∧ x.loop.pc = .recv ∧ x.loop.draining = false ∧ x.loop.chan.queue ≠ [] then
      some (s.put st x.unwind)
    else none
  | .driver id a => do
    let c ← s.conns.lookup id
    stepDriver cfg abortable s id c a
  | .setup id a => do
    let c ← s.conns.lookup id
    match c.place with
    | .setup st q pc => stepSetup s id c st q pc a
    | _ => none
  | .task k a => do
    let t ← s.tasks[k]?
    stepTask cfg abortable s k t a
  | .hookPanic h => do
    let y ← s.base.hooks[h]?
    let b ← Hooks.step cfg abortable s.base (.hookDone h)
    if y.side = .connect then some { s with base := b, panicked := h :: s.panicked } else none
  | .hookGuard h => do
    let y ← s.base.hooks[h]?
    let t ← s.base.connect.triggers[y.trigger]?
    let u ← s.node.scheds[t.owner]?
    let b ← stepGuard cfg abortable s u.addr .onConnectAbort t.id
    if y.side = .connect ∧ (h ∈ s.panicked ∨ y.status = .aborted) ∧ h ∉ s.disarmed then
      some { s with base := b, disarmed := h :: s.disarmed, causes := s.fire b (.hook h) }
    else none

end

/-- The node with its protocols; `abortable` is `OnConnect::ABORTABLE`. -/
def protocols (cfg : NodeConfig) (abortable : Bool) : Machine State Act := ⟨.init cfg, step cfg abortable⟩

/-! ## The steps as a relation -/

section

variable (cfg : NodeConfig) (abortable : Bool) (s : State)

inductive DriverR (id : Nat) (c : Conn) : DriverAct → State → Prop
  | lookup {st h} (hpc : c.pc = .before st) (ht : (s.handlers st).task = some h) :
      DriverR id c .lookup ((s.put st ((s.handlers st).request id)).set id { c with
        pc := .waiting st (s.handlers st).loop.reqs.length
        place := .request st (s.handlers st).loop.reqs.length
        error := none
        handshake := if st = .handshake then .begun else c.handshake })
  | skip {st} (hpc : c.pc = .before st) (ht : (s.handlers st).task = none) :
      DriverR id c .lookup (s.set id { c with
        pc := st.next
        handshake := if st = .handshake then .skipped else c.handshake })
  | sendFailed {st q l} (hpc : c.pc = .waiting st q) (hx : (s.handlers st).loop.chan.closed = true)
      (hl : HandlerLoop.step .setup (s.handlers st).loop (.giveUp q) = some l) :
      DriverR id c .sendFailed ((s.put st { s.handlers st with loop := l }).drop id c)
  | respond {st q} (hpc : c.pc.request = some (st, q)) (hp : c.place = .reply) :
      DriverR id c .respond (s.set id { c with pc := st.next, place := .driver })
  | failed {st q e b} (hpc : c.pc.request = some (st, q)) (he : c.error = some e)
      (hb : stepFail cfg abortable s c = some b) :
      DriverR id c .failed { s.set id { c with pc := .over } with
        base := b
        denied := if e = .shuttingDown then c.driver :: s.denied else s.denied }
  | noResponse {st q r b} (hpc : c.pc.request = some (st, q)) (hr : (s.handlers st).loop.reqs[q]? = some r)
      (hb : stepFail cfg abortable s c = some b) (hrpc : r.pc = .dropped ∨ r.pc = .unsent) :
      DriverR id c .noResponse
        { s.set id { c with pc := .over } with base := b, denied := c.driver :: s.denied }
  | closing {st q r} (hpc : c.pc = .waiting st q) (hr : (s.handlers st).loop.reqs[q]? = some r)
      (hx : (s.handlers st).loop.chan.closed = true) :
      DriverR id c .closing (s.set id { c with pc := .grace st q })
  | graceExpired {st q b} (hpc : c.pc = .grace st q) (hb : stepFail cfg abortable s c = some b)
      (hp : c.place ≠ .reply) :
      DriverR id c .graceExpired
        { s.set id { c with pc := .over } with base := b, denied := c.driver :: s.denied }
  | cancelSending {st q r b l} (hpc : c.pc.request = some (st, q)) (hr : (s.handlers st).loop.reqs[q]? = some r)
      (hrpc : r.pc = .sending) (hb : stepFail cfg abortable s c = some b)
      (hl : HandlerLoop.step .setup (s.handlers st).loop (.giveUp q) = some l) :
      DriverR id c .cancel
        { (s.put st { s.handlers st with loop := l }).drop id { c with pc := .over } with base := b }
  | cancelReply {st q b} (hpc : c.pc.request = some (st, q)) (hp : c.place = .reply)
      (hb : stepFail cfg abortable s c = some b) :
      DriverR id c .cancel { s.drop id { c with pc := .over } with base := b }
  | cancelWaiting {st q b} (hpc : c.pc.request = some (st, q)) (hp : c.place ≠ .reply)
      (hb : stepFail cfg abortable s c = some b) :
      DriverR id c .cancel { s.set id { c with pc := .over } with base := b }
  | ready {t sched} (ht : s.node.setups[c.driver]? = some t) (hpc : t.pc = .established id sched) :
      DriverR id c .ready { s with tasks := notifyReady s.tasks id }

inductive SetupR (id : Nat) (c : Conn) (st : Stage) (q : Nat) : SetupTaskPc → SetupAct → State → Prop
  | shake (hst : st = .handshake) :
      SetupR id c st q .fresh .shake (s.set id { c with place := .setup st q .shaking })
  | panic {l} (hl : HandlerLoop.step .setup (s.handlers st).loop (.panic q) = some l) :
      SetupR id c st q .fresh .panic ((s.put st { s.handlers st with loop := l }).drop id c)
  | shaken {l} (hl : HandlerLoop.step .setup (s.handlers st).loop (.complete q) = some l) :
      SetupR id c st q .shaking .shaken
        ((s.put st { s.handlers st with loop := l }).giveBack id { c with handshake := .succeeded } st q)
  | fail {pc e l} (hl : HandlerLoop.step .setup (s.handlers st).loop (.complete q) = some l)
      (hpc : pc = .shaking ∨ st ≠ .handshake ∧ pc = .fresh ∧ e = .other) :
      SetupR id c st q pc (.fail e) ((s.put st { s.handlers st with loop := l }).drop id { c with error := some e })
  | spawn {a kind} (hk : kind ≠ .reader) (hst : st ≠ .handshake) :
      SetupR id c st q .fresh a { s.set id { c with place := .setup st q (.awaiting s.tasks.length) } with
        tasks := s.tasks ++ [.new kind id] }
  | spawnReader {k t} (ht : s.tasks[k]? = some t) (hk : t.kind = .processing) (htpc : t.pc ≠ .starting) :
      SetupR id c st q (.awaiting k) .spawnReader
        { s.set id { c with tasks := c.tasks ++ [k], place := .setup st q (.awaiting s.tasks.length) } with
          tasks := s.tasks.set k { t with remote := .passed } ++ [.new .reader id] }
  | returnReading {k t l} (ht : s.tasks[k]? = some t) (hk : t.kind = .reader) (htpc : t.pc ≠ .starting)
      (hl : HandlerLoop.step .setup (s.handlers st).loop (.complete q) = some l) :
      SetupR id c st q (.awaiting k) .returnReading
        ((s.put st { s.handlers st with loop := l }).giveBack id { c with tasks := c.tasks ++ [k] } st q)
  | returnWriting {k t l} (ht : s.tasks[k]? = some t) (hk : t.kind = .writer) (htpc : t.pc ≠ .starting)
      (hl : HandlerLoop.step .setup (s.handlers st).loop (.complete q) = some l) :
      SetupR id c st q (.awaiting k) .returnWriting
        ({ s.put st { s.handlers st with loop := l } with
          tasks := s.tasks.set k { t with remote := .passed } }.giveBack id { c with tasks := c.tasks ++ [k] } st q)

inductive TaskR (k : Handle) (t : Task) : TaskAct → State → Prop
  | start (hpc : t.pc = .starting) (ha : s.awaited k t.id = true) :
      TaskR k t .start
        { s with tasks := s.tasks.set k { t with pc := if t.kind = .reader then .waiting else .running } }
  | startFailed (hpc : t.pc = .starting) (ha : s.awaited k t.id = false) :
      TaskR k t .start { s with tasks := endTask s.tasks k t .finished }
  | connReady (hpc : t.pc = .waiting) (hr : t.remote = .passed) :
      TaskR k t .connReady { s with tasks := s.tasks.set k { t with pc := .running } }
  | connGone (hpc : t.pc = .waiting) (hr : t.remote = .dropped) :
      TaskR k t .connReady { s with tasks := endTask s.tasks k t .finished }
  | read (hk : t.kind = .reader) (hpc : t.pc = .running) : TaskR k t .read { s with log := s.log ++ [(t.id, .read)] }
  | decode (hk : t.kind = .reader) (hpc : t.pc = .running) :
      TaskR k t .decode { s with tasks := deliver s.tasks t.id, log := s.log ++ [(t.id, .decoded)] }
  | process (hk : t.kind = .processing) (hpc : t.pc = .running) (hq : 0 < t.queue) :
      TaskR k t .process
        { s with tasks := s.tasks.set k { t with queue := t.queue - 1 }, log := s.log ++ [(t.id, .processed)] }
  | queueMessage (hk : t.kind = .writer) (hr : t.remote = .passed) :
      TaskR k t .queueMessage { s with tasks := s.tasks.set k { t with queue := t.queue + 1 } }
  | write (hk : t.kind = .writer) (hpc : t.pc = .running) (hq : 0 < t.queue) :
      TaskR k t .write
        { s with tasks := s.tasks.set k { t with queue := t.queue - 1 }, log := s.log ++ [(t.id, .wrote)] }
  | unpublish (hk : t.kind = .writer) (hr : t.remote = .passed) :
      TaskR k t .unpublish { s with tasks := s.tasks.set k { t with remote := .dropped } }
  | leave (hpc : t.pc = .running) : TaskR k t .leave { s with tasks := s.tasks.set k { t with pc := .leaving } }
  | cutEarly (ha : t.aborted = true) (hpc : t.pc = .starting ∨ t.pc = .waiting) :
      TaskR k t .cut { s with tasks := endTask s.tasks k t .cancelled }
  | cut (ha : t.aborted = true) (hpc : t.pc = .running) :
      TaskR k t .cut { s with tasks := s.tasks.set k { t with pc := .cut } }
  | left {c b} (hpc : t.pc = .leaving) (hc : s.conns.lookup t.id = some c)
      (hb : stepGuard cfg abortable s c.addr t.kind.origin t.id = some b) :
      TaskR k t .dropGuard
        { s with base := b, tasks := endTask s.tasks k t .finished, causes := s.fire b (.task k) }
  | cutOff {c b} (hpc : t.pc = .cut) (hc : s.conns.lookup t.id = some c)
      (hb : stepGuard cfg abortable s c.addr t.kind.origin t.id = some b) :
      TaskR k t .dropGuard
        { s with base := b, tasks := endTask s.tasks k t .cancelled, causes := s.fire b (.task k) }

inductive StepR : Act → State → Prop
  | base {a b} (hb : Hooks.step cfg abortable s.base a = some b) (hf : s.free a = true) :
      StepR (.base a) { s.react a with base := b }
  | loop {st a l} (ha : (s.handlers st).allows a = true)
      (hl : HandlerLoop.step .setup (s.handlers st).loop a = some l) (hq : (s.handlers st).takes a = none) :
      StepR (.loop st a) (s.put st { s.handlers st with loop := l })
  | receive {st l q id c} (hl : HandlerLoop.step .setup (s.handlers st).loop .pollRecv = some l)
      (hq : (s.handlers st).takes .pollRecv = some q) (hd : (s.handlers st).loop.draining = false)
      (hi : (s.handlers st).items[q]? = some id) (hc : s.conns.lookup id = some c) :
      StepR (.loop st .pollRecv)
        ((s.put st { s.handlers st with loop := l }).set id { c with place := .setup st q .fresh })
  | release {st a l q id c} (ha : (s.handlers st).allows a = true)
      (hl : HandlerLoop.step .setup (s.handlers st).loop a = some l)
      (hq : (s.handlers st).takes a = some q) (hd : a = .pollRecv → (s.handlers st).loop.draining = true)
      (hi : (s.handlers st).items[q]? = some id) (hc : s.conns.lookup id = some c) :
      StepR (.loop st a) ((s.put st { s.handlers st with loop := l }).drop id c)
  | dropLoop {st h t} (hx : (s.handlers st).task = some h) (ht : s.base.base.tasks[h]? = some t)
      (ha : t.status = .aborted) (hpc : (s.handlers st).loop.pc = .parked) :
      StepR (.dropLoop st) (s.put st (s.handlers st).unwind)
  | panicLoop {st} (hx : (s.handlers st).task.isSome = true) (hpc : (s.handlers st).loop.pc = .recv) :
      StepR (.panicLoop st) (s.put st (s.handlers st).unwind)
  | dropItem {st q queue r id c} (hpc : (s.handlers st).loop.pc = .unwinding)
      (hq : (s.handlers st).loop.chan.queue = q :: queue) (hr : (s.handlers st).loop.reqs[q]? = some r)
      (hi : (s.handlers st).items[q]? = some id) (hc : s.conns.lookup id = some c) :
      StepR (.dropItem st) ((s.put st { s.handlers st with
        loop := { (s.handlers st).loop.reqGoto q r .dropped with
          chan := { (s.handlers st).loop.chan with queue := queue } } }).drop id c)
  | driver {id c a s'} (hc : s.conns.lookup id = some c) (h : DriverR cfg abortable s id c a s') :
      StepR (.driver id a) s'
  | setup {id c st q pc a s'} (hc : s.conns.lookup id = some c) (hp : c.place = .setup st q pc)
      (h : SetupR s id c st q pc a s') : StepR (.setup id a) s'
  | task {k t a s'} (ht : s.tasks[k]? = some t) (h : TaskR cfg abortable s k t a s') : StepR (.task k a) s'
  | hookPanic {h y b} (hy : s.base.hooks[h]? = some y) (hside : y.side = .connect)
      (hb : Hooks.step cfg abortable s.base (.hookDone h) = some b) :
      StepR (.hookPanic h) { s with base := b, panicked := h :: s.panicked }
  | hookGuard {h y t u b} (hy : s.base.hooks[h]? = some y) (hside : y.side = .connect)
      (ht : s.base.connect.triggers[y.trigger]? = some t) (hu : s.node.scheds[t.owner]? = some u)
      (hb : stepGuard cfg abortable s u.addr .onConnectAbort t.id = some b)
      (ha : h ∈ s.panicked ∨ y.status = .aborted) :
      StepR (.hookGuard h) { s with base := b, disarmed := h :: s.disarmed, causes := s.fire b (.hook h) }

end

section

variable {cfg : NodeConfig} {abortable : Bool} {s s' : State}

theorem DriverPc.request_cases {pc : DriverPc} {st : Stage} {q : Nat} (h : pc.request = some (st, q)) :
    pc = .waiting st q ∨ pc = .grace st q := by
  cases pc <;> simp_all [DriverPc.request]

theorem stepDriver_sound {id : Nat} {c : Conn} {a : DriverAct} (h : stepDriver cfg abortable s id c a = some s') :
    DriverR cfg abortable s id c a s' := by
  cases a <;> simp only [stepDriver, Option.bind_eq_bind] at h
  case lookup =>
    split at h
    next hpc =>
      split at h
      next ht => cases h; exact .lookup hpc ht
      next ht => cases h; exact .skip hpc ht
    · cases h
  case sendFailed =>
    split at h
    next hpc =>
      split at h
      next hx =>
        obtain ⟨l, hl, h⟩ := Option.bind_eq_some_iff.mp h
        cases h
        exact .sendFailed hpc hx hl
      · cases h
    · cases h
  case respond =>
    obtain ⟨⟨st, q⟩, hpc, h⟩ := Option.bind_eq_some_iff.mp h
    simp only at h
    split at h
    next hp => cases h; exact .respond hpc hp
    · cases h
  case failed =>
    simp only [Option.bind_eq_some_iff] at h
    obtain ⟨⟨st, q⟩, hpc, e, he, b, hb, h⟩ := h
    cases h
    exact .failed hpc he hb
  case noResponse =>
    simp only [Option.bind_eq_some_iff] at h
    obtain ⟨⟨st, q⟩, hpc, r, hr, b, hb, h⟩ := h
    split at h
    next hrpc => cases h; exact .noResponse hpc hr hb hrpc
    · cases h
  case closing =>
    split at h
    next hpc =>
      obtain ⟨r, hr, h⟩ := Option.bind_eq_some_iff.mp h
      split at h
      next hx => cases h; exact .closing hpc hr hx.1
      · cases h
    · cases h
  case graceExpired =>
    split at h
    next hpc =>
      obtain ⟨b, hb, h⟩ := Option.bind_eq_some_iff.mp h
      split at h
      next hp => cases h; exact .graceExpired hpc hb hp.1
      · cases h
    · cases h
  case cancel =>
    simp only [Option.bind_eq_some_iff] at h
    obtain ⟨⟨st, q⟩, hpc, r, hr, b, hb, h⟩ := h
    split at h
    · cases h
    next hrpc =>
      obtain ⟨l, hl, h⟩ := Option.bind_eq_some_iff.mp h
      cases h
      exact .cancelSending hpc hr hrpc hb hl
    · split at h
      next hp => cases h; exact .cancelReply hpc hp hb
      next hp => cases h; exact .cancelWaiting hpc hp hb
  case ready =>
    obtain ⟨t, ht, h⟩ := Option.bind_eq_some_iff.mp h
    split at h
    next hpc =>
      split at h
      next hid => cases h; exact .ready ht (hid ▸ hpc)
      · cases h
    · cases h

theorem stepSetup_sound {id : Nat} {c : Conn} {st : Stage} {q : Nat} {pc : SetupTaskPc} {a : SetupAct}
    (h : stepSetup s id c st q pc a = some s') : SetupR s id c st q pc a s' := by
  cases a <;> simp only [stepSetup, Option.bind_eq_bind] at h
  case shake =>
    split at h
    next hc => obtain ⟨hst, rfl⟩ := hc; cases h; exact .shake hst
    · cases h
  case panic =>
    obtain ⟨l, hl, hs⟩ := Option.bind_eq_some_iff.mp h
    split at hs
    next hc => subst hc; cases hs; exact .panic hl
    · cases hs
  case shaken =>
    obtain ⟨l, hl, hs⟩ := Option.bind_eq_some_iff.mp h
    split at hs
    next hc => subst hc; cases hs; exact .shaken hl
    · cases hs
  case fail =>
    obtain ⟨l, hl, h⟩ := Option.bind_eq_some_iff.mp h
    split at h
    next hc => cases h; exact .fail hl hc
    · cases h
  case spawnProcessing =>
    split at h
    next hc => obtain ⟨rfl, rfl⟩ := hc; cases h; exact .spawn (by simp) (by simp)
    · cases h
  case spawnWriter =>
    split at h
    next hc => obtain ⟨rfl, rfl⟩ := hc; cases h; exact .spawn (by simp) (by simp)
    · cases h
  case spawnReader =>
    split at h
    next k =>
      obtain ⟨t, ht, h⟩ := Option.bind_eq_some_iff.mp h
      split at h
      next hc => cases h; exact .spawnReader ht hc.1 hc.2
      · cases h
    · cases h
  case returnReading =>
    split at h
    next k =>
      simp only [Option.bind_eq_some_iff] at h
      obtain ⟨t, ht, l, hl, h⟩ := h
      split at h
      next hc => cases h; exact .returnReading ht hc.1 hc.2 hl
      · cases h
    · cases h
  case returnWriting =>
    split at h
    next k =>
      simp only [Option.bind_eq_some_iff] at h
      obtain ⟨t, ht, l, hl, h⟩ := h
      split at h
      next hc => cases h; exact .returnWriting ht hc.1 hc.2 hl
      · cases h
    · cases h

theorem stepTask_sound {k : Handle} {t : Task} {a : TaskAct} (h : stepTask cfg abortable s k t a = some s') :
    TaskR cfg abortable s k t a s' := by
  cases a <;> simp only [stepTask, Option.bind_eq_bind] at h
  case start =>
    split at h
    next hpc =>
      split at h
      next ha => cases h; exact .start hpc ha
      next ha => cases h; exact .startFailed hpc (by simpa using ha)
    · cases h
  case connReady =>
    split at h
    next hpc =>
      split at h
      · cases h
      next hr => cases h; exact .connReady hpc hr
      next hr => cases h; exact .connGone hpc hr
    · cases h
  case read =>
    split at h
    next hc => cases h; exact .read hc.1 hc.2
    · cases h
  case decode =>
    split at h
    next hc => cases h; exact .decode hc.1 hc.2
    · cases h
  case process =>
    split at h
    next hc => cases h; exact .process hc.1 hc.2.1 hc.2.2
    · cases h
  case queueMessage =>
    split at h
    next hc => cases h; exact .queueMessage hc.1 hc.2
    · cases h
  case write =>
    split at h
    next hc => cases h; exact .write hc.1 hc.2.1 hc.2.2
    · cases h
  case unpublish =>
    split at h
    next hc => cases h; exact .unpublish hc.1 hc.2
    · cases h
  case leave =>
    split at h
    next hpc => cases h; exact .leave hpc
    · cases h
  case cut =>
    split at h
    next ha =>
      split at h
      next hpc => cases h; exact .cutEarly ha (.inl hpc)
      next hpc => cases h; exact .cutEarly ha (.inr hpc)
      next hpc => cases h; exact .cut ha hpc
      · cases h
    · cases h
  case dropGuard =>
    simp only [Option.bind_eq_some_iff] at h
    obtain ⟨c, hc, b, hb, h⟩ := h
    split at h
    next hpc => cases h; exact .left hpc hc hb
    next hpc => cases h; exact .cutOff hpc hc hb
    · cases h

theorem step_sound {a : Act} (h : step cfg abortable s a = some s') : StepR cfg abortable s a s' := by
  cases a <;> simp only [step, Option.bind_eq_bind, Option.bind_eq_some_iff] at h
  case base =>
    obtain ⟨b, hb, h⟩ := h
    split at h
    next hf => cases h; exact .base hb hf
    · cases h
  case loop st a =>
    obtain ⟨l, hl, h⟩ := h
    split at h
    next ha =>
      split at h
      next q hq =>
        simp only [Option.bind_eq_some_iff] at h
        obtain ⟨id, hi, c, hc, h⟩ := h
        split at h
        next hd =>
          obtain ⟨rfl, hd⟩ := hd
          cases h
          exact .receive hl hq hd hi hc
        next hd =>
          cases h
          exact .release ha hl hq (fun he => by simpa [he] using hd) hi hc
      next hq => cases h; exact .loop ha hl hq
    · cases h
  case dropLoop =>
    obtain ⟨w, hx, t, ht, h⟩ := h
    split at h
    next hc => cases h; exact .dropLoop hx ht hc.1 hc.2
    · cases h
  case dropItem =>
    split at h
    next hpc hq =>
      simp only [Option.bind_eq_some_iff] at h
      obtain ⟨r, hr, id, hi, c, hc, h⟩ := h
      cases h
      exact .dropItem hpc hq hr hi hc
    · cases h
  case panicLoop =>
    split at h
    next hc => cases h; exact .panicLoop hc.1 hc.2.1
    · cases h
  case driver =>
    obtain ⟨c, hc, h⟩ := h
    exact .driver hc (stepDriver_sound h)
  case setup =>
    obtain ⟨c, hc, h⟩ := h
    split at h
    next hp => exact .setup hc hp (stepSetup_sound h)
    · cases h
  case task =>
    obtain ⟨t, ht, h⟩ := h
    exact .task ht (stepTask_sound h)
  case hookPanic =>
    obtain ⟨y, hy, b, hb, h⟩ := h
    split at h
    next hside => cases h; exact .hookPanic hy hside hb
    · cases h
  case hookGuard =>
    obtain ⟨y, hy, t, ht, u, hu, b, hb, h⟩ := h
    split at h
    next hc => cases h; exact .hookGuard hy hc.1 ht hu hb hc.2.1
    · cases h

end

end Pea2Pea.Protocols
