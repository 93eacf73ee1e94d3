/-
`shut_down` over the lifecycle, with the calls it races against:
`toggle_listener` and the protocols' `enable_*` (`install_protocol_handler`),
which spawn the node's long-running tasks and hand them to the task
registry.

The critical sections of `tasks` and `listening_addr` that load the shutdown
flag or await something are several steps, and `tasksLock`, `listenLock` name
the call inside; the others are one step, taken when their lock is free. The
disconnects of a call's fan-out are lifecycle disconnects at the positions
`lo` to `hi`: they belong to the call, so only its own drop cancels them.
`JoinHandle::abort` is `Tasks.abort`.
-/
import Pea2Pea.LifecycleFacts
import Pea2Pea.Lib.Notify
import Pea2Pea.Lib.Tasks

namespace Pea2Pea.Shutdown

open Tasks (abort abortAll)

/-- `NodeTask`: the long-running tasks of a node. -/
inductive NodeTask
  | listener
  | onDisconnect
  | handshake
  | onConnect
  | reading
  | writing
  deriving DecidableEq

/-- A spawned node task. -/
structure Task where
  kind : NodeTask
  status : TaskStatus
  deriving DecidableEq

instance : HasStatus Task := ⟨Task.status, fun t st => { t with status := st }, fun _ _ => rfl⟩

/-- Where a `toggle_listener` or `enable_*` call is. -/
inductive CallPc
  | called
  /-- A toggle, with `listening_addr` locked. -/
  | holding
  /-- The task is spawned and with its `UnregisteredTask` guard; its
  readiness is awaited. -/
  | spawned (task : Handle)
  /-- In `register_task`: `tasks` locked, the flag not loaded yet. -/
  | locked (task : Handle)
  /-- In `register_task`: `tasks` locked, the flag was down. -/
  | admitted (task : Handle)
  /-- The task is registered; the address or the handler is not published. -/
  | registered (task : Handle)
  | done
  deriving DecidableEq

/-- A `toggle_listener` call (its kind is the listener), or an `enable_*`. -/
structure Call where
  kind : NodeTask
  /-- The address a toggle has bound. -/
  bound : Option SocketAddr
  pc : CallPc
  deriving DecidableEq

/-- Where a `shut_down` call is. -/
inductive ShutPc
  | called
  /-- Past `ShutdownState::begin`. -/
  | begun
  /-- The registry is taken and the listener aborted. -/
  | taken
  /-- The disconnects are awaited. -/
  | fanout
  /-- In `wait_for_drain` for `active`. -/
  | draining (w : Waiter)
  /-- In `wait_sched_drained`. -/
  | schedDraining (w : Waiter)
  | drained
  /-- The handlers are signaled; the `i`-th of the call's tasks is awaited. -/
  | winding (i : Nat)
  /-- `listening_addr` is to be locked and cleared. -/
  | clearing
  | returned
  | cancelled
  deriving DecidableEq

/-- The call is at an await. -/
def ShutPc.atAwait : ShutPc → Bool
  | .called | .fanout | .draining (.parked _) | .schedDraining (.parked _) | .winding _ | .clearing => true
  | _ => false

structure Shut where
  /-- The tasks taken from the registry, in the order of the wind-down. -/
  tasks : List Handle
  /-- The fan-out: the positions of its disconnects. -/
  lo : Nat
  hi : Nat
  pc : ShutPc
  deriving DecidableEq

structure State where
  base : Pea2Pea.State
  /-- What `ShutdownState::handler_signal`, a `watch` channel, holds. -/
  signal : Bool
  /-- The node tasks spawned so far, by their handles. -/
  tasks : List Task
  /-- `InnerNode::tasks`. -/
  registry : Table NodeTask Handle
  /-- The call that has `tasks` locked in `register_task`. -/
  tasksLock : Option Nat
  /-- `InnerNode::listening_addr`. -/
  listening : Option SocketAddr
  /-- The toggle that has `listening_addr` locked. -/
  listenLock : Option Nat
  /-- The protocols whose handlers are published. -/
  published : Finset NodeTask
  calls : List Call
  shuts : List Shut
  /-- Whether a `shut_down` has taken the registry (read by no step). -/
  taken : Bool

def State.init (cfg : NodeConfig) : State where
  base := .init cfg
  signal := false
  tasks := []
  registry := ∅
  tasksLock := none
  listening := none
  listenLock := none
  published := ∅
  calls := []
  shuts := []
  taken := false

inductive Act
  | base (a : Pea2Pea.Act)
  /-- `toggle_listener` is called. -/
  | toggle
  /-- `enable_*` is called. -/
  | enable (kind : NodeTask)
  | lockListening (c : Nat)
  /-- The listener is on: it is unregistered and aborted. -/
  | toggleOff (c : Nat)
  /-- The listener is off, and no socket can be had for it. -/
  | toggleFail (c : Nat)
  /-- The listener is off: its socket is bound to `port` and its task spawned. -/
  | bind (c : Nat) (port : BitVec 16)
  /-- The handler task is spawned. -/
  | install (c : Nat)
  | lockTasks (c : Nat)
  | checkFlag (c : Nat)
  | registerTask (c : Nat)
  | publish (c : Nat)
  | cancelCall (c : Nat)
  /-- A node task ends by itself. -/
  | finishTask (h : Handle)
  /-- `shut_down` is called. -/
  | shutDown
  /-- `ShutdownState::begin`. -/
  | begin (n : Nat)
  | takeTasks (n : Nat)
  /-- `connected_addrs`, and a disconnect for each. -/
  | snapshot (n : Nat) (addrs : List SocketAddr)
  | fannedOut (n : Nat)
  /-- The drain's waiter registers, checks, and is polled again once woken. -/
  | enableWaiter (n : Nat)
  | check (n : Nat)
  | wakeUp (n : Nat)
  /-- `ShutdownState::signal_handlers`: the value is stored if a handler's
  loop has subscribed. -/
  | signalHandlers (n : Nat) (stored : Bool)
  /-- The task that is awaited has ended. -/
  | joined (n : Nat)
  /-- The drain deadline passes. -/
  | expire (n : Nat)
  | abortRest (n : Nat)
  | clear (n : Nat)
  /-- The future is dropped at an await. -/
  | cancelShut (n : Nat)
  deriving DecidableEq

/-- The handles `shut_down` winds down, in its order. -/
def windDown (registry : Table NodeTask Handle) : List Handle :=
  [.handshake, .reading, .writing, .onConnect, .onDisconnect].filterMap registry.lookup

namespace Shut

def has (u : Shut) (j : Nat) : Bool := u.lo ≤ j && j < u.hi

/-- `drain_notify.notify_waiters()`, for this call. -/
def notifyDrain (u : Shut) : Shut :=
  match u.pc with
  | .draining w => { u with pc := .draining w.notify }
  | _ => u

/-- `sched_drained.notify_waiters()`, for this call. -/
def notifySched (u : Shut) : Shut :=
  match u.pc with
  | .schedDraining w => { u with pc := .schedDraining w.notify }
  | _ => u

/-- What a lifecycle step announces to the call. -/
def announce (u : Shut) : Pea2Pea.Act → Shut
  | .notifyDrain _ => u.notifyDrain
  | .notifySched _ | .schedNotify _ => u.notifySched
  | _ => u

end Shut

def DiscPc.isDone : DiscPc → Bool
  | .done _ _ => true
  | _ => false

namespace State

def callGoto (s : State) (c : Nat) (x : Call) (pc : CallPc) : State :=
  { s with calls := s.calls.set c { x with pc := pc } }

def shutGoto (s : State) (n : Nat) (u : Shut) (pc : ShutPc) : State :=
  { s with shuts := s.shuts.set n { u with pc := pc } }

/-- `listening_addr` once the call `x` is over: a toggle releases it. -/
def releaseListen (s : State) (x : Call) : Option Nat := if x.kind = .listener then none else s.listenLock

/-- The lifecycle's steps that are nobody's here. The flag, the publication
of OnConnect and the fan-out have acts of their own; a disconnect of a
fan-out is not cancelled while its call lives, and claims nothing after. -/
def free (s : State) : Pea2Pea.Act → Bool
  | .beginShutdown | .enableOnConnect => false
  | .disconnect _ origin _ | .disconnectOnDrop _ origin _ => origin != .shutdown
  | .cancel j => s.shuts.all fun u => u.has j → u.pc = .cancelled
  | .claim j => s.shuts.all fun u => u.has j → u.pc ≠ .cancelled
  | _ => true

/-- All disconnects of the call's fan-out have returned. -/
def fanDone (s : State) (u : Shut) : Bool :=
  ((s.base.discs.take u.hi).drop u.lo).all fun d => DiscPc.isDone d.pc

end State

def step (cfg : NodeConfig) (s : State) : Act → Option State
  | .base a => do
    let b ← Pea2Pea.step cfg s.base a
    if s.free a then some { s with base := b, shuts := s.shuts.map (·.announce a) } else none
  | .toggle => some { s with calls := s.calls ++ [⟨.listener, none, .called⟩] }
  | .enable kind =>
    if kind = .listener then none else some { s with calls := s.calls ++ [⟨kind, none, .called⟩] }
  | .lockListening c => do
    let x ← s.calls[c]?
    if x.kind = .listener ∧ x.pc = .called ∧ s.listenLock = none then
      some { s.callGoto c x .holding with listenLock := some c }
    else none
  | .toggleOff c => do
    let x ← s.calls[c]?
    if x.pc = .holding ∧ s.listening ≠ none ∧ s.tasksLock = none then
      match s.registry.lookup .listener with
      | some h =>
        some { s.callGoto c x .done with
          registry := s.registry.erase .listener
          tasks := abort s.tasks h
          listening := none
          listenLock := none }
      -- the registry is `shut_down`'s already, and so is the address
      | none => some { s.callGoto c x .done with listenLock := none }
    else none
  | .toggleFail c => do
    let x ← s.calls[c]?
    if x.pc = .holding ∧ s.listening = none then some { s.callGoto c x .done with listenLock := none } else none
  | .bind c port => do
    let x ← s.calls[c]?
    let addr ← cfg.listenerAddr
    if x.pc = .holding ∧ s.listening = none then
      some { s with
        calls := s.calls.set c { x with bound := some (.new addr.ip port), pc := .spawned s.tasks.length }
        tasks := s.tasks ++ [⟨.listener, .running⟩] }
    else none
  | .install c => do
    let x ← s.calls[c]?
    if x.kind ≠ .listener ∧ x.pc = .called then
      -- the assertion fails
      if x.kind ∈ s.published then some (s.callGoto c x .done)
      else some { s.callGoto c x (.spawned s.tasks.length) with tasks := s.tasks ++ [⟨x.kind, .running⟩] }
    else none
  | .lockTasks c => do
    let x ← s.calls[c]?
    match x.pc with
    | .spawned h =>
      if s.tasksLock = none then some { s.callGoto c x (.locked h) with tasksLock := some c } else none
    | _ => none
  | .checkFlag c => do
    let x ← s.calls[c]?
    match x.pc with
    | .locked h =>
      if s.base.flag then
        some { s.callGoto c x .done with
          tasks := abort s.tasks h
          tasksLock := none
          listenLock := s.releaseListen x }
      else some (s.callGoto c x (.admitted h))
    | _ => none
  | .registerTask c => do
    let x ← s.calls[c]?
    match x.pc with
    | .admitted h =>
      some { s.callGoto c x (.registered h) with registry := s.registry.insert x.kind h, tasksLock := none }
    | _ => none
  | .publish c => do
    let x ← s.calls[c]?
    match x.pc with
    | .registered _ =>
      if x.kind = .listener then some { s.callGoto c x .done with listening := x.bound, listenLock := none }
      -- the assertion fails
      else if x.kind ∈ s.published then some (s.callGoto c x .done)
      else
        some { s.callGoto c x .done with
          published := insert x.kind s.published
          base := if x.kind = .onConnect then { s.base with onConnect := true } else s.base }
    | _ => none
  | .cancelCall c => do
    let x ← s.calls[c]?
    match x.pc with
    | .called => some (s.callGoto c x .done)
    | .spawned h =>
      some { s.callGoto c x .done with tasks := abort s.tasks h, listenLock := s.releaseListen x }
    | _ => none
  | .finishTask h => do
    let t ← s.tasks[h]?
    if t.status = .running then some { s with tasks := s.tasks.set h { t with status := .finished } } else none
  | .shutDown => some { s with shuts := s.shuts ++ [⟨[], 0, 0, .called⟩] }
  | .begin n => do
    let u ← s.shuts[n]?
    match u.pc with
    | .called => some { s.shutGoto n u .begun with base := { s.base with flag := true } }
    | _ => none
  | .takeTasks n => do
    let u ← s.shuts[n]?
    match u.pc with
    | .begun =>
      if s.tasksLock = none then
        some { s with
          registry := ∅
          tasks := abortAll s.tasks (s.registry.lookup .listener).toList
          shuts := s.shuts.set n { u with tasks := windDown s.registry, pc := .taken }
          taken := true }
      else none
    | _ => none
  | .snapshot n addrs => do
    let u ← s.shuts[n]?
    match u.pc with
    | .taken =>
      if s.base.addLock = none ∧ addrs.Nodup ∧ addrs.toFinset = s.base.active.keys then
        let lo := s.base.discs.length
        some { s with
          base := { s.base with discs := s.base.discs ++ addrs.map (⟨·, .shutdown, none, .called⟩) }
          shuts := s.shuts.set n { u with lo := lo, hi := lo + addrs.length, pc := .fanout } }
      else none
    | _ => none
  | .fannedOut n => do
    let u ← s.shuts[n]?
    match u.pc with
    | .fanout => if s.fanDone u then some (s.shutGoto n u (.draining .entering)) else none
    | _ => none
  | .enableWaiter n => do
    let u ← s.shuts[n]?
    match u.pc with
    | .draining .entering => some (s.shutGoto n u (.draining (.registered false)))
    | .schedDraining .entering => some (s.shutGoto n u (.schedDraining (.registered false)))
    | _ => none
  | .check n => do
    let u ← s.shuts[n]?
    match u.pc with
    | .draining (.registered woken) =>
      if s.base.addLock = none then
        some (s.shutGoto n u (if s.base.active.keys = ∅ then .schedDraining .entering else .draining (.parked woken)))
      else none
    | .schedDraining (.registered woken) =>
      some (s.shutGoto n u (if s.base.schedInFlight = 0 then .drained else .schedDraining (.parked woken)))
    | _ => none
  | .wakeUp n => do
    let u ← s.shuts[n]?
    match u.pc with
    | .draining (.parked true) => some (s.shutGoto n u (.draining .entering))
    | .schedDraining (.parked true) => some (s.shutGoto n u (.schedDraining .entering))
    | _ => none
  | .signalHandlers n stored => do
    let u ← s.shuts[n]?
    match u.pc with
    | .drained => some { s.shutGoto n u (.winding 0) with signal := s.signal || stored }
    | _ => none
  | .joined n => do
    let u ← s.shuts[n]?
    match u.pc with
    | .winding i => do
      let h ← u.tasks[i]?
      if (s.tasks[h]?).all (·.status ≠ .running) then some (s.shutGoto n u (.winding (i + 1))) else none
    | _ => none
  | .expire n => do
    let u ← s.shuts[n]?
    match u.pc with
    | .winding i => if i < u.tasks.length then some (s.shutGoto n u (.winding (i + 1))) else none
    | _ => none
  | .abortRest n => do
    let u ← s.shuts[n]?
    match u.pc with
    | .winding i =>
      if i = u.tasks.length then some { s.shutGoto n u .clearing with tasks := abortAll s.tasks u.tasks } else none
    | _ => none
  | .clear n => do
    let u ← s.shuts[n]?
    match u.pc with
    | .clearing => if s.listenLock = none then some { s.shutGoto n u .returned with listening := none } else none
    | _ => none
  | .cancelShut n => do
    let u ← s.shuts[n]?
    if u.pc.atAwait then some { s.shutGoto n u .cancelled with tasks := abortAll s.tasks u.tasks } else none

/-- A node that can be shut down. -/
def shutdown (cfg : NodeConfig) : Machine State Act := ⟨.init cfg, step cfg⟩

/-! ## The steps as a relation -/

inductive StepR (cfg : NodeConfig) (s : State) : Act → State → Prop
  | base {a b} (hb : Pea2Pea.step cfg s.base a = some b) (hf : s.free a = true) :
      StepR cfg s (.base a) { s with base := b, shuts := s.shuts.map (·.announce a) }
  | toggle : StepR cfg s .toggle { s with calls := s.calls ++ [⟨.listener, none, .called⟩] }
  | enable {kind} (hk : kind ≠ .listener) :
      StepR cfg s (.enable kind) { s with calls := s.calls ++ [⟨kind, none, .called⟩] }
  | lockListening {c x} (hx : s.calls[c]? = some x) (hk : x.kind = .listener) (hpc : x.pc = .called)
      (hl : s.listenLock = none) :
      StepR cfg s (.lockListening c) { s.callGoto c x .holding with listenLock := some c }
  | toggleOff {c x h} (hx : s.calls[c]? = some x) (hpc : x.pc = .holding) (hl : s.tasksLock = none)
      (hr : s.registry.lookup .listener = some h) :
      StepR cfg s (.toggleOff c) { s.callGoto c x .done with
        registry := s.registry.erase .listener
        tasks := abort s.tasks h
        listening := none
        listenLock := none }
  | toggleGone {c x} (hx : s.calls[c]? = some x) (hpc : x.pc = .holding)
      (hr : s.registry.lookup .listener = none) :
      StepR cfg s (.toggleOff c) { s.callGoto c x .done with listenLock := none }
  | toggleFail {c x} (hx : s.calls[c]? = some x) (hpc : x.pc = .holding) (hn : s.listening = none) :
      StepR cfg s (.toggleFail c) { s.callGoto c x .done with listenLock := none }
  | bind {c x addr port} (hx : s.calls[c]? = some x) (ha : cfg.listenerAddr = some addr) (hpc : x.pc = .holding)
      (hn : s.listening = none) :
      StepR cfg s (.bind c port) { s with
        calls := s.calls.set c { x with bound := some (.new addr.ip port), pc := .spawned s.tasks.length }
        tasks := s.tasks ++ [⟨.listener, .running⟩] }
  | installTwice {c x} (hx : s.calls[c]? = some x) (hk : x.kind ≠ .listener) (hpc : x.pc = .called) :
      StepR cfg s (.install c) (s.callGoto c x .done)
  | install {c x} (hx : s.calls[c]? = some x) (hk : x.kind ≠ .listener) (hpc : x.pc = .called)
      (hp : x.kind ∉ s.published) :
      StepR cfg s (.install c)
        { s.callGoto c x (.spawned s.tasks.length) with tasks := s.tasks ++ [⟨x.kind, .running⟩] }
  | lockTasks {c x h} (hx : s.calls[c]? = some x) (hpc : x.pc = .spawned h) (hl : s.tasksLock = none) :
      StepR cfg s (.lockTasks c) { s.callGoto c x (.locked h) with tasksLock := some c }
  | checkRefused {c x h} (hx : s.calls[c]? = some x) (hpc : x.pc = .locked h) (hf : s.base.flag = true) :
      StepR cfg s (.checkFlag c) { s.callGoto c x .done with
        tasks := abort s.tasks h
        tasksLock := none
        listenLock := s.releaseListen x }
  | checkAdmitted {c x h} (hx : s.calls[c]? = some x) (hpc : x.pc = .locked h) (hf : s.base.flag = false) :
      StepR cfg s (.checkFlag c) (s.callGoto c x (.admitted h))
  | registerTask {c x h} (hx : s.calls[c]? = some x) (hpc : x.pc = .admitted h) :
      StepR cfg s (.registerTask c)
        { s.callGoto c x (.registered h) with registry := s.registry.insert x.kind h, tasksLock := none }
  | publishAddr {c x h} (hx : s.calls[c]? = some x) (hpc : x.pc = .registered h) (hk : x.kind = .listener) :
      StepR cfg s (.publish c) { s.callGoto c x .done with listening := x.bound, listenLock := none }
  | publishTwice {c x h} (hx : s.calls[c]? = some x) (hpc : x.pc = .registered h) (hk : x.kind ≠ .listener)
      (hp : x.kind ∈ s.published) :
      StepR cfg s (.publish c) (s.callGoto c x .done)
  | publish {c x h} (hx : s.calls[c]? = some x) (hpc : x.pc = .registered h) (hk : x.kind ≠ .listener)
      (hp : x.kind ∉ s.published) :
      StepR cfg s (.publish c) { s.callGoto c x .done with
        published := insert x.kind s.published
        base := if x.kind = .onConnect then { s.base with onConnect := true } else s.base }
  | cancelCalled {c x} (hx : s.calls[c]? = some x) (hpc : x.pc = .called) :
      StepR cfg s (.cancelCall c) (s.callGoto c x .done)
  | cancelSpawned {c x h} (hx : s.calls[c]? = some x) (hpc : x.pc = .spawned h) :
      StepR cfg s (.cancelCall c)
        { s.callGoto c x .done with tasks := abort s.tasks h, listenLock := s.releaseListen x }
  | finishTask {h t} (ht : s.tasks[h]? = some t) (hr : t.status = .running) :
      StepR cfg s (.finishTask h) { s with tasks := s.tasks.set h { t with status := .finished } }
  | shutDown : StepR cfg s .shutDown { s with shuts := s.shuts ++ [⟨[], 0, 0, .called⟩] }
  | begin {n u} (hu : s.shuts[n]? = some u) (hpc : u.pc = .called) :
      StepR cfg s (.begin n) { s.shutGoto n u .begun with base := { s.base with flag := true } }
  | takeTasks {n u} (hu : s.shuts[n]? = some u) (hpc : u.pc = .begun) (hl : s.tasksLock = none) :
      StepR cfg s (.takeTasks n) { s with
        registry := ∅
        tasks := abortAll s.tasks (s.registry.lookup .listener).toList
        shuts := s.shuts.set n { u with tasks := windDown s.registry, pc := .taken }
        taken := true }
  | snapshot {n u addrs} (hu : s.shuts[n]? = some u) (hpc : u.pc = .taken) (hl : s.base.addLock = none)
      (hd : addrs.Nodup) (ha : addrs.toFinset = s.base.active.keys) :
      StepR cfg s (.snapshot n addrs) { s with
        base := { s.base with discs := s.base.discs ++ addrs.map (⟨·, .shutdown, none, .called⟩) }
        shuts := s.shuts.set n
          { u with lo := s.base.discs.length, hi := s.base.discs.length + addrs.length, pc := .fanout } }
  | fannedOut {n u} (hu : s.shuts[n]? = some u) (hpc : u.pc = .fanout) (hd : s.fanDone u = true) :
      StepR cfg s (.fannedOut n) (s.shutGoto n u (.draining .entering))
  | enableDrain {n u} (hu : s.shuts[n]? = some u) (hpc : u.pc = .draining .entering) :
      StepR cfg s (.enableWaiter n) (s.shutGoto n u (.draining (.registered false)))
  | enableSched {n u} (hu : s.shuts[n]? = some u) (hpc : u.pc = .schedDraining .entering) :
      StepR cfg s (.enableWaiter n) (s.shutGoto n u (.schedDraining (.registered false)))
  | drainEmpty {n u woken} (hu : s.shuts[n]? = some u) (hpc : u.pc = .draining (.registered woken))
      (he : s.base.active.keys = ∅) : StepR cfg s (.check n) (s.shutGoto n u (.schedDraining .entering))
  | drainPark {n u woken} (hu : s.shuts[n]? = some u) (hpc : u.pc = .draining (.registered woken))
      (he : s.base.active.keys ≠ ∅) : StepR cfg s (.check n) (s.shutGoto n u (.draining (.parked woken)))
  | schedEmpty {n u woken} (hu : s.shuts[n]? = some u) (hpc : u.pc = .schedDraining (.registered woken))
      (he : s.base.schedInFlight = 0) : StepR cfg s (.check n) (s.shutGoto n u .drained)
  | schedPark {n u woken} (hu : s.shuts[n]? = some u) (hpc : u.pc = .schedDraining (.registered woken))
      (he : s.base.schedInFlight ≠ 0) :
      StepR cfg s (.check n) (s.shutGoto n u (.schedDraining (.parked woken)))
  | wakeDrain {n u} (hu : s.shuts[n]? = some u) (hpc : u.pc = .draining (.parked true)) :
      StepR cfg s (.wakeUp n) (s.shutGoto n u (.draining .entering))
  | wakeSched {n u} (hu : s.shuts[n]? = some u) (hpc : u.pc = .schedDraining (.parked true)) :
      StepR cfg s (.wakeUp n) (s.shutGoto n u (.schedDraining .entering))
  | signalHandlers {n stored u} (hu : s.shuts[n]? = some u) (hpc : u.pc = .drained) :
      StepR cfg s (.signalHandlers n stored) { s.shutGoto n u (.winding 0) with signal := s.signal || stored }
  | joined {n u i h} (hu : s.shuts[n]? = some u) (hpc : u.pc = .winding i) (hh : u.tasks[i]? = some h)
      (hn : ∀ t, s.tasks[h]? = some t → t.status ≠ .running) :
      StepR cfg s (.joined n) (s.shutGoto n u (.winding (i + 1)))
  | expire {n u i} (hu : s.shuts[n]? = some u) (hpc : u.pc = .winding i) (hi : i < u.tasks.length) :
      StepR cfg s (.expire n) (s.shutGoto n u (.winding (i + 1)))
  | abortRest {n u} (hu : s.shuts[n]? = some u) (hpc : u.pc = .winding u.tasks.length) :
      StepR cfg s (.abortRest n) { s.shutGoto n u .clearing with tasks := abortAll s.tasks u.tasks }
  | clear {n u} (hu : s.shuts[n]? = some u) (hpc : u.pc = .clearing) (hl : s.listenLock = none) :
      StepR cfg s (.clear n) { s.shutGoto n u .returned with listening := none }
  | cancelShut {n u} (hu : s.shuts[n]? = some u) (hpc : u.pc.atAwait = true) :
      StepR cfg s (.cancelShut n) { s.shutGoto n u .cancelled with tasks := abortAll s.tasks u.tasks }

theorem step_sound {cfg : NodeConfig} {s s' : State} {a : Act} (h : step cfg s a = some s') : StepR cfg s a s' := by
  cases a <;> simp only [step, Option.bind_eq_bind, Option.bind_eq_some_iff, Option.some.injEq] at h
  case toggle => exact h ▸ .toggle
  case shutDown => exact h ▸ .shutDown
  case base =>
    obtain ⟨b, hb, h⟩ := h
    split at h
    next hf => cases h; exact .base hb hf
    · cases h
  case enable =>
    split at h
    · cases h
    next hk => cases h; exact .enable hk
  case bind =>
    obtain ⟨x, hx, addr, ha, h⟩ := h
    split at h
    next hc => cases h; exact .bind hx ha hc.1 hc.2
    · cases h
  case finishTask =>
    obtain ⟨t, ht, h⟩ := h
    split at h
    next hr => cases h; exact .finishTask ht hr
    · cases h
  all_goals obtain ⟨x, hx, h⟩ := h
  case lockListening =>
    split at h
    next hc => cases h; exact .lockListening hx hc.1 hc.2.1 hc.2.2
    · cases h
  case toggleOff =>
    split at h
    next hc =>
      split at h
      next hr => cases h; exact .toggleOff hx hc.1 hc.2.2 hr
      next hr => cases h; exact .toggleGone hx hc.1 hr
    · cases h
  case toggleFail =>
    split at h
    next hc => cases h; exact .toggleFail hx hc.1 hc.2
    · cases h
  case install =>
    split at h
    next hc =>
      split at h
      · cases h; exact .installTwice hx hc.1 hc.2
      next hp => cases h; exact .install hx hc.1 hc.2 hp
    · cases h
  case lockTasks =>
    split at h
    next hpc =>
      split at h
      next hl => cases h; exact .lockTasks hx hpc hl
      · cases h
    · cases h
  case checkFlag =>
    split at h
    next hpc =>
      split at h
      next hf => cases h; exact .checkRefused hx hpc hf
      next hf => cases h; exact .checkAdmitted hx hpc (by simpa using hf)
    · cases h
  case registerTask =>
    split at h
    next hpc => cases h; exact .registerTask hx hpc
    · cases h
  case publish =>
    split at h
    next hpc =>
      split at h
      next hk => cases h; exact .publishAddr hx hpc hk
      next hk =>
        split at h
        next hp => cases h; exact .publishTwice hx hpc hk hp
        next hp => cases h; exact .publish hx hpc hk hp
    · cases h
  case cancelCall =>
    split at h
    next hpc => cases h; exact .cancelCalled hx hpc
    next hpc => cases h; exact .cancelSpawned hx hpc
    · cases h
  case begin =>
    split at h
    next hpc => cases h; exact .begin hx hpc
    · cases h
  case takeTasks =>
    split at h
    next hpc =>
      split at h
      next hl => cases h; exact .takeTasks hx hpc hl
      · cases h
    · cases h
  case snapshot =>
    split at h
    next hpc =>
      split at h
      next hc => cases h; exact .snapshot hx hpc hc.1 hc.2.1 hc.2.2
      · cases h
    · cases h
  case fannedOut =>
    split at h
    next hpc =>
      split at h
      next hd => cases h; exact .fannedOut hx hpc hd
      · cases h
    · cases h
  case enableWaiter =>
    split at h
    next hpc => cases h; exact .enableDrain hx hpc
    next hpc => cases h; exact .enableSched hx hpc
    · cases h
  case check =>
    split at h
    next hpc =>
      split at h
      · split at h
        next he => cases h; exact .drainEmpty hx hpc he
        next he => cases h; exact .drainPark hx hpc he
      · cases h
    next hpc =>
      split at h
      next he => cases h; exact .schedEmpty hx hpc he
      next he => cases h; exact .schedPark hx hpc he
    · cases h
  case wakeUp =>
    split at h
    next hpc => cases h; exact .wakeDrain hx hpc
    next hpc => cases h; exact .wakeSched hx hpc
    · cases h
  case signalHandlers =>
    split at h
    next hpc => cases h; exact .signalHandlers hx hpc
    · cases h
  case joined =>
    split at h
    next hpc =>
      obtain ⟨t, ht, h⟩ := Option.bind_eq_some_iff.mp h
      split at h
      next hn =>
        cases h
        refine .joined hx hpc ht fun z hz => ?_
        rw [hz] at hn
        simpa using hn
      · cases h
    · cases h
  case expire =>
    split at h
    next hpc =>
      split at h
      next hi => cases h; exact .expire hx hpc hi
      · cases h
    · cases h
  case abortRest =>
    split at h
    next hpc =>
      split at h
      next hi => cases h; subst hi; exact .abortRest hx hpc
      · cases h
    · cases h
  case clear =>
    split at h
    next hpc =>
      split at h
      next hl => cases h; exact .clear hx hpc hl
      · cases h
    · cases h
  case cancelShut =>
    split at h
    next hc => cases h; exact .cancelShut hx hc
    · cases h

theorem shutdown_run {cfg : NodeConfig} {s s' : State} {a : Act} (h : step cfg s a = some s') :
    (shutdown cfg).run s [a] = some s' :=
  Machine.run_single h

/-- The fan-out, as lifecycle steps. -/
theorem fanout_run (cfg : NodeConfig) (b : Pea2Pea.State) (addrs : List SocketAddr) :
    (lifecycle cfg).run b (addrs.map (.disconnect · .shutdown none)) =
      some { b with discs := b.discs ++ addrs.map (⟨·, .shutdown, none, .called⟩) } := by
  induction addrs generalizing b with
  | nil => simp [Machine.run]
  | cons a addrs ih =>
    refine Machine.run_cons.mpr ⟨_, rfl, ?_⟩
    rw [ih]
    simp

/-- Seen without the calls, a run is a run of the lifecycle. -/
theorem projects (cfg : NodeConfig) : (shutdown cfg).Projects (lifecycle cfg) State.base where
  init := rfl
  step {s s' a} h := by
    cases step_sound h with
    | base hb => exact ⟨_, lifecycle_run hb⟩
    | begin => exact ⟨[.beginShutdown], rfl⟩
    | snapshot => exact ⟨_, fanout_run cfg s.base _⟩
    | @publish c x =>
      by_cases hk : x.kind = .onConnect
      · exact ⟨[.enableOnConnect], by simp [hk]; rfl⟩
      · exact ⟨[], by simp [hk]; rfl⟩
    | _ => exact ⟨[], rfl⟩

end Pea2Pea.Shutdown
