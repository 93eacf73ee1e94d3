/-
The lifecycle of connections as a transition system: any number of setups
(`connect_inner`, `handle_connection_request`, then `adapt_stream`),
OnConnect scheduling tasks and disconnects (`disconnect_w_origin`),
interleaved at every lock, atomic operation and await of the source.

A critical section is one step, taken when its lock is free, with one
exception: `Connections::add` loads the shutdown flag while it has `active`
locked and the flag is stored outside every lock, so `add` is four steps
(lock, load, insert and unlock, drop the guard) and `addLock` names the
setup inside it. The finalizer's `release_ip` comes after its
`notify_waiters` in the source; both run under `limits`, which nobody can
read in between, so here the charge is released with the removal.

A setup that fails and one whose future is dropped take the same steps: the
guard's `Drop` is what undoes the reservation in both cases. Likewise a
claimed disconnect that completes and one that is cancelled: the finalizer's
`Drop` runs in both.
-/
import Pea2Pea.Node
import Pea2Pea.Lib.Transition

namespace Pea2Pea

/-- Who dialed: the node itself (`connect`), or the peer. -/
inductive Role
  | initiator
  | responder
  deriving DecidableEq

/-- `DisconnectOrigin`. -/
inductive DisconnectOrigin
  | onConnectAbort
  | reading
  | shutdown
  | user
  | writing
  deriving DecidableEq

/-- Where a setup is. `sched`: it has a `SchedulingGuard`. `begun`: the
shutdown flag at the moment `add` locked `active` (read by no step). -/
inductive SetupPc
  /-- A `connect` future, not polled yet. -/
  | called
  /-- An accepted inbound connection, with its permit. -/
  | accepted
  /-- A `connect` past its flag check, at the listening address. -/
  | resolving
  /-- A `connect` past its duplicate check, to draw from the budget. -/
  | unconnected
  /-- A permit taken, nothing reserved. -/
  | permitted
  /-- The reservation's guard alive; a `connect` is dialing. -/
  | dialing
  /-- In `enable_protocols`, with a `Connection` of this id. -/
  | protocols (id : Nat)
  /-- About to call `Connections::add`. -/
  | ready (id : Nat) (sched : Bool)
  /-- In `add`: `active` locked, the flag not loaded yet. -/
  | adding (id : Nat) (sched begun : Bool)
  /-- In `add`: `active` locked, the flag was down. -/
  | admitted (id : Nat) (sched begun : Bool)
  /-- In `add`: the flag was up; `active` unlocked, the guard not dropped. -/
  | refused (id : Nat) (sched : Bool)
  /-- In `add`: inserted and unlocked, the completed guard not dropped. -/
  | inserted (id : Nat) (sched : Bool)
  /-- Failed or cancelled, the guard not dropped. -/
  | unwinding
  /-- `add` returned; OnConnect to be scheduled. -/
  | established (id : Nat) (sched : Bool)
  /-- Awaiting the scheduling task `k`. -/
  | awaiting (id k : Nat)
  /-- Refused, the `SchedulingGuard` not dropped. -/
  | abandoning
  /-- Refused, its `SchedulingGuard` the last one: to notify. -/
  | notifying
  /-- Only the permit is left; the id if the connection entered `active`. -/
  | finishing (entered : Option Nat)
  | done (entered : Option Nat)
  deriving DecidableEq

structure Setup where
  role : Role
  addr : SocketAddr
  pc : SetupPc
  deriving DecidableEq

/-- Where an OnConnect scheduling task is: alive with its guard, about to
notify because its guard was the last one, or concluded. -/
inductive SchedPc
  | running
  | notifying
  | done
  deriving DecidableEq

structure Sched where
  addr : SocketAddr
  id : Nat
  pc : SchedPc
  deriving DecidableEq

/-- Where a disconnect is; `id` is the instance its claim was taken on. -/
inductive DiscPc
  /-- Not polled yet. -/
  | called
  /-- Claimed: the finalizer is armed. -/
  | claimed (id : Nat)
  /-- In the finalizer's `Drop`, the sender entry removed. -/
  | dropping (id : Nat)
  /-- Removed from `active` (`got`: the id that came out), to notify. -/
  | removed (id got : Nat)
  | done (id got : Option Nat)
  deriving DecidableEq

structure Disc where
  addr : SocketAddr
  origin : DisconnectOrigin
  connId : Option Nat
  pc : DiscPc
  deriving DecidableEq

structure State where
  /-- `ShutdownState::flag`. -/
  flag : Bool
  /-- Whether OnConnect has been enabled. -/
  onConnect : Bool
  /-- `ShutdownState::sched_in_flight`. -/
  schedInFlight : Nat
  /-- `connecting_permits`: the permits left. -/
  permits : Nat
  active : Active
  /-- The setup that has `active` write-locked in `Connections::add`. -/
  addLock : Option Nat
  limits : ConnectionLimits
  setups : List Setup
  scheds : List Sched
  discs : List Disc
  /-- `SEQUENTIAL_CONN_ID`, an `AtomicU64` in the source: fewer than `2 ^ 64`
  ids are taken. -/
  nextId : Nat
  /-- The assertions that were reached. -/
  failures : List Assertion

/-- `Node::new`'s state. -/
def State.init (cfg : NodeConfig) : State where
  flag := false
  onConnect := false
  schedInFlight := 0
  permits := cfg.maxConnecting
  active := ∅
  addLock := none
  limits := ⟨∅, ∅⟩
  setups := []
  scheds := []
  discs := []
  nextId := 0
  failures := []

inductive Act
  /-- `Node::connect` is called. -/
  | connect (addr : SocketAddr)
  /-- The listener accepts a connection and gets a permit for it. -/
  | accept (addr : SocketAddr)
  /-- The first flag check. -/
  | start (i : Nat)
  /-- A `connect` ends before it has a permit: refused, or dropped. -/
  | reject (i : Nat)
  /-- `is_connected`, before the budget is drawn from. -/
  | checkConnected (i : Nat)
  | acquire (i : Nat)
  /-- `check_and_reserve`. -/
  | reserve (i : Nat)
  /-- The stream is there: `Connection::new`. -/
  | adapt (i : Nat)
  /-- The dial or a protocol fails, or the future is dropped there. -/
  | fail (i : Nat)
  /-- `enable_protocols` returns the connection. -/
  | wired (i : Nat)
  | lockActive (i : Nat)
  | checkFlag (i : Nat)
  | insert (i : Nat) (tasks : List Handle)
  | dropGuard (i : Nat)
  | dropSched (i : Nat)
  | notifySched (i : Nat)
  /-- The OnConnect scheduling task is spawned. -/
  | schedule (i : Nat)
  | finish (i : Nat)
  /-- The scheduling task `k` hands its abortable hook to the connection. -/
  | attach (k : Nat) (handle : Handle)
  /-- The scheduling task `k` drops its guard. -/
  | schedDone (k : Nat)
  | schedNotify (k : Nat)
  /-- `disconnect_w_origin` is called. -/
  | disconnect (addr : SocketAddr) (origin : DisconnectOrigin) (connId : Option Nat)
  /-- `DisconnectOnDrop::drop`. -/
  | disconnectOnDrop (addr : SocketAddr) (origin : DisconnectOrigin) (connId : Nat)
  | claim (j : Nat)
  /-- The disconnect's future is dropped before its first poll. -/
  | cancel (j : Nat)
  /-- The OnDisconnect handle is registered with the connection. -/
  | register (j : Nat) (handle : Handle)
  /-- The finalizer's `Drop` begins: the sender entry goes. -/
  | finalize (j : Nat)
  /-- The finalizer removes the connection and releases its charge. -/
  | remove (j : Nat)
  | notifyDrain (j : Nat)
  /-- `ShutdownState::begin`. -/
  | beginShutdown
  | enableOnConnect
  /-- Another node of the process takes a connection id. -/
  | takeId
  deriving DecidableEq

namespace State

/-- Setup `i`, which is `t`, moves to `pc`. -/
def goto (s : State) (i : Nat) (t : Setup) (pc : SetupPc) : State :=
  { s with setups := s.setups.set i { t with pc := pc } }

def schedGoto (s : State) (k : Nat) (t : Sched) (pc : SchedPc) : State :=
  { s with scheds := s.scheds.set k { t with pc := pc } }

def discGoto (s : State) (j : Nat) (d : Disc) (pc : DiscPc) : State :=
  { s with discs := s.discs.set j { d with pc := pc } }

/-- `ConnectionGuard::drop` at `addr`. -/
def dropGuard (s : State) (addr : SocketAddr) (completed : Bool) : State :=
  let r := s.limits.dropGuard addr completed
  { s with limits := r.1, failures := s.failures ++ r.2 }

/-- The finalizer's critical section: the entry at `addr` is removed, and
its IP's charge released. -/
def removeConn (s : State) (addr : SocketAddr) : State :=
  let r := s.limits.releaseIp addr
  { s with active := s.active.erase addr, limits := r.1, failures := s.failures ++ r.2 }

end State

/-- One step of the node. -/
def step (cfg : NodeConfig) (s : State) : Act → Option State
  | .connect addr => some { s with setups := s.setups ++ [⟨.initiator, addr, .called⟩] }
  | .accept addr =>
    if 0 < s.permits then
      some { s with permits := s.permits - 1, setups := s.setups ++ [⟨.responder, addr, .accepted⟩] }
    else none
  | .start i => do
    let t ← s.setups[i]?
    match t.pc with
    | .called => some (s.goto i t (if s.flag then .done none else .resolving))
    | .accepted => some (s.goto i t (if s.flag then .finishing none else .permitted))
    | _ => none
  | .reject i => do
    let t ← s.setups[i]?
    match t.pc with
    | .called | .resolving => some (s.goto i t (.done none))
    | _ => none
  | .checkConnected i => do
    let t ← s.setups[i]?
    match t.pc with
    | .resolving =>
      if s.addLock = none then
        some (s.goto i t (if t.addr ∈ s.active.keys then .done none else .unconnected))
      else none
    | _ => none
  | .acquire i => do
    let t ← s.setups[i]?
    match t.pc with
    | .unconnected =>
      if 0 < s.permits then some { s.goto i t .permitted with permits := s.permits - 1 }
      else some (s.goto i t (.done none))
    | _ => none
  | .reserve i => do
    let t ← s.setups[i]?
    match t.pc with
    | .permitted =>
      if s.addLock = none then
        match checkAndReserve cfg.toConfig s.active s.limits t.addr with
        | .ok l => some { s.goto i t .dialing with limits := l }
        | .error _ => some (s.goto i t (.finishing none))
      else none
    | _ => none
  | .adapt i => do
    let t ← s.setups[i]?
    match t.pc with
    | .dialing => some { s.goto i t (.protocols s.nextId) with nextId := s.nextId + 1 }
    | _ => none
  | .fail i => do
    let t ← s.setups[i]?
    match t.pc with
    -- an inbound setup has no await before `enable_protocols`
    | .dialing => if t.role = .initiator then some (s.goto i t .unwinding) else none
    | .protocols _ => some (s.goto i t .unwinding)
    | _ => none
  | .wired i => do
    let t ← s.setups[i]?
    match t.pc with
    | .protocols id =>
      some { s.goto i t (.ready id s.onConnect) with
        schedInFlight := if s.onConnect then s.schedInFlight + 1 else s.schedInFlight }
    | _ => none
  | .lockActive i => do
    let t ← s.setups[i]?
    match t.pc with
    | .ready id sched =>
      if s.addLock = none then some { s.goto i t (.adding id sched s.flag) with addLock := some i } else none
    | _ => none
  | .checkFlag i => do
    let t ← s.setups[i]?
    match t.pc with
    | .adding id sched begun =>
      if s.flag then some { s.goto i t (.refused id sched) with addLock := none }
      else some (s.goto i t (.admitted id sched begun))
    | _ => none
  | .insert i tasks => do
    let t ← s.setups[i]?
    match t.pc with
    | .admitted id sched _ =>
      some { s.goto i t (.inserted id sched) with
        active := s.active.insert t.addr ⟨id, t.addr, false, tasks⟩, addLock := none }
    | _ => none
  | .dropGuard i => do
    let t ← s.setups[i]?
    match t.pc with
    | .refused _ sched => some ((s.dropGuard t.addr false).goto i t (if sched then .abandoning else .finishing none))
    | .unwinding => some ((s.dropGuard t.addr false).goto i t (.finishing none))
    | .inserted id sched => some ((s.dropGuard t.addr true).goto i t (.established id sched))
    | _ => none
  | .dropSched i => do
    let t ← s.setups[i]?
    match t.pc with
    | .abandoning =>
      some { s.goto i t (if s.schedInFlight = 1 then .notifying else .finishing none) with
        schedInFlight := s.schedInFlight - 1 }
    | _ => none
  | .notifySched i => do
    let t ← s.setups[i]?
    match t.pc with
    | .notifying => some (s.goto i t (.finishing none))
    | _ => none
  | .schedule i => do
    let t ← s.setups[i]?
    match t.pc with
    | .established id true =>
      some { s.goto i t (.awaiting id s.scheds.length) with scheds := s.scheds ++ [⟨t.addr, id, .running⟩] }
    | .established id false => some (s.goto i t (.finishing (some id)))
    | _ => none
  | .finish i => do
    let t ← s.setups[i]?
    match t.pc with
    | .finishing entered => some { s.goto i t (.done entered) with permits := s.permits + 1 }
    | .awaiting id k =>
      -- only a `connect` future can be dropped before the task concludes
      if t.role = .initiator ∨ (s.scheds[k]?).any (·.pc != .running) then
        some { s.goto i t (.done (some id)) with permits := s.permits + 1 }
      else none
    | _ => none
  | .attach k handle => do
    let t ← s.scheds[k]?
    match t.pc with
    | .running =>
      if s.addLock = none then some { s with active := (attachHandle s.active t.addr t.id handle).1 } else none
    | _ => none
  | .schedDone k => do
    let t ← s.scheds[k]?
    match t.pc with
    | .running =>
      some { s.schedGoto k t (if s.schedInFlight = 1 then .notifying else .done) with
        schedInFlight := s.schedInFlight - 1 }
    | _ => none
  | .schedNotify k => do
    let t ← s.scheds[k]?
    match t.pc with
    | .notifying => some (s.schedGoto k t .done)
    | _ => none
  | .disconnect addr origin connId => some { s with discs := s.discs ++ [⟨addr, origin, connId, .called⟩] }
  | .disconnectOnDrop addr origin connId =>
    if s.addLock = none then
      if needsRecovery s.active addr connId then
        some { s with discs := s.discs ++ [⟨addr, origin, some connId, .called⟩] }
      else some s
    else none
  | .claim j => do
    let d ← s.discs[j]?
    match d.pc with
    | .called =>
      if s.addLock = none then
        match claimDisconnect s.active d.addr d.connId with
        | some (active, id) => some { s.discGoto j d (.claimed id) with active := active }
        | none => some (s.discGoto j d (.done none none))
      else none
    | _ => none
  | .cancel j => do
    let d ← s.discs[j]?
    match d.pc with
    | .called => some (s.discGoto j d (.done none none))
    | _ => none
  | .register j handle => do
    let d ← s.discs[j]?
    match d.pc with
    | .claimed _ =>
      if s.addLock = none then
        let r := registerHandle s.active d.addr handle
        some { s with active := r.1, failures := s.failures ++ r.2 }
      else none
    | _ => none
  | .finalize j => do
    let d ← s.discs[j]?
    match d.pc with
    | .claimed id => some (s.discGoto j d (.dropping id))
    | _ => none
  | .remove j => do
    let d ← s.discs[j]?
    match d.pc with
    | .dropping id =>
      if s.addLock = none then
        match s.active.lookup d.addr with
        | some conn => some ((s.removeConn d.addr).discGoto j d (.removed id conn.id))
        | none => some ((s.removeConn d.addr).discGoto j d (.done (some id) none))
      else none
    | _ => none
  | .notifyDrain j => do
    let d ← s.discs[j]?
    match d.pc with
    | .removed id got => some (s.discGoto j d (.done (some id) (some got)))
    | _ => none
  | .beginShutdown => some { s with flag := true }
  | .enableOnConnect => some { s with onConnect := true }
  | .takeId => some { s with nextId := s.nextId + 1 }

/-- The lifecycle of a node's connections. -/
def lifecycle (cfg : NodeConfig) : Machine State Act := ⟨.init cfg, step cfg⟩

/-! ## A small node -/

/-- A node for three connections, two of them from one IP. -/
def threeSlots : NodeConfig where
  listenerAddr := none
  maxConnections := 3
  maxConnectionsPerIp := 2
  maxConnecting := 2
  maxConnections_pos := by decide
  maxConnectionsPerIp_pos := by decide
  maxConnecting_pos := by decide
  maxConnecting_le := by decide

/-- A peer's address, and the same host seen through a dual-stack listener. -/
def peer : SocketAddr := .v4 0x7f000001#32 4130#16
def mappedPeer : SocketAddr := .v6 (0xffff#96 ++ 0x7f000001#32) 4131#16 0 0

end Pea2Pea
