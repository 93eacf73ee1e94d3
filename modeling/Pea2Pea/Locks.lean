/-
The order of the node's locks: `limits`, `active`, `senders` and `tasks`, in
the functions that take them (`connections.rs`, `node.rs`,
`protocols/mod.rs`, `protocols/writing.rs`).

Where a lock is released is a matter of drop order, so a function is given as
the values it binds and what their destructors do; the acquisitions and
releases are computed from that. A lock guard's destructor releases the lock,
a `ConnectionGuard`'s takes `limits` and releases it.
-/
import Pea2Pea.Lib.LockOrder

namespace Pea2Pea.Locks

open LockOrder (Op Mode Thread Act Wants Holds WaitsFor disciplined)

inductive Lock
  | limits
  | active
  | senders
  | tasks
  deriving DecidableEq

/-! ## Drop order -/

/-- What dropping a value does to the locks. -/
abbrev Destructor := List (Op Lock)

inductive Stmt
  /-- `let x = …;`: the operations, the temporaries that are dropped at the
  end of the statement, and the destructor of `x`. -/
  | bind (ops : List (Op Lock)) (temps : List Destructor) (x : Destructor)
  /-- An expression statement. -/
  | eval (ops : List (Op Lock)) (temps : List Destructor)
  /-- `drop(x)`; the variables are counted in the order of declaration,
  parameters first. -/
  | drop (x : Nat)
  /-- `x` is moved to where its destructor is not run. -/
  | move (x : Nat)

/-- Values are dropped in the reverse order of their declaration. -/
def dropAll (vars : List Destructor) : List (Op Lock) := vars.reverse.flatten

/-- A body, with the variables declared so far. They are dropped when it
returns: the locals before the parameters. -/
def exec : List Destructor → List Stmt → List (Op Lock)
  | vars, [] => dropAll vars
  | vars, .bind ops temps x :: body => ops ++ dropAll temps ++ exec (vars ++ [x]) body
  | vars, .eval ops temps :: body => ops ++ dropAll temps ++ exec vars body
  | vars, .drop x :: body => vars.getD x [] ++ exec (vars.set x []) body
  | vars, .move x :: body => exec (vars.set x []) body

/-- The destructor of a lock guard. -/
def unlock (l : Lock) : Destructor := [.release l]

/-- `let x = l.lock();`, or `read` or `write`. -/
def lockGuard (l : Lock) (m : Mode) : Stmt := .bind [.acquire l m] [] (unlock l)

/-- A statement that uses the guard as a temporary. -/
def lockTemp (l : Lock) (m : Mode) : Stmt := .eval [.acquire l m] [unlock l]

/-! ## The functions -/

/-- The `ConnectionGuard`, or the error, is returned. -/
def checkAndReserve : List (Op Lock) := exec [] [lockGuard .limits .exclusive, lockGuard .active .shared]

/-- `ConnectionGuard::drop` -/
def connectionGuardDrop : Destructor := exec [] [lockGuard .limits .exclusive]

/-- `Connection::drop` aborts the connection's tasks, under no lock of its
own. -/
def connectionDrop : Destructor := []

/-- The parameters of `Connections::add`: `conn`, `guard` and `shutdown`. -/
def addParams : List Destructor := [connectionDrop, connectionGuardDrop, []]

/-- `Connections::add` inserts the connection; `active` and then the guard
are dropped. -/
def addInserted : List (Op Lock) := exec addParams [lockGuard .active .exclusive, .move 0, .drop 3, .drop 1]

/-- `Connections::add` returns its error: all are dropped at the end of
scope. -/
def addRefused : List (Op Lock) := exec addParams [lockGuard .active .exclusive]

/-- `Connections::remove`: `active` is a temporary of the statement. -/
def remove : List (Op Lock) := exec [] [.bind [.acquire .active .exclusive] [unlock .active] connectionDrop, .move 0]

/-- `DisconnectFinalizer::drop`: the sender is removed if Writing is enabled,
then the connection, in a block of its own with `limits`. -/
def disconnectFinalizerDrop (writing : Bool) : Destructor :=
  exec [] ((if writing then [lockTemp .senders .exclusive] else []) ++
    [.bind (exec [] [lockGuard .limits .exclusive, .eval remove []]) [] connectionDrop, .drop 0])

/-- Its local is dropped on each return; the finalizer is returned. -/
def claimDisconnect : List (Op Lock) := exec [] [lockGuard .active .shared]

/-- The scheduling task adds an OnConnect handle, or aborts it. -/
def attachHandle : List (Op Lock) := exec [] [lockTemp .active .exclusive]

/-- The disconnect adds an OnDisconnect handle, or aborts it. -/
def registerHandle : List (Op Lock) := exec [] [lockTemp .active .exclusive]

/-- `SenderCleanup::drop` -/
def senderCleanupDrop : Destructor := exec [] [lockGuard .senders .exclusive]

def adoptWriter : List (Op Lock) := exec [] [lockTemp .senders .exclusive]

/-- The guard is dropped by an error's return, or explicitly once the message
is queued. -/
def queueMessage (found : Bool) : List (Op Lock) :=
  exec [] (lockGuard .senders .shared :: if found then [.drop 0] else [])

/-- `DisconnectOnDrop::drop`: the disconnect is spawned after the
statement. -/
def disconnectOnDropDrop : Destructor := exec [] [lockTemp .active .shared]

def registerTask : List (Op Lock) := exec [] [lockGuard .tasks .exclusive]

/-- `shut_down` takes the tasks, then the addresses that are connected. -/
def shutDownSnapshot : List (Op Lock) := exec [] [lockTemp .tasks .exclusive, lockTemp .active .shared]

/-- A call of one of the functions. -/
inductive Fn
  | checkAndReserve
  | connectionGuardDrop
  | addInserted
  | addRefused
  | disconnectFinalizerDrop (writing : Bool)
  | claimDisconnect
  | attachHandle
  | registerHandle
  | senderCleanupDrop
  | adoptWriter
  | queueMessage (found : Bool)
  | disconnectOnDropDrop
  | registerTask
  | shutDownSnapshot
  deriving DecidableEq

def Fn.ops : Fn → List (Op Lock)
  | .checkAndReserve => Locks.checkAndReserve
  | .connectionGuardDrop => Locks.connectionGuardDrop
  | .addInserted => Locks.addInserted
  | .addRefused => Locks.addRefused
  | .disconnectFinalizerDrop writing => Locks.disconnectFinalizerDrop writing
  | .claimDisconnect => Locks.claimDisconnect
  | .attachHandle => Locks.attachHandle
  | .registerHandle => Locks.registerHandle
  | .senderCleanupDrop => Locks.senderCleanupDrop
  | .adoptWriter => Locks.adoptWriter
  | .queueMessage found => Locks.queueMessage found
  | .disconnectOnDropDrop => Locks.disconnectOnDropDrop
  | .registerTask => Locks.registerTask
  | .shutDownSnapshot => Locks.shutDownSnapshot

/-- Any number of calls, interleaved. -/
def locks : Machine (List (Thread Lock)) (Act Fn) := LockOrder.threads Fn.ops

/-! ## The order -/

/-- `limits` before `active`; the others are taken alone. -/
def Lock.rank : Lock → Nat
  | .limits => 0
  | .active => 1
  | .senders => 2
  | .tasks => 3

theorem Fn.disciplined (f : Fn) : disciplined Lock.rank [] f.ops = true := by
  cases f with
  | disconnectFinalizerDrop writing => cases writing <;> decide
  | queueMessage found => cases found <;> decide
  | _ => decide

/-- Both outcomes of `add` release `active` before they take `limits`. -/
example : addRefused = addInserted := by decide

/-- No calls wait for one another, none for itself, and while one is not
through some call can go on. -/
structure DeadlockFree (ts : List (Thread Lock)) : Prop where
  cycle : ∀ S : Set Nat, S.Nonempty → ¬ ∀ i ∈ S, ∃ j ∈ S, WaitsFor ts i j
  again : ∀ i l, Wants ts i l → ¬ Holds ts i l
  progress : (∃ t ∈ ts, t.rest ≠ []) → ∃ i, (locks.step ts (.run i)).isSome = true

theorem deadlock_free (ts : List (Thread Lock)) (h : locks.Reachable ts) : DeadlockFree ts := by
  have hd := LockOrder.disciplined_reachable Fn.disciplined h
  refine ⟨LockOrder.no_cycle hd, fun i l => LockOrder.not_wants_held hd, fun hrest => ?_⟩
  obtain ⟨i, hi, -⟩ := LockOrder.progress hd Fn.ops hrest
  exact ⟨i, hi⟩

/-- A reservation waits for `active` with `limits` held, while an `add` has
`active` and a finalizer is at `limits`. -/
theorem deadlock_free_contended : ∃ ts, locks.Reachable ts ∧ (WaitsFor ts 0 1 ∧ WaitsFor ts 2 0) ∧
    DeadlockFree ts := by
  obtain ⟨ts, hts, hp⟩ := locks.exists_reachable
    [.call .checkAndReserve, .call .addRefused, .call (.disconnectFinalizerDrop true), .run 0, .run 1, .run 2, .run 2]
    (fun ts => ts = [⟨[(.limits, .exclusive)], checkAndReserve.tail⟩, ⟨[(.active, .exclusive)], addRefused.tail⟩,
      ⟨[], (disconnectFinalizerDrop true).drop 2⟩])
    (by decide)
  have hts' := of_decide_eq_true hp
  refine ⟨ts, hts, ⟨⟨.active, ?_, ?_⟩, .limits, ?_, ?_⟩, deadlock_free ts hts⟩ <;> subst hts'
  · exact ⟨_, _, _, rfl, rfl⟩
  · exact ⟨_, rfl, rfl⟩
  · exact ⟨_, _, _, rfl, rfl⟩
  · exact ⟨_, rfl, rfl⟩

end Pea2Pea.Locks
