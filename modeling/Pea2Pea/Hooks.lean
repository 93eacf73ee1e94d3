/-
OnConnect and OnDisconnect over the shutdown system (`adapt_stream`,
`disconnect_w_origin`, `protocols/on_connect.rs`, `on_disconnect.rs`): the
triggers, the two handler loops with their channels, the response oneshots,
and the hook tasks.

A trigger is a request to its loop, made by a scheduling task or by a
disconnect. The loop spawns the hook and sends its handle through the
oneshot; from there it goes to the connection's tasks, or the caller drops
it. A dropped handle detaches its task: nothing can abort the hook any more.

The connection's other tasks are left out, so an inserted connection has
none. Its `Connection::drop`, which aborts its tasks, is one step with the
notification that follows the removal from `active`. A hook may panic, a loop
does not (the implementor's `Clone`, which it calls, is taken not to).
-/
import Pea2Pea.HandlerLoop
import Pea2Pea.Shutdown

namespace Pea2Pea.Hooks

open Shutdown (NodeTask)
open HandlerLoop (ReqPc)
open Tasks (abort abortAll)

/-- The two hook protocols. -/
inductive Side
  | connect
  | disconnect
  deriving DecidableEq

/-- The future that made a trigger: a scheduling task, or a disconnect. -/
inductive CallerPc
  /-- In `trigger`, or in `await_handler_response`. -/
  | waiting
  /-- The channel is closed: in the grace period. -/
  | grace
  /-- It has the hook's handle. -/
  | responded (hook : Handle)
  /-- The handle is with the connection; the hook's end is awaited. -/
  | registered (hook : Handle)
  /-- It is through with the hook. -/
  | over
  /-- It was dropped. -/
  | cancelled
  deriving DecidableEq

/-- The response oneshot. -/
inductive Reply
  | empty
  /-- The hook's handle is in it. -/
  | sent (hook : Handle)
  /-- The caller has read it. -/
  | read (hook : Handle)
  /-- It was dropped with the handle in it, or the handle did not get in. -/
  | lost (hook : Handle)
  deriving DecidableEq

/-- A trigger, for the connection instance `id`. -/
structure Trigger where
  owner : Nat
  id : Nat
  caller : CallerPc
  reply : Reply
  deriving DecidableEq

/-- A hook task: the trigger it is for. -/
structure Hook where
  side : Side
  trigger : Nat
  status : TaskStatus
  deriving DecidableEq

instance : HasStatus Hook := ⟨Hook.status, fun y st => { y with status := st }, fun _ _ => rfl⟩

@[simp] theorem Hook.status_eq (y : Hook) : HasStatus.status y = y.status := rfl

/-- A protocol's handler. -/
structure Handler where
  loop : HandlerLoop.State
  /-- The loop's task, once the handler is published. -/
  task : Option Handle
  /-- Whether the loop's future, aborted, has been dropped. -/
  dropped : Bool
  /-- The triggers, by their requests. -/
  triggers : List Trigger

structure State where
  base : Shutdown.State
  connect : Handler
  disconnect : Handler
  /-- The hook tasks, by their handles. -/
  hooks : List Hook
  /-- The disconnects that found OnDisconnect not enabled. -/
  skipped : List Nat
  /-- The tasks of the connection a disconnect has removed. -/
  removed : List (Nat × List Handle)

def Handler.init (cfg : NodeConfig) : Handler where
  loop := .init cfg.maxConnections
  task := none
  dropped := false
  triggers := []

def State.init (cfg : NodeConfig) : State where
  base := .init cfg
  connect := .init cfg
  disconnect := .init cfg
  hooks := []
  skipped := []
  removed := []

inductive Act
  | base (a : Shutdown.Act)
  /-- The scheduling task or the claimed disconnect `i` looks its handler up
  and triggers it. -/
  | trigger (side : Side) (i : Nat)
  /-- A trigger's send, or the loop. -/
  | loop (side : Side) (a : HandlerLoop.Act)
  /-- A trigger's send finds the channel closed. -/
  | sendFailed (side : Side) (q : Nat)
  /-- The loop's task, aborted, is dropped. -/
  | dropLoop (side : Side)
  /-- The caller reads the response. -/
  | respond (side : Side) (q : Nat)
  /-- The caller finds the response sender gone. -/
  | noResponse (side : Side) (q : Nat)
  /-- The caller finds the channel closed. -/
  | closing (side : Side) (q : Nat)
  | graceExpired (side : Side) (q : Nat)
  /-- The scheduling task adds an abortable hook to its connection. -/
  | attach (q : Nat)
  /-- The disconnect adds the hook to the connection. -/
  | register (q : Nat)
  /-- The disconnect finds its hook over. -/
  | waited (q : Nat)
  /-- The disconnect's future is dropped at an await. -/
  | cancelDisc (q : Nat)
  /-- The hook completes, times out or panics. -/
  | hookDone (h : Handle)
  deriving DecidableEq

namespace State

def get (s : State) : Side → Handler
  | .connect => s.connect
  | .disconnect => s.disconnect

def put (s : State) (side : Side) (x : Handler) : State :=
  match side with
  | .connect => { s with connect := x }
  | .disconnect => { s with disconnect := x }

end State

/-- The protocol's node task. -/
def Side.kind : Side → NodeTask
  | .connect => .onConnect
  | .disconnect => .onDisconnect

/-- Where a request is left when its caller is dropped: a send that waits for
a slot comes to nothing. -/
def cancelSend : ReqPc → ReqPc
  | .sending => .unsent
  | pc => pc

def CallerPc.listening : CallerPc → Bool
  | .waiting | .grace => true
  | _ => false

/-- A disconnect there is at an await. -/
def CallerPc.atAwait : CallerPc → Bool
  | .waiting | .grace | .registered _ => true
  | _ => false

/-- The response oneshot when its receiver is dropped. -/
def Reply.drop : Reply → Reply
  | .sent h => .lost h
  | r => r

/-- The hook's handle, wherever it went. -/
def Reply.hook : Reply → Option Handle
  | .empty => none
  | .sent h | .read h | .lost h => some h

/-- The tasks of the connection the disconnect `j` has removed. -/
def removedTasks (removed : List (Nat × List Handle)) (j : Nat) : List Handle :=
  (removed.filter fun r => r.1 == j).flatMap (·.2)

namespace Handler

def goto (x : Handler) (q : Nat) (t : Trigger) (pc : CallerPc) (reply : Reply) : Handler :=
  { x with triggers := x.triggers.set q { t with caller := pc, reply := reply } }

/-- The caller `i` is through with its hook. -/
def served (x : Handler) (i : Nat) : Bool := x.triggers.any fun t => t.owner == i && t.caller == .over

/-- The acts of a trigger's send are its caller's; those of the loop need
the loop, which an abort stops only at its next await. -/
def allows (x : Handler) : HandlerLoop.Act → Bool
  | .acquire _ | .write _ => true
  | .subscribe | .pollRecv | .pollShutdown | .wake | .exit => x.task.isSome && !x.dropped
  | _ => false

/-- The loop has a receiver of the shutdown signal. -/
def subscribed (x : Handler) : Bool := x.loop.pc.subscribed && !x.dropped

/-- `signal_handlers`, the value being stored or not. -/
def signaled (x : Handler) (stored : Bool) : Handler :=
  { x with loop := { x.loop with signal := x.loop.signal || stored } }

/-- The request the loop receives when it is polled. -/
def receives (x : Handler) (a : HandlerLoop.Act) : Option Nat :=
  if a = .pollRecv ∧ x.loop.pc = .recv then x.loop.chan.queue.head? else none

/-- The receiver is dropped with the loop's future: the channel is closed
and what is queued is dropped (a value still being written is not). -/
def abandon (x : Handler) : Handler :=
  { x with
    loop := { x.loop with
      chan := { x.loop.chan with queue := [], closed := true }
      reqs := x.loop.reqs.map fun r => if r.pc = .queued then { r with pc := .unsent } else r
      pc := .parked }
    dropped := true }

/-- A new request, and its trigger. -/
def request (x : Handler) (t : Trigger) : Handler :=
  { x with
    loop := { x.loop with reqs := x.loop.reqs ++ [⟨.sending, false⟩] }
    triggers := x.triggers ++ [t] }

end Handler

namespace State

/-- The loop, in the handler `x`, processes request `q`: the hook is spawned
and its handle sent. Without a receiver the hook is aborted, unless it must
run to completion. -/
def process (s : State) (abortable : Bool) (side : Side) (x : Handler) (q : Nat) (t : Trigger) : State :=
  let h := s.hooks.length
  if t.caller.listening then
    { s.put side (x.goto q t t.caller (.sent h)) with hooks := s.hooks ++ [⟨side, q, .running⟩] }
  else
    { s.put side (x.goto q t t.caller (.lost h)) with
      hooks := s.hooks ++ [⟨side, q, if side = .disconnect ∨ abortable then .aborted else .running⟩] }

/-- The steps of the shutdown system that are nobody's here: the handles are
attached and registered by acts of their own, a scheduling task and a
disconnect go on when they are through with their hooks, a loop's task ends
with the loop, and the shutdown signal is stored if one of the loops has
subscribed. Without that it may be stored as well, by the other protocols'
loops. -/
def free (s : State) : Shutdown.Act → Bool
  | .base (.attach _ _) | .base (.register _ _) => false
  | .base (.insert _ tasks) => tasks = []
  | .base (.schedDone k) => s.connect.served k
  | .base (.finalize j) => j ∈ s.skipped ∨ s.disconnect.served j
  | .finishTask h =>
    (s.connect.task = some h → s.connect.loop.pc = .exited) ∧
      (s.disconnect.task = some h → s.disconnect.loop.pc = .exited)
  | .signalHandlers _ stored => stored || !(s.connect.subscribed || s.disconnect.subscribed)
  | _ => true

/-- A handler is published: the call's task is its loop's. -/
def wire (s : State) (c : Nat) (side : Side) : Handler :=
  match s.base.calls[c]? with
  | some ⟨kind, _, .registered h⟩ =>
    if kind = side.kind ∧ kind ∉ s.base.published then { s.get side with task := some h } else s.get side
  | _ => s.get side

/-- What a step of the shutdown system is here besides. -/
def react (s : State) : Shutdown.Act → State
  | .publish c => { s with connect := s.wire c .connect, disconnect := s.wire c .disconnect }
  | .signalHandlers _ stored =>
    { s with connect := s.connect.signaled stored, disconnect := s.disconnect.signaled stored }
  | .base (.remove j) =>
    match (s.base.base.discs[j]?).bind fun d => s.base.base.active.lookup d.addr with
    | some conn => { s with removed := (j, conn.tasks) :: s.removed }
    | none => s
  | .base (.notifyDrain j) =>
    { s with hooks := abortAll s.hooks (removedTasks s.removed j) }
  | _ => s

/-- The connection instance the scheduling task or disconnect `i` triggers
its hook for. -/
def callerId (s : State) : Side → Nat → Option Nat
  | .connect, k => do
    let u ← s.base.base.scheds[k]?
    if u.pc = .running then some u.id else none
  | .disconnect, j => do
    let d ← s.base.base.discs[j]?
    match d.pc with
    | .claimed id => some id
    | _ => none

end State

def step (cfg : NodeConfig) (abortable : Bool) (s : State) : Act → Option State
  | .base a => do
    let b ← Shutdown.step cfg s.base a
    if s.free a then some { s.react a with base := b } else none
  | .trigger side i => do
    let id ← s.callerId side i
    let x := s.get side
    if (∀ t ∈ x.triggers, t.owner ≠ i) ∧ (side = .disconnect → i ∉ s.skipped) then
      match x.task with
      | some _ => some (s.put side (x.request ⟨i, id, .waiting, .empty⟩))
      | none => if side = .disconnect then some { s with skipped := i :: s.skipped } else none
    else none
  | .loop side a => do
    let x := s.get side
    if x.allows a then
      let l ← HandlerLoop.step .hook x.loop a
      match x.receives a with
      | some q => do
        let t ← x.triggers[q]?
        some (s.process abortable side { x with loop := l } q t)
      | none => some (s.put side { x with loop := l })
    else none
  | .sendFailed side q => do
    let x := s.get side
    if x.loop.chan.closed then
      let l ← HandlerLoop.step .hook x.loop (.giveUp q)
      some (s.put side { x with loop := l })
    else none
  | .dropLoop side => do
    let x := s.get side
    let h ← x.task
    let t ← s.base.tasks[h]?
    if t.status = .aborted ∧ x.loop.pc ≠ .exited ∧ x.dropped = false then some (s.put side x.abandon) else none
  | .respond side q => do
    let x := s.get side
    let t ← x.triggers[q]?
    match t.reply with
    | .sent h =>
      if t.caller.listening then
        -- the handle of a hook that must run to completion is leaked
        let pc := if side = .connect ∧ abortable = false then .over else .responded h
        some (s.put side (x.goto q t pc (.read h)))
      else none
    | _ => none
  | .noResponse side q => do
    let x := s.get side
    let t ← x.triggers[q]?
    let r ← x.loop.reqs[q]?
    if t.caller.listening ∧ (r.pc = .unsent ∨ r.pc = .dropped) then some (s.put side (x.goto q t .over t.reply))
    else none
  | .closing side q => do
    let x := s.get side
    let t ← x.triggers[q]?
    let r ← x.loop.reqs[q]?
    if t.caller = .waiting ∧ t.reply = .empty ∧ x.loop.chan.closed ∧ r.pc ≠ .sending ∧ r.pc ≠ .acquired then
      some (s.put side (x.goto q t .grace t.reply))
    else none
  | .graceExpired side q => do
    let x := s.get side
    let t ← x.triggers[q]?
    if t.caller = .grace then some (s.put side (x.goto q t .over t.reply.drop)) else none
  | .attach q => do
    let t ← s.connect.triggers[q]?
    match t.caller with
    | .responded h => do
      let u ← s.base.base.scheds[t.owner]?
      let b ← Shutdown.step cfg s.base (.base (.attach t.owner h))
      let taken := (attachHandle s.base.base.active u.addr u.id h).2
      some { s with
        base := b
        connect := s.connect.goto q t .over t.reply
        hooks := if taken then s.hooks else abort s.hooks h }
    | _ => none
  | .register q => do
    let t ← s.disconnect.triggers[q]?
    match t.caller with
    | .responded h => do
      let d ← s.base.base.discs[t.owner]?
      let b ← Shutdown.step cfg s.base (.base (.register t.owner h))
      some { s with
        base := b
        disconnect := s.disconnect.goto q t (.registered h) t.reply
        hooks := if (s.base.base.active.lookup d.addr).isSome then s.hooks else abort s.hooks h }
    | _ => none
  | .waited q => do
    let t ← s.disconnect.triggers[q]?
    match t.caller with
    | .registered h =>
      if (s.hooks[h]?).all (·.status ≠ .running) then
        some { s with disconnect := s.disconnect.goto q t .over t.reply }
      else none
    | _ => none
  | .cancelDisc q => do
    let t ← s.disconnect.triggers[q]?
    let r ← s.disconnect.loop.reqs[q]?
    let b ← Shutdown.step cfg s.base (.base (.finalize t.owner))
    -- between the slot and the write there is no await
    if s.base.free (.cancel t.owner) ∧ r.pc ≠ .acquired then
      let x := { s.disconnect with loop := s.disconnect.loop.reqGoto q r (cancelSend r.pc) }
      if t.caller.atAwait then some { s with base := b, disconnect := x.goto q t .cancelled t.reply.drop } else none
    else none
  | .hookDone h => do
    let x ← s.hooks[h]?
    if x.status = .running then some { s with hooks := s.hooks.set h { x with status := .finished } } else none

/-- The node with its hooks; `abortable` is `OnConnect::ABORTABLE`. -/
def hooks (cfg : NodeConfig) (abortable : Bool) : Machine State Act := ⟨.init cfg, step cfg abortable⟩

/-! ## The steps as a relation -/

inductive StepR (cfg : NodeConfig) (abortable : Bool) (s : State) : Act → State → Prop
  | base {a b} (hb : Shutdown.step cfg s.base a = some b) (hf : s.free a = true) :
      StepR cfg abortable s (.base a) { s.react a with base := b }
  | trigger {side i id h} (hi : s.callerId side i = some id) (hn : ∀ t ∈ (s.get side).triggers, t.owner ≠ i)
      (hk : side = .disconnect → i ∉ s.skipped) (ht : (s.get side).task = some h) :
      StepR cfg abortable s (.trigger side i) (s.put side ((s.get side).request ⟨i, id, .waiting, .empty⟩))
  | skip {j id} (hj : s.callerId .disconnect j = some id) (hn : ∀ t ∈ s.disconnect.triggers, t.owner ≠ j)
      (ht : s.disconnect.task = none) :
      StepR cfg abortable s (.trigger .disconnect j) { s with skipped := j :: s.skipped }
  | loop {side a l} (ha : (s.get side).allows a = true) (hl : HandlerLoop.step .hook (s.get side).loop a = some l)
      (hr : (s.get side).receives a = none) :
      StepR cfg abortable s (.loop side a) (s.put side { s.get side with loop := l })
  | receive {side a l q t} (ha : (s.get side).allows a = true)
      (hl : HandlerLoop.step .hook (s.get side).loop a = some l) (hr : (s.get side).receives a = some q)
      (ht : (s.get side).triggers[q]? = some t) (hc : t.caller.listening = true) :
      StepR cfg abortable s (.loop side a) { s.put side
          (Handler.goto { s.get side with loop := l } q t t.caller (.sent s.hooks.length)) with
        hooks := s.hooks ++ [⟨side, q, .running⟩] }
  | receiveLate {side a l q t} (ha : (s.get side).allows a = true)
      (hl : HandlerLoop.step .hook (s.get side).loop a = some l) (hr : (s.get side).receives a = some q)
      (ht : (s.get side).triggers[q]? = some t) (hc : t.caller.listening = false) :
      StepR cfg abortable s (.loop side a) { s.put side
          (Handler.goto { s.get side with loop := l } q t t.caller (.lost s.hooks.length)) with
        hooks := s.hooks ++ [⟨side, q, if side = .disconnect ∨ abortable then .aborted else .running⟩] }
  | sendFailed {side q l} (hc : (s.get side).loop.chan.closed = true)
      (hl : HandlerLoop.step .hook (s.get side).loop (.giveUp q) = some l) :
      StepR cfg abortable s (.sendFailed side q) (s.put side { s.get side with loop := l })
  | dropLoop {side h t} (ht : (s.get side).task = some h) (hh : s.base.tasks[h]? = some t)
      (ha : t.status = .aborted) (hpc : (s.get side).loop.pc ≠ .exited) :
      StepR cfg abortable s (.dropLoop side) (s.put side (s.get side).abandon)
  | respond {side q t h} (ht : (s.get side).triggers[q]? = some t) (hr : t.reply = .sent h)
      (hc : t.caller.listening = true) :
      StepR cfg abortable s (.respond side q) (s.put side ((s.get side).goto q t
        (if side = .connect ∧ abortable = false then .over else .responded h) (.read h)))
  | noResponse {side q t r} (ht : (s.get side).triggers[q]? = some t) (hr : (s.get side).loop.reqs[q]? = some r)
      (hc : t.caller.listening = true) (hpc : r.pc = .unsent ∨ r.pc = .dropped) :
      StepR cfg abortable s (.noResponse side q) (s.put side ((s.get side).goto q t .over t.reply))
  | closing {side q t r} (ht : (s.get side).triggers[q]? = some t) (hr : (s.get side).loop.reqs[q]? = some r)
      (hc : t.caller = .waiting) (he : t.reply = .empty) (hx : (s.get side).loop.chan.closed = true)
      (hs : r.pc ≠ .sending) (ha : r.pc ≠ .acquired) :
      StepR cfg abortable s (.closing side q) (s.put side ((s.get side).goto q t .grace t.reply))
  | graceExpired {side q t} (ht : (s.get side).triggers[q]? = some t) (hc : t.caller = .grace) :
      StepR cfg abortable s (.graceExpired side q) (s.put side ((s.get side).goto q t .over t.reply.drop))
  | attach {q t h u b} (ht : s.connect.triggers[q]? = some t) (hc : t.caller = .responded h)
      (hu : s.base.base.scheds[t.owner]? = some u)
      (hb : Shutdown.step cfg s.base (.base (.attach t.owner h)) = some b) :
      StepR cfg abortable s (.attach q) { s with
        base := b
        connect := s.connect.goto q t .over t.reply
        hooks := if (attachHandle s.base.base.active u.addr u.id h).2 then s.hooks else abort s.hooks h }
  | register {q t h d b} (ht : s.disconnect.triggers[q]? = some t) (hc : t.caller = .responded h)
      (hd : s.base.base.discs[t.owner]? = some d)
      (hb : Shutdown.step cfg s.base (.base (.register t.owner h)) = some b) :
      StepR cfg abortable s (.register q) { s with
        base := b
        disconnect := s.disconnect.goto q t (.registered h) t.reply
        hooks := if (s.base.base.active.lookup d.addr).isSome then s.hooks else abort s.hooks h }
  | waited {q t h} (ht : s.disconnect.triggers[q]? = some t) (hc : t.caller = .registered h)
      (hn : ∀ y, s.hooks[h]? = some y → y.status ≠ .running) :
      StepR cfg abortable s (.waited q) { s with disconnect := s.disconnect.goto q t .over t.reply }
  | cancelDisc {q t r b} (ht : s.disconnect.triggers[q]? = some t) (hr : s.disconnect.loop.reqs[q]? = some r)
      (hb : Shutdown.step cfg s.base (.base (.finalize t.owner)) = some b) (hna : r.pc ≠ .acquired)
      (hc : t.caller.atAwait = true) :
      StepR cfg abortable s (.cancelDisc q) { s with
        base := b
        disconnect := Handler.goto
          { s.disconnect with loop := s.disconnect.loop.reqGoto q r (cancelSend r.pc) } q t .cancelled t.reply.drop }
  | hookDone {h y} (hy : s.hooks[h]? = some y) (hr : y.status = .running) :
      StepR cfg abortable s (.hookDone h) { s with hooks := s.hooks.set h { y with status := .finished } }

theorem step_sound {cfg : NodeConfig} {abortable : Bool} {s s' : State} {a : Act}
    (h : step cfg abortable s a = some s') : StepR cfg abortable s a s' := by
  cases a <;> simp only [step, Option.bind_eq_bind, Option.bind_eq_some_iff] at h
  case base =>
    obtain ⟨b, hb, h⟩ := h
    split at h
    next hf => cases h; exact .base hb hf
    · cases h
  case trigger side i =>
    obtain ⟨id, hi, h⟩ := h
    split at h
    next hc =>
      split at h
      next ht => cases h; exact .trigger hi hc.1 hc.2 ht
      next ht =>
        split at h
        next hs => subst hs; cases h; exact .skip hi hc.1 ht
        · cases h
    · cases h
  case loop =>
    split at h
    next ha =>
      obtain ⟨l, hl, h⟩ := Option.bind_eq_some_iff.mp h
      split at h
      next hr =>
        obtain ⟨t, ht, h⟩ := Option.bind_eq_some_iff.mp h
        unfold State.process at h
        cases hc : t.caller.listening with
        | true => rw [hc] at h; cases h; exact .receive ha hl hr ht hc
        | false => rw [hc] at h; cases h; exact .receiveLate ha hl hr ht hc
      next hr => cases h; exact .loop ha hl hr
    · cases h
  case sendFailed =>
    split at h
    next hc =>
      obtain ⟨l, hl, h⟩ := Option.bind_eq_some_iff.mp h
      cases h
      exact .sendFailed hc hl
    · cases h
  case dropLoop =>
    obtain ⟨t, ht, x, hx, h⟩ := h
    split at h
    next hc => cases h; exact .dropLoop ht hx hc.1 hc.2.1
    · cases h
  case respond =>
    obtain ⟨t, ht, h⟩ := h
    split at h
    next hr =>
      split at h
      next hc => cases h; exact .respond ht hr hc
      · cases h
    · cases h
  case noResponse =>
    obtain ⟨t, ht, r, hr, h⟩ := h
    split at h
    next hc => cases h; exact .noResponse ht hr hc.1 hc.2
    · cases h
  case closing =>
    obtain ⟨t, ht, r, hr, h⟩ := h
    split at h
    next hc => cases h; exact .closing ht hr hc.1 hc.2.1 hc.2.2.1 hc.2.2.2.1 hc.2.2.2.2
    · cases h
  case graceExpired =>
    obtain ⟨t, ht, h⟩ := h
    split at h
    next hc => cases h; exact .graceExpired ht hc
    · cases h
  case attach =>
    obtain ⟨t, ht, h⟩ := h
    split at h
    next hc =>
      simp only [Option.bind_eq_some_iff] at h
      obtain ⟨u, hu, b, hb, h⟩ := h
      cases h
      exact .attach ht hc hu hb
    · cases h
  case register =>
    obtain ⟨t, ht, h⟩ := h
    split at h
    next hc =>
      simp only [Option.bind_eq_some_iff] at h
      obtain ⟨d, hd, b, hb, h⟩ := h
      cases h
      exact .register ht hc hd hb
    · cases h
  case waited =>
    obtain ⟨t, ht, h⟩ := h
    split at h
    next hc =>
      split at h
      next hn =>
        cases h
        refine .waited ht hc fun y hy => ?_
        rw [hy] at hn
        simpa using hn
      · cases h
    · cases h
  case cancelDisc =>
    obtain ⟨t, ht, r, hr, b, hb, h⟩ := h
    split at h
    next hc =>
      split at h
      next ha => cases h; exact .cancelDisc ht hr hb hc.2 ha
      · cases h
    · cases h
  case hookDone =>
    obtain ⟨y, hy, h⟩ := h
    split at h
    next hr => cases h; exact .hookDone hy hr
    · cases h

@[simp] theorem State.put_base (s : State) (side : Side) (x : Handler) : (s.put side x).base = s.base := by
  cases side <;> rfl

/-- Seen without the hooks, a run is a run of the shutdown system. -/
theorem projects (cfg : NodeConfig) (abortable : Bool) :
    (hooks cfg abortable).Projects (Shutdown.shutdown cfg) State.base where
  init := rfl
  step {s s' a} h := by
    cases step_sound h with
    | base hb => exact ⟨_, Shutdown.shutdown_run hb⟩
    | attach ht hc hu hb => exact ⟨_, Shutdown.shutdown_run hb⟩
    | register ht hc hd hb => exact ⟨_, Shutdown.shutdown_run hb⟩
    | cancelDisc ht hr hb => exact ⟨_, Shutdown.shutdown_run hb⟩
    | receive | receiveLate => exact ⟨[], congrArg some (State.put_base ..).symm⟩
    | trigger | loop | sendFailed | dropLoop | respond | noResponse | closing | graceExpired =>
      exact ⟨[], congrArg some (State.put_base ..).symm⟩
    | skip | waited | hookDone => exact ⟨[], rfl⟩

end Pea2Pea.Hooks
