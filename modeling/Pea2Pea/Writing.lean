/-
The Writing protocol over the lifecycle (`protocols/writing.rs`): setup
requests, the writer tasks they spawn, and the `senders` map.

A request carries the connection from the setup that triggered it (its
driver) to the handler loop, to a setup task, and back through the response
oneshot. The driver may be gone at any of these points: dropping a `connect`
future drops the receiver, not the request, and the setup task runs on.
-/
import Pea2Pea.LifecycleFacts

namespace Pea2Pea.Writing

/-- Where a setup request is. -/
inductive RequestPc
  /-- In the handler's channel. -/
  | queued
  /-- In `handle_new_connection`, before it spawns the writer task. -/
  | running
  /-- Awaiting the readiness of writer `w`. -/
  | spawned (w : Nat)
  /-- Past `adopt_writer`, the connection not returned yet. -/
  | adopted
  /-- The connection is in the response oneshot (and dropped with it if the
  driver is gone). -/
  | returned
  /-- The driver has the connection back. -/
  | received
  /-- The connection was dropped on the way. -/
  | gone
  deriving DecidableEq

structure Request where
  driver : Nat
  addr : SocketAddr
  id : Nat
  pc : RequestPc
  deriving DecidableEq

/-- Where a writer task is. -/
inductive WriterPc
  /-- Spawned, its readiness not signaled. -/
  | starting
  | running
  /-- Out of its loop, or aborted; its `SenderCleanup` not dropped. -/
  | ending
  | gone
  deriving DecidableEq

structure Writer where
  addr : SocketAddr
  id : Nat
  pc : WriterPc
  deriving DecidableEq

structure State where
  base : Pea2Pea.State
  /-- Whether Writing has been enabled. -/
  enabled : Bool
  requests : List Request
  writers : List Writer
  /-- `WritingSenders`: the id each published sender is tagged with. -/
  senders : Table SocketAddr Nat

inductive Act
  | base (a : Pea2Pea.Act)
  | enable
  /-- `enable_protocol!(writing, ..)` sends the connection of setup `i`. -/
  | trigger (i : Nat)
  /-- The handler loop spawns a setup task for the request. -/
  | spawnSetup (q : Nat)
  /-- The handler loop drops the request: it is draining. -/
  | dropRequest (q : Nat)
  /-- `Writing::codec` panicked, or the stream was not returned. -/
  | failSetup (q : Nat)
  /-- The setup task is aborted (with its loop's `JoinSet`). -/
  | abortSetup (q : Nat)
  | spawnWriter (q : Nat)
  | signalReady (w : Nat)
  | adoptWriter (q : Nat)
  | returnConn (q : Nat)
  | receive (q : Nat)
  /-- The writer leaves its loop, or its abort is carried out. -/
  | endWriter (w : Nat)
  /-- `SenderCleanup::drop`. -/
  | cleanup (w : Nat)
  deriving DecidableEq

namespace State

/-- The driver of the request is waiting for its response. -/
def waiting (s : State) (r : Request) : Bool := (s.base.setups[r.driver]?).any (·.pc == .protocols r.id)

/-- The setup is past Writing: it has its connection back, or found the
protocol not enabled. -/
def pastWriting (s : State) (t : Setup) : Bool :=
  match t.pc with
  | .protocols id => match s.requests.find? (·.id == id) with
    | some r => r.pc == .received
    | none => !s.enabled
  | _ => false

/-- The setup task of writer `w`, of connection `id`, is at its readiness
await. -/
def awaited (s : State) (w id : Nat) : Bool := s.requests.any fun r => r.id == id && r.pc == .spawned w

def requestGoto (s : State) (q : Nat) (r : Request) (pc : RequestPc) : State :=
  { s with requests := s.requests.set q { r with pc := pc } }

def writerGoto (s : State) (w : Nat) (x : Writer) (pc : WriterPc) : State :=
  { s with writers := s.writers.set w { x with pc := pc } }

end State

/-- `adopt_writer`: the sender is published, whatever was there. -/
def adoptWriter (senders : Table SocketAddr Nat) (addr : SocketAddr) (connId : Nat) : Table SocketAddr Nat :=
  senders.insert addr connId

/-- `SenderCleanup::drop`: the entry is removed if it is still its own. -/
def senderCleanup (senders : Table SocketAddr Nat) (addr : SocketAddr) (connId : Nat) : Table SocketAddr Nat :=
  if senders.lookup addr = some connId then senders.erase addr else senders

def step (cfg : NodeConfig) (s : State) : Act → Option State
  | .base (.wired i) => do
    let t ← s.base.setups[i]?
    if s.pastWriting t then
      let b ← Pea2Pea.step cfg s.base (.wired i)
      some { s with base := b }
    else none
  | .base (.finalize j) => do
    let d ← s.base.discs[j]?
    let b ← Pea2Pea.step cfg s.base (.finalize j)
    some { s with base := b, senders := if s.enabled then s.senders.erase d.addr else s.senders }
  | .base a => do
    let b ← Pea2Pea.step cfg s.base a
    some { s with base := b }
  | .enable => some { s with enabled := true }
  | .trigger i => do
    let t ← s.base.setups[i]?
    match t.pc with
    | .protocols id =>
      -- a setup triggers the protocol once
      if s.enabled ∧ ∀ r ∈ s.requests, r.id ≠ id then
        some { s with requests := s.requests ++ [⟨i, t.addr, id, .queued⟩] }
      else none
    | _ => none
  | .spawnSetup q => do
    let r ← s.requests[q]?
    match r.pc with
    | .queued => some (s.requestGoto q r .running)
    | _ => none
  | .dropRequest q => do
    let r ← s.requests[q]?
    match r.pc with
    | .queued => some (s.requestGoto q r .gone)
    | _ => none
  | .failSetup q => do
    let r ← s.requests[q]?
    match r.pc with
    | .running => some (s.requestGoto q r .gone)
    | _ => none
  | .abortSetup q => do
    let r ← s.requests[q]?
    match r.pc with
    | .running | .spawned _ => some (s.requestGoto q r .gone)
    | _ => none
  | .spawnWriter q => do
    let r ← s.requests[q]?
    match r.pc with
    | .running =>
      some { s.requestGoto q r (.spawned s.writers.length) with writers := s.writers ++ [⟨r.addr, r.id, .starting⟩] }
    | _ => none
  | .signalReady w => do
    let x ← s.writers[w]?
    match x.pc with
    -- with the setup task gone the signal fails, and the task returns
    | .starting => some (s.writerGoto w x (if s.awaited w x.id then .running else .ending))
    | _ => none
  | .adoptWriter q => do
    let r ← s.requests[q]?
    match r.pc with
    | .spawned w =>
      if (s.writers[w]?).any (·.pc != .starting) then
        some { s.requestGoto q r .adopted with senders := adoptWriter s.senders r.addr r.id }
      else none
    | _ => none
  | .returnConn q => do
    let r ← s.requests[q]?
    match r.pc with
    | .adopted => some (s.requestGoto q r (if s.waiting r then .returned else .gone))
    | _ => none
  | .receive q => do
    let r ← s.requests[q]?
    match r.pc with
    | .returned => if s.waiting r then some (s.requestGoto q r .received) else none
    | _ => none
  | .endWriter w => do
    let x ← s.writers[w]?
    match x.pc with
    | .running =>
      -- `DisconnectOnDrop` is dropped before `SenderCleanup`
      let b ← Pea2Pea.step cfg s.base (.disconnectOnDrop x.addr .writing x.id)
      some { s.writerGoto w x .ending with base := b }
    | _ => none
  | .cleanup w => do
    let x ← s.writers[w]?
    match x.pc with
    | .ending => some { s.writerGoto w x .gone with senders := senderCleanup s.senders x.addr x.id }
    | _ => none

def State.init (cfg : NodeConfig) : State where
  base := .init cfg
  enabled := false
  requests := []
  writers := []
  senders := ∅

/-- The lifecycle with the Writing protocol. -/
def writing (cfg : NodeConfig) : Machine State Act := ⟨.init cfg, step cfg⟩

/-! ## The steps as a relation -/

inductive StepR (cfg : NodeConfig) (s : State) : Act → State → Prop
  | base {a b} (hb : Pea2Pea.step cfg s.base a = some b) (hf : ∀ j, a ≠ .finalize j)
      (hw : ∀ i, a = .wired i → ∃ t, s.base.setups[i]? = some t ∧ s.pastWriting t = true) :
      StepR cfg s (.base a) { s with base := b }
  | finalize {j d b} (hd : s.base.discs[j]? = some d) (hb : Pea2Pea.step cfg s.base (.finalize j) = some b) :
      StepR cfg s (.base (.finalize j))
        { s with base := b, senders := if s.enabled then s.senders.erase d.addr else s.senders }
  | enable : StepR cfg s .enable { s with enabled := true }
  | trigger {i t id} (ht : s.base.setups[i]? = some t) (hpc : t.pc = .protocols id) (he : s.enabled = true)
      (hn : ∀ r ∈ s.requests, r.id ≠ id) :
      StepR cfg s (.trigger i) { s with requests := s.requests ++ [⟨i, t.addr, id, .queued⟩] }
  | spawnSetup {q r} (hr : s.requests[q]? = some r) (hpc : r.pc = .queued) :
      StepR cfg s (.spawnSetup q) (s.requestGoto q r .running)
  | dropRequest {q r} (hr : s.requests[q]? = some r) (hpc : r.pc = .queued) :
      StepR cfg s (.dropRequest q) (s.requestGoto q r .gone)
  | failSetup {q r} (hr : s.requests[q]? = some r) (hpc : r.pc = .running) :
      StepR cfg s (.failSetup q) (s.requestGoto q r .gone)
  | abortSetup {q r} (hr : s.requests[q]? = some r) (hpc : r.pc = .running ∨ ∃ w, r.pc = .spawned w) :
      StepR cfg s (.abortSetup q) (s.requestGoto q r .gone)
  | spawnWriter {q r} (hr : s.requests[q]? = some r) (hpc : r.pc = .running) :
      StepR cfg s (.spawnWriter q)
        { s.requestGoto q r (.spawned s.writers.length) with writers := s.writers ++ [⟨r.addr, r.id, .starting⟩] }
  | signalReady {w x} (hx : s.writers[w]? = some x) (hpc : x.pc = .starting) :
      StepR cfg s (.signalReady w) (s.writerGoto w x (if s.awaited w x.id then .running else .ending))
  | adoptWriter {q r w x} (hr : s.requests[q]? = some r) (hpc : r.pc = .spawned w) (hx : s.writers[w]? = some x)
      (hw : x.pc ≠ .starting) :
      StepR cfg s (.adoptWriter q) { s.requestGoto q r .adopted with senders := adoptWriter s.senders r.addr r.id }
  | returnConn {q r} (hr : s.requests[q]? = some r) (hpc : r.pc = .adopted) :
      StepR cfg s (.returnConn q) (s.requestGoto q r (if s.waiting r then .returned else .gone))
  | receive {q r} (hr : s.requests[q]? = some r) (hpc : r.pc = .returned) (hw : s.waiting r = true) :
      StepR cfg s (.receive q) (s.requestGoto q r .received)
  | endWriter {w x b} (hx : s.writers[w]? = some x) (hpc : x.pc = .running)
      (hb : Pea2Pea.step cfg s.base (.disconnectOnDrop x.addr .writing x.id) = some b) :
      StepR cfg s (.endWriter w) { s.writerGoto w x .ending with base := b }
  | cleanup {w x} (hx : s.writers[w]? = some x) (hpc : x.pc = .ending) :
      StepR cfg s (.cleanup w) { s.writerGoto w x .gone with senders := senderCleanup s.senders x.addr x.id }

theorem step_base {cfg : NodeConfig} {s s' : State} {a : Pea2Pea.Act} (h : step cfg s (.base a) = some s') :
    StepR cfg s (.base a) s' := by
  by_cases hw : ∃ i, a = .wired i
  · obtain ⟨i, rfl⟩ := hw
    simp only [step, Option.bind_eq_bind, Option.bind_eq_some_iff] at h
    obtain ⟨t, ht, h⟩ := h
    split at h
    next hp =>
      obtain ⟨b, hb, h⟩ := Option.bind_eq_some_iff.mp h
      cases h
      exact .base hb (by simp) fun _ he => by cases he; exact ⟨t, ht, hp⟩
    · cases h
  by_cases hf : ∃ j, a = .finalize j
  · obtain ⟨j, rfl⟩ := hf
    simp only [step, Option.bind_eq_bind, Option.bind_eq_some_iff] at h
    obtain ⟨d, hd, b, hb, h⟩ := h
    cases h
    exact .finalize hd hb
  · have hs : step cfg s (.base a) = (Pea2Pea.step cfg s.base a).bind fun b => some { s with base := b } := by
      cases a <;> first | rfl | exact absurd ⟨_, rfl⟩ hw | exact absurd ⟨_, rfl⟩ hf
    rw [hs, Option.bind_eq_some_iff] at h
    obtain ⟨b, hb, h⟩ := h
    cases h
    exact .base hb (fun j he => hf ⟨j, he⟩) fun i he => absurd ⟨i, he⟩ hw

theorem step_sound {cfg : NodeConfig} {s s' : State} {a : Act} (h : step cfg s a = some s') : StepR cfg s a s' := by
  cases a
  case base a => exact step_base h
  all_goals simp only [step, Option.bind_eq_bind, Option.bind_eq_some_iff, Option.some.injEq] at h
  case enable => exact h ▸ .enable
  all_goals obtain ⟨t, ht, h⟩ := h
  case trigger =>
    split at h
    next hpc =>
      split at h
      next hc => cases h; exact .trigger ht hpc hc.1 hc.2
      · cases h
    · cases h
  case spawnSetup =>
    split at h
    next hpc => cases h; exact .spawnSetup ht hpc
    · cases h
  case dropRequest =>
    split at h
    next hpc => cases h; exact .dropRequest ht hpc
    · cases h
  case failSetup =>
    split at h
    next hpc => cases h; exact .failSetup ht hpc
    · cases h
  case abortSetup =>
    split at h
    next hpc => cases h; exact .abortSetup ht (.inl hpc)
    next hpc => cases h; exact .abortSetup ht (.inr ⟨_, hpc⟩)
    · cases h
  case spawnWriter =>
    split at h
    next hpc => cases h; exact .spawnWriter ht hpc
    · cases h
  case signalReady =>
    split at h
    next hpc => cases h; exact .signalReady ht hpc
    · cases h
  case adoptWriter =>
    split at h
    next w hpc =>
      split at h
      next hw =>
        cases h
        obtain ⟨x, hx, hne⟩ := (Option.any_eq_true _ _).mp hw
        exact .adoptWriter ht hpc hx (by simpa using hne)
      · cases h
    · cases h
  case returnConn =>
    split at h
    next hpc => cases h; exact .returnConn ht hpc
    · cases h
  case receive =>
    split at h
    next hpc =>
      split at h
      next hw => cases h; exact .receive ht hpc hw
      · cases h
    · cases h
  case endWriter =>
    split at h
    next hpc =>
      obtain ⟨b, hb, h⟩ := Option.bind_eq_some_iff.mp h
      cases h
      exact .endWriter ht hpc hb
    · cases h
  case cleanup =>
    split at h
    next hpc => cases h; exact .cleanup ht hpc
    · cases h

/-- Seen without Writing, a run is a run of the lifecycle. -/
theorem projects (cfg : NodeConfig) : (writing cfg).Projects (lifecycle cfg) State.base where
  init := rfl
  step h := by
    cases step_sound h with
    | base hb => exact ⟨_, lifecycle_run hb⟩
    | finalize hd hb => exact ⟨_, lifecycle_run hb⟩
    | endWriter hx hpc hb => exact ⟨_, lifecycle_run hb⟩
    | _ => exact ⟨[], rfl⟩

end Pea2Pea.Writing
