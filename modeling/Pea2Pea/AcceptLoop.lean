/-
The accept loop (`start_listening`) and the connection-setup budget it shares
with `connect`: `connecting_permits`, a fair semaphore.

A listening task accepts a connection and then waits for a permit, which goes
with the connection to a task of its own (`handle_connection_request`); a
listener that waits accepts nothing else. A `connect` takes a permit that is
left or is refused. An error of `accept` is a peer's, which is passed by, or
counts and makes the loop back off.

A listener may be aborted, by a toggle or a shutdown, at any of its awaits.
Several of them may be there at once: an aborted one goes when its future is
dropped. What a permit's holder does with it is left out: see
`Pea2Pea.Lifecycle`.
-/
import Pea2Pea.Addr
import Pea2Pea.Lib.Pool
import Pea2Pea.Lib.Semaphore
import Pea2Pea.Lib.Transition

namespace Pea2Pea.AcceptLoop

/-- Where a listening task is. -/
inductive LoopPc
  /-- Spawned, its readiness not signaled. -/
  | starting
  | accepting
  /-- With a connection, in the queue for a permit. -/
  | waiting (ticket : Nat) (addr : SocketAddr)
  /-- With a connection, its permit there. -/
  | granted (addr : SocketAddr)
  | backingOff
  | gone
  deriving DecidableEq

/-- `io::ErrorKind`, as the loop tells errors of `accept` apart. -/
inductive AcceptError
  | connectionAborted
  | connectionReset
  | other
  deriving DecidableEq

/-- What `handle_connection_request` comes to. -/
inductive Outcome
  | shuttingDown
  /-- Refused by `check_and_reserve`. -/
  | rejected
  /-- Past it, whatever came of it. -/
  | adapted
  deriving DecidableEq

/-- The task of an accepted connection. -/
inductive HandlerPc
  | running
  /-- The permit is not dropped. -/
  | concluded (o : Outcome)
  | done (o : Outcome)
  deriving DecidableEq

structure Handler where
  addr : SocketAddr
  pc : HandlerPc
  deriving DecidableEq

/-- A call of `connect`. -/
inductive DialPc
  | called
  | permitted
  /-- There was no permit. -/
  | refused
  | done
  deriving DecidableEq

/-- `Heuristics`: the counters of the budget and of the loop. -/
structure Heuristics where
  connectBudgetRejections : BitVec 64
  inboundConnectionsRejected : BitVec 64
  acceptErrors : BitVec 64

namespace Heuristics

def registerConnectBudgetRejection (x : Heuristics) : Heuristics :=
  { x with connectBudgetRejections := x.connectBudgetRejections + 1 }

def registerInboundRejection (x : Heuristics) : Heuristics :=
  { x with inboundConnectionsRejected := x.inboundConnectionsRejected + 1 }

def registerAcceptError (x : Heuristics) : Heuristics := { x with acceptErrors := x.acceptErrors + 1 }

end Heuristics

structure State where
  permits : Semaphore Nat
  loops : List LoopPc
  handlers : List Handler
  dials : List DialPc
  heuristics : Heuristics
  nextTicket : Nat
  /-- The connections accepted, those dropped with a listener, and the times a
  loop backed off (read by no step). -/
  accepted : Nat
  lost : Nat
  backoffs : Nat

def State.init (maxConnecting : Nat) : State where
  permits := ⟨maxConnecting, []⟩
  loops := []
  handlers := []
  dials := []
  heuristics := ⟨0, 0, 0⟩
  nextTicket := 0
  accepted := 0
  lost := 0
  backoffs := 0

inductive Act
  /-- A listening task is spawned. -/
  | listen
  /-- Its readiness is signaled, unless nobody awaits it. -/
  | signalReady (l : Nat) (awaited : Bool)
  | accept (l : Nat) (addr : SocketAddr)
  | acceptError (l : Nat) (e : AcceptError)
  /-- A listener whose permit is there goes on. -/
  | resume (l : Nat)
  /-- The backoff is over. -/
  | wake (l : Nat)
  /-- The future of an aborted listener is dropped. -/
  | dropLoop (l : Nat)
  | conclude (i : Nat) (o : Outcome)
  /-- The handler's task ends. -/
  | finish (i : Nat)
  | connect
  /-- A `connect` returns, or is dropped, before it asks for a permit. -/
  | returnEarly (i : Nat)
  | tryAcquire (i : Nat)
  | finishDial (i : Nat)
  deriving DecidableEq

namespace LoopPc

def ticket : LoopPc → Option Nat
  | .waiting k _ => some k
  | _ => none

def hasPermit : LoopPc → Bool
  | .granted _ => true
  | _ => false

/-- The listener has a connection. -/
def hasConn : LoopPc → Bool
  | .waiting _ _ | .granted _ => true
  | _ => false

/-- A permit comes to the waiter with the ticket `k`. -/
def grant (k : Nat) : LoopPc → LoopPc
  | .waiting j addr => if j = k then .granted addr else .waiting j addr
  | pc => pc

end LoopPc

def Handler.hasPermit (x : Handler) : Bool :=
  match x.pc with
  | .done _ => false
  | _ => true

def Handler.rejected (x : Handler) : Bool :=
  match x.pc with
  | .concluded .rejected | .done .rejected => true
  | _ => false

namespace State

def loopGoto (s : State) (l : Nat) (pc : LoopPc) : State := { s with loops := s.loops.set l pc }

/-- The task for a connection is spawned, with a permit. -/
def spawn (s : State) (addr : SocketAddr) : State := { s with handlers := s.handlers ++ [⟨addr, .running⟩] }

/-- A permit is dropped. -/
def giveBack (s : State) : State :=
  match s.permits.release with
  | (some k, permits) => { s with permits := permits, loops := s.loops.map (LoopPc.grant k) }
  | (none, permits) => { s with permits := permits }

end State

def step (s : State) : Act → Option State
  | .listen => some { s with loops := s.loops ++ [.starting] }
  | .signalReady l awaited =>
    match s.loops[l]? with
    | some .starting => some (s.loopGoto l (if awaited then .accepting else .gone))
    | _ => none
  | .accept l addr =>
    match s.loops[l]? with
    | some .accepting =>
      let s := { s with accepted := s.accepted + 1 }
      match s.permits.acquire s.nextTicket with
      | (true, permits) => some ({ s with permits := permits }.spawn addr)
      | (false, permits) =>
        some { s.loopGoto l (.waiting s.nextTicket addr) with permits := permits, nextTicket := s.nextTicket + 1 }
    | _ => none
  | .acceptError l e =>
    match s.loops[l]?, e with
    | some .accepting, .connectionAborted | some .accepting, .connectionReset => some s
    | some .accepting, .other =>
      some { s.loopGoto l .backingOff with
        heuristics := s.heuristics.registerAcceptError
        backoffs := s.backoffs + 1 }
    | _, _ => none
  | .resume l =>
    match s.loops[l]? with
    | some (.granted addr) => some ((s.loopGoto l .accepting).spawn addr)
    | _ => none
  | .wake l =>
    match s.loops[l]? with
    | some .backingOff => some (s.loopGoto l .accepting)
    | _ => none
  | .dropLoop l =>
    match s.loops[l]? with
    | none | some .gone => none
    -- the acquisition leaves the queue, or gives its permit back
    | some (.waiting k _) => some { s.loopGoto l .gone with permits := s.permits.cancel k, lost := s.lost + 1 }
    | some (.granted _) => some { (s.loopGoto l .gone).giveBack with lost := s.lost + 1 }
    | some _ => some (s.loopGoto l .gone)
  | .conclude i o =>
    match s.handlers[i]? with
    | some ⟨addr, .running⟩ =>
      let s := { s with handlers := s.handlers.set i ⟨addr, .concluded o⟩ }
      match o with
      | .rejected => some { s with heuristics := s.heuristics.registerInboundRejection }
      | _ => some s
    | _ => none
  | .finish i =>
    match s.handlers[i]? with
    | some ⟨addr, .concluded o⟩ => some { s with handlers := s.handlers.set i ⟨addr, .done o⟩ }.giveBack
    | _ => none
  | .connect => some { s with dials := s.dials ++ [.called] }
  | .returnEarly i =>
    match s.dials[i]? with
    | some .called => some { s with dials := s.dials.set i .done }
    | _ => none
  | .tryAcquire i =>
    match s.dials[i]? with
    | some .called =>
      match s.permits.tryAcquire with
      | some permits => some { s with permits := permits, dials := s.dials.set i .permitted }
      | none =>
        some { s with
          dials := s.dials.set i .refused
          heuristics := s.heuristics.registerConnectBudgetRejection }
    | _ => none
  | .finishDial i =>
    match s.dials[i]? with
    | some .permitted => some { s with dials := s.dials.set i .done }.giveBack
    | _ => none

/-- The listeners, the handlers and the dials of a node, and their budget. -/
def acceptLoop (maxConnecting : Nat) : Machine State Act := ⟨.init maxConnecting, step⟩

/-! ## The steps as a relation -/

/-- The act ends a handler or a dial: it gives its permit back. -/
def returns : Act → Bool
  | .finish _ | .finishDial _ => true
  | _ => false

inductive StepR (s : State) : Act → State → Prop
  | listen : StepR s .listen { s with loops := s.loops ++ [.starting] }
  | ignore {a} (ha : returns a = false) : StepR s a s
  /-- A listener without a connection moves. -/
  | loop {a l pc pc'} (ha : returns a = false) (hl : s.loops[l]? = some pc) (hc : pc.hasConn = false)
      (hc' : pc'.hasConn = false) : StepR s a (s.loopGoto l pc')
  | backOff {l e} (hl : s.loops[l]? = some .accepting) :
      StepR s (.acceptError l e) { s.loopGoto l .backingOff with
        heuristics := s.heuristics.registerAcceptError
        backoffs := s.backoffs + 1 }
  | accept {l addr} (hp : 0 < s.permits.permits) :
      StepR s (.accept l addr) { s with
        accepted := s.accepted + 1
        permits := { s.permits with permits := s.permits.permits - 1 }
        handlers := s.handlers ++ [⟨addr, .running⟩] }
  | wait {l addr} (hl : s.loops[l]? = some .accepting) (hp : s.permits.permits = 0) :
      StepR s (.accept l addr) { s.loopGoto l (.waiting s.nextTicket addr) with
        accepted := s.accepted + 1
        permits := { s.permits with waiters := s.permits.waiters ++ [s.nextTicket] }
        nextTicket := s.nextTicket + 1 }
  | resume {l addr} (hl : s.loops[l]? = some (.granted addr)) :
      StepR s (.resume l) ((s.loopGoto l .accepting).spawn addr)
  | dropWaiting {l k addr} (hl : s.loops[l]? = some (.waiting k addr)) :
      StepR s (.dropLoop l) { s.loopGoto l .gone with permits := s.permits.cancel k, lost := s.lost + 1 }
  | dropGranted {l addr} (hl : s.loops[l]? = some (.granted addr)) :
      StepR s (.dropLoop l) { (s.loopGoto l .gone).giveBack with lost := s.lost + 1 }
  | conclude {i o addr} (hi : s.handlers[i]? = some ⟨addr, .running⟩) (ho : o ≠ .rejected) :
      StepR s (.conclude i o) { s with handlers := s.handlers.set i ⟨addr, .concluded o⟩ }
  | reject {i addr} (hi : s.handlers[i]? = some ⟨addr, .running⟩) :
      StepR s (.conclude i .rejected) { s with
        handlers := s.handlers.set i ⟨addr, .concluded .rejected⟩
        heuristics := s.heuristics.registerInboundRejection }
  | finish {i o addr} (hi : s.handlers[i]? = some ⟨addr, .concluded o⟩) :
      StepR s (.finish i) { s with handlers := s.handlers.set i ⟨addr, .done o⟩ }.giveBack
  | connect : StepR s .connect { s with dials := s.dials ++ [.called] }
  | returnEarly {i} (hi : s.dials[i]? = some .called) : StepR s (.returnEarly i) { s with dials := s.dials.set i .done }
  | permit {i permits} (hi : s.dials[i]? = some .called) (hp : s.permits.tryAcquire = some permits) :
      StepR s (.tryAcquire i) { s with permits := permits, dials := s.dials.set i .permitted }
  | refuse {i} (hi : s.dials[i]? = some .called) :
      StepR s (.tryAcquire i) { s with
        dials := s.dials.set i .refused
        heuristics := s.heuristics.registerConnectBudgetRejection }
  | finishDial {i} (hi : s.dials[i]? = some .permitted) :
      StepR s (.finishDial i) { s with dials := s.dials.set i .done }.giveBack

variable {s s' : State} {a : Act}

theorem step_sound (h : step s a = some s') : StepR s a s' := by
  cases a with
  | listen => cases h; exact .listen
  | connect => cases h; exact .connect
  | signalReady l awaited =>
    simp only [step] at h
    split at h
    next hl =>
      cases h
      exact .loop rfl hl rfl (by cases awaited <;> rfl)
    · cases h
  | accept l addr =>
    simp only [step] at h
    split at h
    next hl =>
      rcases s.permits.acquire_cases s.nextTicket with ⟨hp, he⟩ | ⟨hp, he⟩
      · simp only [he] at h
        cases h
        exact .accept hp
      · simp only [he] at h
        cases h
        exact .wait hl hp
    · cases h
  | acceptError l e =>
    simp only [step] at h
    split at h
    · cases h; exact .ignore rfl
    · cases h; exact .ignore rfl
    next hl => cases h; exact .backOff hl
    · cases h
  | resume l =>
    simp only [step] at h
    split at h
    next hl => cases h; exact .resume hl
    · cases h
  | wake l =>
    simp only [step] at h
    split at h
    next hl => cases h; exact .loop rfl hl rfl rfl
    · cases h
  | dropLoop l =>
    simp only [step] at h
    split at h
    · cases h
    · cases h
    next hl => cases h; exact .dropWaiting hl
    next hl => cases h; exact .dropGranted hl
    next pc _ hw hg hl =>
      cases h
      refine .loop rfl hl ?_ rfl
      cases pc with
      | waiting k addr => exact absurd rfl (hw k addr)
      | granted addr => exact absurd rfl (hg addr)
      | _ => rfl
  | conclude i o =>
    simp only [step] at h
    split at h
    next hi =>
      cases o with
      | rejected => cases h; exact .reject hi
      | shuttingDown => cases h; exact .conclude hi (by decide)
      | adapted => cases h; exact .conclude hi (by decide)
    · cases h
  | finish i =>
    simp only [step] at h
    split at h
    next hi => cases h; exact .finish hi
    · cases h
  | returnEarly i =>
    simp only [step] at h
    split at h
    next hi => cases h; exact .returnEarly hi
    · cases h
  | tryAcquire i =>
    simp only [step] at h
    split at h
    next hi =>
      split at h
      next hp => cases h; exact .permit hi hp
      · cases h; exact .refuse hi
    · cases h
  | finishDial i =>
    simp only [step] at h
    split at h
    next hi => cases h; exact .finishDial hi
    · cases h

end Pea2Pea.AcceptLoop
