/-
A bounded channel with one receiver and any number of senders.

A send has two steps: it acquires a slot, which a closed or full channel
does not give, and writes its value later. Closing stops new slots, not the
values of slots already given; so the receiver is told that the channel has
ended only when it is closed, nothing is queued and no slot is outstanding.
-/
import Mathlib.Logic.Basic

structure Mpsc (α : Type) where
  capacity : Nat
  /-- Slots acquired whose value is not written yet. -/
  slots : Nat
  queue : List α
  closed : Bool

namespace Mpsc

variable {α : Type} {c : Mpsc α}

def new (capacity : Nat) : Mpsc α := ⟨capacity, 0, [], false⟩

/-- A slot for a send, if the channel is open and not full. -/
def acquire (c : Mpsc α) : Option (Mpsc α) :=
  if c.closed = false ∧ c.slots + c.queue.length < c.capacity then some { c with slots := c.slots + 1 } else none

/-- The value of an acquired slot is written. -/
def write (c : Mpsc α) (a : α) : Mpsc α := { c with slots := c.slots - 1, queue := c.queue ++ [a] }

/-- What the receiver sees. -/
inductive Recv (α : Type)
  | item (a : α) (rest : Mpsc α)
  | ended
  | pending

def recv (c : Mpsc α) : Recv α :=
  match c.queue with
  | a :: q => .item a { c with queue := q }
  | [] => if c.closed = true ∧ c.slots = 0 then .ended else .pending

def close (c : Mpsc α) : Mpsc α := { c with closed := true }

/-- Closed, drained, and no send in progress: nothing will come any more. -/
structure Ended (c : Mpsc α) : Prop where
  closed : c.closed = true
  slots : c.slots = 0
  queue : c.queue = []

theorem acquire_some {c' : Mpsc α} (h : c.acquire = some c') :
    c.closed = false ∧ c.slots + c.queue.length < c.capacity ∧ c' = { c with slots := c.slots + 1 } := by
  unfold acquire at h
  split at h
  next hc => cases h; exact ⟨hc.1, hc.2, rfl⟩
  · cases h

theorem recv_item {a : α} {c' : Mpsc α} (h : c.recv = .item a c') :
    c.queue = a :: c'.queue ∧ c' = { c with queue := c'.queue } := by
  unfold recv at h
  split at h
  next hq => cases h; exact ⟨hq, rfl⟩
  · split at h <;> cases h

theorem recv_ended (h : c.recv = .ended) : c.Ended := by
  unfold recv at h
  split at h
  · cases h
  next hq =>
    split at h
    next hc => exact ⟨hc.1, hc.2, hq⟩
    · cases h

theorem recv_pending (h : c.recv = .pending) : c.queue = [] := by
  unfold recv at h
  split at h
  · cases h
  next hq => exact hq

end Mpsc
