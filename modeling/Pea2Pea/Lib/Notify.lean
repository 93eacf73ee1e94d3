/-
Waiting for a condition with a notifier that stores nothing: a waiter
registers, checks the condition, and parks if it does not hold; a
notification wakes exactly the waiters registered before it.

The condition may come true in one step and be announced in a later one. A
parked waiter that has not been woken is covered as long as the condition
does not hold or an announcement is still due; what has to be shown of a
system is that its steps never end the one without the other
(`Covered.mono`), announcements aside (`covered_notify`).
-/
import Mathlib.Logic.Basic

/-- A waiter in its loop: about to register, registered and about to check,
or parked; `woken` once a notification came after the registration. -/
inductive Waiter
  | entering
  | registered (woken : Bool)
  | parked (woken : Bool)
  deriving DecidableEq

namespace Waiter

/-- A notification. -/
def notify : Waiter → Waiter
  | .entering => .entering
  | .registered _ => .registered true
  | .parked _ => .parked true

/-- A parked waiter has been woken, or what it waits for has not come about
(`drained`), or its announcement is due (`due`). -/
def Covered (drained due : Prop) : Waiter → Prop
  | .parked woken => woken = true ∨ ¬ drained ∨ due
  | _ => True

variable {drained drained' due due' : Prop} {w : Waiter}

theorem covered_notify (w : Waiter) : w.notify.Covered drained due := by
  cases w with
  | entering => trivial
  | registered _ => trivial
  | parked _ => exact .inl rfl

theorem Covered.mono (h : w.Covered drained due) (hstep : ¬ drained ∨ due → ¬ drained' ∨ due') :
    w.Covered drained' due' := by
  cases w with
  | entering => trivial
  | registered _ => trivial
  | parked _ => exact h.imp_right hstep

/-- A waiter parks when its check fails. -/
theorem covered_park {woken : Bool} (h : ¬ drained) : (parked woken).Covered drained due := .inr (.inl h)

end Waiter
