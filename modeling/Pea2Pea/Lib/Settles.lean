/-
Systems that come to rest.

Each step of a system is work it is sure to do (a deadline that passes is
one), or idling (a poll that finds nothing), or an event that may come or not
(a failure, a cancellation), or a new call from outside. With no new calls, a
system settles: of an infinite run all but finitely many steps are idling, and
once no work can be done any more, whatever idling goes on, a given property
holds.

The rule is the usual one for termination: a measure in a well-founded order
that idling does not raise and every step but idling and calls lowers, and a
progress argument for the states at rest.
-/
import Pea2Pea.Lib.Transition
import Mathlib.Order.Monotone.Basic
import Mathlib.Order.WellFounded

/-- What a step is. -/
inductive Pace
  | work
  | idle
  | event
  | call
  deriving DecidableEq

namespace Machine

variable {σ α : Type} {M : Machine σ α} {pace : σ → α → Pace}

/-- `M` started in `s`. -/
def startAt (M : Machine σ α) (s : σ) : Machine σ α := { M with init := s }

/-- No work can be done in `s`, nor after any idling. -/
def AtRest (M : Machine σ α) (pace : σ → α → Pace) (s : σ) : Prop :=
  ∀ t a, (M.startAt s).Reaches (fun u b => pace u b = .idle) t → pace t a = .work → M.step t a = none

/-- From `s`, with no new calls, there is nothing but idling in the end, and
where no work is left, `P` holds. -/
structure Settles (M : Machine σ α) (pace : σ → α → Pace) (P : σ → Prop) (s : σ) : Prop where
  ends : ∀ (r : Nat → σ) (a : Nat → α), r 0 = s → (∀ n, pace (r n) (a n) ≠ .call) →
    (∀ n, M.step (r n) (a n) = some (r (n + 1))) → ∃ N, ∀ n, N ≤ n → pace (r n) (a n) = .idle
  rest : ∀ t, (M.startAt s).Reaches (fun u b => pace u b ≠ .call) t → M.AtRest pace t → P t

theorem AtRest.stuck {s : σ} (h : M.AtRest pace s) {a : α} (ha : pace s a = .work) : M.step s a = none :=
  h s a .init ha

/-- Idling does not end a rest. -/
theorem AtRest.idle {s s' : σ} {a : α} (h : M.AtRest pace s) (ha : pace s a = .idle) (hs : M.step s a = some s') :
    M.AtRest pace s' := by
  intro t b ht hb
  refine h t b ?_ hb
  clear hb
  induction ht with
  | init => exact .step .init ha hs
  | step _ hc hst ih => exact .step ih hc hst

/-- A component of a system at rest is at rest, if the system can do what the
component can: idle with it, and work where it can work. -/
theorem AtRest.component {τ β : Type} {N : Machine τ β} {tempo : τ → β → Pace} {f : τ → σ} {I : τ → Prop} {t : τ}
    (h : M.AtRest pace (f t)) (hI : I t)
    (hidle : ∀ {u u' b}, I u → tempo u b = .idle → N.step u b = some u' →
      I u' ∧ ∃ a, pace (f u) a = .idle ∧ M.step (f u) a = some (f u'))
    (hwork : ∀ {u u' b}, I u → tempo u b = .work → N.step u b = some u' →
      ∃ a, pace (f u) a = .work ∧ M.step (f u) a ≠ none) : N.AtRest tempo t := by
  intro u b hu hb
  have hrest : I u ∧ M.AtRest pace (f u) := by
    clear hb
    induction hu with
    | init => exact ⟨hI, h⟩
    | step _ hi hs ih =>
      obtain ⟨hI', a, ha, hstep⟩ := hidle ih.1 hi hs
      exact ⟨hI', ih.2.idle ha hstep⟩
  by_contra hne
  obtain ⟨u', hs⟩ := Option.ne_none_iff_exists'.mp hne
  obtain ⟨a, ha, hsome⟩ := hwork hrest.1 hb hs
  exact hsome (hrest.2.stuck ha)

theorem settles_of_measure {β : Type} [Preorder β] [WellFoundedLT β] {I P : σ → Prop} (m : σ → β)
    (hI : ∀ {s s' a}, I s → pace s a ≠ .call → M.step s a = some s' → I s')
    (hidle : ∀ {s s' a}, I s → pace s a = .idle → M.step s a = some s' → m s' ≤ m s)
    (hlt : ∀ {s s' a}, I s → pace s a ≠ .idle → pace s a ≠ .call → M.step s a = some s' → m s' < m s)
    (hP : ∀ {s}, I s → M.AtRest pace s → P s) {s : σ} (h : I s) : M.Settles pace P s where
  ends r a h₀ hcalm hstep := by
    have hr : ∀ n, I (r n) := by
      intro n
      induction n with
      | zero => exact h₀ ▸ h
      | succ n ih => exact hI ih (hcalm n) (hstep n)
    have hanti : Antitone fun n => m (r n) := antitone_nat_of_succ_le fun n => by
      by_cases hi : pace (r n) (a n) = .idle
      · exact hidle (hr n) hi (hstep n)
      · exact (hlt (hr n) hi (hcalm n) (hstep n)).le
    -- from where the measure is least on, no step lowers it
    obtain ⟨-, ⟨N, rfl⟩, hmin⟩ := wellFounded_lt.has_min (Set.range fun n => m (r n)) ⟨_, 0, rfl⟩
    refine ⟨N, fun n hn => by_contra fun hi => hmin _ ⟨n + 1, rfl⟩ ?_⟩
    exact (hlt (hr n) hi (hcalm n) (hstep n)).trans_le (hanti hn)
  rest t ht hrest := by
    refine hP (ht.invariant ?_ fun _ hi hc hs => hI hi hc hs) hrest
    exact h

end Machine
