/-
Tasks that share a part of their state: any number of them, started at any
time, whose steps read and change the shared part and what is their own.

Two rules: what every task keeps for itself holds of all of them
(`each`), and a shared part to which every task adds its share is the sum of
the shares (`total`).
-/
import Mathlib.Algebra.BigOperators.Group.List.Basic
import Pea2Pea.Lib.Pool
import Pea2Pea.Lib.Transition

namespace Shared

structure State (γ σ : Type) where
  shared : γ
  tasks : List σ

inductive Act (κ α : Type)
  | start (k : κ)
  | step (i : Nat) (a : α)

variable {γ σ κ α : Type}

/-- The tasks, `new k` being one that is started, and `own` what a task
does. -/
def tasks (init : γ) (new : κ → σ) (own : γ → σ → α → Option (γ × σ)) : Machine (State γ σ) (Act κ α) where
  init := ⟨init, []⟩
  step s
    | .start k => some { s with tasks := s.tasks ++ [new k] }
    | .step i a => do
      let x ← s.tasks[i]?
      let r ← own s.shared x a
      some ⟨r.1, s.tasks.set i r.2⟩

variable {init : γ} {new : κ → σ} {own : γ → σ → α → Option (γ × σ)} {s : State γ σ}

/-- A step starts a task, or is one of a task. -/
theorem step_cases {s' : State γ σ} {a : Act κ α} (h : (tasks init new own).step s a = some s') :
    (∃ k, s' = { s with tasks := s.tasks ++ [new k] }) ∨
      ∃ i x b r, s.tasks[i]? = some x ∧ own s.shared x b = some r ∧ s' = ⟨r.1, s.tasks.set i r.2⟩ := by
  cases a with
  | start k => exact .inl ⟨k, (Option.some.inj h).symm⟩
  | step i b =>
    simp only [tasks, Option.bind_eq_bind, Option.bind_eq_some_iff] at h
    obtain ⟨x, hx, r, hr, h⟩ := h
    exact .inr ⟨i, x, b, r, hx, hr, (Option.some.inj h).symm⟩

theorem each {P : σ → Prop} (hnew : ∀ k, P (new k)) (hown : ∀ {g x a r}, P x → own g x a = some r → P r.2)
    (h : (tasks init new own).Reachable s) : ∀ x ∈ s.tasks, P x := by
  refine h.invariant (P := fun s => ∀ x ∈ s.tasks, P x) (fun x hx => by cases hx) fun {s s' a} _ hP _ hs => ?_
  rcases step_cases hs with ⟨k, rfl⟩ | ⟨i, x, b, r, hx, hr, rfl⟩
  · exact Pool.forall_mem_append hP (hnew k)
  · exact Pool.forall_mem_set hP (hown (hP x (List.mem_of_getElem? hx)) hr)

/-! ## Shares -/

theorem sum_set_add [AddCommMonoid γ] {l : List σ} {i : Nat} {x y : σ} {f : σ → γ} {d : γ} (hx : l[i]? = some x)
    (hy : f y = f x + d) : ((l.set i y).map f).sum = (l.map f).sum + d := by
  induction l generalizing i with
  | nil => cases hx
  | cons z l ih =>
    cases i with
    | zero =>
      cases hx
      rw [List.set_cons_zero, List.map_cons, List.sum_cons, hy, List.map_cons, List.sum_cons, add_right_comm]
    | succ i => rw [List.set_cons_succ, List.map_cons, List.sum_cons, ih hx, List.map_cons, List.sum_cons, add_assoc]

/-- What a step adds to the shared part, it adds to its task's share. -/
theorem total [AddCommMonoid γ] {P : σ → Prop} {share : σ → γ} (hnew : ∀ k, P (new k))
    (hown : ∀ {g x a r}, P x → own g x a = some r → P r.2) (hzero : ∀ k, share (new k) = 0)
    (hadd : ∀ {g x a r}, P x → own g x a = some r → ∃ d, r.1 = g + d ∧ share r.2 = share x + d)
    (h : (tasks init new own).Reachable s) : s.shared = init + (s.tasks.map share).sum := by
  refine h.invariant (P := fun s => s.shared = init + (s.tasks.map share).sum) ?_ fun {s s' a} hs ih _ hstep => ?_
  · exact (add_zero init).symm
  rcases step_cases hstep with ⟨k, rfl⟩ | ⟨i, x, b, r, hx, hr, rfl⟩
  · rw [List.map_append, List.sum_append, List.map_singleton, List.sum_singleton, hzero, add_zero]
    exact ih
  · obtain ⟨d, hg, hd⟩ := hadd (each hnew hown hs x (List.mem_of_getElem? hx)) hr
    rw [sum_set_add hx hd, ← add_assoc, ← ih]
    exact hg

end Shared
