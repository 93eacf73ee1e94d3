/-
Transition systems with an executable step: runs, the states they reach,
the invariant rule, and projections of one system onto another.

`Reaches ok` restricts a run to steps that meet a condition on the state
before the step (`ok`); `Reachable` is the case with no condition.
-/
import Mathlib.Logic.Basic

/-- A transition system: an initial state, and what each action does where
it is enabled. -/
structure Machine (σ α : Type) where
  init : σ
  step : σ → α → Option σ

namespace Machine

variable {σ α τ β : Type} {M : Machine σ α} {N : Machine τ β}

/-- The state after a list of actions, if all of them were enabled. -/
def run (M : Machine σ α) : σ → List α → Option σ
  | s, [] => some s
  | s, a :: as => (M.step s a).bind fun s' => M.run s' as

theorem run_cons {s s' : σ} {a : α} {as : List α} :
    M.run s (a :: as) = some s' ↔ ∃ t, M.step s a = some t ∧ M.run t as = some s' := by
  simp only [run, Option.bind_eq_some_iff]

theorem run_single {s s' : σ} {a : α} (h : M.step s a = some s') : M.run s [a] = some s' :=
  run_cons.mpr ⟨s', h, rfl⟩

/-- The states reached by steps that each meet `ok` in the state they are
taken from. -/
inductive Reaches (M : Machine σ α) (ok : σ → α → Prop) : σ → Prop
  | init : Reaches M ok M.init
  | step {s s' : σ} {a : α} : Reaches M ok s → ok s a → M.step s a = some s' → Reaches M ok s'

/-- The states reached by any steps. -/
abbrev Reachable (M : Machine σ α) : σ → Prop := M.Reaches fun _ _ => True

theorem Reaches.mono {ok ok' : σ → α → Prop} {s : σ} (h : M.Reaches ok s)
    (hle : ∀ s a, ok s a → ok' s a) : M.Reaches ok' s := by
  induction h with
  | init => exact .init
  | step _ ha hs ih => exact .step ih (hle _ _ ha) hs

theorem Reaches.reachable {ok : σ → α → Prop} {s : σ} (h : M.Reaches ok s) : M.Reachable s :=
  h.mono fun _ _ _ => trivial

/-- What holds initially and is kept by every admitted step from a reached
state holds in every reached state. -/
theorem Reaches.invariant {ok : σ → α → Prop} {P : σ → Prop} {s : σ} (h : M.Reaches ok s)
    (h₀ : P M.init)
    (hstep : ∀ {s s' a}, M.Reaches ok s → P s → ok s a → M.step s a = some s' → P s') : P s := by
  induction h with
  | init => exact h₀
  | step hr ha hs ih => exact hstep hr ih ha hs

theorem Reachable.run {s s' : σ} {as : List α} (h : M.Reachable s) (hr : M.run s as = some s') :
    M.Reachable s' := by
  induction as generalizing s with
  | nil => simp only [Machine.run, Option.some.injEq] at hr; exact hr ▸ h
  | cons a as ih =>
    obtain ⟨t, ha, hr⟩ := run_cons.mp hr
    exact ih (.step h trivial ha) hr

theorem reachable_of_run {s : σ} {as : List α} (hr : M.run M.init as = some s) : M.Reachable s :=
  Reachable.run .init hr

/-- A run whose last state meets a decidable predicate, as a reachable
state that meets it. -/
theorem exists_reachable (M : Machine σ α) (as : List α) (p : σ → Bool) (h : (M.run M.init as).any p = true) :
    ∃ s, M.Reachable s ∧ p s = true := by
  cases hr : M.run M.init as with
  | none => simp [hr] at h
  | some s => exact ⟨s, reachable_of_run hr, by simpa [hr] using h⟩

/-- `M` with the steps that fail a decidable check left out. -/
def guarded (M : Machine σ α) (p : σ → α → Bool) : Machine σ α where
  init := M.init
  step s a := if p s a then M.step s a else none

theorem Reaches.of_guarded {p : σ → α → Bool} {ok : σ → α → Prop} {s : σ} (hp : ∀ s a, p s a = true → ok s a)
    (h : (M.guarded p).Reachable s) : M.Reaches ok s := by
  refine h.invariant .init fun {s s' a} _ hr _ hs => ?_
  simp only [guarded] at hs
  split at hs
  next hpa => exact .step hr (hp s a hpa) hs
  · cases hs

/-- A property of one step, kept by every step, is kept by a run. -/
theorem run_invariant {P : σ → Prop} (hstep : ∀ {s s' a}, P s → M.step s a = some s' → P s')
    {s s' : σ} {as : List α} (h : P s) (hr : M.run s as = some s') : P s' := by
  induction as generalizing s with
  | nil => simp only [run, Option.some.injEq] at hr; exact hr ▸ h
  | cons a as ih =>
    obtain ⟨t, ha, hr⟩ := run_cons.mp hr
    exact ih (hstep h ha) hr

/-- `N` projects onto `M` along `f`: each of its steps is, seen through
`f`, a run of `M` (possibly empty). -/
structure Projects (N : Machine τ β) (M : Machine σ α) (f : τ → σ) : Prop where
  init : f N.init = M.init
  step : ∀ {t t' b}, N.step t b = some t' → ∃ as, M.run (f t) as = some (f t')

/-- A projection takes reached states to reachable ones, so every invariant
of `M` holds in `N`. -/
theorem Projects.reachable {f : τ → σ} (hf : Projects N M f) {ok : τ → β → Prop} {t : τ}
    (h : N.Reaches ok t) : M.Reachable (f t) := by
  induction h with
  | init => rw [hf.init]; exact .init
  | step _ _ hs ih =>
    obtain ⟨as, hr⟩ := hf.step hs
    exact ih.run hr

/-- `M` refines `N` along `f`: a step from a reachable state is, seen through
`f`, one step of `N` or none. -/
structure Refines (M : Machine σ α) (N : Machine τ β) (f : σ → τ) : Prop where
  init : f M.init = N.init
  step : ∀ {s s' a}, M.Reachable s → M.step s a = some s' → f s' = f s ∨ ∃ b, N.step (f s) b = some (f s')

/-- A run is, seen through `f`, a run. -/
theorem Refines.run {f : σ → τ} (hf : Refines M N f) {s s' : σ} {as : List α} (h : M.Reachable s)
    (hr : M.run s as = some s') : ∃ bs, N.run (f s) bs = some (f s') := by
  induction as generalizing s with
  | nil => simp only [Machine.run, Option.some.injEq] at hr; exact ⟨[], by rw [hr]; rfl⟩
  | cons a as ih =>
    obtain ⟨t, ha, hr⟩ := run_cons.mp hr
    obtain ⟨bs, hbs⟩ := ih (.step h trivial ha) hr
    rcases hf.step h ha with ht | ⟨b, hb⟩
    · exact ⟨bs, ht ▸ hbs⟩
    · exact ⟨b :: bs, run_cons.mpr ⟨f t, hb, hbs⟩⟩

theorem Refines.reachable {f : σ → τ} (hf : Refines M N f) {s : σ} (h : M.Reachable s) : N.Reachable (f s) := by
  induction h with
  | init => rw [hf.init]; exact .init
  | step hr _ hs ih =>
    rcases hf.step hr hs with ht | ⟨b, hb⟩
    · rw [ht]; exact ih
    · exact .step ih trivial hb

end Machine
