/-
Computations that append to a log and may stop with an error, which keeps
what was logged: `for` loops over a range of indices, and two ways to speak
of such a computation without running it; and lists of actions performed one
after the other, until one stops (`performAll`).

`Emits m a ws` is exact: `m` returns `a` and has appended `ws`. `Confined P Q
m` bounds it from outside, for a computation that depends on its environment:
whatever `m` appends meets `P`, and if it stops, then for a reason in `Q`.
`Performs act m a ws` says that `m` only performs `act` on each of `ws`. Each
has a rule for `pure`, for sequencing and for the loop.
-/
import Mathlib.Data.List.Range
import Mathlib.Control.Monad.Basic

/-- A computation with a log of `ω`s that stops with an `ε` or returns. -/
abbrev Logged (ω ε : Type) := ExceptT ε (StateM (List ω))

namespace Logged

variable {ω ε α β : Type}

/-- The outcome from a log, and the log left behind. -/
def runFrom (m : Logged ω ε α) (log : List ω) : Except ε α × List ω := StateT.run (ExceptT.run m) log

/-- The outcome, and all that was logged. -/
def exec (m : Logged ω ε α) : Except ε α × List ω := m.runFrom []

/-- Append an entry. -/
def tell (x : ω) : Logged ω ε Unit := modify (· ++ [x])

theorem runFrom_pure (a : α) (log : List ω) : (pure a : Logged ω ε α).runFrom log = (.ok a, log) := rfl

theorem runFrom_throw (e : ε) (log : List ω) : (throw e : Logged ω ε α).runFrom log = (.error e, log) := rfl

theorem runFrom_tell (x : ω) (log : List ω) : (tell x : Logged ω ε Unit).runFrom log = (.ok (), log ++ [x]) :=
  rfl

theorem runFrom_get (log : List ω) : (get : Logged ω ε (List ω)).runFrom log = (.ok log, log) := rfl

theorem runFrom_bind_ok {m : Logged ω ε α} {f : α → Logged ω ε β} {a : α} {log log' : List ω}
    (h : m.runFrom log = (.ok a, log')) : (m >>= f).runFrom log = (f a).runFrom log' := by
  simp only [runFrom, ExceptT.run_bind, StateT.run_bind] at h ⊢
  rw [h]
  rfl

theorem runFrom_bind_error {m : Logged ω ε α} {f : α → Logged ω ε β} {e : ε} {log log' : List ω}
    (h : m.runFrom log = (.error e, log')) : (m >>= f).runFrom log = (.error e, log') := by
  simp only [runFrom, ExceptT.run_bind, StateT.run_bind] at h ⊢
  rw [h]
  rfl

/-- `n` rounds of a loop body, with indices from `lo` on. -/
def forFrom : (n lo : Nat) → (Nat → Logged ω ε Unit) → Logged ω ε Unit
  | 0, _, _ => pure ()
  | n + 1, lo, body => do
    body lo
    forFrom n (lo + 1) body

/-- `for i in lo..hi`. -/
def forRange (lo hi : Nat) (body : Nat → Logged ω ε Unit) : Logged ω ε Unit := forFrom (hi - lo) lo body

/-! ## Exactly -/

/-- From any log, `m` returns `a` and has appended `ws`. -/
def Emits (m : Logged ω ε α) (a : α) (ws : List ω) : Prop := ∀ log, m.runFrom log = (.ok a, log ++ ws)

theorem Emits.exec {m : Logged ω ε α} {a : α} {ws : List ω} (h : Emits m a ws) : m.exec = (.ok a, ws) :=
  h []

theorem emits_pure (a : α) : Emits (pure a : Logged ω ε α) a [] := by
  intro log
  rw [runFrom_pure, List.append_nil]

theorem emits_tell (x : ω) : Emits (tell x : Logged ω ε Unit) () [x] := fun log => runFrom_tell x log

theorem Emits.bind {m : Logged ω ε α} {f : α → Logged ω ε β} {a : α} {b : β} {ws vs : List ω}
    (hm : Emits m a ws) (hf : Emits (f a) b vs) : Emits (m >>= f) b (ws ++ vs) := by
  intro log
  rw [runFrom_bind_ok (hm log), hf, List.append_assoc]

/-- A first step that only computes. -/
theorem Emits.after {m : Logged ω ε α} {f : α → Logged ω ε β} {a : α} {b : β} {vs : List ω}
    (hm : Emits m a []) (hf : Emits (f a) b vs) : Emits (m >>= f) b vs := hm.bind hf

theorem emits_forFrom {body : Nat → Logged ω ε Unit} {ws : Nat → List ω} :
    ∀ {n lo : Nat}, (∀ i, lo ≤ i → i < lo + n → Emits (body i) () (ws i)) →
      Emits (forFrom n lo body) () ((List.range' lo n).flatMap ws)
  | 0, _, _ => emits_pure ()
  | n + 1, lo, h => by
    rw [List.range'_succ, List.flatMap_cons]
    refine (h lo (Nat.le_refl _) (by omega)).bind (emits_forFrom fun i hi hn => ?_)
    exact h i (by omega) (by omega)

theorem emits_forRange {body : Nat → Logged ω ε Unit} {ws : Nat → List ω} {lo hi : Nat}
    (h : ∀ i, lo ≤ i → i < hi → Emits (body i) () (ws i)) :
    Emits (forRange lo hi body) () ((List.range' lo (hi - lo)).flatMap ws) :=
  emits_forFrom fun i hl hh => h i hl (by omega)

/-! ## From outside -/

/-- From any log, what `m` appends meets `P`, and if it stops, then for a
reason in `Q`. -/
def Confined (P : ω → Prop) (Q : ε → Prop) (m : Logged ω ε α) : Prop :=
  ∀ log, (∃ ws, (m.runFrom log).2 = log ++ ws ∧ ∀ x ∈ ws, P x) ∧ ∀ e, (m.runFrom log).1 = .error e → Q e

variable {P : ω → Prop} {Q : ε → Prop}

theorem Emits.confined {m : Logged ω ε α} {a : α} {ws : List ω} (h : Emits m a ws) (hP : ∀ x ∈ ws, P x) :
    Confined P Q m := by
  intro log
  rw [h log]
  exact ⟨⟨ws, rfl, hP⟩, fun e he => by cases he⟩

theorem confined_pure (a : α) : Confined P Q (pure a : Logged ω ε α) := (emits_pure a).confined (by simp)

theorem confined_throw {e : ε} (h : Q e) : Confined P Q (throw e : Logged ω ε α) := by
  intro log
  rw [runFrom_throw]
  refine ⟨⟨[], by simp, by simp⟩, fun e' he => ?_⟩
  cases he
  exact h

theorem Confined.bind {m : Logged ω ε α} {f : α → Logged ω ε β} (hm : Confined P Q m)
    (hf : ∀ a, Confined P Q (f a)) : Confined P Q (m >>= f) := by
  intro log
  obtain ⟨⟨ws, hws, hP⟩, hQ⟩ := hm log
  rcases hr : m.runFrom log with ⟨r, log'⟩
  rw [hr] at hws hQ
  cases r with
  | error e =>
    rw [runFrom_bind_error hr]
    exact ⟨⟨ws, hws, hP⟩, fun e' he => by cases he; exact hQ e rfl⟩
  | ok a =>
    rw [runFrom_bind_ok hr]
    obtain ⟨⟨vs, hvs, hP'⟩, hQ'⟩ := hf a log'
    have hws' : log' = log ++ ws := hws
    refine ⟨⟨ws ++ vs, by rw [hvs, hws', List.append_assoc], fun x hx => ?_⟩, hQ'⟩
    rcases List.mem_append.1 hx with hx | hx
    · exact hP x hx
    · exact hP' x hx

/-- A first step that only computes, and whose value matters. -/
theorem Emits.confined_bind {m : Logged ω ε α} {f : α → Logged ω ε β} {a : α} (hm : Emits m a [])
    (hf : Confined P Q (f a)) : Confined P Q (m >>= f) := by
  intro log
  have hlog := hm log
  rw [List.append_nil] at hlog
  rw [runFrom_bind_ok hlog]
  exact hf log

theorem confined_forFrom {body : Nat → Logged ω ε Unit} :
    ∀ {n lo : Nat}, (∀ i, lo ≤ i → i < lo + n → Confined P Q (body i)) → Confined P Q (forFrom n lo body)
  | 0, _, _ => confined_pure ()
  | n + 1, lo, h => by
    refine (h lo (Nat.le_refl _) (by omega)).bind fun _ => confined_forFrom fun i hi hn => ?_
    exact h i (by omega) (by omega)

theorem confined_forRange {body : Nat → Logged ω ε Unit} {lo hi : Nat}
    (h : ∀ i, lo ≤ i → i < hi → Confined P Q (body i)) : Confined P Q (forRange lo hi body) :=
  confined_forFrom fun i hl hh => h i hl (by omega)

/-! ## One after the other -/

/-- `act` on each entry of a list, until one stops. -/
def performAll (act : ω → Logged ω ε Unit) : List ω → Logged ω ε Unit
  | [] => pure ()
  | w :: ws => do
    act w
    performAll act ws

/-- `m` performs `ws` and returns `a`. -/
def Performs (act : ω → Logged ω ε Unit) (m : Logged ω ε α) (a : α) (ws : List ω) : Prop :=
  m = do
    performAll act ws
    pure a

variable {act : ω → Logged ω ε Unit}

theorem performAll_append (ws vs : List ω) :
    performAll act (ws ++ vs) = (do performAll act ws; performAll act vs) := by
  induction ws with
  | nil => simp only [List.nil_append, performAll, pure_bind]
  | cons w ws ih => simp only [List.cons_append, performAll, ih, bind_assoc]

theorem performs_pure (a : α) : Performs act (pure a) a [] := by
  simp only [Performs, performAll, pure_bind]

theorem performs_act (w : ω) : Performs act (act w) () [w] := by
  simp [Performs, performAll]

theorem Performs.bind {m : Logged ω ε α} {f : α → Logged ω ε β} {a : α} {b : β} {ws vs : List ω}
    (hm : Performs act m a ws) (hf : Performs act (f a) b vs) : Performs act (m >>= f) b (ws ++ vs) := by
  rw [Performs] at hm hf ⊢
  rw [hm, performAll_append, bind_assoc, bind_assoc, pure_bind, hf]

theorem performs_forFrom {body : Nat → Logged ω ε Unit} {ws : Nat → List ω} :
    ∀ {n lo : Nat}, (∀ i, lo ≤ i → i < lo + n → Performs act (body i) () (ws i)) →
      Performs act (forFrom n lo body) () ((List.range' lo n).flatMap ws)
  | 0, _, _ => performs_pure ()
  | n + 1, lo, h => by
    rw [List.range'_succ, List.flatMap_cons]
    refine (h lo (Nat.le_refl _) (by omega)).bind (performs_forFrom fun i hi hn => ?_)
    exact h i (by omega) (by omega)

theorem performs_forRange {body : Nat → Logged ω ε Unit} {ws : Nat → List ω} {lo hi : Nat}
    (h : ∀ i, lo ≤ i → i < hi → Performs act (body i) () (ws i)) :
    Performs act (forRange lo hi body) () ((List.range' lo (hi - lo)).flatMap ws) :=
  performs_forFrom fun i hl hh => h i hl (by omega)

/-- The action at `i` is performed after all before it, and logs itself. -/
def Done (act : ω → Logged ω ε Unit) (log ws : List ω) (i : Nat) : Prop :=
  ∃ w, ws[i]? = some w ∧ (act w).runFrom (log ++ ws.take i) = (.ok (), log ++ ws.take (i + 1))

theorem done_succ {log ws : List ω} {w : ω} {i : Nat} (h : Done act (log ++ [w]) ws i) :
    Done act log (w :: ws) (i + 1) := by
  obtain ⟨v, hv, hrun⟩ := h
  refine ⟨v, hv, ?_⟩
  simpa only [List.take_succ_cons, List.append_assoc, List.singleton_append] using hrun

/-- The list is performed up to its end, or up to the first action that stops,
and then with what that action left. -/
theorem performAll_cases {ws : List ω}
    (hact : ∀ w ∈ ws, ∀ log u log', (act w).runFrom log = (.ok u, log') → log' = log ++ [w]) : ∀ log,
    ((performAll act ws).runFrom log = (.ok (), log ++ ws) ∧ ∀ i < ws.length, Done act log ws i) ∨
      ∃ i w e log', ws[i]? = some w ∧ (∀ j < i, Done act log ws j) ∧
        (act w).runFrom (log ++ ws.take i) = (.error e, log') ∧ (performAll act ws).runFrom log = (.error e, log') := by
  induction ws with
  | nil => exact fun log => .inl ⟨by rw [List.append_nil]; rfl, fun i hi => absurd hi (Nat.not_lt_zero i)⟩
  | cons w ws ih =>
    intro log
    rcases hw : (act w).runFrom log with ⟨r, log'⟩
    cases r with
    | error e =>
      refine .inr ⟨0, w, e, log', rfl, fun j hj => absurd hj (Nat.not_lt_zero j), ?_, ?_⟩
      · rw [List.take_zero, List.append_nil]
        exact hw
      · exact runFrom_bind_error hw
    | ok u =>
      obtain rfl : log' = log ++ [w] := hact w List.mem_cons_self log u log' hw
      have hrun : (performAll act (w :: ws)).runFrom log = (performAll act ws).runFrom (log ++ [w]) :=
        runFrom_bind_ok hw
      have hfirst : Done act log (w :: ws) 0 := ⟨w, rfl, by simpa using hw⟩
      rw [hrun]
      rcases ih (fun v hv => hact v (List.mem_cons_of_mem w hv)) (log ++ [w]) with
        ⟨hok, hdone⟩ | ⟨i, v, e, log', hv, hdone, hstop, hall⟩
      · refine .inl ⟨by rw [hok, List.append_assoc, List.singleton_append], fun i hi => ?_⟩
        cases i with
        | zero => exact hfirst
        | succ i => exact done_succ (hdone i (by simpa using hi))
      · refine .inr ⟨i + 1, v, e, log', hv, fun j hj => ?_, ?_, hall⟩
        · cases j with
          | zero => exact hfirst
          | succ j => exact done_succ (hdone j (by omega))
        · simpa only [List.take_succ_cons, List.append_assoc, List.singleton_append] using hstop

end Logged
