/-
Locks taken in the order of their ranks: threads that acquire and release
shared and exclusive locks, their interleavings, and why none of them wait
for each other in a cycle.

A thread is disciplined when each lock it acquires ranks above every lock it
holds by then, and it ends with none. A thread that waits for a lock of a
disciplined one ranks below it, so a set of threads that wait for one another
has no one on top.
-/
import Mathlib.Data.Set.Finite.Lemmas
import Pea2Pea.Lib.Transition
import Pea2Pea.Lib.Pool

namespace LockOrder

open Pool

/-- How a lock is held: a `Mutex` exclusively, a `RwLock` either way. -/
inductive Mode
  | shared
  | exclusive
  deriving DecidableEq

inductive Op (L : Type)
  | acquire (l : L) (m : Mode)
  | release (l : L)
  deriving DecidableEq

/-- A thread: the locks it holds, and what is ahead of it. -/
structure Thread (L : Type) where
  held : List (L × Mode)
  rest : List (Op L)
  deriving DecidableEq

variable {L P : Type} [DecidableEq L]

def Thread.holds (t : Thread L) (l : L) : Bool := t.held.any fun h => h.1 = l

/-- The lock can be had: a shared one while no thread has it exclusively, an
exclusive one while no thread has it. -/
def grantable (ts : List (Thread L)) (l : L) : Mode → Bool
  | .shared => ts.all fun t => (l, Mode.exclusive) ∉ t.held
  | .exclusive => ts.all fun t => !t.holds l

inductive Act (P : Type)
  /-- A thread starts to run `p`. -/
  | call (p : P)
  /-- Thread `i` takes its next operation. -/
  | run (i : Nat)
  deriving DecidableEq

def step (program : P → List (Op L)) (ts : List (Thread L)) : Act P → Option (List (Thread L))
  | .call p => some (ts ++ [⟨[], program p⟩])
  | .run i => do
    let t ← ts[i]?
    match t.rest with
    | .acquire l m :: ops => if grantable ts l m then some (ts.set i ⟨(l, m) :: t.held, ops⟩) else none
    | .release l :: ops => some (ts.set i ⟨t.held.filter fun h => h.1 ≠ l, ops⟩)
    | [] => none

/-- Any number of threads, each running one of the programs. -/
def threads (program : P → List (Op L)) : Machine (List (Thread L)) (Act P) := ⟨[], step program⟩

/-- Thread `i` is at the acquisition of `l`. -/
def Wants (ts : List (Thread L)) (i : Nat) (l : L) : Prop :=
  ∃ t m ops, ts[i]? = some t ∧ t.rest = .acquire l m :: ops

def Holds (ts : List (Thread L)) (i : Nat) (l : L) : Prop := ∃ t, ts[i]? = some t ∧ t.holds l = true

/-- Thread `i` is at the acquisition of a lock that `j` holds. -/
def WaitsFor (ts : List (Thread L)) (i j : Nat) : Prop := ∃ l, Wants ts i l ∧ Holds ts j l

/-! ## Discipline -/

/-- With `held`, each acquisition of `ops` ranks above what is held then,
each release is of a lock that is held, and nothing is held in the end. -/
def disciplined (rank : L → Nat) : List (L × Mode) → List (Op L) → Bool
  | held, [] => held.isEmpty
  | held, .acquire l m :: ops => held.all (fun h => rank h.1 < rank l) && disciplined rank ((l, m) :: held) ops
  | held, .release l :: ops =>
    held.any (fun h => h.1 = l) && disciplined rank (held.filter fun h => h.1 ≠ l) ops

variable {rank : L → Nat} {program : P → List (Op L)} {ts : List (Thread L)}

/-- A disciplined thread asks for what ranks above all it holds. -/
theorem rank_lt {t : Thread L} {l k : L} {m : Mode} {ops : List (Op L)} (h : disciplined rank t.held t.rest = true)
    (hr : t.rest = .acquire l m :: ops) (hk : t.holds k = true) : rank k < rank l := by
  rw [hr, disciplined, Bool.and_eq_true, List.all_eq_true] at h
  obtain ⟨x, hx, hxk⟩ := List.any_eq_true.mp hk
  have hlt := h.1 x hx
  simp only [decide_eq_true_eq] at hxk hlt
  rwa [← hxk]

theorem disciplined_reachable (hp : ∀ p, disciplined rank [] (program p) = true)
    (h : (threads program).Reachable ts) : ∀ t ∈ ts, disciplined rank t.held t.rest = true := by
  refine h.invariant (P := fun ts => ∀ t ∈ ts, disciplined rank t.held t.rest = true) (by simp [threads]) ?_
  intro ts ts' a _ ih _ hs
  cases a with
  | call p => cases hs; exact forall_mem_append ih (hp p)
  | run i =>
    obtain ⟨t, ht, hs⟩ := Option.bind_eq_some_iff.mp hs
    have hd := ih t (List.mem_of_getElem? ht)
    split at hs
    next l m ops hr =>
      rw [hr, disciplined, Bool.and_eq_true] at hd
      split at hs
      · cases hs; exact forall_mem_set ih hd.2
      · cases hs
    next l ops hr =>
      rw [hr, disciplined, Bool.and_eq_true] at hd
      cases hs
      exact forall_mem_set ih hd.2
    · cases hs

/-! ## No cycle -/

theorem grantable_of_free {l : L} (h : ∀ j, ¬ Holds ts j l) (m : Mode) : grantable ts l m = true := by
  have hnone : ∀ t ∈ ts, t.holds l = false := by
    intro t ht
    obtain ⟨j, hj⟩ := List.getElem?_of_mem ht
    cases hl : t.holds l with
    | false => rfl
    | true => exact absurd ⟨t, hj, hl⟩ (h j)
  cases m with
  | exclusive => simpa [grantable] using hnone
  | shared =>
    simp only [grantable, List.all_eq_true, decide_eq_true_eq]
    intro t ht hmem
    have hno := hnone t ht
    rw [Thread.holds, List.any_eq_false] at hno
    exact hno _ hmem (by simp)

/-- A thread at no lock that is held can go on. -/
theorem enabled_of_free {i : Nat} {t : Thread L} (ht : ts[i]? = some t) (hr : t.rest ≠ [])
    (hfree : ∀ l, Wants ts i l → ∀ j, ¬ Holds ts j l) : (step program ts (.run i)).isSome = true := by
  cases hops : t.rest with
  | nil => exact absurd hops hr
  | cons op ops =>
    cases op with
    | release l => simp [step, ht, hops]
    | acquire l m =>
      have hg := grantable_of_free (hfree l ⟨t, m, ops, ht, hops⟩) m
      simp [step, ht, hops, hg]

section

variable (hd : ∀ t ∈ ts, disciplined rank t.held t.rest = true)
include hd

theorem not_wants_held {i : Nat} {l : L} (hw : Wants ts i l) : ¬ Holds ts i l := by
  obtain ⟨t, m, ops, ht, hr⟩ := hw
  rintro ⟨x, hx, hl⟩
  rw [ht] at hx; cases hx
  exact lt_irrefl _ (rank_lt (hd t (List.mem_of_getElem? ht)) hr hl)

/-- No set of threads waits for one another. -/
theorem no_cycle (S : Set Nat) (hS : S.Nonempty) : ¬ ∀ i ∈ S, ∃ j ∈ S, WaitsFor ts i j := by
  intro hall
  have : Nonempty L := by
    obtain ⟨i, hi⟩ := hS
    obtain ⟨-, -, l, -⟩ := hall i hi
    exact ⟨l⟩
  choose! next hnext wanted hwants hholds using hall
  have hfin : S.Finite := by
    refine (Set.finite_lt_nat ts.length).subset fun i hi => ?_
    obtain ⟨t, _, _, ht, _⟩ := hwants i hi
    exact (List.getElem?_eq_some_iff.mp ht).1
  -- a thread that waits for a lock of the highest rank waits for one that waits for a higher
  obtain ⟨i, hi, hmax⟩ := Set.exists_max_image S (fun i => rank (wanted i)) hfin hS
  have hj := hnext i hi
  obtain ⟨t, m, ops, ht, hr⟩ := hwants (next i) hj
  obtain ⟨x, hx, hl⟩ := hholds i hi
  rw [ht] at hx; cases hx
  have hlt := rank_lt (hd t (List.mem_of_getElem? ht)) hr hl
  exact absurd (hmax (next i) hj) (not_le.mpr hlt)

/-- While a thread is not through, one of them can go on, and it is not for a
lock that another holds. -/
theorem progress (program : P → List (Op L)) (h : ∃ t ∈ ts, t.rest ≠ []) :
    ∃ i, (step program ts (.run i)).isSome = true ∧ ∀ l, Wants ts i l → ∀ j, ¬ Holds ts j l := by
  by_contra hstuck
  -- otherwise every thread that is not through waits for another such
  refine no_cycle hd { i | ∃ t, ts[i]? = some t ∧ t.rest ≠ [] } ?_ fun i ⟨t, ht, hr⟩ => ?_
  · obtain ⟨t, ht, hr⟩ := h
    obtain ⟨i, hi⟩ := List.getElem?_of_mem ht
    exact ⟨i, t, hi, hr⟩
  · by_cases hfree : ∀ l, Wants ts i l → ∀ j, ¬ Holds ts j l
    · exact absurd ⟨i, enabled_of_free ht hr hfree, hfree⟩ hstuck
    · push Not at hfree
      obtain ⟨l, hw, j, x, hx, hl⟩ := hfree
      refine ⟨j, ⟨x, hx, fun hnil => ?_⟩, l, hw, x, hx, hl⟩
      -- who is through holds nothing
      have hempty := hd x (List.mem_of_getElem? hx)
      rw [hnil, disciplined, List.isEmpty_iff] at hempty
      simp [Thread.holds, hempty] at hl

end

end LockOrder
