/-
Spawned tasks, by their handles: a task runs, until it has finished or been
aborted, and that for good. An abort has no effect on a task that ended.

What is said of tasks is said of the list of their statuses first, and then of
tasks that carry more than a status (`HasStatus`).
-/
import Pea2Pea.Lib.Pool

inductive TaskStatus
  | running
  | finished
  | aborted
  deriving DecidableEq

namespace TaskStatus

open Pool

/-- What an abort makes of a task: it has no effect on one that ended. -/
def abort : TaskStatus → TaskStatus
  | .running => .aborted
  | status => status

def abortAt (l : List TaskStatus) (h : Nat) : List TaskStatus := l.modify h abort

def abortEach (l : List TaskStatus) (hs : List Nat) : List TaskStatus := hs.foldl abortAt l

/-- The task has finished, or been aborted. -/
def Ended (l : List TaskStatus) (h : Nat) : Prop := ∃ st, l[h]? = some st ∧ st ≠ .running

/-- A task that has ended stays so. -/
def Later (l l' : List TaskStatus) : Prop := ∀ h, Ended l h → Ended l' h

variable {l : List TaskStatus} {h : Nat} {hs : List Nat} {st : TaskStatus}

theorem abort_ne_running (st : TaskStatus) : st.abort ≠ .running := by cases st <;> simp [abort]

theorem abort_of_ne_running (hst : st ≠ .running) : st.abort = st := by
  cases st with
  | running => exact absurd rfl hst
  | finished => rfl
  | aborted => rfl

theorem Later.refl (l : List TaskStatus) : Later l l := fun _ h => h

theorem later_append (l : List TaskStatus) (st : TaskStatus) : Later l (l ++ [st]) :=
  fun _ ⟨z, hz, hne⟩ => ⟨z, getElem?_append_of_some hz _, hne⟩

/-- A task ends. -/
theorem later_set (hst : st ≠ .running) : Later l (l.set h st) := by
  intro w ⟨z, hz, hne⟩
  by_cases hw : h = w
  · subst hw
    exact ⟨st, by rw [getElem?_set hz, if_pos rfl], hst⟩
  · exact ⟨z, by rw [List.getElem?_set_ne hw, hz], hne⟩

theorem later_abortAt (l : List TaskStatus) (h : Nat) : Later l (abortAt l h) := by
  intro w ⟨z, hz, hne⟩
  by_cases hw : h = w
  · exact ⟨z.abort, by simp [abortAt, hw, hz], abort_ne_running _⟩
  · exact ⟨z, by simp [abortAt, hw, hz], hne⟩

theorem ended_abortAt (hst : l[h]? = some st) : Ended (abortAt l h) h :=
  ⟨st.abort, by simp [abortAt, hst], abort_ne_running _⟩

/-- An abort is nothing to the other tasks. -/
theorem getElem?_abortAt_ne {w : Nat} (hw : w ≠ h) : (abortAt l w)[h]? = l[h]? := by
  simp [abortAt, hw]

theorem getElem?_abortEach (hn : h ∉ hs) : (abortEach l hs)[h]? = l[h]? := by
  induction hs generalizing l with
  | nil => rfl
  | cons w hs ih =>
    rw [List.mem_cons, not_or] at hn
    exact (ih hn.2).trans (getElem?_abortAt_ne (Ne.symm hn.1))

theorem later_abortEach (l : List TaskStatus) (hs : List Nat) : Later l (abortEach l hs) := by
  induction hs generalizing l with
  | nil => exact .refl _
  | cons h hs ih => exact fun w hw => ih _ w (later_abortAt l h w hw)

theorem ended_abortEach (hst : l[h]? = some st) (hm : h ∈ hs) : Ended (abortEach l hs) h := by
  induction hs generalizing l st with
  | nil => cases hm
  | cons w hs ih =>
    rcases List.mem_cons.mp hm with rfl | hm
    · exact later_abortEach _ hs _ (ended_abortAt hst)
    · by_cases hw : w = h
      · subst hw
        exact later_abortEach _ hs _ (ended_abortAt hst)
      · exact ih (by rw [getElem?_abortAt_ne hw, hst]) hm

/-- The abort of a task that ended is no abort. -/
theorem abortAt_of_ended (he : Ended l h) : abortAt l h = l := by
  obtain ⟨st, hst, hne⟩ := he
  refine List.ext_getElem? fun w => ?_
  by_cases hw : h = w
  · subst hw
    simp [abortAt, hst, abort_of_ne_running hne]
  · exact getElem?_abortAt_ne hw

theorem abortEach_of_ended (he : ∀ h ∈ hs, Ended l h) : abortEach l hs = l := by
  induction hs with
  | nil => rfl
  | cons w hs ih =>
    have hw : abortAt l w = l := abortAt_of_ended (he w List.mem_cons_self)
    exact (congrArg (abortEach · hs) hw).trans (ih fun h hh => he h (List.mem_cons_of_mem _ hh))

end TaskStatus

/-! ## Tasks that carry more -/

/-- What is spawned has a status, and with the change of that alone it is the
same task. -/
class HasStatus (τ : Type) where
  status : τ → TaskStatus
  setStatus : τ → TaskStatus → τ
  status_setStatus (t : τ) (st : TaskStatus) : status (setStatus t st) = st

namespace Tasks

open Pool HasStatus
open TaskStatus (Ended abortAt abortEach)

variable {τ α : Type} [HasStatus τ] {tasks : List τ} {h w : Nat} {hs : List Nat} {t : τ}

def statuses (tasks : List τ) : List TaskStatus := tasks.map status

def abort (tasks : List τ) (h : Nat) : List τ := tasks.modify h fun t => setStatus t (status t).abort

def abortAll (tasks : List τ) (hs : List Nat) : List τ := hs.foldl abort tasks

/-- The task has finished, or been aborted. -/
def Over (tasks : List τ) (h : Nat) : Prop := Ended (statuses tasks) h

/-- A task that is over stays so. -/
def Later (tasks tasks' : List τ) : Prop := TaskStatus.Later (statuses tasks) (statuses tasks')

/-- How many of the tasks run. -/
def running (tasks : List τ) : Nat := tasks.countP fun t => status t = .running

theorem getElem?_statuses (ht : tasks[h]? = some t) : (statuses tasks)[h]? = some (status t) := by
  rw [statuses, List.getElem?_map, ht]
  rfl

@[simp] theorem statuses_append (tasks : List τ) (t : τ) : statuses (tasks ++ [t]) = statuses tasks ++ [status t] := by
  simp [statuses]

@[simp] theorem statuses_set (tasks : List τ) (h : Nat) (t : τ) :
    statuses (tasks.set h t) = (statuses tasks).set h (status t) :=
  List.map_set

@[simp] theorem statuses_abort (tasks : List τ) (h : Nat) : statuses (abort tasks h) = abortAt (statuses tasks) h :=
  map_modify (fun t => status_setStatus t _) tasks h

@[simp] theorem statuses_abortAll (tasks : List τ) (hs : List Nat) :
    statuses (abortAll tasks hs) = abortEach (statuses tasks) hs := by
  induction hs generalizing tasks with
  | nil => rfl
  | cons h hs ih => exact (ih _).trans (congrArg (abortEach · hs) (statuses_abort tasks h))

/-- An abort changes nothing but a status. -/
theorem map_abort {f : τ → α} (hf : ∀ t st, f (setStatus t st) = f t) (tasks : List τ) (h : Nat) :
    (abort tasks h).map f = tasks.map f :=
  map_modify_same (fun t => hf t _) tasks h

theorem map_abortAll {f : τ → α} (hf : ∀ t st, f (setStatus t st) = f t) (tasks : List τ) (hs : List Nat) :
    (abortAll tasks hs).map f = tasks.map f :=
  map_foldl_modify_same (fun t => hf t _) tasks hs

/-- What runs after an abort is another task, and ran before. -/
theorem abort_running (ht : (abort tasks h)[w]? = some t) (hr : status t = .running) : tasks[w]? = some t ∧ w ≠ h := by
  rw [abort, List.getElem?_modify] at ht
  by_cases hw : h = w
  · simp only [hw, if_true] at ht
    obtain ⟨z, -, rfl⟩ := Option.map_eq_some_iff.mp ht
    rw [status_setStatus] at hr
    exact absurd hr (TaskStatus.abort_ne_running _)
  · exact ⟨by simpa [hw] using ht, Ne.symm hw⟩

theorem abortAll_running (ht : (abortAll tasks hs)[w]? = some t) (hr : status t = .running) :
    tasks[w]? = some t ∧ w ∉ hs := by
  induction hs generalizing tasks with
  | nil => exact ⟨ht, by simp⟩
  | cons h hs ih =>
    obtain ⟨ht, hn⟩ := ih ht
    obtain ⟨ht, hne⟩ := abort_running ht hr
    exact ⟨ht, by simp [hne, hn]⟩

/-! ### Over -/

theorem over_iff : Over tasks h ↔ ∃ t, tasks[h]? = some t ∧ status t ≠ .running := by
  simp [Over, Ended, statuses]

/-- A task that was aborted as soon as it was spawned. -/
theorem over_new (ht : status t ≠ .running) : Over (tasks ++ [t]) tasks.length :=
  over_iff.mpr ⟨t, List.getElem?_concat_length, ht⟩

/-- An aborted task is over. -/
theorem over_abort (ht : tasks[h]? = some t) : Over (abort tasks h) h := by
  rw [Over, statuses_abort]
  exact TaskStatus.ended_abortAt (getElem?_statuses ht)

theorem over_abortAll (ht : tasks[h]? = some t) (hh : h ∈ hs) : Over (abortAll tasks hs) h := by
  rw [Over, statuses_abortAll]
  exact TaskStatus.ended_abortEach (getElem?_statuses ht) hh

theorem Later.refl (tasks : List τ) : Later tasks tasks := TaskStatus.Later.refl _

theorem later_append (tasks : List τ) (t : τ) : Later tasks (tasks ++ [t]) := by
  rw [Later, statuses_append]
  exact TaskStatus.later_append _ _

theorem later_set (ht : status t ≠ .running) : Later tasks (tasks.set h t) := by
  rw [Later, statuses_set]
  exact TaskStatus.later_set ht

theorem later_abort (tasks : List τ) (h : Nat) : Later tasks (abort tasks h) := by
  rw [Later, statuses_abort]
  exact TaskStatus.later_abortAt _ _

theorem later_abortAll (tasks : List τ) (hs : List Nat) : Later tasks (abortAll tasks hs) := by
  rw [Later, statuses_abortAll]
  exact TaskStatus.later_abortEach _ _

/-! ### Running -/

theorem running_append (tasks : List τ) (t : τ) : running (tasks ++ [t]) ≤ running tasks + 1 := by
  simp only [running, List.countP_append]
  have := List.countP_le_length (p := fun t : τ => status t = .running) (l := [t])
  simp only [List.length_singleton] at this
  omega

/-- A task ends. -/
theorem running_set {t' : τ} (ht : tasks[h]? = some t) (hr : status t = .running) (hn : status t' ≠ .running) :
    running (tasks.set h t') + 1 = running tasks :=
  countP_set_loss ht (decide_eq_true hr) (decide_eq_false hn)

theorem running_abort (tasks : List τ) (h : Nat) : running (abort tasks h) ≤ running tasks :=
  countP_modify_le (fun t ht => by simp [status_setStatus, TaskStatus.abort_ne_running] at ht) tasks h

theorem running_abortAll (tasks : List τ) (hs : List Nat) : running (abortAll tasks hs) ≤ running tasks := by
  induction hs generalizing tasks with
  | nil => exact Nat.le_refl _
  | cons h hs ih => exact Nat.le_trans (ih _) (running_abort tasks h)

end Tasks
