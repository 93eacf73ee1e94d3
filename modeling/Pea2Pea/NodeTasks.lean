/-
The node tasks and their handles.

A handle is with the call that spawned its task until the call is over; a
registered one is in the registry as well, and then with the `shut_down`
that took it. A handler's task is aborted with its call, or by a `shut_down`
that winds it down. In an orderly run (no drain deadline passes, no
`shut_down` is dropped) the latter has seen the task end before, so a handler
whose call is over is never aborted.
-/
import Pea2Pea.ShutdownFacts

namespace Pea2Pea.Shutdown

open Pool Tasks

/-! ## Tasks -/

theorem finish_running {tasks : List Task} {h w : Handle} {t z : Task} (hz : tasks[h]? = some z)
    (ht : (tasks.set h { z with status := .finished })[w]? = some t) (hr : t.status = .running) :
    tasks[w]? = some t := by
  rcases getElem?_set_cases hz ht with ⟨-, rfl⟩ | ⟨-, ht⟩
  · cases hr
  · exact ht

/-- `h` is the handle of a task of this kind. -/
def IsTask (tasks : List Task) (kind : NodeTask) (h : Handle) : Prop := (tasks.map (·.kind))[h]? = some kind

/-- Tasks are added, and none changes its kind. -/
def Grows (tasks tasks' : List Task) : Prop := ∀ kind h, IsTask tasks kind h → IsTask tasks' kind h

theorem Grows.refl (tasks : List Task) : Grows tasks tasks := fun _ _ h => h

theorem grows_append (tasks : List Task) (t : Task) : Grows tasks (tasks ++ [t]) := by
  intro kind h hk
  unfold IsTask at hk ⊢
  rw [List.map_append]
  exact getElem?_append_of_some hk _

theorem grows_abort (tasks : List Task) (h : Handle) : Grows tasks (abort tasks h) := by
  intro kind w hk
  have hsame : (abort tasks h).map (·.kind) = tasks.map (·.kind) := map_abort (fun _ _ => rfl) tasks h
  rwa [IsTask, hsame]

theorem grows_abortAll (tasks : List Task) (hs : List Handle) : Grows tasks (abortAll tasks hs) := by
  intro kind w hk
  have hsame : (abortAll tasks hs).map (·.kind) = tasks.map (·.kind) :=
    map_abortAll (fun _ _ => rfl) tasks hs
  rwa [IsTask, hsame]

theorem grows_finish {tasks : List Task} {h : Handle} {t : Task} (ht : tasks[h]? = some t) :
    Grows tasks (tasks.set h { t with status := .finished }) := by
  intro kind w hk
  have hsame : (tasks.set h { t with status := .finished }).map (·.kind) = tasks.map (·.kind) := map_set_same ht rfl
  rwa [IsTask, hsame]

theorem isTask_new (tasks : List Task) (t : Task) : IsTask (tasks ++ [t]) t.kind tasks.length := by
  simp [IsTask]

theorem IsTask.lt {tasks : List Task} {kind : NodeTask} {h : Handle} (hk : IsTask tasks kind h) : h < tasks.length := by
  have := (List.getElem?_eq_some_iff.mp hk).1
  simpa using this

theorem IsTask.exists_task {tasks : List Task} {kind : NodeTask} {h : Handle} (hk : IsTask tasks kind h) :
    ∃ t, tasks[h]? = some t :=
  ⟨_, List.getElem?_eq_getElem hk.lt⟩

theorem isTask_of_task {tasks : List Task} {h : Handle} {t : Task} (ht : tasks[h]? = some t) :
    IsTask tasks t.kind h := by
  simp [IsTask, ht]

/-! ## Who has a handle -/

/-- The task the call has spawned, until the call is over. -/
def Call.task (x : Call) : Option Handle :=
  match x.pc with
  | .spawned h | .locked h | .admitted h | .registered h => some h
  | _ => none

/-- The task the call has not registered yet. -/
def Call.guard (x : Call) : Option Handle :=
  match x.pc with
  | .spawned h | .locked h | .admitted h => some h
  | _ => none

theorem Call.task_of_guard {x : Call} {h : Handle} (hg : x.guard = some h) : x.task = some h := by
  unfold Call.guard at hg
  unfold Call.task
  cases hpc : x.pc <;> simp_all

structure TaskLedger (tasks : List Task) (registry : Table NodeTask Handle) (calls : List Call) (shuts : List Shut) :
    Prop where
  held : ∀ x ∈ calls, ∀ h, x.task = some h → IsTask tasks x.kind h
  unique : UniqueBy Call.task calls
  registry : ∀ kind h, registry.lookup kind = some h → IsTask tasks kind h
  taken : ∀ u ∈ shuts, ∀ h ∈ u.tasks, ∃ kind, kind ≠ .listener ∧ IsTask tasks kind h

namespace TaskLedger

variable {T T' : List Task} {R : Table NodeTask Handle} {C : List Call} {U : List Shut} {c n : Nat} {x y : Call}
  {u v : Shut}

theorem grow (h : TaskLedger T R C U) (hg : Grows T T') : TaskLedger T' R C U where
  held x hx w hw := hg _ _ (h.held x hx w hw)
  unique := h.unique
  registry kind w hw := hg _ _ (h.registry kind w hw)
  taken u hu w hw := by
    obtain ⟨kind, hne, hk⟩ := h.taken u hu w hw
    exact ⟨kind, hne, hg _ _ hk⟩

/-- A call moves on with its task, or without. -/
theorem goto (h : TaskLedger T R C U) (hx : C[c]? = some x) (hk : y.kind = x.kind)
    (ht : ∀ w, y.task = some w → x.task = some w) : TaskLedger T R (C.set c y) U :=
  { h with
    held := forall_mem_set h.held fun w hw => by
      rw [hk]
      exact h.held x (List.mem_of_getElem? hx) w (ht w hw)
    unique := h.unique.set hx fun w hw => .inl (ht w hw) }

theorem call (h : TaskLedger T R C U) (hy : y.task = none) : TaskLedger T R (C ++ [y]) U :=
  { h with
    held := forall_mem_append h.held fun w hw => by rw [hy] at hw; cases hw
    unique := h.unique.append fun w hw => by rw [hy] at hw; cases hw }

/-- A call spawns its task. -/
theorem spawn (h : TaskLedger T R C U) (hx : C[c]? = some x) (hy : y.task = some T.length) :
    TaskLedger (T ++ [⟨y.kind, .running⟩]) R (C.set c y) U where
  held := forall_mem_set (h.grow (grows_append _ _)).held fun w hw => by
    rw [hy] at hw; cases hw
    exact isTask_new T ⟨y.kind, .running⟩
  unique := h.unique.set hx fun w hw => by
    rw [hy] at hw; cases hw
    refine .inr fun ⟨z, hz, hzt⟩ => ?_
    exact absurd (h.held z hz _ hzt).lt (Nat.lt_irrefl _)
  registry := (h.grow (grows_append _ _)).registry
  taken := (h.grow (grows_append _ _)).taken

/-- The call's task is registered. -/
theorem register {w : Handle} (h : TaskLedger T R C U) (hx : x ∈ C) (hw : x.task = some w) :
    TaskLedger T (R.insert x.kind w) C U :=
  { h with
    registry := fun kind v hv => by
      rcases Table.lookup_insert_cases hv with ⟨rfl, rfl⟩ | ⟨-, hv⟩
      · exact h.held x hx _ hw
      · exact h.registry kind v hv }

theorem erase {kind : NodeTask} (h : TaskLedger T R C U) : TaskLedger T (R.erase kind) C U :=
  { h with registry := fun k w hw => h.registry k w (Table.lookup_erase_some hw).2 }

theorem shutGoto (h : TaskLedger T R C U) (hu : U[n]? = some u) (hv : v.tasks = u.tasks) :
    TaskLedger T R C (U.set n v) :=
  { h with
    taken := forall_mem_set h.taken fun w hw => by
      rw [hv] at hw
      exact h.taken u (List.mem_of_getElem? hu) w hw }

/-- A `shut_down` takes the registry. -/
theorem take (h : TaskLedger T R C U) (hv : v.tasks = windDown R) : TaskLedger T ∅ C (U.set n v) where
  held := h.held
  unique := h.unique
  registry kind w hw := by simp at hw
  taken := forall_mem_set h.taken fun w hw => by
    rw [hv, windDown, List.mem_filterMap] at hw
    obtain ⟨kind, hmem, hl⟩ := hw
    exact ⟨kind, by rintro rfl; simp at hmem, h.registry kind w hl⟩

theorem shutDown (h : TaskLedger T R C U) (hv : v.tasks = []) : TaskLedger T R C (U ++ [v]) :=
  { h with taken := forall_mem_append h.taken fun w hw => by rw [hv] at hw; cases hw }

end TaskLedger

abbrev TaskLedgerOK (s : State) : Prop := TaskLedger s.tasks s.registry s.calls s.shuts

@[simp] theorem Shut.announce_tasks (u : Shut) (a : Pea2Pea.Act) : (u.announce a).tasks = u.tasks := by
  rcases announce_cases u a with h | ⟨w, hpc, h⟩ | ⟨w, hpc, h⟩ <;> rw [h]

theorem StepR.taskLedgerOK {cfg : NodeConfig} {s s' : State} {a : Act} (hR : RegistryOK s) (h : TaskLedgerOK s)
    (hs : StepR cfg s a s') : TaskLedgerOK s' := by
  have done : ∀ {c x}, s.calls[c]? = some x →
      TaskLedger s.tasks s.registry (s.calls.set c { x with pc := .done }) s.shuts :=
    fun hx => h.goto hx rfl (by simp [Call.task])
  cases hs with
  | base =>
    refine { h with taken := ?_ }
    simp only [List.forall_mem_map, Shut.announce_tasks]
    exact h.taken
  | toggle => exact h.call rfl
  | enable => exact h.call rfl
  | lockListening hx => exact h.goto hx rfl (by simp [Call.task])
  | toggleOff hx => exact ((done hx).grow (grows_abort _ _)).erase
  | toggleGone hx | toggleFail hx | installTwice hx | publishAddr hx | publishTwice hx | publish hx | cancelCalled hx =>
    exact done hx
  | checkRefused hx | cancelSpawned hx => exact (done hx).grow (grows_abort _ _)
  | @bind c x addr port hx ha hpc =>
    have hk := hR.holder x (List.mem_of_getElem? hx) hpc
    rw [TaskLedgerOK, ← hk]
    exact h.spawn (y := { x with bound := some (.new addr.ip port), pc := .spawned s.tasks.length }) hx rfl
  | @install c x hx => exact h.spawn (y := { x with pc := .spawned s.tasks.length }) hx rfl
  | lockTasks hx hpc => exact h.goto hx rfl (by simp [Call.task, hpc])
  | checkAdmitted hx hpc => exact h.goto hx rfl (by simp [Call.task, hpc])
  | @registerTask c x w hx hpc =>
    have hreg := h.register (List.mem_of_getElem? hx) (by rw [Call.task, hpc])
    exact hreg.goto hx rfl (by simp [Call.task, hpc])
  | finishTask ht => exact h.grow (grows_finish ht)
  | shutDown => exact h.shutDown rfl
  | takeTasks hu => exact (h.take rfl).grow (grows_abortAll _ _)
  | @abortRest n u hu =>
    exact (h.shutGoto (v := { u with pc := .clearing }) hu rfl).grow (grows_abortAll _ _)
  | @cancelShut n u hu =>
    exact (h.shutGoto (v := { u with pc := .cancelled }) hu rfl).grow (grows_abortAll _ _)
  | begin hu | snapshot hu | fannedOut hu | enableDrain hu | enableSched hu | drainEmpty hu | drainPark hu
  | schedEmpty hu | schedPark hu | wakeDrain hu | wakeSched hu | signalHandlers hu | joined hu | expire hu
  | clear hu => exact h.shutGoto hu rfl

theorem taskLedgerOK_reachable {cfg : NodeConfig} {s : State} (h : (shutdown cfg).Reachable s) : TaskLedgerOK s := by
  refine h.invariant ?_ fun hr ho _ hs => (step_sound hs).taskLedgerOK (registryOK_reachable hr) ho
  exact ⟨by simp [shutdown, State.init], uniqueBy_nil, by simp [shutdown, State.init], by simp [shutdown, State.init]⟩

/-! ## How a call moves -/

/-- The moves of the call `c`. -/
inductive CallMove (c : Nat) : CallPc → Act → CallPc → Prop
  | lockListening : CallMove c .called (.lockListening c) .holding
  | toggleOff : CallMove c .holding (.toggleOff c) .done
  | toggleFail : CallMove c .holding (.toggleFail c) .done
  | bind {port h} : CallMove c .holding (.bind c port) (.spawned h)
  | installTwice : CallMove c .called (.install c) .done
  | install {h} : CallMove c .called (.install c) (.spawned h)
  | lockTasks {h} : CallMove c (.spawned h) (.lockTasks c) (.locked h)
  | refused {h} : CallMove c (.locked h) (.checkFlag c) .done
  | admitted {h} : CallMove c (.locked h) (.checkFlag c) (.admitted h)
  | registerTask {h} : CallMove c (.admitted h) (.registerTask c) (.registered h)
  | publish {h} : CallMove c (.registered h) (.publish c) .done
  | cancelCalled : CallMove c .called (.cancelCall c) .done
  | cancelSpawned {h} : CallMove c (.spawned h) (.cancelCall c) .done

theorem StepR.call_move {cfg : NodeConfig} {s s' : State} {a : Act} {c : Nat} {x : Call} (hs : StepR cfg s a s')
    (hx : s.calls[c]? = some x) :
    ∃ y, s'.calls[c]? = some y ∧ y.kind = x.kind ∧ (y.pc = x.pc ∨ CallMove c x.pc a y.pc) := by
  have same : ∃ y, s.calls[c]? = some y ∧ y.kind = x.kind ∧ (y.pc = x.pc ∨ CallMove c x.pc a y.pc) :=
    ⟨x, hx, rfl, .inl rfl⟩
  have spawn : ∀ {z : Call}, ∃ y, (s.calls ++ [z])[c]? = some y ∧ y.kind = x.kind ∧
      (y.pc = x.pc ∨ CallMove c x.pc a y.pc) :=
    ⟨x, getElem?_append_of_some hx _, rfl, .inl rfl⟩
  -- the call `d` moves, which may be this one
  have move : ∀ {d z z'}, s.calls[d]? = some z → z'.kind = z.kind → (d = c → CallMove c z.pc a z'.pc) →
      ∃ y, (s.calls.set d z')[c]? = some y ∧ y.kind = x.kind ∧ (y.pc = x.pc ∨ CallMove c x.pc a y.pc) := by
    intro d z z' hz hk hm
    by_cases hdc : d = c
    · subst hdc
      rw [hx] at hz; cases hz
      exact ⟨z', by rw [getElem?_set hx, if_pos rfl], hk, .inr (hm rfl)⟩
    · exact ⟨x, by rw [getElem?_set hz, if_neg hdc, hx], rfl, .inl rfl⟩
  cases hs with
  | toggle => exact spawn
  | enable => exact spawn
  | lockListening hz _ hpc => exact move hz rfl fun hd => hd ▸ hpc ▸ .lockListening
  | toggleOff hz hpc => exact move hz rfl fun hd => hd ▸ hpc ▸ .toggleOff
  | toggleGone hz hpc => exact move hz rfl fun hd => hd ▸ hpc ▸ .toggleOff
  | toggleFail hz hpc => exact move hz rfl fun hd => hd ▸ hpc ▸ .toggleFail
  | bind hz _ hpc => exact move hz rfl fun hd => hd ▸ hpc ▸ .bind
  | installTwice hz _ hpc => exact move hz rfl fun hd => hd ▸ hpc ▸ .installTwice
  | install hz _ hpc => exact move hz rfl fun hd => hd ▸ hpc ▸ .install
  | lockTasks hz hpc => exact move hz rfl fun hd => hd ▸ hpc ▸ .lockTasks
  | checkRefused hz hpc => exact move hz rfl fun hd => hd ▸ hpc ▸ .refused
  | checkAdmitted hz hpc => exact move hz rfl fun hd => hd ▸ hpc ▸ .admitted
  | registerTask hz hpc => exact move hz rfl fun hd => hd ▸ hpc ▸ .registerTask
  | publishAddr hz hpc => exact move hz rfl fun hd => hd ▸ hpc ▸ .publish
  | publishTwice hz hpc => exact move hz rfl fun hd => hd ▸ hpc ▸ .publish
  | publish hz hpc => exact move hz rfl fun hd => hd ▸ hpc ▸ .publish
  | cancelCalled hz hpc => exact move hz rfl fun hd => hd ▸ hpc ▸ .cancelCalled
  | cancelSpawned hz hpc => exact move hz rfl fun hd => hd ▸ hpc ▸ .cancelSpawned
  | _ => exact same

/-! ## A task that runs has an owner -/

/-- The call has not dropped the tasks it took. -/
def ShutPc.live : ShutPc → Bool
  | .taken | .fanout | .draining _ | .schedDraining _ | .drained | .winding _ => true
  | _ => false

/-- A running task of this kind is with the call that spawned it, in the
registry, or with the `shut_down` that took it from there. -/
def TasksOwned (kind : NodeTask) (s : State) : Prop :=
  ∀ (h : Nat) t, s.tasks[h]? = some t → t.kind = kind → t.status = .running →
    (∃ x ∈ s.calls, x.guard = some h) ∨ s.registry.lookup kind = some h ∨
      ∃ u ∈ s.shuts, u.pc.live = true ∧ h ∈ u.tasks

/-- The owner stays, if a registration displaces no other task. -/
theorem StepR.tasksOwned {cfg : NodeConfig} {s s' : State} {a : Act} {kind : NodeTask} (hs : StepR cfg s a s')
    (hL : TaskLedgerOK s)
    (hfree : ∀ x ∈ s.calls, ∀ w, x.kind = kind → x.pc = .admitted w → s.registry.lookup kind = none)
    (h : TasksOwned kind s) : TasksOwned kind s' := by
  -- a call that has no task moves on
  have move : ∀ {c x y} {w : Nat}, s.calls[c]? = some x → x.guard = none → (∃ z ∈ s.calls, z.guard = some w) →
      ∃ z ∈ s.calls.set c y, z.guard = some w :=
    fun hx hn hex => exists_mem_set hex hx fun hg => by rw [hn] at hg; cases hg
  have shut : ∀ {n u v} {w : Nat}, s.shuts[n]? = some u →
      (u.pc.live = true → w ∈ u.tasks → v.pc.live = true ∧ w ∈ v.tasks) →
      (∃ u ∈ s.shuts, u.pc.live = true ∧ w ∈ u.tasks) → ∃ u ∈ s.shuts.set n v, u.pc.live = true ∧ w ∈ u.tasks :=
    fun hu hv hex => exists_mem_set hex hu fun hp => hv hp.1 hp.2
  -- a call drops its task
  have dropTask : ∀ {c x v}, s.calls[c]? = some x → x.guard = some v → ∀ (w : Nat) t, (abort s.tasks v)[w]? = some t →
      t.kind = kind → t.status = .running → (∃ z ∈ s.calls.set c { x with pc := .done }, z.guard = some w) ∨
        s.registry.lookup kind = some w ∨ ∃ u ∈ s.shuts, u.pc.live = true ∧ w ∈ u.tasks := by
    intro c x v hx hg w t ht hk hr
    obtain ⟨ht, hne⟩ := abort_running ht hr
    exact (h w t ht hk hr).imp_left fun hex => exists_mem_set hex hx fun hw => by
      rw [hg] at hw; cases hw
      exact absurd rfl hne
  intro w t ht hk hr
  cases hs with
  | base =>
    refine (h w t ht hk hr).imp_right (Or.imp_right fun ⟨u, hu, hl, hm⟩ => ⟨_, List.mem_map_of_mem hu, ?_, ?_⟩)
    · rwa [Shut.announce_pc ShutPc.live (fun _ _ => rfl) fun _ _ => rfl]
    · rwa [Shut.announce_tasks]
  | toggle | enable =>
    exact (h w t ht hk hr).imp_left fun ⟨z, hz, hg⟩ => ⟨z, List.mem_append_left _ hz, hg⟩
  | lockListening hx _ hpc | toggleGone hx hpc | toggleFail hx hpc | installTwice hx _ hpc | publishAddr hx hpc
  | publishTwice hx hpc | publish hx hpc | cancelCalled hx hpc =>
    exact (h w t ht hk hr).imp_left (move hx (by rw [Call.guard, hpc]))
  | toggleOff hx hpc hl hreg =>
    obtain ⟨ht, hne⟩ := abort_running ht hr
    rcases h w t ht hk hr with hex | hex | hex
    · exact .inl (move hx (by rw [Call.guard, hpc]) hex)
    · refine .inr (.inl ?_)
      rw [Table.lookup_erase, if_neg fun heq => ?_]
      · exact hex
      · rw [heq, hreg] at hex
        exact hne (Option.some.inj hex).symm
    · exact .inr (.inr hex)
  | bind hx _ hpc | install hx _ hpc =>
    rcases getElem?_append_cases ht with ⟨rfl, -⟩ | ht
    · exact .inl ⟨_, mem_set_self hx _, rfl⟩
    · exact (h w t ht hk hr).imp_left (move hx (by rw [Call.guard, hpc]))
  | lockTasks hx hpc | checkAdmitted hx hpc =>
    refine (h w t ht hk hr).imp_left fun hex => exists_mem_set hex hx fun hg => ?_
    rwa [Call.guard, hpc] at hg
  | checkRefused hx hpc => exact dropTask hx (by rw [Call.guard, hpc]) w t ht hk hr
  | cancelSpawned hx hpc => exact dropTask hx (by rw [Call.guard, hpc]) w t ht hk hr
  | @registerTask c x v hx hpc =>
    have hg : x.guard = some v := by rw [Call.guard, hpc]
    have hxm := List.mem_of_getElem? hx
    rcases h w t ht hk hr with ⟨z, hz, hzg⟩ | hex | hex
    · obtain ⟨d, hd⟩ := List.getElem?_of_mem hz
      by_cases hcd : c = d
      · -- it is this call's task that goes to the registry
        subst hcd
        rw [hx] at hd; cases hd
        rw [hg] at hzg; cases hzg
        have hkind := hL.held x hxm w (Call.task_of_guard hg)
        have heq : kind = x.kind := hk.symm.trans (Option.some.inj ((isTask_of_task ht).symm.trans hkind))
        exact .inr (.inl (by rw [Table.lookup_insert, if_pos heq]))
      · have hkept : (s.calls.set c { x with pc := .registered v })[d]? = some z := by
          rw [getElem?_set hx, if_neg hcd, hd]
        exact .inl ⟨z, List.mem_of_getElem? hkept, hzg⟩
    · refine .inr (.inl ?_)
      rw [Table.lookup_insert, if_neg fun heq => ?_]
      · exact hex
      · rw [hfree x hxm v heq.symm hpc] at hex
        cases hex
    · exact .inr (.inr hex)
  | finishTask hz => exact h w t (finish_running hz ht hr) hk hr
  | shutDown =>
    refine (h w t ht hk hr).imp_right (Or.imp_right fun ⟨u, hu, hp⟩ => ⟨u, List.mem_append_left _ hu, hp⟩)
  | @takeTasks n u hu hpc hl =>
    obtain ⟨ht, hn⟩ := abortAll_running ht hr
    rcases h w t ht hk hr with hex | hex | hex
    · exact .inl hex
    · refine .inr (.inr ⟨_, mem_set_self hu _, rfl, List.mem_filterMap.mpr ⟨kind, ?_, hex⟩⟩)
      -- the listener has been aborted
      cases kind with
      | listener => rw [hex] at hn; simp at hn
      | _ => simp
    · exact .inr (.inr (shut hu (fun hl _ => by rw [hpc] at hl; cases hl) hex))
  | @abortRest n u hu hpc =>
    obtain ⟨ht, hn⟩ := abortAll_running ht hr
    exact (h w t ht hk hr).imp_right (Or.imp_right (shut hu fun _ hm => absurd hm hn))
  | @cancelShut n u hu hpc =>
    obtain ⟨ht, hn⟩ := abortAll_running ht hr
    exact (h w t ht hk hr).imp_right (Or.imp_right (shut hu fun _ hm => absurd hm hn))
  | begin hu hpc | clear hu hpc =>
    exact (h w t ht hk hr).imp_right (Or.imp_right (shut hu fun hl _ => by rw [hpc] at hl; cases hl))
  | snapshot hu | fannedOut hu | enableDrain hu | enableSched hu | drainEmpty hu | drainPark hu | schedEmpty hu
  | schedPark hu | wakeDrain hu | wakeSched hu | signalHandlers hu | joined hu | expire hu =>
    exact (h w t ht hk hr).imp_right (Or.imp_right (shut hu fun _ hm => ⟨rfl, hm⟩))

/-! ## Orderly runs -/

/-- No drain deadline passes, and no `shut_down` is dropped. -/
def Act.orderly : Act → Bool
  | .expire _ | .cancelShut _ => false
  | _ => true

/-- The task has not been aborted. -/
def Intact (tasks : List Task) (h : Handle) : Prop := (statuses tasks)[h]? ≠ some .aborted

/-- The tasks the call has awaited have ended. -/
def Joined (tasks : List Task) (u : Shut) : Prop :=
  ∀ i, u.pc = .winding i → ∀ (j : Nat) h, j < i → u.tasks[j]? = some h → Over tasks h

structure Orderly (s : State) : Prop where
  calls : ∀ x ∈ s.calls, x.kind ≠ .listener → ∀ h, x.task = some h → Intact s.tasks h
  joined : ∀ u ∈ s.shuts, Joined s.tasks u

variable {cfg : NodeConfig} {s s' : State} {a : Act}

theorem StepR.grows (hs : StepR cfg s a s') : Grows s.tasks s'.tasks := by
  cases hs with
  | toggleOff | checkRefused | cancelSpawned => exact grows_abort _ _
  | bind | install => exact grows_append _ _
  | finishTask ht => exact grows_finish ht
  | takeTasks | abortRest | cancelShut => exact grows_abortAll _ _
  | _ => exact .refl _

theorem StepR.later (hs : StepR cfg s a s') : Later s.tasks s'.tasks := by
  cases hs with
  | toggleOff | checkRefused | cancelSpawned => exact later_abort _ _
  | bind | install => exact later_append _ _
  | finishTask => exact later_set (fun hr => by cases hr)
  | takeTasks | abortRest | cancelShut => exact later_abortAll _ _
  | _ => exact .refl _

theorem intact_new {tasks : List Task} {t : Task} (ht : t.status ≠ .aborted) :
    Intact (tasks ++ [t]) tasks.length := by
  rw [Intact, getElem?_statuses List.getElem?_concat_length]
  exact fun hab => ht (Option.some.inj hab)

/-- What a call has was its own before, or is spawned now. -/
theorem StepR.call_task (hs : StepR cfg s a s') {c : Nat} {y : Call} {h : Handle} (hy : s'.calls[c]? = some y)
    (ht : y.task = some h) :
    (∃ x, s.calls[c]? = some x ∧ x.kind = y.kind ∧ x.task = some h) ∨ (h = s.tasks.length ∧ Intact s'.tasks h) := by
  -- a call that moves on
  have move : ∀ {d x z}, s.calls[d]? = some x → (s.calls.set d z)[c]? = some y → x.kind = z.kind →
      (∀ w, z.task = some w → x.task = some w) → ∃ x, s.calls[c]? = some x ∧ x.kind = y.kind ∧ x.task = some h := by
    intro d x z hx hc hk hsub
    rcases getElem?_set_cases hx hc with ⟨rfl, rfl⟩ | ⟨-, hc⟩
    · exact ⟨x, hx, hk, hsub h ht⟩
    · exact ⟨y, hc, rfl, ht⟩
  have call : ∀ {z : Call}, z.pc = .called → (s.calls ++ [z])[c]? = some y →
      ∃ x, s.calls[c]? = some x ∧ x.kind = y.kind ∧ x.task = some h := by
    intro z hz hc
    rcases getElem?_append_cases hc with ⟨-, rfl⟩ | hc
    · simp [Call.task, hz] at ht
    · exact ⟨y, hc, rfl, ht⟩
  have spawn : ∀ {d x z} {t : Task}, s.calls[d]? = some x → (s.calls.set d z)[c]? = some y →
      z.task = some s.tasks.length → t.status = .running →
      (∃ x, s.calls[c]? = some x ∧ x.kind = y.kind ∧ x.task = some h) ∨
        (h = s.tasks.length ∧ Intact (s.tasks ++ [t]) h) := by
    intro d x z t hx hc hz hrun
    rcases getElem?_set_cases hx hc with ⟨rfl, rfl⟩ | ⟨-, hc⟩
    · rw [hz] at ht; cases ht
      exact .inr ⟨rfl, intact_new (by simp [hrun])⟩
    · exact .inl ⟨y, hc, rfl, ht⟩
  cases hs with
  | toggle => exact .inl (call rfl hy)
  | enable => exact .inl (call rfl hy)
  | bind hx => exact spawn hx hy rfl rfl
  | install hx => exact spawn hx hy rfl rfl
  | lockListening hx | toggleOff hx | toggleGone hx | toggleFail hx | installTwice hx | checkRefused hx
  | publishAddr hx | publishTwice hx | publish hx | cancelCalled hx | cancelSpawned hx =>
    exact .inl (move hx hy rfl (by simp [Call.task]))
  | lockTasks hx hpc | checkAdmitted hx hpc | registerTask hx hpc =>
    exact .inl (move hx hy rfl (by simp [Call.task, hpc]))
  | _ => exact .inl ⟨y, hy, rfl, ht⟩

theorem intact_abort_ne {tasks : List Task} {w h : Handle} (hne : w ≠ h) (hi : Intact tasks h) :
    Intact (abort tasks w) h := by
  rwa [Intact, statuses_abort, TaskStatus.getElem?_abortAt_ne hne]

theorem intact_append {tasks : List Task} {h : Handle} {t : Task} (ht : t.status ≠ .aborted) (hi : Intact tasks h) :
    Intact (tasks ++ [t]) h := by
  rw [Intact, statuses_append]
  intro hab
  rcases getElem?_append_cases hab with ⟨-, hst⟩ | hab
  · exact ht hst.symm
  · exact hi hab

theorem intact_finish {tasks : List Task} {w h : Handle} {t : Task} (hi : Intact tasks h) :
    Intact (tasks.set w { t with status := .finished }) h := by
  simp only [Intact, statuses, List.map_set]
  by_cases hwh : w = h
  · subst hwh
    simp [List.getElem?_set]
  · rw [List.getElem?_set_ne hwh]
    exact hi

theorem intact_abortAll {tasks : List Task} {hs : List Handle} {h : Handle} (hn : h ∉ hs) (hi : Intact tasks h) :
    Intact (abortAll tasks hs) h := by
  rw [Intact, statuses_abortAll, TaskStatus.getElem?_abortEach hn]
  exact hi

/-- A `shut_down` aborts the tasks it has taken: once it has awaited them, or
because it is dropped. -/
inductive AbortsTaken (s : State) : Act → Shut → Prop
  | abortRest {n u} (hu : s.shuts[n]? = some u) (hpc : u.pc = .winding u.tasks.length) :
      AbortsTaken s (.abortRest n) u
  | cancelShut {n u} (hu : s.shuts[n]? = some u) (hpc : u.pc.atAwait = true) : AbortsTaken s (.cancelShut n) u

/-- A handler's task is aborted only with the call that has it, or by the
`shut_down` that took it. -/
theorem StepR.abort_cases (hL : TaskLedgerOK s) (hs : StepR cfg s a s') {kind : NodeTask} {h : Handle}
    (hk : IsTask s.tasks kind h) (hne : kind ≠ .listener) (hi : Intact s.tasks h) :
    Intact s'.tasks h ∨
      (∃ (c : Nat) (x y : Call), s.calls[c]? = some x ∧ x.task = some h ∧ s'.calls = s.calls.set c y ∧
        y.task = none) ∨
      ∃ u, AbortsTaken s a u ∧ h ∈ u.tasks ∧ s'.tasks = abortAll s.tasks u.tasks := by
  -- the listener's task is another one
  have listener : ∀ {w}, s.registry.lookup .listener = some w → Intact (abort s.tasks w) h := by
    intro w hw
    refine intact_abort_ne (fun hwh => ?_) hi
    have := hL.registry .listener w hw
    rw [hwh, IsTask, hk] at this
    exact hne (Option.some.inj this)
  have held : ∀ {c x w y} {P : Prop}, s.calls[c]? = some x → x.task = some w → y.task = none →
      Intact (abort s.tasks w) h ∨ (∃ (c' : Nat) (x' y' : Call), s.calls[c']? = some x' ∧ x'.task = some h ∧
        s.calls.set c y = s.calls.set c' y' ∧ y'.task = none) ∨ P := by
    intro c x w y P hx hw hy
    by_cases hwh : w = h
    · subst hwh
      exact .inr (.inl ⟨c, x, y, hx, hw, rfl, hy⟩)
    · exact .inl (intact_abort_ne hwh hi)
  have taken : ∀ {u} {P : Prop}, AbortsTaken s a u →
      Intact (abortAll s.tasks u.tasks) h ∨ P ∨
        ∃ v, AbortsTaken s a v ∧ h ∈ v.tasks ∧ abortAll s.tasks u.tasks = abortAll s.tasks v.tasks := by
    intro u P hu
    by_cases hm : h ∈ u.tasks
    · exact .inr (.inr ⟨u, hu, hm, rfl⟩)
    · exact .inl (intact_abortAll hm hi)
  cases hs with
  | toggleOff hx hpc hl hr => exact .inl (listener hr)
  | takeTasks =>
    refine .inl ?_
    cases hr : s.registry.lookup .listener with
    | none => exact hi
    | some w => exact listener hr
  | checkRefused hx hpc => exact held hx (by rw [Call.task, hpc]) rfl
  | cancelSpawned hx hpc => exact held hx (by rw [Call.task, hpc]) rfl
  | bind | install => exact .inl (intact_append (by simp) hi)
  | finishTask => exact .inl (intact_finish hi)
  | abortRest hu hpc => exact taken (.abortRest hu hpc)
  | cancelShut hu hpc => exact taken (.cancelShut hu hpc)
  | _ => exact .inl hi

/-- In an orderly run, a handler's task is aborted only with the call that
has it. -/
theorem StepR.intact (hL : TaskLedgerOK s) (hJ : ∀ u ∈ s.shuts, Joined s.tasks u) (ha : a.orderly = true)
    (hs : StepR cfg s a s') {kind : NodeTask} {h : Handle} (hk : IsTask s.tasks kind h) (hne : kind ≠ .listener)
    (hi : Intact s.tasks h) :
    Intact s'.tasks h ∨ ∃ (c : Nat) (x y : Call), s.calls[c]? = some x ∧ x.task = some h ∧
      s'.calls = s.calls.set c y ∧ y.task = none := by
  rcases hs.abort_cases hL hk hne hi with hi' | hlost | ⟨u, hu, -, htasks⟩
  · exact .inl hi'
  · exact .inr hlost
  · cases hu with
    | abortRest hu hpc =>
      -- all of them have been awaited
      have hended : ∀ w ∈ u.tasks, Over s.tasks w := by
        intro w hw
        obtain ⟨j, hj⟩ := List.getElem?_of_mem hw
        exact hJ u (List.mem_of_getElem? hu) _ hpc j w (List.getElem?_eq_some_iff.mp hj).1 hj
      refine .inl ?_
      rwa [Intact, htasks, statuses_abortAll, TaskStatus.abortEach_of_ended hended]
    | cancelShut => cases ha

theorem StepR.orderly (hL : TaskLedgerOK s) (h : Orderly s) (ha : a.orderly = true) (hs : StepR cfg s a s') :
    Orderly s' where
  calls y hy hne w hw := by
    obtain ⟨c, hc⟩ := List.getElem?_of_mem hy
    rcases hs.call_task hc hw with ⟨x, hx, hk, ht⟩ | ⟨-, hi⟩
    · rw [← hk] at hne
      have hxm := List.mem_of_getElem? hx
      rcases hs.intact hL h.joined ha (hL.held x hxm w ht) hne (h.calls x hxm hne w ht) with
        hi | ⟨d, x', y', hx', ht', hcalls, hnone⟩
      · exact hi
      · -- the call that lost the task is this one
        have hcd := hL.unique c d x x' w hx hx' ht ht'
        subst hcd
        rw [hcalls, getElem?_set hx', if_pos rfl] at hc
        cases hc
        rw [hnone] at hw; cases hw
    · exact hi
  joined := by
    have later : ∀ {u}, Joined s.tasks u → Joined s'.tasks u :=
      fun hu i hi j w hj hw => hs.later w (hu i hi j w hj hw)
    have keep : ∀ u ∈ s.shuts, Joined s'.tasks u := fun u hu => later (h.joined u hu)
    cases hs with
    | base =>
      simp only [List.forall_mem_map]
      intro u hu i hi
      have hpc : u.pc = .winding i := by
        rw [← beq_iff_eq] at hi ⊢
        rwa [← Shut.announce_pc (· == .winding i) (fun _ _ => rfl) fun _ _ => rfl]
      simp only [Shut.announce_tasks]
      exact h.joined u hu i hpc
    | shutDown => exact forall_mem_append keep fun i hi => by cases hi
    | @joined n u i w hu hpc hw hn =>
      refine forall_mem_set keep fun i' hi j v hj hv => ?_
      cases hi
      rcases Nat.lt_succ_iff_lt_or_eq.mp hj with hj | rfl
      · exact h.joined u (List.mem_of_getElem? hu) i hpc j v hj hv
      · rw [hw] at hv; cases hv
        obtain ⟨kind, -, hk⟩ := hL.taken u (List.mem_of_getElem? hu) w (List.mem_of_getElem? hw)
        obtain ⟨t, ht⟩ := hk.exists_task
        exact over_iff.mpr ⟨t, ht, hn t ht⟩
    | signalHandlers => exact forall_mem_set keep fun i hi j v hj => by cases hi; cases hj
    | expire => cases ha
    | cancelShut => cases ha
    | begin | takeTasks | snapshot | fannedOut | enableDrain | enableSched | drainEmpty | drainPark | schedEmpty
    | schedPark | wakeDrain | wakeSched | abortRest | clear => exact forall_mem_set keep fun i hi => by cases hi
    | _ => exact keep

/-! ## Handlers that are published -/

/-- `h` is the task of a handler whose call is over: no other call has it,
and it was not aborted. -/
structure Wired (s : State) (kind : NodeTask) (h : Handle) : Prop where
  isTask : IsTask s.tasks kind h
  unheld : ∀ x ∈ s.calls, x.task ≠ some h
  intact : Intact s.tasks h

/-- A task that no call has stays with none. -/
theorem StepR.unheld (hs : StepR cfg s a s') {kind : NodeTask} {h : Handle} (hk : IsTask s.tasks kind h)
    (hu : ∀ x ∈ s.calls, x.task ≠ some h) : ∀ y ∈ s'.calls, y.task ≠ some h := by
  intro y hy ht
  obtain ⟨c, hc⟩ := List.getElem?_of_mem hy
  rcases hs.call_task hc ht with ⟨x, hx, -, hxt⟩ | ⟨rfl, -⟩
  · exact hu x (List.mem_of_getElem? hx) hxt
  · exact absurd hk.lt (Nat.lt_irrefl _)

theorem StepR.publish_tasks {c : Nat} (hs : StepR cfg s (.publish c) s') : s'.tasks = s.tasks := by
  cases hs <;> rfl

/-- A call that publishes its handler lets go of the handler's task. -/
theorem StepR.publish_unheld (hL : TaskLedgerOK s) {c : Nat} {x : Call} {h : Handle}
    (hs : StepR cfg s (.publish c) s') (hx : s.calls[c]? = some x) (hpc : x.pc = .registered h) :
    ∀ y ∈ s'.calls, y.task ≠ some h := by
  have ht : x.task = some h := by rw [Call.task, hpc]
  have hfree : ∀ y ∈ s.calls.set c { x with pc := .done }, y.task ≠ some h := by
    intro y hy hty
    obtain ⟨d, hd⟩ := List.getElem?_of_mem hy
    rcases getElem?_set_cases hx hd with ⟨-, rfl⟩ | ⟨hcd, hd⟩
    · cases hty
    · exact hcd (hL.unique c d x y h hx hd ht hty)
  cases hs with
  | publishAddr hx' | publishTwice hx' | publish hx' =>
    rw [hx] at hx'; cases hx'
    exact hfree

theorem StepR.wired (hL : TaskLedgerOK s) (hO : Orderly s) (ha : a.orderly = true) (hs : StepR cfg s a s')
    {kind : NodeTask} {h : Handle} (hne : kind ≠ .listener) (hW : Wired s kind h) : Wired s' kind h where
  isTask := hs.grows _ _ hW.isTask
  unheld := hs.unheld hW.isTask hW.unheld
  intact := by
    rcases hs.intact hL hO.joined ha hW.isTask hne hW.intact with hi | ⟨c, x, -, hx, ht, -⟩
    · exact hi
    · exact absurd ht (hW.unheld x (List.mem_of_getElem? hx))

/-- A call publishes its handler, and is over. -/
theorem StepR.publish_wired (hL : TaskLedgerOK s) (hO : Orderly s) {c : Nat} {x : Call} {h : Handle}
    (hs : StepR cfg s (.publish c) s') (hx : s.calls[c]? = some x) (hpc : x.pc = .registered h)
    (hne : x.kind ≠ .listener) : Wired s' x.kind h := by
  have hxm := List.mem_of_getElem? hx
  have ht : x.task = some h := by rw [Call.task, hpc]
  refine ⟨hs.grows _ _ (hL.held x hxm h ht), hs.publish_unheld hL hx hpc, ?_⟩
  rw [hs.publish_tasks]
  exact hO.calls x hxm hne h ht

end Pea2Pea.Shutdown
