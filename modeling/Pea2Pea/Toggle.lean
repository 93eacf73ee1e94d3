/-
`toggle_listener`: the listening address and the registered listener task,
which live under different locks.

A toggle has `listening_addr` locked from its first look at it to its end, so
both are one toggle's business at a time; only a `shut_down` takes the task
away under it. From the spawn of a listener to the publication of its address
there is no address; a toggle that fails before the registration has touched
neither.
-/
import Pea2Pea.NodeTasks
import Pea2Pea.ShutdownFinal

namespace Pea2Pea.Shutdown

open Pool Tasks

theorem Call.inside_of_task {x : Call} {h : Handle} (hk : x.kind = .listener) (ht : x.task = some h) :
    x.inside = true := by
  unfold Call.task at ht
  cases hpc : x.pc <;> simp_all [Call.inside]

theorem Call.inside_of_registered {x : Call} {h : Handle} (hk : x.kind = .listener) (hpc : x.pc = .registered h) :
    x.inside = true := by
  simp [Call.inside, hk, hpc]

/-! ## The address and the task -/

/-- The listening address and the registered listener, over the parts of the
state they depend on. -/
structure Listener (isTaken : Bool) (registry : Table NodeTask Handle) (listening : Option SocketAddr)
    (tasks : List Task) (calls : List Call) : Prop where
  on : listening ≠ none → isTaken = true ∨ registry.lookup .listener ≠ none
  off : ∀ h, registry.lookup .listener = some h →
    listening ≠ none ∨ ∃ x ∈ calls, x.kind = .listener ∧ x.pc = .registered h
  busy : ∀ x ∈ calls, x.kind = .listener → x.task ≠ none → listening = none ∧ x.bound ≠ none
  mine : ∀ x ∈ calls, x.kind = .listener → ∀ h, x.pc = .registered h →
    isTaken = true ∨ registry.lookup .listener = some h
  guarded : ∀ x ∈ calls, x.kind = .listener → ∀ h, x.guard = some h → Intact tasks h
  intact : ∀ h, registry.lookup .listener = some h → Intact tasks h

namespace Listener

variable {K : Bool} {G : Table NodeTask Handle} {A : Option SocketAddr} {T T' : List Task} {C : List Call} {c : Nat}
  {x y : Call}

/-- A call moves on that is no toggle which has registered its task, and
does not become one. -/
theorem goto (h : Listener K G A T C) (hx : C[c]? = some x) (hr : x.kind = .listener → ∀ w, x.pc ≠ .registered w)
    (hb : y.kind = .listener → y.task ≠ none → A = none ∧ y.bound ≠ none)
    (hn : y.kind = .listener → ∀ w, y.pc ≠ .registered w)
    (hg : y.kind = .listener → ∀ w, y.guard = some w → Intact T w) : Listener K G A T (C.set c y) where
  on := h.on
  off w hw := (h.off w hw).imp_right fun hex => exists_mem_set hex hx fun hp => absurd hp.2 (hr hp.1 w)
  busy := forall_mem_set h.busy hb
  mine := forall_mem_set h.mine fun hk w hpc => absurd hpc (hn hk w)
  guarded := forall_mem_set h.guarded hg
  intact := h.intact

/-- A call is over that had not registered a task. -/
theorem done (h : Listener K G A T C) (hx : C[c]? = some x) (hr : x.kind = .listener → ∀ w, x.pc ≠ .registered w)
    (hy : y.pc = .done) : Listener K G A T (C.set c y) :=
  h.goto hx hr (by simp [Call.task, hy]) (by simp [hy]) (by simp [Call.guard, hy])

theorem call (h : Listener K G A T C) (hy : y.pc = .called) : Listener K G A T (C ++ [y]) where
  on := h.on
  off w hw := (h.off w hw).imp_right fun ⟨z, hz, hp⟩ => ⟨z, List.mem_append_left _ hz, hp⟩
  busy := forall_mem_append h.busy (by simp [Call.task, hy])
  mine := forall_mem_append h.mine (by simp [hy])
  guarded := forall_mem_append h.guarded (by simp [Call.guard, hy])
  intact := h.intact

/-- Tasks change, but none of those is aborted. -/
theorem tasks (h : Listener K G A T C) (hg : ∀ x ∈ C, x.kind = .listener → ∀ w, x.guard = some w → Intact T' w)
    (hi : ∀ w, G.lookup .listener = some w → Intact T' w) : Listener K G A T' C :=
  { h with guarded := hg, intact := hi }

theorem spawn {t : Task} (h : Listener K G A T C) (ht : t.status ≠ .aborted) : Listener K G A (T ++ [t]) C :=
  h.tasks (fun x hx hk w hw => intact_append ht (h.guarded x hx hk w hw)) fun w hw => intact_append ht (h.intact w hw)

/-- Another protocol's task is registered. -/
theorem registry {G' : Table NodeTask Handle} (h : Listener K G A T C)
    (hG : G'.lookup .listener = G.lookup .listener) : Listener K G' A T C :=
  { h with
    on := by rw [hG]; exact h.on
    off := by rw [hG]; exact h.off
    mine := by rw [hG]; exact h.mine
    intact := by rw [hG]; exact h.intact }

/-- With no toggle inside, what is registered is what listens. -/
theorem of_outside (hout : ∀ x ∈ C, x.inside = false) (hon : A ≠ none → K = true ∨ G.lookup .listener ≠ none)
    (hoff : ∀ w, G.lookup .listener = some w → A ≠ none ∧ Intact T w) : Listener K G A T C := by
  have noTask : ∀ x ∈ C, x.kind = .listener → ∀ w, x.task ≠ some w := by
    intro x hx hk w hw
    cases (hout x hx).symm.trans (Call.inside_of_task hk hw)
  exact
    { on := hon
      off := fun w hw => .inl (hoff w hw).1
      busy := fun x hx hk ht => by
        obtain ⟨w, hw⟩ := Option.ne_none_iff_exists'.mp ht
        exact absurd hw (noTask x hx hk w)
      mine := fun x hx hk w hw => by
        cases (hout x hx).symm.trans (Call.inside_of_registered hk hw)
      guarded := fun x hx hk w hw => absurd (Call.task_of_guard hw) (noTask x hx hk w)
      intact := fun w hw => (hoff w hw).2 }

end Listener

abbrev ListenerOK (s : State) : Prop := Listener s.taken s.registry s.listening s.tasks s.calls

variable {cfg : NodeConfig} {s s' : State} {a : Act} {c : Nat}

/-- While a toggle has a task to register, none is registered. -/
theorem ListenerOK.unregistered (h : ListenerOK s) (hR : RegistryOK s) {x : Call} {w : Handle}
    (hx : s.calls[c]? = some x) (hk : x.kind = .listener) (hg : x.guard = some w) :
    s.registry.lookup .listener = none := by
  cases hl : s.registry.lookup .listener with
  | none => rfl
  | some v =>
    have ht := Call.task_of_guard hg
    rcases h.off v hl with hon | ⟨y, hy, hyk, hpc⟩
    · exact absurd (h.busy x (List.mem_of_getElem? hx) hk (by simp [ht])).1 hon
    · obtain ⟨d, hd⟩ := List.getElem?_of_mem hy
      have hcd := hR.listen.unique hx (Call.inside_of_task hk ht) hd (Call.inside_of_registered hyk hpc)
      subst hcd
      rw [hx] at hd; cases hd
      simp [Call.guard, hpc] at hg

/-- A `shut_down` winds down no listener. -/
theorem TaskLedgerOK.not_wound (hL : TaskLedgerOK s) {u : Shut} (hu : u ∈ s.shuts) {w : Handle}
    (hw : IsTask s.tasks .listener w) : w ∉ u.tasks := by
  intro hm
  obtain ⟨kind, hne, hk⟩ := hL.taken u hu w hm
  rw [IsTask, hw] at hk
  exact hne (Option.some.inj hk).symm

/-- The toggle that leaves was the only one inside. -/
theorem RegistryOK.leave (hR : RegistryOK s) {x y : Call} (hx : s.calls[c]? = some x) (hin : x.inside = true)
    (hy : y.inside = false) : ∀ z ∈ s.calls.set c y, z.inside = false := by
  have hfree : Holds Call.inside (s.calls.set c y) none := hR.listen.release hx hin hy
  exact fun z hz => hfree.outside hz

namespace ListenerOK

variable {x : Call} {w : Handle}

/-- A call goes on with the task it has not registered. -/
theorem advance {pc : CallPc} (h : ListenerOK s) (hx : s.calls[c]? = some x) (hg : x.guard = some w)
    (hp : Call.guard { x with pc := pc } = some w) :
    Listener s.taken s.registry s.listening s.tasks (s.calls.set c { x with pc := pc }) := by
  have hxm := List.mem_of_getElem? hx
  refine h.goto hx (fun _ v hv => by simp [Call.guard, hv] at hg) (fun hk _ => ?_) (fun _ v hv => ?_) fun hk v hv => ?_
  · exact h.busy x hxm hk (by simp [Call.task_of_guard hg])
  · simp only at hv
    simp [Call.guard, hv] at hp
  · rw [hp] at hv; cases hv
    exact h.guarded x hxm hk w hg

/-- A call drops it. -/
theorem dropTask (hR : RegistryOK s) (hL : TaskLedgerOK s) (h : ListenerOK s) (hx : s.calls[c]? = some x)
    (hg : x.guard = some w) :
    Listener s.taken s.registry s.listening (abort s.tasks w) (s.calls.set c { x with pc := .done }) := by
  have hxm := List.mem_of_getElem? hx
  have hdone := h.done (y := { x with pc := .done }) hx (fun _ v hv => by simp [Call.guard, hv] at hg) rfl
  refine hdone.tasks (fun y hy hk v hv => ?_) fun v hv => ?_
  · refine intact_abort_ne (fun hwv => ?_) (hdone.guarded y hy hk v hv)
    obtain ⟨d, hd⟩ := List.getElem?_of_mem hy
    rcases getElem?_set_cases hx hd with ⟨-, rfl⟩ | ⟨hcd, hd⟩
    · simp [Call.guard] at hv
    · subst hwv
      exact hcd (hL.unique c d x y w hx hd (Call.task_of_guard hg) (Call.task_of_guard hv))
  · refine intact_abort_ne (fun hwv => ?_) (h.intact v hv)
    subst hwv
    -- a task is of one kind, and a toggle's is not registered
    have hkind := hL.held x hxm w (Call.task_of_guard hg)
    have hlist := hL.registry .listener w hv
    rw [IsTask, hkind] at hlist
    rw [h.unregistered hR hx (Option.some.inj hlist) hg] at hv
    cases hv

/-- A toggle registers its task, and nothing else is registered. -/
theorem register (hR : RegistryOK s) (h : ListenerOK s) (hx : s.calls[c]? = some x) (hpc : x.pc = .admitted w)
    (hk : x.kind = .listener) : Listener s.taken (s.registry.insert .listener w) s.listening s.tasks
      (s.calls.set c { x with pc := .registered w }) := by
  have hxm := List.mem_of_getElem? hx
  have hg : x.guard = some w := by rw [Call.guard, hpc]
  have hbusy := h.busy x hxm hk (by simp [Call.task, hpc])
  have hnew : (s.registry.insert .listener w).lookup .listener = some w := by
    rw [Table.lookup_insert, if_pos rfl]
  refine
    { on := fun hon => absurd hbusy.1 hon
      off := fun v hv => .inr ⟨_, mem_set_self hx _, hk, ?_⟩
      busy := forall_mem_set h.busy fun _ _ => hbusy
      mine := fun y hy hyk v hv => ?_
      guarded := forall_mem_set h.guarded fun _ v hv => by simp [Call.guard] at hv
      intact := fun v hv => ?_ }
  · rw [hnew] at hv; cases hv
    rfl
  · obtain ⟨d, hd⟩ := List.getElem?_of_mem hy
    rcases getElem?_set_cases hx hd with ⟨-, rfl⟩ | ⟨hcd, hd⟩
    · cases hv
      exact .inr hnew
    · -- no other toggle is inside
      exact absurd (hR.listen.unique hx (Call.inside_of_task hk (Call.task_of_guard hg)) hd
        (Call.inside_of_registered hyk hv)) hcd
  · rw [hnew] at hv; cases hv
    exact h.guarded x hxm hk w hg

/-- A `shut_down` aborts what it winds down. -/
theorem abortAll {u : Shut} (hL : TaskLedgerOK s) (h : ListenerOK s) (hu : u ∈ s.shuts) :
    Listener s.taken s.registry s.listening (abortAll s.tasks u.tasks) s.calls := by
  refine h.tasks (fun y hy hk v hv => ?_) fun v hv => ?_
  · have hv' : IsTask s.tasks .listener v := by rw [← hk]; exact hL.held y hy v (Call.task_of_guard hv)
    exact intact_abortAll (hL.not_wound hu hv') (h.guarded y hy hk v hv)
  · exact intact_abortAll (hL.not_wound hu (hL.registry .listener v hv)) (h.intact v hv)

end ListenerOK

theorem StepR.listenerOK (hR : RegistryOK s) (hS : ShutsOK s) (hL : TaskLedgerOK s) (h : ListenerOK s)
    (hs : StepR cfg s a s') : ListenerOK s' := by
  cases hs with
  | toggle => exact h.call rfl
  | enable => exact h.call rfl
  | lockListening hx hk hpc => exact h.goto hx (by simp [hpc]) (by simp [Call.task]) (by simp) (by simp [Call.guard])
  | @toggleOff c x w hx hpc hl hr =>
    have hk := hR.holder x (List.mem_of_getElem? hx) hpc
    have out := hR.leave (y := { x with pc := .done }) hx (by simp [Call.inside, hk, hpc]) (by simp [Call.inside])
    refine .of_outside out (by simp) fun v hv => ?_
    rw [Table.lookup_erase, if_pos rfl] at hv
    cases hv
  | toggleGone hx hpc | toggleFail hx hpc => exact h.done hx (by simp [hpc]) rfl
  | @bind c x addr port hx ha hpc hn =>
    refine (h.spawn (t := ⟨.listener, .running⟩) (by simp)).goto hx (by simp [hpc]) (by simp [hn]) (by simp) ?_
    intro _ w hw
    cases hw
    exact intact_new (by simp)
  | installTwice hx hk => exact h.done hx (fun hl => absurd hl hk) rfl
  | @install c x hx hk =>
    have hno : ¬ x.kind = .listener := hk
    exact (h.spawn (t := ⟨x.kind, .running⟩) (by simp)).goto hx (by simp [hno]) (by simp [hno]) (by simp [hno])
      (by simp [hno])
  | lockTasks hx hpc | checkAdmitted hx hpc => exact h.advance hx (by rw [Call.guard, hpc]) (by rw [Call.guard])
  | checkRefused hx hpc | cancelSpawned hx hpc => exact h.dropTask hR hL hx (by rw [Call.guard, hpc])
  | @registerTask c x w hx hpc =>
    by_cases hk : x.kind = .listener
    · rw [hk]
      exact h.register hR hx hpc hk
    · have hsame : (s.registry.insert x.kind w).lookup .listener = s.registry.lookup .listener := by
        rw [Table.lookup_insert, if_neg (fun heq => hk heq.symm)]
      have hno : ¬ x.kind = .listener := hk
      have hmove := h.goto (y := { x with pc := .registered w }) hx (by simp [hno]) (by simp [hno]) (by simp [hno])
        (by simp [hno])
      exact hmove.registry hsame
  | @publishAddr c x w hx hpc hk =>
    have hxm := List.mem_of_getElem? hx
    have out := hR.leave (y := { x with pc := .done }) hx (Call.inside_of_registered hk hpc) (by simp [Call.inside])
    refine .of_outside out (fun _ => ?_) fun v hv => ?_
    · exact (h.mine x hxm hk w hpc).imp_right fun hl hnone => by cases hl.symm.trans hnone
    · exact ⟨(h.busy x hxm hk (by simp [Call.task, hpc])).2, h.intact v hv⟩
  | publishTwice hx hpc hk => exact h.done hx (fun hl => absurd hl hk) rfl
  | publish hx hpc hk => exact h.done hx (fun hl => absurd hl hk) rfl
  | cancelCalled hx hpc => exact h.done hx (by simp [hpc]) rfl
  | finishTask ht =>
    exact h.tasks (fun y hy hk v hv => intact_finish (h.guarded y hy hk v hv)) fun v hv => intact_finish (h.intact v hv)
  | takeTasks hu hpc hl =>
    refine
      { on := fun _ => .inl rfl
        off := by simp
        busy := h.busy
        mine := fun _ _ _ _ _ => .inl rfl
        guarded := fun y hy hk v hv => ?_
        intact := by simp }
    obtain ⟨d, hd⟩ := List.getElem?_of_mem hy
    rw [h.unregistered hR hd hk hv]
    exact h.guarded y hy hk v hv
  | clear hu hpc =>
    have hempty := (hR.taken (hS.taken _ (List.mem_of_getElem? hu) (by rw [hpc]; rfl))).2.1
    have hnone : s.registry.lookup .listener = none := by simp [hempty]
    exact
      { h with
        on := by simp
        off := fun v hv => by cases hnone.symm.trans hv
        busy := fun y hy hk ht => ⟨rfl, (h.busy y hy hk ht).2⟩ }
  | abortRest hu | cancelShut hu => exact h.abortAll hL (List.mem_of_getElem? hu)
  | base | shutDown | begin | snapshot | fannedOut | enableDrain | enableSched | drainEmpty | drainPark | schedEmpty
  | schedPark | wakeDrain | wakeSched | signalHandlers | joined | expire => exact h

theorem listenerOK_reachable (h : (shutdown cfg).Reachable s) : ListenerOK s := by
  refine h.invariant ?_ fun hr ho _ hs =>
    (step_sound hs).listenerOK (registryOK_reachable hr) (shutsOK_reachable hr) (taskLedgerOK_reachable hr) ho
  constructor <;> simp [shutdown, State.init]

/-- A running listener is registered, or with its toggle. -/
theorem listeners_owned (h : (shutdown cfg).Reachable s) : TasksOwned .listener s := by
  refine h.invariant (by simp [TasksOwned, shutdown, State.init]) fun hr ho _ hs => ?_
  refine (step_sound hs).tasksOwned (taskLedgerOK_reachable hr) (fun x hx w hk hpc => ?_) ho
  obtain ⟨c, hc⟩ := List.getElem?_of_mem hx
  exact (listenerOK_reachable hr).unregistered (registryOK_reachable hr) hc hk (by rw [Call.guard, hpc])

/-! ## A toggle that fails -/

/-- The toggle `c` has the lock, and has not registered a task. -/
def Undecided (s : State) (c : Nat) : Prop :=
  ∃ x, s.calls[c]? = some x ∧ x.kind = .listener ∧ (x.pc = .holding ∨ x.guard ≠ none)

/-- The toggle `c` has registered its task, or is over. -/
def Decided (s : State) (c : Nat) : Prop :=
  ∃ x, s.calls[c]? = some x ∧ x.kind = .listener ∧ (x.pc = .done ∨ ∃ h, x.pc = .registered h)

/-- The address and the registered listener are the same in `s'` as in `s`,
but for a listener that a `shut_down` has taken in between. -/
structure Same (s s' : State) : Prop where
  addr : s'.listening = s.listening
  task : (s'.taken = s.taken ∧ s'.registry.lookup .listener = s.registry.lookup .listener) ∨
    (s.taken = false ∧ s'.taken = true ∧ s'.registry.lookup .listener = none)

theorem Same.trans {s₁ s₂ s₃ : State} (h : Same s₁ s₂) (h' : Same s₂ s₃) : Same s₁ s₃ where
  addr := h'.addr.trans h.addr
  task := by
    rcases h.task with ⟨ht, hl⟩ | ⟨h₁, h₂, hl⟩
    · rcases h'.task with ⟨ht', hl'⟩ | ⟨h₁', h₂', hl'⟩
      · exact .inl ⟨ht'.trans ht, hl'.trans hl⟩
      · exact .inr ⟨ht.symm.trans h₁', h₂', hl'⟩
    · rcases h'.task with ⟨ht', hl'⟩ | ⟨h₁', -, -⟩
      · exact .inr ⟨h₁, ht'.trans h₂, hl'.trans hl⟩
      · rw [h₂] at h₁'; cases h₁'

theorem Undecided.inside (h : Undecided s c) : ∃ x, s.calls[c]? = some x ∧ x.inside = true := by
  obtain ⟨x, hx, hk, hpc⟩ := h
  refine ⟨x, hx, ?_⟩
  rcases hpc with hpc | hg
  · simp [Call.inside, hk, hpc]
  · obtain ⟨w, hw⟩ := Option.ne_none_iff_exists'.mp hg
    exact Call.inside_of_task hk (Call.task_of_guard hw)

/-- An undecided toggle that is going to be over by a failure, or dropped. -/
def fails (s : State) (c : Nat) : Act → Bool
  | .toggleFail d | .cancelCall d => d = c
  | .toggleOff d => d = c ∧ s.registry.lookup .listener = none
  | .checkFlag d => d = c ∧ s.base.flag
  | _ => false

/-- While a toggle is undecided, the address and the listener are left alone
but for its own success. -/
theorem StepR.same (hR : RegistryOK s) (hu : Undecided s c) (hs : StepR cfg s a s') :
    Same s s' ∨ (fails s c a = false ∧ Decided s' c) := by
  obtain ⟨y, hy, hin⟩ := hu.inside
  cases hs with
  | @toggleOff d x w hx hpc hl hr =>
    have hk := hR.holder x (List.mem_of_getElem? hx) hpc
    have hcd := hR.listen.unique hy hin hx (by simp [Call.inside, hk, hpc])
    subst hcd
    refine .inr ⟨by simp [fails, hr], { x with pc := .done }, ?_, hk, .inl rfl⟩
    rw [State.callGoto, getElem?_set hx, if_pos rfl]
  | @registerTask d x w hx hpc =>
    by_cases hk : x.kind = .listener
    · have hcd := hR.listen.unique hy hin hx (Call.inside_of_task hk (by rw [Call.task, hpc]))
      subst hcd
      refine .inr ⟨rfl, { x with pc := .registered w }, ?_, hk, .inr ⟨w, rfl⟩⟩
      rw [State.callGoto, getElem?_set hx, if_pos rfl]
    · refine .inl ⟨rfl, .inl ⟨rfl, ?_⟩⟩
      rw [Table.lookup_insert, if_neg fun heq => hk heq.symm]
  | publishAddr hx hpc hk =>
    have hcd := hR.listen.unique hy hin hx (Call.inside_of_registered hk hpc)
    subst hcd
    obtain ⟨z, hz, -, hzp⟩ := hu
    rw [hx] at hz; cases hz
    simp [Call.guard, hpc] at hzp
  | takeTasks =>
    refine .inl ⟨rfl, ?_⟩
    cases ht : s.taken with
    | true => exact .inl ⟨rfl, by simp [(hR.taken ht).2.1]⟩
    | false => exact .inr ⟨rfl, rfl, by simp⟩
  | clear hu hpc hl =>
    have hlock := hR.listen c y hy hin
    rw [hl] at hlock; cases hlock
  | _ => exact .inl ⟨rfl, .inl ⟨rfl, rfl⟩⟩

theorem StepR.undecided (hs : StepR cfg s a s') (h : Undecided s c) : Undecided s' c ∨ Decided s' c := by
  obtain ⟨x, hx, hk, hpc⟩ := h
  obtain ⟨y, hy, hyk, hmove⟩ := hs.call_move hx
  rw [← hyk] at hk
  rcases hmove with heq | hm
  · refine .inl ⟨y, hy, hk, ?_⟩
    rwa [heq, show y.guard = x.guard by rw [Call.guard, Call.guard, heq]]
  · generalize hp : x.pc = p at hm
    generalize hq : y.pc = q at hm
    cases hm with
    | toggleOff | toggleFail | refused | cancelSpawned | publish => exact .inr ⟨y, hy, hk, .inl hq⟩
    | registerTask => exact .inr ⟨y, hy, hk, .inr ⟨_, hq⟩⟩
    | bind | lockTasks | admitted => exact .inl ⟨y, hy, hk, .inr (by simp [Call.guard, hq])⟩
    | lockListening | installTwice | install | cancelCalled => simp [Call.guard, hp] at hpc

theorem StepR.decided (hs : StepR cfg s a s') (h : Decided s c) : Decided s' c := by
  obtain ⟨x, hx, hk, hpc⟩ := h
  obtain ⟨y, hy, hyk, hmove⟩ := hs.call_move hx
  rw [← hyk] at hk
  rcases hmove with heq | hm
  · exact ⟨y, hy, hk, by rwa [heq]⟩
  · generalize hp : x.pc = p at hm
    generalize hq : y.pc = q at hm
    cases hm with
    | publish => exact ⟨y, hy, hk, .inl hq⟩
    | _ => simp [hp] at hpc

theorem StepR.not_decided (hs : StepR cfg s a s') (hf : fails s c a = true) : ¬ Decided s c := by
  rintro ⟨y, hy, -, hpc⟩
  have clash : ∀ {d x}, s.calls[d]? = some x → d = c → x.pc = .done ∨ ∃ h, x.pc = .registered h := by
    rintro d x hx rfl
    rw [hy] at hx; cases hx
    exact hpc
  cases hs with
  | toggleFail hx hp | toggleOff hx hp | toggleGone hx hp | checkRefused hx hp | checkAdmitted hx hp
  | cancelCalled hx hp | cancelSpawned hx hp =>
    have := clash hx (by simp [fails] at hf; first | exact hf | exact hf.1)
    simp [hp] at this
  | _ => cases hf

/-- From the lock on, the address and the listener are as they were, until
the toggle is decided. -/
theorem same_run {s₁ : State} {as : List Act} (h : (shutdown cfg).Reachable s)
    (hl : step cfg s (.lockListening c) = some s₁) (hr : (shutdown cfg).run s₁ as = some s') :
    Decided s' c ∨ (Undecided s' c ∧ Same s s') := by
  suffices hinv : (shutdown cfg).Reachable s' ∧ (Decided s' c ∨ (Undecided s' c ∧ Same s s')) from hinv.2
  refine Machine.run_invariant (M := shutdown cfg)
    (P := fun t => (shutdown cfg).Reachable t ∧ (Decided t c ∨ (Undecided t c ∧ Same s t))) ?_ ?_ hr
  · intro t t' a ⟨ht, hcase⟩ hs
    refine ⟨.step ht trivial hs, ?_⟩
    have hstep := step_sound hs
    rcases hcase with hd | ⟨hu, hsame⟩
    · exact .inl (hstep.decided hd)
    · rcases hstep.same (registryOK_reachable ht) hu with hs' | ⟨-, hd⟩
      · exact (hstep.undecided hu).symm.imp_right fun hu' => ⟨hu', hsame.trans hs'⟩
      · exact .inl hd
  · refine ⟨h.run (shutdown_run hl), .inr ?_⟩
    cases step_sound hl with
    | @lockListening _ x hx hk =>
      refine ⟨⟨{ x with pc := .holding }, ?_, hk, .inl rfl⟩, rfl, .inl ⟨rfl, rfl⟩⟩
      rw [State.callGoto, getElem?_set hx, if_pos rfl]

/-! ## Over whole runs -/

/-- The registered listener, unless it was aborted. -/
def State.listener (s : State) : Option Handle :=
  (s.registry.lookup .listener).filter fun h => (statuses s.tasks)[h]? ≠ some .aborted

theorem ListenerOK.listener_eq (h : ListenerOK s) : s.listener = s.registry.lookup .listener := by
  unfold State.listener
  cases hl : s.registry.lookup .listener with
  | none => rfl
  | some w =>
    have := h.intact w hl
    simpa [Option.filter, Intact] using this

/-- Outside of toggles and shutdowns, a node has an address if and only if it
has a registered listener that is not aborted, and no other one runs. A
toggle that fails or is dropped leaves both as they were before it took the
lock, but for a listener that a `shut_down` took meanwhile. -/
theorem toggle_atomic (cfg : NodeConfig) (s : State) (h : (shutdown cfg).Reachable s) :
    (s.listenLock = none → s.base.flag = false →
      (s.listening ≠ none ↔ ∃ w, s.listener = some w) ∧
      ∀ (w : Nat) t, s.tasks[w]? = some t → t.kind = .listener → t.status = .running → s.listener = some w) ∧
    ∀ c s₁ as s₂ a s₃, step cfg s (.lockListening c) = some s₁ → (shutdown cfg).run s₁ as = some s₂ →
      fails s₂ c a = true → step cfg s₂ a = some s₃ →
      s₃.listening = s.listening ∧
        (s₃.listener = s.listener ∨ (s.taken = false ∧ s₃.taken = true ∧ s₃.listener = none)) := by
  have hR := registryOK_reachable h
  have hI := listenerOK_reachable h
  refine ⟨fun hl hf => ?_, fun c s₁ as s₂ a s₃ hlock hrun hfail hs => ?_⟩
  · have hfree := hR.listen
    rw [hl] at hfree
    have htaken : s.taken ≠ true := fun ht => by
      have := (hR.taken ht).1
      rw [hf] at this; cases this
    rw [hI.listener_eq]
    refine ⟨⟨fun hon => ?_, fun ⟨w, hw⟩ => ?_⟩, fun w t ht hk hr => ?_⟩
    · exact Option.ne_none_iff_exists'.mp ((hI.on hon).resolve_left htaken)
    · refine (hI.off w hw).resolve_right fun ⟨x, hx, hk, hpc⟩ => ?_
      have := hfree.outside hx
      rw [Call.inside_of_registered hk hpc] at this; cases this
    · rcases listeners_owned h w t ht hk hr with ⟨x, hx, hg⟩ | hw | ⟨u, hu, -, hm⟩
      · -- its toggle would have the lock
        have hL := taskLedgerOK_reachable h
        have hkind := hL.held x hx w (Call.task_of_guard hg)
        have hxk : x.kind = .listener := by
          rw [← hk]
          exact Option.some.inj (hkind.symm.trans (isTask_of_task ht))
        have := hfree.outside hx
        rw [Call.inside_of_task hxk (Call.task_of_guard hg)] at this; cases this
      · exact hw
      · exact absurd hm ((taskLedgerOK_reachable h).not_wound hu (hk ▸ isTask_of_task ht))
  · have hr₁ : (shutdown cfg).Reachable s₁ := h.run (shutdown_run hlock)
    have hr₂ := hr₁.run hrun
    have hr₃ : (shutdown cfg).Reachable s₃ := hr₂.run (shutdown_run hs)
    have hstep := step_sound hs
    rcases same_run h hlock hrun with hd | ⟨hu, hsame⟩
    · exact absurd hd (hstep.not_decided hfail)
    · rcases hstep.same (registryOK_reachable hr₂) hu with hs' | ⟨hno, -⟩
      · have hall := hsame.trans hs'
        rw [(listenerOK_reachable hr₃).listener_eq, hI.listener_eq]
        exact ⟨hall.addr, hall.task.imp_left And.right⟩
      · rw [hfail] at hno; cases hno

/-- A listener is on, and a toggle to switch it off is called. -/
def listenerOn : List Act :=
  [.toggle, .lockListening 0, .bind 0 4130#16, .lockTasks 0, .checkFlag 0, .registerTask 0, .publish 0, .toggle]

/-- The toggle takes the lock, a `shut_down` takes the listener, and the
toggle returns its error. -/
theorem toggle_atomic_shutListener : ∃ s s₁ s₂ s₃, (shutdown listeningSlots).Reachable s ∧ s.listening.isSome ∧
    step listeningSlots s (.lockListening 1) = some s₁ ∧
    (shutdown listeningSlots).run s₁ [.shutDown, .begin 0, .takeTasks 0] = some s₂ ∧
    step listeningSlots s₂ (.toggleOff 1) = some s₃ ∧ s₃.listening = s.listening ∧ s₃.listener = none := by
  obtain ⟨s, hs, hp⟩ := (shutdown listeningSlots).exists_reachable listenerOn
    (fun s => s.listening.isSome ∧ ∃ s₁ ∈ step listeningSlots s (.lockListening 1),
      ∃ s₂ ∈ (shutdown listeningSlots).run s₁ [.shutDown, .begin 0, .takeTasks 0],
      fails s₂ 1 (.toggleOff 1) ∧ ∃ s₃ ∈ step listeningSlots s₂ (.toggleOff 1), s₃.listener = none)
    (by decide +kernel)
  obtain ⟨hon, s₁, h₁, s₂, h₂, hf, s₃, h₃, hnone⟩ := of_decide_eq_true hp
  have hsame := (toggle_atomic listeningSlots s hs).2 1 s₁ _ s₂ _ s₃ h₁ h₂ hf h₃
  exact ⟨s, s₁, s₂, s₃, hs, hon, h₁, h₂, h₃, hsame.1, hnone⟩

end Pea2Pea.Shutdown
