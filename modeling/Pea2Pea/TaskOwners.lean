/-
No node task escapes: while no protocol is enabled twice at a time, a task
that runs has exactly one owner, and none runs once the node is shut down and
the calls are over.

The owner is the `UnregisteredTask` of the call that spawned the task (or the
`register_task` the call has passed it to), the task registry, or a guard of
the `shut_down` that took the registry.
-/
import Pea2Pea.Toggle

namespace Pea2Pea.Shutdown

open Pool

/-- An `enable_*` that spawns its task is the only one of its protocol that
has one. -/
def alone (s : State) : Act → Bool
  | .install c => (s.calls[c]?).all fun x => s.calls.all fun y => y.kind = x.kind → y.task = none
  | _ => true

variable {cfg : NodeConfig} {s s' : State} {a : Act}

/-! ## One owner at most -/

/-- The call has taken tasks. -/
def Shut.took (u : Shut) : Option Unit := if u.tasks = [] then none else some ()

/-- A task is with a call, in the registry or with a `shut_down`, and only
one of these has taken any. -/
structure Apart (isTaken : Bool) (registry : Table NodeTask Handle) (calls : List Call) (shuts : List Shut) : Prop where
  registry : ∀ x ∈ calls, ∀ h, x.guard = some h → ∀ kind, registry.lookup kind ≠ some h
  shut : ∀ x ∈ calls, ∀ h, x.guard = some h → ∀ u ∈ shuts, h ∉ u.tasks
  taken : ∀ u ∈ shuts, u.tasks ≠ [] → isTaken = true
  one : UniqueBy Shut.took shuts

namespace Apart

variable {K : Bool} {R R' : Table NodeTask Handle} {C : List Call} {U : List Shut} {c n : Nat} {x y : Call} {u v : Shut}

/-- A call goes on with its task, or without. -/
theorem goto (h : Apart K R C U) (hx : C[c]? = some x) (hg : ∀ w, y.guard = some w → x.guard = some w) :
    Apart K R (C.set c y) U :=
  { h with
    registry := forall_mem_set h.registry fun w hw => h.registry x (List.mem_of_getElem? hx) w (hg w hw)
    shut := forall_mem_set h.shut fun w hw => h.shut x (List.mem_of_getElem? hx) w (hg w hw) }

theorem call (h : Apart K R C U) (hy : y.guard = none) : Apart K R (C ++ [y]) U :=
  { h with
    registry := forall_mem_append h.registry fun w hw => by rw [hy] at hw; cases hw
    shut := forall_mem_append h.shut fun w hw => by rw [hy] at hw; cases hw }

/-- A call spawns its task, whose handle nobody has. -/
theorem spawn {T : List Task} (h : Apart K R C U) (hL : TaskLedger T R C U) (hy : y.guard = some T.length) :
    Apart K R (C.set c y) U :=
  { h with
    registry := forall_mem_set h.registry fun w hw kind hk => by
      rw [hy] at hw; cases hw
      exact absurd (hL.registry kind _ hk).lt (Nat.lt_irrefl _)
    shut := forall_mem_set h.shut fun w hw u hu hm => by
      rw [hy] at hw; cases hw
      obtain ⟨kind, -, hk⟩ := hL.taken u hu _ hm
      exact absurd hk.lt (Nat.lt_irrefl _) }

/-- What is in the registry was there before. -/
theorem shrink (h : Apart K R C U) (hr : ∀ kind w, R'.lookup kind = some w → R.lookup kind = some w) :
    Apart K R' C U :=
  { h with registry := fun x hx w hw kind hk => h.registry x hx w hw kind (hr kind w hk) }

theorem shutGoto (h : Apart K R C U) (hu : U[n]? = some u) (hv : v.tasks = u.tasks) : Apart K R C (U.set n v) where
  registry := h.registry
  shut x hx w hw := forall_mem_set (h.shut x hx w hw) (by rw [hv]; exact h.shut x hx w hw u (List.mem_of_getElem? hu))
  taken := forall_mem_set h.taken (by rw [hv]; exact h.taken u (List.mem_of_getElem? hu))
  one := h.one.set_same hu (by rw [Shut.took, Shut.took, hv])

/-- A `shut_down` takes the registry, which is empty if another one has. -/
theorem take (h : Apart K R C U) (hK : K = true → R = ∅) (hu : U[n]? = some u) (hv : v.tasks = windDown R) :
    Apart true ∅ C (U.set n v) where
  registry x hx w hw kind hk := by simp at hk
  shut x hx w hw := forall_mem_set (h.shut x hx w hw) fun hm => by
    rw [hv, windDown, List.mem_filterMap] at hm
    obtain ⟨kind, -, hk⟩ := hm
    exact h.registry x hx w hw kind hk
  taken u hu ht := rfl
  one := h.one.set hu fun k hk => by
    refine .inr ?_
    rintro ⟨z, hz, hzk⟩
    have hzt : z.tasks ≠ [] := by
      intro hnil
      rw [Shut.took, if_pos hnil] at hzk; cases hzk
    have hempty : v.tasks = [] := by
      rw [hv, hK (h.taken z hz hzt)]
      simp [windDown]
    rw [Shut.took, if_pos hempty] at hk
    cases hk

theorem shutDown (h : Apart K R C U) (hv : v.tasks = []) : Apart K R C (U ++ [v]) where
  registry := h.registry
  shut x hx w hw := forall_mem_append (h.shut x hx w hw) (by simp [hv])
  taken := forall_mem_append h.taken fun ht => absurd hv ht
  one := h.one.append fun k hk => by rw [Shut.took, if_pos hv] at hk; cases hk

end Apart

abbrev ApartOK (s : State) : Prop := Apart s.taken s.registry s.calls s.shuts

theorem StepR.apartOK (hR : RegistryOK s) (hL : TaskLedgerOK s) (h : ApartOK s) (hs : StepR cfg s a s') :
    ApartOK s' := by
  cases hs with
  | base =>
    refine ⟨h.registry, fun x hx w hw => ?_, ?_, h.one.map fun u => by rw [Shut.took, Shut.took, Shut.announce_tasks]⟩
    · simp only [List.forall_mem_map, Shut.announce_tasks]
      exact h.shut x hx w hw
    · simp only [List.forall_mem_map, Shut.announce_tasks]
      exact h.taken
  | toggle => exact h.call rfl
  | enable => exact h.call rfl
  | lockListening hx | toggleGone hx | toggleFail hx | installTwice hx | checkRefused hx | publishAddr hx
  | publishTwice hx | publish hx | cancelCalled hx | cancelSpawned hx => exact h.goto hx (by simp [Call.guard])
  | toggleOff hx =>
    exact (h.goto hx (by simp [Call.guard])).shrink fun kind w hw => (Table.lookup_erase_some hw).2
  | bind hx => exact h.spawn hL rfl
  | install hx => exact h.spawn hL rfl
  | lockTasks hx hpc | checkAdmitted hx hpc => exact h.goto hx (by simp [Call.guard, hpc])
  | @registerTask c x w hx hpc =>
    have hg : x.guard = some w := by rw [Call.guard, hpc]
    have hmove := h.goto (y := { x with pc := .registered w }) hx (by simp [Call.guard])
    refine { hmove with registry := fun y hy v hv kind hk => ?_ }
    rcases Table.lookup_insert_cases hk with ⟨-, rfl⟩ | ⟨-, hk⟩
    · -- no other call has the task that is registered
      obtain ⟨d, hd⟩ := List.getElem?_of_mem hy
      rcases getElem?_set_cases hx hd with ⟨-, rfl⟩ | ⟨hcd, hd⟩
      · simp [Call.guard] at hv
      · exact hcd (hL.unique c d x y _ hx hd (Call.task_of_guard hg) (Call.task_of_guard hv))
    · exact hmove.registry y hy v hv kind hk
  | finishTask => exact h
  | shutDown => exact h.shutDown rfl
  | takeTasks hu => exact h.take (fun ht => (hR.taken ht).2.1) hu rfl
  | begin hu | snapshot hu | fannedOut hu | enableDrain hu | enableSched hu | drainEmpty hu | drainPark hu
  | schedEmpty hu | schedPark hu | wakeDrain hu | wakeSched hu | signalHandlers hu | joined hu | expire hu
  | abortRest hu | clear hu | cancelShut hu => exact h.shutGoto hu rfl

theorem apartOK_reachable (h : (shutdown cfg).Reachable s) : ApartOK s := by
  refine h.invariant ?_ fun hr ho _ hs =>
    (step_sound hs).apartOK (registryOK_reachable hr) (taskLedgerOK_reachable hr) ho
  exact ⟨by simp [shutdown, State.init], by simp [shutdown, State.init], by simp [shutdown, State.init], uniqueBy_nil⟩

/-! ## Protocols enabled once at a time -/

/-- The protocol the call is enabling, from the spawn of its task to its
publication. -/
def Call.enabling (x : Call) : Option NodeTask := if x.kind = .listener ∨ x.task = none then none else some x.kind

theorem Call.enabling_eq_some {x : Call} {k : NodeTask} :
    x.enabling = some k ↔ x.kind = k ∧ k ≠ .listener ∧ x.task ≠ none := by
  unfold Call.enabling
  split
  next hn => simp; rintro rfl hk; exact hn.resolve_left hk
  next hn =>
    rw [not_or] at hn
    constructor
    · intro h
      cases h
      exact ⟨rfl, hn⟩
    · rintro ⟨rfl, -⟩
      rfl

/-- The `enable_*` calls, while no protocol is enabled twice at a time. -/
structure Enabling (published : Finset NodeTask) (registry : Table NodeTask Handle) (calls : List Call) : Prop where
  single : UniqueBy Call.enabling calls
  unpublished : ∀ x ∈ calls, ∀ k, x.enabling = some k → k ∉ published
  registered : ∀ kind h, kind ≠ .listener → registry.lookup kind = some h →
    kind ∈ published ∨ ∃ x ∈ calls, x.kind = kind ∧ x.pc = .registered h

namespace Enabling

variable {Q : Finset NodeTask} {R R' : Table NodeTask Handle} {C : List Call} {c : Nat} {x y : Call}

/-- A call goes on with its task, or without, and has not registered it. -/
theorem goto (h : Enabling Q R C) (hx : C[c]? = some x) (he : ∀ k, y.enabling = some k → x.enabling = some k)
    (hr : x.kind ≠ .listener → ∀ w, x.pc ≠ .registered w) : Enabling Q R (C.set c y) where
  single := h.single.set hx fun k hk => .inl (he k hk)
  unpublished := forall_mem_set h.unpublished fun k hk => h.unpublished x (List.mem_of_getElem? hx) k (he k hk)
  registered kind w hne hw := (h.registered kind w hne hw).imp_right fun hex =>
    exists_mem_set hex hx fun hp => absurd hp.2 (hr (hp.1 ▸ hne) w)

theorem call (h : Enabling Q R C) (hy : y.pc = .called) : Enabling Q R (C ++ [y]) where
  single := h.single.append fun k hk => by simp [Call.enabling_eq_some, Call.task, hy] at hk
  unpublished := forall_mem_append h.unpublished fun k hk => by simp [Call.enabling_eq_some, Call.task, hy] at hk
  registered kind w hne hw :=
    (h.registered kind w hne hw).imp_right fun ⟨z, hz, hp⟩ => ⟨z, List.mem_append_left _ hz, hp⟩

/-- A call spawns its handler, the only one of its protocol. -/
theorem spawn (h : Enabling Q R C) (hx : C[c]? = some x) (hpc : x.pc = .called) (hk : y.kind = x.kind)
    (hq : x.kind ∉ Q) (ha : ∀ z ∈ C, z.kind = x.kind → z.task = none) : Enabling Q R (C.set c y) where
  single := h.single.set hx fun k hy => .inr fun ⟨z, hz, hzk⟩ => by
    obtain ⟨rfl, -, -⟩ := Call.enabling_eq_some.mp hy
    obtain ⟨hzk, -, ht⟩ := Call.enabling_eq_some.mp hzk
    exact ht (ha z hz (hzk.trans hk))
  unpublished := forall_mem_set h.unpublished fun k hy => by
    obtain ⟨rfl, -, -⟩ := Call.enabling_eq_some.mp hy
    rwa [hk]
  registered kind w hne hw := (h.registered kind w hne hw).imp_right fun hex =>
    exists_mem_set hex hx fun hp => by rw [hpc] at hp; cases hp.2

/-- A call registers its task. -/
theorem register {w : Handle} (h : Enabling Q R C) (hx : C[c]? = some x) (hpc : x.pc = .admitted w) :
    Enabling Q (R.insert x.kind w) (C.set c { x with pc := .registered w }) where
  single := h.single.set_same hx (by simp [Call.enabling, Call.task, hpc])
  unpublished := forall_mem_set h.unpublished fun k hk =>
    h.unpublished x (List.mem_of_getElem? hx) k (by simpa [Call.enabling, Call.task, hpc] using hk)
  registered kind v hne hv := by
    rcases Table.lookup_insert_cases hv with ⟨rfl, rfl⟩ | ⟨-, hv⟩
    · exact .inr ⟨_, mem_set_self hx _, rfl, rfl⟩
    · exact (h.registered kind v hne hv).imp_right fun hex =>
        exists_mem_set hex hx fun hp => by rw [hpc] at hp; cases hp.2

/-- A handler is published, and its call is over. -/
theorem publish {w : Handle} (h : Enabling Q R C) (hx : C[c]? = some x) (hpc : x.pc = .registered w)
    (hk : x.kind ≠ .listener) : Enabling (insert x.kind Q) R (C.set c { x with pc := .done }) where
  single := h.single.set hx fun k hk => by simp [Call.enabling, Call.task] at hk
  unpublished y hy k hyk hmem := by
    obtain ⟨d, hd⟩ := List.getElem?_of_mem hy
    rcases getElem?_set_cases hx hd with ⟨-, rfl⟩ | ⟨hcd, hd⟩
    · simp [Call.enabling, Call.task] at hyk
    · rcases Finset.mem_insert.mp hmem with rfl | hmem
      · exact hcd (h.single c d x y _ hx hd (Call.enabling_eq_some.mpr ⟨rfl, hk, by simp [Call.task, hpc]⟩) hyk)
      · exact h.unpublished y (List.mem_of_getElem? hd) k hyk hmem
  registered kind v hne hv := by
    by_cases heq : kind = x.kind
    · exact .inl (by rw [heq]; exact Finset.mem_insert_self _ _)
    · refine (h.registered kind v hne hv).imp (Finset.mem_insert_of_mem) fun hex => ?_
      exact exists_mem_set hex hx fun hp => absurd hp.1.symm heq

theorem shrink (h : Enabling Q R C) (hr : ∀ kind w, R'.lookup kind = some w → R.lookup kind = some w) :
    Enabling Q R' C :=
  { h with registered := fun kind w hne hw => h.registered kind w hne (hr kind w hw) }

/-- The task of a call that passed its flag check displaces no other. -/
theorem undisplaced {w : Handle} (h : Enabling Q R C) (hx : C[c]? = some x) (hk : x.kind ≠ .listener)
    (hpc : x.pc = .admitted w) : R.lookup x.kind = none := by
  have hen : x.enabling = some x.kind := Call.enabling_eq_some.mpr ⟨rfl, hk, by simp [Call.task, hpc]⟩
  cases hl : R.lookup x.kind with
  | none => rfl
  | some v =>
    rcases h.registered x.kind v hk hl with hq | ⟨y, hy, hyk, hyp⟩
    · exact absurd hq (h.unpublished x (List.mem_of_getElem? hx) _ hen)
    · obtain ⟨d, hd⟩ := List.getElem?_of_mem hy
      have hcd := h.single c d x y x.kind hx hd hen
        (Call.enabling_eq_some.mpr ⟨hyk, hk, by simp [Call.task, hyp]⟩)
      subst hcd
      rw [hx] at hd; cases hd
      rw [hpc] at hyp; cases hyp

end Enabling

abbrev EnablingOK (s : State) : Prop := Enabling s.published s.registry s.calls

theorem StepR.enablingOK (hR : RegistryOK s) (h : EnablingOK s) (ha : alone s a = true) (hs : StepR cfg s a s') :
    EnablingOK s' := by
  have done : ∀ {c x}, s.calls[c]? = some x → (x.kind ≠ .listener → ∀ w, x.pc ≠ .registered w) →
      Enabling s.published s.registry (s.calls.set c { x with pc := .done }) :=
    fun hx hr => h.goto hx (by simp [Call.enabling, Call.task]) hr
  cases hs with
  | toggle => exact h.call rfl
  | enable => exact h.call rfl
  | lockListening hx hk => exact h.goto hx (by simp [Call.enabling, Call.task]) fun hn => absurd hk hn
  | toggleOff hx hpc =>
    exact (done hx (by simp [hpc])).shrink fun kind w hw => (Table.lookup_erase_some hw).2
  | toggleGone hx hpc | toggleFail hx hpc | checkRefused hx hpc | cancelCalled hx hpc | cancelSpawned hx hpc =>
    exact done hx (by simp [hpc])
  | installTwice hx hk hpc => exact done hx (by simp [hpc])
  | publishAddr hx hpc hk => exact done hx fun hn => absurd hk hn
  | bind hx _ hpc =>
    have hk := hR.holder _ (List.mem_of_getElem? hx) hpc
    exact h.goto hx (by simp [Call.enabling, hk]) fun hn => absurd hk hn
  | @install c x hx hk hpc hp =>
    refine h.spawn hx hpc rfl hp fun z hz hzk => ?_
    simp only [alone, hx, Option.all_some, List.all_eq_true, decide_eq_true_eq] at ha
    exact ha z hz hzk
  | lockTasks hx hpc => exact h.goto hx (by simp [Call.enabling, Call.task, hpc]) (by simp [hpc])
  | checkAdmitted hx hpc => exact h.goto hx (by simp [Call.enabling, Call.task, hpc]) (by simp [hpc])
  | registerTask hx hpc => exact h.register hx hpc
  | publishTwice hx hpc hk hp =>
    exact absurd hp (h.unpublished _ (List.mem_of_getElem? hx) _
      (Call.enabling_eq_some.mpr ⟨rfl, hk, by simp [Call.task, hpc]⟩))
  | publish hx hpc hk => exact h.publish hx hpc hk
  | takeTasks => exact h.shrink (by simp)
  | base | finishTask | shutDown | begin | snapshot | fannedOut | enableDrain | enableSched | drainEmpty | drainPark
  | schedEmpty | schedPark | wakeDrain | wakeSched | signalHandlers | joined | expire | abortRest | clear
  | cancelShut => exact h

theorem enablingOK_reaches (h : (shutdown cfg).Reaches (fun s a => alone s a = true) s) : EnablingOK s := by
  refine h.invariant ?_ fun hr ho ha hs => (step_sound hs).enablingOK (registryOK_reachable hr.reachable) ho ha
  exact ⟨uniqueBy_nil, by simp [shutdown, State.init], by simp [shutdown, State.init]⟩

/-- A call that passed its flag check displaces no registered task. -/
theorem undisplaced_reaches (h : (shutdown cfg).Reaches (fun s a => alone s a = true) s) {c : Nat} {x : Call}
    {w : Handle} (hx : s.calls[c]? = some x) (hpc : x.pc = .admitted w) : s.registry.lookup x.kind = none := by
  by_cases hk : x.kind = .listener
  · rw [hk]
    exact (listenerOK_reachable h.reachable).unregistered (registryOK_reachable h.reachable) hx hk
      (by rw [Call.guard, hpc])
  · exact (enablingOK_reaches h).undisplaced hx hk hpc

theorem tasksOwned_reaches (h : (shutdown cfg).Reaches (fun s a => alone s a = true) s) (kind : NodeTask) :
    TasksOwned kind s := by
  refine h.invariant (by simp [TasksOwned, shutdown, State.init]) fun hr ho _ hs => ?_
  refine (step_sound hs).tasksOwned (taskLedgerOK_reachable hr.reachable) (fun x hx w hk hpc => ?_) ho
  obtain ⟨c, hc⟩ := List.getElem?_of_mem hx
  rw [← hk]
  exact undisplaced_reaches hr hc hpc

/-! ## Over whole runs -/

/-- Once the flag is up, a `shut_down` has taken the registry or is about
to. -/
def Taking (s : State) : Prop := s.base.flag = true → s.taken = true ∨ ∃ u ∈ s.shuts, u.pc = .begun

theorem StepR.taking (h : Taking s) (hs : StepR cfg s a s') : Taking s' := by
  have goto : ∀ {n u} {v : Shut}, s.shuts[n]? = some u → u.pc ≠ .begun → s.base.flag = true →
      s.taken = true ∨ ∃ w ∈ s.shuts.set n v, w.pc = .begun :=
    fun hu hpc hf => (h hf).imp_right fun hex => exists_mem_set hex hu fun hp => absurd hp hpc
  cases hs with
  | @base act b hb hfree =>
    intro hf
    have hne : act ≠ .beginShutdown := by rintro rfl; cases hfree
    rcases h ((Pea2Pea.step_sound hb).flag_eq hne ▸ hf) with ht | ⟨u, hu, hpc⟩
    · exact .inl ht
    · refine .inr ⟨_, List.mem_map_of_mem hu, ?_⟩
      exact (Shut.announce_eq (by simp) (by simp)).mpr hpc
  | publish =>
    intro hf
    refine h ?_
    split at hf <;> exact hf
  | shutDown => exact fun hf => (h hf).imp_right fun ⟨u, hu, hp⟩ => ⟨u, List.mem_append_left _ hu, hp⟩
  | begin hu => exact fun _ => .inr ⟨_, mem_set_self hu _, rfl⟩
  | takeTasks => exact fun _ => .inl rfl
  | snapshot hu hpc | fannedOut hu hpc | enableDrain hu hpc | enableSched hu hpc | drainEmpty hu hpc | drainPark hu hpc
  | schedEmpty hu hpc | schedPark hu hpc | wakeDrain hu hpc | wakeSched hu hpc | signalHandlers hu hpc | joined hu hpc
  | expire hu hpc | abortRest hu hpc | clear hu hpc => exact goto hu (by simp [hpc])
  | cancelShut hu hpc => exact goto hu fun hb => by rw [hb] at hpc; cases hpc
  | _ => exact h

theorem taking_reachable (h : (shutdown cfg).Reachable s) : Taking s :=
  h.invariant (P := Taking) (by simp [Taking, shutdown, State.init, Pea2Pea.State.init]) fun _ ho _ hs =>
    (step_sound hs).taking ho

/-- Who has the handle of a node task. -/
inductive Owner
  /-- The guard of the call that spawned the task. -/
  | call (c : Nat)
  | registry (kind : NodeTask)
  /-- A guard of a `shut_down`. -/
  | shut (n : Nat)

def Owner.Has (s : State) (h : Handle) : Owner → Prop
  | .call c => ∃ x, s.calls[c]? = some x ∧ x.guard = some h
  | .registry kind => s.registry.lookup kind = some h
  | .shut n => ∃ u, s.shuts[n]? = some u ∧ u.pc.live = true ∧ h ∈ u.tasks

/-- A handle has one owner at most. -/
theorem Owner.Has.unique (hr : (shutdown cfg).Reachable s) {h : Handle} {o o' : Owner} (ho : o.Has s h)
    (ho' : o'.Has s h) : o = o' := by
  have hL := taskLedgerOK_reachable hr
  have hA := apartOK_reachable hr
  -- a call has the task, or it was taken: then nobody else has
  have call_registry : ∀ {c kind}, (Owner.call c).Has s h → ¬ (Owner.registry kind).Has s h :=
    fun ⟨x, hx, hg⟩ hk => hA.registry x (List.mem_of_getElem? hx) h hg _ hk
  have call_shut : ∀ {c n}, (Owner.call c).Has s h → ¬ (Owner.shut n).Has s h :=
    fun ⟨x, hx, hg⟩ ⟨u, hu, _, hm⟩ => hA.shut x (List.mem_of_getElem? hx) h hg u (List.mem_of_getElem? hu) hm
  have registry_shut : ∀ {kind n}, (Owner.registry kind).Has s h → ¬ (Owner.shut n).Has s h := by
    intro kind n hk ⟨u, hu, _, hm⟩
    have htaken := hA.taken u (List.mem_of_getElem? hu) (List.ne_nil_of_mem hm)
    rw [Owner.Has, ((registryOK_reachable hr).taken htaken).2.1] at hk
    simp at hk
  cases o with
  | call c =>
    cases o' with
    | call d =>
      obtain ⟨x, hx, hxg⟩ := ho
      obtain ⟨y, hy, hyg⟩ := ho'
      rw [hL.unique c d x y h hx hy (Call.task_of_guard hxg) (Call.task_of_guard hyg)]
    | registry => exact absurd ho' (call_registry ho)
    | shut => exact absurd ho' (call_shut ho)
  | registry kind =>
    cases o' with
    | call => exact absurd ho (call_registry ho')
    | registry kind' => rw [Option.some.inj ((hL.registry kind h ho).symm.trans (hL.registry kind' h ho'))]
    | shut => exact absurd ho' (registry_shut ho)
  | shut n =>
    cases o' with
    | call => exact absurd ho (call_shut ho')
    | registry => exact absurd ho (registry_shut ho')
    | shut m =>
      obtain ⟨u, hu, -, hum⟩ := ho
      obtain ⟨v, hv, -, hvm⟩ := ho'
      have took : ∀ {w : Shut}, h ∈ w.tasks → w.took = some () := fun hm => if_neg (List.ne_nil_of_mem hm)
      rw [hA.one n m u v () hu hv (took hum) (took hvm)]

structure NoneEscapes (s : State) : Prop where
  /-- A task that runs has one owner. -/
  owned : ∀ (h : Nat) t, s.tasks[h]? = some t → t.status = .running → ∃! o : Owner, o.Has s h
  /-- A registration displaces no task. -/
  undisplaced : ∀ (c : Nat) x h, s.calls[c]? = some x → x.pc = .admitted h → s.registry.lookup x.kind = none
  /-- With the shutdown begun and no call in progress, no task runs. -/
  settled : s.base.flag = true → (∀ x ∈ s.calls, x.pc = .called ∨ x.pc = .done) →
    (∀ u ∈ s.shuts, u.pc = .called ∨ u.pc = .returned ∨ u.pc = .cancelled) →
    ∀ (h : Nat) t, s.tasks[h]? = some t → t.status ≠ .running

/-- No node task escapes. -/
theorem none_escapes (cfg : NodeConfig) (s : State) (h : (shutdown cfg).Reaches (fun s a => alone s a = true) s) :
    NoneEscapes s where
  owned w t ht hr := by
    have hex : ∃ o : Owner, o.Has s w := by
      rcases tasksOwned_reaches h t.kind w t ht rfl hr with ⟨x, hx, hg⟩ | hk | ⟨u, hu, hl, hm⟩
      · obtain ⟨c, hc⟩ := List.getElem?_of_mem hx
        exact ⟨.call c, x, hc, hg⟩
      · exact ⟨.registry t.kind, hk⟩
      · obtain ⟨n, hn⟩ := List.getElem?_of_mem hu
        exact ⟨.shut n, u, hn, hl, hm⟩
    obtain ⟨o, ho⟩ := hex
    exact ⟨o, ho, fun o' ho' => ho'.unique h.reachable ho⟩
  undisplaced c x w hx hpc := undisplaced_reaches h hx hpc
  settled hf hcalls hshuts w t ht hr := by
    rcases tasksOwned_reaches h t.kind w t ht rfl hr with ⟨x, hx, hg⟩ | hk | ⟨u, hu, hl, hm⟩
    · rcases hcalls x hx with hpc | hpc <;> rw [Call.guard, hpc] at hg <;> cases hg
    · -- the registry has been taken
      rcases taking_reachable h.reachable hf with ht | ⟨u, hu, hpc⟩
      · rw [((registryOK_reachable h.reachable).taken ht).2.1] at hk
        simp at hk
      · rcases hshuts u hu with hp | hp | hp <;> rw [hp] at hpc <;> cases hpc
    · rcases hshuts u hu with hpc | hpc | hpc <;> rw [hpc] at hl <;> cases hl

/-- The listener and Reading are enabled, the enabling of Writing is
cancelled, and a `shut_down` takes the registry. -/
def tasksTaken : List Act := listenerOn.append
  [.enable .reading, .enable .writing, .install 2, .install 3, .lockTasks 2, .checkFlag 2, .registerTask 2, .publish 2,
    .cancelCall 3, .shutDown, .begin 0, .takeTasks 0]

theorem none_escapes_tasksTaken :
    ∃ s, (shutdown listeningSlots).Reaches (fun s a => alone s a = true) s ∧
      s.tasks = [⟨.listener, .aborted⟩, ⟨.reading, .running⟩, ⟨.writing, .aborted⟩] ∧ ∃! o : Owner, o.Has s 1 := by
  obtain ⟨s, hs, hp⟩ := ((shutdown listeningSlots).guarded alone).exists_reachable tasksTaken
    (fun s => s.tasks = [⟨.listener, .aborted⟩, ⟨.reading, .running⟩, ⟨.writing, .aborted⟩]) (by decide +kernel)
  have hr : (shutdown listeningSlots).Reaches (fun s a => alone s a = true) s := .of_guarded (fun s a ha => ha) hs
  have htasks := of_decide_eq_true hp
  exact ⟨s, hr, htasks, (none_escapes listeningSlots s hr).owned 1 ⟨.reading, .running⟩ (by rw [htasks]; rfl) rfl⟩

end Pea2Pea.Shutdown
