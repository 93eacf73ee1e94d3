/-
When the handlers' tasks are made to end: after the node has come to a point
from which there is no way back.

A handler's loop leaves its select only when it is signaled or its task is
aborted, and a task whose call is over is aborted only by the `shut_down` that
took it. `Milestone` names a condition that holds by then and for good; there
are two, the shutdown flag, and, as long as no `shut_down` is dropped, the
drain.
-/
import Pea2Pea.HandlerLoopFacts
import Pea2Pea.NodeTasks

namespace Pea2Pea

open Pool

namespace HandlerLoop

/-! ## A loop that goes on -/

/-- The loop has not been made to end, unless `G` holds. -/
structure OpenUnless (G : Prop) (l : State) : Prop where
  signal : l.signal = true → G
  draining : l.draining = true → G
  closed : l.chan.closed = true → G
  ended : l.pc = .unwinding ∨ l.pc = .exited → G
  aborted : l.aborted ≠ [] → G

variable {G G' : Prop} {kind : LoopKind} {l l' : State} {x : Act}

theorem OpenUnless.mono (h : OpenUnless G l) (hG : G → G') : OpenUnless G' l where
  signal hs := hG (h.signal hs)
  draining hd := hG (h.draining hd)
  closed hc := hG (h.closed hc)
  ended he := hG (h.ended he)
  aborted ha := hG (h.aborted ha)

theorem openUnless_of (hG : G) : OpenUnless G l :=
  ⟨fun _ => hG, fun _ => hG, fun _ => hG, fun _ => hG, fun _ => hG⟩

theorem openUnless_init (G : Prop) (capacity : Nat) : OpenUnless G (.init capacity) where
  signal hs := by cases hs
  draining hd := by cases hd
  closed hc := by cases hc
  ended he := by rcases he with he | he <;> cases he
  aborted ha := absurd rfl ha

theorem LoopKind.head_goes_on (kind : LoopKind) : ¬ (kind.head = .unwinding ∨ kind.head = .exited) := by
  cases kind <;> simp [LoopKind.head]

theorem StepR.openUnless (hs : StepR kind l x l') (hx : ∀ b, x ≠ .signalShutdown b) (h : OpenUnless G l) :
    OpenUnless G l' := by
  cases hs with
  | signalShutdown => exact absurd rfl (hx _)
  | acquire | write => exact { h with closed := h.closed }
  | recvItem => exact { h with closed := h.closed, ended := fun he => absurd he kind.head_goes_on }
  | recvEnded _ he => exact { h with ended := fun _ => h.closed he.closed }
  | close _ _ hsig => exact openUnless_of (h.signal hsig)
  | subscribe | wake => exact { h with ended := fun he => absurd he kind.head_goes_on }
  | dropTasks hpc => exact { h with aborted := fun _ => h.ended (.inl hpc) }
  | cancelTask hr hq => exact { h with aborted := fun _ => h.aborted (List.ne_nil_of_mem hq) }
  | exit hpc => exact { h with ended := fun _ => h.ended (.inl hpc) }
  | joinNone | recvPending | park => exact { h with ended := fun he => by rcases he with he | he <;> cases he }
  | request | giveUp | joinTask | complete | panic => exact { h with }

end HandlerLoop

namespace Shutdown

variable {cfg : NodeConfig} {s s' : State} {a : Act}

/-! ## Milestones -/

/-- A `shut_down` that has not begun has taken nothing. -/
def UntakenOK (s : State) : Prop := ∀ u ∈ s.shuts, u.pc = .called → u.tasks = []

theorem StepR.untakenOK (h : UntakenOK s) (hs : StepR cfg s a s') : UntakenOK s' := by
  cases hs with
  | base =>
    simp only [UntakenOK, List.forall_mem_map]
    intro u hu hpc
    rw [Shut.announce_eq (by simp) (by simp)] at hpc
    rw [Shut.announce_tasks]
    exact h u hu hpc
  | shutDown => exact forall_mem_append h fun _ => rfl
  | begin | takeTasks | snapshot | fannedOut | enableDrain | enableSched | drainEmpty | drainPark | schedEmpty
  | schedPark | wakeDrain | wakeSched | signalHandlers | joined | expire | abortRest | clear | cancelShut =>
    exact forall_mem_set h fun hpc => by cases hpc
  | _ => exact h

theorem untakenOK_reachable (h : (shutdown cfg).Reachable s) : UntakenOK s :=
  h.invariant (by simp [UntakenOK, shutdown, State.init]) fun _ ho _ hs => (step_sound hs).untakenOK ho

/-- `G` holds once the handlers are signaled, and when a `shut_down` aborts
tasks it took; and from then on. -/
structure Milestone (cfg : NodeConfig) (ok : Act → Prop) (G : State → Prop) : Prop where
  mono : ∀ {s s' a}, StepR cfg s a s' → G s → G s'
  signal : ∀ {s s' n b}, (shutdown cfg).Reachable s → StepR cfg s (.signalHandlers n b) s' → G s'
  taken : ∀ {s a u}, (shutdown cfg).Reachable s → ok a → AbortsTaken s a u → u.tasks ≠ [] → G s

theorem StepR.flag_mono (hs : StepR cfg s a s') (h : s.base.flag = true) : s'.base.flag = true := by
  rcases hs.lifecycle with ⟨c, -, hc⟩ | hq
  · exact hc.flag_mono h
  · exact hq.flag h

theorem drained_of_pastSched (hr : (shutdown cfg).Reachable s) {n : Nat} {u : Shut} (hu : s.shuts[n]? = some u)
    (hpc : u.pc.pastSched = true) : Drained s.base :=
  ((shutsOK_reachable hr).progress u (List.mem_of_getElem? hu)).drained hpc

theorem StepR.signal_drained (hr : (shutdown cfg).Reachable s) {n : Nat} {b : Bool}
    (hs : StepR cfg s (.signalHandlers n b) s') : Drained s'.base := by
  have hD : Drained s.base := by
    cases hs with
    | signalHandlers hu hpc => exact drained_of_pastSched hr hu (by rw [hpc]; rfl)
  exact hs.drained hD

/-- Without dropped calls, the node has been drained. -/
theorem milestone_drained (cfg : NodeConfig) :
    Milestone cfg (fun a => ∀ n, a ≠ .cancelShut n) fun s => Drained s.base where
  mono hs hD := hs.drained hD
  signal hr hs := hs.signal_drained hr
  taken hr ha hu _ := by
    cases hu with
    | abortRest hu hpc => exact drained_of_pastSched hr hu (by rw [hpc]; rfl)
    | cancelShut => exact absurd rfl (ha _)

/-- In any case, the shutdown has begun. -/
theorem milestone_flag (cfg : NodeConfig) : Milestone cfg (fun _ => True) fun s => s.base.flag = true where
  mono hs hf := hs.flag_mono hf
  signal hr hs := (hs.signal_drained hr).sealed.flag
  taken {s a u} hr _ hu hne := by
    cases hu with
    | abortRest hu hpc => exact (drained_of_pastSched hr hu (by rw [hpc]; rfl)).sealed.flag
    | cancelShut hu hpc =>
      have hum := List.mem_of_getElem? hu
      refine (shutsOK_reachable hr).begun u hum ?_
      cases hupc : u.pc with
      | called => exact absurd (untakenOK_reachable hr u hum hupc) hne
      | cancelled => rw [hupc] at hpc; cases hpc
      | _ => rfl

/-! ## Handlers that are published -/

variable {ok : Act → Prop} {G : State → Prop}

/-- The task has not been aborted, unless `G` holds. -/
def Spared (G : State → Prop) (s : State) (h : Handle) : Prop := Intact s.tasks h ∨ G s

/-- The tasks that calls have are spared. -/
def CallsSpared (G : State → Prop) (s : State) : Prop :=
  ∀ x ∈ s.calls, x.kind ≠ .listener → ∀ h, x.task = some h → Spared G s h

theorem StepR.spared (M : Milestone cfg ok G) (hr : (shutdown cfg).Reachable s) (ha : ok a) (hs : StepR cfg s a s')
    {kind : NodeTask} {h : Handle} (hk : IsTask s.tasks kind h) (hne : kind ≠ .listener) (hi : Spared G s h) :
    Spared G s' h ∨ ∃ (c : Nat) (x y : Call), s.calls[c]? = some x ∧ x.task = some h ∧
      s'.calls = s.calls.set c y ∧ y.task = none := by
  rcases hi with hi | hG
  · rcases hs.abort_cases (taskLedgerOK_reachable hr) hk hne hi with hi | hlost | ⟨u, hu, hm, -⟩
    · exact .inl (.inl hi)
    · exact .inr hlost
    · exact .inl (.inr (M.mono hs (M.taken hr ha hu (List.ne_nil_of_mem hm))))
  · exact .inl (.inr (M.mono hs hG))

theorem StepR.callsSpared (M : Milestone cfg ok G) (hr : (shutdown cfg).Reachable s) (h : CallsSpared G s)
    (ha : ok a) (hs : StepR cfg s a s') : CallsSpared G s' := by
  intro y hy hne w hw
  have hL := taskLedgerOK_reachable hr
  obtain ⟨c, hc⟩ := List.getElem?_of_mem hy
  rcases hs.call_task hc hw with ⟨x, hx, hk, ht⟩ | ⟨-, hi⟩
  · rw [← hk] at hne
    have hxm := List.mem_of_getElem? hx
    rcases hs.spared M hr ha (hL.held x hxm w ht) hne (h x hxm hne w ht) with
      hi | ⟨d, x', y', hx', ht', hcalls, hnone⟩
    · exact hi
    · -- the call that lost the task is this one
      have hcd := hL.unique c d x x' w hx hx' ht ht'
      subst hcd
      rw [hcalls, getElem?_set hx', if_pos rfl] at hc
      cases hc
      rw [hnone] at hw; cases hw
  · exact .inl hi

/-- `h` is the task of a handler whose call is over: no other call has it,
and it is spared. -/
structure Published (G : State → Prop) (s : State) (kind : NodeTask) (h : Handle) : Prop where
  isTask : IsTask s.tasks kind h
  unheld : ∀ x ∈ s.calls, x.task ≠ some h
  spared : Spared G s h

theorem StepR.published (M : Milestone cfg ok G) (hr : (shutdown cfg).Reachable s) (ha : ok a)
    (hs : StepR cfg s a s') {kind : NodeTask} {h : Handle} (hne : kind ≠ .listener) (hP : Published G s kind h) :
    Published G s' kind h where
  isTask := hs.grows _ _ hP.isTask
  unheld := hs.unheld hP.isTask hP.unheld
  spared := by
    rcases hs.spared M hr ha hP.isTask hne hP.spared with hi | ⟨c, x, -, hx, ht, -⟩
    · exact hi
    · exact absurd ht (hP.unheld x (List.mem_of_getElem? hx))

/-- A call publishes its handler, and is over. -/
theorem StepR.publish_published (M : Milestone cfg ok G) (hr : (shutdown cfg).Reachable s) (hC : CallsSpared G s)
    {c : Nat} {x : Call} {h : Handle} (hs : StepR cfg s (.publish c) s') (hx : s.calls[c]? = some x)
    (hpc : x.pc = .registered h) (hne : x.kind ≠ .listener) : Published G s' x.kind h := by
  have hL := taskLedgerOK_reachable hr
  have hxm := List.mem_of_getElem? hx
  have ht : x.task = some h := by rw [Call.task, hpc]
  refine ⟨hs.grows _ _ (hL.held x hxm h ht), hs.publish_unheld hL hx hpc, ?_⟩
  rcases hC x hxm hne h ht with hi | hG
  · exact .inl (by rw [hs.publish_tasks]; exact hi)
  · exact .inr (M.mono hs hG)

end Shutdown

end Pea2Pea
