/-
What `shut_down`'s drains wait for, and what a lifecycle step does to it.

The last removal from `active` and the last drop of a `SchedulingGuard` each
come before the notification that announces them: in between, the remover or
the dropper is the one who owes it. No step ends a wait's condition without
leaving such a debt, and none but the announcement itself pays it.
-/
import Pea2Pea.Admission

namespace Pea2Pea

open Pool

/-- An entry was removed from `active`, and the notification is next. -/
def RemovalDue (s : State) : Prop := ∃ d ∈ s.discs, ∃ id got, d.pc = .removed id got

/-- A guard's drop took `sched_in_flight` to zero, and the notification is
next. -/
def SchedNotifyDue (s : State) : Prop :=
  (∃ t ∈ s.setups, t.pc = .notifying) ∨ ∃ u ∈ s.scheds, u.pc = .notifying

variable {cfg : NodeConfig} {s s' : State} {a : Act}

/-! ## The active connections -/

/-- `active` is emptied by a removal, which then owes the notification. -/
theorem StepR.keys_nonempty (hs : StepR cfg s a s') (h : s.active.keys ≠ ∅) :
    s'.active.keys ≠ ∅ ∨ RemovalDue s' := by
  cases hs with
  | insert =>
    refine .inl ?_
    rw [Table.keys_insert]
    exact Finset.insert_ne_empty _ _
  | @attach _ t handle _ _ _ =>
    refine .inl ?_
    rcases attachHandle_cases s.active t.addr t.id handle with ha | ⟨c, hA, -, ha⟩
    · rw [ha]; exact h
    · rw [ha, Table.keys_insert_of_lookup hA]; exact h
  | claim hd hpc hl hc =>
    obtain ⟨c, hA, -, -, -, rfl⟩ := claimDisconnect_some hc
    refine .inl ?_
    rw [Table.keys_insert_of_lookup hA]
    exact h
  | register hd hpc hl =>
    refine .inl ?_
    unfold registerHandle
    split
    next c hA => rw [Table.keys_insert_of_lookup hA]; exact h
    · exact h
  | remove hd => exact .inr ⟨_, mem_set_self hd _, _, _, rfl⟩
  | removeNone hd hpc hl hc =>
    refine .inl ?_
    simp only [State.discGoto, State.removeConn, Finmap.keys_erase]
    rw [Finset.erase_eq_of_notMem (Table.notMem_keys hc)]
    exact h
  | _ => exact .inl h

/-- The debt of a removal is paid by its own notification only. -/
theorem StepR.removalDue (hs : StepR cfg s a s') (hn : ∀ j, a ≠ .notifyDrain j) (h : RemovalDue s) :
    RemovalDue s' := by
  have move : ∀ {j d p}, s.discs[j]? = some d → (∀ id got, d.pc ≠ .removed id got) →
      ∃ z ∈ s.discs.set j { d with pc := p }, ∃ id got, z.pc = .removed id got := by
    intro j d p hd hne
    exact exists_mem_set h hd fun ⟨id, got, hpc⟩ => absurd hpc (hne id got)
  have spawn : ∀ {d : Disc}, ∃ z ∈ s.discs ++ [d], ∃ id got, z.pc = .removed id got := by
    intro d
    obtain ⟨z, hz, hpc⟩ := h
    exact ⟨z, List.mem_append_left _ hz, hpc⟩
  cases hs with
  | notifyDrain => exact absurd rfl (hn _)
  | disconnect => exact spawn
  | recover => exact spawn
  | claim hd hpc | claimNone hd hpc | cancel hd hpc | finalize hd hpc | remove hd hpc | removeNone hd hpc =>
    exact move hd (by rw [hpc]; simp)
  | _ => exact h

/-! ## The scheduling counter -/

/-- The counter falls to zero with a guard's drop, which then owes the
notification. -/
theorem StepR.sched_pos (hs : StepR cfg s a s') (h : s.schedInFlight ≠ 0) :
    s'.schedInFlight ≠ 0 ∨ SchedNotifyDue s' := by
  cases hs with
  | wired =>
    refine .inl ?_
    dsimp only
    split <;> omega
  | dropSched ht =>
    by_cases hone : s.schedInFlight = 1
    · refine .inr (.inl ⟨_, mem_set_self ht _, ?_⟩)
      rw [if_pos hone]
    · refine .inl ?_
      dsimp only
      omega
  | schedDone hu =>
    by_cases hone : s.schedInFlight = 1
    · refine .inr (.inr ⟨_, mem_set_self hu _, ?_⟩)
      rw [if_pos hone]
    · refine .inl ?_
      dsimp only
      omega
  | _ => exact .inl h

theorem StepR.schedNotifyDue (hs : StepR cfg s a s') (hn : ∀ i, a ≠ .notifySched i) (hk : ∀ k, a ≠ .schedNotify k)
    (h : SchedNotifyDue s) : SchedNotifyDue s' := by
  have move : ∀ {i t p} {K : List Sched}, s.setups[i]? = some t → t.pc ≠ .notifying → (∀ u ∈ s.scheds, u ∈ K) →
      (∃ z ∈ s.setups.set i { t with pc := p }, z.pc = .notifying) ∨ ∃ u ∈ K, u.pc = .notifying := by
    intro i t p K ht hne hK
    rcases h with h | ⟨u, hu, hpc⟩
    · exact .inl (exists_mem_set h ht fun hpc => absurd hpc hne)
    · exact .inr ⟨u, hK u hu, hpc⟩
  have spawn : ∀ {t : Setup}, (∃ z ∈ s.setups ++ [t], z.pc = .notifying) ∨ ∃ u ∈ s.scheds, u.pc = .notifying := by
    intro t
    rcases h with ⟨z, hz, hpc⟩ | h
    · exact .inl ⟨z, List.mem_append_left _ hz, hpc⟩
    · exact .inr h
  cases hs with
  | notifySched => exact absurd rfl (hn _)
  | schedNotify => exact absurd rfl (hk _)
  | connect => exact spawn
  | accept => exact spawn
  | schedDone hu hpc =>
    rcases h with h | h
    · exact .inl h
    · exact .inr (exists_mem_set h hu fun he => by rw [hpc] at he; cases he)
  | scheduleSome ht hpc => exact move ht (by rw [hpc]; simp) fun u hu => List.mem_append_left _ hu
  | reject ht hpc =>
    exact move ht (by rcases hpc with hpc | hpc <;> rw [hpc] <;> simp) fun u hu => hu
  | startCalled ht hpc | startAccepted ht hpc | checkConnected ht hpc | acquire ht hpc | noBudget ht hpc
  | reserveOk ht hpc | reserveErr ht hpc | adapt ht hpc | failDialing ht hpc | failProtocols ht hpc | wired ht hpc
  | lockActive ht hpc | checkRefused ht hpc | checkAdmitted ht hpc | insert ht hpc | dropRefused ht hpc
  | dropUnwinding ht hpc | dropInserted ht hpc | dropSched ht hpc | scheduleNone ht hpc | finish ht hpc
  | finishAwaiting ht hpc => exact move ht (by rw [hpc]; simp) fun u hu => hu
  | attach | disconnect | recover | noRecovery | claim | claimNone | cancel | register | finalize | remove
  | removeNone | notifyDrain | beginShutdown | enableOnConnect | takeId => exact h

/-- A setup there owes its connection, which is in `active`, an OnConnect
scheduling. -/
def SetupPc.owesHook : SetupPc → Bool
  | .inserted _ sched | .established _ sched => sched
  | _ => false

/-- No connection that entered `active` has its OnConnect scheduling ahead
of it or under way. -/
structure Unscheduled (s : State) : Prop where
  setups : ∀ t ∈ s.setups, t.pc.owesHook = false
  scheds : ∀ u ∈ s.scheds, u.pc ≠ .running

/-- With the counter at zero nothing is left to be scheduled. -/
theorem SchedOK.unscheduled (h : SchedOK s) (hz : s.schedInFlight = 0) : Unscheduled s := by
  unfold SchedOK liveSchedGuards at h
  have hs : s.setups.countP (·.pc.hasSched) = 0 := by omega
  have hk : s.scheds.countP (·.pc.hasGuard) = 0 := by omega
  rw [List.countP_eq_zero] at hs hk
  refine ⟨fun t ht => ?_, fun u hu hpc => hk u hu (by rw [hpc]; rfl)⟩
  have hno := hs t ht
  cases hpc : t.pc <;> simp_all [SetupPc.owesHook, SetupPc.hasSched]

/-- The counter may rise again, but only for adds that are refused. -/
theorem StepR.unscheduled (hs : StepR cfg s a s') (hS : Sealed s) (h : Unscheduled s) : Unscheduled s' := by
  cases hs with
  | connect => exact ⟨forall_mem_append h.setups rfl, h.scheds⟩
  | accept => exact ⟨forall_mem_append h.setups rfl, h.scheds⟩
  | insert ht hpc =>
    have := hS.none_admitted _ (List.mem_of_getElem? ht)
    rw [hpc] at this; cases this
  | @dropInserted _ t _ sched ht hpc =>
    have howes := h.setups t (List.mem_of_getElem? ht)
    rw [hpc] at howes
    exact ⟨forall_mem_set h.setups howes, h.scheds⟩
  | scheduleSome ht hpc =>
    have howes := h.setups _ (List.mem_of_getElem? ht)
    rw [hpc] at howes; cases howes
  | schedDone hu => exact ⟨h.setups, forall_mem_set h.scheds (by dsimp only; split <;> simp)⟩
  | schedNotify hu => exact ⟨h.setups, forall_mem_set h.scheds (by simp)⟩
  | startCalled ht | startAccepted ht | checkConnected ht | dropRefused ht | dropSched ht =>
    exact ⟨forall_mem_set h.setups (by dsimp only; split <;> rfl), h.scheds⟩
  | reject ht | acquire ht | noBudget ht | reserveOk ht | reserveErr ht | adapt ht | failDialing ht
  | failProtocols ht | wired ht | lockActive ht | checkRefused ht | checkAdmitted ht | dropUnwinding ht
  | notifySched ht | scheduleNone ht | finish ht | finishAwaiting ht =>
    exact ⟨forall_mem_set h.setups rfl, h.scheds⟩
  | attach | disconnect | recover | noRecovery | claim | claimNone | cancel | register | finalize | remove
  | removeNone | notifyDrain | beginShutdown | enableOnConnect | takeId => exact ⟨h.setups, h.scheds⟩

/-- Shut down for good, with nothing in `active` or to be scheduled. -/
structure Drained (s : State) : Prop where
  sealed : Sealed s
  empty : s.active.keys = ∅
  unscheduled : Unscheduled s

theorem StepR.drained (hs : StepR cfg s a s') (h : Drained s) : Drained s' :=
  ⟨hs.sealed h.sealed, hs.sealed_empty h.sealed h.empty, hs.unscheduled h.sealed h.unscheduled⟩

/-! ## The disconnects of a fan-out -/

/-- A disconnect that has not been polled is polled or dropped by its own
steps only. -/
theorem StepR.called_kept (hs : StepR cfg s a s') {j : Nat} {d : Disc} (hd : s.discs[j]? = some d)
    (hpc : d.pc = .called) : s'.discs[j]? = some d ∨ a = .cancel j ∨ a = .claim j := by
  obtain ⟨p, hd', hp⟩ := hs.disc_move hd
  rcases hp with rfl | hmove
  · exact .inl hd'
  · rw [hpc] at hmove
    cases hmove with
    | claim => exact .inr (.inr rfl)
    | claimNone => exact .inr (.inr rfl)
    | cancel => exact .inr (.inl rfl)

/-- A connection whose disconnect is polled is claimed then, at the latest. -/
theorem StepR.claim_claims (hs : StepR cfg s a s') {j : Nat} {d : Disc} {c c' : Connection}
    (hd : s.discs[j]? = some d) (hany : d.connId = none) (ha : a = .claim j)
    (hc : s.active.lookup d.addr = some c) (hc' : s'.active.lookup d.addr = some c') (hn : c.disconnecting = false) :
    c'.disconnecting = true := by
  subst ha
  cases hs with
  | claim he hpc hl hcl =>
    rw [hd] at he; cases he
    obtain ⟨x, hA, -, -, -, rfl⟩ := claimDisconnect_some hcl
    rw [Table.lookup_insert, if_pos rfl] at hc'
    cases hc'
    rfl
  | claimNone he hpc hl hcl =>
    rw [hd] at he; cases he
    rw [hany] at hcl
    have := claimDisconnect_none hcl hc
    rw [hn] at this; cases this

end Pea2Pea
