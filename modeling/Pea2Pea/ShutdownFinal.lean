/-
Shutdown over whole runs: it is final, and its drains cannot get stuck.
-/
import Pea2Pea.ShutdownFacts

namespace Pea2Pea.Shutdown

open Pool

/-! ## Shutdown is final -/

theorem StepR.taken_mono {cfg : NodeConfig} {s s' : State} {a : Act} (hs : StepR cfg s a s') (h : s.taken = true) :
    s'.taken = true := by
  cases hs <;> first | exact h | rfl

theorem StepR.returned_mono {cfg : NodeConfig} {s s' : State} {a : Act} (hs : StepR cfg s a s')
    (h : Returned s.shuts) : Returned s'.shuts := by
  have move : ∀ {n u v}, s.shuts[n]? = some u → u.pc ≠ .returned → Returned (s.shuts.set n v) :=
    fun hu hne => exists_mem_set h hu fun hpc => absurd hpc hne
  cases hs with
  | base => exact returned_announce.mpr h
  | shutDown =>
    obtain ⟨v, hv, hpc⟩ := h
    exact ⟨v, List.mem_append_left _ hv, hpc⟩
  | begin hu hpc | takeTasks hu hpc | snapshot hu hpc | fannedOut hu hpc | enableDrain hu hpc | enableSched hu hpc
  | drainEmpty hu hpc | drainPark hu hpc | schedEmpty hu hpc | schedPark hu hpc | wakeDrain hu hpc | wakeSched hu hpc
  | signalHandlers hu hpc | joined hu hpc | expire hu hpc | abortRest hu hpc | clear hu hpc =>
    exact move hu (by rw [hpc]; simp)
  | cancelShut hu hpc => exact move hu fun hret => by rw [hret] at hpc; cases hpc
  | _ => exact h

theorem taken_run {cfg : NodeConfig} {s s' : State} {as : List Act} (h : s.taken = true)
    (hr : (shutdown cfg).run s as = some s') : s'.taken = true :=
  Machine.run_invariant (P := fun s => s.taken = true) (fun ht hs => (step_sound hs).taken_mono ht) h hr

theorem returned_run {cfg : NodeConfig} {s s' : State} {as : List Act} (h : Returned s.shuts)
    (hr : (shutdown cfg).run s as = some s') : Returned s'.shuts :=
  Machine.run_invariant (P := fun s => Returned s.shuts) (fun ht hs => (step_sound hs).returned_mono ht) h hr

/-- Shutdown is final. -/
theorem shutdown_final (cfg : NodeConfig) (s : State) (h : (shutdown cfg).Reachable s) :
    -- no connection enters `active` whose `add` locked it after `begin`
    (∀ i tasks s', step cfg s (.base (.insert i tasks)) = some s' →
      ∃ t id sched, s.base.setups[i]? = some t ∧ t.pc = .admitted id sched false) ∧
    -- no task is registered once a `shut_down` has taken the registry
    (s.taken = true → (∀ c, step cfg s (.registerTask c) = none) ∧
      ∀ as s', (shutdown cfg).run s as = some s' → s'.registry = ∅) ∧
    -- once a `shut_down` has returned, nothing is left and nothing comes back
    ((∃ u ∈ s.shuts, u.pc = .returned) → ∀ as s', (shutdown cfg).run s as = some s' →
      s'.base.active.keys = ∅ ∧ s'.registry = ∅ ∧ s'.listening = none) := by
  refine ⟨fun i tasks s' hs => ?_, fun ht => ⟨fun c => ?_, fun as s' hr => ?_⟩, fun hret as s' hr => ?_⟩
  · cases step_sound hs with
    | base hb =>
      cases Pea2Pea.step_sound hb with
      | @insert _ t id sched begun _ hset hpc =>
        have hA := admissionOK_reachable ((projects cfg).reachable h)
        have hb := hA.admitted t (List.mem_of_getElem? hset) id sched begun hpc
        exact ⟨t, id, sched, hset, hb ▸ hpc⟩
  · cases hs : step cfg s (.registerTask c) with
    | none => rfl
    | some s' =>
      cases step_sound hs with
      | registerTask hx hpc =>
        have := (registryOK_reachable h).not_taken hx hpc
        rw [ht] at this; cases this
  · exact ((registryOK_reachable (h.run hr)).taken (taken_run ht hr)).2.1
  · obtain ⟨u, hu, hpc⟩ := returned_run hret hr
    have hS := shutsOK_reachable (h.run hr)
    have hR := registryOK_reachable (h.run hr)
    obtain ⟨htaken, hnone, -⟩ := hR.returned ⟨u, hu, hpc⟩
    exact ⟨(hS.progress u hu).empty (by rw [hpc]; rfl), (hR.taken htaken).2.1, hnone⟩

/-- A node that listens, with three slots. -/
def listeningSlots : NodeConfig := { threeSlots with listenerAddr := some peer }

/-- A connection to `peer`, up to the conclusion of its setup. -/
def connected : List Act :=
  ([.connect peer, .start 0, .checkConnected 0, .acquire 0, .reserve 0, .adapt 0, .wired 0, .lockActive 0, .checkFlag 0,
    .insert 0 [], .dropGuard 0, .schedule 0, .finish 0] : List Pea2Pea.Act).map .base

/-- A node with a listener and a connection is shut down; a toggle is caught
in the middle, and another one comes after. -/
def shutListener : List Act := List.flatten
  [[.toggle, .lockListening 0, .bind 0 4130#16, .lockTasks 0, .checkFlag 0, .registerTask 0, .publish 0], connected,
    [.toggle, .lockListening 1, .shutDown, .begin 0, .takeTasks 0, .toggleOff 1, .snapshot 0 [peer], .base (.claim 0),
      .base (.finalize 0), .base (.remove 0), .base (.notifyDrain 0), .fannedOut 0, .enableWaiter 0, .check 0,
      .enableWaiter 0, .check 0, .signalHandlers 0 false, .abortRest 0, .clear 0, .toggle, .lockListening 2,
      .bind 2 4130#16, .lockTasks 2]]

theorem shutdown_final_shutListener : ∃ s, (shutdown listeningSlots).Reachable s ∧
    (∃ u ∈ s.shuts, u.pc = .returned) ∧ s.tasks.map (·.status) = [.aborted, .running] ∧
    ∀ s', (shutdown listeningSlots).run s [.checkFlag 2] = some s' →
      s'.base.active.keys = ∅ ∧ s'.registry = ∅ ∧ s'.listening = none := by
  obtain ⟨s, hs, hp⟩ := (shutdown listeningSlots).exists_reachable shutListener
    (fun s => (∃ u ∈ s.shuts, u.pc = .returned) ∧ s.tasks.map (·.status) = [.aborted, .running]) (by decide +kernel)
  obtain ⟨hret, htasks⟩ := of_decide_eq_true hp
  exact ⟨s, hs, hret, htasks, (shutdown_final listeningSlots s hs).2.2 hret _⟩

/-! ## The drains -/

/-- A parked `shut_down` is not stuck: what it waits for has someone who will
bring it about, or its notification is delivered or pending. -/
theorem drains_not_stuck (cfg : NodeConfig) (s : State) (h : (shutdown cfg).Reachable s) (u : Shut)
    (hu : u ∈ s.shuts) :
    (∀ woken, u.pc = .draining (.parked woken) →
      woken = true ∨ (∃ d ∈ s.base.discs, ∃ id got, d.pc = .removed id got) ∨
      (s.base.active.keys ≠ ∅ ∧ ∀ addr c, s.base.active.lookup addr = some c →
        c.disconnecting = true ∧
        -- one finalizer, for this instance
        ∃ (j : Nat) (d : Disc), s.base.discs[j]? = some d ∧ d.addr = addr ∧ d.pc.finId = some c.id ∧
          ∀ (k : Nat) (e : Disc), s.base.discs[k]? = some e → e.addr = addr → e.pc.finId ≠ none → k = j)) ∧
    ∀ woken, u.pc = .schedDraining (.parked woken) →
      woken = true ∨
      ((∃ t ∈ s.base.setups, t.pc = .notifying) ∨ ∃ t ∈ s.base.scheds, t.pc = .notifying) ∨
      (0 < s.base.schedInFlight ∧ s.base.schedInFlight = liveSchedGuards s.base.setups s.base.scheds) := by
  have hb := (projects cfg).reachable h
  have hP := (shutsOK_reachable h).progress u hu
  have hL := ledgerOK_reachable hb
  refine ⟨fun woken hpc => ?_, fun woken hpc => ?_⟩
  · rcases hP.drain _ hpc with hw | hne | hdue
    · exact .inl hw
    · refine .inr (.inr ⟨hne, fun addr c hc => ?_⟩)
      have hclaimed := hP.claimed _ hpc addr c hc
      obtain ⟨j, d, hd, hfin⟩ := (hL.owner addr c hc hclaimed).position
      obtain ⟨id, hid, rfl⟩ := Option.map_eq_some_iff.mp hfin
      obtain ⟨c', hc', rfl, -⟩ := hL.fin d (List.mem_of_getElem? hd) id hid
      rw [hc] at hc'; cases hc'
      refine ⟨hclaimed, j, d, hd, rfl, hid, fun k e he haddr hne => ?_⟩
      obtain ⟨id', hid'⟩ := Option.ne_none_iff_exists'.mp hne
      exact hL.fins k j e d d.addr he hd (by rw [Disc.finAddr_of_finId hid', haddr]) hfin
    · exact .inr (.inl hdue)
  · rcases hP.sched _ hpc with hw | hne | hdue
    · exact .inl hw
    · exact .inr (.inr ⟨Nat.pos_of_ne_zero hne, schedOK_reachable hb⟩)
    · exact .inr (.inl hdue)

/-- A disconnect has claimed the connection before `shut_down` begins: its
own fan-out comes to nothing, and it waits. -/
def parkedShut : List Act := connected.append
  [.base (.disconnect peer .user none), .base (.claim 0), .shutDown, .begin 0, .takeTasks 0, .snapshot 0 [peer],
    .base (.claim 1), .fannedOut 0, .enableWaiter 0, .check 0]

theorem drains_not_stuck_parkedShut : ∃ s u, (shutdown threeSlots).Reachable s ∧ u ∈ s.shuts ∧
    u.pc = .draining (.parked false) ∧ s.base.active.keys ≠ ∅ ∧
    ∀ addr c, s.base.active.lookup addr = some c → c.disconnecting = true := by
  obtain ⟨s, hs, hp⟩ := (shutdown threeSlots).exists_reachable parkedShut
    (fun s => (∃ u ∈ s.shuts, u.pc = .draining (.parked false)) ∧
      ∀ d ∈ s.base.discs, d.pc = .claimed 0 ∨ d.pc = .done none none)
    (by decide +kernel)
  obtain ⟨⟨u, hu, hpc⟩, hdiscs⟩ := of_decide_eq_true hp
  rcases (drains_not_stuck threeSlots s hs u hu).1 false hpc with hw | ⟨d, hd, id, got, hrem⟩ | ⟨hne, hall⟩
  · cases hw
  · rcases hdiscs d hd with hcl | hdone
    · rw [hrem] at hcl; cases hcl
    · rw [hrem] at hdone; cases hdone
  · exact ⟨s, u, hs, hu, hpc, hne, fun addr c hc => (hall addr c hc).1⟩

end Pea2Pea.Shutdown
