/-
The connection-setup budget (`connecting_permits`) against the addresses in
`connecting`.

A permit is with one setup from the moment it is taken until the setup is
over, and a guard is alive only in between. An address is in `connecting`
for as long as some guard is alive for it, so there are never more of them
than permits held; and a setup that is about to reserve has a permit and no
guard, so there is one less.
-/
import Pea2Pea.Ledger

namespace Pea2Pea

open Pool

/-! ## Permits -/

/-- The setup has a permit. -/
def SetupPc.permit : SetupPc → Bool
  | .called | .resolving | .unconnected | .done _ => false
  | _ => true

/-- The number of permits held. -/
def heldPermits (setups : List Setup) : Nat := setups.countP (·.pc.permit)

/-- A permit is left, or held by a setup. -/
def BudgetOK (cfg : NodeConfig) (s : State) : Prop := heldPermits s.setups + s.permits = cfg.maxConnecting

theorem StepR.budgetOK {cfg : NodeConfig} {s s' : State} {a : Act} (h : BudgetOK cfg s) (hs : StepR cfg s a s') :
    BudgetOK cfg s' := by
  unfold BudgetOK at h ⊢
  -- a setup that keeps what it has
  have goto : ∀ {i t p}, s.setups[i]? = some t → p.permit = t.pc.permit →
      heldPermits (s.setups.set i { t with pc := p }) + s.permits = cfg.maxConnecting := by
    intro i t p ht hp
    rw [heldPermits, countP_set_same ht hp]
    exact h
  have held : ∀ {i t p}, s.setups[i]? = some t → heldPermits (s.setups.set i { t with pc := p }) +
      (if t.pc.permit then 1 else 0) = heldPermits s.setups + if p.permit then 1 else 0 :=
    fun ht => countP_set ht
  have finish : ∀ {i t p}, s.setups[i]? = some t → t.pc.permit = true → p.permit = false →
      heldPermits (s.setups.set i { t with pc := p }) + (s.permits + 1) = cfg.maxConnecting := by
    intro i t p ht hpt hp
    have hc := held ht (p := p)
    simp only [hpt, hp, if_true, Bool.false_eq_true, if_false] at hc
    omega
  cases hs with
  | connect => simpa [heldPermits, List.countP_append, SetupPc.permit] using h
  | accept hp =>
    simp only [heldPermits, List.countP_append, List.countP_singleton, SetupPc.permit, if_true] at h ⊢
    omega
  | acquire ht hpc hp =>
    have hc := held ht (p := .permitted)
    rw [show SetupPc.permit .permitted = true from rfl, hpc, show SetupPc.permit .unconnected = false from rfl] at hc
    simp only [if_true, Bool.false_eq_true, if_false] at hc
    dsimp only [State.goto]
    omega
  | finish ht hpc => exact finish ht (by rw [hpc]; rfl) rfl
  | finishAwaiting ht hpc => exact finish ht (by rw [hpc]; rfl) rfl
  | reject ht hpc => rcases hpc with hpc | hpc <;> exact goto ht (by rw [hpc]; rfl)
  | startCalled ht hpc | startAccepted ht hpc | checkConnected ht hpc | dropRefused ht hpc | dropSched ht hpc =>
    refine goto ht ?_
    split <;> rw [hpc] <;> rfl
  | noBudget ht hpc | reserveOk ht hpc | reserveErr ht hpc | adapt ht hpc | failDialing ht hpc
  | failProtocols ht hpc | wired ht hpc | lockActive ht hpc | checkRefused ht hpc | checkAdmitted ht hpc
  | insert ht hpc | dropUnwinding ht hpc | dropInserted ht hpc | notifySched ht hpc | scheduleSome ht hpc
  | scheduleNone ht hpc => exact goto ht (by rw [hpc]; rfl)
  | _ => exact h

theorem budgetOK_reachable {cfg : NodeConfig} {s : State} (h : (lifecycle cfg).Reachable s) : BudgetOK cfg s :=
  h.invariant (by simp [BudgetOK, heldPermits, lifecycle, State.init]) fun _ ho _ hs => (step_sound hs).budgetOK ho

/-! ## Guards within permits -/

theorem SetupPc.permit_of_guard {pc : SetupPc} (h : pc.guard.isSome = true) : pc.permit = true := by
  cases pc <;> first | rfl | cases h

/-- Each address in `connecting` has a guard of its own. -/
theorem LedgerOK.connecting_le {s : State} (hL : LedgerOK s) :
    s.limits.connecting.card ≤ s.setups.countP (·.pc.guard.isSome) := by
  have hsub : s.limits.connecting ⊆ (s.setups.filterMap Setup.guardAddr).toFinset := by
    intro a ha
    obtain ⟨t, ht, hg⟩ := (hL.connecting a).mp ha
    exact List.mem_toFinset.mpr (List.mem_filterMap.mpr ⟨t, ht, hg⟩)
  calc s.limits.connecting.card
      ≤ (s.setups.filterMap Setup.guardAddr).toFinset.card := Finset.card_le_card hsub
    _ ≤ (s.setups.filterMap Setup.guardAddr).length := List.toFinset_card_le _
    _ = s.setups.countP (·.pc.guard.isSome) := by
      rw [List.length_filterMap_eq_countP]
      exact List.countP_congr fun t _ => by simp [Setup.guardAddr]

/-- The permits are with the setups that have a guard, and with others. -/
theorem heldPermits_eq (setups : List Setup) :
    heldPermits setups =
      setups.countP (·.pc.guard.isSome) + setups.countP (fun t => t.pc.permit && t.pc.guard.isNone) := by
  induction setups with
  | nil => rfl
  | cons t setups ih =>
    rw [heldPermits] at ih
    rw [heldPermits, List.countP_cons, List.countP_cons, List.countP_cons, ih]
    cases hg : t.pc.guard with
    | none => simp; omega
    | some b =>
      have hp := SetupPc.permit_of_guard (by rw [hg]; rfl : t.pc.guard.isSome = true)
      simp [hp]
      omega

/-! ## Over whole runs -/

/-- `check_and_reserve`'s error when `max_connecting` is reached. -/
def maxConnectingError (cfg : Config) : IoError :=
  ⟨.quotaExceeded, "maximum number (" ++ toString cfg.maxConnecting ++ ") of pending connections reached"⟩

/-- A reservation is refused for the pending connections only where their
limit is reached. -/
theorem checkAndReserve_pending {cfg : Config} {active : Active} {limits : ConnectionLimits} {addr : SocketAddr}
    (h : checkAndReserve cfg active limits addr = .error (maxConnectingError cfg)) :
    cfg.maxConnecting ≤ limits.connecting.card := by
  simp only [checkAndReserve, maxConnectingError] at h
  split at h
  · simp at h
  split at h
  · have hmsg := congrArg IoError.msg (Except.error.inj h)
    exact absurd hmsg (append_ne_append 21 (by decide) (by decide) (by decide) _ _)
  split at h
  next hfull => exact hfull
  split at h
  · have hmsg := congrArg IoError.msg (Except.error.inj h)
    exact absurd hmsg (append_ne_append 21 (by decide) (by decide) (by decide) _ _)
  split at h
  · simp at h
  · cases h

/-- The budget is the tighter bound: `connecting` never outgrows the permits
held, and whoever is about to reserve finds a slot left in it. -/
theorem budget_dominates (cfg : NodeConfig) (s : State) (h : (lifecycle cfg).Reachable s) :
    s.limits.connecting.card ≤ heldPermits s.setups ∧ heldPermits s.setups ≤ cfg.maxConnecting ∧
      heldPermits s.setups + s.permits = cfg.maxConnecting ∧
      ∀ (i : Nat) (t : Setup), s.setups[i]? = some t → t.pc = .permitted →
        s.limits.connecting.card ≤ cfg.maxConnecting - 1 ∧
          checkAndReserve cfg.toConfig s.active s.limits t.addr ≠ .error (maxConnectingError cfg.toConfig) := by
  have hB : heldPermits s.setups + s.permits = cfg.maxConnecting := budgetOK_reachable h
  have hle := (ledgerOK_reachable h).connecting_le
  have hsum := heldPermits_eq s.setups
  refine ⟨by omega, by omega, hB, fun i t ht hpc => ?_⟩
  -- the setup's own permit has no guard to it
  have hown : 0 < s.setups.countP (fun t => t.pc.permit && t.pc.guard.isNone) :=
    countP_pos ht (by rw [hpc]; rfl)
  have hpos := cfg.maxConnecting_pos
  refine ⟨by omega, fun he => ?_⟩
  have hfull := checkAndReserve_pending he
  omega

/-- One `connect` has its reservation, and an accepted connection, with the
last permit, is about to make its own. -/
def lastPermit : List Act :=
  [.connect peer, .start 0, .checkConnected 0, .acquire 0, .reserve 0, .accept mappedPeer, .start 1]

theorem budget_dominates_lastPermit : ∃ s, (lifecycle threeSlots).Reachable s ∧
    s.limits.connecting.card = 1 ∧ heldPermits s.setups = 2 ∧ s.permits = 0 ∧
    checkAndReserve threeSlots.toConfig s.active s.limits mappedPeer ≠
      .error (maxConnectingError threeSlots.toConfig) := by
  obtain ⟨s, hs, hp⟩ := (lifecycle threeSlots).exists_reachable lastPermit
    (fun s => s.setups[1]? = some ⟨.responder, mappedPeer, .permitted⟩ ∧ s.limits.connecting.card = 1 ∧
      heldPermits s.setups = 2 ∧ s.permits = 0) (by decide +kernel)
  obtain ⟨ht, hc, hh, hn⟩ := of_decide_eq_true hp
  exact ⟨s, hs, hc, hh, hn, ((budget_dominates threeSlots s hs).2.2.2 1 _ ht rfl).2⟩

end Pea2Pea
