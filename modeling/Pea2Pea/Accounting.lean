/-
The limits in every reachable state of the lifecycle.

An IP is charged once for each open guard and once for each entry of
`active` with one of its addresses: the charge is made with the guard,
passes to the entry when `add` completes the guard, and is released by the
guard's drop or by the finalizer, whichever has it. So a bucket is never
missing when a charge is released, and admission, which checks the charge
and the two collections under one lock, bounds both for good.
-/
import Pea2Pea.Ledger

namespace Pea2Pea

open Pool

/-- The setup has a charge of its own: its guard is alive and not completed. -/
def Setup.charges (t : Setup) (ip : IpAddr) : Bool := t.pc.guard == some false && canonicalIp t.addr == ip

/-- The number of live guards that are not completed, of an IP. -/
def openGuards (setups : List Setup) (ip : IpAddr) : Nat := setups.countP (·.charges ip)

/-- The number of established connections of an IP. -/
def connectedFrom (active : Active) (ip : IpAddr) : Nat := Table.count (fun a => canonicalIp a == ip) active

theorem Setup.charges_of_guard {t : Setup} (hg : t.pc.guard = some false) (ip : IpAddr) :
    t.charges ip = (canonicalIp t.addr == ip) := by
  simp [charges, hg]

theorem Setup.not_charges {t : Setup} (hg : t.pc.guard ≠ some false) (ip : IpAddr) : t.charges ip = false := by
  simp [charges, hg]

/-! ## The accounting -/

/-- The charges are exact, over the parts of the state they are about. -/
structure Accounting (limits : ConnectionLimits) (active : Active) (setups : List Setup)
    (failures : List Assertion) : Prop where
  exact : ∀ ip, limits.charge ip = openGuards setups ip + connectedFrom active ip
  buckets : limits.NoEmptyBucket
  safe : ∀ ip, .ipUnderflow ip ∉ failures

namespace Accounting

variable {l : ConnectionLimits} {A : Active} {S : List Setup} {F : List Assertion} {i : Nat} {x y : Setup}

theorem init : Accounting ⟨∅, ∅⟩ ∅ [] [] where
  exact ip := by simp [ConnectionLimits.charge, openGuards, connectedFrom, Table.count_empty]
  buckets ip := by simp
  safe ip := by simp

/-- A setup whose charge stays may move on. -/
theorem setup_step (h : Accounting l A S F) (hx : S[i]? = some x) (hc : ∀ ip, y.charges ip = x.charges ip) :
    Accounting l A (S.set i y) F where
  exact ip := by rw [openGuards, countP_set_same hx (hc ip)]; exact h.exact ip
  buckets := h.buckets
  safe := h.safe

theorem spawn (h : Accounting l A S F) (hy : y.pc.guard ≠ some false) : Accounting l A (S ++ [y]) F where
  exact ip := by simpa [openGuards, List.countP_append, y.not_charges hy] using h.exact ip
  buckets := h.buckets
  safe := h.safe

/-- A reservation charges its IP once, for the new guard. -/
theorem reserve (h : Accounting l A S F) (hx : S[i]? = some x) (hxg : x.pc.guard = none)
    (hyg : y.pc.guard = some false) : Accounting (l.reserve y.addr) A (S.set i y) F where
  exact ip := by
    have hc := countP_set (y := y) (p := (·.charges ip)) hx
    simp only [x.not_charges (by simp [hxg]) ip, y.charges_of_guard hyg ip, beq_iff_eq] at hc
    have := h.exact ip
    simp only [l.charge_reserve, openGuards, Bool.false_eq_true, if_false] at this hc ⊢
    omega
  buckets := h.buckets.reserve _
  safe := h.safe

/-- `add` hands the guard's charge to the entry it inserts. -/
theorem insert {c : Connection} (h : Accounting l A S F) (hx : S[i]? = some x) (hxg : x.pc.guard = some false)
    (hyg : y.pc.guard = some true) (hA : A.lookup x.addr = none) :
    Accounting l (A.insert x.addr c) (S.set i y) F where
  exact ip := by
    have hc := countP_set (y := y) (p := (·.charges ip)) hx
    simp only [y.not_charges (by simp [hyg]) ip, x.charges_of_guard hxg ip] at hc
    have := h.exact ip
    simp only [openGuards, connectedFrom, Table.count_insert_new hA] at this ⊢
    simp only [Bool.false_eq_true, if_false] at hc
    omega
  buckets := h.buckets
  safe := h.safe

/-- An entry that is replaced at its own address keeps its charge. -/
theorem update {a : SocketAddr} {c c' : Connection} (h : Accounting l A S F) (hA : A.lookup a = some c) :
    Accounting l (A.insert a c') S F where
  exact ip := by rw [connectedFrom, Table.count_insert_old hA]; exact h.exact ip
  buckets := h.buckets
  safe := h.safe

/-- Releasing a charge somebody had: the rest stays exact. -/
theorem release {A' : Active} {S' : List Setup} {a : SocketAddr} (h : Accounting l A S F)
    (hless : ∀ ip, openGuards S' ip + connectedFrom A' ip + (if canonicalIp a = ip then 1 else 0) =
      openGuards S ip + connectedFrom A ip) :
    Accounting (l.releaseIp a).1 A' S' (F ++ (l.releaseIp a).2) := by
  have hpos : 0 < l.charge (canonicalIp a) := by
    have := hless (canonicalIp a)
    rw [← h.exact, if_pos rfl] at this
    omega
  obtain ⟨hnone, hrel⟩ := ConnectionLimits.releaseIp_charged hpos
  exact
    { exact := fun ip => by
        have h₁ := hless ip
        have h₂ := hrel ip
        have h₃ := h.exact ip
        omega
      buckets := h.buckets.releaseIp a
      safe := by rw [hnone, List.append_nil]; exact h.safe }

/-- `connecting` carries no charge. -/
theorem of_ipCounts {l' : ConnectionLimits} (h : Accounting l A S F) (hl : l'.ipCounts = l.ipCounts) :
    Accounting l' A S F where
  exact ip := by rw [ConnectionLimits.charge, hl]; exact h.exact ip
  buckets ip := by rw [hl]; exact h.buckets ip
  safe := h.safe

/-- A guard dropped before it was completed releases its own charge. -/
theorem dropOpen (h : Accounting l A S F) (hx : S[i]? = some x) (hxg : x.pc.guard = some false)
    (hyg : y.pc.guard = none) :
    Accounting (l.dropGuard x.addr false).1 A (S.set i y) (F ++ (l.dropGuard x.addr false).2) := by
  refine release (h.of_ipCounts rfl) fun ip => ?_
  have hc := countP_set (y := y) (p := (·.charges ip)) hx
  simp only [y.not_charges (by simp [hyg]) ip, x.charges_of_guard hxg ip, beq_iff_eq] at hc
  simp only [openGuards]
  simp only [Bool.false_eq_true, if_false] at hc
  omega

/-- The drop of a completed guard releases nothing. -/
theorem dropCompleted (h : Accounting l A S F) (hx : S[i]? = some x) (hxg : x.pc.guard = some true)
    (hyg : y.pc.guard = none) :
    Accounting (l.dropGuard x.addr true).1 A (S.set i y) (F ++ (l.dropGuard x.addr true).2) := by
  have hs : Accounting l A (S.set i y) F := h.setup_step hx fun ip => by
    rw [y.not_charges (by simp [hyg]), x.not_charges (by simp [hxg])]
  have hl : (l.dropGuard x.addr true).1.ipCounts = l.ipCounts := rfl
  simpa [ConnectionLimits.dropGuard] using hs.of_ipCounts hl

/-- The finalizer releases the charge of the entry it removes. -/
theorem remove {a : SocketAddr} {c : Connection} (h : Accounting l A S F) (hA : A.lookup a = some c) :
    Accounting (l.releaseIp a).1 (A.erase a) S (F ++ (l.releaseIp a).2) := by
  refine h.release fun ip => ?_
  have := Table.count_erase (p := fun b => canonicalIp b == ip) hA
  simp only [connectedFrom, beq_iff_eq] at this ⊢
  omega

end Accounting

theorem StepR.accounting {cfg : NodeConfig} {s s' : State} {a : Act} (hL : LedgerOK s)
    (h : Accounting s.limits s.active s.setups s.failures) (hs : StepR cfg s a s') :
    Accounting s'.limits s'.active s'.setups s'.failures := by
  have goto : ∀ {i t p}, s.setups[i]? = some t → p.guard = t.pc.guard →
      Accounting s.limits s.active (s.setups.set i { t with pc := p }) s.failures := fun ht hg =>
    h.setup_step ht fun ip => by simp only [Setup.charges, hg]
  cases hs with
  | connect => exact h.spawn (by simp [SetupPc.guard])
  | accept => exact h.spawn (by simp [SetupPc.guard])
  | startCalled ht hpc => cases s.flag <;> exact goto ht (by rw [hpc]; rfl)
  | startAccepted ht hpc => cases s.flag <;> exact goto ht (by rw [hpc]; rfl)
  | reject ht hpc => rcases hpc with hpc | hpc <;> exact goto ht (by rw [hpc]; rfl)
  | checkConnected ht hpc => split <;> exact goto ht (by rw [hpc]; rfl)
  | acquire ht hpc => exact goto ht (by rw [hpc]; rfl)
  | noBudget ht hpc => exact goto ht (by rw [hpc]; rfl)
  | @reserveOk _ t _ ht hpc hl hr =>
    obtain ⟨-, -, -, -, -, rfl⟩ := checkAndReserve_ok hr
    exact h.reserve (y := { t with pc := .dialing }) ht (by rw [hpc]; rfl) rfl
  | reserveErr ht hpc => exact goto ht (by rw [hpc]; rfl)
  | adapt ht hpc => exact goto ht (by rw [hpc]; rfl)
  | failDialing ht hpc => exact goto ht (by rw [hpc]; rfl)
  | failProtocols ht hpc => exact goto ht (by rw [hpc]; rfl)
  | wired ht hpc => exact goto ht (by rw [hpc]; rfl)
  | lockActive ht hpc => exact goto ht (by rw [hpc]; rfl)
  | checkRefused ht hpc => exact goto ht (by rw [hpc]; rfl)
  | checkAdmitted ht hpc => exact goto ht (by rw [hpc]; rfl)
  | insert ht hpc =>
    exact h.insert ht (by rw [hpc]; rfl) rfl (hL.not_connected ht (by simp [Setup.openAddr, hpc, SetupPc.guard]))
  | @dropRefused _ _ _ sched ht hpc => cases sched <;> exact h.dropOpen ht (by rw [hpc]; rfl) rfl
  | dropUnwinding ht hpc => exact h.dropOpen ht (by rw [hpc]; rfl) rfl
  | dropInserted ht hpc => exact h.dropCompleted ht (by rw [hpc]; rfl) rfl
  | dropSched ht hpc => split <;> exact goto ht (by rw [hpc]; rfl)
  | notifySched ht hpc => exact goto ht (by rw [hpc]; rfl)
  | scheduleSome ht hpc => exact goto ht (by rw [hpc]; rfl)
  | scheduleNone ht hpc => exact goto ht (by rw [hpc]; rfl)
  | finish ht hpc => exact goto ht (by rw [hpc]; rfl)
  | finishAwaiting ht hpc => exact goto ht (by rw [hpc]; rfl)
  | @attach _ t handle _ _ _ =>
    rcases attachHandle_cases s.active t.addr t.id handle with ha | ⟨c, hA, -, ha⟩
    · rw [ha]; exact h
    · rw [ha]; exact h.update hA
  | claim hd hpc hl hc =>
    obtain ⟨c, hA, -, -, -, rfl⟩ := claimDisconnect_some hc
    exact h.update hA
  | register hd hpc hl =>
    obtain ⟨c, hA, -, -⟩ := hL.fin _ (List.mem_of_getElem? hd) _ (by rw [hpc]; rfl)
    simp only [registerHandle, hA, List.append_nil]
    exact h.update hA
  | remove hd hpc hl hA => exact h.remove hA
  | removeNone hd hpc hl hA =>
    -- a finalizer's address is in `active`
    obtain ⟨c, hA', -, -⟩ := hL.fin _ (List.mem_of_getElem? hd) _ (by rw [hpc]; rfl)
    rw [hA] at hA'; cases hA'
  | schedDone | schedNotify | disconnect | recover | noRecovery | claimNone | cancel | finalize | notifyDrain
  | beginShutdown | enableOnConnect | takeId => exact h

theorem accounting_reachable {cfg : NodeConfig} {s : State} (h : (lifecycle cfg).Reachable s) :
    Accounting s.limits s.active s.setups s.failures :=
  h.invariant Accounting.init fun hr ha _ hs => (step_sound hs).accounting (ledgerOK_reachable hr) ha

/-! ## The limits -/

/-- What admission bounds. -/
structure WithinLimits (cfg : Config) (limits : ConnectionLimits) (active : Active) : Prop where
  total : (active.keys ∪ limits.connecting).card ≤ cfg.maxConnections
  perIp : ∀ ip, limits.charge ip ≤ cfg.maxConnectionsPerIp

namespace WithinLimits

variable {cfg : Config} {l l' : ConnectionLimits} {A A' : Active}

/-- Fewer addresses and lower charges stay within the limits. -/
theorem mono (h : WithinLimits cfg l A) (hk : A'.keys ∪ l'.connecting ⊆ A.keys ∪ l.connecting)
    (hc : ∀ ip, l'.charge ip ≤ l.charge ip) : WithinLimits cfg l' A' where
  total := (Finset.card_le_card hk).trans h.total
  perIp ip := (hc ip).trans (h.perIp ip)

/-- An entry that is replaced at its own address changes no number. -/
theorem update {a : SocketAddr} {c c' : Connection} (h : WithinLimits cfg l A) (hA : A.lookup a = some c) :
    WithinLimits cfg l (A.insert a c') :=
  h.mono (by rw [Table.keys_insert_of_lookup hA]) fun _ => le_rfl

theorem reserve {addr : SocketAddr} (h : WithinLimits cfg l A) (hr : checkAndReserve cfg A l addr = .ok l') :
    WithinLimits cfg l' A := by
  obtain ⟨-, hip, -, htotal, -, rfl⟩ := checkAndReserve_ok hr
  refine ⟨?_, fun ip => ?_⟩
  · calc (A.keys ∪ insert addr l.connecting).card
        ≤ A.keys.card + (insert addr l.connecting).card := Finset.card_union_le _ _
      _ ≤ A.keys.card + (l.connecting.card + 1) := Nat.add_le_add_left (Finset.card_insert_le _ _) _
      _ ≤ cfg.maxConnections := htotal
  · rw [l.charge_reserve]
    split
    next heq => rw [← heq]; exact hip
    · exact h.perIp ip

end WithinLimits

theorem StepR.withinLimits {cfg : NodeConfig} {s s' : State} {a : Act} (hL : LedgerOK s)
    (h : WithinLimits cfg.toConfig s.limits s.active) (hs : StepR cfg s a s') :
    WithinLimits cfg.toConfig s'.limits s'.active := by
  cases hs with
  | reserveOk ht hpc hl hr => exact h.reserve hr
  | @insert _ t _ _ _ _ ht hpc =>
    -- the setup's own guard has its address in `connecting`
    have hc : t.addr ∈ s.limits.connecting :=
      (hL.connecting _).mpr (.of_getElem? ht (by simp [Setup.guardAddr, hpc, SetupPc.guard]))
    refine h.mono ?_ fun _ => le_rfl
    rw [Table.keys_insert]
    intro b hb
    simp only [Finset.mem_union, Finset.mem_insert] at hb ⊢
    rcases hb with (rfl | hb) | hb
    · exact .inr hc
    · exact .inl hb
    · exact .inr hb
  | dropRefused | dropUnwinding | dropInserted =>
    refine h.mono ?_ (s.limits.charge_dropGuard_le _ _)
    simp only [State.dropGuard, State.goto, ConnectionLimits.dropGuard_connecting]
    exact Finset.union_subset_union_right (Finset.erase_subset _ _)
  | @attach _ t handle _ _ _ =>
    rcases attachHandle_cases s.active t.addr t.id handle with ha | ⟨c, hA, -, ha⟩
    · rw [ha]; exact h
    · rw [ha]; exact h.update hA
  | claim hd hpc hl hc =>
    obtain ⟨c, hA, -, -, -, rfl⟩ := claimDisconnect_some hc
    exact h.update hA
  | register hd hpc hl =>
    obtain ⟨c, hA, -, -⟩ := hL.fin _ (List.mem_of_getElem? hd) _ (by rw [hpc]; rfl)
    simp only [registerHandle, hA]
    exact h.update hA
  | remove | removeNone =>
    refine h.mono ?_ (s.limits.charge_releaseIp_le _)
    simp only [State.removeConn, State.discGoto, ConnectionLimits.releaseIp_connecting, Finmap.keys_erase]
    exact Finset.union_subset_union_left (Finset.erase_subset _ _)
  | connect | accept | startCalled | startAccepted | reject | checkConnected | acquire | noBudget | reserveErr
  | adapt | failDialing | failProtocols | wired | lockActive | checkRefused | checkAdmitted | dropSched | notifySched
  | scheduleSome | scheduleNone | finish | finishAwaiting | schedDone | schedNotify | disconnect | recover
  | noRecovery | claimNone | cancel | finalize | notifyDrain | beginShutdown | enableOnConnect | takeId => exact h

theorem withinLimits_reachable {cfg : NodeConfig} {s : State} (h : (lifecycle cfg).Reachable s) :
    WithinLimits cfg.toConfig s.limits s.active :=
  h.invariant ⟨by simp [lifecycle, State.init], fun ip => by simp [lifecycle, State.init, ConnectionLimits.charge]⟩
    fun hr hw _ hs => (step_sound hs).withinLimits (ledgerOK_reachable hr) hw

/-! ## Over whole runs -/

/-- One connection established, its completed guard still to drop; another
of the same IP reserved. -/
def oneEachWay : List Act :=
  [.connect peer, .start 0, .checkConnected 0, .acquire 0, .reserve 0, .adapt 0, .wired 0, .lockActive 0, .checkFlag 0,
    .insert 0 [], .accept mappedPeer, .start 1, .reserve 1]

/-- Per-IP accounting is exact: an IP's count is the number of its open
guards and established connections, no bucket holds zero, and no charge was
ever released without a bucket. -/
theorem ipCounts_exact (cfg : NodeConfig) (s : State) (h : (lifecycle cfg).Reachable s) :
    (∀ ip, (s.limits.ipCounts.lookup ip).getD 0 = openGuards s.setups ip + connectedFrom s.active ip) ∧
      (∀ ip, s.limits.ipCounts.lookup ip ≠ some 0) ∧ ∀ ip, .ipUnderflow ip ∉ s.failures :=
  have ha := accounting_reachable h
  ⟨ha.exact, ha.buckets, ha.safe⟩

theorem ipCounts_exact_oneEachWay : ∃ s, (lifecycle threeSlots).Reachable s ∧
    openGuards s.setups (canonicalIp peer) = 1 ∧ connectedFrom s.active (canonicalIp peer) = 1 ∧
    (s.limits.ipCounts.lookup (canonicalIp peer)).getD 0 = 2 := by
  obtain ⟨s, hs, hp⟩ := (lifecycle threeSlots).exists_reachable oneEachWay
    (fun s => openGuards s.setups (canonicalIp peer) = 1 ∧ connectedFrom s.active (canonicalIp peer) = 1)
    (by decide +kernel)
  obtain ⟨hg, hc⟩ := of_decide_eq_true hp
  exact ⟨s, hs, hg, hc, by rw [(ipCounts_exact threeSlots s hs).1, hg, hc]⟩

/-- The limits are never breached, whatever is connecting and connected. -/
theorem limits_respected (cfg : NodeConfig) (s : State) (h : (lifecycle cfg).Reachable s) :
    (s.active.keys ∪ s.limits.connecting).card ≤ cfg.maxConnections ∧ s.active.size ≤ cfg.maxConnections ∧
      ∀ ip, connectedFrom s.active ip + openGuards s.setups ip ≤ cfg.maxConnectionsPerIp := by
  have hw := withinLimits_reachable h
  refine ⟨hw.total, (Finset.card_le_card Finset.subset_union_left).trans hw.total, fun ip => ?_⟩
  rw [Nat.add_comm, ← (accounting_reachable h).exact ip]
  exact hw.perIp ip

theorem limits_respected_oneEachWay : ∃ s, (lifecycle threeSlots).Reachable s ∧
    s.active.size = 1 ∧ s.limits.connecting.card = 2 ∧
    (s.active.keys ∪ s.limits.connecting).card ≤ threeSlots.maxConnections := by
  obtain ⟨s, hs, hp⟩ := (lifecycle threeSlots).exists_reachable oneEachWay
    (fun s => s.active.size = 1 ∧ s.limits.connecting.card = 2) (by decide +kernel)
  obtain ⟨ha, hc⟩ := of_decide_eq_true hp
  exact ⟨s, hs, ha, hc, (limits_respected threeSlots s hs).1⟩

/-! ## Rejections -/

/-- An address that is connected and connecting is that of a completed guard
that is left to drop. -/
theorem LedgerOK.overlap {s : State} (hL : LedgerOK s) {a : SocketAddr} (hactive : a ∈ s.active.keys)
    (hconn : a ∈ s.limits.connecting) : ∃ t ∈ s.setups, t.addr = a ∧ t.pc.guard = some true := by
  obtain ⟨t, ht, hg⟩ := (hL.connecting a).mp hconn
  obtain ⟨completed, hpc, haddr⟩ := Option.map_eq_some_iff.mp hg
  cases completed with
  | true => exact ⟨t, ht, haddr, hpc⟩
  | false =>
    have hopen : t.openAddr = some a := by rw [Setup.openAddr, if_pos hpc, haddr]
    exact absurd hactive (Table.notMem_keys (hL.fresh a ⟨t, ht, hopen⟩))

/-- A rejection on the global limit is right exactly if no more addresses are
counted twice than the sum exceeds the limit by (none, for instance). Those
are addresses of an `add` that has inserted its connection and not dropped
its guard yet. -/
theorem rejection_not_spurious (cfg : NodeConfig) (s : State) (h : (lifecycle cfg).Reachable s) (addr : SocketAddr)
    (he : checkAndReserve cfg.toConfig s.active s.limits addr = .error (maxConnectionsError cfg.toConfig)) :
    (cfg.maxConnections ≤ (s.active.keys ∪ s.limits.connecting).card ↔
      (s.active.keys ∩ s.limits.connecting).card ≤ s.active.size + s.limits.connecting.card - cfg.maxConnections) ∧
    ∀ a ∈ s.active.keys ∩ s.limits.connecting, ∃ t ∈ s.setups, t.addr = a ∧ t.pc.guard = some true := by
  have hsum := (checkAndReserve_full_iff.mp he).2.2.2
  have hunion := Finset.card_union_add_card_inter s.active.keys s.limits.connecting
  refine ⟨?_, fun a ha => ?_⟩
  · rw [Table.size] at hsum ⊢
    omega
  · obtain ⟨hactive, hconn⟩ := Finset.mem_inter.mp ha
    exact (ledgerOK_reachable h).overlap hactive hconn

/-- A node for two connections. -/
def twoSlots : NodeConfig where
  listenerAddr := none
  maxConnections := 2
  maxConnectionsPerIp := 2
  maxConnecting := 2
  maxConnections_pos := Nat.two_pos
  maxConnectionsPerIp_pos := Nat.two_pos
  maxConnecting_pos := Nat.two_pos
  maxConnecting_le := by decide

/-- A peer of another host. -/
def otherPeer : SocketAddr := .v4 0x7f000002#32 4130#16

/-- `peer` inserted into `active`, its completed guard not dropped. -/
def insertedPeer : List Act :=
  [.connect peer, .start 0, .checkConnected 0, .acquire 0, .reserve 0, .adapt 0, .wired 0, .lockActive 0,
    .checkFlag 0, .insert 0 []]

theorem rejection_not_spurious_full : ∃ s, (lifecycle twoSlots).Reachable s ∧
    checkAndReserve twoSlots.toConfig s.active s.limits otherPeer = .error (maxConnectionsError twoSlots.toConfig) ∧
    twoSlots.maxConnections ≤ (s.active.keys ∪ s.limits.connecting).card := by
  obtain ⟨s, hs, hp⟩ := (lifecycle twoSlots).exists_reachable
    (insertedPeer ++ [.dropGuard 0, .schedule 0, .finish 0, .accept mappedPeer, .start 1, .reserve 1])
    (fun s => s.active.keys ∩ s.limits.connecting = ∅ ∧ otherPeer ∉ s.active.keys ∧
      s.limits.ipCount otherPeer < 2 ∧ s.limits.connecting.card < 2 ∧ 2 ≤ s.active.size + s.limits.connecting.card)
    (by decide +kernel)
  obtain ⟨hnone, hfull⟩ := of_decide_eq_true hp
  have he : checkAndReserve twoSlots.toConfig s.active s.limits otherPeer = _ := checkAndReserve_full_iff.mpr hfull
  refine ⟨s, hs, he, (rejection_not_spurious twoSlots s hs otherPeer he).1.mpr ?_⟩
  rw [hnone]
  exact Nat.zero_le _

/-- `peer` is in `active` and in `connecting`, and `otherPeer` is rejected:
the limit is two, the only address is `peer`. -/
theorem spurious_rejection : ¬ ∀ s, (lifecycle twoSlots).Reachable s → ∀ addr,
    checkAndReserve twoSlots.toConfig s.active s.limits addr = .error (maxConnectionsError twoSlots.toConfig) →
    twoSlots.maxConnections ≤ (s.active.keys ∪ s.limits.connecting).card := by
  intro hnone
  obtain ⟨s, hs, hp⟩ := (lifecycle twoSlots).exists_reachable insertedPeer
    (fun s => (otherPeer ∉ s.active.keys ∧ s.limits.ipCount otherPeer < 2 ∧ s.limits.connecting.card < 2 ∧
      2 ≤ s.active.size + s.limits.connecting.card) ∧ (s.active.keys ∪ s.limits.connecting).card = 1)
    (by decide +kernel)
  obtain ⟨hfull, hone⟩ := of_decide_eq_true hp
  have hle := hnone s hs otherPeer (checkAndReserve_full_iff.mpr hfull)
  rw [hone] at hle
  exact absurd hle (by decide)

end Pea2Pea
