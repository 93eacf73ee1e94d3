/-
The node's connections as a registry (`Lib.Registry`): what `active`, the
reservations and the setups say of an address, put together, is one slot,
and every step of the lifecycle moves at most one slot by one move of its
cycle (`lifecycle_refines`).

The policy of that registry is `check_and_reserve` in the registry's terms
(`verdict`): it counts slots, where the code compares its counters. The two
agree in every reachable state, the error and its text included
(`checkAndReserve_eq`). The registry's theorem about instances is brought
back to the `active` map.
-/
import Pea2Pea.Accounting
import Pea2Pea.Budget
import Pea2Pea.Teardown
import Pea2Pea.Lib.Registry
import Mathlib.Data.Set.Card

namespace Pea2Pea

open Pool Registry

/-! ## The slot of an address -/

/-- What a setup's guard alone says of its address. -/
def SetupPc.slot : SetupPc → Slot
  | .dialing => .reserved
  | .protocols id | .ready id _ | .adding id _ _ | .admitted id _ _ => .opening id
  | .refused _ _ | .unwinding => .doomed
  | .inserted _ _ => .fading
  | _ => .free

/-- The slot as the guard for `a` has it. -/
def guardSlot (setups : List Setup) (a : SocketAddr) : Slot :=
  ((setups.find? fun t => t.guardAddr = some a).map (·.pc.slot)).getD .free

/-- An entry of `active` goes before the guard. -/
def entrySlot (guard : Slot) : Option Connection → Slot
  | none => guard
  | some c => if c.disconnecting then .closing c.id (guard ≠ .free) else .live c.id (guard ≠ .free)

def slotAt (setups : List Setup) (active : Active) (a : SocketAddr) : Slot :=
  entrySlot (guardSlot setups a) (active.lookup a)

/-- The registry a state stands for. -/
def State.registry (s : State) : Registry.State SocketAddr := ⟨slotAt s.setups s.active, s.nextId⟩

section

variable {S : List Setup} {A A' : Active} {i : Nat} {x y : Setup} {a b : SocketAddr}

theorem SetupPc.slot_eq_free {pc : SetupPc} : pc.slot = .free ↔ pc.guard = none := by
  cases pc <;> simp [SetupPc.slot, SetupPc.guard]

theorem Setup.guardAddr_eq_some {t : Setup} : t.guardAddr = some a ↔ t.pc.slot ≠ .free ∧ t.addr = a := by
  rw [Ne, SetupPc.slot_eq_free, Setup.guardAddr]
  cases t.pc.guard <;> simp

/-- The guard for an address is the only one. -/
theorem guardSlot_eq (hu : UniqueBy Setup.guardAddr S) (hx : S[i]? = some x) (ha : x.guardAddr = some a) :
    guardSlot S a = x.pc.slot := by
  cases hf : S.find? fun t => t.guardAddr = some a with
  | none =>
    have := List.find?_eq_none.1 hf x (List.mem_of_getElem? hx)
    simp [ha] at this
  | some z =>
    obtain ⟨j, hj⟩ := List.getElem?_of_mem (List.mem_of_find?_eq_some hf)
    have hz : z.guardAddr = some a := by simpa using List.find?_some hf
    have hij : i = j := hu i j x z a hx hj ha hz
    subst hij
    rw [hx] at hj; cases hj
    rw [guardSlot, hf]
    rfl

theorem guardSlot_eq_free (h : ¬ Owned Setup.guardAddr S a) : guardSlot S a = .free := by
  have hf : (S.find? fun t => t.guardAddr = some a) = none := by
    rw [List.find?_eq_none]
    intro z hz hza
    exact h ⟨z, hz, by simpa using hza⟩
  rw [guardSlot, hf]
  rfl

theorem guardSlot_append (hy : y.guardAddr = none) : guardSlot (S ++ [y]) a = guardSlot S a := by
  rw [guardSlot, List.find?_append]
  simp [guardSlot, hy]

/-- One setup moves: only the slot of its guard's address changes. -/
theorem guardSlot_set (hu : UniqueBy Setup.guardAddr S) (hu' : UniqueBy Setup.guardAddr (S.set i y))
    (hx : S[i]? = some x) (hy : y.addr = x.addr) (b : SocketAddr) :
    guardSlot (S.set i y) b =
      if y.guardAddr = some b ∨ x.guardAddr = some b then y.pc.slot else guardSlot S b := by
  have hyi : (S.set i y)[i]? = some y := by rw [getElem?_set hx, if_pos rfl]
  split
  next h =>
    by_cases hyb : y.guardAddr = some b
    · exact guardSlot_eq hu' hyi hyb
    · -- the guard was dropped
      have hxb : x.guardAddr = some b := h.resolve_left hyb
      have hfree : y.pc.slot = .free := by
        by_contra hne
        exact hyb (Setup.guardAddr_eq_some.2 ⟨hne, hy.trans (Setup.guardAddr_eq_some.1 hxb).2⟩)
      rw [hfree]
      refine guardSlot_eq_free fun ho => ?_
      rcases (owned_set_iff hu hx).1 ho with h₁ | ⟨-, h₁⟩
      · exact hyb h₁
      · exact h₁ hxb
  next h =>
    obtain ⟨hyb, hxb⟩ := not_or.1 h
    by_cases ho : Owned Setup.guardAddr S b
    · obtain ⟨j, z, hj, hz⟩ := ho.position
      have hij : i ≠ j := by
        rintro rfl
        rw [hx] at hj; cases hj
        exact hxb hz
      rw [guardSlot_eq hu hj hz, guardSlot_eq hu' (by rw [getElem?_set hx, if_neg hij]; exact hj) hz]
    · rw [guardSlot_eq_free ho, guardSlot_eq_free]
      intro ho'
      rcases (owned_set_iff hu hx).1 ho' with h₁ | ⟨h₁, -⟩
      · exact hyb h₁
      · exact ho h₁

/-- A setup that moves and says the same of its address. -/
theorem guardSlot_set_same (hu : UniqueBy Setup.guardAddr S) (hu' : UniqueBy Setup.guardAddr (S.set i y))
    (hx : S[i]? = some x) (hy : y.addr = x.addr) (hs : y.pc.slot = x.pc.slot) (b : SocketAddr) :
    guardSlot (S.set i y) b = guardSlot S b := by
  rw [guardSlot_set hu hu' hx hy]
  split
  next h =>
    have hxb : x.guardAddr = some b := by
      rcases h with h | h
      · have := Setup.guardAddr_eq_some.1 h
        exact Setup.guardAddr_eq_some.2 ⟨hs ▸ this.1, hy ▸ this.2⟩
      · exact h
    rw [hs, guardSlot_eq hu hx hxb]
  · rfl

/-! ## One slot moves -/

theorem slotAt_append (hy : y.guardAddr = none) : slotAt (S ++ [y]) A = slotAt S A := by
  funext b
  rw [slotAt, guardSlot_append hy]
  rfl

theorem slotAt_set_same (hu : UniqueBy Setup.guardAddr S) (hu' : UniqueBy Setup.guardAddr (S.set i y))
    (hx : S[i]? = some x) (hy : y.addr = x.addr) (hs : y.pc.slot = x.pc.slot) :
    slotAt (S.set i y) A = slotAt S A := by
  funext b
  rw [slotAt, guardSlot_set_same hu hu' hx hy hs]
  rfl

/-- A setup with a guard, before or after, moves the slot of its address. -/
theorem slotAt_set (hu : UniqueBy Setup.guardAddr S) (hu' : UniqueBy Setup.guardAddr (S.set i y))
    (hx : S[i]? = some x) (hy : y.addr = x.addr) (hg : y.pc.slot ≠ .free ∨ x.pc.slot ≠ .free) :
    slotAt (S.set i y) A = Function.update (slotAt S A) x.addr (entrySlot y.pc.slot (A.lookup x.addr)) := by
  funext b
  rw [slotAt, guardSlot_set hu hu' hx hy]
  by_cases hb : b = x.addr
  · subst hb
    rw [Function.update_self, if_pos]
    rcases hg with hg | hg
    · exact .inl (Setup.guardAddr_eq_some.2 ⟨hg, hy⟩)
    · exact .inr (Setup.guardAddr_eq_some.2 ⟨hg, rfl⟩)
  · rw [Function.update_of_ne hb, if_neg]
    · rfl
    · rintro (h | h)
      · exact hb ((Setup.guardAddr_eq_some.1 h).2.symm.trans hy)
      · exact hb (Setup.guardAddr_eq_some.1 h).2.symm

/-- The slot of a setup's address, while the setup has its guard. -/
theorem slotAt_guarded (hu : UniqueBy Setup.guardAddr S) (hx : S[i]? = some x) (hg : x.pc.slot ≠ .free) :
    slotAt S A x.addr = entrySlot x.pc.slot (A.lookup x.addr) := by
  rw [slotAt, guardSlot_eq hu hx (Setup.guardAddr_eq_some.2 ⟨hg, rfl⟩)]

theorem slotAt_insert (c : Connection) :
    slotAt S (A.insert a c) = Function.update (slotAt S A) a (entrySlot (guardSlot S a) (some c)) := by
  funext b
  rw [slotAt, Table.lookup_insert]
  by_cases hb : b = a
  · subst hb
    rw [Function.update_self, if_pos rfl]
  · rw [Function.update_of_ne hb, if_neg hb]
    rfl

/-- An entry that keeps its id and claim. -/
theorem slotAt_insert_same {c c' : Connection} (hc : A.lookup a = some c) (hid : c'.id = c.id)
    (hd : c'.disconnecting = c.disconnecting) : slotAt S (A.insert a c') = slotAt S A := by
  rw [slotAt_insert, Function.update_eq_self_iff, slotAt, hc, entrySlot, entrySlot, hid, hd]

theorem slotAt_erase : slotAt S (A.erase a) = Function.update (slotAt S A) a (guardSlot S a) := by
  funext b
  rw [slotAt, Table.lookup_erase]
  by_cases hb : b = a
  · subst hb
    rw [Function.update_self, if_pos rfl]
    rfl
  · rw [Function.update_of_ne hb, if_neg hb]
    rfl

end

/-! ## Admission, by counting slots -/

/-- `check_and_reserve`'s decision on the slots. -/
noncomputable def verdict (cfg : Config) (slots : SocketAddr → Slot) (addr : SocketAddr) : Except IoError Unit :=
  if (slots addr).listed then .error ⟨.alreadyExists, "already connected"⟩
  else if {a | canonicalIp a = canonicalIp addr ∧ (slots a).charged}.ncard ≥ cfg.maxConnectionsPerIp then
    .error ⟨.quotaExceeded,
      "maximum number (" ++ toString cfg.maxConnectionsPerIp ++ ") of per-IP connections reached"⟩
  else if {a | (slots a).pending}.ncard ≥ cfg.maxConnecting then .error (maxConnectingError cfg)
  else if {a | (slots a).listed}.ncard + {a | (slots a).pending}.ncard ≥ cfg.maxConnections then
    .error (maxConnectionsError cfg)
  else if (slots addr).pending then .error ⟨.alreadyExists, "already connecting"⟩
  else .ok ()

noncomputable def room (cfg : Config) (slots : SocketAddr → Slot) (addr : SocketAddr) : Bool :=
  (verdict cfg slots addr).isOk

section

variable {S : List Setup} {A : Active} {a : SocketAddr}

theorem SetupPc.slot_listed (pc : SetupPc) : pc.slot.listed = false := by cases pc <;> rfl

theorem guardSlot_cases (S : List Setup) (a : SocketAddr) :
    guardSlot S a = .free ∨ ∃ t ∈ S, t.guardAddr = some a ∧ guardSlot S a = t.pc.slot := by
  cases hf : S.find? fun t => t.guardAddr = some a with
  | none =>
    left
    rw [guardSlot, hf]
    rfl
  | some t =>
    refine .inr ⟨t, List.mem_of_find?_eq_some hf, by simpa using List.find?_some hf, ?_⟩
    rw [guardSlot, hf]
    rfl

theorem guardSlot_listed : (guardSlot S a).listed = false := by
  rcases guardSlot_cases S a with h | ⟨t, -, -, h⟩
  · rw [h]; rfl
  · rw [h]; exact t.pc.slot_listed

theorem slotAt_listed : (slotAt S A a).listed = true ↔ a ∈ A.keys := by
  rw [slotAt, Table.mem_keys_iff]
  cases A.lookup a with
  | none => simp [entrySlot, guardSlot_listed]
  | some c => cases hd : c.disconnecting <;> simp [entrySlot, hd, Slot.listed]

theorem guardSlot_ne_free (hu : UniqueBy Setup.guardAddr S) : guardSlot S a ≠ .free ↔ Owned Setup.guardAddr S a := by
  constructor
  · intro hne
    rcases guardSlot_cases S a with h | ⟨t, ht, hg, -⟩
    · exact absurd h hne
    · exact ⟨t, ht, hg⟩
  · intro ho
    obtain ⟨i, t, ht, hg⟩ := ho.position
    rw [guardSlot_eq hu ht hg]
    exact (Setup.guardAddr_eq_some.1 hg).1

theorem slotAt_pending : (slotAt S A a).pending = true ↔ guardSlot S a ≠ .free := by
  rw [slotAt]
  cases A.lookup a with
  | none => exact Slot.pending_iff guardSlot_listed
  | some c => cases hd : c.disconnecting <;> simp [entrySlot, hd, Slot.pending]

theorem SetupPc.slot_charged {pc : SetupPc} : pc.slot.charged = true ↔ pc.guard = some false := by
  cases pc <;> simp [SetupPc.slot, Slot.charged, SetupPc.guard]

theorem Setup.openAddr_eq_some {t : Setup} : t.openAddr = some a ↔ t.pc.slot.charged = true ∧ t.addr = a := by
  rw [SetupPc.slot_charged, Setup.openAddr]
  split <;> simp_all

/-- A charged address has an entry or an open guard. -/
theorem slotAt_charged (hu : UniqueBy Setup.guardAddr S) :
    (slotAt S A a).charged = true ↔ a ∈ A.keys ∨ Owned Setup.openAddr S a := by
  rw [slotAt, Table.mem_keys_iff]
  cases A.lookup a with
  | some c => cases hd : c.disconnecting <;> simp [entrySlot, hd, Slot.charged]
  | none =>
    simp only [entrySlot, reduceCtorEq, exists_false, false_or]
    constructor
    · intro hc
      rcases guardSlot_cases S a with h | ⟨t, ht, hg, h⟩
      · rw [h] at hc; cases hc
      · rw [h] at hc
        exact ⟨t, ht, Setup.openAddr_eq_some.2 ⟨hc, (Setup.guardAddr_eq_some.1 hg).2⟩⟩
    · intro ho
      obtain ⟨i, t, ht, hg⟩ := ho.position
      rw [guardSlot_eq hu ht (Setup.guardAddr_of_openAddr hg)]
      exact (Setup.openAddr_eq_some.1 hg).1

theorem uniqueBy_openAddr (hu : UniqueBy Setup.guardAddr S) : UniqueBy Setup.openAddr S :=
  fun i j x y k hx hy hxk hyk =>
    hu i j x y k hx hy (Setup.guardAddr_of_openAddr hxk) (Setup.guardAddr_of_openAddr hyk)

theorem Setup.charges_eq (t : Setup) (ip : IpAddr) : t.charges ip = t.openAddr.any (canonicalIp · == ip) := by
  rw [Setup.charges, Setup.openAddr]
  split <;> simp_all

/-- The open guards of an IP, as addresses. -/
theorem openGuards_eq_card (hu : UniqueBy Setup.guardAddr S) (ip : IpAddr) :
    openGuards S ip = ((S.filterMap Setup.openAddr).toFinset.filter fun a => canonicalIp a == ip).card := by
  rw [← List.toFinset_filter, List.toFinset_card_of_nodup ((uniqueBy_openAddr hu).nodup.filter _),
    ← List.countP_eq_length_filter, List.countP_filterMap]
  refine List.countP_congr fun t _ => ?_
  rw [t.charges_eq]
  cases t.openAddr <;> rfl

end

variable {cfg : NodeConfig} {s s' : State}

theorem LedgerOK.ncard_pending (hL : LedgerOK s) :
    {a | (slotAt s.setups s.active a).pending = true}.ncard = s.limits.connecting.card := by
  rw [← Set.ncard_coe_finset]
  congr 1
  ext a
  rw [Set.mem_ofPred_eq, slotAt_pending, guardSlot_ne_free hL.guards, Finset.mem_coe, hL.connecting]

theorem ncard_listed : {a | (slotAt s.setups s.active a).listed = true}.ncard = s.active.size := by
  rw [Table.size, ← Set.ncard_coe_finset]
  congr 1
  ext a
  rw [Set.mem_ofPred_eq, slotAt_listed, Finset.mem_coe]

theorem ncard_charged (hL : LedgerOK s) (ha : Accounting s.limits s.active s.setups s.failures) (ip : IpAddr) :
    {a | canonicalIp a = ip ∧ (slotAt s.setups s.active a).charged = true}.ncard = s.limits.charge ip := by
  have hdisj : Disjoint ((s.setups.filterMap Setup.openAddr).toFinset.filter fun a => canonicalIp a == ip)
      (s.active.keys.filter fun a => canonicalIp a == ip) := by
    rw [Finset.disjoint_left]
    intro a ho hk
    have ho : Owned Setup.openAddr s.setups a := by
      simpa [Owned] using (Finset.mem_filter.1 ho).1
    exact Table.notMem_keys (hL.fresh a ho) (Finset.mem_filter.1 hk).1
  rw [ha.exact, openGuards_eq_card hL.guards, connectedFrom, Table.count, ← Finset.card_union_of_disjoint hdisj,
    ← Set.ncard_coe_finset]
  congr 1
  ext a
  rw [Set.mem_ofPred_eq, slotAt_charged hL.guards, Finset.mem_coe, Finset.mem_union, Finset.mem_filter,
    Finset.mem_filter, List.mem_toFinset, List.mem_filterMap, beq_iff_eq, Owned]
  constructor
  · rintro ⟨hip, hk | ho⟩
    · exact .inr ⟨hk, hip⟩
    · exact .inl ⟨ho, hip⟩
  · rintro (⟨ho, hip⟩ | ⟨hk, hip⟩)
    · exact ⟨hip, .inr ho⟩
    · exact ⟨hip, .inl hk⟩

/-- `check_and_reserve` decides on its counters as it would on the slots. -/
theorem checkAndReserve_eq (hL : LedgerOK s) (ha : Accounting s.limits s.active s.setups s.failures)
    (addr : SocketAddr) :
    checkAndReserve cfg.toConfig s.active s.limits addr =
      (verdict cfg.toConfig s.registry.slots addr).map fun _ => s.limits.reserve addr := by
  have hpend : (slotAt s.setups s.active addr).pending = true ↔ addr ∈ s.limits.connecting := by
    rw [slotAt_pending, guardSlot_ne_free hL.guards, hL.connecting]
  have hcharge : s.limits.charge (canonicalIp addr) = s.limits.ipCount addr := rfl
  simp only [checkAndReserve, verdict, State.registry, hL.ncard_pending, ncard_listed, ncard_charged hL ha, hcharge]
  simp only [slotAt_listed, hpend]
  split
  · rfl
  split
  · rfl
  split
  · rfl
  split
  · rfl
  split
  · rfl
  · rfl

/-! ## Every step -/

variable {a : Act}

theorem State.registry_ext (hs : slotAt s'.setups s'.active = slotAt s.setups s.active) (hn : s'.nextId = s.nextId) :
    s'.registry = s.registry := by
  rw [State.registry, State.registry, hs, hn]

/-- One slot of the registry moves. -/
def Moves (cfg : Config) (s s' : State) : Prop :=
  ∃ b, Registry.step (room cfg) s.registry b = some s'.registry

theorem moves_of {cfg : Config} {addr : SocketAddr} (m : Move) {x : Slot}
    (hx : Slot.move s.nextId (slotAt s.setups s.active addr) m = some x)
    (hs : slotAt s'.setups s'.active = Function.update (slotAt s.setups s.active) addr x)
    (hm : m = .reserve → room cfg s.registry.slots addr = true)
    (hn : s'.nextId = if m = .assign then s.nextId + 1 else s.nextId) : Moves cfg s s' :=
  ⟨.move addr m, Registry.step_move hx hm hs hn⟩

section

variable {i : Nat} {t : Setup} {p : SetupPc}

/-- A setup that says the same of its address as before. -/
theorem LedgerOK.stays (hL : LedgerOK s) (hL' : LedgerOK s') (ht : s.setups[i]? = some t)
    (hset : s'.setups = s.setups.set i { t with pc := p }) (hp : p.slot = t.pc.slot) (hact : s'.active = s.active)
    (hnext : s'.nextId = s.nextId) : s'.registry = s.registry := by
  have hu' := hL'.guards
  rw [hset] at hu'
  refine State.registry_ext ?_ hnext
  rw [hset, hact]
  exact slotAt_set_same hL.guards hu' ht rfl hp

/-- A setup with a guard moves the slot of its address. -/
theorem LedgerOK.moves (hL : LedgerOK s) (hL' : LedgerOK s') (ht : s.setups[i]? = some t)
    (hset : s'.setups = s.setups.set i { t with pc := p }) (hg : t.pc.slot ≠ .free) (hact : s'.active = s.active)
    (m : Move) (hr : m ≠ .reserve)
    (hm : Slot.move s.nextId (entrySlot t.pc.slot (s.active.lookup t.addr)) m =
      some (entrySlot p.slot (s.active.lookup t.addr)))
    (hnext : s'.nextId = if m = .assign then s.nextId + 1 else s.nextId) : Moves cfg.toConfig s s' := by
  have hu' := hL'.guards
  rw [hset] at hu'
  rw [← slotAt_guarded hL.guards ht hg] at hm
  refine moves_of m hm ?_ (fun h => absurd h hr) hnext
  rw [hset, hact]
  exact slotAt_set hL.guards hu' ht rfl (.inr hg)

/-- A guard that is not completed: its address has no entry, and the slot
is the guard's. -/
theorem LedgerOK.moves_open (hL : LedgerOK s) (hL' : LedgerOK s') (ht : s.setups[i]? = some t)
    (hset : s'.setups = s.setups.set i { t with pc := p }) (hg : t.pc.slot.charged = true) (hact : s'.active = s.active)
    (m : Move) (hr : m ≠ .reserve) (hm : Slot.move s.nextId t.pc.slot m = some p.slot)
    (hnext : s'.nextId = if m = .assign then s.nextId + 1 else s.nextId) : Moves cfg.toConfig s s' := by
  have hA : s.active.lookup t.addr = none := hL.fresh _ (.of_getElem? ht (Setup.openAddr_eq_some.2 ⟨hg, rfl⟩))
  have hne : t.pc.slot ≠ .free := by
    intro h
    rw [h] at hg; cases hg
  refine hL.moves hL' ht hset hne hact m hr ?_ hnext
  rw [hA]
  exact hm

/-- The guard for an address that has an entry is completed. -/
theorem LedgerOK.guardSlot_entry (hL : LedgerOK s) {addr : SocketAddr} {c : Connection}
    (hc : s.active.lookup addr = some c) : guardSlot s.setups addr = .free ∨ guardSlot s.setups addr = .fading := by
  rcases guardSlot_cases s.setups addr with h | ⟨t, ht, hg, h⟩
  · exact .inl h
  · have hopen : t.pc.slot.charged = false := by
      by_contra hne
      have ho := Setup.openAddr_eq_some.2 ⟨by simpa using hne, (Setup.guardAddr_eq_some.1 hg).2⟩
      rw [hL.fresh addr ⟨t, ht, ho⟩] at hc; cases hc
    rw [h]
    cases hs : t.pc.slot <;> simp_all [Slot.charged]

end

/-- Every step moves one slot at most, by one move of its cycle. -/
theorem StepR.registry (hL : LedgerOK s) (ha : Accounting s.limits s.active s.setups s.failures)
    (hs : StepR cfg s a s') : s'.registry = s.registry ∨ Moves cfg.toConfig s s' := by
  have hL' := hs.ledgerOK hL
  cases hs with
  | connect => exact .inl (State.registry_ext (slotAt_append rfl) rfl)
  | accept => exact .inl (State.registry_ext (slotAt_append rfl) rfl)
  | startCalled ht hpc =>
    refine .inl (hL.stays hL' ht rfl ?_ rfl rfl)
    cases s.flag <;> rw [hpc] <;> rfl
  | startAccepted ht hpc =>
    refine .inl (hL.stays hL' ht rfl ?_ rfl rfl)
    cases s.flag <;> rw [hpc] <;> rfl
  | reject ht hpc =>
    refine .inl (hL.stays hL' ht rfl ?_ rfl rfl)
    rcases hpc with hpc | hpc <;> rw [hpc] <;> rfl
  | checkConnected ht hpc =>
    refine .inl (hL.stays hL' ht rfl ?_ rfl rfl)
    split <;> rw [hpc] <;> rfl
  | acquire ht hpc => exact .inl (hL.stays hL' ht rfl (by rw [hpc]; rfl) rfl rfl)
  | noBudget ht hpc => exact .inl (hL.stays hL' ht rfl (by rw [hpc]; rfl) rfl rfl)
  | @reserveOk i t l ht hpc hl hr =>
    have hroom : room cfg.toConfig s.registry.slots t.addr = true := by
      rw [checkAndReserve_eq hL ha] at hr
      rw [room]
      cases hv : verdict cfg.toConfig s.registry.slots t.addr with
      | ok => rfl
      | error e => rw [hv] at hr; cases hr
    obtain ⟨hA, -, -, -, hC, -⟩ := checkAndReserve_ok hr
    have hfree : guardSlot s.setups t.addr = .free :=
      guardSlot_eq_free fun ho => hC ((hL.connecting _).2 ho)
    have hslot : slotAt s.setups s.active t.addr = .free := by rw [slotAt, hA, entrySlot, hfree]
    refine .inr (moves_of .reserve (by rw [hslot]; rfl) ?_ (fun _ => hroom) rfl)
    have := slotAt_set (A := s.active) hL.guards hL'.guards ht rfl (.inl (by simp [SetupPc.slot]))
    rw [hA] at this
    exact this
  | reserveErr ht hpc => exact .inl (hL.stays hL' ht rfl (by rw [hpc]; rfl) rfl rfl)
  | adapt ht hpc =>
    exact .inr (hL.moves_open hL' ht rfl (by rw [hpc]; rfl) rfl .assign (by decide) (by rw [hpc]; rfl) rfl)
  | failDialing ht hpc =>
    exact .inr (hL.moves_open hL' ht rfl (by rw [hpc]; rfl) rfl .fail (by decide) (by rw [hpc]; rfl) rfl)
  | failProtocols ht hpc =>
    exact .inr (hL.moves_open hL' ht rfl (by rw [hpc]; rfl) rfl .fail (by decide) (by rw [hpc]; rfl) rfl)
  | wired ht hpc => exact .inl (hL.stays hL' ht rfl (by rw [hpc]; rfl) rfl rfl)
  | lockActive ht hpc => exact .inl (hL.stays hL' ht rfl (by rw [hpc]; rfl) rfl rfl)
  | checkRefused ht hpc =>
    exact .inr (hL.moves_open hL' ht rfl (by rw [hpc]; rfl) rfl .fail (by decide) (by rw [hpc]; rfl) rfl)
  | checkAdmitted ht hpc => exact .inl (hL.stays hL' ht rfl (by rw [hpc]; rfl) rfl rfl)
  | @insert i t id sched begun tasks ht hpc =>
    have hA : s.active.lookup t.addr = none :=
      hL.fresh _ (.of_getElem? ht (Setup.openAddr_eq_some.2 ⟨by rw [hpc]; rfl, rfl⟩))
    have hslot : slotAt s.setups s.active t.addr = .opening id := by
      rw [slotAt_guarded hL.guards ht (by rw [hpc]; simp [SetupPc.slot]), hA, hpc]
      rfl
    refine .inr (moves_of .establish (by rw [hslot]; rfl) ?_ (fun h => by cases h) rfl)
    have hset := slotAt_set (A := s.active.insert t.addr ⟨id, t.addr, false, tasks⟩) hL.guards hL'.guards ht rfl
      (.inl (by simp [SetupPc.slot]))
    rw [Table.lookup_insert, if_pos rfl, slotAt_insert (S := s.setups), Function.update_idem] at hset
    exact hset
  | @dropRefused _ _ _ sched ht hpc =>
    refine .inr (hL.moves_open hL' ht rfl (by rw [hpc]; rfl) rfl .abandon (by decide) ?_ rfl)
    cases sched <;> rw [hpc] <;> rfl
  | dropUnwinding ht hpc =>
    exact .inr (hL.moves_open hL' ht rfl (by rw [hpc]; rfl) rfl .abandon (by decide) (by rw [hpc]; rfl) rfl)
  | @dropInserted i t id sched ht hpc =>
    refine .inr (hL.moves hL' ht rfl (by rw [hpc]; simp [SetupPc.slot]) rfl .settle (by decide) ?_ rfl)
    rw [hpc]
    cases s.active.lookup t.addr with
    | none => rfl
    | some c => cases hd : c.disconnecting <;> simp [entrySlot, hd, SetupPc.slot, Slot.move]
  | dropSched ht hpc =>
    refine .inl (hL.stays hL' ht rfl ?_ rfl rfl)
    split <;> rw [hpc] <;> rfl
  | notifySched ht hpc => exact .inl (hL.stays hL' ht rfl (by rw [hpc]; rfl) rfl rfl)
  | scheduleSome ht hpc => exact .inl (hL.stays hL' ht rfl (by rw [hpc]; rfl) rfl rfl)
  | scheduleNone ht hpc => exact .inl (hL.stays hL' ht rfl (by rw [hpc]; rfl) rfl rfl)
  | finish ht hpc => exact .inl (hL.stays hL' ht rfl (by rw [hpc]; rfl) rfl rfl)
  | finishAwaiting ht hpc => exact .inl (hL.stays hL' ht rfl (by rw [hpc]; rfl) rfl rfl)
  | @attach k t handle ht hpc hl =>
    refine .inl (State.registry_ext ?_ rfl)
    rcases attachHandle_cases s.active t.addr t.id handle with h | ⟨c, hc, -, h⟩
    · rw [h]
    · rw [h]
      exact slotAt_insert_same hc rfl rfl
  | @claim j d active id hd hpc hl hc =>
    obtain ⟨c, hlook, -, hdis, -, rfl⟩ := claimDisconnect_some hc
    refine .inr (moves_of .claim ?_ (slotAt_insert _) (fun h => by cases h) rfl)
    rw [slotAt, hlook]
    simp only [entrySlot, hdis, if_true, if_false, Bool.false_eq_true]
    exact Slot.move_claim _ _ _
  | @register j d id handle hd hpc hl =>
    obtain ⟨c, hc, -, -⟩ := hL.fin _ (List.mem_of_getElem? hd) _ (by rw [hpc]; rfl)
    refine .inl (State.registry_ext ?_ rfl)
    simp only [registerHandle, hc]
    exact slotAt_insert_same hc rfl rfl
  | @remove j d id conn hd hpc hl hc =>
    obtain ⟨c, hc', -, hdis⟩ := hL.fin _ (List.mem_of_getElem? hd) _ (by rw [hpc]; rfl)
    rw [hc] at hc'; cases hc'
    refine .inr (moves_of .close ?_ slotAt_erase (fun h => by cases h) rfl)
    rw [slotAt, hc]
    rcases hL.guardSlot_entry hc with hg | hg <;> simp [entrySlot, hdis, State.discGoto, State.removeConn, hg, Slot.move]
  | @removeNone j d id hd hpc hl hc =>
    -- a finalizer's address is in `active`
    obtain ⟨c, hc', -, -⟩ := hL.fin _ (List.mem_of_getElem? hd) _ (by rw [hpc]; rfl)
    rw [hc] at hc'; cases hc'
  | takeId => exact .inr ⟨.skip, rfl⟩
  | schedDone | schedNotify | disconnect | recover | noRecovery | claimNone | cancel | finalize | notifyDrain
  | beginShutdown | enableOnConnect => exact .inl rfl

theorem lifecycle_refines (cfg : NodeConfig) :
    (lifecycle cfg).Refines (registry (room cfg.toConfig)) State.registry where
  init := rfl
  step hr hs := (step_sound hs).registry (ledgerOK_reachable hr) (accounting_reachable hr)

/-- The lifecycle is a registry whose policy is `check_and_reserve`. Seen as
slots, every step of any setup, scheduling task or disconnect leaves all
addresses where they are, or moves one of them by one move of the cycle. And
`check_and_reserve` decides by its counters as the policy does by the slots:
with the same error and text, or with a reservation. -/
theorem registry_refined (cfg : NodeConfig) :
    (lifecycle cfg).Refines (registry (room cfg.toConfig)) State.registry ∧
      ∀ s, (lifecycle cfg).Reachable s → ∀ addr,
        checkAndReserve cfg.toConfig s.active s.limits addr =
          (verdict cfg.toConfig s.registry.slots addr).map fun _ => s.limits.reserve addr :=
  ⟨lifecycle_refines cfg, fun _ h addr => checkAndReserve_eq (ledgerOK_reachable h) (accounting_reachable h) addr⟩

theorem registry_refined_oneEachWay : ∃ s, (lifecycle threeSlots).Reachable s ∧
    s.registry.slots peer = .live 0 true ∧ s.registry.slots mappedPeer = .reserved ∧
    verdict threeSlots.toConfig s.registry.slots peer = .error ⟨.alreadyExists, "already connected"⟩ := by
  obtain ⟨s, hs, hp⟩ := (lifecycle threeSlots).exists_reachable oneEachWay
    (fun s => slotAt s.setups s.active peer = .live 0 true ∧ slotAt s.setups s.active mappedPeer = .reserved ∧
      peer ∈ s.active.keys) (by decide +kernel)
  obtain ⟨h₁, h₂, h₃⟩ := of_decide_eq_true hp
  refine ⟨s, hs, h₁, h₂, ?_⟩
  have hv := (registry_refined threeSlots).2 s hs peer
  rw [checkAndReserve, if_pos h₃] at hv
  cases hverdict : verdict threeSlots.toConfig s.registry.slots peer with
  | ok => rw [hverdict] at hv; cases hv
  | error e => rw [hverdict] at hv; cases hv; rfl

/-! ## Instances -/

section

variable {S : List Setup} {A : Active} {addr : SocketAddr} {c : Connection} {k : Nat}

theorem slotAt_entry (hc : A.lookup addr = some c) :
    (slotAt S A addr).id = some c.id ∧ (slotAt S A addr).stage = if c.disconnecting then 2 else 1 := by
  rw [slotAt, hc, entrySlot]
  cases c.disconnecting <;> exact ⟨rfl, rfl⟩

theorem SetupPc.slot_stage (pc : SetupPc) : pc.slot.stage = 0 := by cases pc <;> rfl

/-- Past its opening, an instance is an entry. -/
theorem slotAt_stage (h : 0 < (slotAt S A addr).stage) : ∃ c, A.lookup addr = some c := by
  cases hc : A.lookup addr with
  | some c => exact ⟨c, rfl⟩
  | none =>
    rw [slotAt, hc, entrySlot] at h
    rcases guardSlot_cases S addr with hg | ⟨t, -, -, hg⟩
    · rw [hg] at h; cases h
    · rw [hg, t.pc.slot_stage] at h; cases h

theorem SetupPc.slot_id {pc : SetupPc} (h : pc.slot.id = some k) : pc.connId = some k ∧ pc.enteredId = none := by
  cases pc <;> simp_all [SetupPc.slot, Slot.id, SetupPc.connId, SetupPc.enteredId]

end

/-- An instance that entered `active` is in no slot but its entry's. -/
theorem LedgerOK.entered_slot (hL : LedgerOK s) {k : Nat} (hk : Owned Setup.enteredId s.setups k) {addr : SocketAddr}
    (h : (slotAt s.setups s.active addr).id = some k) : ∃ c, s.active.lookup addr = some c ∧ c.id = k := by
  cases hc : s.active.lookup addr with
  | some c =>
    rw [(slotAt_entry hc).1] at h; cases h
    exact ⟨c, rfl, rfl⟩
  | none =>
    rw [slotAt, hc, entrySlot] at h
    rcases guardSlot_cases s.setups addr with hg | ⟨t, ht, -, hg⟩
    · rw [hg] at h; cases h
    · -- the setup that opens it would be the one that entered it
      rw [hg] at h
      obtain ⟨hid, hnone⟩ := SetupPc.slot_id h
      obtain ⟨i, hi⟩ := List.getElem?_of_mem ht
      obtain ⟨j, u, hj, hu⟩ := hk.position
      have hij := hL.ids i j t u k hi hj hid (Setup.connId_of_enteredId hu)
      subst hij
      rw [hi] at hj; cases hj
      rw [Setup.enteredId, hnone] at hu; cases hu

/-- What becomes of connections along any run: an entry stays at its address
with its id, and a claim on it stays, or its id is nowhere in `active` from
then on, and whatever takes the address later has a greater one. -/
theorem instances_forward (cfg : NodeConfig) (s s' : State) (as : List Act) (h : (lifecycle cfg).Reachable s)
    (hr : (lifecycle cfg).run s as = some s') :
    (∀ a c, s.active.lookup a = some c →
      (∃ c', s'.active.lookup a = some c' ∧ c'.id = c.id ∧ (c.disconnecting → c'.disconnecting)) ∨
        (∀ b c', s'.active.lookup b = some c' → c'.id ≠ c.id) ∧
          ∀ c', s'.active.lookup a = some c' → c.id < c'.id) ∧
    ∀ k, Owned Setup.enteredId s.setups k → (∀ a c, s.active.lookup a = some c → c.id ≠ k) →
      ∀ a c, s'.active.lookup a = some c → c.id ≠ k := by
  have hL := ledgerOK_reachable h
  have href := lifecycle_refines cfg
  obtain ⟨bs, hbs⟩ := href.run h hr
  have hs : Since s.registry s'.registry := since_run (href.reachable h) hbs
  refine ⟨fun a c hc => ?_, fun k hk hno a c hc hck => ?_⟩
  · obtain ⟨hid, hstage⟩ := slotAt_entry (S := s.setups) hc
    rcases hs.kept a c.id hid with ⟨hid', hle⟩ | ⟨hgone, hlater⟩
    · rw [show (s.registry.slots a).stage = _ from hstage] at hle
      obtain ⟨c', hc'⟩ : ∃ c', s'.active.lookup a = some c' := by
        refine slotAt_stage (S := s'.setups) (lt_of_lt_of_le ?_ hle)
        split <;> decide
      obtain ⟨hid'', hstage'⟩ := slotAt_entry (S := s'.setups) hc'
      refine .inl ⟨c', hc', Option.some.inj (hid''.symm.trans hid'), fun hd => ?_⟩
      rw [show (s'.registry.slots a).stage = _ from hstage', if_pos hd] at hle
      by_contra hd'
      rw [if_neg hd'] at hle
      omega
    · refine .inr ⟨fun b c' hc' he => hgone b ?_, fun c' hc' => hlater _ (slotAt_entry hc').1⟩
      rw [← he]
      exact (slotAt_entry hc').1
  · obtain ⟨i, t, ht, hte⟩ := hk.position
    refine hs.gone k (hL.ids_lt k (.of_getElem? ht (Setup.connId_of_enteredId hte))) (fun b hb => ?_) a ?_
    · obtain ⟨c', hc', hid⟩ := hL.entered_slot hk hb
      exact hno b c' hc' hid
    · rw [← hck]
      exact (slotAt_entry hc).1

/-- The first connection of `reusedAddress` is gone when the second has its
address. -/
theorem instances_forward_reusedAddress : ∃ s s', (lifecycle threeSlots).Reachable s ∧
    (lifecycle threeSlots).run s (reusedAddress.drop 13) = some s' ∧
    (s.active.lookup peer).map (·.id) = some 0 ∧ (s'.active.lookup peer).map (·.id) = some 1 ∧
    ∀ b c', s'.active.lookup b = some c' → c'.id ≠ 0 := by
  obtain ⟨s, hs, hp⟩ := (lifecycle threeSlots).exists_reachable (reusedAddress.take 13)
    (fun s => (s.active.lookup peer).map (·.id) = some 0 ∧
      ((lifecycle threeSlots).run s (reusedAddress.drop 13)).any
        fun s' => (s'.active.lookup peer).map (·.id) = some 1) (by decide +kernel)
  obtain ⟨h₀, hrun⟩ := of_decide_eq_true hp
  cases hs' : (lifecycle threeSlots).run s (reusedAddress.drop 13) with
  | none => rw [hs'] at hrun; cases hrun
  | some s' =>
    rw [hs'] at hrun
    have h₁ : (s'.active.lookup peer).map (·.id) = some 1 := of_decide_eq_true hrun
    refine ⟨s, s', hs, hs', h₀, h₁, ?_⟩
    obtain ⟨c, hc, hid⟩ := Option.map_eq_some_iff.1 h₀
    obtain ⟨c', hc', hid'⟩ := Option.map_eq_some_iff.1 h₁
    rcases (instances_forward threeSlots s s' _ hs hs').1 peer c hc with ⟨e, he, heid, -⟩ | ⟨hno, -⟩
    · -- the entry there is the second connection
      rw [hc'] at he; cases he
      omega
    · rw [hid] at hno
      exact hno

end Pea2Pea
