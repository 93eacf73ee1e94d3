/-
Who has what, in every reachable state of the lifecycle: addresses reserved
by guards, connection ids, and disconnect claims.

A guard's address is in `connecting`, no two guards share one, and while a
guard is not completed its address is not in `active`: so `add` never
displaces an entry. An id is held by one setup from `Connection::new` on. A
finalizer's address is in `active` with the id it claimed, marked as
disconnecting, and a connection so marked has exactly one finalizer.
-/
import Pea2Pea.LifecycleFacts
import Pea2Pea.Lib.Pool

namespace Pea2Pea

open Pool

/-! ## What a setup and a disconnect have -/

/-- The setup's `ConnectionGuard`, and whether it is completed. -/
def SetupPc.guard : SetupPc → Option Bool
  | .dialing | .protocols _ | .ready _ _ | .adding _ _ _ | .admitted _ _ _ | .refused _ _ | .unwinding => some false
  | .inserted _ _ => some true
  | _ => none

/-- The id of the setup's connection, from its creation on (none once the
connection was dropped instead of inserted). -/
def SetupPc.connId : SetupPc → Option Nat
  | .protocols id | .ready id _ | .adding id _ _ | .admitted id _ _ => some id
  | .inserted id _ | .established id _ | .awaiting id _ => some id
  | .finishing entered | .done entered => entered
  | _ => none

/-- The id of the setup's connection, once it entered `active`. -/
def SetupPc.enteredId : SetupPc → Option Nat
  | .inserted id _ | .established id _ | .awaiting id _ => some id
  | .finishing entered | .done entered => entered
  | _ => none

namespace Setup

/-- The address the setup's guard is for. -/
def guardAddr (t : Setup) : Option SocketAddr := t.pc.guard.map fun _ => t.addr

/-- The address the setup's guard is for, while it is not completed. -/
def openAddr (t : Setup) : Option SocketAddr := if t.pc.guard = some false then some t.addr else none

def connId (t : Setup) : Option Nat := t.pc.connId

def enteredId (t : Setup) : Option Nat := t.pc.enteredId

theorem guardAddr_of_openAddr {t : Setup} {a : SocketAddr} (h : t.openAddr = some a) : t.guardAddr = some a := by
  simp only [openAddr] at h
  split at h
  next hg => rw [guardAddr, hg]; exact h
  · cases h

theorem connId_of_enteredId {t : Setup} {k : Nat} (h : t.enteredId = some k) : t.connId = some k := by
  cases t with
  | mk role addr pc => cases pc <;> simp_all [enteredId, connId, SetupPc.enteredId, SetupPc.connId]

end Setup

namespace DiscPc

/-- The instance a live finalizer is for. -/
def finId : DiscPc → Option Nat
  | .claimed id | .dropping id => some id
  | _ => none

/-- The instance the disconnect claimed, if it did. -/
def claimedId : DiscPc → Option Nat
  | .claimed id | .dropping id | .removed id _ => some id
  | .done id _ => id
  | .called => none

end DiscPc

namespace Disc

/-- The address a live finalizer is for. -/
def finAddr (d : Disc) : Option SocketAddr := d.pc.finId.map fun _ => d.addr

def claimedId (d : Disc) : Option Nat := d.pc.claimedId

theorem finAddr_of_finId {d : Disc} {k : Nat} (h : d.pc.finId = some k) : d.finAddr = some d.addr := by
  simp [finAddr, h]

theorem claimedId_of_finId {d : Disc} {k : Nat} (h : d.pc.finId = some k) : d.claimedId = some k := by
  cases d with
  | mk addr origin connId pc => cases pc <;> simp_all [claimedId, DiscPc.finId, DiscPc.claimedId]

end Disc

/-! ## The invariant -/

/-- Who has what, over the parts of the state it is about. -/
structure Ledger (connecting : Finset SocketAddr) (active : Active) (setups : List Setup) (discs : List Disc)
    (nextId : Nat) : Prop where
  guards : UniqueBy Setup.guardAddr setups
  connecting : ∀ a, a ∈ connecting ↔ Owned Setup.guardAddr setups a
  fresh : ∀ a, Owned Setup.openAddr setups a → active.lookup a = none
  ids : UniqueBy Setup.connId setups
  ids_lt : ∀ k, Owned Setup.connId setups k → k < nextId
  entered : ∀ a c, active.lookup a = some c → c.addr = a ∧ Owned Setup.enteredId setups c.id
  inj : ∀ a b c d, active.lookup a = some c → active.lookup b = some d → c.id = d.id → a = b
  fin : ∀ d ∈ discs, ∀ k, d.pc.finId = some k →
    ∃ c, active.lookup d.addr = some c ∧ c.id = k ∧ c.disconnecting = true
  fins : UniqueBy Disc.finAddr discs
  owner : ∀ a c, active.lookup a = some c → c.disconnecting = true → Owned Disc.finAddr discs a
  claims : UniqueBy Disc.claimedId discs
  claimed : ∀ k, Owned Disc.claimedId discs k →
    Owned Setup.enteredId setups k ∧ ∀ a c, active.lookup a = some c → c.id = k → c.disconnecting = true

namespace Ledger

variable {C : Finset SocketAddr} {A : Active} {S : List Setup} {D : List Disc} {n i j : Nat} {x y : Setup}
  {d e : Disc}

theorem init : Ledger ∅ ∅ [] [] 0 where
  guards := uniqueBy_nil
  connecting a := by simp [not_owned_nil]
  fresh a h := absurd h not_owned_nil
  ids := uniqueBy_nil
  ids_lt k h := absurd h not_owned_nil
  entered a c h := by simp at h
  inj a b c d h := by simp at h
  fin d h := by simp at h
  fins := uniqueBy_nil
  owner a c h := by simp at h
  claims := uniqueBy_nil
  claimed k h := absurd h not_owned_nil

/-- A setup whose guard and entered id stay may move on, and may drop its
connection's id. -/
theorem setup_step (h : Ledger C A S D n) (hx : S[i]? = some x) (hg : y.guardAddr = x.guardAddr)
    (ho : y.openAddr = x.openAddr) (hc : ∀ k, y.connId = some k → x.connId = some k)
    (he : y.enteredId = x.enteredId) : Ledger C A (S.set i y) D n := by
  have hown : ∀ k, Owned Setup.connId (S.set i y) k → Owned Setup.connId S k := by
    intro k hk
    rcases hk.of_set hx with hk | ⟨j, z, -, hz, hk⟩
    · exact .of_getElem? hx (hc k hk)
    · exact .of_getElem? hz hk
  exact
    { guards := h.guards.set_same hx hg
      connecting := fun a => by rw [owned_set_same hx hg]; exact h.connecting a
      fresh := fun a ha => h.fresh a ((owned_set_same hx ho).mp ha)
      ids := h.ids.set hx fun k hk => .inl (hc k hk)
      ids_lt := fun k hk => h.ids_lt k (hown k hk)
      entered := fun a c ha => ⟨(h.entered a c ha).1, (owned_set_same hx he).mpr (h.entered a c ha).2⟩
      inj := h.inj
      fin := h.fin
      fins := h.fins
      owner := h.owner
      claims := h.claims
      claimed := fun k hk => ⟨(owned_set_same hx he).mpr (h.claimed k hk).1, (h.claimed k hk).2⟩ }

/-- A new setup has nothing. -/
theorem spawn (h : Ledger C A S D n) (hg : y.guardAddr = none) (ho : y.openAddr = none) (hc : y.connId = none) :
    Ledger C A (S ++ [y]) D n := by
  have he : y.enteredId = none := by
    cases hk : y.enteredId with
    | none => rfl
    | some k => rw [Setup.connId_of_enteredId hk] at hc; cases hc
  exact
    { guards := h.guards.append fun k hk => by rw [hg] at hk; cases hk
      connecting := fun a => by rw [owned_append, hg]; simpa using h.connecting a
      fresh := fun a ha => h.fresh a (by simpa [owned_append, ho] using ha)
      ids := h.ids.append fun k hk => by rw [hc] at hk; cases hk
      ids_lt := fun k hk => h.ids_lt k (by simpa [owned_append, hc] using hk)
      entered := fun a c ha => ⟨(h.entered a c ha).1, owned_append.mpr (.inl (h.entered a c ha).2)⟩
      inj := h.inj
      fin := h.fin
      fins := h.fins
      owner := h.owner
      claims := h.claims
      claimed := fun k hk => ⟨owned_append.mpr (.inl (h.claimed k hk).1), (h.claimed k hk).2⟩ }

/-- A reservation at an address that is neither connecting nor connected. -/
theorem reserve {a : SocketAddr} (h : Ledger C A S D n) (hx : S[i]? = some x) (hxg : x.guardAddr = none)
    (hg : y.guardAddr = some a) (ho : y.openAddr = some a) (hc : y.connId = x.connId)
    (he : y.enteredId = x.enteredId) (ha : a ∉ C) (hA : A.lookup a = none) :
    Ledger (insert a C) A (S.set i y) D n := by
  have hno : ¬ Owned Setup.guardAddr S a := fun hm => ha ((h.connecting a).mpr hm)
  have hxo : x.openAddr = none := by
    cases hk : x.openAddr with
    | none => rfl
    | some b => rw [Setup.guardAddr_of_openAddr hk] at hxg; cases hxg
  refine
    { guards := h.guards.set hx fun k hk => ?_
      connecting := fun b => ?_
      fresh := fun b hb => ?_
      ids := h.ids.set_same hx hc
      ids_lt := fun k hk => h.ids_lt k ((owned_set_same hx hc).mp hk)
      entered := fun b c hb => ⟨(h.entered b c hb).1, (owned_set_same hx he).mpr (h.entered b c hb).2⟩
      inj := h.inj
      fin := h.fin
      fins := h.fins
      owner := h.owner
      claims := h.claims
      claimed := fun k hk => ⟨(owned_set_same hx he).mpr (h.claimed k hk).1, (h.claimed k hk).2⟩ }
  · rw [hg] at hk; cases hk; exact .inr hno
  · rw [Finset.mem_insert, h.connecting b, owned_set_iff h.guards hx, hg, hxg]
    simp [eq_comm]
  · rcases hb.of_set hx with hb | ⟨j, z, -, hz, hb⟩
    · rw [ho] at hb; cases hb; exact hA
    · exact h.fresh b (.of_getElem? hz hb)

/-- A connection is created with the next id. -/
theorem adapt (h : Ledger C A S D n) (hx : S[i]? = some x) (hg : y.guardAddr = x.guardAddr)
    (ho : y.openAddr = x.openAddr) (hc : y.connId = some n) (he : y.enteredId = x.enteredId) :
    Ledger C A (S.set i y) D (n + 1) := by
  have hno : ¬ Owned Setup.connId S n := fun hm => Nat.lt_irrefl n (h.ids_lt n hm)
  refine
    { guards := h.guards.set_same hx hg
      connecting := fun a => by rw [owned_set_same hx hg]; exact h.connecting a
      fresh := fun a ha => h.fresh a ((owned_set_same hx ho).mp ha)
      ids := h.ids.set hx fun k hk => ?_
      ids_lt := fun k hk => ?_
      entered := fun a c ha => ⟨(h.entered a c ha).1, (owned_set_same hx he).mpr (h.entered a c ha).2⟩
      inj := h.inj
      fin := h.fin
      fins := h.fins
      owner := h.owner
      claims := h.claims
      claimed := fun k hk => ⟨(owned_set_same hx he).mpr (h.claimed k hk).1, (h.claimed k hk).2⟩ }
  · rw [hc] at hk; cases hk; exact .inr hno
  · rcases hk.of_set hx with hk | ⟨j, z, -, hz, hk⟩
    · rw [hc] at hk; cases hk; exact Nat.lt_succ_self _
    · exact Nat.lt_succ_of_lt (h.ids_lt k (.of_getElem? hz hk))

theorem takeId (h : Ledger C A S D n) : Ledger C A S D (n + 1) :=
  { h with ids_lt := fun k hk => Nat.lt_succ_of_lt (h.ids_lt k hk) }

/-- A guard's address is not connected while the guard is open. -/
theorem not_connected {a : SocketAddr} (h : Ledger C A S D n) (hx : S[i]? = some x) (ho : x.openAddr = some a) :
    A.lookup a = none :=
  h.fresh a (.of_getElem? hx ho)

/-- The id of a connection that did not enter `active` is nobody else's. -/
theorem not_entered {k : Nat} (h : Ledger C A S D n) (hx : S[i]? = some x) (hc : x.connId = some k)
    (he : x.enteredId = none) : ¬ Owned Setup.enteredId S k := by
  intro hk
  obtain ⟨j, z, hz, hk⟩ := hk.position
  have hij := h.ids _ _ _ _ _ hx hz hc (Setup.connId_of_enteredId hk)
  subst hij
  rw [hx] at hz; cases hz
  rw [he] at hk; cases hk

/-- `Connections::add` inserts the connection of an open guard. -/
theorem insert {a : SocketAddr} {c : Connection} (h : Ledger C A S D n) (hx : S[i]? = some x)
    (hxo : x.openAddr = some a) (hxe : x.enteredId = none) (hxc : x.connId = some c.id)
    (hg : y.guardAddr = x.guardAddr) (ho : y.openAddr = none) (hc : y.connId = x.connId)
    (he : y.enteredId = some c.id) (hca : c.addr = a) (hcd : c.disconnecting = false) :
    Ledger C (A.insert a c) (S.set i y) D n := by
  have hA := h.not_connected hx hxo
  have hk := h.not_entered hx hxc hxe
  have hkeep : ∀ {k}, Owned Setup.enteredId S k → Owned Setup.enteredId (S.set i y) k :=
    fun hm => hm.set hx (by rw [hxe]; simp)
  refine
    { h with
      guards := h.guards.set_same hx hg
      connecting := fun b => by rw [owned_set_same hx hg]; exact h.connecting b
      fresh := fun b hb => ?_
      ids := h.ids.set_same hx hc
      ids_lt := fun k hk => h.ids_lt k ((owned_set_same hx hc).mp hk)
      entered := fun b c' hb => ?_
      inj := fun b b' c₁ c₂ hb hb' hid => ?_
      fin := fun d hd k hf => ?_
      owner := fun b c' hb hdis => ?_
      claimed := fun k hm => ⟨hkeep (h.claimed k hm).1, fun b c' hb hid => ?_⟩ }
  · rcases hb.of_set hx with hb | ⟨j, z, hij, hz, hb⟩
    · rw [ho] at hb; cases hb
    · -- two guards for one address would be one setup
      have hba : b ≠ a := by
        rintro rfl
        exact hij (h.guards _ _ _ _ _ hx hz (Setup.guardAddr_of_openAddr hxo) (Setup.guardAddr_of_openAddr hb))
      rw [Table.lookup_insert, if_neg hba]
      exact h.not_connected hz hb
  · rcases Table.lookup_insert_cases hb with ⟨rfl, rfl⟩ | ⟨-, hb⟩
    · exact ⟨hca, .set_self hx he⟩
    · exact ⟨(h.entered b c' hb).1, hkeep (h.entered b c' hb).2⟩
  · rcases Table.lookup_insert_cases hb with ⟨rfl, rfl⟩ | ⟨-, hb₁⟩ <;>
      rcases Table.lookup_insert_cases hb' with ⟨rfl, rfl⟩ | ⟨-, hb₂⟩
    · rfl
    · exact absurd (hid ▸ (h.entered _ _ hb₂).2) hk
    · exact absurd (hid ▸ (h.entered _ _ hb₁).2) hk
    · exact h.inj _ _ _ _ hb₁ hb₂ hid
  · obtain ⟨c', hd', hrest⟩ := h.fin d hd k hf
    have hne : d.addr ≠ a := by rintro heq; rw [heq, hA] at hd'; cases hd'
    exact ⟨c', by rw [Table.lookup_insert, if_neg hne]; exact hd', hrest⟩
  · rcases Table.lookup_insert_cases hb with ⟨rfl, rfl⟩ | ⟨-, hb⟩
    · rw [hcd] at hdis; cases hdis
    · exact h.owner b c' hb hdis
  · rcases Table.lookup_insert_cases hb with ⟨rfl, rfl⟩ | ⟨-, hb⟩
    · exact absurd (hid ▸ (h.claimed k hm).1) hk
    · exact (h.claimed k hm).2 b c' hb hid

/-- A guard is dropped: its address is no longer connecting. -/
theorem dropGuard {a : SocketAddr} (h : Ledger C A S D n) (hx : S[i]? = some x) (hxg : x.guardAddr = some a)
    (hg : y.guardAddr = none) (hc : y.connId = x.connId) (he : y.enteredId = x.enteredId) :
    Ledger (C.erase a) A (S.set i y) D n := by
  refine
    { h with
      guards := h.guards.set hx fun k hk => by rw [hg] at hk; cases hk
      connecting := fun b => ?_
      fresh := fun b hb => ?_
      ids := h.ids.set_same hx hc
      ids_lt := fun k hk => h.ids_lt k ((owned_set_same hx hc).mp hk)
      entered := fun b c hb => ⟨(h.entered b c hb).1, (owned_set_same hx he).mpr (h.entered b c hb).2⟩
      claimed := fun k hk => ⟨(owned_set_same hx he).mpr (h.claimed k hk).1, (h.claimed k hk).2⟩ }
  · rw [Finset.mem_erase, h.connecting b, owned_set_iff h.guards hx, hg, hxg]
    simp only [reduceCtorEq, false_or, ne_eq, Option.some.injEq]
    exact ⟨fun hm => ⟨hm.2, fun he => hm.1 he.symm⟩, fun hm => ⟨fun he => hm.2 he.symm, hm.1⟩⟩
  · rcases hb.of_set hx with hb | ⟨j, z, -, hz, hb⟩
    · rw [Setup.guardAddr_of_openAddr hb] at hg; cases hg
    · exact h.not_connected hz hb

/-! ## Disconnects -/

/-- A disconnect whose finalizer and claim stay may move on. -/
theorem disc_step (h : Ledger C A S D n) (hd : D[j]? = some d) (ha : e.addr = d.addr)
    (hf : e.pc.finId = d.pc.finId) (hc : e.claimedId = d.claimedId) : Ledger C A S (D.set j e) n := by
  have hfa : e.finAddr = d.finAddr := by rw [Disc.finAddr, Disc.finAddr, hf, ha]
  exact
    { h with
      fin := forall_mem_set h.fin fun k hk => by
        rw [ha]; exact h.fin d (List.mem_of_getElem? hd) k (hf ▸ hk)
      fins := h.fins.set_same hd hfa
      owner := fun a c hac hdis => (owned_set_same hd hfa).mpr (h.owner a c hac hdis)
      claims := h.claims.set_same hd hc
      claimed := fun k hk => h.claimed k ((owned_set_same hd hc).mp hk) }

theorem disc_spawn (h : Ledger C A S D n) (hf : e.pc.finId = none) (hc : e.claimedId = none) :
    Ledger C A S (D ++ [e]) n := by
  have hfa : e.finAddr = none := by rw [Disc.finAddr, hf]; rfl
  exact
    { h with
      fin := forall_mem_append h.fin fun k hk => by rw [hf] at hk; cases hk
      fins := h.fins.append fun k hk => by rw [hfa] at hk; cases hk
      owner := fun a c hac hdis => owned_append.mpr (.inl (h.owner a c hac hdis))
      claims := h.claims.append fun k hk => by rw [hc] at hk; cases hk
      claimed := fun k hk => h.claimed k (by simpa [owned_append, hc] using hk) }

/-- A claim on a connection nobody has claimed. -/
theorem claim {c : Connection} (h : Ledger C A S D n) (hd : D[j]? = some d) (hdf : d.pc.finId = none)
    (hc : A.lookup d.addr = some c) (hcd : c.disconnecting = false) (hea : e.addr = d.addr)
    (hef : e.pc.finId = some c.id) :
    Ledger C (A.insert d.addr { c with disconnecting := true }) S (D.set j e) n := by
  have hec := Disc.claimedId_of_finId hef
  have hfa : e.finAddr = some d.addr := by rw [Disc.finAddr_of_finId hef, hea]
  have hdfa : d.finAddr = none := by rw [Disc.finAddr, hdf]; rfl
  have hnc : ¬ Owned Disc.claimedId D c.id := by
    intro hk
    rw [(h.claimed c.id hk).2 d.addr c hc rfl] at hcd; cases hcd
  have hnf : ¬ Owned Disc.finAddr D d.addr := by
    intro hk
    obtain ⟨z, hz, hza⟩ := hk
    simp only [Disc.finAddr, Option.map_eq_some_iff] at hza
    obtain ⟨k, hk, hza⟩ := hza
    obtain ⟨c', hc', -, hdis⟩ := h.fin z hz k hk
    rw [hza, hc] at hc'; cases hc'
    rw [hcd] at hdis; cases hdis
  refine
    { h with
      fresh := fun b hb => ?_
      entered := fun b c' hb => ?_
      inj := fun b b' c₁ c₂ hb hb' hid => ?_
      fin := forall_mem_set (fun z hz k hk => ?_) fun k hk => ?_
      fins := h.fins.set hd fun k hk => ?_
      owner := fun b c' hb hdis => ?_
      claims := h.claims.set hd fun k hk => ?_
      claimed := fun k hk => ⟨?_, fun b c' hb hid => ?_⟩ }
  · have hne : b ≠ d.addr := by rintro rfl; rw [h.fresh _ hb] at hc; cases hc
    rw [Table.lookup_insert, if_neg hne]; exact h.fresh b hb
  · rcases Table.lookup_insert_cases hb with ⟨rfl, rfl⟩ | ⟨-, hb⟩
    · exact h.entered _ c hc
    · exact h.entered _ _ hb
  · rcases Table.lookup_insert_cases hb with ⟨rfl, rfl⟩ | ⟨-, hb₁⟩ <;>
      rcases Table.lookup_insert_cases hb' with ⟨rfl, rfl⟩ | ⟨-, hb₂⟩
    · rfl
    · exact h.inj _ _ _ _ hc hb₂ hid
    · exact h.inj _ _ _ _ hb₁ hc hid
    · exact h.inj _ _ _ _ hb₁ hb₂ hid
  · obtain ⟨c', hc', hid, hdis⟩ := h.fin z hz k hk
    have hne : z.addr ≠ d.addr := fun heq =>
      hnf ⟨z, hz, by rw [Disc.finAddr_of_finId hk, heq]⟩
    exact ⟨c', by rw [Table.lookup_insert, if_neg hne]; exact hc', hid, hdis⟩
  · rw [hef] at hk; cases hk
    exact ⟨{ c with disconnecting := true }, by rw [hea, Table.lookup_insert, if_pos rfl], rfl, rfl⟩
  · rw [hfa] at hk; cases hk; exact .inr hnf
  · rcases Table.lookup_insert_cases hb with ⟨rfl, rfl⟩ | ⟨-, hb⟩
    · exact .set_self hd hfa
    · exact (h.owner b c' hb hdis).set hd (by rw [hdfa]; simp)
  · rw [hec] at hk; cases hk; exact .inr hnc
  · rcases hk.of_set hd with hk | ⟨j', z, -, hz, hk⟩
    · rw [hec] at hk; cases hk; exact (h.entered _ _ hc).2
    · exact (h.claimed k (.of_getElem? hz hk)).1
  · rcases Table.lookup_insert_cases hb with ⟨rfl, rfl⟩ | ⟨hne, hb⟩
    · rfl
    · rcases hk.of_set hd with hk | ⟨j', z, -, hz, hk⟩
      · rw [hec] at hk; cases hk
        exact absurd (h.inj _ _ _ _ hb hc hid) hne
      · exact (h.claimed k (.of_getElem? hz hk)).2 b c' hb hid

/-- A connection's tasks are nobody's claim. -/
theorem push_task {a : SocketAddr} {c : Connection} (h : Ledger C A S D n) (hc : A.lookup a = some c)
    (tasks : List Handle) : Ledger C (A.insert a { c with tasks := tasks }) S D n := by
  have hold : ∀ {b c'}, (A.insert a { c with tasks := tasks }).lookup b = some c' →
      ∃ c₀, A.lookup b = some c₀ ∧ c₀.id = c'.id ∧ c₀.addr = c'.addr ∧ c₀.disconnecting = c'.disconnecting := by
    intro b c' hb
    rcases Table.lookup_insert_cases hb with ⟨rfl, rfl⟩ | ⟨-, hb⟩
    · exact ⟨c, hc, rfl, rfl, rfl⟩
    · exact ⟨c', hb, rfl, rfl, rfl⟩
  refine
    { h with
      fresh := fun b hb => ?_
      entered := fun b c' hb => ?_
      inj := fun b b' c₁ c₂ hb hb' hid => ?_
      fin := fun d hd k hk => ?_
      owner := fun b c' hb hdis => ?_
      claimed := fun k hk => ⟨(h.claimed k hk).1, fun b c' hb hid => ?_⟩ }
  · have hne : b ≠ a := by rintro rfl; rw [h.fresh _ hb] at hc; cases hc
    rw [Table.lookup_insert, if_neg hne]; exact h.fresh b hb
  · obtain ⟨c₀, h₀, hid, haddr, -⟩ := hold hb
    rw [← hid, ← haddr]; exact h.entered b c₀ h₀
  · obtain ⟨d₁, h₁, hid₁, -⟩ := hold hb
    obtain ⟨d₂, h₂, hid₂, -⟩ := hold hb'
    exact h.inj _ _ _ _ h₁ h₂ (hid₁.trans (hid.trans hid₂.symm))
  · obtain ⟨c', hc', hid, hdis⟩ := h.fin d hd k hk
    rw [Table.lookup_insert]
    split
    next heq => rw [heq, hc] at hc'; cases hc'; exact ⟨_, rfl, hid, hdis⟩
    · exact ⟨c', hc', hid, hdis⟩
  · obtain ⟨c₀, h₀, -, -, hd₀⟩ := hold hb
    exact h.owner b c₀ h₀ (hd₀.trans hdis)
  · obtain ⟨c₀, h₀, hid₀, -, hd₀⟩ := hold hb
    rw [← hd₀]; exact (h.claimed k hk).2 b c₀ h₀ (hid₀.trans hid)

/-- A finalizer removes the connection it claimed. -/
theorem remove {k : Nat} (h : Ledger C A S D n) (hd : D[j]? = some d) (hdf : d.pc.finId = some k)
    (hef : e.pc.finId = none) (hec : e.claimedId = d.claimedId) :
    Ledger C (A.erase d.addr) S (D.set j e) n := by
  have hdfa := Disc.finAddr_of_finId hdf
  have hefa : e.finAddr = none := by rw [Disc.finAddr, hef]; rfl
  refine
    { h with
      fresh := fun b hb => by rw [Table.lookup_erase]; split; rfl; exact h.fresh b hb
      entered := fun b c hb => h.entered b c (Table.lookup_erase_some hb).2
      inj := fun b b' c₁ c₂ hb hb' hid =>
        h.inj _ _ _ _ (Table.lookup_erase_some hb).2 (Table.lookup_erase_some hb').2 hid
      fin := fun z hz k' hk' => ?_
      fins := h.fins.set hd fun k hk => by rw [hefa] at hk; cases hk
      owner := fun b c hb hdis => ?_
      claims := h.claims.set_same hd hec
      claimed := fun k hk => ⟨(h.claimed k ((owned_set_same hd hec).mp hk)).1, fun b c hb hid =>
        (h.claimed k ((owned_set_same hd hec).mp hk)).2 b c (Table.lookup_erase_some hb).2 hid⟩ }
  · obtain ⟨j', hj'⟩ := List.getElem?_of_mem hz
    rcases getElem?_set_cases hd hj' with ⟨-, rfl⟩ | ⟨hjj, hz'⟩
    · rw [hef] at hk'; cases hk'
    · -- another finalizer is for another address
      obtain ⟨c, hc, hrest⟩ := h.fin z (List.mem_of_getElem? hz') k' hk'
      have hne : z.addr ≠ d.addr := fun heq =>
        hjj (h.fins _ _ _ _ _ hd hz' hdfa (heq ▸ Disc.finAddr_of_finId hk'))
      exact ⟨c, by rw [Table.lookup_erase, if_neg hne]; exact hc, hrest⟩
  · obtain ⟨hne, hb⟩ := Table.lookup_erase_some hb
    exact (h.owner b c hb hdis).set hd (by rw [hdfa]; simpa [eq_comm] using hne)

end Ledger

/-! ## Every step -/

/-- The ledger of a state. -/
abbrev LedgerOK (s : State) : Prop := Ledger s.limits.connecting s.active s.setups s.discs s.nextId

theorem Ledger.goto {C : Finset SocketAddr} {A : Active} {S : List Setup} {D : List Disc} {n i : Nat} {t : Setup}
    {p : SetupPc} (h : Ledger C A S D n) (ht : S[i]? = some t) (hg : p.guard = t.pc.guard)
    (hc : ∀ k, p.connId = some k → t.pc.connId = some k) (he : p.enteredId = t.pc.enteredId) :
    Ledger C A (S.set i { t with pc := p }) D n :=
  h.setup_step ht (by simp only [Setup.guardAddr, hg]) (by simp only [Setup.openAddr, hg]) hc he

theorem Ledger.dropGuardGoto {l : ConnectionLimits} {A : Active} {S : List Setup} {D : List Disc} {n i : Nat}
    {t : Setup} {p : SetupPc} {b : Bool} (h : Ledger l.connecting A S D n) (ht : S[i]? = some t)
    (hg : t.pc.guard = some b) (hp : p.guard = none) (hc : p.connId = t.pc.connId)
    (he : p.enteredId = t.pc.enteredId) (completed : Bool) :
    Ledger (l.dropGuard t.addr completed).1.connecting A (S.set i { t with pc := p }) D n := by
  rw [ConnectionLimits.dropGuard_connecting]
  exact h.dropGuard ht (by rw [Setup.guardAddr, hg]; rfl) (by simp only [Setup.guardAddr, hp, Option.map_none]) hc he

theorem Ledger.discGoto {C : Finset SocketAddr} {A : Active} {S : List Setup} {D : List Disc} {n j : Nat} {d : Disc}
    {p : DiscPc} (h : Ledger C A S D n) (hd : D[j]? = some d) (hf : p.finId = d.pc.finId)
    (hc : p.claimedId = d.pc.claimedId) : Ledger C A S (D.set j { d with pc := p }) n :=
  h.disc_step hd rfl hf hc

theorem Ledger.removeGoto {C : Finset SocketAddr} {A : Active} {S : List Setup} {D : List Disc} {n j k : Nat}
    {d : Disc} {p : DiscPc} (h : Ledger C A S D n) (hd : D[j]? = some d) (hpc : d.pc = .dropping k)
    (hf : p.finId = none) (hc : p.claimedId = some k) :
    Ledger C (A.erase d.addr) S (D.set j { d with pc := p }) n :=
  h.remove hd (by rw [hpc]; rfl) hf (by rw [Disc.claimedId, Disc.claimedId, hpc, hc]; rfl)

theorem StepR.ledgerOK {cfg : NodeConfig} {s s' : State} {a : Act} (h : LedgerOK s) (hs : StepR cfg s a s') :
    LedgerOK s' := by
  cases hs with
  | connect => exact h.spawn rfl rfl rfl
  | accept => exact h.spawn rfl rfl rfl
  | startCalled ht hpc =>
    cases s.flag <;> exact h.goto ht (by rw [hpc]; rfl) (by simp [SetupPc.connId]) (by rw [hpc]; rfl)
  | startAccepted ht hpc =>
    cases s.flag <;> exact h.goto ht (by rw [hpc]; rfl) (by simp [SetupPc.connId]) (by rw [hpc]; rfl)
  | reject ht hpc =>
    rcases hpc with hpc | hpc <;>
      exact h.goto ht (by rw [hpc]; rfl) (by simp [SetupPc.connId]) (by rw [hpc]; rfl)
  | checkConnected ht hpc =>
    split <;> exact h.goto ht (by rw [hpc]; rfl) (by simp [SetupPc.connId]) (by rw [hpc]; rfl)
  | acquire ht hpc => exact h.goto ht (by rw [hpc]; rfl) (by simp [SetupPc.connId]) (by rw [hpc]; rfl)
  | noBudget ht hpc => exact h.goto ht (by rw [hpc]; rfl) (by simp [SetupPc.connId]) (by rw [hpc]; rfl)
  | reserveOk ht hpc hl hr =>
    obtain ⟨hA, -, -, -, hC, rfl⟩ := checkAndReserve_ok hr
    exact h.reserve ht (by simp [Setup.guardAddr, hpc, SetupPc.guard]) rfl rfl
      (by simp [Setup.connId, hpc, SetupPc.connId]) (by simp [Setup.enteredId, hpc, SetupPc.enteredId]) hC hA
  | reserveErr ht hpc => exact h.goto ht (by rw [hpc]; rfl) (by simp [SetupPc.connId]) (by rw [hpc]; rfl)
  | adapt ht hpc =>
    exact h.adapt ht (by simp [Setup.guardAddr, hpc, SetupPc.guard]) (by simp [Setup.openAddr, hpc, SetupPc.guard])
      rfl (by simp [Setup.enteredId, hpc, SetupPc.enteredId])
  | failDialing ht hpc => exact h.goto ht (by rw [hpc]; rfl) (by simp [SetupPc.connId]) (by rw [hpc]; rfl)
  | failProtocols ht hpc => exact h.goto ht (by rw [hpc]; rfl) (by simp [SetupPc.connId]) (by rw [hpc]; rfl)
  | wired ht hpc => exact h.goto ht (by rw [hpc]; rfl) (by simp [SetupPc.connId, hpc]) (by rw [hpc]; rfl)
  | lockActive ht hpc => exact h.goto ht (by rw [hpc]; rfl) (by simp [SetupPc.connId, hpc]) (by rw [hpc]; rfl)
  | checkRefused ht hpc => exact h.goto ht (by rw [hpc]; rfl) (by simp [SetupPc.connId]) (by rw [hpc]; rfl)
  | checkAdmitted ht hpc => exact h.goto ht (by rw [hpc]; rfl) (by simp [SetupPc.connId, hpc]) (by rw [hpc]; rfl)
  | insert ht hpc =>
    exact h.insert ht (by simp [Setup.openAddr, hpc, SetupPc.guard]) (by simp [Setup.enteredId, hpc, SetupPc.enteredId])
      (by simp [Setup.connId, hpc, SetupPc.connId]) (by simp [Setup.guardAddr, hpc, SetupPc.guard]) rfl
      (by simp [Setup.connId, hpc, SetupPc.connId]) rfl rfl rfl
  | @dropRefused _ _ _ sched ht hpc =>
    cases sched <;> exact h.dropGuardGoto ht (by rw [hpc]; rfl) rfl (by rw [hpc]; rfl) (by rw [hpc]; rfl) _
  | dropUnwinding ht hpc => exact h.dropGuardGoto ht (by rw [hpc]; rfl) rfl (by rw [hpc]; rfl) (by rw [hpc]; rfl) _
  | dropInserted ht hpc => exact h.dropGuardGoto ht (by rw [hpc]; rfl) rfl (by rw [hpc]; rfl) (by rw [hpc]; rfl) _
  | dropSched ht hpc =>
    by_cases h1 : s.schedInFlight = 1 <;> simp only [h1] <;>
      exact h.goto ht (by rw [hpc]; rfl) (by simp [SetupPc.connId]) (by rw [hpc]; rfl)
  | notifySched ht hpc => exact h.goto ht (by rw [hpc]; rfl) (by simp [SetupPc.connId]) (by rw [hpc]; rfl)
  | scheduleSome ht hpc => exact h.goto ht (by rw [hpc]; rfl) (by simp [SetupPc.connId, hpc]) (by rw [hpc]; rfl)
  | scheduleNone ht hpc => exact h.goto ht (by rw [hpc]; rfl) (by simp [SetupPc.connId, hpc]) (by rw [hpc]; rfl)
  | finish ht hpc => exact h.goto ht (by rw [hpc]; rfl) (by simp [SetupPc.connId, hpc]) (by rw [hpc]; rfl)
  | finishAwaiting ht hpc => exact h.goto ht (by rw [hpc]; rfl) (by simp [SetupPc.connId, hpc]) (by rw [hpc]; rfl)
  | @attach _ t handle _ _ _ =>
    rcases attachHandle_cases s.active t.addr t.id handle with ha | ⟨c, hc, -, ha⟩
    · rw [LedgerOK, ha]; exact h
    · rw [LedgerOK, ha]; exact h.push_task hc _
  | schedDone | schedNotify | noRecovery | beginShutdown | enableOnConnect => exact h
  | disconnect => exact h.disc_spawn rfl rfl
  | recover => exact h.disc_spawn rfl rfl
  | claim hd hpc hl hc =>
    obtain ⟨c, hlook, rfl, hdis, -, rfl⟩ := claimDisconnect_some hc
    exact h.claim hd (by rw [hpc]; rfl) hlook hdis rfl rfl
  | claimNone hd hpc => exact h.discGoto hd (by rw [hpc]; rfl) (by rw [hpc]; rfl)
  | cancel hd hpc => exact h.discGoto hd (by rw [hpc]; rfl) (by rw [hpc]; rfl)
  | register hd hpc hl =>
    obtain ⟨c, hc, -, -⟩ := h.fin _ (List.mem_of_getElem? hd) _ (by rw [hpc]; rfl)
    simp only [registerHandle, hc]
    exact h.push_task hc _
  | finalize hd hpc => exact h.discGoto hd (by rw [hpc]; rfl) (by rw [hpc]; rfl)
  | remove hd hpc hl hc =>
    simp only [State.removeConn, State.discGoto, LedgerOK, ConnectionLimits.releaseIp_connecting]
    exact h.removeGoto hd hpc rfl rfl
  | removeNone hd hpc hl hc =>
    simp only [State.removeConn, State.discGoto, LedgerOK, ConnectionLimits.releaseIp_connecting]
    exact h.removeGoto hd hpc rfl rfl
  | notifyDrain hd hpc => exact h.discGoto hd (by rw [hpc]; rfl) (by rw [hpc]; rfl)
  | takeId => exact h.takeId

theorem ledgerOK_reachable {cfg : NodeConfig} {s : State} (h : (lifecycle cfg).Reachable s) : LedgerOK s :=
  h.invariant Ledger.init fun _ hl _ hs => (step_sound hs).ledgerOK hl

end Pea2Pea
