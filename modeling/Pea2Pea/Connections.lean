/-
Connections and their limits (`connections.rs`): the per-connection record,
the reservation set and per-IP charges behind the `limits` lock, and the
effects the guard and the `active` map have on them.
-/
import Pea2Pea.Addr
import Pea2Pea.Lib.Table

namespace Pea2Pea

/-- A handle to a spawned task. -/
abbrev Handle := Nat

/-- A `debug_assert!` of the source that was reached. -/
inductive Assertion
  /-- `release_ip` found no bucket. -/
  | ipUnderflow (ip : IpAddr)
  /-- A claimed connection was gone when its OnDisconnect handle came. -/
  | connectionVanished (addr : SocketAddr)
  deriving DecidableEq

/-- `Connection`: its instance id, address, disconnect claim and tasks. -/
structure Connection where
  id : Nat
  addr : SocketAddr
  disconnecting : Bool
  tasks : List Handle
  deriving DecidableEq

/-- The established connections, by address. -/
abbrev Active := Table SocketAddr Connection

/-- `ConnectionLimits`: the addresses being set up, and the number of
connections (pending and established) charged to each IP. -/
structure ConnectionLimits where
  connecting : Finset SocketAddr
  ipCounts : Table IpAddr Nat

namespace ConnectionLimits

/-- Marks `addr` as connecting and charges its IP. -/
def reserve (l : ConnectionLimits) (addr : SocketAddr) : ConnectionLimits :=
  let ip := canonicalIp addr
  { connecting := insert addr l.connecting
    ipCounts := l.ipCounts.insert ip ((l.ipCounts.lookup ip).getD 0 + 1) }

/-- The number of connections charged to `addr`'s IP. -/
def ipCount (l : ConnectionLimits) (addr : SocketAddr) : Nat :=
  (l.ipCounts.lookup (canonicalIp addr)).getD 0

/-- Releases one charge for `addr`; the bucket goes with its last charge. A
missing bucket fails the assertion and leaves the counts alone. -/
def releaseIp (l : ConnectionLimits) (addr : SocketAddr) : ConnectionLimits × List Assertion :=
  let ip := canonicalIp addr
  match l.ipCounts.lookup ip with
  | some n =>
    if n > 1 then ({ l with ipCounts := l.ipCounts.insert ip (n - 1) }, [])
    else ({ l with ipCounts := l.ipCounts.erase ip }, [])
  | none => (l, [.ipUnderflow ip])

/-- `ConnectionGuard::drop`: the address is no longer connecting, and the
charge is released unless the connection was finalized. -/
def dropGuard (l : ConnectionLimits) (addr : SocketAddr) (completed : Bool) :
    ConnectionLimits × List Assertion :=
  let l := { l with connecting := l.connecting.erase addr }
  if completed then (l, []) else l.releaseIp addr

/-- The charge an IP carries; an absent bucket counts zero. -/
def charge (l : ConnectionLimits) (ip : IpAddr) : Nat := (l.ipCounts.lookup ip).getD 0

/-- No bucket holds zero. -/
def NoEmptyBucket (l : ConnectionLimits) : Prop := ∀ ip, l.ipCounts.lookup ip ≠ some 0

theorem charge_reserve (l : ConnectionLimits) (addr : SocketAddr) (ip : IpAddr) :
    (l.reserve addr).charge ip = l.charge ip + if canonicalIp addr = ip then 1 else 0 := by
  simp only [charge, reserve, Table.lookup_insert]
  by_cases h : ip = canonicalIp addr
  · subst h; simp
  · simp [h, Ne.symm h]

theorem NoEmptyBucket.reserve {l : ConnectionLimits} (h : l.NoEmptyBucket) (addr : SocketAddr) :
    (l.reserve addr).NoEmptyBucket := by
  intro ip hip
  simp only [ConnectionLimits.reserve] at hip
  rcases Table.lookup_insert_cases hip with ⟨-, h0⟩ | ⟨-, h0⟩
  · omega
  · exact h ip h0

@[simp] theorem releaseIp_connecting (l : ConnectionLimits) (addr : SocketAddr) :
    (l.releaseIp addr).1.connecting = l.connecting := by
  simp only [releaseIp]
  split
  · split <;> rfl
  · rfl

/-- A charged IP is released without an assertion: its charge drops by one. -/
theorem releaseIp_charged {l : ConnectionLimits} {addr : SocketAddr} (hpos : 0 < l.charge (canonicalIp addr)) :
    (l.releaseIp addr).2 = [] ∧
    ∀ ip, (l.releaseIp addr).1.charge ip + (if canonicalIp addr = ip then 1 else 0) = l.charge ip := by
  simp only [charge] at hpos
  cases hn : l.ipCounts.lookup (canonicalIp addr) with
  | none => simp [hn] at hpos
  | some n =>
    simp only [hn, Option.getD_some] at hpos
    by_cases hgt : n > 1
    · refine ⟨by simp [releaseIp, hn, hgt], fun ip => ?_⟩
      simp only [releaseIp, hn, hgt, if_true, charge, Table.lookup_insert]
      by_cases hip : ip = canonicalIp addr
      · subst hip; simp [hn]; omega
      · simp [hip, Ne.symm hip]
    · refine ⟨by simp [releaseIp, hn, hgt], fun ip => ?_⟩
      simp only [releaseIp, hn, hgt, if_false, charge, Table.lookup_erase]
      by_cases hip : ip = canonicalIp addr
      · subst hip; simp [hn]; omega
      · simp [hip, Ne.symm hip]

/-- A release never raises a charge. -/
theorem charge_releaseIp_le (l : ConnectionLimits) (addr : SocketAddr) (ip : IpAddr) :
    (l.releaseIp addr).1.charge ip ≤ l.charge ip := by
  by_cases hpos : 0 < l.charge (canonicalIp addr)
  · have := (releaseIp_charged hpos).2 ip
    omega
  · simp only [releaseIp]
    split
    next n hn =>
      simp only [charge, hn, Option.getD_some, Nat.not_lt, Nat.le_zero_eq] at hpos
      rw [if_neg (by omega), charge, Table.lookup_erase]
      split
      · exact Nat.zero_le _
      · exact le_rfl
    · exact le_rfl

theorem NoEmptyBucket.releaseIp {l : ConnectionLimits} (h : l.NoEmptyBucket) (addr : SocketAddr) :
    (l.releaseIp addr).1.NoEmptyBucket := by
  intro ip hip
  simp only [ConnectionLimits.releaseIp] at hip
  split at hip
  · split at hip
    · rcases Table.lookup_insert_cases hip with ⟨-, h0⟩ | ⟨-, h0⟩
      · omega
      · exact h ip h0
    · exact h ip (Table.lookup_erase_some hip).2
  · exact h ip hip

@[simp] theorem dropGuard_connecting (l : ConnectionLimits) (addr : SocketAddr) (completed : Bool) :
    (l.dropGuard addr completed).1.connecting = l.connecting.erase addr := by
  cases completed <;> simp [dropGuard]

theorem charge_dropGuard_le (l : ConnectionLimits) (addr : SocketAddr) (completed : Bool) (ip : IpAddr) :
    (l.dropGuard addr completed).1.charge ip ≤ l.charge ip := by
  cases completed
  · exact charge_releaseIp_le { l with connecting := l.connecting.erase addr } addr ip
  · exact le_rfl

end ConnectionLimits

end Pea2Pea
