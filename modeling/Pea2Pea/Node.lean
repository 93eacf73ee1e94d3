/-
The node's synchronous decisions (`node.rs`, `protocols/mod.rs`): the
accepted configuration, admission (`check_and_reserve`), the disconnect
claim, the recovery test of `DisconnectOnDrop`, and the registrations of
the hooks' handles. Each reads and writes what its critical section covers.
-/
import Pea2Pea.Connections

namespace Pea2Pea

/-- `io::ErrorKind`, where the node produces one. -/
inductive ErrorKind
  | addrInUse
  | addrNotAvailable
  | alreadyExists
  | invalidInput
  | other
  | quotaExceeded
  | timedOut
  deriving DecidableEq

/-- An `io::Error`: its kind and message. -/
structure IoError where
  kind : ErrorKind
  msg : String
  deriving DecidableEq

/-- `Config`, as far as connections are concerned. -/
structure Config where
  listenerAddr : Option SocketAddr
  maxConnections : Nat
  maxConnectionsPerIp : Nat
  maxConnecting : Nat

/-- A configuration `Node::new` accepts: no limit is zero, and the setup
budget is within the connection limit. -/
structure NodeConfig extends Config where
  maxConnections_pos : 0 < maxConnections
  maxConnectionsPerIp_pos : 0 < maxConnectionsPerIp
  maxConnecting_pos : 0 < maxConnecting
  maxConnecting_le : maxConnecting ≤ maxConnections

/-- `Node::new`: a zero limit panics, and a surplus of the setup budget is
clamped. -/
def Node.new (config : Config) : Except String NodeConfig :=
  if h₁ : config.maxConnections = 0 then .error "Config::max_connections must not be 0"
  else if h₂ : config.maxConnectionsPerIp = 0 then .error "Config::max_connections_per_ip must not be 0"
  else if h₃ : config.maxConnecting = 0 then .error "Config::max_connecting must not be 0"
  else .ok
    { config with
      maxConnecting := min config.maxConnecting config.maxConnections
      maxConnections_pos := by omega
      maxConnectionsPerIp_pos := by omega
      maxConnecting_pos := by omega
      maxConnecting_le := by omega }

/-- `Node::check_and_reserve`, under the `limits` lock and one `active` read
guard: the limits with the reservation made, or the reason for refusing. -/
def checkAndReserve (cfg : Config) (active : Active) (limits : ConnectionLimits) (addr : SocketAddr) :
    Except IoError ConnectionLimits :=
  if addr ∈ active.keys then .error ⟨.alreadyExists, "already connected"⟩
  else
    let perIpLimit := cfg.maxConnectionsPerIp
    if limits.ipCount addr ≥ perIpLimit then
      .error ⟨.quotaExceeded, "maximum number (" ++ toString perIpLimit ++ ") of per-IP connections reached"⟩
    else
      let numConnecting := limits.connecting.card
      let connectingLimit := cfg.maxConnecting
      if numConnecting ≥ connectingLimit then
        .error ⟨.quotaExceeded, "maximum number (" ++ toString connectingLimit ++ ") of pending connections reached"⟩
      else
        let connectionLimit := cfg.maxConnections
        if active.size + numConnecting ≥ connectionLimit then
          .error ⟨.quotaExceeded, "maximum number (" ++ toString connectionLimit ++ ") of connections reached"⟩
        else if addr ∈ limits.connecting then .error ⟨.alreadyExists, "already connecting"⟩
        else .ok (limits.reserve addr)

/-- `Node::claim_disconnect`, under an `active` read guard: the map with the
claim taken, and the id of the instance it was taken on. -/
def claimDisconnect (active : Active) (addr : SocketAddr) (connId : Option Nat) : Option (Active × Nat) :=
  match active.lookup addr with
  | none => none
  | some conn =>
    if connId.any (conn.id != ·) then none
    else if conn.disconnecting then none
    else some (active.insert addr { conn with disconnecting := true }, conn.id)

/-- `DisconnectOnDrop::drop`: whether the address is still held by the
guard's own connection, with no disconnect under way. -/
def needsRecovery (active : Active) (addr : SocketAddr) (connId : Nat) : Bool :=
  (active.lookup addr).any fun c => c.id == connId && !c.disconnecting

/-- The registration of an OnDisconnect handle with its connection; a missing
connection fails the assertion (and the handle is aborted). -/
def registerHandle (active : Active) (addr : SocketAddr) (handle : Handle) : Active × List Assertion :=
  match active.lookup addr with
  | some conn => (active.insert addr { conn with tasks := conn.tasks ++ [handle] }, [])
  | none => (active, [.connectionVanished addr])

/-- The registration of an abortable OnConnect handle, with *its* connection
only; whether it was taken (if not, the handle is aborted). -/
def attachHandle (active : Active) (addr : SocketAddr) (connId : Nat) (handle : Handle) : Active × Bool :=
  match active.lookup addr with
  | some conn =>
    if conn.id = connId then (active.insert addr { conn with tasks := conn.tasks ++ [handle] }, true)
    else (active, false)
  | none => (active, false)

/-- What an admitted reservation was checked against. -/
theorem checkAndReserve_ok {cfg : Config} {active : Active} {limits l : ConnectionLimits} {addr : SocketAddr}
    (h : checkAndReserve cfg active limits addr = .ok l) :
    active.lookup addr = none ∧ limits.ipCount addr < cfg.maxConnectionsPerIp ∧
      limits.connecting.card < cfg.maxConnecting ∧
      active.size + limits.connecting.card < cfg.maxConnections ∧
      addr ∉ limits.connecting ∧ l = limits.reserve addr := by
  simp only [checkAndReserve] at h
  split at h
  · cases h
  next h₁ =>
  split at h
  · cases h
  next h₂ =>
  split at h
  · cases h
  next h₃ =>
  split at h
  · cases h
  next h₄ =>
  split at h
  · cases h
  next h₅ =>
  cases h
  refine ⟨?_, by omega, by omega, by omega, h₅, rfl⟩
  rw [Finmap.mem_keys] at h₁
  exact Finmap.lookup_eq_none.mpr h₁

/-- `check_and_reserve`'s error when `max_connections` is reached. -/
def maxConnectionsError (cfg : Config) : IoError :=
  ⟨.quotaExceeded, "maximum number (" ++ toString cfg.maxConnections ++ ") of connections reached"⟩

/-- Texts that end differently. -/
theorem append_ne_append (n : Nat) {u v : String} (hu : n ≤ u.toList.reverse.length) (hv : n ≤ v.toList.reverse.length)
    (h : u.toList.reverse.take n ≠ v.toList.reverse.take n) (a b : String) : a ++ u ≠ b ++ v := by
  intro heq
  have hrev := congrArg (fun s : String => s.toList.reverse.take n) heq
  simp only [String.toList_append, List.reverse_append] at hrev
  rw [List.take_append_of_le_length hu, List.take_append_of_le_length hv] at hrev
  exact h hrev

/-- When a reservation is rejected on the global limit. -/
theorem checkAndReserve_full_iff {cfg : Config} {active : Active} {limits : ConnectionLimits} {addr : SocketAddr} :
    checkAndReserve cfg active limits addr = .error (maxConnectionsError cfg) ↔
      addr ∉ active.keys ∧ limits.ipCount addr < cfg.maxConnectionsPerIp ∧
        limits.connecting.card < cfg.maxConnecting ∧ cfg.maxConnections ≤ active.size + limits.connecting.card := by
  constructor
  · intro h
    simp only [checkAndReserve, maxConnectionsError] at h
    split at h
    · simp at h
    next h₁ =>
    split at h
    · have hmsg := congrArg IoError.msg (Except.error.inj h)
      exact absurd hmsg (append_ne_append 21 (by decide) (by decide) (by decide) _ _)
    next h₂ =>
    split at h
    · have hmsg := congrArg IoError.msg (Except.error.inj h)
      exact absurd hmsg (append_ne_append 21 (by decide) (by decide) (by decide) _ _)
    next h₃ =>
    split at h
    next h₄ => exact ⟨h₁, by omega, by omega, h₄⟩
    split at h
    · simp at h
    · cases h
  · rintro ⟨h₁, h₂, h₃, h₄⟩
    simp only [checkAndReserve]
    rw [if_neg h₁, if_neg (by omega), if_neg (by omega), if_pos h₄]
    rfl

/-- What a successful claim found and did. -/
theorem claimDisconnect_some {active active' : Active} {addr : SocketAddr} {connId : Option Nat} {id : Nat}
    (h : claimDisconnect active addr connId = some (active', id)) :
    ∃ conn, active.lookup addr = some conn ∧ conn.id = id ∧ conn.disconnecting = false ∧
      (∀ k, connId = some k → k = id) ∧ active' = active.insert addr { conn with disconnecting := true } := by
  simp only [claimDisconnect] at h
  split at h
  · cases h
  next conn hc =>
  split at h
  · cases h
  next hid =>
  split at h
  · cases h
  next hd =>
  cases h
  refine ⟨conn, hc, rfl, by simpa using hd, fun k hk => ?_, rfl⟩
  subst hk
  have : conn.id = k := by simpa using hid
  exact this.symm

/-- A claim that any instance would do for fails only where none is left. -/
theorem claimDisconnect_none {active : Active} {addr : SocketAddr} {conn : Connection}
    (h : claimDisconnect active addr none = none) (hc : active.lookup addr = some conn) :
    conn.disconnecting = true := by
  simpa [claimDisconnect, hc] using h

/-- An attached handle goes to the tasks of the entry that was there. -/
theorem attachHandle_cases (active : Active) (addr : SocketAddr) (connId : Nat) (handle : Handle) :
    (attachHandle active addr connId handle).1 = active ∨
      ∃ conn, active.lookup addr = some conn ∧ conn.id = connId ∧
        (attachHandle active addr connId handle).1 =
          active.insert addr { conn with tasks := conn.tasks ++ [handle] } := by
  simp only [attachHandle]
  split
  next conn hc =>
    split
    next hid => exact .inr ⟨conn, hc, hid, rfl⟩
    · exact .inl rfl
  · exact .inl rfl

/-- A handle that was taken is with its connection. -/
theorem attachHandle_taken {active : Active} {addr : SocketAddr} {connId : Nat} {handle : Handle}
    (h : (attachHandle active addr connId handle).2 = true) :
    ∃ conn, (attachHandle active addr connId handle).1.lookup addr = some conn ∧ conn.id = connId ∧
      handle ∈ conn.tasks := by
  unfold attachHandle at h ⊢
  split at h
  next conn hc =>
    split at h
    next hid =>
      rw [if_pos hid]
      exact ⟨_, Finmap.lookup_insert _, hid, by simp⟩
    · cases h
  · cases h

end Pea2Pea
