/-
Teardown per connection instance: a claim is taken at most once on an id,
the finalizer it arms finds that id in place until it removes it, and `add`
meets no entry to displace. The finalizer, the OnDisconnect registration and
the removal go by address alone; what excludes another instance there is the
ledger (reservation, duplicate check, claim flag and removal together).
-/
import Pea2Pea.Ledger

namespace Pea2Pea

open Pool

/-- What a disconnect claimed and removed is one instance, and the one it
was asked for if it was asked for one. -/
structure Disc.Exact (d : Disc) : Prop where
  removed : ∀ id got, d.pc = .removed id got → got = id
  done : ∀ id got, d.pc = .done id got → got = id
  asked : ∀ id k, d.connId = some k → d.claimedId = some id → id = k

theorem Disc.Exact.called {addr : SocketAddr} {origin : DisconnectOrigin} {connId : Option Nat} :
    Disc.Exact ⟨addr, origin, connId, .called⟩ where
  removed id got h := by cases h
  done id got h := by cases h
  asked id k _ h := by cases h

/-- Moves that neither claim nor end a disconnect. -/
theorem Disc.Exact.goto {d : Disc} {p : DiscPc} (h : d.Exact) (hr : ∀ id got, p = .removed id got → got = id)
    (hd : ∀ id got, p = .done id got → got = id) (hc : ∀ id, p.claimedId = some id → d.claimedId = some id) :
    Disc.Exact { d with pc := p } where
  removed := hr
  done := hd
  asked id k hk hid := h.asked id k hk (hc id hid)

/-- No claimed connection vanished, and every disconnect is exact. -/
structure TeardownOK (s : State) : Prop where
  present : ∀ addr, .connectionVanished addr ∉ s.failures
  exact : ∀ d ∈ s.discs, d.Exact

theorem ConnectionLimits.releaseIp_failures (l : ConnectionLimits) (a b : SocketAddr) :
    .connectionVanished b ∉ (l.releaseIp a).2 := by
  simp only [releaseIp]
  split
  · split <;> simp
  · simp

theorem ConnectionLimits.dropGuard_failures (l : ConnectionLimits) (a b : SocketAddr) (completed : Bool) :
    .connectionVanished b ∉ (l.dropGuard a completed).2 := by
  cases completed
  · exact releaseIp_failures _ a b
  · simp [dropGuard]

theorem StepR.teardownOK {cfg : NodeConfig} {s s' : State} {a : Act} (hL : LedgerOK s) (h : TeardownOK s)
    (hs : StepR cfg s a s') : TeardownOK s' := by
  have keep : ∀ {f : List Assertion}, (∀ addr, .connectionVanished addr ∉ f) →
      ∀ addr, .connectionVanished addr ∉ s.failures ++ f := fun hf addr hm =>
    (List.mem_append.mp hm).elim (h.present addr) (hf addr)
  cases hs with
  | dropRefused | dropUnwinding | dropInserted => exact ⟨keep (s.limits.dropGuard_failures _ · _), h.exact⟩
  | disconnect => exact ⟨h.present, forall_mem_append h.exact .called⟩
  | recover => exact ⟨h.present, forall_mem_append h.exact .called⟩
  | @claim _ d _ id hd hpc hl hc =>
    obtain ⟨c, -, -, -, hk, -⟩ := claimDisconnect_some hc
    refine ⟨h.present, forall_mem_set h.exact ⟨?_, ?_, ?_⟩⟩
    · intro id got h; cases h
    · intro id got h; cases h
    · intro id' k hconn hid
      cases hid
      exact (hk k hconn).symm
  | claimNone hd hpc =>
    exact ⟨h.present, forall_mem_set h.exact ((h.exact _ (List.mem_of_getElem? hd)).goto (by simp)
      (by rintro _ _ ⟨⟩; rfl) (by simp [DiscPc.claimedId]))⟩
  | cancel hd hpc =>
    exact ⟨h.present, forall_mem_set h.exact ((h.exact _ (List.mem_of_getElem? hd)).goto (by simp)
      (by rintro _ _ ⟨⟩; rfl) (by simp [DiscPc.claimedId]))⟩
  | register hd hpc hl =>
    obtain ⟨c, hc, -, -⟩ := hL.fin _ (List.mem_of_getElem? hd) _ (by rw [hpc]; rfl)
    exact ⟨keep (by simp [registerHandle, hc]), h.exact⟩
  | finalize hd hpc =>
    exact ⟨h.present, forall_mem_set h.exact ((h.exact _ (List.mem_of_getElem? hd)).goto (by simp) (by simp)
      (by simp [Disc.claimedId, hpc, DiscPc.claimedId]))⟩
  | remove hd hpc hl hc =>
    -- what the finalizer finds at its address is what it claimed
    obtain ⟨c, hc', hid, -⟩ := hL.fin _ (List.mem_of_getElem? hd) _ (by rw [hpc]; rfl)
    rw [hc] at hc'; cases hc'
    exact ⟨keep (s.limits.releaseIp_failures _), forall_mem_set h.exact
      ((h.exact _ (List.mem_of_getElem? hd)).goto (by rintro _ _ ⟨⟩; exact hid) (by simp)
        (by simp [Disc.claimedId, hpc, DiscPc.claimedId]))⟩
  | removeNone hd hpc hl hc =>
    obtain ⟨c, hc', -, -⟩ := hL.fin _ (List.mem_of_getElem? hd) _ (by rw [hpc]; rfl)
    rw [hc] at hc'; cases hc'
  | notifyDrain hd hpc =>
    have hx := h.exact _ (List.mem_of_getElem? hd)
    exact ⟨h.present, forall_mem_set h.exact (hx.goto (by simp)
      (by rintro _ _ ⟨⟩; rw [hx.removed _ _ hpc]) (by simp [Disc.claimedId, hpc, DiscPc.claimedId]))⟩
  | connect | accept | startCalled | startAccepted | reject | checkConnected | acquire | noBudget
  | reserveOk | reserveErr | adapt | failDialing | failProtocols | wired | lockActive | checkRefused | checkAdmitted
  | insert | dropSched | notifySched | scheduleSome | scheduleNone | finish | finishAwaiting | attach | schedDone
  | schedNotify | noRecovery | beginShutdown | enableOnConnect | takeId => exact ⟨h.present, h.exact⟩

theorem teardownOK_reachable {cfg : NodeConfig} {s : State} (h : (lifecycle cfg).Reachable s) : TeardownOK s :=
  h.invariant ⟨by simp [lifecycle, State.init], by simp [lifecycle, State.init]⟩
    fun hr ht _ hs => (step_sound hs).teardownOK (ledgerOK_reachable hr) ht

/-! ## Over whole runs -/

/-- Teardown is exclusive and exact per connection instance. A disconnect
keeps the id it claimed for good, so the first part is about all claims ever
made; the failures are all that ever occurred. -/
theorem teardown_exact (cfg : NodeConfig) (s : State) (h : (lifecycle cfg).Reachable s) :
    -- one claim per instance
    (∀ (i j : Nat) d e id, s.discs[i]? = some d → s.discs[j]? = some e →
      d.claimedId = some id → e.claimedId = some id → i = j) ∧
    -- the claimed instance stays in place while its finalizer lives
    (∀ d ∈ s.discs, ∀ id, d.pc = .claimed id ∨ d.pc = .dropping id →
      ∃ c, s.active.lookup d.addr = some c ∧ c.id = id) ∧
    (∀ addr, .connectionVanished addr ∉ s.failures) ∧
    -- `add` displaces no entry
    (∀ i tasks s', step cfg s (.insert i tasks) = some s' →
      ∃ t id, s.setups[i]? = some t ∧ s.active.lookup t.addr = none ∧
        s'.active = s.active.insert t.addr ⟨id, t.addr, false, tasks⟩) ∧
    -- the finalizer removes what was claimed
    (∀ j s', step cfg s (.remove j) = some s' →
      ∃ d id c, s.discs[j]? = some d ∧ d.pc = .dropping id ∧ s.active.lookup d.addr = some c ∧ c.id = id ∧
        s'.active = s.active.erase d.addr) ∧
    -- a claim for an instance is a claim on that instance
    ∀ d ∈ s.discs, ∀ id k, d.connId = some k → d.claimedId = some id → id = k := by
  have hL := ledgerOK_reachable h
  have hT := teardownOK_reachable h
  refine ⟨hL.claims, fun d hd id hpc => ?_, hT.present, fun i tasks s' hs => ?_, fun j s' hs => ?_,
    fun d hd => (hT.exact d hd).asked⟩
  · have hf : d.pc.finId = some id := by rcases hpc with hpc | hpc <;> rw [hpc] <;> rfl
    obtain ⟨c, hc, hid, -⟩ := hL.fin d hd id hf
    exact ⟨c, hc, hid⟩
  · cases step_sound hs with
    | @insert _ t id _ _ _ ht hpc =>
      exact ⟨t, id, ht, hL.not_connected ht (by simp [Setup.openAddr, hpc, SetupPc.guard]), rfl⟩
  · cases step_sound hs with
    | @remove _ d id c hd hpc hl hc =>
      obtain ⟨c', hc', hid, -⟩ := hL.fin d (List.mem_of_getElem? hd) id (by rw [hpc]; rfl)
      rw [hc] at hc'; cases hc'
      exact ⟨d, id, c, hd, hpc, hc, hid, rfl⟩
    | removeNone hd hpc hl hc =>
      obtain ⟨c', hc', -, -⟩ := hL.fin _ (List.mem_of_getElem? hd) _ (by rw [hpc]; rfl)
      rw [hc] at hc'; cases hc'

/-- A connection is torn down by one of two disconnects and its address
reused; a recovery for the first instance then leaves the second alone. -/
def reusedAddress : List Act :=
  let setup (i : Nat) : List Act :=
    [.connect peer, .start i, .checkConnected i, .acquire i, .reserve i, .adapt i, .wired i, .lockActive i, .checkFlag i,
      .insert i [], .dropGuard i, .schedule i, .finish i]
  setup 0 ++
    [.disconnect peer .user none, .disconnect peer .user none, .claim 0, .claim 1, .finalize 0, .remove 0,
      .notifyDrain 0] ++
    setup 1 ++ [.disconnect peer .writing (some 0), .claim 2]

theorem teardown_exact_reusedAddress : ∃ s, (lifecycle threeSlots).Reachable s ∧
    s.discs.map Disc.claimedId = [some 0, none, none] ∧ (s.active.lookup peer).map (·.id) = some 1 ∧
    (∀ (j : Nat) d, s.discs[j]? = some d → d.claimedId = some 0 → j = 0) := by
  obtain ⟨s, hs, hp⟩ := (lifecycle threeSlots).exists_reachable reusedAddress
    (fun s => s.discs.map Disc.claimedId = [some 0, none, none] ∧
      (s.active.lookup peer).map (·.id) = some 1 ∧ (s.discs[0]?.bind Disc.claimedId) = some 0) (by decide +kernel)
  obtain ⟨hd, ha, h₀⟩ := of_decide_eq_true hp
  obtain ⟨d, hd₀, hc₀⟩ := Option.bind_eq_some_iff.mp h₀
  exact ⟨s, hs, hd, ha, fun j e hj he => (teardown_exact threeSlots s hs).1 j 0 e d 0 hj hd₀ he hc₀⟩

end Pea2Pea
