/-
What holds while an OnDisconnect hook runs (`disconnect_w_origin`), in an
undisturbed run, whether or not OnConnect hooks are abortable: its connection
is still in `active`, claimed, so that the address is refused to everybody
else; no other OnDisconnect hook runs at the address, and no newer connection
there has had its OnConnect hook.

Connections at one address come and go in the order of their ids: `Latest`.
-/
import Pea2Pea.Pairing
import Pea2Pea.Senders

namespace Pea2Pea

open Pool Tasks

/-! ## The latest connection of an address -/

/-- The id of a connection on its way into `active`. -/
def Setup.openId (t : Setup) : Option Nat := t.pc.openId

theorem Setup.guardAddr_of_openId {t : Setup} {k : Nat} (h : t.openId = some k) : t.guardAddr = some t.addr := by
  obtain ⟨role, addr, pc⟩ := t
  cases pc <;> first | rfl | cases h

/-- An entry's id is the greatest that has entered at its address, and a
connection on its way there has a greater one. -/
structure Latest (active : Active) (setups : List Setup) (scheds : List Sched) : Prop where
  entry : ∀ a c, active.lookup a = some c → ∀ x ∈ setups, x.addr = a → ∀ k, x.enteredId = some k → k ≤ c.id
  opening : ∀ x ∈ setups, ∀ k, x.openId = some k → ∀ y ∈ setups, y.addr = x.addr → ∀ m, y.enteredId = some m → m < k
  scheds : ∀ u ∈ scheds, ∃ x ∈ setups, x.addr = u.addr ∧ x.enteredId = some u.id

namespace Latest

variable {A B : Active} {S : List Setup} {U : List Sched} {i : Nat} {x y : Setup}

/-- A setup moves with what has entered as it was. -/
theorem setup_step (h : Latest A S U) (hx : S[i]? = some x) (ha : y.addr = x.addr) (he : y.enteredId = x.enteredId)
    (ho : ∀ k, y.openId = some k → x.openId = some k) : Latest A (S.set i y) U where
  entry a c hc := forall_mem_set (h.entry a c hc) fun hya k hk =>
    h.entry a c hc x (List.mem_of_getElem? hx) (ha ▸ hya) k (he ▸ hk)
  opening := by
    have hx' := List.mem_of_getElem? hx
    refine forall_mem_set (fun z hz k hk => forall_mem_set (h.opening z hz k hk) fun hya m hm =>
      h.opening z hz k hk x hx' (ha ▸ hya) m (he ▸ hm)) fun k hk => ?_
    rw [ha]
    exact forall_mem_set (h.opening x hx' k (ho k hk)) fun hya m hm =>
      h.opening x hx' k (ho k hk) x hx' rfl m (he ▸ hm)
  scheds u hu := exists_mem_set (h.scheds u hu) hx fun hp => ⟨ha.trans hp.1, he.trans hp.2⟩

theorem spawn (h : Latest A S U) (he : y.enteredId = none) (ho : y.openId = none) : Latest A (S ++ [y]) U where
  entry a c hc := forall_mem_append (h.entry a c hc) fun _ k hk => by rw [he] at hk; cases hk
  opening := forall_mem_append
    (fun z hz k hk => forall_mem_append (h.opening z hz k hk) fun _ m hm => by rw [he] at hm; cases hm)
    fun k hk => by rw [ho] at hk; cases hk
  scheds u hu := by
    obtain ⟨z, hz, hrest⟩ := h.scheds u hu
    exact ⟨z, List.mem_append_left _ hz, hrest⟩

/-- A connection is made, with an id above all others. -/
theorem adapt {n : Nat} (h : Latest A S U) (hlt : ∀ k, Owned Setup.connId S k → k < n) (hx : S[i]? = some x)
    (hex : x.enteredId = none) (hey : y.enteredId = none) (hy : y.openId = some n) :
    Latest A (S.set i y) U where
  entry a c hc := forall_mem_set (h.entry a c hc) fun _ k hk => by rw [hey] at hk; cases hk
  opening := by
    refine forall_mem_set (fun z hz k hk => forall_mem_set (h.opening z hz k hk) fun _ m hm => by
      rw [hey] at hm; cases hm) fun k hk => ?_
    rw [hy] at hk
    cases hk
    refine forall_mem_set (fun z hz _ m hm => ?_) fun _ m hm => by rw [hey] at hm; cases hm
    obtain ⟨j, hj⟩ := List.getElem?_of_mem hz
    exact hlt m (.of_getElem? hj (Setup.connId_of_enteredId hm))
  scheds u hu := exists_mem_set (h.scheds u hu) hx fun hp => by rw [hex] at hp; cases hp.2

/-- A connection enters: nothing else was on its way to its address. -/
theorem insert {c : Connection} (h : Latest A S U) (hg : UniqueBy Setup.guardAddr S) (hx : S[i]? = some x)
    (ha : y.addr = x.addr) (hxo : x.openId = some c.id) (hyo : y.openId = none) (hye : y.enteredId = some c.id) :
    Latest (A.insert x.addr c) (S.set i y) U where
  entry a c' hc := by
    have hxm := List.mem_of_getElem? hx
    rcases Table.lookup_insert_cases hc with ⟨rfl, rfl⟩ | ⟨hne, hc⟩
    · refine forall_mem_set (fun z hz hza k hk => (h.opening x hxm _ hxo z hz hza k hk).le) fun _ k hk => ?_
      rw [hye] at hk
      cases hk
      exact le_rfl
    · exact forall_mem_set (h.entry a c' hc) fun hya => absurd (ha ▸ hya).symm hne
  opening z hz k hk := by
    obtain ⟨j, hj⟩ := List.getElem?_of_mem hz
    rcases getElem?_set_cases hx hj with ⟨-, rfl⟩ | ⟨hij, hj⟩
    · rw [hyo] at hk
      cases hk
    · refine forall_mem_set (h.opening z (List.mem_of_getElem? hj) k hk) fun hya m hm => ?_
      have hzx : z.addr = x.addr := hya.symm.trans ha
      have hz' := Setup.guardAddr_of_openId hk
      exact absurd (hg _ _ _ _ _ hx hj (Setup.guardAddr_of_openId hxo) (hzx ▸ hz')) hij
  scheds u hu := exists_mem_set (h.scheds u hu) hx fun hp => by
    rw [(Setup.openAddr_of_openId hxo).2.2] at hp
    cases hp.2

/-- Entries go, or change in what is not their id. -/
theorem shrink (h : Latest A S U) (hB : ∀ a c, B.lookup a = some c → ∃ d, A.lookup a = some d ∧ d.id = c.id) :
    Latest B S U where
  entry a c hc x hx ha k hk := by
    obtain ⟨d, hd, hid⟩ := hB a c hc
    exact hid ▸ h.entry a d hd x hx ha k hk
  opening := h.opening
  scheds := h.scheds

theorem schedule {u : Sched} (h : Latest A S U) (hx : x ∈ S) (ha : x.addr = u.addr) (he : x.enteredId = some u.id) :
    Latest A S (U ++ [u]) :=
  { h with scheds := forall_mem_append h.scheds ⟨x, hx, ha, he⟩ }

theorem schedGoto {u : Sched} {k : Nat} (h : Latest A S U) (hu : U[k]? = some u) (pc : SchedPc) :
    Latest A S (U.set k { u with pc := pc }) :=
  { h with scheds := forall_mem_set h.scheds (h.scheds u (List.mem_of_getElem? hu)) }

theorem goto {p : SetupPc} (h : Latest A S U) (hx : S[i]? = some x) (he : p.enteredId = x.pc.enteredId)
    (ho : ∀ k, p.openId = some k → x.pc.openId = some k) : Latest A (S.set i { x with pc := p }) U :=
  h.setup_step hx rfl he ho

/-- An entry's tasks or claim change. -/
theorem entry_step {a : SocketAddr} {c d : Connection} (h : Latest A S U) (hc : A.lookup a = some c)
    (hid : d.id = c.id) : Latest (A.insert a d) S U :=
  h.shrink fun b e he => by
    rcases Table.lookup_insert_cases he with ⟨rfl, rfl⟩ | ⟨-, he⟩
    · exact ⟨c, hc, hid.symm⟩
    · exact ⟨e, he, rfl⟩

theorem erase (h : Latest A S U) (a : SocketAddr) : Latest (A.erase a) S U :=
  h.shrink fun _ e he => ⟨e, (Table.lookup_erase_some he).2, rfl⟩

end Latest

abbrev LatestOK (s : State) : Prop := Latest s.active s.setups s.scheds

theorem StepR.latestOK {cfg : NodeConfig} {s s' : State} {a : Act} (hL : LedgerOK s) (h : LatestOK s)
    (hs : StepR cfg s a s') : LatestOK s' := by
  cases hs with
  | connect => exact h.spawn rfl rfl
  | accept => exact h.spawn rfl rfl
  | startCalled ht hpc => cases s.flag <;> exact h.goto ht (by rw [hpc]; rfl) (by simp [SetupPc.openId])
  | startAccepted ht hpc => cases s.flag <;> exact h.goto ht (by rw [hpc]; rfl) (by simp [SetupPc.openId])
  | reject ht hpc => rcases hpc with hpc | hpc <;> exact h.goto ht (by rw [hpc]; rfl) (by simp [SetupPc.openId])
  | checkConnected ht hpc => split <;> exact h.goto ht (by rw [hpc]; rfl) (by simp [SetupPc.openId])
  | acquire ht hpc | noBudget ht hpc | reserveErr ht hpc => exact h.goto ht (by rw [hpc]; rfl) (by simp [SetupPc.openId])
  | reserveOk ht hpc => exact h.goto ht (by rw [hpc]; rfl) (by simp [SetupPc.openId])
  | adapt ht hpc => exact h.adapt hL.ids_lt ht (by rw [Setup.enteredId, hpc]; rfl) rfl rfl
  | failDialing ht hpc => exact h.goto ht (by rw [hpc]; rfl) (by simp [SetupPc.openId])
  | failProtocols ht hpc => exact h.goto ht (by rw [hpc]; rfl) (by simp [SetupPc.openId])
  | wired ht hpc | lockActive ht hpc | checkAdmitted ht hpc =>
    exact h.goto ht (by rw [hpc]; rfl) (by simp [SetupPc.openId, hpc])
  | checkRefused ht hpc => exact h.goto ht (by rw [hpc]; rfl) (by simp [SetupPc.openId])
  | insert ht hpc => exact h.insert hL.guards ht rfl (by rw [Setup.openId, hpc]; rfl) rfl rfl
  | @dropRefused _ _ _ sched ht hpc => cases sched <;> exact h.goto ht (by rw [hpc]; rfl) (by simp [SetupPc.openId])
  | dropUnwinding ht hpc => exact h.goto ht (by rw [hpc]; rfl) (by simp [SetupPc.openId])
  | dropInserted ht hpc => exact h.goto ht (by rw [hpc]; rfl) (by simp [SetupPc.openId])
  | dropSched ht hpc =>
    by_cases h1 : s.schedInFlight = 1 <;> simp only [h1] <;>
      exact h.goto ht (by rw [hpc]; rfl) (by simp [SetupPc.openId])
  | notifySched ht hpc => exact h.goto ht (by rw [hpc]; rfl) (by simp [SetupPc.openId])
  | scheduleSome ht hpc =>
    have hgo := h.goto ht (p := .awaiting _ s.scheds.length) (by rw [hpc]; rfl) (by simp [SetupPc.openId])
    exact hgo.schedule (mem_set_self ht _) rfl rfl
  | scheduleNone ht hpc => exact h.goto ht (by rw [hpc]; rfl) (by simp [SetupPc.openId])
  | finish ht hpc => exact h.goto ht (by rw [hpc]; rfl) (by simp [SetupPc.openId])
  | finishAwaiting ht hpc => exact h.goto ht (by rw [hpc]; rfl) (by simp [SetupPc.openId])
  | @attach _ t handle _ _ _ =>
    rcases attachHandle_cases s.active t.addr t.id handle with ha | ⟨c, hc, -, ha⟩
    · rw [LatestOK, ha]; exact h
    · rw [LatestOK, ha]; exact h.entry_step hc rfl
  | schedDone ht hpc => exact h.schedGoto ht _
  | schedNotify ht hpc => exact h.schedGoto ht _
  | claim hd hpc hl hc =>
    obtain ⟨c, hlook, -, -, -, rfl⟩ := claimDisconnect_some hc
    exact h.entry_step hlook rfl
  | register hd hpc hl =>
    obtain ⟨c, hc, -, -⟩ := hL.fin _ (List.mem_of_getElem? hd) _ (by rw [hpc]; rfl)
    simp only [LatestOK, registerHandle, hc]
    exact h.entry_step hc rfl
  | remove hd hpc hl hc => exact h.erase _
  | removeNone hd hpc hl hc => exact h.erase _
  | noRecovery | disconnect | recover | claimNone | cancel | finalize | notifyDrain | beginShutdown | enableOnConnect
  | takeId => exact h

theorem latestOK_reachable {cfg : NodeConfig} {s : State} (h : (lifecycle cfg).Reachable s) : LatestOK s := by
  refine h.invariant ⟨fun a c hc => ?_, ?_, ?_⟩ fun hr hi _ hs => (step_sound hs).latestOK (ledgerOK_reachable hr) hi
  · cases hc
  · intro x hx; cases hx
  · intro u hu; cases hu

namespace Hooks

variable {cfg : NodeConfig} {abortable : Bool} {s : State}

/-! ## The window of a hook -/

/-- An OnDisconnect hook that runs is awaited by its disconnect, which has its
connection's claim. -/
theorem running_claimed (h : (hooks cfg abortable).Reaches (fun s a => undisturbed s a = true) s) {w : Handle}
    {y : Hook} (hy : s.hooks[w]? = some y) (hside : y.side = .disconnect) (hrun : y.status = .running) :
    ∃ t d, s.disconnect.triggers[y.trigger]? = some t ∧ t.reply.hook = some w ∧
      s.base.base.discs[t.owner]? = some d ∧ d.pc = .claimed t.id := by
  obtain ⟨t, ht, hw⟩ := (handlersOK_reachable h.reachable .disconnect).back w y hy hside
  have hmem := List.mem_of_getElem? ht
  obtain ⟨d, hd, -, hpc⟩ := (callersOK_reachable h.reachable).disc t hmem
  refine ⟨t, d, ht, hw, hd, hpc ?_⟩
  have hstand := (sidesOK_reaches h .disconnect).triggers t hmem
  unfold Standing at hstand
  split at hstand
  next hc => rw [hc]; rfl
  next hc => rw [hc]; rfl
  next hc => rw [hc]; rfl
  next hc => rw [hc]; rfl
  next hc =>
    -- a disconnect goes on only when its hook has ended
    obtain ⟨v, hv⟩ := hstand
    rw [hv] at hw
    cases hw
    obtain ⟨z, hz, hended⟩ := over_iff.1 (throughOK_reaches h t hmem hc w hv)
    rw [hy] at hz
    cases hz
    exact absurd hrun hended
  · exact hstand.elim

/-- While an OnDisconnect hook runs, its connection is the entry of its
address, claimed, and `check_and_reserve` refuses the address. No other
OnDisconnect hook runs at the address, and no connection after it has had an
OnConnect trigger there. -/
theorem onDisconnect_window (cfg : NodeConfig) (abortable : Bool) (s : State)
    (h : (hooks cfg abortable).Reaches (fun s a => undisturbed s a = true) s) (w : Handle) (y : Hook)
    (hy : s.hooks[w]? = some y) (hside : y.side = .disconnect) (hrun : y.status = .running) :
    ∃ t d c, s.disconnect.triggers[y.trigger]? = some t ∧ s.base.base.discs[t.owner]? = some d ∧
      s.base.base.active.lookup d.addr = some c ∧ c.id = t.id ∧ c.disconnecting = true ∧
      checkAndReserve cfg.toConfig s.base.base.active s.base.base.limits d.addr =
        .error ⟨.alreadyExists, "already connected"⟩ ∧
      (∀ w' y' t' d', s.hooks[w']? = some y' → y'.side = .disconnect → y'.status = .running →
        s.disconnect.triggers[y'.trigger]? = some t' → s.base.base.discs[t'.owner]? = some d' → d'.addr = d.addr →
        w' = w) ∧
      ∀ t' ∈ s.connect.triggers, ∀ u, s.base.base.scheds[t'.owner]? = some u → u.addr = d.addr → t'.id ≤ t.id := by
  have hbase := (Shutdown.projects cfg).reachable ((projects cfg abortable).reachable h.reachable)
  have hL := ledgerOK_reachable hbase
  have entry : ∀ {d : Disc} {k : Nat} {j : Nat}, s.base.base.discs[j]? = some d → d.pc = .claimed k →
      ∃ c, s.base.base.active.lookup d.addr = some c ∧ c.id = k ∧ c.disconnecting = true :=
    fun hd hpc => hL.fin _ (List.mem_of_getElem? hd) _ (by rw [hpc]; rfl)
  obtain ⟨t, d, ht, hw, hd, hpc⟩ := running_claimed h hy hside hrun
  obtain ⟨c, hc, hid, hdis⟩ := entry hd hpc
  refine ⟨t, d, c, ht, hd, hc, hid, hdis, ?_, fun w' y' t' d' hy' hside' hrun' ht' hd' ha => ?_,
    fun t' ht' u hu ha => ?_⟩
  · rw [checkAndReserve, if_pos (Table.mem_keys hc)]
  · -- the other hook's connection is the same entry, so that it is the same trigger's
    obtain ⟨t₂, d₂, ht₂, hw₂, hd₂, hpc₂⟩ := running_claimed h hy' hside' hrun'
    rw [ht'] at ht₂
    cases ht₂
    rw [hd'] at hd₂
    cases hd₂
    obtain ⟨c₂, hc₂, hid₂, -⟩ := entry hd' hpc₂
    rw [ha, hc] at hc₂
    cases hc₂
    have hq : y'.trigger = y.trigger :=
      trigger_once h.reachable .disconnect _ _ _ _ _ ht' ht (congrArg some (hid₂.symm.trans hid)) rfl
    rw [hq, ht] at ht'
    cases ht'
    rw [hw] at hw₂
    exact (Option.some.inj hw₂).symm
  · obtain ⟨v, hv, hvid, -⟩ := (callersOK_reachable h.reachable).sched t' ht'
    rw [hu] at hv
    cases hv
    have hlast := latestOK_reachable hbase
    obtain ⟨x, hx, hxa, hxe⟩ := hlast.scheds u (List.mem_of_getElem? hu)
    rw [← hid, ← hvid]
    exact hlast.entry d.addr c hc x hx (hxa.trans ha) u.id hxe

/-- A disconnect with its hook running, and the OnConnect hook of the same
connection too, attached to it. -/
def bothRunning : List Act :=
  (pairedRun.takeWhile (· ≠ .hookDone 1)).flatMap fun a => if a = .respond .connect 0 then [a, .attach 0] else [a]

theorem onDisconnect_window_bothRunning :
    ∃ s, (hooks threeSlots true).Reaches (fun s a => undisturbed s a = true) s ∧
      s.hooks = [⟨.connect, 0, .running⟩, ⟨.disconnect, 0, .running⟩] ∧
      ∃ c, s.base.base.active.lookup peer = some c ∧ c.id = 0 ∧ c.disconnecting = true := by
  obtain ⟨s, hs, hp⟩ := ((hooks threeSlots true).guarded undisturbed).exists_reachable bothRunning
    (fun s => s.hooks = [⟨.connect, 0, .running⟩, ⟨.disconnect, 0, .running⟩] ∧
      s.base.base.discs.map (·.addr) = [peer, peer] ∧ s.disconnect.triggers.map (·.id) = [0]) (by decide +kernel)
  have hr : (hooks threeSlots true).Reaches (fun s a => undisturbed s a = true) s :=
    .of_guarded (fun s a ha => ha) hs
  obtain ⟨hhooks, haddr, hid⟩ := of_decide_eq_true hp
  obtain ⟨t, d, c, ht, hd, hc, hcid, hdis, -⟩ :=
    onDisconnect_window threeSlots true s hr 1 ⟨.disconnect, 0, .running⟩ (by rw [hhooks]; rfl) rfl rfl
  have hd' : d.addr ∈ s.base.base.discs.map (·.addr) := List.mem_map_of_mem (List.mem_of_getElem? hd)
  have ht' : t.id ∈ s.disconnect.triggers.map (·.id) := List.mem_map_of_mem (List.mem_of_getElem? ht)
  rw [haddr] at hd'
  rw [hid] at ht'
  have hpeer : d.addr = peer := by simpa using hd'
  exact ⟨s, hr, hhooks, c, hpeer ▸ hc, hcid.trans (by simpa using ht'), hdis⟩

end Hooks

end Pea2Pea
