/-
Who a published sender belongs to.

A connection is in line at its address from `Connection::new` until it is
claimed: first by its setup's open guard, then by its entry in `active`. Of
two instances at one address at most one is in line, so a setup whose driver
still waits never publishes over another's sender. One whose driver was
dropped does: `adopt_writer` does not look at what it replaces. Apart from
that, a connection in line with a running writer keeps its sender.
-/
import Pea2Pea.Ledger
import Pea2Pea.Writing

namespace Pea2Pea

open Pool

/-! ## In line at an address -/

/-- The id of a connection whose setup has an open guard. -/
def SetupPc.openId : SetupPc → Option Nat
  | .protocols id | .ready id _ | .adding id _ _ | .admitted id _ _ => some id
  | _ => none

def Setup.line (t : Setup) : Option (SocketAddr × Nat) := t.pc.openId.map (t.addr, ·)

/-- Connection `id` is being set up at `addr`, or is established there with
no disconnect claimed. -/
def InLine (s : State) (addr : SocketAddr) (id : Nat) : Prop :=
  Owned Setup.line s.setups (addr, id) ∨ ∃ c, s.active.lookup addr = some c ∧ c.id = id ∧ c.disconnecting = false

theorem Setup.line_eq {t : Setup} {a : SocketAddr} {k : Nat} :
    t.line = some (a, k) ↔ t.pc.openId = some k ∧ t.addr = a := by
  simp only [line, Option.map_eq_some_iff, Prod.mk.injEq]
  constructor
  · rintro ⟨k', hk, ha, rfl⟩; exact ⟨hk, ha⟩
  · rintro ⟨hk, ha⟩; exact ⟨k, hk, ha, rfl⟩

theorem Setup.openAddr_of_openId {t : Setup} {k : Nat} (h : t.pc.openId = some k) :
    t.openAddr = some t.addr ∧ t.connId = some k ∧ t.enteredId = none := by
  cases t with
  | mk role addr pc =>
    cases pc <;> simp_all [SetupPc.openId, openAddr, SetupPc.guard, connId, SetupPc.connId, enteredId,
      SetupPc.enteredId]

/-- At most one instance is in line at an address: an open guard excludes
every other. -/
theorem InLine.eq_of_open {s : State} (hL : LedgerOK s) {i : Nat} {t : Setup} {k k' : Nat}
    (ht : s.setups[i]? = some t) (hk : t.pc.openId = some k) (h : InLine s t.addr k') : k' = k := by
  obtain ⟨hopen, hconn, -⟩ := Setup.openAddr_of_openId hk
  rcases h with h | ⟨c, hc, -⟩
  · obtain ⟨j, t', ht', hline⟩ := h.position
    obtain ⟨hk', haddr⟩ := Setup.line_eq.mp hline
    have hopen' := (Setup.openAddr_of_openId hk').1
    rw [haddr] at hopen'
    have hij := hL.guards _ _ _ _ _ ht ht' (Setup.guardAddr_of_openAddr hopen) (Setup.guardAddr_of_openAddr hopen')
    subst hij
    rw [ht] at ht'; cases ht'
    rw [hk] at hk'; cases hk'; rfl
  · rw [hL.not_connected ht hopen] at hc; cases hc

/-- A connection has one address to be in line at. -/
theorem InLine.addr_of_open {s : State} (hL : LedgerOK s) {i : Nat} {t : Setup} {k : Nat} {a : SocketAddr}
    (ht : s.setups[i]? = some t) (hk : t.pc.openId = some k) (h : InLine s a k) : a = t.addr := by
  obtain ⟨-, hconn, hent⟩ := Setup.openAddr_of_openId hk
  rcases h with h | ⟨c, hc, hid, -⟩
  · obtain ⟨j, t', ht', hline⟩ := h.position
    obtain ⟨hk', haddr⟩ := Setup.line_eq.mp hline
    have hij := hL.ids _ _ _ _ _ ht ht' hconn (Setup.openAddr_of_openId hk').2.1
    subst hij
    rw [ht] at ht'; cases ht'
    exact haddr.symm
  · exact absurd (hid ▸ (hL.entered a c hc).2) (hL.not_entered ht hconn hent)

/-- A claimed connection is not in line, and nobody else is at its address. -/
theorem not_inLine_of_claimed {s : State} (hL : LedgerOK s) {d : Disc} {k id : Nat} (hd : d ∈ s.discs)
    (hf : d.pc.finId = some id) : ¬ InLine s d.addr k := by
  obtain ⟨c, hc, -, hdis⟩ := hL.fin d hd id hf
  rintro (h | ⟨c', hc', -, hdis'⟩)
  · obtain ⟨j, t, ht, hline⟩ := h.position
    obtain ⟨hk, haddr⟩ := Setup.line_eq.mp hline
    rw [← haddr, hL.not_connected ht (Setup.openAddr_of_openId hk).1] at hc; cases hc
  · rw [hc] at hc'; cases hc'
    rw [hdis] at hdis'; cases hdis'

/-- Only `Connection::new` puts a connection in line. -/
theorem StepR.inLine {cfg : NodeConfig} {s s' : State} {a : Act} {addr : SocketAddr} {k : Nat}
    (hs : StepR cfg s a s') (hk : k < s.nextId) (h : InLine s' addr k) : InLine s addr k := by
  have goto : ∀ {i t p}, s.setups[i]? = some t → (∀ k, p.openId = some k → t.pc.openId = some k) →
      Owned Setup.line (s.setups.set i { t with pc := p }) (addr, k) → Owned Setup.line s.setups (addr, k) := by
    intro i t p ht hp ho
    rcases ho.of_set ht with hline | ⟨j, z, -, hz, hline⟩
    · obtain ⟨hk, ha⟩ := Setup.line_eq.mp hline
      exact .of_getElem? ht (Setup.line_eq.mpr ⟨hp k hk, ha⟩)
    · exact .of_getElem? hz hline
  have spawn : ∀ {y : Setup}, y.pc.openId = none → Owned Setup.line (s.setups ++ [y]) (addr, k) →
      Owned Setup.line s.setups (addr, k) := by
    intro y hy ho
    simpa [owned_append, Setup.line, hy] using ho
  rcases h with h | ⟨c, hc, hid, hdis⟩
  · -- by an open guard
    left
    cases hs with
    | connect => exact spawn rfl h
    | accept => exact spawn rfl h
    | startCalled ht hpc => exact goto ht (by cases s.flag <;> simp [SetupPc.openId]) h
    | startAccepted ht hpc => exact goto ht (by cases s.flag <;> simp [SetupPc.openId]) h
    | checkConnected ht hpc => exact goto ht (by split <;> simp [SetupPc.openId]) h
    | dropRefused ht hpc => exact goto ht (by split <;> simp [SetupPc.openId]) h
    | dropSched ht hpc => exact goto ht (by split <;> simp [SetupPc.openId]) h
    | adapt ht hpc =>
      rcases h.of_set ht with hline | ⟨j, z, -, hz, hline⟩
      · -- the new connection's id is not taken yet
        obtain ⟨hk', -⟩ := Setup.line_eq.mp hline
        simp only [SetupPc.openId, Option.some.injEq] at hk'
        omega
      · exact .of_getElem? hz hline
    | wired ht hpc => exact goto ht (by rw [hpc]; exact fun _ h => h) h
    | lockActive ht hpc => exact goto ht (by rw [hpc]; exact fun _ h => h) h
    | checkAdmitted ht hpc => exact goto ht (by rw [hpc]; exact fun _ h => h) h
    | reject ht | acquire ht | noBudget ht | reserveOk ht | reserveErr ht | failDialing ht | failProtocols ht
    | checkRefused ht | insert ht | dropUnwinding ht | dropInserted ht | notifySched ht | scheduleSome ht
    | scheduleNone ht | finish ht | finishAwaiting ht => exact goto ht (by simp [SetupPc.openId]) h
    | attach | schedDone | schedNotify | disconnect | recover | noRecovery | claim | claimNone | cancel | register
    | finalize | remove | removeNone | notifyDrain | beginShutdown | enableOnConnect | takeId => exact h
  · -- by its entry
    cases hs with
    | @insert _ t _ _ _ _ ht hpc =>
      rcases Table.lookup_insert_cases hc with ⟨rfl, rfl⟩ | ⟨-, hc⟩
      · exact .inl (.of_getElem? ht (Setup.line_eq.mpr ⟨by rw [hpc]; exact congrArg some hid, rfl⟩))
      · exact .inr ⟨c, hc, hid, hdis⟩
    | @attach _ t handle _ _ _ =>
      rcases attachHandle_cases s.active t.addr t.id handle with ha | ⟨c₀, hc₀, -, ha⟩
      · rw [ha] at hc; exact .inr ⟨c, hc, hid, hdis⟩
      · rw [ha] at hc
        rcases Table.lookup_insert_cases hc with ⟨rfl, rfl⟩ | ⟨-, hc⟩
        · exact .inr ⟨c₀, hc₀, hid, hdis⟩
        · exact .inr ⟨c, hc, hid, hdis⟩
    | claim hd hpc hl hcl =>
      obtain ⟨c₀, -, -, -, -, rfl⟩ := claimDisconnect_some hcl
      rcases Table.lookup_insert_cases hc with ⟨-, rfl⟩ | ⟨-, hc⟩
      · cases hdis
      · exact .inr ⟨c, hc, hid, hdis⟩
    | @register _ d _ handle hd hpc hl =>
      simp only [registerHandle] at hc
      split at hc
      next c₀ hc₀ =>
        rcases Table.lookup_insert_cases hc with ⟨rfl, rfl⟩ | ⟨-, hc⟩
        · exact .inr ⟨c₀, hc₀, hid, hdis⟩
        · exact .inr ⟨c, hc, hid, hdis⟩
      · exact .inr ⟨c, hc, hid, hdis⟩
    | remove | removeNone => exact .inr ⟨c, (Table.lookup_erase_some hc).2, hid, hdis⟩
    | _ => exact .inr ⟨c, hc, hid, hdis⟩

namespace Writing

/-! ## Published senders -/

/-- The request's setup task got past `adopt_writer`, with the connection
not dropped there. -/
def Request.Published (r : Request) : Prop := r.pc = .adopted ∨ r.pc = .returned ∨ r.pc = .received

/-- The request's id, once it will spawn no writer any more. -/
def Request.settledId (r : Request) : Option Nat :=
  match r.pc with
  | .queued | .running => none
  | _ => some r.id

/-- The writer task of connection `id` runs. -/
def Running (s : State) (id : Nat) : Prop := ∃ x ∈ s.writers, x.id = id ∧ x.pc = .running

structure SendersOK (s : State) : Prop where
  ids : UniqueBy (fun r : Request => some r.id) s.requests
  ids_lt : ∀ r ∈ s.requests, r.id < s.base.nextId
  own : ∀ r ∈ s.requests, ∀ a, InLine s.base a r.id → a = r.addr
  writers : UniqueBy (fun x : Writer => some x.id) s.writers
  spawned : ∀ x ∈ s.writers, Owned Request.settledId s.requests x.id
  published : ∀ r ∈ s.requests, r.Published → InLine s.base r.addr r.id → Running s r.id →
    s.senders.lookup r.addr = some r.id

namespace SendersOK

variable {s : State} {q w : Nat} {r r' : Request} {x : Writer}

theorem eq_of_id (h : SendersOK s) (hr : s.requests[q]? = some r) (hr' : r' ∈ s.requests) (hid : r'.id = r.id) :
    r' = r := by
  obtain ⟨q', hq'⟩ := List.getElem?_of_mem hr'
  have := h.ids q q' r r' r.id hr hq' rfl (congrArg some hid)
  subst this
  rw [hr] at hq'; exact (Option.some.inj hq').symm

/-- A lifecycle step leaves every sender that is still due. -/
theorem base {cfg : NodeConfig} {a : Pea2Pea.Act} {b : Pea2Pea.State} {S : Table SocketAddr Nat} (h : SendersOK s)
    (hb : Pea2Pea.step cfg s.base a = some b)
    (hS : ∀ r ∈ s.requests, InLine s.base r.addr r.id → s.senders.lookup r.addr = some r.id →
      S.lookup r.addr = some r.id) : SendersOK { s with base := b, senders := S } := by
  have hs := Pea2Pea.step_sound hb
  exact
    { h with
      ids_lt := fun r hr => (h.ids_lt r hr).trans_le hs.nextId_le
      own := fun r hr a ha => h.own r hr a (hs.inLine (h.ids_lt r hr) ha)
      published := fun r hr hp hl hw => by
        have hl' := hs.inLine (h.ids_lt r hr) hl
        exact hS r hr hl' (h.published r hr hp hl' hw) }

/-- A request moves on, and publishes what it says. -/
theorem request_publish {p : RequestPc} {S : Table SocketAddr Nat} (h : SendersOK s) (hr : s.requests[q]? = some r)
    (hq : ∀ k, r.settledId = some k → Request.settledId { r with pc := p } = some k)
    (hpub : ∀ z ∈ s.requests.set q { r with pc := p }, z.Published → InLine s.base z.addr z.id → Running s z.id →
      S.lookup z.addr = some z.id) : SendersOK { s.requestGoto q r p with senders := S } where
  ids := h.ids.set_same hr rfl
  ids_lt := forall_mem_set h.ids_lt (h.ids_lt r (List.mem_of_getElem? hr))
  own := forall_mem_set h.own (h.own r (List.mem_of_getElem? hr))
  writers := h.writers
  spawned x hx := (h.spawned x hx).set_mono hr (hq x.id)
  published := hpub

/-- A request moves on without publishing anything. -/
theorem request_step {p : RequestPc} (h : SendersOK s) (hr : s.requests[q]? = some r)
    (hq : ∀ k, r.settledId = some k → Request.settledId { r with pc := p } = some k)
    (hp : Request.Published { r with pc := p } → r.Published) : SendersOK (s.requestGoto q r p) :=
  h.request_publish hr hq <| forall_mem_set h.published fun hpub =>
    h.published r (List.mem_of_getElem? hr) (hp hpub)

/-- A writer that does not start running. -/
theorem writer_step {p : WriterPc} {S : Table SocketAddr Nat} (h : SendersOK s) (hx : s.writers[w]? = some x)
    (hp : p = .running → x.pc = .running ∨ ∀ r ∈ s.requests, r.Published → r.id ≠ x.id)
    (hS : ∀ r ∈ s.requests, r.id ≠ x.id → s.senders.lookup r.addr = some r.id → S.lookup r.addr = some r.id)
    (hself : p = .running → S = s.senders) :
    SendersOK { s.writerGoto w x p with senders := S } := by
  refine
    { h with
      writers := h.writers.set_same hx rfl
      spawned := forall_mem_set h.spawned (h.spawned x (List.mem_of_getElem? hx))
      published := fun r hr hpub hl hrun => ?_ }
  obtain ⟨z, hz, hzid, hzpc⟩ := hrun
  obtain ⟨j, hj⟩ := List.getElem?_of_mem hz
  rcases getElem?_set_cases hx hj with ⟨-, rfl⟩ | ⟨hne, hj⟩
  · rcases hp hzpc with hrun | hno
    · rw [hself hzpc]
      exact h.published r hr hpub hl ⟨x, List.mem_of_getElem? hx, hzid, hrun⟩
    · exact absurd hzid.symm (hno r hr hpub)
  · have hid : r.id ≠ x.id := fun heq =>
      hne (h.writers _ _ _ _ x.id hx hj rfl (congrArg some (hzid.trans heq)))
    exact hS r hr hid (h.published r hr hpub hl ⟨z, List.mem_of_getElem? hj, hzid, hzpc⟩)

theorem trigger {i id : Nat} {t : Setup} (h : SendersOK s) (hL : LedgerOK s.base) (ht : s.base.setups[i]? = some t)
    (hpc : t.pc = .protocols id) (hn : ∀ r ∈ s.requests, r.id ≠ id) :
    SendersOK { s with requests := s.requests ++ [⟨i, t.addr, id, .queued⟩] } := by
  have hopen : t.pc.openId = some id := by rw [hpc]; rfl
  exact
    { ids := h.ids.append fun k hk ⟨z, hz, hzk⟩ => by
        cases hk
        exact hn z hz (Option.some.inj hzk)
      ids_lt := forall_mem_append h.ids_lt
        (hL.ids_lt id (.of_getElem? ht (Setup.openAddr_of_openId hopen).2.1))
      own := forall_mem_append h.own fun a ha => ha.addr_of_open hL ht hopen
      writers := h.writers
      spawned := fun x hx => owned_append.mpr (.inl (h.spawned x hx))
      published := forall_mem_append h.published fun hp => by
        rcases hp with hp | hp | hp <;> cases hp }

theorem spawnWriter (h : SendersOK s) (hr : s.requests[q]? = some r) (hpc : r.pc = .running) :
    SendersOK { s.requestGoto q r (.spawned s.writers.length) with
      writers := s.writers ++ [⟨r.addr, r.id, .starting⟩] } := by
  have hnone : r.settledId = none := by rw [Request.settledId, hpc]
  -- a writer of this id would be of this request, which has spawned none
  have hno : ¬ Owned (fun x : Writer => some x.id) s.writers r.id := by
    rintro ⟨x, hx, hid⟩
    obtain ⟨z, hz, hzk⟩ := h.spawned x hx
    have hzid : z.id = r.id := by
      have hzx : z.id = x.id := by
        simp only [Request.settledId] at hzk
        split at hzk
        · cases hzk
        · cases hzk
        · exact Option.some.inj hzk
      exact hzx.trans (Option.some.inj hid)
    rw [h.eq_of_id hr hz hzid, hnone] at hzk
    cases hzk
  have hstep := h.request_step (p := .spawned s.writers.length) hr (by rw [hnone]; simp)
    (by rintro (hp | hp | hp) <;> cases hp)
  exact
    { hstep with
      writers := h.writers.append fun k hk => by cases hk; exact hno
      spawned := forall_mem_append hstep.spawned (.set_self hr rfl)
      published := fun z hz hp hl ⟨x, hx, hid, hrun⟩ => by
        rcases List.mem_append.mp hx with hx | hx
        · exact hstep.published z hz hp hl ⟨x, hx, hid, hrun⟩
        · rw [List.mem_singleton.mp hx] at hrun; cases hrun }

end SendersOK

/-! ## Every step -/

theorem waiting_iff {s : State} {r : Request} :
    s.waiting r = true ↔ ∃ t, s.base.setups[r.driver]? = some t ∧ t.pc = .protocols r.id := by
  simp [State.waiting, Option.any_eq_true]

/-- The sender `adopt_writer` is about to replace for `r` is another's: of a
connection in line at the address, whose writer runs. -/
def Overwrites (s : State) (r : Request) : Prop :=
  ∃ k, s.senders.lookup r.addr = some k ∧ k ≠ r.id ∧ InLine s.base r.addr k ∧ Running s k

/-- While its driver waits, a setup task overwrites nobody's sender. -/
theorem not_overwrites_of_waiting {s : State} {r : Request} (h : SendersOK s) (hL : LedgerOK s.base)
    (hr : r ∈ s.requests) (hw : s.waiting r = true) : ¬ Overwrites s r := by
  rintro ⟨k, -, hk, hl, -⟩
  obtain ⟨t, ht, hpc⟩ := waiting_iff.mp hw
  have hopen : t.pc.openId = some r.id := by rw [hpc]; rfl
  have haddr := h.own r hr t.addr (.inl (.of_getElem? ht (Setup.line_eq.mpr ⟨hopen, rfl⟩)))
  exact hk (InLine.eq_of_open hL ht hopen (haddr ▸ hl))

theorem SendersOK.adopt {s : State} {q : Nat} {r : Request} (h : SendersOK s) (hr : s.requests[q]? = some r)
    (hno : ¬ Overwrites s r) :
    SendersOK { s.requestGoto q r .adopted with senders := adoptWriter s.senders r.addr r.id } := by
  refine h.request_publish hr (fun k hk => ?_) fun z hz hp hl hrun => ?_
  · simp only [Request.settledId] at hk ⊢
    split at hk
    · cases hk
    · cases hk
    · exact hk
  · obtain ⟨j, hj⟩ := List.getElem?_of_mem hz
    rw [adoptWriter, Table.lookup_insert]
    rcases getElem?_set_cases hr hj with ⟨-, rfl⟩ | ⟨hne, hj⟩
    · rw [if_pos rfl]
    · have hdue := h.published z (List.mem_of_getElem? hj) hp hl hrun
      have hid : z.id ≠ r.id := fun heq => hne (h.ids _ _ _ _ r.id hr hj rfl (congrArg some heq))
      split
      next haddr => rw [haddr] at hdue hl; exact absurd ⟨z.id, hdue, hid, hl, hrun⟩ hno
      · exact hdue

/-- No setup task whose driver was dropped publishes over the sender of a
connection in line. -/
def NoStaleOverwrite (s : State) : Act → Prop
  | .adoptWriter q => ∀ r, s.requests[q]? = some r → s.waiting r = false → ¬ Overwrites s r
  | _ => True

theorem StepR.sendersOK {cfg : NodeConfig} {s s' : State} {a : Act} (hL : LedgerOK s.base) (h : SendersOK s)
    (hok : NoStaleOverwrite s a) (hs : StepR cfg s a s') : SendersOK s' := by
  cases hs with
  | base hb => exact h.base hb fun _ _ _ hdue => hdue
  | @finalize j d b hd hb =>
    refine h.base hb fun r hr hl hdue => ?_
    split
    · -- nobody is in line at the finalizer's address
      have hne : r.addr ≠ d.addr := by
        rintro haddr
        cases Pea2Pea.step_sound hb with
        | finalize hd' hpc =>
          rw [hd] at hd'; cases hd'
          exact not_inLine_of_claimed hL (List.mem_of_getElem? hd) (by rw [hpc]; rfl) (haddr ▸ hl)
      rw [Table.lookup_erase, if_neg hne]
      exact hdue
    · exact hdue
  | enable => exact { h with }
  | trigger ht hpc he hn => exact h.trigger hL ht hpc hn
  | spawnSetup hr hpc => exact h.request_step hr (by simp [Request.settledId, hpc]) (by simp [Request.Published])
  | dropRequest hr hpc => exact h.request_step hr (by simp [Request.settledId, hpc]) (by simp [Request.Published])
  | failSetup hr hpc => exact h.request_step hr (by simp [Request.settledId, hpc]) (by simp [Request.Published])
  | abortSetup hr hpc =>
    rcases hpc with hpc | ⟨w, hpc⟩ <;>
      exact h.request_step hr (by simp [Request.settledId, hpc]) (by simp [Request.Published])
  | spawnWriter hr hpc => exact h.spawnWriter hr hpc
  | @signalReady w x hx hpc =>
    refine h.writer_step hx (fun hrun => .inr fun r hr hp hid => ?_) (fun _ _ _ hdue => hdue) fun _ => rfl
    -- the request of this writer is at the readiness await, so not published
    have haw : s.awaited w x.id = true := by
      by_contra hno
      rw [if_neg hno] at hrun; cases hrun
    simp only [State.awaited, List.any_eq_true, Bool.and_eq_true, beq_iff_eq] at haw
    obtain ⟨r₀, hr₀, hid₀, hpc₀⟩ := haw
    obtain ⟨q₀, hq₀⟩ := List.getElem?_of_mem hr₀
    rw [h.eq_of_id hq₀ hr (hid.trans hid₀.symm), Request.Published, hpc₀] at hp
    rcases hp with hp | hp | hp <;> cases hp
  | @adoptWriter q r w x hr hpc hx hw =>
    refine h.adopt hr ?_
    cases hwait : s.waiting r with
    | true => exact not_overwrites_of_waiting h hL (List.mem_of_getElem? hr) hwait
    | false => exact hok r hr hwait
  | returnConn hr hpc =>
    split <;> exact h.request_step hr (by simp [Request.settledId, hpc]) (by simp [Request.Published, hpc])
  | receive hr hpc hw => exact h.request_step hr (by simp [Request.settledId, hpc]) (by simp [Request.Published, hpc])
  | endWriter hx hpc hb =>
    have hbase := h.base hb fun _ _ _ hdue => hdue
    exact hbase.writer_step hx (by simp) (fun _ _ _ hdue => hdue) fun _ => rfl
  | @cleanup w x hx hpc =>
    refine h.writer_step hx (by simp) (fun r hr hid hdue => ?_) (by simp)
    rw [senderCleanup]
    split
    next hown =>
      have hne : r.addr ≠ x.addr := by
        rintro haddr
        rw [haddr, hown] at hdue
        exact hid (Option.some.inj hdue).symm
      rw [Table.lookup_erase, if_neg hne]
      exact hdue
    · exact hdue

theorem sendersOK_reaches {cfg : NodeConfig} {s : State} (h : (writing cfg).Reaches NoStaleOverwrite s) :
    SendersOK s := by
  refine h.invariant ?_ fun hr hi hok hs =>
    (step_sound hs).sendersOK (ledgerOK_reachable ((projects cfg).reachable hr)) hi hok
  exact
    { ids := uniqueBy_nil
      ids_lt := by simp [writing, State.init]
      own := by simp [writing, State.init]
      writers := uniqueBy_nil
      spawned := by simp [writing, State.init]
      published := by simp [writing, State.init] }

/-! ## Over whole runs -/

/-- Connection `id` is live at `addr`: in `active`, unclaimed, its Writing
setup completed and its writer not terminated. -/
def Live (s : State) (addr : SocketAddr) (id : Nat) : Prop :=
  (∃ c, s.base.active.lookup addr = some c ∧ c.id = id ∧ c.disconnecting = false) ∧
    (∃ r ∈ s.requests, r.id = id ∧ r.pc = .received) ∧ ∃ x ∈ s.writers, x.id = id ∧ x.pc = .running

/-- No live connection loses its sender while no setup task whose driver was
dropped publishes over the sender of a connection in line. -/
theorem live_sender_kept (cfg : NodeConfig) (s : State) (h : (writing cfg).Reaches NoStaleOverwrite s) :
    ∀ addr id, Live s addr id → s.senders.lookup addr = some id := by
  rintro addr id ⟨hc, ⟨r, hr, rfl, hpc⟩, hrun⟩
  have hi := sendersOK_reaches h
  have haddr := hi.own r hr addr (.inr hc)
  subst haddr
  exact hi.published r hr (.inr (.inr hpc)) (.inr hc) hrun

/-- `Live`, as a run can check it. -/
def liveAt (s : State) (addr : SocketAddr) (id : Nat) : Bool :=
  (s.base.active.lookup addr).any (fun c => c.id = id ∧ c.disconnecting = false) &&
    s.requests.any (fun r => r.id = id ∧ r.pc = .received) && s.writers.any (fun x => x.id = id ∧ x.pc = .running)

theorem live_of_liveAt {s : State} {addr : SocketAddr} {id : Nat} (h : liveAt s addr id = true) : Live s addr id := by
  simpa [liveAt, Live, Option.any_eq_true, and_assoc] using h

/-- A `connect` to `peer` up to its Writing setup's start. -/
def dialed (i : Nat) : List Act :=
  [.base (.connect peer), .base (.start i), .base (.checkConnected i), .base (.acquire i), .base (.reserve i),
    .base (.adapt i), .trigger i, .spawnSetup i]

/-- Request `q`'s setup task, up to publishing the sender of writer `w`. -/
def published (q w : Nat) : List Act := [.spawnWriter q, .signalReady w, .adoptWriter q]

/-- What is left of setup `i` once its sender is published. -/
def established (i : Nat) : List Act :=
  [.returnConn i, .receive i, .base (.wired i), .base (.lockActive i), .base (.checkFlag i), .base (.insert i []),
    .base (.dropGuard i)]

/-- The `connect` of setup `i` is dropped in `enable_protocols`. -/
def abandoned (i : Nat) : List Act := [.base (.fail i), .base (.dropGuard i), .base (.finish i)]

/-- An adopting setup task has its driver waiting, or publishes where there is
no sender. -/
def adoptsInTime (s : State) : Act → Bool
  | .adoptWriter q => (s.requests[q]?).all fun r => s.waiting r || (s.senders.lookup r.addr).isNone
  | _ => true

/-- A `connect` is dropped while its Writing setup runs, which still publishes
its sender; its writer is aborted and cleans up, and the address is dialed
again. -/
def staleCleanup : List Act := List.flatten
  [[.enable], dialed 0, abandoned 0, published 0 0, [.returnConn 0, .endWriter 0, .cleanup 0], dialed 1, published 1 1,
    established 1]

theorem live_sender_kept_reconnected : ∃ s, (writing threeSlots).Reaches NoStaleOverwrite s ∧ Live s peer 1 ∧
    s.senders.lookup peer = some 1 := by
  obtain ⟨s, hs, hp⟩ := ((writing threeSlots).guarded adoptsInTime).exists_reachable staleCleanup (liveAt · peer 1)
    (by decide +kernel)
  have hr : (writing threeSlots).Reaches NoStaleOverwrite s := .of_guarded (fun s a ha => by
    cases a with
    | adoptWriter q =>
      rintro r hr hw ⟨k, hk, -⟩
      simp [adoptsInTime, hr, hw, hk] at ha
    | _ => trivial) hs
  exact ⟨s, hr, live_of_liveAt hp, live_sender_kept threeSlots s hr peer 1 (live_of_liveAt hp)⟩

/-- A `connect` is dropped while its Writing setup runs, and the address is
dialed again; the first setup then publishes over the live connection. -/
def staleAdoption : List Act :=
  [.enable] ++ dialed 0 ++ abandoned 0 ++ dialed 1 ++ published 1 0 ++ established 1 ++ published 0 1

theorem live_sender_lost :
    ¬ ∀ s, (writing threeSlots).Reachable s → ∀ addr id, Live s addr id → s.senders.lookup addr = some id := by
  intro hkept
  obtain ⟨s, hs, hp⟩ := (writing threeSlots).exists_reachable staleAdoption
    (fun s => liveAt s peer 1 && s.senders.lookup peer == some 0) (by decide +kernel)
  obtain ⟨hlive, hsend⟩ := Bool.and_eq_true_iff.mp hp
  have := hkept s hs peer 1 (live_of_liveAt hlive)
  rw [eq_of_beq hsend] at this
  cases this

end Writing

end Pea2Pea
