/-
A connection's lifetime, in the lifecycle's own terms: it enters `active`,
it is removed by the finalizer that claimed it, and OnConnect is scheduled
for it in between or after.
-/
import Pea2Pea.Drain
import Pea2Pea.Ledger

namespace Pea2Pea

open Pool

/-! ## In `active`, and removed -/

/-- Connection `k` is in `active`. -/
def InActive (active : Active) (k : Nat) : Prop := ∃ addr c, active.lookup addr = some c ∧ c.id = k

theorem not_inActive_of_empty {active : Active} (h : active.keys = ∅) (k : Nat) : ¬ InActive active k := by
  rintro ⟨addr, c, hc, -⟩
  rw [Table.keys_eq_empty_iff.mp h] at hc
  simp at hc

/-- The instance the disconnect has removed from `active`. -/
def Disc.removedId (d : Disc) : Option Nat :=
  match d.pc with
  | .removed id _ | .done (some id) (some _) => some id
  | _ => none

variable {cfg : NodeConfig} {s s' : State} {a : Act}

/-- An entry of `active` keeps its id and its tasks until it is removed. -/
theorem StepR.entry_kept (hL : LedgerOK s) (hs : StepR cfg s a s') {addr : SocketAddr} {c : Connection}
    (hc : s.active.lookup addr = some c) :
    (∃ c', s'.active.lookup addr = some c' ∧ c'.id = c.id ∧ ∀ h ∈ c.tasks, h ∈ c'.tasks) ∨
      ∃ (j : Nat) (d : Disc), a = .remove j ∧ s.discs[j]? = some d ∧ d.addr = addr := by
  have same : ∃ c', s.active.lookup addr = some c' ∧ c'.id = c.id ∧ ∀ h ∈ c.tasks, h ∈ c'.tasks :=
    ⟨c, hc, rfl, fun _ h => h⟩
  -- an update of an entry that keeps its tasks
  have update : ∀ {b x y}, s.active.lookup b = some x → y.id = x.id → (∀ h ∈ x.tasks, h ∈ y.tasks) →
      ∃ c', (s.active.insert b y).lookup addr = some c' ∧ c'.id = c.id ∧ ∀ h ∈ c.tasks, h ∈ c'.tasks := by
    intro b x y hx hid hsub
    rw [Table.lookup_insert]
    by_cases hb : addr = b
    · subst hb
      rw [hc] at hx; cases hx
      exact ⟨y, by simp, hid, hsub⟩
    · rw [if_neg hb]
      exact same
  have erase : ∀ {j d}, a = .remove j → s.discs[j]? = some d →
      (∃ c', (s.active.erase d.addr).lookup addr = some c' ∧ c'.id = c.id ∧ ∀ h ∈ c.tasks, h ∈ c'.tasks) ∨
        ∃ (j : Nat) (d : Disc), a = .remove j ∧ s.discs[j]? = some d ∧ d.addr = addr := by
    intro j d ha hd
    by_cases hda : d.addr = addr
    · exact .inr ⟨j, d, ha, hd, hda⟩
    · rw [Table.lookup_erase, if_neg fun he => hda he.symm]
      exact .inl same
  cases hs with
  | @insert i t _ _ _ _ ht hpc =>
    refine .inl ?_
    have hnew : s.active.lookup t.addr = none := hL.not_connected ht (by simp [Setup.openAddr, hpc, SetupPc.guard])
    have hne : addr ≠ t.addr := fun he => by rw [he, hnew] at hc; cases hc
    rw [Table.lookup_insert, if_neg hne]
    exact same
  | @attach k t handle _ _ _ =>
    refine .inl ?_
    rcases attachHandle_cases s.active t.addr t.id handle with ha | ⟨x, hx, -, ha⟩
    · rw [ha]; exact same
    · rw [ha]
      exact update hx rfl fun h hh => List.mem_append_left _ hh
  | claim hd hpc hl hcl =>
    obtain ⟨x, hx, -, -, -, rfl⟩ := claimDisconnect_some hcl
    exact .inl (update hx rfl fun _ h => h)
  | @register j d id handle hd hpc hl =>
    refine .inl ?_
    unfold registerHandle
    split
    next x hx => exact update hx rfl fun h hh => List.mem_append_left _ hh
    · exact same
  | remove hd hpc hl hx => exact erase rfl hd
  | removeNone hd hpc hl hx => exact erase rfl hd
  | _ => exact .inl same

/-- A task of an entry came with its insertion, was attached or registered,
or was there before. -/
theorem StepR.task_from (hs : StepR cfg s a s') {addr : SocketAddr} {c : Connection} {h : Handle}
    (hc : s'.active.lookup addr = some c) (hh : h ∈ c.tasks) :
    (∃ c₀, s.active.lookup addr = some c₀ ∧ c₀.id = c.id ∧ h ∈ c₀.tasks) ∨ (∃ i, a = .insert i c.tasks) ∨
      (∃ k u, a = .attach k h ∧ s.scheds[k]? = some u ∧ u.id = c.id) ∨
      ∃ (j : Nat) (d : Disc), a = .register j h ∧ s.discs[j]? = some d ∧ d.addr = addr := by
  cases hs with
  | insert =>
    rcases Table.lookup_insert_cases hc with ⟨-, rfl⟩ | ⟨-, hc⟩
    · exact .inr (.inl ⟨_, rfl⟩)
    · exact .inl ⟨c, hc, rfl, hh⟩
  | @attach k u handle hu =>
    rcases attachHandle_cases s.active u.addr u.id handle with ha | ⟨x, hx, hid, ha⟩
    · rw [ha] at hc
      exact .inl ⟨c, hc, rfl, hh⟩
    · rw [ha] at hc
      rcases Table.lookup_insert_cases hc with ⟨rfl, rfl⟩ | ⟨-, hc⟩
      · rcases List.mem_append.mp hh with hh | hh
        · exact .inl ⟨x, hx, rfl, hh⟩
        · rw [List.mem_singleton.mp hh]
          exact .inr (.inr (.inl ⟨k, u, rfl, hu, hid.symm⟩))
      · exact .inl ⟨c, hc, rfl, hh⟩
  | claim hd hpc hl hcl =>
    obtain ⟨x, hx, -, -, -, rfl⟩ := claimDisconnect_some hcl
    rcases Table.lookup_insert_cases hc with ⟨rfl, rfl⟩ | ⟨-, hc⟩
    · exact .inl ⟨x, hx, rfl, hh⟩
    · exact .inl ⟨c, hc, rfl, hh⟩
  | @register j d id handle hd hpc hl =>
    unfold registerHandle at hc
    split at hc
    next x hx =>
      rcases Table.lookup_insert_cases hc with ⟨rfl, rfl⟩ | ⟨-, hc⟩
      · rcases List.mem_append.mp hh with hh | hh
        · exact .inl ⟨x, hx, rfl, hh⟩
        · rw [List.mem_singleton.mp hh]
          exact .inr (.inr (.inr ⟨j, d, rfl, hd, rfl⟩))
      · exact .inl ⟨c, hc, rfl, hh⟩
    · exact .inl ⟨c, hc, rfl, hh⟩
  | remove => exact .inl ⟨c, (Table.lookup_erase_some hc).2, rfl, hh⟩
  | removeNone => exact .inl ⟨c, (Table.lookup_erase_some hc).2, rfl, hh⟩
  | _ => exact .inl ⟨c, hc, rfl, hh⟩

/-- A registered handle is with the entry. -/
theorem StepR.register_entry {j : Nat} {h : Handle} (hs : StepR cfg s (.register j h) s') {d : Disc} {c : Connection}
    (hd : s.discs[j]? = some d) (hc : s.active.lookup d.addr = some c) :
    s'.discs = s.discs ∧ ∃ c', s'.active.lookup d.addr = some c' ∧ h ∈ c'.tasks := by
  cases hs with
  | register hd' hpc hl =>
    rw [hd] at hd'; cases hd'
    refine ⟨rfl, { c with tasks := c.tasks ++ [h] }, ?_, by simp⟩
    simp [registerHandle, hc]

/-- A connection leaves `active` by the finalizer that claimed it. -/
theorem StepR.inActive (hL : LedgerOK s) (hs : StepR cfg s a s') {k : Nat} (h : InActive s.active k) :
    InActive s'.active k ∨ Owned Disc.removedId s'.discs k := by
  obtain ⟨addr, c, hc, rfl⟩ := h
  rcases hs.entry_kept hL hc with ⟨c', hc', hid, -⟩ | ⟨j, d, rfl, hd, rfl⟩
  · exact .inl ⟨addr, c', hc', hid⟩
  · obtain ⟨e, id, he, hpc, hout⟩ := hs.remove_cases
    rw [hd] at he; cases he
    obtain ⟨x, hx, hid, -⟩ := hL.fin d (List.mem_of_getElem? hd) id (by rw [hpc]; rfl)
    rw [hc] at hx; cases hx
    rcases hout with ⟨conn, -, hd'⟩ | ⟨hnone, -⟩
    · exact .inr (.of_getElem? hd' (by rw [Disc.removedId, hid]))
    · rw [hc] at hnone; cases hnone

/-- A removal is for good. -/
theorem DiscMove.removedId {j : Nat} {d : Disc} {p : DiscPc} (h : DiscMove j d.pc a p) {k : Nat}
    (hk : d.removedId = some k) : ({ d with pc := p } : Disc).removedId = some k := by
  unfold Disc.removedId at hk ⊢
  generalize d.pc = q at h hk
  cases h <;> first | exact hk | cases hk

theorem StepR.removed_kept (hs : StepR cfg s a s') {k : Nat} (h : Owned Disc.removedId s.discs k) :
    Owned Disc.removedId s'.discs k := by
  obtain ⟨j, d, hd, hk⟩ := h.position
  obtain ⟨p, hd', hp⟩ := hs.disc_move hd
  rcases hp with rfl | hm
  · exact .of_getElem? hd' hk
  · exact .of_getElem? hd' (hm.removedId hk)

/-- The connection a setup has put into `active`, and where. -/
def Setup.entry (t : Setup) : Option (Nat × SocketAddr) := t.enteredId.map (·, t.addr)

theorem owned_enteredId_iff {S : List Setup} {k : Nat} :
    Owned Setup.enteredId S k ↔ ∃ addr, Owned Setup.entry S (k, addr) := by
  simp only [Owned, Setup.entry, Option.map_eq_some_iff, Prod.mk.injEq]
  constructor
  · rintro ⟨t, ht, hk⟩
    exact ⟨t.addr, t, ht, k, hk, rfl, rfl⟩
  · rintro ⟨_, t, ht, _, hk, rfl, -⟩
    exact ⟨t, ht, hk⟩

/-- An entry that is new was just put there. -/
theorem StepR.entry_new (hs : StepR cfg s a s') {k : Nat} {addr : SocketAddr}
    (h : Owned Setup.entry s'.setups (k, addr)) :
    Owned Setup.entry s.setups (k, addr) ∨ ∃ c, s'.active.lookup addr = some c ∧ c.id = k := by
  -- a setup's entry depends on its address and on what it has entered
  have goto : ∀ {i t p}, s.setups[i]? = some t → (p.enteredId = none ∨ p.enteredId = t.pc.enteredId) →
      Owned Setup.entry (s.setups.set i { t with pc := p }) (k, addr) → Owned Setup.entry s.setups (k, addr) := by
    intro i t p ht hp ho
    refine ho.of_set_kept ht ?_
    simp only [Setup.entry, Setup.enteredId]
    exact hp.imp (fun he => by rw [he]; rfl) fun he => by rw [he]
  cases hs with
  | connect | accept => exact .inl (h.of_append rfl)
  | @insert i t id sched begun tasks ht hpc =>
    rcases h.of_set ht with hk | ⟨j, z, -, hz, hk⟩
    · cases hk
      exact .inr ⟨⟨k, t.addr, false, tasks⟩, by simp, rfl⟩
    · exact .inl (.of_getElem? hz hk)
  | startCalled ht | startAccepted ht | checkConnected ht | dropRefused ht | dropSched ht =>
    refine .inl (goto ht ?_ h)
    split <;> exact .inl rfl
  | reject ht | acquire ht | noBudget ht | reserveOk ht | reserveErr ht | adapt ht | failDialing ht
  | failProtocols ht | wired ht | lockActive ht | checkRefused ht | checkAdmitted ht | dropUnwinding ht
  | notifySched ht => exact .inl (goto ht (.inl rfl) h)
  | dropInserted ht hpc | scheduleSome ht hpc | scheduleNone ht hpc | finish ht hpc | finishAwaiting ht hpc =>
    exact .inl (goto ht (.inr (by rw [hpc]; rfl)) h)
  | _ => exact .inl h

/-- A connection that entered `active` once did so for good. -/
theorem StepR.entry_stays (hs : StepR cfg s a s') {x : Nat × SocketAddr} (h : Owned Setup.entry s.setups x) :
    Owned Setup.entry s'.setups x := by
  have goto : ∀ {i t p}, s.setups[i]? = some t → (t.pc.enteredId = none ∨ p.enteredId = t.pc.enteredId) →
      Owned Setup.entry (s.setups.set i { t with pc := p }) x := by
    intro i t p ht he
    refine h.set_mono ht fun hk => ?_
    rcases he with he | he
    · rw [Setup.entry, Setup.enteredId, he] at hk; cases hk
    · exact (congrArg (Option.map _) he).trans hk
  cases hs with
  | connect | accept => exact owned_append.mpr (.inl h)
  | reject ht hpc => exact goto ht (.inl (by rcases hpc with hpc | hpc <;> rw [hpc] <;> rfl))
  | startCalled ht hpc | startAccepted ht hpc | checkConnected ht hpc | acquire ht hpc | noBudget ht hpc
  | reserveOk ht hpc | reserveErr ht hpc | adapt ht hpc | failDialing ht hpc | failProtocols ht hpc | wired ht hpc
  | lockActive ht hpc | checkRefused ht hpc | checkAdmitted ht hpc | insert ht hpc | dropRefused ht hpc
  | dropUnwinding ht hpc | dropSched ht hpc | notifySched ht hpc => exact goto ht (.inl (by rw [hpc]; rfl))
  | dropInserted ht hpc | scheduleSome ht hpc | scheduleNone ht hpc | finish ht hpc | finishAwaiting ht hpc =>
    exact goto ht (.inr (by rw [hpc]; rfl))
  | _ => exact h

theorem StepR.entered_kept (hs : StepR cfg s a s') {k : Nat} (h : Owned Setup.enteredId s.setups k) :
    Owned Setup.enteredId s'.setups k := by
  obtain ⟨addr, h⟩ := owned_enteredId_iff.mp h
  exact owned_enteredId_iff.mpr ⟨addr, hs.entry_stays h⟩

/-- A connection enters `active` by its setup's `add`. -/
theorem StepR.entered (hs : StepR cfg s a s') {k : Nat} (h : Owned Setup.enteredId s'.setups k) :
    Owned Setup.enteredId s.setups k ∨ InActive s'.active k := by
  obtain ⟨addr, h⟩ := owned_enteredId_iff.mp h
  rcases hs.entry_new h with h | ⟨c, hc, hid⟩
  · exact .inl (owned_enteredId_iff.mpr ⟨addr, h⟩)
  · exact .inr ⟨addr, c, hc, hid⟩

/-- A connection that entered `active` is there, or was removed. -/
def EnteredOK (s : State) : Prop :=
  ∀ k, Owned Setup.enteredId s.setups k → InActive s.active k ∨ Owned Disc.removedId s.discs k

theorem enteredOK_reachable (h : (lifecycle cfg).Reachable s) : EnteredOK s := by
  refine h.invariant (fun k hk => absurd hk not_owned_nil) fun {s s' a} hr ih _ hs => ?_
  intro k hk
  have hstep := step_sound hs
  rcases hstep.entered hk with hold | hnew
  · rcases ih k hold with hin | hrem
    · exact hstep.inActive (ledgerOK_reachable hr) hin
    · exact .inr (hstep.removed_kept hrem)
  · exact .inl hnew

/-- A removed connection is not in `active`: it was claimed, and the claim's
finalizer is over. -/
theorem LedgerOK.removed_gone (hL : LedgerOK s) {k : Nat} (h : Owned Disc.removedId s.discs k) :
    ¬ InActive s.active k := by
  rintro ⟨addr, c, hc, hid⟩
  obtain ⟨j, d, hd, hk⟩ := h.position
  have hclaimed : d.claimedId = some k ∧ d.pc.finId = none := by
    unfold Disc.removedId at hk
    split at hk
    next hpc => cases hk; rw [Disc.claimedId, hpc]; exact ⟨rfl, rfl⟩
    next hpc => cases hk; rw [Disc.claimedId, hpc]; exact ⟨rfl, rfl⟩
    · cases hk
  obtain ⟨i, e, he, hfin⟩ := (hL.owner addr c hc ((hL.claimed k (.of_getElem? hd hclaimed.1)).2 addr c hc hid)).position
  obtain ⟨k', hk', rfl⟩ := Option.map_eq_some_iff.mp hfin
  obtain ⟨c', hc', hid', -⟩ := hL.fin e (List.mem_of_getElem? he) k' hk'
  rw [hc] at hc'; cases hc'
  have hij := hL.claims i j e d k he hd (by rw [Disc.claimedId_of_finId hk', ← hid', hid]) hclaimed.1
  subst hij
  rw [hd] at he; cases he
  rw [hclaimed.2] at hk'; cases hk'

/-- The entries of the setups and of the scheduling tasks: where a connection
that entered `active` is, if it is there. -/
structure EntriesOK (s : State) : Prop where
  setup : ∀ {k addr}, Owned Setup.entry s.setups (k, addr) → ∀ a c, s.active.lookup a = some c → c.id = k → a = addr
  sched : ∀ u ∈ s.scheds, Owned Setup.entry s.setups (u.id, u.addr)

theorem StepR.entriesOK (hL : LedgerOK s) (hL' : LedgerOK s') (h : EntriesOK s) (hs : StepR cfg s a s') :
    EntriesOK s' where
  setup {k addr} ho b c' hc' hid := by
    rcases hs.entry_new ho with hold | ⟨e, he, hk⟩
    · rcases hs.entry_origin hc' with ⟨i, rfl⟩ | ⟨c, hc, hcid, -⟩
      · cases hs with
        | insert ht hpc =>
          rcases Table.lookup_insert_cases hc' with ⟨-, hnew⟩ | ⟨-, hc⟩
          · -- what is inserted has not been in `active` before
            have hk := (congrArg Connection.id hnew).symm.trans hid
            refine absurd (owned_enteredId_iff.mpr ⟨addr, hold⟩) (hL.not_entered ht ?_ ?_)
            · rw [Setup.connId, hpc, ← hk]; rfl
            · rw [Setup.enteredId, hpc]; rfl
          · exact h.setup hold b c' hc hid
      · exact h.setup hold b c hc (hcid ▸ hid)
    · exact hL'.inj b addr c' e hc' he (hid.trans hk.symm)
  sched u hu := by
    have kept : ∀ v ∈ s.scheds, Owned Setup.entry s'.setups (v.id, v.addr) := fun v hv => hs.entry_stays (h.sched v hv)
    have set : ∀ {k v p}, s.scheds[k]? = some v → u ∈ s.scheds.set k { v with pc := p } →
        Owned Setup.entry s'.setups (u.id, u.addr) := by
      intro k v p hv hm
      rcases List.mem_or_eq_of_mem_set hm with hm | rfl
      · exact kept u hm
      · exact kept v (List.mem_of_getElem? hv)
    cases hs with
    | @scheduleSome i t id ht hpc =>
      rcases List.mem_append.mp hu with hu | hu
      · exact kept u hu
      · rw [List.mem_singleton.mp hu]
        exact .set_self ht (by simp [Setup.entry, Setup.enteredId, SetupPc.enteredId])
    | schedDone hv | schedNotify hv => exact set hv hu
    | _ => exact kept u hu

theorem entriesOK_reachable (h : (lifecycle cfg).Reachable s) : EntriesOK s := by
  refine h.invariant ⟨fun hk => absurd hk not_owned_nil, by simp [lifecycle, State.init]⟩
    fun {s s' a} hr ho _ hs => ?_
  have hr' : (lifecycle cfg).Reachable s' := .step hr trivial hs
  exact (step_sound hs).entriesOK (ledgerOK_reachable hr) (ledgerOK_reachable hr') ho

/-! ## Scheduled -/

/-- The connection in `active` whose OnConnect scheduling is ahead. -/
def SetupPc.owedId : SetupPc → Option Nat
  | .inserted id true | .established id true => some id
  | _ => none

theorem Setup.enteredId_of_owedId {t : Setup} {k : Nat} (h : t.pc.owedId = some k) : t.enteredId = some k := by
  rw [Setup.enteredId]
  generalize t.pc = q at h
  cases q with
  | inserted id sched => cases sched <;> simp_all [SetupPc.owedId, SetupPc.enteredId]
  | established id sched => cases sched <;> simp_all [SetupPc.owedId, SetupPc.enteredId]
  | _ => cases h

/-- The scheduling tasks, one for a connection that entered `active` and has
its scheduling no longer ahead. -/
structure Scheduling (setups : List Setup) (scheds : List Sched) : Prop where
  unique : UniqueBy (fun u : Sched => some u.id) scheds
  entered : ∀ u ∈ scheds, Owned Setup.enteredId setups u.id
  owed : ∀ t ∈ setups, ∀ k, t.pc.owedId = some k → ∀ u ∈ scheds, u.id ≠ k

namespace Scheduling

variable {S : List Setup} {K : List Sched} {i k : Nat} {t : Setup} {u : Sched} {p : SetupPc}

theorem goto (h : Scheduling S K) (ht : S[i]? = some t) (he : t.enteredId = none ∨ p.enteredId = t.enteredId)
    (ho : p.owedId = none ∨ p.owedId = t.pc.owedId) : Scheduling (S.set i { t with pc := p }) K where
  unique := h.unique
  entered u hu := (h.entered u hu).set_mono ht fun hk => by
    rcases he with he | he
    · rw [he] at hk; cases hk
    · exact he.trans hk
  owed := forall_mem_set h.owed fun k hk => by
    rcases ho with ho | ho
    · rw [show p.owedId = some k from hk] at ho; cases ho
    · exact h.owed t (List.mem_of_getElem? ht) k (ho.symm.trans hk)

theorem spawn (h : Scheduling S K) (ht : t.pc.owedId = none) : Scheduling (S ++ [t]) K where
  unique := h.unique
  entered u hu := owned_append.mpr (.inl (h.entered u hu))
  owed := forall_mem_append h.owed fun k hk => by rw [ht] at hk; cases hk

/-- A connection enters `active`; nothing was scheduled for it. -/
theorem insert {id : Nat} {sched : Bool} (h : Scheduling S K) (ht : S[i]? = some t) (he : t.enteredId = none)
    (hn : ¬ Owned Setup.enteredId S id) : Scheduling (S.set i { t with pc := .inserted id sched }) K where
  unique := h.unique
  entered u hu := (h.entered u hu).set_mono ht fun hk => by rw [he] at hk; cases hk
  owed := forall_mem_set h.owed fun k hk u hu hid => by
    cases sched with
    | false => cases hk
    | true => cases hk; exact hn (hid ▸ h.entered u hu)

/-- What was owed is scheduled. -/
theorem schedule {id : Nat} (h : Scheduling S K) (hids : UniqueBy Setup.connId S) (ht : S[i]? = some t)
    (ho : t.pc.owedId = some id) (hu : u.id = id) :
    Scheduling (S.set i { t with pc := .awaiting id k }) (K ++ [u]) := by
  subst hu
  have hpc := Setup.enteredId_of_owedId ho
  have hkept := h.goto (p := .awaiting u.id k) ht (.inr hpc.symm) (.inl rfl)
  refine ⟨h.unique.append fun k hk hown => ?_, forall_mem_append hkept.entered (.set_self ht rfl), ?_⟩
  · cases hk
    obtain ⟨v, hv, hvk⟩ := hown
    exact h.owed t (List.mem_of_getElem? ht) _ ho v hv (Option.some.inj hvk)
  · intro z hz k' hk'
    refine forall_mem_append (hkept.owed z hz k' hk') fun hid => ?_
    subst hid
    -- another setup with this id
    obtain ⟨j, hj⟩ := List.getElem?_of_mem hz
    rcases getElem?_set_cases ht hj with ⟨-, rfl⟩ | ⟨hij, hj⟩
    · cases hk'
    · exact hij (hids i j t z u.id ht hj (Setup.connId_of_enteredId hpc)
        (Setup.connId_of_enteredId (Setup.enteredId_of_owedId hk')))

theorem schedGoto {q : SchedPc} (h : Scheduling S K) (hu : K[k]? = some u) :
    Scheduling S (K.set k { u with pc := q }) where
  unique := h.unique.set_same hu rfl
  entered := forall_mem_set h.entered (h.entered u (List.mem_of_getElem? hu))
  owed t ht k hk := forall_mem_set (h.owed t ht k hk) (h.owed t ht k hk u (List.mem_of_getElem? hu))

end Scheduling

abbrev SchedulingOK (s : State) : Prop := Scheduling s.setups s.scheds

theorem StepR.schedulingOK (hL : LedgerOK s) (h : SchedulingOK s) (hs : StepR cfg s a s') : SchedulingOK s' := by
  -- a setup that has not entered `active` moves on
  have move : ∀ {i t p}, s.setups[i]? = some t → t.enteredId = none → p.owedId = none →
      Scheduling (s.setups.set i { t with pc := p }) s.scheds :=
    fun ht he ho => h.goto ht (.inl he) (.inl ho)
  cases hs with
  | connect => exact h.spawn rfl
  | accept => exact h.spawn rfl
  | reject ht hpc => exact move ht (by rcases hpc with hpc | hpc <;> rw [Setup.enteredId, hpc] <;> rfl) rfl
  | startCalled ht hpc | startAccepted ht hpc | checkConnected ht hpc | dropRefused ht hpc | dropSched ht hpc =>
    exact move ht (by rw [Setup.enteredId, hpc]; rfl) (by split <;> rfl)
  | acquire ht hpc | noBudget ht hpc | reserveOk ht hpc | reserveErr ht hpc | adapt ht hpc | failDialing ht hpc
  | failProtocols ht hpc | wired ht hpc | lockActive ht hpc | checkRefused ht hpc | checkAdmitted ht hpc
  | dropUnwinding ht hpc | notifySched ht hpc => exact move ht (by rw [Setup.enteredId, hpc]; rfl) rfl
  | @insert i t id sched begun tasks ht hpc =>
    have he : t.enteredId = none := by rw [Setup.enteredId, hpc]; rfl
    exact h.insert ht he (hL.not_entered ht (by rw [Setup.connId, hpc]; rfl) he)
  | @dropInserted i t id sched ht hpc =>
    exact h.goto ht (.inr (by rw [Setup.enteredId, hpc]; rfl)) (.inr (by rw [hpc]; cases sched <;> rfl))
  | scheduleSome ht hpc => exact h.schedule hL.ids ht (by rw [hpc]; rfl) rfl
  | scheduleNone ht hpc | finish ht hpc | finishAwaiting ht hpc =>
    exact h.goto ht (.inr (by rw [Setup.enteredId, hpc]; rfl)) (.inl rfl)
  | schedDone hu => exact h.schedGoto hu
  | schedNotify hu => exact h.schedGoto hu
  | attach | disconnect | recover | noRecovery | claim | claimNone | cancel | register | finalize | remove
  | removeNone | notifyDrain | beginShutdown | enableOnConnect | takeId => exact h

theorem schedulingOK_reachable (h : (lifecycle cfg).Reachable s) : SchedulingOK s := by
  refine h.invariant ?_ fun hr ho _ hs => (step_sound hs).schedulingOK (ledgerOK_reachable hr) ho
  exact ⟨uniqueBy_nil, by simp [lifecycle, State.init], by simp [lifecycle, State.init]⟩

/-! ## With OnConnect enabled first -/

/-- The setup found OnConnect not enabled. -/
def SetupPc.unhooked : SetupPc → Bool
  | .ready _ sched | .adding _ sched _ | .admitted _ sched _ | .refused _ sched => !sched
  | .inserted _ sched | .established _ sched => !sched
  | _ => false

/-- No setup found OnConnect not enabled, so whatever entered `active` has
its scheduling ahead or is scheduled. -/
structure Hooked (setups : List Setup) (scheds : List Sched) : Prop where
  hooked : ∀ t ∈ setups, t.pc.unhooked = false
  scheduled : ∀ t ∈ setups, ∀ k, t.enteredId = some k → t.pc.owedId = some k ∨ ∃ u ∈ scheds, u.id = k

namespace Hooked

variable {S : List Setup} {K : List Sched} {i k : Nat} {t : Setup} {u : Sched} {p : SetupPc}

theorem goto (h : Hooked S K) (ht : S[i]? = some t) (hp : p.unhooked = false)
    (he : ∀ k, p.enteredId = some k → p.owedId = some k ∨ t.enteredId = some k ∧ t.pc.owedId = none) :
    Hooked (S.set i { t with pc := p }) K where
  hooked := forall_mem_set h.hooked hp
  scheduled := forall_mem_set h.scheduled fun k hk => by
    rcases he k hk with ho | ⟨hent, hnone⟩
    · exact .inl ho
    · refine .inr ((h.scheduled t (List.mem_of_getElem? ht) k hent).resolve_left fun ho => ?_)
      rw [hnone] at ho; cases ho

theorem spawn (h : Hooked S K) (hp : t.pc.unhooked = false) (he : t.enteredId = none) : Hooked (S ++ [t]) K where
  hooked := forall_mem_append h.hooked hp
  scheduled := forall_mem_append h.scheduled fun k hk => by rw [he] at hk; cases hk

theorem schedule (h : Hooked S K) (hu : u.id = k) {n : Nat} :
    Hooked (S.set i { t with pc := .awaiting k n }) (K ++ [u]) where
  hooked := forall_mem_set h.hooked rfl
  scheduled := forall_mem_set
    (fun z hz k' hk' => (h.scheduled z hz k' hk').imp_right fun ⟨v, hv, hid⟩ => ⟨v, List.mem_append_left _ hv, hid⟩)
    fun k' hk' => by
      cases hk'
      exact .inr ⟨u, by simp, hu⟩

theorem schedGoto {q : SchedPc} (h : Hooked S K) (hu : K[k]? = some u) : Hooked S (K.set k { u with pc := q }) where
  hooked := h.hooked
  scheduled t ht k' hk' := (h.scheduled t ht k' hk').imp_right fun hex => exists_mem_set hex hu id

end Hooked

/-- With OnConnect enabled before the setups' protocols are. -/
theorem StepR.hooked (hs : StepR cfg s a s') (hw : ∀ t ∈ s.setups, ∀ id, t.pc = .protocols id → s.onConnect = true)
    (h : Hooked s.setups s.scheds) : Hooked s'.setups s'.scheds := by
  have move : ∀ {i t p}, s.setups[i]? = some t → p.unhooked = false → p.enteredId = none →
      Hooked (s.setups.set i { t with pc := p }) s.scheds :=
    fun ht hp he => h.goto ht hp fun k hk => by rw [he] at hk; cases hk
  have flag : ∀ {i : Nat} {t : Setup} {q}, s.setups[i]? = some t → t.pc = q → q.unhooked = false := fun ht hpc => by
    have := h.hooked _ (List.mem_of_getElem? ht)
    rwa [hpc] at this
  cases hs with
  | connect => exact h.spawn rfl rfl
  | accept => exact h.spawn rfl rfl
  | startCalled ht | startAccepted ht | checkConnected ht | dropRefused ht | dropSched ht =>
    exact move ht (by split <;> rfl) (by split <;> rfl)
  | reject ht | acquire ht | noBudget ht | reserveOk ht | reserveErr ht | adapt ht | failDialing ht
  | failProtocols ht | dropUnwinding ht | notifySched ht => exact move ht rfl rfl
  | wired ht hpc => exact move ht (by simp [SetupPc.unhooked, hw _ (List.mem_of_getElem? ht) _ hpc]) rfl
  | lockActive ht hpc | checkRefused ht hpc | checkAdmitted ht hpc =>
    have hkept := flag ht hpc
    exact move ht hkept rfl
  | @insert i t id sched begun tasks ht hpc =>
    have hsched : sched = true := by simpa [SetupPc.unhooked] using flag ht hpc
    subst hsched
    exact h.goto ht rfl fun k hk => .inl hk
  | @dropInserted i t id sched ht hpc =>
    have hsched : sched = true := by simpa [SetupPc.unhooked] using flag ht hpc
    subst hsched
    exact h.goto ht rfl fun k hk => .inl hk
  | @scheduleSome i t id ht hpc => exact h.schedule (u := ⟨t.addr, id, .running⟩) rfl
  | scheduleNone ht hpc => cases flag ht hpc
  | finish ht hpc | finishAwaiting ht hpc =>
    exact h.goto ht rfl fun k hk => .inr ⟨by rw [Setup.enteredId, hpc]; exact hk, by rw [hpc]; rfl⟩
  | schedDone hu => exact h.schedGoto hu
  | schedNotify hu => exact h.schedGoto hu
  | attach | disconnect | recover | noRecovery | claim | claimNone | cancel | register | finalize | remove
  | removeNone | notifyDrain | beginShutdown | enableOnConnect | takeId => exact h

/-- A connection is made by `adapt` only. -/
theorem StepR.connId_cases (hs : StepR cfg s a s') {k : Nat} (h : Owned Setup.connId s'.setups k) :
    Owned Setup.connId s.setups k ∨ ∃ i, a = .adapt i := by
  cases hs with
  | connect => exact .inl (h.of_append rfl)
  | accept => exact .inl (h.of_append rfl)
  | adapt => exact .inr ⟨_, rfl⟩
  | startCalled ht | startAccepted ht | checkConnected ht | dropRefused ht | dropSched ht =>
    refine .inl (h.of_set_kept ht ?_)
    split <;> exact .inl rfl
  | reject ht | acquire ht | noBudget ht | reserveOk ht | reserveErr ht | failDialing ht | failProtocols ht
  | checkRefused ht | dropUnwinding ht | notifySched ht => exact .inl (h.of_set_kept ht (.inl rfl))
  | wired ht hpc | lockActive ht hpc | checkAdmitted ht hpc | insert ht hpc | dropInserted ht hpc
  | scheduleSome ht hpc | scheduleNone ht hpc | finish ht hpc | finishAwaiting ht hpc =>
    exact .inl (h.of_set_kept ht (.inr (by rw [Setup.connId, Setup.connId, hpc]; rfl)))
  | _ => exact .inl h

end Pea2Pea
