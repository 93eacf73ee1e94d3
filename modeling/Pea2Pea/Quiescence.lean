/-
No call of a node waits for ever.

With no new calls, each setup, disconnect and scheduling task moves on
towards its end, a `toggle_listener` or `enable_*` call and a `shut_down`
too, and none of them is stuck before it: a lock has somebody in it who can
go on, a parked `shut_down` is woken, and what a fan-out waits for are
disconnects that go on.

The measure is lexicographic. A `shut_down` that takes its snapshot adds
disconnects, so the calls ahead of their snapshots come first; a step of the
lifecycle may wake the waiters of every `shut_down`, so the lifecycle's
workload comes before theirs.
-/
import Pea2Pea.Accounting
import Pea2Pea.Budget
import Pea2Pea.ShutdownFacts
import Pea2Pea.Lib.Settles
import Mathlib.Data.Prod.Lex

namespace Pea2Pea

open Pool

/-! ## The lifecycle's workload -/

/-- The steps a setup has ahead of it at most, those of its scheduling task
included. -/
def SetupPc.rank : SetupPc → Nat
  | .called | .accepted => 14
  | .resolving => 13
  | .unconnected => 12
  | .permitted => 11
  | .dialing => 10
  | .protocols _ => 9
  | .ready _ _ => 8
  | .adding _ _ _ => 7
  | .admitted _ _ _ => 6
  | .refused _ _ | .inserted _ _ | .unwinding => 5
  | .established _ _ => 4
  | .abandoning => 3
  | .notifying => 2
  | .finishing _ | .awaiting _ _ => 1
  | .done _ => 0

def SchedPc.rank : SchedPc → Nat
  | .running => 2
  | .notifying => 1
  | .done => 0

theorem SetupPc.rank_awaiting {id k : Nat} : (SetupPc.awaiting id k).rank = 1 := rfl

theorem SchedPc.rank_running : SchedPc.running.rank = 2 := rfl

def DiscPc.rank : DiscPc → Nat
  | .called => 4
  | .claimed _ => 3
  | .dropping _ => 2
  | .removed _ _ => 1
  | .done _ _ => 0

def workload (s : State) : Nat :=
  weight (·.pc.rank) s.setups + weight (·.pc.rank) s.scheds + weight (·.pc.rank) s.discs

/-- The steps that neither begin anything nor get anything further: a handle
goes to a connection, or another node takes an id. -/
def Act.isIdle : Act → Bool
  | .attach _ _ | .register _ _ | .takeId => true
  | _ => false

/-- The steps from outside. -/
def Act.isCall : Act → Bool
  | .connect _ | .accept _ | .disconnect _ _ _ | .disconnectOnDrop _ _ _ | .beginShutdown | .enableOnConnect => true
  | _ => false

variable {cfg : NodeConfig} {s s' : State} {a : Act}

theorem StepR.workload_lt (hs : StepR cfg s a s') (hi : a.isIdle = false) (hc : a.isCall = false) :
    workload s' < workload s := by
  have setup : ∀ {i : Nat} {t : Setup} {p : SetupPc} {b : State}, s.setups[i]? = some t → p.rank < t.pc.rank →
      b.setups = s.setups.set i { t with pc := p } → b.scheds = s.scheds → b.discs = s.discs →
      workload b < workload s := by
    intro i t p b ht hp h₁ h₂ h₃
    have := weight_set_lt (w := fun t : Setup => t.pc.rank) (y := { t with pc := p }) ht hp
    simp only [workload, h₁, h₂, h₃]
    omega
  have disc : ∀ {j : Nat} {d : Disc} {p : DiscPc} {b : State}, s.discs[j]? = some d → p.rank < d.pc.rank →
      b.setups = s.setups → b.scheds = s.scheds → b.discs = s.discs.set j { d with pc := p } →
      workload b < workload s := by
    intro j d p b hd hp h₁ h₂ h₃
    have := weight_set_lt (w := fun d : Disc => d.pc.rank) (y := { d with pc := p }) hd hp
    simp only [workload, h₁, h₂, h₃]
    omega
  have sched : ∀ {k : Nat} {u : Sched} {p : SchedPc} {b : State}, s.scheds[k]? = some u → p.rank < u.pc.rank →
      b.setups = s.setups → b.scheds = s.scheds.set k { u with pc := p } → b.discs = s.discs →
      workload b < workload s := by
    intro k u p b hu hp h₁ h₂ h₃
    have := weight_set_lt (w := fun u : Sched => u.pc.rank) (y := { u with pc := p }) hu hp
    simp only [workload, h₁, h₂, h₃]
    omega
  cases hs with
  | connect | accept | disconnect | recover | noRecovery | beginShutdown | enableOnConnect => cases hc
  | attach | register | takeId => cases hi
  | startCalled ht hpc => exact setup ht (by rw [hpc]; split <;> simp [SetupPc.rank]) rfl rfl rfl
  | startAccepted ht hpc => exact setup ht (by rw [hpc]; split <;> simp [SetupPc.rank]) rfl rfl rfl
  | reject ht hpc => exact setup ht (by rcases hpc with hpc | hpc <;> simp [hpc, SetupPc.rank]) rfl rfl rfl
  | checkConnected ht hpc => exact setup ht (by rw [hpc]; split <;> simp [SetupPc.rank]) rfl rfl rfl
  | dropRefused ht hpc => exact setup ht (by rw [hpc]; split <;> simp [SetupPc.rank]) rfl rfl rfl
  | dropSched ht hpc => exact setup ht (by rw [hpc]; split <;> simp [SetupPc.rank]) rfl rfl rfl
  | acquire ht hpc | noBudget ht hpc | reserveOk ht hpc | reserveErr ht hpc | adapt ht hpc | failDialing ht hpc
  | failProtocols ht hpc | wired ht hpc | lockActive ht hpc | checkRefused ht hpc | checkAdmitted ht hpc
  | insert ht hpc | dropUnwinding ht hpc | dropInserted ht hpc | notifySched ht hpc | scheduleNone ht hpc
  | finish ht hpc | finishAwaiting ht hpc => exact setup ht (by simp [hpc, SetupPc.rank]) rfl rfl rfl
  | @scheduleSome i t id ht hpc =>
    -- the setup pays for the task it spawns
    have hset := weight_set (w := fun t : Setup => t.pc.rank) (y := { t with pc := .awaiting id s.scheds.length }) ht
    have hrank : t.pc.rank = 4 := by rw [hpc]; rfl
    have hsched := weight_append (fun u : Sched => u.pc.rank) s.scheds [⟨t.addr, id, .running⟩]
    simp only [workload, State.goto]
    simp only [weight, hrank, SchedPc.rank_running, SetupPc.rank_awaiting] at hset hsched
    omega
  | schedDone hu hpc => exact sched hu (by rw [hpc]; split <;> simp [SchedPc.rank]) rfl rfl rfl
  | schedNotify hu hpc => exact sched hu (by simp [hpc, SchedPc.rank]) rfl rfl rfl
  | claim hd hpc | claimNone hd hpc | cancel hd hpc | finalize hd hpc | remove hd hpc | removeNone hd hpc
  | notifyDrain hd hpc => exact disc hd (by simp [hpc, DiscPc.rank]) rfl rfl rfl

theorem StepR.idle_same (hs : StepR cfg s a s') (hi : a.isIdle = true) :
    s'.setups = s.setups ∧ s'.scheds = s.scheds ∧ s'.discs = s.discs := by
  cases hs <;> first | exact ⟨rfl, rfl, rfl⟩ | cases hi

theorem StepR.workload_idle (hs : StepR cfg s a s') (hi : a.isIdle = true) : workload s' = workload s := by
  obtain ⟨h₁, h₂, h₃⟩ := hs.idle_same hi
  rw [workload, h₁, h₂, h₃, workload]

/-! ## No part of the lifecycle is stuck -/

/-- Who has `active` locked is in `add`, and who awaits a scheduling task
awaits one that was spawned. -/
structure Afoot (addLock : Option Nat) (setups : List Setup) (scheds : List Sched) : Prop where
  lock : Held (·.pc.locking) setups addLock
  sched : ∀ t ∈ setups, ∀ id k, t.pc = .awaiting id k → k < scheds.length

namespace Afoot

variable {L : Option Nat} {S : List Setup} {K : List Sched} {i : Nat} {t : Setup} {p : SetupPc}

theorem goto (h : Afoot L S K) (ht : S[i]? = some t) (hl : t.pc.locking = false) (hp : ∀ id k, p ≠ .awaiting id k) :
    Afoot L (S.set i { t with pc := p }) K where
  lock := h.lock.set ht fun hlock => by rw [hl] at hlock; cases hlock
  sched := forall_mem_set h.sched fun id k hpc => absurd hpc (hp id k)

theorem release (h : Afoot L S K) (hp : ∀ id k, p ≠ .awaiting id k) : Afoot none (S.set i { t with pc := p }) K where
  lock := held_none
  sched := forall_mem_set h.sched fun id k hpc => absurd hpc (hp id k)

theorem spawn (h : Afoot L S K) (hp : ∀ id k, t.pc ≠ .awaiting id k) : Afoot L (S ++ [t]) K where
  lock := h.lock.append _
  sched := forall_mem_append h.sched fun id k hpc => absurd hpc (hp id k)

end Afoot

abbrev AfootOK (s : State) : Prop := Afoot s.addLock s.setups s.scheds

theorem StepR.afootOK (h : AfootOK s) (hs : StepR cfg s a s') : AfootOK s' := by
  cases hs with
  | connect | accept => exact h.spawn (by simp)
  | startCalled ht hpc => exact h.goto ht (by rw [hpc]; rfl) (by split <;> simp)
  | startAccepted ht hpc => exact h.goto ht (by rw [hpc]; rfl) (by split <;> simp)
  | reject ht hpc => exact h.goto ht (by rcases hpc with hpc | hpc <;> rw [hpc] <;> rfl) (by simp)
  | checkConnected ht hpc => exact h.goto ht (by rw [hpc]; rfl) (by split <;> simp)
  | dropRefused ht hpc => exact h.goto ht (by rw [hpc]; rfl) (by split <;> simp)
  | dropSched ht hpc => exact h.goto ht (by rw [hpc]; rfl) (by split <;> simp)
  | noBudget ht hpc | reserveErr ht hpc | failDialing ht hpc | failProtocols ht hpc | notifySched ht hpc
  | scheduleNone ht hpc | acquire ht hpc | reserveOk ht hpc | adapt ht hpc | wired ht hpc | dropUnwinding ht hpc
  | dropInserted ht hpc | finish ht hpc | finishAwaiting ht hpc => exact h.goto ht (by rw [hpc]; rfl) (by simp)
  | lockActive ht => exact ⟨held_acquire ht rfl, (h.release (by simp)).sched⟩
  | checkRefused => exact h.release (by simp)
  | checkAdmitted ht => exact ⟨h.lock.set ht fun _ => rfl, (h.release (by simp)).sched⟩
  | insert => exact h.release (by simp)
  | scheduleSome ht hpc =>
    refine ⟨h.lock.set ht ?_, forall_mem_set ?_ ?_⟩
    · intro hl; rw [hpc] at hl; cases hl
    · intro t ht id k hp
      exact Nat.lt_of_lt_of_le (h.sched t ht id k hp) (by simp)
    · rintro id k ⟨⟩
      simp
  | schedDone | schedNotify =>
    exact ⟨h.lock, fun t ht id k hp => by simpa [State.schedGoto] using h.sched t ht id k hp⟩
  | attach | disconnect | recover | noRecovery | claim | claimNone | cancel | register | finalize | remove
  | removeNone | notifyDrain | beginShutdown | enableOnConnect | takeId => exact h

theorem afootOK_reachable (h : (lifecycle cfg).Reachable s) : AfootOK s := by
  refine h.invariant ?_ fun _ hA _ hs => (step_sound hs).afootOK hA
  exact ⟨held_none, by simp [lifecycle, State.init]⟩

/-- Whoever schedules OnConnect has found it enabled. -/
structure Scheduled (onConnect : Bool) (setups : List Setup) (scheds : List Sched) : Prop where
  setups : ∀ t ∈ setups, t.pc.hasSched = true → onConnect = true
  scheds : scheds ≠ [] → onConnect = true

theorem Scheduled.goto {O : Bool} {S : List Setup} {K : List Sched} {i : Nat} {t : Setup} {p : SetupPc}
    (h : Scheduled O S K) (ht : S[i]? = some t) (hp : p.hasSched = true → t.pc.hasSched = true) :
    Scheduled O (S.set i { t with pc := p }) K where
  setups := forall_mem_set h.setups fun hsp => h.setups t (List.mem_of_getElem? ht) (hp hsp)
  scheds := h.scheds

abbrev ScheduledOK (s : State) : Prop := Scheduled s.onConnect s.setups s.scheds

theorem StepR.scheduledOK (h : ScheduledOK s) (hs : StepR cfg s a s') : ScheduledOK s' := by
  cases hs with
  | connect | accept => exact { h with setups := forall_mem_append h.setups (by simp [SetupPc.hasSched]) }
  | startCalled ht | startAccepted ht | checkConnected ht => exact h.goto ht (by split <;> simp [SetupPc.hasSched])
  | dropRefused ht hpc => exact h.goto ht (by split <;> simp_all [SetupPc.hasSched])
  | dropSched ht hpc => exact h.goto ht (by simp [hpc, SetupPc.hasSched])
  | wired => exact { h with setups := forall_mem_set h.setups fun hon => hon }
  | lockActive ht hpc | checkRefused ht hpc | checkAdmitted ht hpc | insert ht hpc | dropInserted ht hpc =>
    exact h.goto ht (by simp [hpc, SetupPc.hasSched])
  | scheduleSome ht hpc =>
    have hon := h.setups _ (List.mem_of_getElem? ht) (by rw [hpc]; rfl)
    exact ⟨fun _ _ _ => hon, fun _ => hon⟩
  | reject ht | acquire ht | noBudget ht | reserveOk ht | reserveErr ht | adapt ht | failDialing ht
  | failProtocols ht | dropUnwinding ht | notifySched ht | scheduleNone ht | finish ht | finishAwaiting ht =>
    exact h.goto ht (by simp [SetupPc.hasSched])
  | schedDone hu | schedNotify hu =>
    exact { h with scheds := fun _ => h.scheds fun he => by rw [he] at hu; cases hu }
  | enableOnConnect => exact ⟨fun _ _ _ => rfl, fun _ => rfl⟩
  | attach | disconnect | recover | noRecovery | claim | claimNone | cancel | register | finalize | remove
  | removeNone | notifyDrain | beginShutdown | takeId => exact h

theorem scheduledOK_reachable (h : (lifecycle cfg).Reachable s) : ScheduledOK s := by
  refine h.invariant ?_ fun _ hA _ hs => (step_sound hs).scheduledOK hA
  constructor <;> simp [lifecycle, State.init]

theorem StepR.discs_le (hs : StepR cfg s a s') : s.discs.length ≤ s'.discs.length := by
  cases hs <;> simp [State.goto, State.dropGuard, State.schedGoto, State.discGoto, State.removeConn]

theorem liveSchedGuards_rest (hS : ∀ t ∈ s.setups, ∃ entered, t.pc = .done entered)
    (hK : ∀ u ∈ s.scheds, u.pc = .done) : liveSchedGuards s.setups s.scheds = 0 := by
  refine Nat.add_eq_zero_iff.mpr ⟨List.countP_eq_zero.mpr fun t ht => ?_, List.countP_eq_zero.mpr fun u hu => ?_⟩
  · obtain ⟨entered, hpc⟩ := hS t ht
    simp [hpc, SetupPc.hasSched]
  · simp [hK u hu, SchedPc.hasGuard]

/-- The steps of a setup. -/
def setupSteps (i : Nat) : List Act :=
  [.start i, .checkConnected i, .acquire i, .reserve i, .adapt i, .wired i, .lockActive i, .checkFlag i, .insert i [],
    .dropGuard i, .dropSched i, .notifySched i, .schedule i, .finish i]

/-- A setup with no step to take has ended, or awaits a scheduling task. -/
theorem setup_rest {i : Nat} {t : Setup} (h : AfootOK s) (ht : s.setups[i]? = some t)
    (hl : s.addLock = none ∨ t.pc.locking = true) (hs : ∀ a ∈ setupSteps i, step cfg s a = none) :
    (∃ entered, t.pc = .done entered) ∨
      ∃ (id k : Nat) (u : Sched), t.pc = .awaiting id k ∧ s.scheds[k]? = some u ∧ u.pc = .running := by
  have free : t.pc.locking = false → s.addLock = none := fun hn => hl.resolve_right (by simp [hn])
  have stuck : ∀ a, step cfg s a ≠ none → a ∈ setupSteps i → False := fun a hne ha => hne (hs a ha)
  cases hpc : t.pc with
  | done entered => exact .inl ⟨entered, rfl⟩
  | awaiting id k =>
    have hk := h.sched t (List.mem_of_getElem? ht) id k hpc
    refine .inr ⟨id, k, _, rfl, List.getElem?_eq_getElem hk, ?_⟩
    by_contra hne
    refine stuck (.finish i) ?_ (by simp [setupSteps])
    simp [step, ht, hpc, List.getElem?_eq_getElem hk, hne]
  | called | accepted => exact (stuck (.start i) (by simp [step, ht, hpc]) (by simp [setupSteps])).elim
  | resolving =>
    exact (stuck (.checkConnected i) (by simp [step, ht, hpc, free (by rw [hpc]; rfl)]) (by simp [setupSteps])).elim
  | unconnected =>
    refine (stuck (.acquire i) ?_ (by simp [setupSteps])).elim
    simp only [step, ht, hpc, Option.bind_eq_bind, Option.bind_some]
    split <;> simp
  | permitted =>
    refine (stuck (.reserve i) ?_ (by simp [setupSteps])).elim
    simp only [step, ht, hpc, Option.bind_eq_bind, Option.bind_some, free (by rw [hpc]; rfl), if_true]
    split <;> simp
  | dialing => exact (stuck (.adapt i) (by simp [step, ht, hpc]) (by simp [setupSteps])).elim
  | protocols => exact (stuck (.wired i) (by simp [step, ht, hpc]) (by simp [setupSteps])).elim
  | ready =>
    exact (stuck (.lockActive i) (by simp [step, ht, hpc, free (by rw [hpc]; rfl)]) (by simp [setupSteps])).elim
  | adding =>
    refine (stuck (.checkFlag i) ?_ (by simp [setupSteps])).elim
    simp only [step, ht, hpc, Option.bind_eq_bind, Option.bind_some]
    split <;> simp
  | admitted => exact (stuck (.insert i []) (by simp [step, ht, hpc]) (by simp [setupSteps])).elim
  | refused | unwinding | inserted =>
    exact (stuck (.dropGuard i) (by simp [step, ht, hpc]) (by simp [setupSteps])).elim
  | established id sched =>
    exact (stuck (.schedule i) (by cases sched <;> simp [step, ht, hpc]) (by simp [setupSteps])).elim
  | abandoning => exact (stuck (.dropSched i) (by simp [step, ht, hpc]) (by simp [setupSteps])).elim
  | notifying => exact (stuck (.notifySched i) (by simp [step, ht, hpc]) (by simp [setupSteps])).elim
  | finishing => exact (stuck (.finish i) (by simp [step, ht, hpc]) (by simp [setupSteps])).elim

/-- Where no setup has a step to take, nobody is in `add`. -/
theorem addLock_rest (h : AfootOK s) (hs : ∀ i, ∀ a ∈ setupSteps i, step cfg s a = none) : s.addLock = none := by
  cases hl : s.addLock with
  | none => rfl
  | some i =>
    obtain ⟨t, ht, hlock⟩ := h.lock i hl
    rcases setup_rest h ht (.inr hlock) (hs i) with ⟨entered, hpc⟩ | ⟨id, k, -, hpc, -⟩ <;>
      simp [hpc, SetupPc.locking] at hlock

theorem sched_rest {k : Nat} {u : Sched} (hu : s.scheds[k]? = some u) (hs : step cfg s (.schedNotify k) = none) :
    u.pc = .running ∨ u.pc = .done := by
  cases hpc : u.pc with
  | running => exact .inl rfl
  | notifying => simp [step, hu, hpc] at hs
  | done => exact .inr rfl

/-- A disconnect with no step to take after its finalizer began has ended. -/
theorem disc_rest {j : Nat} {d : Disc} (hl : s.addLock = none) (hd : s.discs[j]? = some d)
    (hr : step cfg s (.remove j) = none) (hn : step cfg s (.notifyDrain j) = none) :
    d.pc = .called ∨ (∃ id, d.pc = .claimed id) ∨ ∃ id got, d.pc = .done id got := by
  cases hpc : d.pc with
  | called => exact .inl rfl
  | claimed id => exact .inr (.inl ⟨id, rfl⟩)
  | dropping id =>
    simp only [step, hd, hpc, hl, Option.bind_eq_bind, Option.bind_some, if_true] at hr
    split at hr <;> cases hr
  | removed id got => simp [step, hd, hpc] at hn
  | done id got => exact .inr (.inr ⟨id, got, rfl⟩)

/-- Nothing is held but by the established connections, and none of them is
being torn down. -/
structure Released (cfg : NodeConfig) (s : State) : Prop where
  connecting : s.limits.connecting = ∅
  permits : s.permits = cfg.maxConnecting
  scheds : s.schedInFlight = 0
  charges : ∀ ip, s.limits.charge ip = connectedFrom s.active ip
  live : ∀ a c, s.active.lookup a = some c → c.disconnecting = false

/-- What ends, gives back what it held. -/
theorem released_rest (h : (lifecycle cfg).Reachable s) (hS : ∀ t ∈ s.setups, ∃ entered, t.pc = .done entered)
    (hK : ∀ u ∈ s.scheds, u.pc = .done) (hD : ∀ d ∈ s.discs, ∃ id got, d.pc = .done id got) : Released cfg s where
  connecting := by
    refine Finset.eq_empty_of_forall_notMem fun a ha => ?_
    obtain ⟨t, ht, hg⟩ := ((ledgerOK_reachable h).connecting a).mp ha
    obtain ⟨entered, hpc⟩ := hS t ht
    simp [Setup.guardAddr, hpc, SetupPc.guard] at hg
  permits := by
    have hheld : heldPermits s.setups = 0 := List.countP_eq_zero.mpr fun t ht => by
      obtain ⟨entered, hpc⟩ := hS t ht
      simp [hpc, SetupPc.permit]
    have hB : heldPermits s.setups + s.permits = cfg.maxConnecting := budgetOK_reachable h
    omega
  scheds := (schedOK_reachable h).trans (liveSchedGuards_rest hS hK)
  charges ip := by
    have hopen : openGuards s.setups ip = 0 := List.countP_eq_zero.mpr fun t ht => by
      obtain ⟨entered, hpc⟩ := hS t ht
      simp [Setup.charges, hpc, SetupPc.guard]
    rw [(accounting_reachable h).exact ip, hopen, Nat.zero_add]
  live a c hc := by
    by_contra hne
    obtain ⟨d, hd, hfin⟩ := (ledgerOK_reachable h).owner a c hc (by simpa using hne)
    obtain ⟨id, got, hpc⟩ := hD d hd
    simp [Disc.finAddr, hpc, DiscPc.finId] at hfin

end Pea2Pea

namespace Pea2Pea.Shutdown

open Pool Tasks

/-! ## The calls' workload -/

/-- A cancelled `shut_down` drops the disconnects of its fan-out. -/
def State.orphaned (s : State) (j : Nat) : Bool := s.shuts.any fun u => u.has j && u.pc == .cancelled

/-- What the steps are: failures and cancellations may come or not, and a node
task need not end by itself; the drain deadline passes. -/
def pace (s : State) : Act → Pace
  | .base (.reject _) | .base (.fail _) => .event
  | .base (.cancel j) => if s.orphaned j then .work else .event
  | .base a => if a.isCall then .call else if a.isIdle then .idle else .work
  | .toggle | .enable _ | .shutDown => .call
  | .cancelCall _ | .finishTask _ | .cancelShut _ => .event
  | _ => .work

/-- The steps of a `shut_down` up to its snapshot. -/
def ShutPc.ahead : ShutPc → Nat
  | .called => 3
  | .begun => 2
  | .taken => 1
  | _ => 0

/-- The steps of a waiter until it is parked for good. -/
def waiterRank : Waiter → Nat
  | .registered true => 5
  | .parked true => 4
  | .entering => 3
  | .registered false => 2
  | .parked false => 1

/-- The steps of a `shut_down` after its snapshot, while nobody notifies. -/
def Shut.rank (u : Shut) : Nat :=
  match u.pc with
  | .fanout => u.tasks.length + 14
  | .draining w => u.tasks.length + 9 + waiterRank w
  | .schedDraining w => u.tasks.length + 3 + waiterRank w
  | .drained => u.tasks.length + 4
  | .winding i => u.tasks.length - i + 2
  | .clearing => 1
  | _ => 0

/-- The steps of a toggle or an `enable_*`, the task it spawns included. -/
def CallPc.rank : CallPc → Nat
  | .called => 8
  | .holding => 7
  | .spawned _ => 4
  | .locked _ => 3
  | .admitted _ => 2
  | .registered _ => 1
  | .done => 0

/-- The steps left, lexicographically: the snapshots to take, the
lifecycle's, and those of the calls. -/
def State.left (s : State) : ℕ ×ₗ ℕ ×ₗ ℕ :=
  toLex (weight (·.pc.ahead) s.shuts, toLex (workload s.base,
    weight Shut.rank s.shuts + weight (·.pc.rank) s.calls + running s.tasks))

variable {cfg : NodeConfig} {s s' : State} {a : Act}

namespace State

theorem left_lt_of_ahead (h : weight (·.pc.ahead) s'.shuts < weight (·.pc.ahead) s.shuts) : s'.left < s.left :=
  Prod.Lex.toLex_lt_toLex.mpr (.inl h)

theorem left_lt_of_base (h₁ : weight (·.pc.ahead) s'.shuts ≤ weight (·.pc.ahead) s.shuts)
    (h₂ : workload s'.base < workload s.base) : s'.left < s.left := by
  refine Prod.Lex.toLex_lt_toLex.mpr ((Nat.lt_or_eq_of_le h₁).imp_right fun h => ⟨h, ?_⟩)
  exact Prod.Lex.toLex_lt_toLex.mpr (.inl h₂)

theorem left_lt_of_calls (h₁ : weight (·.pc.ahead) s'.shuts ≤ weight (·.pc.ahead) s.shuts)
    (h₂ : workload s'.base = workload s.base)
    (h₃ : weight Shut.rank s'.shuts + weight (·.pc.rank) s'.calls + running s'.tasks <
      weight Shut.rank s.shuts + weight (·.pc.rank) s.calls + running s.tasks) : s'.left < s.left := by
  refine Prod.Lex.toLex_lt_toLex.mpr ((Nat.lt_or_eq_of_le h₁).imp_right fun h => ⟨h, ?_⟩)
  exact Prod.Lex.toLex_lt_toLex.mpr (.inr ⟨h₂, h₃⟩)

end State

theorem Shut.announce_ahead (u : Shut) (a : Pea2Pea.Act) : (u.announce a).pc.ahead = u.pc.ahead := by
  rcases u.announce_cases a with h | ⟨w, hpc, h⟩ | ⟨w, hpc, h⟩ <;> rw [h] <;> simp [hpc, ShutPc.ahead]

theorem Shut.announce_fan {u : Shut} {a : Pea2Pea.Act} :
    (u.announce a).lo = u.lo ∧ (u.announce a).hi = u.hi ∧ (u.announce a).tasks = u.tasks := by
  rcases u.announce_cases a with h | ⟨w, -, h⟩ | ⟨w, -, h⟩ <;> rw [h] <;> exact ⟨rfl, rfl, rfl⟩

theorem Shut.rank_pos {u : Shut} (h : u.pc.atAwait = true) (hc : u.pc ≠ .called) : 0 < u.rank := by
  cases hpc : u.pc with
  | called => exact absurd hpc hc
  | fanout | draining | schedDraining | winding | clearing =>
    simp only [rank, hpc]
    omega
  | _ => rw [hpc] at h; cases h

theorem Shut.announce_idle {a : Pea2Pea.Act} (ha : a.isIdle = true) (u : Shut) : u.announce a = u := by
  cases a <;> first | rfl | cases ha

/-- Every step that is not idle or a call takes something off. -/
theorem StepR.left_lt (hs : StepR cfg s a s') (hi : pace s a ≠ .idle) (hc : pace s a ≠ .call) : s'.left < s.left := by
  -- a toggle or an `enable_*` moves on, and at most `n` tasks more are running
  have call : ∀ {c : Nat} {x y : Call} {n : Nat} {z : State}, s.calls[c]? = some x → z.shuts = s.shuts →
      workload z.base = workload s.base → z.calls = s.calls.set c y → running z.tasks ≤ running s.tasks + n →
      y.pc.rank + n < x.pc.rank → z.left < s.left := by
    intro c x y n z hx h₁ h₂ h₃ h₄ hy
    have := weight_set (w := fun x : Call => x.pc.rank) (y := y) hx
    refine State.left_lt_of_calls (by rw [h₁]) h₂ ?_
    rw [h₁, h₃]
    omega
  -- a `shut_down` past its snapshot moves on
  have shut : ∀ {n : Nat} {u v : Shut} {z : State}, s.shuts[n]? = some u → z.base = s.base → z.calls = s.calls →
      z.shuts = s.shuts.set n v → running z.tasks ≤ running s.tasks → v.pc.ahead ≤ u.pc.ahead → v.rank < u.rank →
      z.left < s.left := by
    intro n u v z hu h₁ h₂ h₃ h₄ ha hv
    have hr := weight_set_lt hu hv
    have hw := weight_set (w := fun u : Shut => u.pc.ahead) (y := v) hu
    refine State.left_lt_of_calls ?_ (by rw [h₁]) ?_
    · rw [h₃]; omega
    · rw [h₂, h₃]; omega
  have early : ∀ {n : Nat} {u v : Shut} {z : State}, s.shuts[n]? = some u → z.shuts = s.shuts.set n v →
      v.pc.ahead < u.pc.ahead → z.left < s.left := by
    intro n u v z hu h hv
    exact State.left_lt_of_ahead (h ▸ weight_set_lt (w := fun u : Shut => u.pc.ahead) hu hv)
  cases hs with
  | @base a b hb hf =>
    have hidle : a.isIdle = false := by
      cases a <;> first | rfl | exact absurd rfl hi
    have hcall : a.isCall = false := by
      cases a <;> first | rfl | exact absurd rfl hc
    refine State.left_lt_of_base (weight_map fun u _ => ?_) ((Pea2Pea.step_sound hb).workload_lt hidle hcall)
    rw [Shut.announce_ahead]
  | toggle | enable | shutDown => exact absurd rfl hc
  | lockListening hx hk hpc => exact call (n := 0) hx rfl rfl rfl le_rfl (by simp [hpc, CallPc.rank])
  | toggleOff hx hpc => exact call (n := 0) hx rfl rfl rfl (running_abort _ _) (by simp [hpc, CallPc.rank])
  | toggleGone hx hpc | toggleFail hx hpc | checkAdmitted hx hpc | registerTask hx hpc | publishAddr hx hpc
  | publishTwice hx hpc | cancelCalled hx hpc =>
    exact call (n := 0) hx rfl rfl rfl le_rfl (by simp [hpc, CallPc.rank])
  | bind hx _ hpc => exact call (n := 1) hx rfl rfl rfl (running_append _ _) (by simp [hpc, CallPc.rank])
  | installTwice hx _ hpc => exact call (n := 0) hx rfl rfl rfl le_rfl (by simp [hpc, CallPc.rank])
  | install hx _ hpc => exact call (n := 1) hx rfl rfl rfl (running_append _ _) (by simp [hpc, CallPc.rank])
  | lockTasks hx hpc => exact call (n := 0) hx rfl rfl rfl le_rfl (by simp [hpc, CallPc.rank])
  | checkRefused hx hpc | cancelSpawned hx hpc =>
    exact call (n := 0) hx rfl rfl rfl (running_abort _ _) (by simp [hpc, CallPc.rank])
  | publish hx hpc => exact call (n := 0) hx rfl (by dsimp only; split <;> rfl) rfl le_rfl (by simp [hpc, CallPc.rank])
  | @finishTask h t ht hr =>
    refine State.left_lt_of_calls le_rfl rfl (Nat.add_lt_add_left ?_ _)
    have hset : running (s.tasks.set h { t with status := .finished }) + 1 = running s.tasks :=
      running_set ht hr (fun hn => by cases hn)
    exact Nat.lt_of_succ_le hset.le
  | begin hu hpc => exact early hu rfl (by simp [hpc, ShutPc.ahead])
  | takeTasks hu hpc => exact early hu rfl (by simp [hpc, ShutPc.ahead])
  | snapshot hu hpc => exact early hu rfl (by simp [hpc, ShutPc.ahead])
  | @cancelShut n u hu hpc =>
    by_cases hp : u.pc = .called
    · exact early hu rfl (by simp [hp, ShutPc.ahead])
    · refine shut hu rfl rfl rfl (running_abortAll _ _) (by simp [ShutPc.ahead]) ?_
      exact Shut.rank_pos hpc hp
  | @joined n u i h hu hpc hh =>
    have hlt : i < u.tasks.length := (List.getElem?_eq_some_iff.mp hh).1
    refine shut hu rfl rfl rfl le_rfl (by simp [hpc, ShutPc.ahead]) ?_
    simp only [Shut.rank, hpc]
    omega
  | expire hu hpc hlt =>
    refine shut hu rfl rfl rfl le_rfl (by simp [hpc, ShutPc.ahead]) ?_
    simp only [Shut.rank, hpc]
    omega
  | abortRest hu hpc =>
    exact shut hu rfl rfl rfl (running_abortAll _ _) (by simp [hpc, ShutPc.ahead]) (by simp [hpc, Shut.rank])
  | @drainEmpty _ _ woken hu hpc | @drainPark _ _ woken hu hpc | @schedEmpty _ _ woken hu hpc
  | @schedPark _ _ woken hu hpc =>
    refine shut hu rfl rfl rfl le_rfl (by simp [hpc, ShutPc.ahead]) ?_
    cases woken <;> simp [hpc, Shut.rank, waiterRank]
  | fannedOut hu hpc | enableDrain hu hpc | enableSched hu hpc | wakeDrain hu hpc | wakeSched hu hpc
  | signalHandlers hu hpc | clear hu hpc =>
    exact shut hu rfl rfl rfl le_rfl (by simp [hpc, ShutPc.ahead]) (by simp [hpc, Shut.rank, waiterRank])

theorem StepR.left_idle (hs : StepR cfg s a s') (hi : pace s a = .idle) : s'.left = s.left := by
  cases hs with
  | @base a b hb hf =>
    have hidle : a.isIdle = true := by
      cases a <;> first | rfl | (simp only [pace] at hi; split at hi <;> cases hi) | cases hi
    have hshuts : s.shuts.map (·.announce a) = s.shuts := by
      rw [List.map_congr_left fun u _ => Shut.announce_idle hidle u, List.map_id']
    simp only [State.left, hshuts, (Pea2Pea.step_sound hb).workload_idle hidle]
  | _ => cases hi

/-! ## The calls' locks, and the fan-outs -/

/-- Who has `tasks` or `listening_addr` locked is a call inside. -/
structure CallLocks (tasksLock listenLock : Option Nat) (calls : List Call) : Prop where
  tasks : Held (·.pc.lockingTasks) calls tasksLock
  listen : Held Call.inside calls listenLock

namespace CallLocks

variable {T L : Option Nat} {X : List Call} {c : Nat} {x y : Call}

theorem spawn (h : CallLocks T L X) (y : Call) : CallLocks T L (X ++ [y]) := ⟨h.tasks.append _, h.listen.append _⟩

/-- A call moves on with the locks it has. -/
theorem goto (h : CallLocks T L X) (hx : X[c]? = some x) (ht : x.pc.lockingTasks = true → y.pc.lockingTasks = true)
    (hl : x.inside = true → y.inside = true) : CallLocks T L (X.set c y) :=
  ⟨h.tasks.set hx ht, h.listen.set hx hl⟩

end CallLocks

theorem Call.inside_eq {x : Call} : x.inside = true ↔ x.kind = .listener ∧ x.pc ≠ .called ∧ x.pc ≠ .done := by
  simp [Call.inside]

abbrev CallLocksOK (s : State) : Prop := CallLocks s.tasksLock s.listenLock s.calls

theorem StepR.callLocksOK (h : CallLocksOK s) (hs : StepR cfg s a s') : CallLocksOK s' := by
  -- a call that is over gave `listening_addr` back if it had it
  have listen : ∀ {c : Nat} {x y : Call}, s.calls[c]? = some x →
      Held Call.inside (s.calls.set c y) (s.releaseListen x) := by
    intro c x y hx
    unfold State.releaseListen
    split
    · exact held_none
    next hk => exact h.listen.set hx fun hi => absurd (Call.inside_eq.mp hi).1 hk
  cases hs with
  | toggle | enable => exact h.spawn _
  | lockListening hx hk hpc =>
    refine ⟨h.tasks.set hx fun ht => ?_, held_acquire hx ?_⟩
    · simp [hpc, CallPc.lockingTasks] at ht
    · simp [Call.inside, hk]
  | toggleOff hx hpc | toggleGone hx hpc | toggleFail hx hpc | publishAddr hx hpc =>
    exact ⟨h.tasks.set hx fun ht => by simp [hpc, CallPc.lockingTasks] at ht, held_none⟩
  | bind hx ha hpc => exact h.goto hx (by simp [hpc, CallPc.lockingTasks]) (by simp [hpc, Call.inside])
  | installTwice hx hk hpc | install hx hk hpc =>
    exact h.goto hx (by simp [hpc, CallPc.lockingTasks]) (by simp [Call.inside, hk])
  | publishTwice hx hpc hk | publish hx hpc hk =>
    exact h.goto hx (by simp [hpc, CallPc.lockingTasks]) (by simp [Call.inside, hk])
  | lockTasks hx hpc => exact ⟨held_acquire hx rfl, h.listen.set hx (by simp [hpc, Call.inside])⟩
  | checkRefused hx hpc => exact ⟨held_none, listen hx⟩
  | cancelSpawned hx hpc => exact ⟨h.tasks.set hx fun ht => by simp [hpc, CallPc.lockingTasks] at ht, listen hx⟩
  | checkAdmitted hx hpc => exact h.goto hx (fun _ => rfl) (by simp [hpc, Call.inside])
  | registerTask hx hpc => exact ⟨held_none, h.listen.set hx (by simp [hpc, Call.inside])⟩
  | cancelCalled hx hpc => exact h.goto hx (by simp [hpc, CallPc.lockingTasks]) (by simp [hpc, Call.inside])
  | base | finishTask | shutDown | begin | takeTasks | snapshot | fannedOut | enableDrain | enableSched | drainEmpty
  | drainPark | schedEmpty | schedPark | wakeDrain | wakeSched | signalHandlers | joined | expire | abortRest | clear
  | cancelShut => exact h

theorem callLocksOK_reachable (h : (shutdown cfg).Reachable s) : CallLocksOK s :=
  h.invariant ⟨held_none, held_none⟩ fun _ hA _ hs => (step_sound hs).callLocksOK hA

theorem StepR.published_mono (hs : StepR cfg s a s') {kind : NodeTask} (h : kind ∈ s.published) :
    kind ∈ s'.published := by
  cases hs with
  | publish => exact Finset.mem_insert_of_mem h
  | _ => exact h

/-- The fan-outs are apart, among the disconnects there are; and the
wind-down counts through the call's tasks. -/
structure Fans (discs : Nat) (shuts : List Shut) : Prop where
  hi : ∀ u ∈ shuts, u.hi ≤ discs
  apart : ∀ (n m : Nat) u v j, shuts[n]? = some u → shuts[m]? = some v → u.has j = true → v.has j = true → n = m
  winding : ∀ u ∈ shuts, ∀ i, u.pc = .winding i → i ≤ u.tasks.length

namespace Fans

variable {k l : Nat} {U : List Shut} {n : Nat} {u v : Shut}

theorem mono (h : Fans k U) (hk : k ≤ l) : Fans l U := { h with hi := fun u hu => (h.hi u hu).trans hk }

/-- A call moves on with its fan-out. -/
theorem goto (h : Fans k U) (hu : U[n]? = some u) (hlo : v.lo = u.lo) (hhi : v.hi = u.hi)
    (hw : ∀ i, v.pc = .winding i → i ≤ v.tasks.length) : Fans k (U.set n v) where
  hi := forall_mem_set h.hi (hhi ▸ h.hi u (List.mem_of_getElem? hu))
  apart := by
    have hhas : ∀ j, v.has j = u.has j := fun j => by simp only [Shut.has, hlo, hhi]
    intro a b x y j ha hb hx hy
    rcases getElem?_set_cases hu ha with ⟨rfl, rfl⟩ | ⟨-, ha'⟩ <;>
      rcases getElem?_set_cases hu hb with ⟨rfl, rfl⟩ | ⟨-, hb'⟩
    · rfl
    · exact h.apart _ _ _ _ j hu hb' (hhas j ▸ hx) hy
    · exact h.apart _ _ _ _ j ha' hu hx (hhas j ▸ hy)
    · exact h.apart _ _ _ _ j ha' hb' hx hy
  winding := forall_mem_set h.winding hw

/-- A new fan-out comes after all others. -/
theorem fan (h : Fans k U) (hu : U[n]? = some u) (hlo : v.lo = k) (hhi : v.hi = l) (hk : k ≤ l)
    (hw : ∀ i, v.pc ≠ .winding i) : Fans l (U.set n v) where
  hi := forall_mem_set (fun u hu => (h.hi u hu).trans hk) hhi.le
  apart := by
    have new : ∀ {x : Shut} {j : Nat}, x ∈ U → x.has j = true → v.has j = true → False := by
      intro x j hx hxj hvj
      have := h.hi x hx
      simp only [Shut.has, Bool.and_eq_true, decide_eq_true_eq, hlo] at hxj hvj
      omega
    intro a b x y j ha hb hx hy
    rcases getElem?_set_cases hu ha with ⟨rfl, rfl⟩ | ⟨-, ha'⟩ <;>
      rcases getElem?_set_cases hu hb with ⟨rfl, rfl⟩ | ⟨-, hb'⟩
    · rfl
    · exact (new (List.mem_of_getElem? hb') hy hx).elim
    · exact (new (List.mem_of_getElem? ha') hx hy).elim
    · exact h.apart _ _ _ _ j ha' hb' hx hy
  winding := forall_mem_set h.winding fun i hi => absurd hi (hw i)

theorem spawn (h : Fans k U) (hv : ∀ j, v.has j = false) (hhi : v.hi = 0) (hw : ∀ i, v.pc ≠ .winding i) :
    Fans k (U ++ [v]) where
  hi := forall_mem_append h.hi (by omega)
  apart := by
    intro a b x y j ha hb hx hy
    rcases getElem?_append_cases ha with ⟨-, rfl⟩ | ha'
    · rw [hv] at hx; cases hx
    · rcases getElem?_append_cases hb with ⟨-, rfl⟩ | hb'
      · rw [hv] at hy; cases hy
      · exact h.apart _ _ _ _ j ha' hb' hx hy
  winding := forall_mem_append h.winding fun i hi => absurd hi (hw i)

theorem announce (h : Fans k U) (a : Pea2Pea.Act) : Fans k (U.map (·.announce a)) where
  hi := by
    simp only [List.forall_mem_map, Shut.announce_fan]
    exact h.hi
  apart n m u v j hu hv := by
    rw [List.getElem?_map] at hu hv
    obtain ⟨x, hx, rfl⟩ := Option.map_eq_some_iff.mp hu
    obtain ⟨y, hy, rfl⟩ := Option.map_eq_some_iff.mp hv
    simp only [Shut.announce_has]
    exact h.apart n m x y j hx hy
  winding := by
    simp only [List.forall_mem_map, Shut.announce_fan]
    intro u hu i hpc
    exact h.winding u hu i ((Shut.announce_eq (by simp) (by simp)).mp hpc)

end Fans

abbrev FansOK (s : State) : Prop := Fans s.base.discs.length s.shuts

theorem StepR.fansOK (h : FansOK s) (hs : StepR cfg s a s') : FansOK s' := by
  cases hs with
  | base hb => exact (h.mono (Pea2Pea.step_sound hb).discs_le).announce _
  | shutDown => exact h.spawn (by simp [Shut.has]) rfl (by simp)
  | snapshot hu => exact h.fan hu rfl (by simp) (by simp) (by simp)
  | publish => exact h.mono (by dsimp only; split <;> rfl)
  | joined hu hpc hh =>
    refine h.goto hu rfl rfl ?_
    rintro i ⟨⟩
    exact (List.getElem?_eq_some_iff.mp hh).1
  | expire hu hpc hlt =>
    refine h.goto hu rfl rfl ?_
    rintro i ⟨⟩
    exact hlt
  | signalHandlers hu => exact h.goto hu rfl rfl (by simp)
  | begin hu | takeTasks hu | fannedOut hu | enableDrain hu | enableSched hu | drainEmpty hu | drainPark hu
  | schedEmpty hu | schedPark hu | wakeDrain hu | wakeSched hu | abortRest hu | clear hu | cancelShut hu =>
    exact h.goto hu rfl rfl (by simp)
  | _ => exact h

theorem fansOK_reachable (h : (shutdown cfg).Reachable s) : FansOK s := by
  refine h.invariant ?_ fun _ hA _ hs => (step_sound hs).fansOK hA
  constructor <;> simp [shutdown, State.init]

/-! ## At rest -/

/-- Nothing is under way: whatever was called has returned or was given up. -/
structure Settled (s : State) : Prop where
  setups : ∀ t ∈ s.base.setups, ∃ entered, t.pc = .done entered
  scheds : ∀ u ∈ s.base.scheds, u.pc = .done
  discs : ∀ d ∈ s.base.discs, ∃ id got, d.pc = .done id got
  calls : ∀ x ∈ s.calls, x.pc = .done
  shuts : ∀ u ∈ s.shuts, u.pc = .returned ∨ u.pc = .cancelled

/-- The steps that depend on what is left out here: a scheduling task and a
claimed disconnect may wait for their hooks, a node task ends by itself, a
connection may have no tasks yet, and a loop may have subscribed. -/
def Act.gated : Act → Bool
  | .base (.schedDone _) | .base (.finalize _) | .finishTask _ => true
  | .base (.insert _ tasks) => !tasks.isEmpty
  | .signalHandlers _ stored => !stored
  | _ => false

/-- Where such a step is waited for. -/
inductive Waits (s : State) : Prop
  | sched (k : Nat) (u : Sched) (hu : s.base.scheds[k]? = some u) (hpc : u.pc = .running)
  | disc (j : Nat) (d : Disc) (id : Nat) (hd : s.base.discs[j]? = some d) (hpc : d.pc = .claimed id)

section

variable (hw : ∀ a, pace s a = .work → a.gated = false → step cfg s a = none)
include hw

theorem base_rest {a : Pea2Pea.Act} (hp : pace s (.base a) = .work) (hg : (Act.base a).gated = false)
    (hf : s.free a = true) : Pea2Pea.step cfg s.base a = none := by
  have := hw (.base a) hp hg
  simp only [step, hf, if_true, Option.bind_eq_bind] at this
  cases hb : Pea2Pea.step cfg s.base a with
  | none => rfl
  | some b => rw [hb] at this; cases this

theorem setupSteps_rest (i : Nat) : ∀ a ∈ setupSteps i, Pea2Pea.step cfg s.base a = none := by
  intro a ha
  simp only [setupSteps, List.mem_cons, List.not_mem_nil, or_false] at ha
  rcases ha with rfl | rfl | rfl | rfl | rfl | rfl | rfl | rfl | rfl | rfl | rfl | rfl | rfl | rfl <;>
    exact base_rest hw rfl rfl rfl

/-- A disconnect that has claimed nothing yet can go on, or was orphaned. -/
theorem called_rest (hF : FansOK s) (hl : s.base.addLock = none) {j : Nat} {d : Disc} (hd : s.base.discs[j]? = some d)
    (hpc : d.pc = .called) : False := by
  by_cases ho : s.orphaned j = true
  · obtain ⟨u, hu, hc⟩ := List.any_eq_true.mp ho
    simp only [Bool.and_eq_true, beq_iff_eq] at hc
    obtain ⟨n, hn⟩ := List.getElem?_of_mem hu
    have hfree : s.free (.cancel j) = true := by
      simp only [State.free, List.all_eq_true, decide_eq_true_eq]
      intro v hv hj
      obtain ⟨m, hm⟩ := List.getElem?_of_mem hv
      cases hF.apart n m u v j hn hm hc.1 hj
      rw [hn] at hm; cases hm
      exact hc.2
    have := base_rest hw (a := .cancel j) (by simp [pace, ho]) rfl hfree
    simp [Pea2Pea.step, hd, hpc] at this
  · have hfree : s.free (.claim j) = true := by
      simp only [State.free, List.all_eq_true, decide_eq_true_eq]
      intro v hv hj hc
      exact ho (List.any_eq_true.mpr ⟨v, hv, by simp [hj, hc]⟩)
    have := base_rest hw (a := .claim j) rfl rfl hfree
    simp only [Pea2Pea.step, hd, hpc, hl, Option.bind_eq_bind, Option.bind_some, if_true] at this
    split at this <;> cases this

theorem tasksLock_rest (hC : CallLocksOK s) : s.tasksLock = none := by
  cases hl : s.tasksLock with
  | none => rfl
  | some c =>
    obtain ⟨x, hx, hp⟩ := hC.tasks c hl
    cases hpc : x.pc with
    | locked h =>
      have := hw (.checkFlag c) rfl rfl
      simp only [step, hx, hpc, Option.bind_eq_bind, Option.bind_some] at this
      split at this <;> cases this
    | admitted h =>
      have := hw (.registerTask c) rfl rfl
      simp [step, hx, hpc] at this
    | _ => simp [hpc, CallPc.lockingTasks] at hp

/-- A call past its first step can go on. -/
theorem call_rest (hT : s.tasksLock = none) {c : Nat} {x : Call} (hx : s.calls[c]? = some x) :
    x.pc = .called ∨ x.pc = .done := by
  cases hpc : x.pc with
  | called => exact .inl rfl
  | done => exact .inr rfl
  | holding =>
    cases hn : s.listening with
    | none =>
      have := hw (.toggleFail c) rfl rfl
      simp [step, hx, hpc, hn] at this
    | some addr =>
      have := hw (.toggleOff c) rfl rfl
      simp only [step, hx, hpc, hn, hT, Option.bind_eq_bind, Option.bind_some] at this
      split at this
      · split at this <;> cases this
      next hf => simp at hf
  | spawned h =>
    have := hw (.lockTasks c) rfl rfl
    simp [step, hx, hpc, hT] at this
  | locked h =>
    have := hw (.checkFlag c) rfl rfl
    simp only [step, hx, hpc, Option.bind_eq_bind, Option.bind_some] at this
    split at this <;> cases this
  | admitted h =>
    have := hw (.registerTask c) rfl rfl
    simp [step, hx, hpc] at this
  | registered h =>
    have := hw (.publish c) rfl rfl
    simp only [step, hx, hpc, Option.bind_eq_bind, Option.bind_some] at this
    split at this
    · cases this
    · split at this <;> cases this

theorem listenLock_rest (hC : CallLocksOK s) (hT : s.tasksLock = none) : s.listenLock = none := by
  cases hl : s.listenLock with
  | none => rfl
  | some c =>
    obtain ⟨x, hx, hi⟩ := hC.listen c hl
    obtain ⟨-, hcalled, hdone⟩ := Call.inside_eq.mp hi
    rcases call_rest hw hT hx with hpc | hpc
    · exact absurd hpc hcalled
    · exact absurd hpc hdone

theorem calls_rest (hC : CallLocksOK s) {x : Call} (hm : x ∈ s.calls) : x.pc = .done := by
  obtain ⟨c, hx⟩ := List.getElem?_of_mem hm
  have hT := tasksLock_rest hw hC
  have hL := listenLock_rest hw hC hT
  refine (call_rest hw hT hx).resolve_left fun hpc => ?_
  by_cases hk : x.kind = .listener
  · have := hw (.lockListening c) rfl rfl
    simp [step, hx, hpc, hk, hL] at this
  · have := hw (.install c) rfl rfl
    simp only [step, hx, hpc, Option.bind_eq_bind, Option.bind_some] at this
    split at this
    · split at this <;> cases this
    next hf => simp [hk] at hf

/-- A drain's waiter that nobody will wake is not parked: what it waits for
has come about. -/
theorem waiter_rest {n : Nat} {u : Shut} (hu : s.shuts[n]? = some u) (hl : s.base.addLock = none) {w : Waiter}
    (hpc : u.pc = .draining w ∨ u.pc = .schedDraining w) : w = .parked false := by
  cases w with
  | entering =>
    have := hw (.enableWaiter n) rfl rfl
    rcases hpc with hpc | hpc <;> simp [step, hu, hpc] at this
  | registered woken =>
    have := hw (.check n) rfl rfl
    rcases hpc with hpc | hpc <;> simp [step, hu, hpc, hl] at this
  | parked woken =>
    cases woken with
    | false => rfl
    | true =>
      have := hw (.wakeUp n) rfl rfl
      rcases hpc with hpc | hpc <;> simp [step, hu, hpc] at this

/-- A `shut_down` can go on: what it awaits in its wind-down is at most the
drain deadline. -/
theorem shut_rest (hS : ShutsOK s) (hL : LedgerOK s.base) (hG : SchedOK s.base) (hF : FansOK s)
    (hl : s.base.addLock = none) (hT : s.tasksLock = none) (hLi : s.listenLock = none)
    (hsetups : ∀ t ∈ s.base.setups, ∃ entered, t.pc = .done entered) (hscheds : ∀ u ∈ s.base.scheds, u.pc = .done)
    (hdiscs : ∀ d ∈ s.base.discs, ∃ id got, d.pc = .done id got) {n : Nat} {u : Shut} (hu : s.shuts[n]? = some u) :
    u.pc = .returned ∨ u.pc = .cancelled := by
  have hm := List.mem_of_getElem? hu
  have hP := hS.progress u hm
  cases hpc : u.pc with
  | returned => exact .inl rfl
  | cancelled => exact .inr rfl
  | called =>
    have := hw (.begin n) rfl rfl
    simp [step, hu, hpc] at this
  | begun =>
    have := hw (.takeTasks n) rfl rfl
    simp [step, hu, hpc, hT] at this
  | taken =>
    have := hw (.snapshot n s.base.active.keys.toList) rfl rfl
    simp [step, hu, hpc, hl, Finset.nodup_toList] at this
  | fanout =>
    have hdone : s.fanDone u = true := by
      refine List.all_eq_true.mpr fun d hd => ?_
      obtain ⟨id, got, hpc'⟩ := hdiscs d (List.mem_of_mem_take (List.mem_of_mem_drop hd))
      rw [hpc']
      rfl
    have := hw (.fannedOut n) rfl rfl
    simp [step, hu, hpc, hdone] at this
  | draining w =>
    cases waiter_rest hw hu hl (.inl hpc)
    rcases hP.drain _ hpc with hwoken | hne | ⟨d, hd, id, got, hrem⟩
    · cases hwoken
    · -- an entry is left, and its finalizer has ended
      obtain ⟨addr, haddr⟩ := Finset.nonempty_iff_ne_empty.mpr hne
      obtain ⟨c, hc⟩ := Table.mem_keys_iff.mp haddr
      obtain ⟨d, hd, hfin⟩ := hL.owner addr c hc (hP.claimed _ hpc addr c hc)
      obtain ⟨id, got, hpc'⟩ := hdiscs d hd
      simp [Disc.finAddr, hpc', DiscPc.finId] at hfin
    · obtain ⟨id', got', hpc'⟩ := hdiscs d hd
      rw [hrem] at hpc'; cases hpc'
  | schedDraining w =>
    cases waiter_rest hw hu hl (.inr hpc)
    rcases hP.sched _ hpc with hwoken | hne | ⟨t, ht, hn⟩ | ⟨k, hk, hn⟩
    · cases hwoken
    · exact absurd (hG.trans (liveSchedGuards_rest hsetups hscheds)) hne
    · obtain ⟨entered, hpc'⟩ := hsetups t ht
      rw [hn] at hpc'; cases hpc'
    · rw [hscheds k hk] at hn; cases hn
  | drained =>
    have := hw (.signalHandlers n true) rfl rfl
    simp [step, hu, hpc] at this
  | winding i =>
    rcases Nat.lt_or_eq_of_le (hF.winding u hm i hpc) with hlt | rfl
    · have := hw (.expire n) rfl rfl
      simp [step, hu, hpc, hlt] at this
    · have := hw (.abortRest n) rfl rfl
      simp [step, hu, hpc] at this
  | clearing =>
    have := hw (.clear n) rfl rfl
    simp [step, hu, hpc, hLi] at this

/-- Where nothing is left to do that depends on no hook, the node has settled,
or waits for one. -/
theorem settled_or_waits (h : (shutdown cfg).Reachable s) : Settled s ∨ Waits s := by
  have hb := (projects cfg).reachable h
  have hA := afootOK_reachable hb
  have hC := callLocksOK_reachable h
  have hF := fansOK_reachable h
  have hl := addLock_rest hA (setupSteps_rest hw)
  refine or_iff_not_imp_right.mpr fun hn => ?_
  have hscheds : ∀ u ∈ s.base.scheds, u.pc = .done := by
    intro u hm
    obtain ⟨k, hu⟩ := List.getElem?_of_mem hm
    exact (sched_rest hu (base_rest hw rfl rfl rfl)).resolve_left fun hpc => hn (.sched k u hu hpc)
  have hsetups : ∀ t ∈ s.base.setups, ∃ entered, t.pc = .done entered := by
    intro t hm
    obtain ⟨i, ht⟩ := List.getElem?_of_mem hm
    refine (setup_rest hA ht (.inl hl) (setupSteps_rest hw i)).resolve_right ?_
    rintro ⟨id, k, u, -, hu, hpc⟩
    exact hn (.sched k u hu hpc)
  have hdiscs : ∀ d ∈ s.base.discs, ∃ id got, d.pc = .done id got := by
    intro d hm
    obtain ⟨j, hd⟩ := List.getElem?_of_mem hm
    rcases disc_rest hl hd (base_rest hw rfl rfl rfl) (base_rest hw rfl rfl rfl) with hpc | ⟨id, hpc⟩ | hpc
    · exact (called_rest hw hF hl hd hpc).elim
    · exact (hn (.disc j d id hd hpc)).elim
    · exact hpc
  refine ⟨hsetups, hscheds, hdiscs, fun x hx => calls_rest hw hC hx, fun u hm => ?_⟩
  obtain ⟨n, hu⟩ := List.getElem?_of_mem hm
  have hT := tasksLock_rest hw hC
  exact shut_rest hw (shutsOK_reachable h) (ledgerOK_reachable hb) (schedOK_reachable hb) hF hl hT
    (listenLock_rest hw hC hT) hsetups hscheds hdiscs hu

end

end Pea2Pea.Shutdown
