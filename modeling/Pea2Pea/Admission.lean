/-
`Connections::add` against the shutdown flag, and the scheduling counter.

A setup in `add` has `active` locked, and one that got past the flag check
there found the flag down when it locked. Once the flag is up and nobody is
past that check, the node is sealed: nothing enters `active` any more.
`sched_in_flight` is the number of live `SchedulingGuard`s.
-/
import Pea2Pea.LifecycleFacts
import Pea2Pea.Lib.Pool

namespace Pea2Pea

open Pool

/-! ## The lock -/

/-- The setup is inside `add` with `active` locked. -/
def SetupPc.locking : SetupPc → Bool
  | .adding _ _ _ | .admitted _ _ _ => true
  | _ => false

/-- The setup is past the flag check in `add`. -/
def SetupPc.isAdmitted : SetupPc → Bool
  | .admitted _ _ _ => true
  | _ => false

/-- `add` against the flag, over the parts of the state it is about. -/
structure Admission (flag : Bool) (addLock : Option Nat) (setups : List Setup) : Prop where
  lock : Holds (·.pc.locking) setups addLock
  adding : ∀ t ∈ setups, ∀ id sched, t.pc = .adding id sched true → flag = true
  admitted : ∀ t ∈ setups, ∀ id sched begun, t.pc = .admitted id sched begun → begun = false

/-- Shut down for good: the flag is up, and no setup is past its check. -/
structure Sealed (s : State) : Prop where
  flag : s.flag = true
  none_admitted : ∀ t ∈ s.setups, t.pc.isAdmitted = false

namespace Admission

variable {F : Bool} {L : Option Nat} {S : List Setup} {i : Nat} {t : Setup} {p : SetupPc}

/-- A setup moves on outside the lock. -/
theorem goto (h : Admission F L S) (ht : S[i]? = some t) (hp : p.locking = false) :
    Admission F L (S.set i { t with pc := p }) where
  lock := h.lock.set ht fun hl => by rw [hp] at hl; cases hl
  adding := forall_mem_set h.adding fun id sched hpc => by subst hpc; cases hp
  admitted := forall_mem_set h.admitted fun id sched begun hpc => by subst hpc; cases hp

/-- The setup in `add` unlocks `active`. -/
theorem release (h : Admission F L S) (ht : S[i]? = some t) (hl : t.pc.locking = true) (hp : p.locking = false) :
    Admission F none (S.set i { t with pc := p }) :=
  { h.goto ht hp with lock := h.lock.release ht hl hp }

theorem acquire {id : Nat} {sched : Bool} (h : Admission F none S) (ht : S[i]? = some t) :
    Admission F (some i) (S.set i { t with pc := .adding id sched F }) where
  lock := h.lock.acquire ht
  adding := forall_mem_set h.adding fun id' sched' hpc => by cases hpc; rfl
  admitted := forall_mem_set h.admitted fun id' sched' begun hpc => by cases hpc

theorem passCheck {id : Nat} {sched begun : Bool} (h : Admission F L S) (ht : S[i]? = some t)
    (hpc : t.pc = .adding id sched begun) (hf : F = false) :
    Admission F L (S.set i { t with pc := .admitted id sched begun }) where
  lock := h.lock.set ht fun _ => by rw [hpc]; rfl
  adding := forall_mem_set h.adding fun id' sched' hpc => by cases hpc
  admitted := forall_mem_set h.admitted fun id' sched' begun' heq => by
    cases heq
    cases begun with
    | false => rfl
    | true =>
      -- the flag was up at the lock, and it does not come down
      have := h.adding t (List.mem_of_getElem? ht) id sched hpc
      rw [hf] at this; cases this

theorem spawn (h : Admission F L S) (hp : t.pc.locking = false) : Admission F L (S ++ [t]) where
  lock := h.lock.append hp
  adding := forall_mem_append h.adding fun id sched hpc => by rw [hpc] at hp; cases hp
  admitted := forall_mem_append h.admitted fun id sched begun hpc => by rw [hpc] at hp; cases hp

end Admission

abbrev AdmissionOK (s : State) : Prop := Admission s.flag s.addLock s.setups

/-- With `active` unlocked, nobody is past the check. -/
theorem AdmissionOK.sealed {s : State} (h : AdmissionOK s) (hl : s.addLock = none) (hf : s.flag = true) : Sealed s := by
  refine ⟨hf, fun t ht => ?_⟩
  rw [AdmissionOK, hl] at h
  have hlock := h.lock.outside ht
  cases hpc : t.pc <;> simp_all [SetupPc.locking, SetupPc.isAdmitted]

theorem StepR.admissionOK {cfg : NodeConfig} {s s' : State} {a : Act} (h : AdmissionOK s) (hs : StepR cfg s a s') :
    AdmissionOK s' := by
  cases hs with
  | connect => exact h.spawn rfl
  | accept => exact h.spawn rfl
  | startCalled ht => exact h.goto ht (by cases s.flag <;> rfl)
  | startAccepted ht => exact h.goto ht (by cases s.flag <;> rfl)
  | checkConnected ht => exact h.goto ht (by split <;> rfl)
  | dropRefused ht => exact h.goto ht (by split <;> rfl)
  | dropSched ht => exact h.goto ht (by split <;> rfl)
  | lockActive ht hpc hl =>
    rw [AdmissionOK, hl] at h
    exact h.acquire ht
  | checkRefused ht hpc hf => exact h.release ht (by rw [hpc]; rfl) rfl
  | checkAdmitted ht hpc hf => exact h.passCheck ht hpc hf
  | insert ht hpc => exact h.release ht (by rw [hpc]; rfl) rfl
  | reject ht | acquire ht | noBudget ht | reserveOk ht | reserveErr ht | adapt ht | failDialing ht
  | failProtocols ht | wired ht | dropUnwinding ht | dropInserted ht | notifySched ht | scheduleSome ht
  | scheduleNone ht | finish ht | finishAwaiting ht => exact h.goto ht rfl
  | beginShutdown => exact { h with adding := fun _ _ _ _ _ => rfl }
  | attach | schedDone | schedNotify | disconnect | recover | noRecovery | claim | claimNone | cancel | register
  | finalize | remove | removeNone | notifyDrain | enableOnConnect | takeId => exact h

theorem admissionOK_reachable {cfg : NodeConfig} {s : State} (h : (lifecycle cfg).Reachable s) : AdmissionOK s := by
  refine h.invariant ?_ fun _ ha _ hs => (step_sound hs).admissionOK ha
  exact ⟨holds_nil, by simp [lifecycle, State.init], by simp [lifecycle, State.init]⟩

/-! ## A sealed node -/

theorem Sealed.goto {s : State} (h : Sealed s) {i : Nat} {t : Setup} {p : SetupPc} (hp : p.isAdmitted = false) :
    ∀ z ∈ s.setups.set i { t with pc := p }, z.pc.isAdmitted = false :=
  forall_mem_set h.none_admitted hp

theorem StepR.flag_mono {cfg : NodeConfig} {s s' : State} {a : Act} (hs : StepR cfg s a s') (h : s.flag = true) :
    s'.flag = true := by
  cases hs <;> first | exact h | rfl

/-- Nothing else raises the flag. -/
theorem StepR.flag_eq {cfg : NodeConfig} {s s' : State} {a : Act} (hs : StepR cfg s a s') (ha : a ≠ .beginShutdown) :
    s'.flag = s.flag := by
  cases hs
  case beginShutdown => exact absurd rfl ha
  all_goals rfl

theorem StepR.sealed {cfg : NodeConfig} {s s' : State} {a : Act} (h : Sealed s) (hs : StepR cfg s a s') :
    Sealed s' := by
  cases hs with
  | connect => exact ⟨h.flag, forall_mem_append h.none_admitted rfl⟩
  | accept => exact ⟨h.flag, forall_mem_append h.none_admitted rfl⟩
  | startCalled => exact ⟨h.flag, h.goto (by cases s.flag <;> rfl)⟩
  | startAccepted => exact ⟨h.flag, h.goto (by cases s.flag <;> rfl)⟩
  | checkConnected => exact ⟨h.flag, h.goto (by split <;> rfl)⟩
  | dropRefused => exact ⟨h.flag, h.goto (by split <;> rfl)⟩
  | dropSched => exact ⟨h.flag, h.goto (by split <;> rfl)⟩
  | checkAdmitted ht hpc hf => have := h.flag; rw [hf] at this; cases this
  | reject | acquire | noBudget | reserveOk | reserveErr | adapt | failDialing | failProtocols | wired | lockActive
  | checkRefused | insert | dropUnwinding | dropInserted | notifySched | scheduleSome | scheduleNone | finish
  | finishAwaiting => exact ⟨h.flag, h.goto rfl⟩
  | beginShutdown => exact ⟨rfl, h.none_admitted⟩
  | attach | schedDone | schedNotify | disconnect | recover | noRecovery | claim | claimNone | cancel | register
  | finalize | remove | removeNone | notifyDrain | enableOnConnect | takeId => exact ⟨h.flag, h.none_admitted⟩

/-- No entry of a sealed node's `active` is new, or loses its claim. -/
theorem StepR.sealed_active {cfg : NodeConfig} {s s' : State} {a : Act} (h : Sealed s) (hs : StepR cfg s a s')
    {addr : SocketAddr} {c' : Connection} (hc : s'.active.lookup addr = some c') :
    ∃ c, s.active.lookup addr = some c ∧ (c.disconnecting = true → c'.disconnecting = true) := by
  rcases hs.entry_origin hc with ⟨i, rfl⟩ | ⟨c, hc, -, hdis, -⟩
  · cases hs with
    | insert ht hpc =>
      have := h.none_admitted _ (List.mem_of_getElem? ht)
      rw [hpc] at this; cases this
  · exact ⟨c, hc, hdis⟩

theorem StepR.sealed_empty {cfg : NodeConfig} {s s' : State} {a : Act} (h : Sealed s) (hs : StepR cfg s a s')
    (he : s.active.keys = ∅) : s'.active.keys = ∅ := by
  refine Table.keys_eq_empty_iff.mpr fun addr => ?_
  cases hc' : s'.active.lookup addr with
  | none => rfl
  | some c' =>
    obtain ⟨c, hc, -⟩ := hs.sealed_active h hc'
    rw [Table.keys_eq_empty_iff.mp he addr] at hc; cases hc

/-! ## The scheduling counter -/

/-- A setup there has a `SchedulingGuard`. -/
def SetupPc.hasSched : SetupPc → Bool
  | .ready _ sched | .adding _ sched _ | .admitted _ sched _ | .refused _ sched | .inserted _ sched
  | .established _ sched => sched
  | .abandoning => true
  | _ => false

/-- A scheduling task there has its `SchedulingGuard`. -/
def SchedPc.hasGuard : SchedPc → Bool
  | .running => true
  | _ => false

/-- The number of live `SchedulingGuard`s. -/
def liveSchedGuards (setups : List Setup) (scheds : List Sched) : Nat :=
  setups.countP (·.pc.hasSched) + scheds.countP (·.pc.hasGuard)

section

variable {S : List Setup} {K : List Sched} {i k : Nat} {t : Setup} {u : Sched} {p q : SetupPc}

/-- A move changes the count by the mover's own guard. -/
theorem liveSchedGuards_goto (ht : S[i]? = some t) (p : SetupPc) :
    liveSchedGuards (S.set i { t with pc := p }) K + (if t.pc.hasSched then 1 else 0) =
      liveSchedGuards S K + if p.hasSched then 1 else 0 := by
  have hcount := countP_set (p := (·.pc.hasSched)) (y := { t with pc := p }) ht
  dsimp only at hcount
  unfold liveSchedGuards
  omega

theorem liveSchedGuards_schedGoto (hu : K[k]? = some u) (p : SchedPc) :
    liveSchedGuards S (K.set k { u with pc := p }) + (if u.pc.hasGuard then 1 else 0) =
      liveSchedGuards S K + if p.hasGuard then 1 else 0 := by
  have hcount := countP_set (p := (·.pc.hasGuard)) (y := { u with pc := p }) hu
  dsimp only at hcount
  unfold liveSchedGuards
  omega

theorem liveSchedGuards_same {n : Nat} (h : n = liveSchedGuards S K) (ht : S[i]? = some t) (hpc : t.pc = q)
    (hp : p.hasSched = q.hasSched) : n = liveSchedGuards (S.set i { t with pc := p }) K := by
  have hcount := liveSchedGuards_goto (K := K) ht p
  rw [hpc, hp] at hcount
  omega

theorem liveSchedGuards_spawn (hp : t.pc.hasSched = false) : liveSchedGuards (S ++ [t]) K = liveSchedGuards S K := by
  simp [liveSchedGuards, List.countP_append, hp]

theorem liveSchedGuards_schedule (hu : u.pc.hasGuard = true) :
    liveSchedGuards S (K ++ [u]) = liveSchedGuards S K + 1 := by
  simp only [liveSchedGuards, List.countP_append, List.countP_singleton, hu]
  rfl

end

/-- `sched_in_flight` counts the live guards. -/
def SchedOK (s : State) : Prop := s.schedInFlight = liveSchedGuards s.setups s.scheds

theorem StepR.schedOK {cfg : NodeConfig} {s s' : State} {a : Act} (h : SchedOK s) (hs : StepR cfg s a s') :
    SchedOK s' := by
  unfold SchedOK at h ⊢
  cases hs with
  | connect => exact h.trans (liveSchedGuards_spawn rfl).symm
  | accept => exact h.trans (liveSchedGuards_spawn rfl).symm
  | startCalled ht hpc => exact liveSchedGuards_same h ht hpc (by cases s.flag <;> rfl)
  | startAccepted ht hpc => exact liveSchedGuards_same h ht hpc (by cases s.flag <;> rfl)
  | checkConnected ht hpc => exact liveSchedGuards_same h ht hpc (by split <;> rfl)
  | reject ht hpc => rcases hpc with hpc | hpc <;> exact liveSchedGuards_same h ht hpc rfl
  | @wired i t id ht hpc =>
    have hcount := liveSchedGuards_goto (K := s.scheds) ht (.ready id s.onConnect)
    rw [hpc] at hcount
    cases hon : s.onConnect with
    | false =>
      rw [hon] at hcount
      exact h.trans hcount.symm
    | true =>
      rw [hon] at hcount
      exact (congrArg (· + 1) h).trans hcount.symm
  | @dropRefused i t id sched ht hpc =>
    exact liveSchedGuards_same h ht hpc (by cases sched <;> rfl)
  | dropSched ht hpc =>
    have hcount := liveSchedGuards_goto (K := s.scheds) ht
      (if s.schedInFlight = 1 then .notifying else .finishing none)
    have hnew : (if s.schedInFlight = 1 then SetupPc.notifying else .finishing none).hasSched = false := by
      split <;> rfl
    rw [hpc, hnew, ← h] at hcount
    exact Nat.sub_eq_of_eq_add hcount.symm
  | @scheduleSome i t id ht hpc =>
    have hcount := liveSchedGuards_goto (K := s.scheds) ht (.awaiting id s.scheds.length)
    rw [hpc, ← h] at hcount
    exact hcount.symm.trans (liveSchedGuards_schedule rfl).symm
  | schedDone hu hpc =>
    have hcount := liveSchedGuards_schedGoto (S := s.setups) hu (if s.schedInFlight = 1 then .notifying else .done)
    have hnew : (if s.schedInFlight = 1 then SchedPc.notifying else .done).hasGuard = false := by split <;> rfl
    rw [hpc, hnew, ← h] at hcount
    exact Nat.sub_eq_of_eq_add hcount.symm
  | schedNotify hu hpc =>
    have hcount := liveSchedGuards_schedGoto (S := s.setups) hu .done
    rw [hpc, ← h] at hcount
    exact hcount.symm
  | acquire ht hpc | noBudget ht hpc | reserveOk ht hpc | reserveErr ht hpc | adapt ht hpc | failDialing ht hpc
  | failProtocols ht hpc | lockActive ht hpc | checkRefused ht hpc | checkAdmitted ht hpc | insert ht hpc
  | dropUnwinding ht hpc | dropInserted ht hpc | notifySched ht hpc | scheduleNone ht hpc | finish ht hpc
  | finishAwaiting ht hpc => exact liveSchedGuards_same h ht hpc rfl
  | attach | disconnect | recover | noRecovery | claim | claimNone | cancel | register | finalize | remove
  | removeNone | notifyDrain | beginShutdown | enableOnConnect | takeId => exact h

theorem schedOK_reachable {cfg : NodeConfig} {s : State} (h : (lifecycle cfg).Reachable s) : SchedOK s :=
  h.invariant rfl fun _ ho _ hs => (step_sound hs).schedOK ho

end Pea2Pea
