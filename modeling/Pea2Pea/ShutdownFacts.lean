/-
What a `shut_down` call has established at each of its phases, and what its
racing calls can no longer do.

`Progress` is about one call and the lifecycle: from the snapshot on the
node is sealed; once the fan-out is over every entry of `active` is claimed;
past the drains nothing is left. `RegistryOK` is about the task registry and
the listening address: who has their locks, and that a taken registry stays
empty.
-/
import Pea2Pea.Drain
import Pea2Pea.Ledger
import Pea2Pea.Shutdown

namespace Pea2Pea.Shutdown

open Pool

/-! ## One call against the lifecycle -/

/-- The call is past its snapshot. -/
def ShutPc.pastSnapshot : ShutPc → Bool
  | .fanout | .draining _ | .schedDraining _ | .drained | .winding _ | .clearing | .returned => true
  | _ => false

/-- The call found `active` empty. -/
def ShutPc.pastDrain : ShutPc → Bool
  | .schedDraining _ | .drained | .winding _ | .clearing | .returned => true
  | _ => false

/-- The call found the scheduling counter at zero. -/
def ShutPc.pastSched : ShutPc → Bool
  | .drained | .winding _ | .clearing | .returned => true
  | _ => false

/-- A disconnect of the call's fan-out is going to claim the entry at `addr`. -/
def Awaiting (b : Pea2Pea.State) (u : Shut) (addr : SocketAddr) : Prop :=
  ∃ (j : Nat) (d : Disc), u.has j = true ∧ b.discs[j]? = some d ∧ d.addr = addr ∧ d.connId = none ∧ d.pc = .called

structure Progress (b : Pea2Pea.State) (u : Shut) : Prop where
  sealed : u.pc.pastSnapshot = true → Sealed b
  fanout : u.pc = .fanout → ∀ addr c, b.active.lookup addr = some c → c.disconnecting = true ∨ Awaiting b u addr
  claimed : ∀ w, u.pc = .draining w → ∀ addr c, b.active.lookup addr = some c → c.disconnecting = true
  drain : ∀ w, u.pc = .draining w → w.Covered (b.active.keys = ∅) (RemovalDue b)
  empty : u.pc.pastDrain = true → b.active.keys = ∅
  sched : ∀ w, u.pc = .schedDraining w → w.Covered (b.schedInFlight = 0) (SchedNotifyDue b)
  unscheduled : u.pc.pastSched = true → Unscheduled b

/-- The call has established nothing yet, or nothing any more. -/
theorem Progress.early {b : Pea2Pea.State} {u : Shut} (hp : u.pc.pastSnapshot = false) : Progress b u := by
  constructor <;> intros <;> simp_all [ShutPc.pastSnapshot, ShutPc.pastDrain, ShutPc.pastSched]
  all_goals cases hpc : u.pc <;> simp_all

namespace Shut

variable {u : Shut} {a : Pea2Pea.Act} {w : Waiter}

/-- An announcement leaves the call where it is, its waiter aside. -/
theorem announce_cases (u : Shut) (a : Pea2Pea.Act) :
    u.announce a = u ∨
      (∃ w, u.pc = .draining w ∧ u.announce a = { u with pc := .draining w.notify }) ∨
      ∃ w, u.pc = .schedDraining w ∧ u.announce a = { u with pc := .schedDraining w.notify } := by
  have drain : u.notifyDrain = u ∨ ∃ w, u.pc = .draining w ∧ u.notifyDrain = { u with pc := .draining w.notify } := by
    unfold notifyDrain
    split
    next w hpc => exact .inr ⟨w, hpc, rfl⟩
    · exact .inl rfl
  have sched : u.notifySched = u ∨
      ∃ w, u.pc = .schedDraining w ∧ u.notifySched = { u with pc := .schedDraining w.notify } := by
    unfold notifySched
    split
    next w hpc => exact .inr ⟨w, hpc, rfl⟩
    · exact .inl rfl
  cases a with
  | notifyDrain => exact drain.imp_right .inl
  | notifySched => exact sched.imp_right .inr
  | schedNotify => exact sched.imp_right .inr
  | _ => exact .inl rfl

/-- What does not depend on a waiter survives an announcement. -/
theorem announce_pc (p : ShutPc → Bool) (hd : ∀ v w, p (.draining v) = p (.draining w))
    (hs : ∀ v w, p (.schedDraining v) = p (.schedDraining w)) : p (u.announce a).pc = p u.pc := by
  rcases announce_cases u a with h | ⟨w, hpc, h⟩ | ⟨w, hpc, h⟩
  · rw [h]
  · rw [h, hpc]; exact hd _ _
  · rw [h, hpc]; exact hs _ _

@[simp] theorem announce_pastSnapshot : (u.announce a).pc.pastSnapshot = u.pc.pastSnapshot :=
  announce_pc _ (fun _ _ => rfl) fun _ _ => rfl

@[simp] theorem announce_pastDrain : (u.announce a).pc.pastDrain = u.pc.pastDrain :=
  announce_pc _ (fun _ _ => rfl) fun _ _ => rfl

@[simp] theorem announce_pastSched : (u.announce a).pc.pastSched = u.pc.pastSched :=
  announce_pc _ (fun _ _ => rfl) fun _ _ => rfl

@[simp] theorem announce_has {j : Nat} : (u.announce a).has j = u.has j := by
  rcases announce_cases u a with h | ⟨w, hpc, h⟩ | ⟨w, hpc, h⟩ <;> rw [h] <;> rfl

/-- A call that is not in a drain stays where it is. -/
theorem announce_eq {p : ShutPc} (hd : ∀ w, p ≠ .draining w) (hs : ∀ w, p ≠ .schedDraining w) :
    (u.announce a).pc = p ↔ u.pc = p := by
  rcases announce_cases u a with h | ⟨w, hpc, h⟩ | ⟨w, hpc, h⟩
  · rw [h]
  · rw [h, hpc]; exact ⟨fun he => absurd he.symm (hd _), fun he => absurd he.symm (hd _)⟩
  · rw [h, hpc]; exact ⟨fun he => absurd he.symm (hs _), fun he => absurd he.symm (hs _)⟩

theorem announce_fanout : (u.announce a).pc = .fanout ↔ u.pc = .fanout :=
  announce_eq (by simp) (by simp)

/-- A drain's waiter is notified, or there was no notification. -/
theorem announce_draining (h : (u.announce a).pc = .draining w) :
    ∃ v, u.pc = .draining v ∧ (w = v.notify ∨ w = v ∧ ∀ j, a ≠ .notifyDrain j) := by
  cases hpc : u.pc with
  | draining v =>
    refine ⟨v, rfl, ?_⟩
    cases a <;> simp_all [announce, notifyDrain, notifySched]
  | _ =>
    rcases announce_cases u a with ha | ⟨v, hv, ha⟩ | ⟨v, hv, ha⟩ <;> simp_all

theorem announce_schedDraining (h : (u.announce a).pc = .schedDraining w) :
    ∃ v, u.pc = .schedDraining v ∧
      (w = v.notify ∨ w = v ∧ (∀ i, a ≠ .notifySched i) ∧ ∀ k, a ≠ .schedNotify k) := by
  cases hpc : u.pc with
  | schedDraining v =>
    refine ⟨v, rfl, ?_⟩
    cases a <;> simp_all [announce, notifyDrain, notifySched]
  | _ =>
    rcases announce_cases u a with ha | ⟨v, hv, ha⟩ | ⟨v, hv, ha⟩ <;> simp_all

end Shut

namespace Progress

variable {cfg : NodeConfig} {b b' : Pea2Pea.State} {a : Pea2Pea.Act} {u : Shut}

theorem awaiting_step (h : Progress b u) (hs : Pea2Pea.StepR cfg b a b') (hpc : u.pc = .fanout)
    (hfree : ∀ j, a = .cancel j → u.has j = true → u.pc = .cancelled) {addr : SocketAddr} {c' : Connection}
    (hc' : b'.active.lookup addr = some c') : c'.disconnecting = true ∨ Awaiting b' u addr := by
  have hS := h.sealed (by rw [hpc]; rfl)
  obtain ⟨c, hc, hkept⟩ := hs.sealed_active hS hc'
  rcases h.fanout hpc addr c hc with hclaimed | ⟨j, d, hj, hd, rfl, hany, hcalled⟩
  · exact .inl (hkept hclaimed)
  · rcases hs.called_kept hd hcalled with hd' | ha | ha
    · exact .inr ⟨j, d, hj, hd', rfl, hany, hcalled⟩
    · have := hfree j ha hj
      rw [hpc] at this; cases this
    · cases hdis : c.disconnecting with
      | true => exact .inl (hkept hdis)
      | false => exact .inl (hs.claim_claims hd hany ha hc hc' hdis)

/-- The call's progress is kept by every lifecycle step that leaves its
fan-out alone. -/
theorem base (h : Progress b u) (hs : Pea2Pea.StepR cfg b a b')
    (hfree : ∀ j, a = .cancel j → u.has j = true → u.pc = .cancelled) : Progress b' (u.announce a) where
  sealed hp := hs.sealed (h.sealed (by simpa using hp))
  fanout hpc addr c' hc' := by
    rcases h.awaiting_step hs (Shut.announce_fanout.mp hpc) hfree hc' with hclaimed | ⟨j, d, hj, hd⟩
    · exact .inl hclaimed
    · exact .inr ⟨j, d, by simpa using hj, hd⟩
  claimed w hw addr c' hc' := by
    obtain ⟨v, hv, -⟩ := Shut.announce_draining hw
    obtain ⟨c, hc, hkept⟩ := hs.sealed_active (h.sealed (by rw [hv]; rfl)) hc'
    exact hkept (h.claimed v hv addr c hc)
  drain w hw := by
    obtain ⟨v, hv, rfl | ⟨rfl, hn⟩⟩ := Shut.announce_draining hw
    · exact Waiter.covered_notify v
    · refine (h.drain _ hv).mono fun hcov => ?_
      rcases hcov with hne | hdue
      · exact hs.keys_nonempty hne
      · exact .inr (hs.removalDue hn hdue)
  empty hp := by
    simp only [Shut.announce_pastDrain] at hp
    have hS := h.sealed (by cases hpc : u.pc <;> simp_all [ShutPc.pastDrain, ShutPc.pastSnapshot])
    exact hs.sealed_empty hS (h.empty hp)
  sched w hw := by
    obtain ⟨v, hv, rfl | ⟨rfl, hn, hk⟩⟩ := Shut.announce_schedDraining hw
    · exact Waiter.covered_notify v
    · refine (h.sched _ hv).mono fun hcov => ?_
      rcases hcov with hne | hdue
      · exact hs.sched_pos hne
      · exact .inr (hs.schedNotifyDue hn hk hdue)
  unscheduled hp := by
    simp only [Shut.announce_pastSched] at hp
    have hS := h.sealed (by cases hpc : u.pc <;> simp_all [ShutPc.pastSched, ShutPc.pastSnapshot])
    exact hs.unscheduled hS (h.unscheduled hp)

/-- Another call's fan-out is nothing to this one. -/
theorem fan {ds : List Disc} (h : Progress b u) : Progress { b with discs := b.discs ++ ds } u where
  sealed hp := ⟨(h.sealed hp).flag, (h.sealed hp).none_admitted⟩
  fanout hpc addr c hc := by
    rcases h.fanout hpc addr c hc with hclaimed | ⟨j, d, hj, hd, hrest⟩
    · exact .inl hclaimed
    · exact .inr ⟨j, d, hj, getElem?_append_of_some hd _, hrest⟩
  claimed := h.claimed
  drain w hw := (h.drain w hw).mono fun hcov => hcov.imp_right fun ⟨d, hd, hpc⟩ =>
    ⟨d, List.mem_append_left _ hd, hpc⟩
  empty := h.empty
  sched := h.sched
  unscheduled hp := ⟨(h.unscheduled hp).setups, (h.unscheduled hp).scheds⟩

/-- With the snapshot taken, every entry has a disconnect of the fan-out. -/
theorem snapshot {addrs : List SocketAddr} (hS : Sealed b) (ha : addrs.toFinset = b.active.keys) :
    Progress { b with discs := b.discs ++ addrs.map (⟨·, .shutdown, none, .called⟩) }
      { u with lo := b.discs.length, hi := b.discs.length + addrs.length, pc := .fanout } where
  sealed _ := ⟨hS.flag, hS.none_admitted⟩
  fanout _ addr c hc := by
    have hmem : addr ∈ addrs := by rw [← List.mem_toFinset, ha]; exact Table.mem_keys hc
    obtain ⟨i, hi⟩ := List.getElem?_of_mem hmem
    have hlt : i < addrs.length := (List.getElem?_eq_some_iff.mp hi).1
    refine .inr ⟨b.discs.length + i, ⟨addr, .shutdown, none, .called⟩, ?_, ?_, rfl, rfl, rfl⟩
    · simp [Shut.has, hlt]
    · rw [List.getElem?_append_right (by omega)]
      simp [hi]
  claimed w hw := by cases hw
  drain w hw := by cases hw
  empty hp := by cases hp
  sched w hw := by cases hw
  unscheduled hp := by cases hp

/-- With the fan-out over, every entry is claimed. -/
theorem fannedOut (h : Progress b u) (hpc : u.pc = .fanout)
    (hd : ∀ (j : Nat) d, u.has j = true → b.discs[j]? = some d → DiscPc.isDone d.pc = true) :
    Progress b { u with pc := .draining .entering } where
  sealed _ := h.sealed (by rw [hpc]; rfl)
  fanout hp := by cases hp
  claimed w hw addr c hc := by
    rcases h.fanout hpc addr c hc with hclaimed | ⟨j, d, hj, hdj, -, -, hcalled⟩
    · exact hclaimed
    · have := hd j d hj hdj
      rw [hcalled] at this; cases this
  drain w hw := by cases hw; trivial
  empty hp := by cases hp
  sched w hw := by cases hw
  unscheduled hp := by cases hp

/-- The waiter for `active` moves on in its loop. -/
theorem drainGoto {v w : Waiter} (h : Progress b u) (hpc : u.pc = .draining v)
    (hw : w.Covered (b.active.keys = ∅) (RemovalDue b)) : Progress b { u with pc := .draining w } where
  sealed _ := h.sealed (by rw [hpc]; rfl)
  fanout hp := by cases hp
  claimed _ _ := h.claimed v hpc
  drain _ hv := by cases hv; exact hw
  empty hp := by cases hp
  sched _ hv := by cases hv
  unscheduled hp := by cases hp

/-- With `active` found empty, the scheduling counter is next. -/
theorem schedGoto {w : Waiter} (hS : Sealed b) (he : b.active.keys = ∅)
    (hw : w.Covered (b.schedInFlight = 0) (SchedNotifyDue b)) : Progress b { u with pc := .schedDraining w } where
  sealed _ := hS
  fanout hp := by cases hp
  claimed _ hv := by cases hv
  drain _ hv := by cases hv
  empty _ := he
  sched _ hv := by cases hv; exact hw
  unscheduled hp := by cases hp

/-- Past the drains. -/
theorem later {p : ShutPc} (hD : Drained b) (hp : p.pastSched = true) : Progress b { u with pc := p } where
  sealed _ := hD.sealed
  fanout hpc := by simp only at hpc; rw [hpc] at hp; cases hp
  claimed _ hv := by simp only at hv; rw [hv] at hp; cases hp
  drain _ hv := by simp only at hv; rw [hv] at hp; cases hp
  empty _ := hD.empty
  sched _ hv := by simp only at hv; rw [hv] at hp; cases hp
  unscheduled _ := hD.unscheduled

theorem drained (h : Progress b u) (hp : u.pc.pastSched = true) : Drained b := by
  have past : u.pc.pastSnapshot = true ∧ u.pc.pastDrain = true := by
    cases hpc : u.pc <;> rw [hpc] at hp <;> first | exact ⟨rfl, rfl⟩ | cases hp
  exact ⟨h.sealed past.1, h.empty past.2, h.unscheduled hp⟩

end Progress

/-! ## All calls -/

/-- The call has begun the shutdown. -/
def ShutPc.pastBegin : ShutPc → Bool
  | .called | .cancelled => false
  | _ => true

/-- The call has taken the registry. -/
def ShutPc.pastTake : ShutPc → Bool
  | .called | .begun | .cancelled => false
  | _ => true

structure ShutsOK (s : State) : Prop where
  begun : ∀ u ∈ s.shuts, u.pc.pastBegin = true → s.base.flag = true
  taken : ∀ u ∈ s.shuts, u.pc.pastTake = true → s.taken = true
  progress : ∀ u ∈ s.shuts, Progress s.base u

@[simp] theorem Shut.announce_pastBegin {u : Shut} {a : Pea2Pea.Act} :
    (u.announce a).pc.pastBegin = u.pc.pastBegin :=
  announce_pc _ (fun _ _ => rfl) fun _ _ => rfl

@[simp] theorem Shut.announce_pastTake {u : Shut} {a : Pea2Pea.Act} :
    (u.announce a).pc.pastTake = u.pc.pastTake :=
  announce_pc _ (fun _ _ => rfl) fun _ _ => rfl

namespace ShutsOK

variable {s : State} {n : Nat} {u : Shut} {p : ShutPc}

/-- A call moves on, having begun and taken what its new place says. -/
theorem goto (h : ShutsOK s) (hu : s.shuts[n]? = some u) (hb : p.pastBegin = true → u.pc.pastBegin = true)
    (ht : p.pastTake = true → u.pc.pastTake = true) (hp : Progress s.base { u with pc := p }) :
    ShutsOK (s.shutGoto n u p) where
  begun := forall_mem_set h.begun fun hpb => h.begun u (List.mem_of_getElem? hu) (hb hpb)
  taken := forall_mem_set h.taken fun hpt => h.taken u (List.mem_of_getElem? hu) (ht hpt)
  progress := forall_mem_set h.progress hp

/-- A call moves on past the drains. -/
theorem gotoLater {q : ShutPc} (h : ShutsOK s) (hu : s.shuts[n]? = some u) (hpc : u.pc = q) (hq : q.pastSched = true)
    (hp : p.pastSched = true) : ShutsOK (s.shutGoto n u p) := by
  subst hpc
  have past : u.pc.pastBegin = true ∧ u.pc.pastTake = true := by
    cases hpc : u.pc <;> rw [hpc] at hq <;> first | exact ⟨rfl, rfl⟩ | cases hq
  have hD := (h.progress u (List.mem_of_getElem? hu)).drained hq
  exact h.goto hu (fun _ => past.1) (fun _ => past.2) (.later hD hp)

end ShutsOK

theorem StepR.shutsOK {cfg : NodeConfig} {s s' : State} {a : Act} (hA : AdmissionOK s.base) (hC : SchedOK s.base)
    (h : ShutsOK s) (hs : StepR cfg s a s') : ShutsOK s' := by
  cases hs with
  | @base a b hb hf =>
    have hstep := Pea2Pea.step_sound hb
    refine ⟨?_, ?_, ?_⟩ <;> simp only [List.forall_mem_map, Shut.announce_pastBegin, Shut.announce_pastTake]
    · exact fun u hu hp => hstep.flag_mono (h.begun u hu hp)
    · exact h.taken
    · intro u hu
      refine (h.progress u hu).base hstep fun j ha hj => ?_
      subst ha
      simp only [State.free, List.all_eq_true, decide_eq_true_eq] at hf
      exact hf u hu hj
  | shutDown =>
    exact ⟨forall_mem_append h.begun (by simp [ShutPc.pastBegin]),
      forall_mem_append h.taken (by simp [ShutPc.pastTake]), forall_mem_append h.progress (.early rfl)⟩
  | begin hu hpc =>
    have keep : ∀ v ∈ s.shuts, Progress { s.base with flag := true } v :=
      fun v hv => (h.progress v hv).base (.beginShutdown : Pea2Pea.StepR cfg _ _ _) (by simp)
    exact ⟨fun _ _ _ => rfl, forall_mem_set h.taken (by simp [ShutPc.pastTake]), forall_mem_set keep (.early rfl)⟩
  | takeTasks hu hpc =>
    exact ⟨forall_mem_set h.begun fun _ => h.begun _ (List.mem_of_getElem? hu) (by rw [hpc]; rfl),
      fun _ _ _ => rfl, forall_mem_set h.progress (.early rfl)⟩
  | snapshot hu hpc hl hd ha =>
    have hflag := h.begun _ (List.mem_of_getElem? hu) (by rw [hpc]; rfl)
    have htaken := h.taken _ (List.mem_of_getElem? hu) (by rw [hpc]; rfl)
    exact ⟨fun _ _ _ => hflag, fun _ _ _ => htaken,
      forall_mem_set (fun v hv => (h.progress v hv).fan) (.snapshot (hA.sealed hl hflag) ha)⟩
  | @fannedOut n u hu hpc hd =>
    refine h.goto hu (fun _ => by rw [hpc]; rfl) (fun _ => by rw [hpc]; rfl)
      ((h.progress _ (List.mem_of_getElem? hu)).fannedOut hpc fun j d hj hdj => ?_)
    simp only [State.fanDone, List.all_eq_true] at hd
    simp only [Shut.has, Bool.and_eq_true, decide_eq_true_eq] at hj
    refine hd d (List.mem_of_getElem? (i := j - u.lo) ?_)
    rw [List.getElem?_drop, List.getElem?_take, if_pos (by omega), show u.lo + (j - u.lo) = j by omega]
    exact hdj
  | enableDrain hu hpc =>
    exact h.goto hu (fun _ => by rw [hpc]; rfl) (fun _ => by rw [hpc]; rfl)
      ((h.progress _ (List.mem_of_getElem? hu)).drainGoto hpc trivial)
  | drainPark hu hpc he =>
    exact h.goto hu (fun _ => by rw [hpc]; rfl) (fun _ => by rw [hpc]; rfl)
      ((h.progress _ (List.mem_of_getElem? hu)).drainGoto hpc (Waiter.covered_park he))
  | wakeDrain hu hpc =>
    exact h.goto hu (fun _ => by rw [hpc]; rfl) (fun _ => by rw [hpc]; rfl)
      ((h.progress _ (List.mem_of_getElem? hu)).drainGoto hpc trivial)
  | drainEmpty hu hpc he =>
    have hP := h.progress _ (List.mem_of_getElem? hu)
    exact h.goto hu (fun _ => by rw [hpc]; rfl) (fun _ => by rw [hpc]; rfl)
      (.schedGoto (hP.sealed (by rw [hpc]; rfl)) he trivial)
  | enableSched hu hpc =>
    have hP := h.progress _ (List.mem_of_getElem? hu)
    exact h.goto hu (fun _ => by rw [hpc]; rfl) (fun _ => by rw [hpc]; rfl)
      (.schedGoto (hP.sealed (by rw [hpc]; rfl)) (hP.empty (by rw [hpc]; rfl)) trivial)
  | schedPark hu hpc he =>
    have hP := h.progress _ (List.mem_of_getElem? hu)
    exact h.goto hu (fun _ => by rw [hpc]; rfl) (fun _ => by rw [hpc]; rfl)
      (.schedGoto (hP.sealed (by rw [hpc]; rfl)) (hP.empty (by rw [hpc]; rfl)) (Waiter.covered_park he))
  | wakeSched hu hpc =>
    have hP := h.progress _ (List.mem_of_getElem? hu)
    exact h.goto hu (fun _ => by rw [hpc]; rfl) (fun _ => by rw [hpc]; rfl)
      (.schedGoto (hP.sealed (by rw [hpc]; rfl)) (hP.empty (by rw [hpc]; rfl)) trivial)
  | schedEmpty hu hpc he =>
    have hP := h.progress _ (List.mem_of_getElem? hu)
    exact h.goto hu (fun _ => by rw [hpc]; rfl) (fun _ => by rw [hpc]; rfl)
      (.later ⟨hP.sealed (by rw [hpc]; rfl), hP.empty (by rw [hpc]; rfl), hC.unscheduled he⟩ rfl)
  | signalHandlers hu hpc => exact { h.gotoLater hu hpc rfl rfl with }
  | joined hu hpc => exact h.gotoLater hu hpc rfl rfl
  | expire hu hpc => exact h.gotoLater hu hpc rfl rfl
  | abortRest hu hpc => exact { h.gotoLater hu hpc rfl rfl with }
  | clear hu hpc => exact { h.gotoLater hu hpc rfl rfl with }
  | cancelShut hu hpc =>
    exact { h.goto hu (p := .cancelled) (by simp [ShutPc.pastBegin]) (by simp [ShutPc.pastTake]) (.early rfl) with }
  | @publish c x t hx hpc hk hp =>
    refine ⟨fun u hu hb => ?_, h.taken, fun u hu => ?_⟩
    · have hflag := h.begun u hu hb
      dsimp only
      split <;> exact hflag
    · dsimp only
      split
      · exact (h.progress u hu).base (.enableOnConnect : Pea2Pea.StepR cfg _ _ _) (by simp)
      · exact h.progress u hu
  | _ => exact ⟨h.begun, h.taken, h.progress⟩

theorem shutsOK_reachable {cfg : NodeConfig} {s : State} (h : (shutdown cfg).Reachable s) : ShutsOK s := by
  refine h.invariant ⟨by simp [shutdown, State.init], by simp [shutdown, State.init], by simp [shutdown, State.init]⟩ ?_
  intro s s' a hr ho _ hs
  have hb := (projects cfg).reachable hr
  exact (step_sound hs).shutsOK (admissionOK_reachable hb) (schedOK_reachable hb) ho

/-! ## The registry and the listening address -/

/-- The call has `tasks` locked. -/
def CallPc.lockingTasks : CallPc → Bool
  | .locked _ | .admitted _ => true
  | _ => false

/-- The call is past the flag check in `register_task`. -/
def CallPc.isAdmitted : CallPc → Bool
  | .admitted _ => true
  | _ => false

/-- A toggle that has `listening_addr` locked. -/
def Call.inside (x : Call) : Bool :=
  x.kind = .listener ∧ x.pc ≠ .called ∧ x.pc ≠ .done

/-- A `shut_down` call has returned. -/
def Returned (shuts : List Shut) : Prop := ∃ u ∈ shuts, u.pc = .returned

/-- The registry and the listening address, over the parts of the state they
depend on. -/
structure Registry (flag isTaken : Bool) (hasReturned : Prop) (registry : Table NodeTask Handle)
    (tasksLock listenLock : Option Nat) (listening : Option SocketAddr) (calls : List Call) : Prop where
  tasks : Holds (·.pc.lockingTasks) calls tasksLock
  listen : Holds Call.inside calls listenLock
  holder : ∀ x ∈ calls, x.pc = .holding → x.kind = .listener
  taken : isTaken = true → flag = true ∧ registry = ∅ ∧ ∀ x ∈ calls, x.pc.isAdmitted = false
  returned : hasReturned → isTaken = true ∧ listening = none ∧
    ∀ x ∈ calls, x.kind = .listener → ∀ h, x.pc ≠ .registered h

namespace Registry

variable {F K : Bool} {R R' : Prop} {G : Table NodeTask Handle} {T L L' : Option Nat} {A : Option SocketAddr}
  {X : List Call} {c : Nat} {x y : Call}

/-- A call moves on, handing over neither a task nor an address. -/
theorem goto (h : Registry F K R G T L A X) (hx : X[c]? = some x)
    (ht : y.pc.lockingTasks = true → x.pc.lockingTasks = true) (hl : Holds Call.inside (X.set c y) L')
    (hh : y.pc = .holding → y.kind = .listener) (ha : y.pc.isAdmitted = false) (hr : ∀ h, y.pc ≠ .registered h) :
    Registry F K R G T L' A (X.set c y) where
  tasks := h.tasks.set hx ht
  listen := hl
  holder := forall_mem_set h.holder hh
  taken hk := by
    obtain ⟨hf, hg, hadm⟩ := h.taken hk
    exact ⟨hf, hg, forall_mem_set hadm ha⟩
  returned hret := by
    obtain ⟨hk, hn, hcalls⟩ := h.returned hret
    exact ⟨hk, hn, forall_mem_set hcalls fun _ => hr⟩

/-- A call is over. -/
theorem done (h : Registry F K R G T L A X) (hx : X[c]? = some x) (hy : y.pc = .done)
    (hl : Holds Call.inside (X.set c y) L') : Registry F K R G T L' A (X.set c y) :=
  h.goto hx (fun ht => by rw [hy] at ht; cases ht) hl (fun hp => by rw [hy] at hp; cases hp) (by rw [hy]; rfl)
    (by rw [hy]; simp)

/-- Nobody registers while `tasks` is free, or unlocks it but for a refusal. -/
theorem unlock (h : Registry F K R G T L A X) (hx : X[c]? = some x) (hp : x.pc.lockingTasks = true)
    (hy : y.pc = .done) (hl : Holds Call.inside (X.set c y) L') : Registry F K R G none L' A (X.set c y) :=
  { h.done hx hy hl with tasks := h.tasks.release hx hp (by rw [hy]; rfl) }

theorem spawn (h : Registry F K R G T L A X) (hy : y.pc = .called) : Registry F K R G T L A (X ++ [y]) where
  tasks := h.tasks.append (by rw [hy]; rfl)
  listen := h.listen.append (by simp [Call.inside, hy])
  holder := forall_mem_append h.holder fun hp => by rw [hy] at hp; cases hp
  taken hk := by
    obtain ⟨hf, hg, hadm⟩ := h.taken hk
    exact ⟨hf, hg, forall_mem_append hadm (by rw [hy]; rfl)⟩
  returned hret := by
    obtain ⟨hk, hn, hcalls⟩ := h.returned hret
    exact ⟨hk, hn, forall_mem_append hcalls fun _ => by rw [hy]; simp⟩

theorem lockTasks (h : Registry F K R G none L A X) (hx : X[c]? = some x) (hl : Holds Call.inside (X.set c y) L)
    {t : Handle} (hy : y.pc = .locked t) : Registry F K R G (some c) L A (X.set c y) where
  tasks := h.tasks.acquire hx
  listen := hl
  holder := forall_mem_set h.holder fun hp => by rw [hy] at hp; cases hp
  taken hk := by
    obtain ⟨hf, hg, hadm⟩ := h.taken hk
    exact ⟨hf, hg, forall_mem_set hadm (by rw [hy]; rfl)⟩
  returned hret := by
    obtain ⟨hk, hn, hcalls⟩ := h.returned hret
    exact ⟨hk, hn, forall_mem_set hcalls fun _ => by rw [hy]; simp⟩

/-- The flag check passes only before the registry is taken. -/
theorem passCheck (h : Registry false K R G T L A X) (hx : X[c]? = some x) (hl : Holds Call.inside (X.set c y) L)
    (hp : x.pc.lockingTasks = true) {t : Handle} (hy : y.pc = .admitted t) :
    Registry false K R G T L A (X.set c y) where
  tasks := h.tasks.set hx fun _ => hp
  listen := hl
  holder := forall_mem_set h.holder fun hq => by rw [hy] at hq; cases hq
  taken hk := by cases (h.taken hk).1
  returned hret := by cases (h.taken (h.returned hret).1).1

theorem not_taken (h : Registry F K R G T L A X) (hx : X[c]? = some x) {t : Handle} (hpc : x.pc = .admitted t) :
    K = false := by
  cases hk : K with
  | false => rfl
  | true =>
    have := (h.taken hk).2.2 x (List.mem_of_getElem? hx)
    rw [hpc] at this; cases this

theorem register (h : Registry F K R G T L A X) (hx : X[c]? = some x) (hl : Holds Call.inside (X.set c y) L)
    {t : Handle} (hpc : x.pc = .admitted t) (hy : y.pc = .registered t) (G' : Table NodeTask Handle) :
    Registry F K R G' none L A (X.set c y) where
  tasks := h.tasks.release hx (by rw [hpc]; rfl) (by rw [hy]; rfl)
  listen := hl
  holder := forall_mem_set h.holder fun hq => by rw [hy] at hq; cases hq
  taken hk := by rw [h.not_taken hx hpc] at hk; cases hk
  returned hret := by
    have hk := (h.returned hret).1
    rw [h.not_taken hx hpc] at hk; cases hk

/-- A registered toggle publishes its address: no `shut_down` has returned. -/
theorem publish {t : Handle} (h : Registry F K R G T L A X) (hx : X[c]? = some x) (hpc : x.pc = .registered t)
    (hk : x.kind = .listener) (hy : y.pc = .done) (hl : Holds Call.inside (X.set c y) L') (A' : Option SocketAddr) :
    Registry F K R G T L' A' (X.set c y) :=
  { h.done hx hy hl with
    returned := fun hret => absurd hpc ((h.returned hret).2.2 x (List.mem_of_getElem? hx) hk t) }

/-- The calls are as before, and no other `shut_down` has returned. -/
theorem mono (h : Registry F K R G T L A X) {F' : Bool} (hf : F = true → F' = true) (hr : R' → R) :
    Registry F' K R' G T L A X :=
  { h with
    taken := fun hk => ⟨hf (h.taken hk).1, (h.taken hk).2⟩
    returned := fun hret => h.returned (hr hret) }

end Registry

abbrev RegistryOK (s : State) : Prop :=
  Registry s.base.flag s.taken (Returned s.shuts) s.registry s.tasksLock s.listenLock s.listening s.calls

theorem returned_set {U : List Shut} {n : Nat} {u : Shut} (hu : u.pc ≠ .returned) (h : Returned (U.set n u)) :
    Returned U := by
  obtain ⟨v, hv, hpc⟩ := h
  rcases List.mem_or_eq_of_mem_set hv with hv | rfl
  · exact ⟨v, hv, hpc⟩
  · exact absurd hpc hu

theorem returned_announce {U : List Shut} {a : Pea2Pea.Act} : Returned (U.map (·.announce a)) ↔ Returned U := by
  have pc : ∀ u : Shut, (u.announce a).pc = .returned ↔ u.pc = .returned := fun u => by
    rw [← beq_iff_eq, ← beq_iff_eq (b := ShutPc.returned),
      Shut.announce_pc (· == .returned) (fun _ _ => rfl) fun _ _ => rfl]
  simp only [Returned, List.mem_map, exists_exists_and_eq_and, pc]

theorem StepR.registryOK {cfg : NodeConfig} {s s' : State} {a : Act} (hS : ShutsOK s) (h : RegistryOK s)
    (hs : StepR cfg s a s') : RegistryOK s' := by
  -- a toggle that goes on keeps its lock, and another call has none
  have keep : ∀ {c x y}, s.calls[c]? = some x → y.kind = x.kind → x.pc ≠ .called ∧ x.pc ≠ .done →
      Holds Call.inside (s.calls.set c y) s.listenLock := fun hx hk hne =>
    h.listen.set hx fun hi => by simp_all [Call.inside]
  have other : ∀ {c x y}, s.calls[c]? = some x → y.kind = x.kind → x.kind ≠ .listener →
      Holds Call.inside (s.calls.set c y) s.listenLock := fun hx hk hne =>
    h.listen.set hx fun hi => by simp_all [Call.inside]
  have unlock : ∀ {c x}, s.calls[c]? = some x → x.kind = .listener → x.pc ≠ .called ∧ x.pc ≠ .done →
      Holds Call.inside (s.calls.set c { x with pc := .done }) none := fun hx hk hne =>
    h.listen.release hx (by simp [Call.inside, hk, hne]) (by simp [Call.inside])
  have release : ∀ {c x}, s.calls[c]? = some x → x.pc ≠ .called ∧ x.pc ≠ .done →
      Holds Call.inside (s.calls.set c { x with pc := .done }) (s.releaseListen x) := by
    intro c x hx hne
    unfold State.releaseListen
    split
    next hk => exact unlock hx hk hne
    next hk => exact other hx rfl hk
  cases hs with
  | base hb => exact h.mono (Pea2Pea.step_sound hb).flag_mono returned_announce.mp
  | toggle => exact h.spawn rfl
  | enable => exact h.spawn rfl
  | lockListening hx hk hpc hl =>
    have hfree := h.listen
    rw [hl] at hfree
    exact h.goto hx (fun ht => by cases ht) (hfree.acquire hx) (fun _ => hk) rfl (by simp)
  | toggleOff hx hpc hl hr =>
    have hk := h.holder _ (List.mem_of_getElem? hx) hpc
    have hdone := h.done hx rfl (unlock hx hk (by simp [hpc]))
    exact
      { hdone with
        taken := fun hkn => by
          -- there was a listener to unregister
          rw [(h.taken hkn).2.1] at hr
          simp at hr
        returned := fun hret => ⟨(h.returned hret).1, rfl, (hdone.returned hret).2.2⟩ }
  | toggleGone hx hpc | toggleFail hx hpc =>
    exact h.done hx rfl (unlock hx (h.holder _ (List.mem_of_getElem? hx) hpc) (by simp [hpc]))
  | bind hx ha hpc =>
    exact h.goto hx (fun ht => by cases ht) (keep hx rfl (by simp [hpc])) (by simp) rfl (by simp)
  | installTwice hx hk => exact h.done hx rfl (other hx rfl hk)
  | install hx hk => exact h.goto hx (fun ht => by cases ht) (other hx rfl hk) (by simp) rfl (by simp)
  | lockTasks hx hpc hl =>
    have hfree := h
    rw [RegistryOK, hl] at hfree
    exact hfree.lockTasks hx (keep hx rfl (by simp [hpc])) rfl
  | checkRefused hx hpc => exact h.unlock hx (by rw [hpc]; rfl) rfl (release hx (by simp [hpc]))
  | @checkAdmitted c x t hx hpc hf =>
    have hdown := h
    rw [RegistryOK, hf] at hdown
    have hadm := hdown.passCheck (y := { x with pc := .admitted t }) hx (keep hx rfl (by simp [hpc]))
      (by rw [hpc]; rfl) rfl
    rw [← hf] at hadm
    exact hadm
  | @registerTask c x t hx hpc =>
    exact h.register (y := { x with pc := .registered t }) hx (keep hx rfl (by simp [hpc])) hpc rfl _
  | publishAddr hx hpc hk => exact h.publish hx hpc hk rfl (unlock hx hk (by simp [hpc])) _
  | publishTwice hx hpc hk => exact h.done hx rfl (other hx rfl hk)
  | @publish c x t hx hpc hk =>
    refine (h.done (y := { x with pc := .done }) hx rfl (other hx rfl hk)).mono (fun hf => ?_) id
    dsimp only
    split <;> exact hf
  | cancelCalled hx hpc =>
    exact h.done hx rfl (h.listen.set hx fun hi => by simp [Call.inside] at hi)
  | cancelSpawned hx hpc => exact h.done hx rfl (release hx (by simp [hpc]))
  | finishTask => exact h
  | shutDown =>
    refine h.mono id fun ⟨v, hv, hpc⟩ => ?_
    rcases List.mem_append.mp hv with hv | hv
    · exact ⟨v, hv, hpc⟩
    · rw [List.mem_singleton.mp hv] at hpc; cases hpc
  | begin hu => exact h.mono (fun _ => rfl) (returned_set (by simp))
  | takeTasks hu hpc hl =>
    have hfree := h.tasks
    rw [hl] at hfree
    have hflag := hS.begun _ (List.mem_of_getElem? hu) (by rw [hpc]; rfl)
    refine
      { tasks := h.tasks
        listen := h.listen
        holder := h.holder
        taken := fun _ => ⟨hflag, rfl, fun x hx => ?_⟩
        returned := fun hret => ⟨rfl, (h.returned (returned_set (by simp) hret)).2⟩ }
    have hout := hfree.outside hx
    cases hpcx : x.pc <;> simp_all [CallPc.lockingTasks, CallPc.isAdmitted]
  | clear hu hpc hl =>
    have hfree := h.listen
    rw [hl] at hfree
    refine { h with returned := fun _ => ⟨hS.taken _ (List.mem_of_getElem? hu) (by rw [hpc]; rfl), rfl, ?_⟩ }
    intro x hx hk t hreg
    have hout := hfree.outside hx
    simp [Call.inside, hk, hreg] at hout
  | snapshot | fannedOut | enableDrain | enableSched | drainEmpty | drainPark | schedEmpty | schedPark | wakeDrain
  | wakeSched | signalHandlers | joined | expire | abortRest | cancelShut =>
    exact h.mono id (returned_set (by simp))

theorem registryOK_reachable {cfg : NodeConfig} {s : State} (h : (shutdown cfg).Reachable s) : RegistryOK s := by
  refine h.invariant ?_ fun hr ho _ hs => (step_sound hs).registryOK (shutsOK_reachable hr) ho
  exact ⟨holds_nil, holds_nil, by simp [shutdown, State.init], by simp [shutdown, State.init],
    by simp [shutdown, State.init, Returned]⟩

/-! ## Moves -/

/-- A step that is no lifecycle step changes little of the lifecycle: it may
raise the flag, enable OnConnect or add disconnects. -/
structure Quiet (b b' : Pea2Pea.State) : Prop where
  flag : b.flag = true → b'.flag = true
  active : b'.active = b.active
  setups : b'.setups = b.setups
  scheds : b'.scheds = b.scheds
  discs : ∃ ds, b'.discs = b.discs ++ ds ∧ ∀ d ∈ ds, d.pc = .called

theorem Quiet.refl (b : Pea2Pea.State) : Quiet b b := ⟨id, rfl, rfl, rfl, [], by simp, by simp⟩

theorem StepR.lifecycle {cfg : NodeConfig} {s s' : State} {a : Act} (hs : StepR cfg s a s') :
    (∃ c, a = .base c ∧ Pea2Pea.StepR cfg s.base c s'.base) ∨ Quiet s.base s'.base := by
  cases hs with
  | base hb => exact .inl ⟨_, rfl, Pea2Pea.step_sound hb⟩
  | begin => exact .inr ⟨fun _ => rfl, rfl, rfl, rfl, [], by simp, by simp⟩
  | snapshot => exact .inr ⟨id, rfl, rfl, rfl, _, rfl, by simp⟩
  | publish =>
    refine .inr ?_
    dsimp only
    split
    · exact ⟨id, rfl, rfl, rfl, [], by simp, by simp⟩
    · exact .refl _
  | _ => exact .inr (.refl _)

theorem StepR.disc_move {cfg : NodeConfig} {s s' : State} {a : Act} (hs : StepR cfg s a s') {j : Nat} {d : Disc}
    (hd : s.base.discs[j]? = some d) :
    ∃ p, s'.base.discs[j]? = some { d with pc := p } ∧ (p = d.pc ∨ ∃ c, a = .base c ∧ DiscMove j d.pc c p) := by
  rcases hs.lifecycle with ⟨c, ha, hc⟩ | hq
  · obtain ⟨p, hd', hp⟩ := hc.disc_move hd
    exact ⟨p, hd', hp.imp_right fun hm => ⟨c, ha, hm⟩⟩
  · obtain ⟨ds, hds, -⟩ := hq.discs
    exact ⟨d.pc, by rw [hds]; exact getElem?_append_of_some hd _, .inl rfl⟩

theorem StepR.sched_move {cfg : NodeConfig} {s s' : State} {a : Act} (hs : StepR cfg s a s') {k : Nat} {u : Sched}
    (hu : s.base.scheds[k]? = some u) :
    ∃ p, s'.base.scheds[k]? = some { u with pc := p } ∧ (p = u.pc ∨ ∃ c, a = .base c ∧ SchedMove k u.pc c p) := by
  rcases hs.lifecycle with ⟨c, ha, hc⟩ | hq
  · obtain ⟨p, hu', hp⟩ := hc.sched_move hu
    exact ⟨p, hu', hp.imp_right fun hm => ⟨c, ha, hm⟩⟩
  · exact ⟨u.pc, by rw [hq.scheds]; exact hu, .inl rfl⟩

theorem StepR.disc_new {cfg : NodeConfig} {s s' : State} {a : Act} (hs : StepR cfg s a s') {j : Nat} {d : Disc}
    (hn : s.base.discs[j]? = none) (hd : s'.base.discs[j]? = some d) : d.pc = .called := by
  rcases hs.lifecycle with ⟨c, -, hc⟩ | hq
  · exact hc.disc_new hn hd
  · obtain ⟨ds, hds, hcalled⟩ := hq.discs
    rw [hds, List.getElem?_append_right (List.getElem?_eq_none_iff.mp hn)] at hd
    exact hcalled d (List.mem_of_getElem? hd)

theorem StepR.sched_new {cfg : NodeConfig} {s s' : State} {a : Act} (hs : StepR cfg s a s') {k : Nat} {u : Sched}
    (hn : s.base.scheds[k]? = none) (hu : s'.base.scheds[k]? = some u) : u.pc = .running := by
  rcases hs.lifecycle with ⟨c, -, hc⟩ | hq
  · exact hc.sched_new hn hu
  · rw [hq.scheds, hn] at hu; cases hu

theorem StepR.onConnect_mono {cfg : NodeConfig} {s s' : State} {a : Act} (hs : StepR cfg s a s')
    (h : s.base.onConnect = true) : s'.base.onConnect = true := by
  cases hs with
  | base hb => exact (Pea2Pea.step_sound hb).onConnect_mono h
  | publish =>
    dsimp only
    split
    · rfl
    · exact h
  | _ => exact h

/-! ## The handlers' signal -/

theorem Quiet.drained {b b' : Pea2Pea.State} (h : Quiet b b') (hD : Drained b) : Drained b' where
  sealed := ⟨h.flag hD.sealed.flag, by rw [h.setups]; exact hD.sealed.none_admitted⟩
  empty := by rw [h.active]; exact hD.empty
  unscheduled := ⟨by rw [h.setups]; exact hD.unscheduled.setups, by rw [h.scheds]; exact hD.unscheduled.scheds⟩

theorem StepR.drained {cfg : NodeConfig} {s s' : State} {a : Act} (hs : StepR cfg s a s') (h : Drained s.base) :
    Drained s'.base := by
  rcases hs.lifecycle with ⟨c, -, hc⟩ | hq
  · exact hc.drained h
  · exact hq.drained h

theorem StepR.signal_mono {cfg : NodeConfig} {s s' : State} {a : Act} (hs : StepR cfg s a s')
    (h : s.signal = true) : s'.signal = true := by
  cases hs with
  | signalHandlers => dsimp only; rw [h]; rfl
  | _ => exact h

theorem StepR.signal_cases {cfg : NodeConfig} {s s' : State} {a : Act} (hs : StepR cfg s a s')
    (h : s'.signal = true) : s.signal = true ∨ ∃ u ∈ s.shuts, u.pc = .drained := by
  cases hs with
  | signalHandlers hu hpc => exact .inr ⟨_, List.mem_of_getElem? hu, hpc⟩
  | _ => exact .inl h

theorem drained_reachable {cfg : NodeConfig} {s : State} (h : (shutdown cfg).Reachable s) :
    s.signal = true → Drained s.base := by
  refine h.invariant (P := fun s => s.signal = true → Drained s.base) (by simp [shutdown, State.init]) ?_
  intro s s' a hr ih _ hs hsig
  have hstep := step_sound hs
  refine hstep.drained ?_
  rcases hstep.signal_cases hsig with hold | ⟨u, hu, hpc⟩
  · exact ih hold
  · exact ((shutsOK_reachable hr).progress u hu).drained (by rw [hpc]; rfl)

end Pea2Pea.Shutdown
