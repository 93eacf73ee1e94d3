/-
Whose hands a connection is in, in the lifecycle's own terms: with the setup
that drives it, in `active`, or with the disconnect that removed it; and the
steps by which it gets from one to the next.
-/
import Pea2Pea.Lifetime
import Pea2Pea.ShutdownFacts

namespace Pea2Pea

open Pool

/-! ## Phases -/

/-- The connection a setup drives: in `enable_protocols` (`false`), or from
there up to its insertion. -/
def SetupPc.phase : SetupPc → Option (Bool × Nat)
  | .protocols id => some (false, id)
  | .ready id _ | .adding id _ _ | .admitted id _ _ => some (true, id)
  | _ => none

theorem SetupPc.connId_of_phase {pc : SetupPc} {b : Bool} {id : Nat} (h : pc.phase = some (b, id)) :
    pc.connId = some id ∧ pc.enteredId = none := by
  cases pc <;> simp_all [SetupPc.phase, SetupPc.connId, SetupPc.enteredId]

/-- Setup `i` drives connection `id`. -/
def PhaseAt (S : List Setup) (i : Nat) (b : Bool) (id : Nat) : Prop :=
  ∃ t, S[i]? = some t ∧ t.pc.phase = some (b, id)

/-- Connection `id` is with the disconnect that removed it. -/
def RemovedAt (D : List Disc) (id : Nat) : Prop := ∃ d ∈ D, ∃ k, d.pc = .removed k id

variable {cfg : NodeConfig} {s s' : State} {a : Act}

section

variable {S : List Setup} {i j id : Nat} {b : Bool} {x y : Setup}

theorem phaseAt_set (hx : S[i]? = some x) :
    PhaseAt (S.set i y) j b id ↔ if i = j then y.pc.phase = some (b, id) else PhaseAt S j b id := by
  unfold PhaseAt
  rw [getElem?_set hx]
  split
  · simp
  · rfl

theorem phaseAt_set_same (hx : S[i]? = some x) (h : y.pc.phase = some (b, id) ↔ x.pc.phase = some (b, id)) :
    PhaseAt (S.set i y) j b id ↔ PhaseAt S j b id := by
  rw [phaseAt_set hx]
  split
  next he =>
    subst he
    rw [h]
    exact ⟨fun hp => ⟨x, hx, hp⟩, fun ⟨z, hz, hp⟩ => by rw [hx] at hz; cases hz; exact hp⟩
  · rfl

theorem phaseAt_append (hy : y.pc.phase = none) : PhaseAt (S ++ [y]) j b id ↔ PhaseAt S j b id := by
  constructor
  · rintro ⟨t, ht, hp⟩
    rcases getElem?_append_cases ht with ⟨-, rfl⟩ | ht
    · rw [hy] at hp; cases hp
    · exact ⟨t, ht, hp⟩
  · rintro ⟨t, ht, hp⟩
    exact ⟨t, getElem?_append_of_some ht _, hp⟩

end

/-- The steps by which a connection gets into other hands. -/
inductive Handover (s : State) : Act → Nat → Prop
  | adapt {i t} (ht : s.setups[i]? = some t) (hpc : t.pc = .dialing) : Handover s (.adapt i) s.nextId
  | fail {i t id} (ht : s.setups[i]? = some t) (hpc : t.pc = .protocols id) : Handover s (.fail i) id
  | wired {i t id} (ht : s.setups[i]? = some t) (hpc : t.pc = .protocols id) : Handover s (.wired i) id
  | refuse {i t id sched begun} (ht : s.setups[i]? = some t) (hpc : t.pc = .adding id sched begun)
      (hf : s.flag = true) : Handover s (.checkFlag i) id
  | insert {i t id sched begun tasks} (ht : s.setups[i]? = some t) (hpc : t.pc = .admitted id sched begun) :
      Handover s (.insert i tasks) id
  | remove {j d conn} (hd : s.discs[j]? = some d) (hc : s.active.lookup d.addr = some conn) :
      Handover s (.remove j) conn.id
  | notifyDrain {j d k got} (hd : s.discs[j]? = some d) (hpc : d.pc = .removed k got) :
      Handover s (.notifyDrain j) got

/-- A step hands over one connection at most. -/
theorem Handover.unique {id id' : Nat} (h : Handover s a id) (h' : Handover s a id') : id = id' := by
  cases h with
  | adapt => cases h'; rfl
  | fail ht hpc | wired ht hpc | refuse ht hpc | insert ht hpc | notifyDrain ht hpc | remove ht hpc =>
    cases h' with
    | _ ht' hpc' =>
      rw [ht] at ht'; cases ht'
      rw [hpc] at hpc'; cases hpc'
      rfl

theorem StepR.phase_at (hs : StepR cfg s a s') (id : Nat) :
    Handover s a id ∨ ∀ i b, PhaseAt s'.setups i b id ↔ PhaseAt s.setups i b id := by
  cases hs with
  | connect | accept => exact .inr fun i b => phaseAt_append rfl
  | @adapt i t ht hpc =>
    by_cases hid : id = s.nextId
    · exact .inl (hid ▸ .adapt ht hpc)
    · exact .inr fun _ _ => phaseAt_set_same ht (by simp [hpc, SetupPc.phase, Ne.symm hid])
  | @failProtocols i t k ht hpc =>
    by_cases hid : id = k
    · exact .inl (hid ▸ .fail ht hpc)
    · exact .inr fun _ _ => phaseAt_set_same ht (by simp [hpc, SetupPc.phase, Ne.symm hid])
  | @wired i t k ht hpc =>
    by_cases hid : id = k
    · exact .inl (hid ▸ .wired ht hpc)
    · exact .inr fun _ _ => phaseAt_set_same ht (by simp [hpc, SetupPc.phase, Ne.symm hid])
  | @checkRefused i t k _ _ ht hpc hf =>
    by_cases hid : id = k
    · exact .inl (hid ▸ .refuse ht hpc hf)
    · exact .inr fun _ _ => phaseAt_set_same ht (by simp [hpc, SetupPc.phase, Ne.symm hid])
  | @insert i t k _ _ _ ht hpc =>
    by_cases hid : id = k
    · exact .inl (hid ▸ .insert ht hpc)
    · exact .inr fun _ _ => phaseAt_set_same ht (by simp [hpc, SetupPc.phase, Ne.symm hid])
  | startCalled ht hpc | startAccepted ht hpc | checkConnected ht hpc | dropRefused ht hpc | dropSched ht hpc =>
    refine .inr fun _ _ => phaseAt_set_same ht ?_
    split <;> simp [hpc, SetupPc.phase]
  | reject ht hpc =>
    refine .inr fun _ _ => phaseAt_set_same ht ?_
    rcases hpc with hpc | hpc <;> simp [hpc, SetupPc.phase]
  | acquire ht hpc | noBudget ht hpc | reserveOk ht hpc | reserveErr ht hpc | failDialing ht hpc
  | lockActive ht hpc | checkAdmitted ht hpc | dropUnwinding ht hpc | dropInserted ht hpc | notifySched ht hpc
  | scheduleSome ht hpc | scheduleNone ht hpc | finish ht hpc | finishAwaiting ht hpc =>
    exact .inr fun _ _ => phaseAt_set_same ht (by simp [hpc, SetupPc.phase])
  | _ => exact .inr fun _ _ => .rfl

theorem StepR.inActive_from (hs : StepR cfg s a s') {id : Nat} (h : InActive s'.active id) :
    Handover s a id ∨ InActive s.active id := by
  obtain ⟨addr, c', hc', rfl⟩ := h
  rcases hs.entry_origin hc' with ⟨i, rfl⟩ | ⟨c, hc, hid, -⟩
  · cases hs with
    | insert ht hpc =>
      rcases Table.lookup_insert_cases hc' with ⟨-, hnew⟩ | ⟨-, hc⟩
      · have hid := congrArg Connection.id hnew
        exact .inl (hid ▸ .insert ht hpc)
      · exact .inr ⟨addr, c', hc, rfl⟩
  · exact .inr ⟨addr, c, hc, hid.symm⟩

theorem StepR.removedAt_from (hs : StepR cfg s a s') {id : Nat} (h : RemovedAt s'.discs id) :
    Handover s a id ∨ RemovedAt s.discs id := by
  obtain ⟨d', hd', k, hpc'⟩ := h
  obtain ⟨j, hj'⟩ := List.getElem?_of_mem hd'
  cases hj : s.discs[j]? with
  | none => rw [hs.disc_new hj hj'] at hpc'; cases hpc'
  | some d =>
    obtain ⟨p, hj₂, hp⟩ := hs.disc_move hj
    rw [hj'] at hj₂; cases hj₂
    rcases hp with rfl | hm
    · exact .inr ⟨d, List.mem_of_getElem? hj, k, hpc'⟩
    · obtain ⟨addr, origin, connId, pc⟩ := d
      dsimp only at hpc' hm
      subst hpc'
      cases hm with
      | remove =>
        obtain ⟨e, _, he, -, hout⟩ := hs.remove_cases
        rw [hj] at he; cases he
        rcases hout with ⟨conn, hc, hgot⟩ | ⟨-, hgot⟩
        · rw [hj'] at hgot; cases hgot
          exact .inl (.remove hj hc)
        · rw [hj'] at hgot; cases hgot

/-- A connection stays in `active` until a disconnect removes it. -/
theorem StepR.inActive_kept (hL : LedgerOK s) (hs : StepR cfg s a s') {id : Nat} (h : InActive s.active id) :
    Handover s a id ∨ InActive s'.active id := by
  obtain ⟨addr, c, hc, rfl⟩ := h
  rcases hs.entry_kept hL hc with ⟨c', hc', hid, -⟩ | ⟨j, d, rfl, hd, rfl⟩
  · exact .inr ⟨addr, c', hc', hid⟩
  · exact .inl (.remove hd hc)

/-- It stays with the disconnect that removed it until that one drops it. -/
theorem StepR.removedAt_kept (hs : StepR cfg s a s') {id : Nat} (h : RemovedAt s.discs id) :
    Handover s a id ∨ RemovedAt s'.discs id := by
  obtain ⟨d, hd, k, hpc⟩ := h
  obtain ⟨j, hj⟩ := List.getElem?_of_mem hd
  obtain ⟨p, hj', hp⟩ := hs.disc_move hj
  rcases hp with rfl | hm
  · exact .inr ⟨_, List.mem_of_getElem? hj', k, hpc⟩
  · rw [hpc] at hm
    cases hm with
    | notify => exact .inl (.notifyDrain hj hpc)

theorem StepR.adapt_nextId {i : Nat} (hs : StepR cfg s (.adapt i) s') : s'.nextId = s.nextId + 1 := by
  cases hs with
  | adapt => rfl

/-- Connection `id` is in the same hands. -/
structure SameHands (id : Nat) (s s' : State) : Prop where
  phase : ∀ i b, PhaseAt s'.setups i b id ↔ PhaseAt s.setups i b id
  active : InActive s'.active id ↔ InActive s.active id
  removed : RemovedAt s'.discs id ↔ RemovedAt s.discs id

theorem StepR.sameHands (hL : LedgerOK s) (hs : StepR cfg s a s') (id : Nat) :
    Handover s a id ∨ SameHands id s s' := by
  by_cases h : Handover s a id
  · exact .inl h
  · exact .inr
      { phase := (hs.phase_at id).resolve_left h
        active := ⟨fun hin => (hs.inActive_from hin).resolve_left h,
          fun hin => (hs.inActive_kept hL hin).resolve_left h⟩
        removed := ⟨fun hrem => (hs.removedAt_from hrem).resolve_left h,
          fun hrem => (hs.removedAt_kept hrem).resolve_left h⟩ }

theorem SameHands.refl (id : Nat) (s : State) : SameHands id s s := ⟨fun _ _ => .rfl, .rfl, .rfl⟩

theorem SameHands.of_quiet (h : Shutdown.Quiet s s') (id : Nat) : SameHands id s s' where
  phase i b := by rw [h.setups]
  active := by rw [h.active]
  removed := by
    obtain ⟨ds, hds, hcalled⟩ := h.discs
    rw [hds]
    constructor
    · rintro ⟨d, hd, k, hpc⟩
      rcases List.mem_append.mp hd with hd | hd
      · exact ⟨d, hd, k, hpc⟩
      · rw [hcalled d hd] at hpc; cases hpc
    · rintro ⟨d, hd, hpc⟩
      exact ⟨d, List.mem_append_left _ hd, hpc⟩

/-- One setup drives a connection. -/
theorem LedgerOK.phase_unique (hL : LedgerOK s) {i j id : Nat} {b b' : Bool} (h : PhaseAt s.setups i b id)
    (h' : PhaseAt s.setups j b' id) : i = j ∧ b = b' := by
  obtain ⟨t, ht, hp⟩ := h
  obtain ⟨u, hu, hp'⟩ := h'
  have hij : i = j := hL.ids _ _ _ _ _ ht hu (SetupPc.connId_of_phase hp).1 (SetupPc.connId_of_phase hp').1
  subst hij
  rw [ht] at hu; cases hu
  rw [hp] at hp'; cases hp'
  exact ⟨rfl, rfl⟩

/-- The setup that drives connection `id` goes on. -/
theorem LedgerOK.phase_set (hL : LedgerOK s) {i j id : Nat} {b b' : Bool} {x y : Setup} (hx : s.setups[i]? = some x)
    (hp : x.pc.phase = some (b, id)) (h : PhaseAt (s.setups.set i y) j b' id) : j = i ∧ y.pc.phase = some (b', id) := by
  rw [phaseAt_set hx] at h
  split at h
  next he => exact ⟨he.symm, h⟩
  next he => exact absurd (hL.phase_unique ⟨x, hx, hp⟩ h).1 he

end Pea2Pea
