/-
What a handler loop does with its requests, in every reachable state: the
channel's slots and queue are the requests being sent, what left the queue
was received once and handled as its kind of loop handles it, and a loop
that has been broken out of has nothing left to receive.
-/
import Pea2Pea.HandlerLoop
import Mathlib.Data.List.Nodup

namespace Pea2Pea.HandlerLoop

open Pool

/-- The loop has received the request. -/
def ReqPc.received : ReqPc → Bool
  | .spawned | .answered | .dropped | .processed => true
  | _ => false

/-- The request's send succeeded (at the latest, its value will be written). -/
def ReqPc.accepted : ReqPc → Bool
  | .sending | .unsent => false
  | _ => true

/-- The response sender has been used or dropped. -/
def ReqPc.settled : ReqPc → Bool
  | .answered | .dropped | .processed => true
  | _ => false

/-- Request `q` is somewhere `p` admits. -/
def At (reqs : List Req) (p : ReqPc → Bool) (q : Nat) : Prop := ∃ r, reqs[q]? = some r ∧ p r.pc = true

section At

variable {reqs : List Req} {p : ReqPc → Bool} {q i : Nat} {r y : Req}

theorem at_append (hy : p y.pc = false) : At (reqs ++ [y]) p q ↔ At reqs p q := by
  constructor
  · intro ⟨z, hz, hp⟩
    rcases getElem?_append_cases hz with ⟨-, rfl⟩ | hz
    · rw [hy] at hp; cases hp
    · exact ⟨z, hz, hp⟩
  · intro ⟨z, hz, hp⟩
    exact ⟨z, getElem?_append_of_some hz _, hp⟩

theorem at_set (hr : reqs[i]? = some r) :
    At (reqs.set i y) p q ↔ (i = q ∧ p y.pc = true) ∨ (i ≠ q ∧ At reqs p q) := by
  constructor
  · intro ⟨z, hz, hp⟩
    rcases getElem?_set_cases hr hz with ⟨hiq, rfl⟩ | ⟨hiq, hz⟩
    · exact .inl ⟨hiq, hp⟩
    · exact .inr ⟨hiq, z, hz, hp⟩
  · intro h
    rcases h with ⟨rfl, hp⟩ | ⟨hiq, z, hz, hp⟩
    · exact ⟨y, by rw [getElem?_set hr, if_pos rfl], hp⟩
    · exact ⟨z, by rw [getElem?_set hr, if_neg hiq]; exact hz, hp⟩

/-- An update that is nothing to `p`. -/
theorem at_set_same (hr : reqs[i]? = some r) (hp : p y.pc = p r.pc) : At (reqs.set i y) p q ↔ At reqs p q := by
  rw [at_set hr]
  constructor
  · intro h
    rcases h with ⟨rfl, hy⟩ | ⟨-, hq⟩
    · exact ⟨r, hr, hp ▸ hy⟩
    · exact hq
  · intro ⟨z, hz, hpz⟩
    by_cases hiq : i = q
    · subst hiq
      rw [hr] at hz; cases hz
      exact .inl ⟨rfl, hp ▸ hpz⟩
    · exact .inr ⟨hiq, z, hz, hpz⟩

theorem not_at (hr : reqs[q]? = some r) (hp : p r.pc = false) : ¬ At reqs p q := by
  intro ⟨z, hz, hpz⟩
  rw [hr] at hz; cases hz
  rw [hp] at hpz; cases hpz

end At

/-- What a received request comes to, by the kind of the loop. -/
def Handled (kind : LoopKind) (r : Req) : Prop :=
  r.pc.received = true →
    match kind with
    | .setup => r.pc ≠ .processed ∧ (r.late = true → r.pc = .dropped)
    | .hook => r.pc = .processed

structure LoopOK (kind : LoopKind) (s : State) : Prop where
  slots : s.chan.slots = s.reqs.countP (·.pc == .acquired)
  queue : ∀ q, q ∈ s.chan.queue ↔ At s.reqs (· == .queued) q
  queue_nodup : s.chan.queue.Nodup
  log : ∀ q, q ∈ s.log ↔ At s.reqs ReqPc.received q
  log_nodup : s.log.Nodup
  handled : ∀ r ∈ s.reqs, Handled kind r
  tasks : ∀ q, At s.reqs (· == .spawned) q → q ∈ s.tasks ∨ q ∈ s.aborted
  ended : s.pc = .unwinding ∨ s.pc = .exited → s.chan.Ended
  exited : s.pc = .exited → s.tasks = []

namespace LoopOK

variable {kind : LoopKind} {s : State} {q : Nat} {r : Req} {p : ReqPc}

theorem init (kind : LoopKind) (capacity : Nat) : LoopOK kind (.init capacity) where
  slots := rfl
  queue q := by simp [State.init, Mpsc.new, At]
  queue_nodup := List.nodup_nil
  log q := by simp [State.init, At]
  log_nodup := List.nodup_nil
  handled := by simp [State.init]
  tasks q h := by simp [State.init, At] at h
  ended h := by simp [State.init] at h
  exited h := by cases h

/-- A request outside the channel moves on outside it. -/
theorem req_step {A : List Nat} (h : LoopOK kind s) (hr : s.reqs[q]? = some r)
    (ha : (p == .acquired) = (r.pc == .acquired)) (hq : (p == .queued) = (r.pc == .queued))
    (hrec : p.received = r.pc.received) (hh : Handled kind { r with pc := p })
    (ht : ∀ k, At (s.reqs.set q { r with pc := p }) (· == .spawned) k → k ∈ s.tasks ∨ k ∈ A) :
    LoopOK kind { s.reqGoto q r p with aborted := A } where
  slots := by
    have hc := countP_set_same (p := fun r : Req => r.pc == .acquired) (y := { r with pc := p }) hr ha
    exact h.slots.trans hc.symm
  queue k := (h.queue k).trans (at_set_same hr hq).symm
  queue_nodup := h.queue_nodup
  log k := (h.log k).trans (at_set_same hr hrec).symm
  log_nodup := h.log_nodup
  handled := forall_mem_set h.handled hh
  tasks := ht
  ended := h.ended
  exited := h.exited

/-- The loop moves between its arms. -/
theorem goto {pc : LoopPc} (h : LoopOK kind s) (he : pc = .unwinding ∨ pc = .exited → s.chan.Ended)
    (ht : pc = .exited → s.tasks = []) : LoopOK kind { s with pc := pc } :=
  { h with ended := he, exited := ht }

theorem acquire (h : LoopOK kind s) (hr : s.reqs[q]? = some r) (hpc : r.pc = .sending)
    (hc : s.chan.closed = false) :
    LoopOK kind { s.reqGoto q r .acquired with chan := { s.chan with slots := s.chan.slots + 1 } } where
  slots := by
    have hcount := countP_set (p := fun r : Req => r.pc == .acquired) (y := { r with pc := .acquired }) hr
    have hslots := h.slots
    simp only [hpc, beq_self_eq_true, if_true] at hcount
    simp only [State.reqGoto]
    rw [hslots]
    simpa using hcount.symm
  queue k := (h.queue k).trans (at_set_same hr (by rw [hpc]; rfl)).symm
  queue_nodup := h.queue_nodup
  log k := (h.log k).trans (at_set_same hr (by rw [hpc]; rfl)).symm
  log_nodup := h.log_nodup
  handled := forall_mem_set h.handled fun hrec => by cases hrec
  tasks k hk := h.tasks k ((at_set_same hr (by rw [hpc]; rfl)).mp hk)
  ended he := by
    -- a loop that is over has a closed channel
    have := (h.ended he).closed
    rw [hc] at this; cases this
  exited := h.exited

theorem write (h : LoopOK kind s) (hr : s.reqs[q]? = some r) (hpc : r.pc = .acquired) :
    LoopOK kind { s.reqGoto q r .queued with chan := s.chan.write q } := by
  have hcount := countP_set (p := fun r : Req => r.pc == .acquired) (y := { r with pc := .queued }) hr
  have hslots := h.slots
  simp only [hpc, beq_self_eq_true, if_true] at hcount
  have hnew : q ∉ s.chan.queue := fun hm => not_at hr (by rw [hpc]; rfl) ((h.queue q).mp hm)
  exact
    { slots := by
        simp only [State.reqGoto, Mpsc.write]
        have hz : (if (ReqPc.queued == ReqPc.acquired) = true then 1 else 0) = 0 := rfl
        rw [hz] at hcount
        omega
      queue := fun k => by
        simp only [Mpsc.write, State.reqGoto, List.mem_append, List.mem_singleton, at_set hr]
        constructor
        · rintro (hk | rfl)
          · have hne : q ≠ k := by rintro rfl; exact hnew hk
            exact .inr ⟨hne, (h.queue k).mp hk⟩
          · exact .inl ⟨rfl, rfl⟩
        · rintro (⟨rfl, -⟩ | ⟨-, hk⟩)
          · exact .inr rfl
          · exact .inl ((h.queue k).mpr hk)
      queue_nodup := by
        simpa only [Mpsc.write, List.concat_eq_append] using h.queue_nodup.concat hnew
      log := fun k => (h.log k).trans (at_set_same hr (by rw [hpc]; rfl)).symm
      log_nodup := h.log_nodup
      handled := forall_mem_set h.handled fun hrec => by cases hrec
      tasks := fun k hk => h.tasks k ((at_set_same hr (by rw [hpc]; rfl)).mp hk)
      ended := fun he => by
        -- a loop that is over has no send in progress
        have hpos := countP_pos (p := fun r : Req => r.pc == .acquired) hr (by rw [hpc]; rfl)
        have := (h.ended he).slots
        omega
      exited := h.exited }

/-- What is at the head of the queue was not received. -/
theorem queued_pc {rest : List Nat} (h : LoopOK kind s) (hq : s.chan.queue = q :: rest) (hr : s.reqs[q]? = some r) :
    r.pc = .queued := by
  obtain ⟨z, hz, hzq⟩ := (h.queue q).mp (by rw [hq]; exact List.mem_cons_self)
  rw [hr] at hz; cases hz
  exact eq_of_beq hzq

theorem queued_unreceived {rest : List Nat} (h : LoopOK kind s) (hq : s.chan.queue = q :: rest)
    (hr : s.reqs[q]? = some r) : r.pc.received = false := by
  rw [h.queued_pc hq hr]
  rfl

theorem recvItem {rest : List Nat} (h : LoopOK kind s) (hq : s.chan.queue = q :: rest)
    (hr : s.reqs[q]? = some r) :
    LoopOK kind { s with
      chan := { s.chan with queue := rest }
      reqs := s.reqs.set q { r with pc := kind.receive s.draining, late := s.draining }
      pc := kind.head
      tasks := if kind.receive s.draining = .spawned then s.tasks ++ [q] else s.tasks
      log := s.log ++ [q] } := by
  have hqueued := h.queued_pc hq hr
  have hnodup := h.queue_nodup
  rw [hq, List.nodup_cons] at hnodup
  have hnew : q ∉ s.log := fun hm => not_at hr (by rw [hqueued]; rfl) ((h.log q).mp hm)
  have hrec : (kind.receive s.draining).received = true := by cases kind <;> cases s.draining <;> rfl
  have hnq : (kind.receive s.draining == .queued) = false := by cases kind <;> cases s.draining <;> rfl
  have hna : (kind.receive s.draining == .acquired) = (r.pc == .acquired) := by
    rw [hqueued]; cases kind <;> cases s.draining <;> rfl
  exact
    { slots := by
        have hc := countP_set_same (p := fun r : Req => r.pc == .acquired)
          (y := { r with pc := kind.receive s.draining, late := s.draining }) hr hna
        exact h.slots.trans hc.symm
      queue := fun k => by
        rw [at_set hr]
        constructor
        · intro hk
          have hne : q ≠ k := by rintro rfl; exact hnodup.1 hk
          exact .inr ⟨hne, (h.queue k).mp (by rw [hq]; exact List.mem_cons_of_mem _ hk)⟩
        · rintro (⟨rfl, hk⟩ | ⟨hne, hk⟩)
          · rw [hnq] at hk; cases hk
          · have hm := (h.queue k).mpr hk
            rw [hq] at hm
            rcases List.mem_cons.mp hm with rfl | hm
            · exact absurd rfl hne
            · exact hm
      queue_nodup := hnodup.2
      log := fun k => by
        rw [at_set hr, List.mem_append, List.mem_singleton]
        constructor
        · rintro (hk | rfl)
          · have hne : q ≠ k := by rintro rfl; exact hnew hk
            exact .inr ⟨hne, (h.log k).mp hk⟩
          · exact .inl ⟨rfl, hrec⟩
        · rintro (⟨rfl, -⟩ | ⟨-, hk⟩)
          · exact .inr rfl
          · exact .inl ((h.log k).mpr hk)
      log_nodup := by simpa only [List.concat_eq_append] using h.log_nodup.concat hnew
      handled := forall_mem_set h.handled fun _ => by
        cases kind with
        | hook => rfl
        | setup => cases s.draining <;> simp [LoopKind.receive]
      tasks := fun k hk => by
        rcases (at_set hr).mp hk with ⟨rfl, hspawned⟩ | ⟨-, hold⟩
        · rw [if_pos (eq_of_beq hspawned)]; simp
        · refine (h.tasks k hold).imp_left fun hm => ?_
          split
          · exact List.mem_append_left _ hm
          · exact hm
      ended := fun he => by cases kind <;> simp [LoopKind.head] at he
      exited := fun he => by cases kind <;> simp [LoopKind.head] at he }

end LoopOK

/-- A setup task's request was received in time, and only a setup loop has
such tasks. -/
theorem handled_task {kind : LoopKind} {r : Req} {p : ReqPc} (h : Handled kind r) (hr : r.pc = .spawned)
    (hp : p = .answered ∨ p = .dropped) : Handled kind { r with pc := p } := by
  have hrec := h (by rw [hr]; rfl)
  intro _
  cases kind with
  | hook => rw [hr] at hrec; cases hrec
  | setup =>
    have hlate : r.late ≠ true := fun hl => by
      have := hrec.2 hl
      rw [hr] at this; cases this
    refine ⟨?_, fun hl => absurd hl hlate⟩
    rcases hp with rfl | rfl <;> simp

/-- Nothing here depends on the shutdown signal. -/
theorem LoopOK.signaled {kind : LoopKind} {s : State} (h : LoopOK kind s) (b : Bool) :
    LoopOK kind { s with signal := b } :=
  { h with }

theorem at_of_set_spawned {reqs : List Req} {q k : Nat} {r y : Req} (hr : reqs[q]? = some r)
    (hy : y.pc ≠ .spawned) (h : At (reqs.set q y) (· == .spawned) k) : At reqs (· == .spawned) k := by
  rcases (at_set hr).mp h with ⟨-, hspawned⟩ | ⟨-, hold⟩
  · exact absurd (eq_of_beq hspawned) hy
  · exact hold

theorem StepR.loopOK {kind : LoopKind} {s s' : State} {a : Act} (h : LoopOK kind s) (hs : StepR kind s a s') :
    LoopOK kind s' := by
  have live : ¬ (kind.head = .unwinding ∨ kind.head = .exited) := by cases kind <;> simp [LoopKind.head]
  cases hs with
  | request =>
    exact
      { h with
        slots := by simpa [List.countP_append] using h.slots
        queue := fun q => (h.queue q).trans (at_append rfl).symm
        log := fun q => (h.log q).trans (at_append rfl).symm
        handled := forall_mem_append h.handled fun hrec => by cases hrec
        tasks := fun q hq => h.tasks q ((at_append rfl).mp hq) }
  | acquire hr hpc hc => exact h.acquire hr hpc hc
  | giveUp hr hpc =>
    exact h.req_step hr (by rw [hpc]; rfl) (by rw [hpc]; rfl) (by rw [hpc]; rfl) (fun hrec => by cases hrec)
      (fun k hk => h.tasks k ((at_set_same hr (by rw [hpc]; rfl)).mp hk))
  | write hr hpc => exact h.write hr hpc
  | signalShutdown => exact h.signaled _
  | subscribe => exact h.goto (fun he => absurd he live) fun he => absurd (.inr he) live
  | @joinTask q r hr hpc hq hn =>
    exact
      { h with
        tasks := fun k hk => by
          have hne : k ≠ q := by rintro rfl; exact not_at hr (by simpa using hn) hk
          exact (h.tasks k hk).imp_left (List.mem_erase_of_ne hne).mpr
        exited := fun he => by rw [hpc] at he; cases he }
  | joinNone => exact h.goto (by simp) (by simp)
  | recvItem hpc hq hr => exact h.recvItem hq hr
  | recvEnded hpc he => exact h.goto (fun _ => he) (by simp)
  | recvPending => exact h.goto (by simp) (by simp)
  | close =>
    exact
      { h with
        ended := fun he => absurd he live
        exited := fun he => absurd (.inr he) live }
  | park => exact h.goto (by simp) (by simp)
  | wake => exact h.goto (fun he => absurd he live) fun he => absurd (.inr he) live
  | complete hr hpc =>
    exact h.req_step hr (by rw [hpc]; rfl) (by rw [hpc]; rfl) (by rw [hpc]; rfl)
      (handled_task (h.handled _ (List.mem_of_getElem? hr)) hpc (.inl rfl))
      (fun k hk => h.tasks k (at_of_set_spawned hr (by simp) hk))
  | panic hr hpc =>
    exact h.req_step hr (by rw [hpc]; rfl) (by rw [hpc]; rfl) (by rw [hpc]; rfl)
      (handled_task (h.handled _ (List.mem_of_getElem? hr)) hpc (.inr rfl))
      (fun k hk => h.tasks k (at_of_set_spawned hr (by simp) hk))
  | dropTasks hpc =>
    exact
      { h with
        tasks := fun k hk => .inr (List.mem_append.mpr (h.tasks k hk).symm)
        exited := fun _ => rfl }
  | @cancelTask q r hr hq =>
    have keep : ∀ {p : ReqPc} k, p ≠ .spawned → At (s.reqs.set q { r with pc := p }) (· == .spawned) k →
        k ∈ s.tasks ∨ k ∈ s.aborted.erase q := by
      intro p k hp hk
      rcases (at_set hr).mp hk with ⟨-, hspawned⟩ | ⟨hne, hold⟩
      · exact absurd (eq_of_beq hspawned) hp
      · exact (h.tasks k hold).imp_right (List.mem_erase_of_ne hne.symm).mpr
    split
    next hspawned =>
      exact h.req_step hr (by rw [hspawned]; rfl) (by rw [hspawned]; rfl) (by rw [hspawned]; rfl)
        (handled_task (h.handled _ (List.mem_of_getElem? hr)) hspawned (.inr rfl)) fun k => keep k (by simp)
    next hdone =>
      exact h.req_step hr rfl rfl rfl (h.handled _ (List.mem_of_getElem? hr)) fun k => keep k hdone
  | exit hpc ht => exact h.goto (fun _ => h.ended (.inl hpc)) fun _ => ht

theorem loopOK_reachable {kind : LoopKind} {capacity : Nat} {s : State}
    (h : (handlerLoop kind capacity).Reachable s) : LoopOK kind s :=
  h.invariant (LoopOK.init kind capacity) fun _ hl _ hs => (step_sound hs).loopOK hl

/-! ## Over whole runs -/

/-- Request `q` is with an aborted setup task, whose cancellation drops its
response sender. -/
def Doomed (kind : LoopKind) (s : State) (q : Nat) (r : Req) : Prop :=
  r.pc = .spawned ∧ q ∈ s.aborted ∧
    ∃ s', step kind s (.cancelTask q) = some s' ∧ s'.reqs[q]? = some { r with pc := .dropped }

theorem doomed_of_aborted {kind : LoopKind} {s : State} {q : Nat} {r : Req} (hr : s.reqs[q]? = some r)
    (hpc : r.pc = .spawned) (hq : q ∈ s.aborted) : Doomed kind s q r := by
  refine ⟨hpc, hq, _, by simp only [step, hr, Option.bind_eq_bind, Option.bind_some]; exact if_pos hq, ?_⟩
  simp only [State.reqGoto, hpc, if_true]
  rw [getElem?_set hr, if_pos rfl]

/-- A handler loop strands no request. -/
theorem handlerLoop_strands_none (kind : LoopKind) (capacity : Nat) (s : State)
    (h : (handlerLoop kind capacity).Reachable s) :
    -- it is broken out of only with the channel closed, empty and no send in progress
    (s.pc = .unwinding ∨ s.pc = .exited →
      s.chan.closed = true ∧ s.chan.queue = [] ∧ ∀ r ∈ s.reqs, r.pc ≠ .acquired) ∧
    -- an accepted request is received at most once, and once when the loop is over
    (∀ (q : Nat) r, s.reqs[q]? = some r → r.pc.accepted = true →
      s.log.count q ≤ 1 ∧ (s.pc = .unwinding ∨ s.pc = .exited → s.log.count q = 1)) ∧
    -- a setup loop drops what it receives while draining, and a hook loop processes everything
    (∀ r ∈ s.reqs, r.pc.received = true →
      (kind = .setup → r.late = true → r.pc = .dropped) ∧ (kind = .hook → r.pc = .processed)) ∧
    -- once it has exited, every response sender has been used or dropped, or is with an aborted task
    (s.pc = .exited → ∀ (q : Nat) r, s.reqs[q]? = some r → r.pc.accepted = true →
      r.pc.settled = true ∨ Doomed kind s q r) := by
  have hl := loopOK_reachable h
  have hidle : s.pc = .unwinding ∨ s.pc = .exited → ∀ r ∈ s.reqs, r.pc ≠ .acquired := by
    intro hover r hr hpc
    have hpos : 0 < s.reqs.countP (·.pc == .acquired) := List.countP_pos_iff.mpr ⟨r, hr, by rw [hpc]; rfl⟩
    have := (hl.ended hover).slots
    have := hl.slots
    omega
  -- with the channel drained, an accepted request has been received
  have hreceived : s.pc = .unwinding ∨ s.pc = .exited → ∀ (q : Nat) r, s.reqs[q]? = some r →
      r.pc.accepted = true → r.pc.received = true := by
    intro hover q r hr hacc
    have hna := hidle hover r (List.mem_of_getElem? hr)
    have hnq : r.pc ≠ .queued := fun hpc => by
      have hm := (hl.queue q).mpr ⟨r, hr, by rw [hpc]; rfl⟩
      rw [(hl.ended hover).queue] at hm
      cases hm
    cases hpc : r.pc <;> simp_all [ReqPc.accepted, ReqPc.received]
  refine ⟨fun hover => ⟨(hl.ended hover).closed, (hl.ended hover).queue, hidle hover⟩, fun q r hr hacc => ?_,
    fun r hr hrec => ?_, fun hex q r hr hacc => ?_⟩
  · refine ⟨List.nodup_iff_count_le_one.mp hl.log_nodup q, fun hover => ?_⟩
    exact List.count_eq_one_of_mem hl.log_nodup ((hl.log q).mpr ⟨r, hr, hreceived hover q r hr hacc⟩)
  · have hh := hl.handled r hr hrec
    constructor
    · rintro rfl
      exact hh.2
    · rintro rfl
      exact hh
  · by_cases hpc : r.pc = .spawned
    · -- the `JoinSet` is empty, so its task was aborted
      refine .inr (doomed_of_aborted hr hpc ?_)
      have hm := hl.tasks q ⟨r, hr, by rw [hpc]; rfl⟩
      rw [hl.exited hex] at hm
      exact hm.resolve_left List.not_mem_nil
    · have hrec := hreceived (.inr hex) q r hr hacc
      left
      cases hp : r.pc <;> simp_all [ReqPc.received, ReqPc.settled]

/-- Three requests: one answered in time, one caught between its slot and its
write by the shutdown signal, one whose task is aborted by the exit. -/
def drainedSetups : List Act :=
  let turn : List Act := [.joinNone, .pollRecv]
  List.flatten
    [[.subscribe, .request, .request, .request, .acquire 0, .acquire 1, .acquire 2, .write 0], turn, [.write 2], turn,
      [.complete 0, .joinTask 0], turn, [.signalShutdown false, .pollShutdown], turn, [.pollShutdown, .write 1, .wake],
      turn, turn, [.dropTasks, .exit]]

theorem handlerLoop_strands_none_drainedSetups : ∃ s, (handlerLoop .setup 3).Reachable s ∧
    s.pc = .exited ∧ s.reqs.map (·.pc) = [.answered, .dropped, .spawned] ∧
    ∀ (q : Nat) r, s.reqs[q]? = some r → r.pc.accepted = true → r.pc.settled = true ∨ Doomed .setup s q r := by
  obtain ⟨s, hs, hp⟩ := (handlerLoop .setup 3).exists_reachable drainedSetups
    (fun s => s.pc = .exited ∧ s.reqs.map (·.pc) = [.answered, .dropped, .spawned]) (by decide +kernel)
  obtain ⟨hex, hpcs⟩ := of_decide_eq_true hp
  exact ⟨s, hs, hex, hpcs, (handlerLoop_strands_none .setup 3 s hs).2.2.2 hex⟩

/-- The loop has exited, and the response sender of a request it accepted is
still with the setup task, which was aborted and not cancelled yet. -/
theorem exited_unsettled : ¬ ∀ s, (handlerLoop .setup 3).Reachable s →
    s.pc = .exited → ∀ r ∈ s.reqs, r.pc.accepted = true → r.pc.settled = true := by
  intro hall
  obtain ⟨s, hs, hp⟩ := (handlerLoop .setup 3).exists_reachable drainedSetups
    (fun s => s.pc = .exited ∧ ⟨.spawned, false⟩ ∈ s.reqs) (by decide +kernel)
  obtain ⟨hex, hmem⟩ := of_decide_eq_true hp
  have := hall s hs hex _ hmem rfl
  cases this

end Pea2Pea.HandlerLoop
