/-
A handler loop serves what it is sent: with no new requests, every request
comes to its end, and once the shutdown signal is stored the loop exits. A
signal sent while no loop has subscribed is not stored, and the loop goes on.

A poll that finds nothing to do is idling: the loop may be polled any number
of times between two steps that get something done, and it is where it was
but for the arm it polls next. So a loop at rest can be thought of as polling
any arm of its `select!`.
-/
import Pea2Pea.HandlerLoopFacts
import Pea2Pea.Lib.Settles

namespace Pea2Pea.HandlerLoop

open Pool

/-- The request has been answered, dropped or processed, or was never sent. -/
def ReqPc.isOver : ReqPc → Bool
  | .answered | .dropped | .processed | .unsent => true
  | _ => false

/-- A send is given up when the channel is closed; otherwise its caller was
dropped. A poll that finds nothing is idling. -/
def pace (s : State) : Act → Pace
  | .request | .signalShutdown _ => .call
  | .giveUp _ => if s.chan.closed then .work else .event
  | .panic _ => .event
  | .joinNone | .wake => .idle
  | .pollRecv =>
    match s.chan.recv with
    | .pending => .idle
    | _ => .work
  | .pollShutdown => if s.draining = false ∧ s.signal = true then .work else .idle
  | _ => .work

/-! ## The steps left -/

/-- The steps a request has ahead of it at most; the setup task it may be
given to is reaped separately. -/
def ReqPc.rank : ReqPc → Nat
  | .sending => 6
  | .acquired => 5
  | .queued => 4
  | .spawned => 1
  | _ => 0

/-- The steps of the loop from the signal to its exit. -/
def LoopPc.rank (draining : Bool) : LoopPc → Nat
  | .starting => 4
  | .exited => 0
  | .unwinding => 1
  | _ => if draining then 2 else 3

def State.left (s : State) : Nat :=
  weight (·.pc.rank) s.reqs + 2 * s.tasks.length + s.aborted.length + s.pc.rank s.draining

variable {kind : LoopKind} {capacity : Nat} {s s' : State} {a : Act}

theorem LoopPc.rank_recv (draining : Bool) : LoopPc.recv.rank draining = if draining then 2 else 3 := rfl

theorem LoopKind.rank_head (kind : LoopKind) (draining : Bool) :
    kind.head.rank draining = if draining then 2 else 3 := by
  cases kind <;> rfl

theorem LoopKind.rank_receive (kind : LoopKind) (draining : Bool) :
    (kind.receive draining).rank + 2 * (if kind.receive draining = .spawned then 1 else 0) < 4 := by
  cases kind <;> cases draining <;> decide

theorem LoopPc.one_lt_rank {draining : Bool} {pc : LoopPc} (h : pc ≠ .exited ∧ pc ≠ .unwinding) :
    1 < pc.rank draining := by
  cases pc <;> simp_all [rank] <;> (try split) <;> omega

/-- What a poll of the channel found. -/
theorem recv_of_pending (h : step kind s .pollRecv = some { s with pc := .shutdown }) (hpc : s.pc = .recv)
    (hq : s.chan.queue = []) : s.chan.recv = .pending := by
  cases hrecv : s.chan.recv with
  | item q c =>
    have := (Mpsc.recv_item hrecv).1
    rw [hq] at this; cases this
  | ended =>
    simp only [step, hpc, if_true, hrecv, Option.some.injEq] at h
    have := congrArg State.pc h
    cases this
  | pending => rfl

theorem left_lt (hL : LoopOK kind s) (h : step kind s a = some s') (hi : pace s a ≠ .idle) (hc : pace s a ≠ .call) :
    s'.left < s.left := by
  have req : ∀ {q : Nat} {r y : Req} {z : State}, s.reqs[q]? = some r → z.reqs = s.reqs.set q y → z.pc = s.pc →
      z.draining = s.draining → z.tasks = s.tasks → z.aborted = s.aborted → y.pc.rank < r.pc.rank →
      z.left < s.left := by
    intro q r y z hr h₁ h₂ h₃ h₄ h₅ hy
    have := weight_set_lt (w := fun r : Req => r.pc.rank) hr hy
    simp only [State.left, h₁, h₂, h₃, h₄, h₅]
    omega
  cases step_sound h with
  | request | signalShutdown => exact absurd rfl hc
  | acquire hr hpc | giveUp hr hpc | write hr hpc | complete hr hpc | panic hr hpc =>
    exact req hr rfl rfl rfl rfl rfl (by simp [hpc, ReqPc.rank])
  | subscribe hpc =>
    have hstarting : LoopPc.starting.rank s.draining = 4 := rfl
    simp only [State.left, LoopKind.rank_head, hpc, hstarting]
    split <;> omega
  | joinTask hr hpc hq hn =>
    have := List.length_erase_of_mem hq
    have := List.length_pos_of_mem hq
    simp only [State.left]
    omega
  | joinNone | wake => exact absurd rfl hi
  | @recvItem q r rest hpc hq hr =>
    -- the request has left the queue, at most for a setup task
    have hqueued : r.pc.rank = 4 := by rw [hL.queued_pc hq hr]; rfl
    have hset := weight_set (w := fun r : Req => r.pc.rank)
      (y := { r with pc := kind.receive s.draining, late := s.draining }) hr
    have hrank := kind.rank_receive s.draining
    have hlen : (if kind.receive s.draining = .spawned then s.tasks ++ [q] else s.tasks).length =
        s.tasks.length + if kind.receive s.draining = .spawned then 1 else 0 := by
      split <;> simp
    simp only [hqueued] at hset
    simp only [State.left, hlen, LoopKind.rank_head, hpc, LoopPc.rank_recv]
    omega
  | recvEnded hpc =>
    have : 1 < s.pc.rank s.draining := LoopPc.one_lt_rank (by simp [hpc])
    simp only [State.left, LoopPc.rank] at this ⊢
    omega
  | recvPending hpc hq =>
    have := recv_of_pending h hpc hq
    simp [pace, this] at hi
  | close hpc hd =>
    simp only [State.left, LoopKind.rank_head, hpc, hd]
    simp [LoopPc.rank]
  | park hpc hn => exact absurd (if_neg hn) hi
  | dropTasks hpc ht =>
    have := List.length_pos_iff.mpr ht
    simp only [State.left, List.length_nil, List.length_append]
    omega
  | @cancelTask q r hr hq =>
    have hset := weight_set (w := fun r : Req => r.pc.rank)
      (y := { r with pc := if r.pc = .spawned then .dropped else r.pc }) hr
    have := List.length_erase_of_mem hq
    have := List.length_pos_of_mem hq
    have hle : (if r.pc = .spawned then ReqPc.dropped else r.pc).rank ≤ r.pc.rank := by
      split
      · exact Nat.zero_le _
      · exact le_rfl
    simp only [State.left, State.reqGoto] at hset ⊢
    omega
  | exit hpc ht =>
    simp only [State.left, hpc, LoopPc.rank]
    omega

theorem left_idle (h : step kind s a = some s') (hi : pace s a = .idle) : s'.left = s.left := by
  cases step_sound h with
  | joinNone hpc | recvPending hpc | park hpc =>
    simp only [State.left, hpc]
    rfl
  | wake hpc =>
    simp only [State.left, hpc, LoopKind.rank_head]
    rfl
  | recvItem hpc hq => simp [pace, Mpsc.recv, hq] at hi
  | recvEnded hpc he => simp [pace, Mpsc.recv, he.queue, he.closed, he.slots] at hi
  | close hpc hd hs => simp [pace, hd, hs] at hi
  | giveUp => simp only [pace] at hi; split at hi <;> cases hi
  | request | acquire | write | signalShutdown | subscribe | joinTask | complete | panic | dropTasks | cancelTask
  | exit =>
    cases hi

/-! ## At rest -/

/-- The channel is closed while draining, and the setup tasks are those of
requests; a hook loop has none. -/
structure Shape (kind : LoopKind) (s : State) : Prop where
  draining : s.draining = true → s.chan.closed = true
  tasks : ∀ q ∈ s.tasks, q < s.reqs.length
  hook : kind = .hook → s.tasks = [] ∧ s.aborted = []
  join : kind = .hook → s.pc ≠ .join
  capacity : 0 < s.chan.capacity

theorem StepR.shape (h : Shape kind s) (hs : StepR kind s a s') : Shape kind s' := by
  have head : kind = .hook → kind.head ≠ .join := by
    rintro rfl
    simp [LoopKind.head]
  cases hs with
  | request => exact { h with tasks := fun q hq => by simpa using Nat.lt_succ_of_lt (h.tasks q hq) }
  | acquire | giveUp | write | complete | panic =>
    exact { h with tasks := fun q hq => by simpa [State.reqGoto] using h.tasks q hq }
  | signalShutdown => exact { h with }
  | subscribe => exact { h with join := head }
  | joinNone | recvEnded | recvPending | park | exit => exact { h with join := by simp }
  | wake => exact { h with join := head }
  | joinTask =>
    exact { h with
      tasks := fun q hq => h.tasks q (List.mem_of_mem_erase hq)
      hook := fun hk => ⟨by rw [(h.hook hk).1]; rfl, (h.hook hk).2⟩ }
  | dropTasks hpc ht =>
    exact { h with
      tasks := fun q hq => by cases hq
      hook := fun hk => absurd (h.hook hk).1 ht }
  | cancelTask =>
    exact { h with
      tasks := fun q hq => by simpa [State.reqGoto] using h.tasks q hq
      hook := fun hk => ⟨(h.hook hk).1, by dsimp only; rw [(h.hook hk).2]; rfl⟩ }
  | close => exact { h with draining := fun _ => rfl, join := head }
  | recvItem hpc hq hr =>
    refine { h with tasks := fun q hq => ?_, hook := fun hk => ?_, join := head }
    · simp only [List.length_set]
      split at hq
      · rcases List.mem_append.mp hq with hq | hq
        · exact h.tasks q hq
        · rw [List.mem_singleton.mp hq]
          exact (List.getElem?_eq_some_iff.mp hr).1
      · exact h.tasks q hq
    · subst hk
      rw [if_neg (by simp [LoopKind.receive])]
      exact h.hook rfl

theorem shape_reachable (hc : 0 < capacity) (h : (handlerLoop kind capacity).Reachable s) : Shape kind s := by
  refine h.invariant ?_ fun _ hS _ hs => (step_sound hs).shape hS
  constructor <;> simp [handlerLoop, State.init, Mpsc.new, hc]

theorem StepR.closed_mono (hs : StepR kind s a s') (h : s.chan.closed = true) : s'.chan.closed = true := by
  cases hs with
  | close => rfl
  | _ => exact h

section

variable (hL : LoopOK kind s) (hS : Shape kind s) (h : (handlerLoop kind capacity).AtRest pace s)

include hS h in
/-- At rest, the loop can be thought of as polling the channel. -/
theorem rest_recv (hu : s.pc ≠ .unwinding) (he : s.pc ≠ .exited) :
    (handlerLoop kind capacity).AtRest pace { s with pc := .recv } := by
  have join : (handlerLoop kind capacity).AtRest pace { s with pc := .join } →
      (handlerLoop kind capacity).AtRest pace { s with pc := .recv } := by
    intro hr
    refine hr.idle (a := .joinNone) rfl ?_
    simp only [handlerLoop, step, true_and]
    refine if_pos (List.all_eq_true.mpr fun q hq => ?_)
    -- a task that has ended would be reaped
    have hlt := hS.tasks q hq
    have hreap := hr.stuck (a := .joinTask q) rfl
    simp only [handlerLoop, step, List.getElem?_eq_getElem hlt, Option.bind_eq_bind, Option.bind_some] at hreap
    split at hreap
    · cases hreap
    next hn => 
      rw [List.getElem?_eq_getElem hlt]
      simpa [hq] using hn
  have head : (handlerLoop kind capacity).AtRest pace { s with pc := kind.head } →
      (handlerLoop kind capacity).AtRest pace { s with pc := .recv } := by
    intro hr
    cases kind with
    | setup => exact join hr
    | hook => exact hr
  have parked : (handlerLoop kind capacity).AtRest pace { s with pc := .parked } →
      (handlerLoop kind capacity).AtRest pace { s with pc := .recv } := fun hr => head (hr.idle (a := .wake) rfl rfl)
  have here : ∀ {pc : LoopPc}, s.pc = pc → (handlerLoop kind capacity).AtRest pace { s with pc := pc } := by
    rintro pc rfl
    exact h
  cases hpc : s.pc with
  | join => exact join (here hpc)
  | recv => exact here hpc
  | parked => exact parked (here hpc)
  | unwinding => exact absurd hpc hu
  | exited => exact absurd hpc he
  | starting =>
    have := h.stuck (a := .subscribe) rfl
    simp [handlerLoop, step, hpc] at this
  | shutdown =>
    have hr := here hpc
    have hstep := hr.stuck (a := .pollShutdown)
    by_cases hd : s.draining = false ∧ s.signal = true
    · have := hstep (if_pos hd)
      simp [handlerLoop, step, hd] at this
    · refine parked (hr.idle (a := .pollShutdown) (if_neg hd) ?_)
      simp only [handlerLoop, step, if_true]
      exact if_neg hd

include hL h in
theorem rest_slots : s.chan.slots = 0 := by
  rw [hL.slots, List.countP_eq_zero]
  intro r hm hpc
  obtain ⟨q, hq⟩ := List.getElem?_of_mem hm
  have := h.stuck (a := .write q) rfl
  simp [handlerLoop, step, hq, beq_iff_eq.mp hpc] at this

include hL hS h in
/-- A loop at rest in its cycle has received everything and was not signaled;
its channel is open. -/
theorem rest_cycle (hu : s.pc ≠ .unwinding) (he : s.pc ≠ .exited) :
    s.chan.queue = [] ∧ s.chan.closed = false ∧ s.signal = false := by
  have hr := rest_recv hS h hu he
  have hslots := rest_slots hL h
  cases hrecv : s.chan.recv with
  | item q c =>
    obtain ⟨hq, -⟩ := Mpsc.recv_item hrecv
    obtain ⟨r, hreq, -⟩ := (hL.queue q).mp (by rw [hq]; exact List.mem_cons_self)
    have := hr.stuck (a := .pollRecv) (by simp [pace, hrecv])
    simp [handlerLoop, step, hrecv, hreq] at this
  | ended =>
    have := hr.stuck (a := .pollRecv) (by simp [pace, hrecv])
    simp [handlerLoop, step, hrecv] at this
  | pending =>
    have hq := Mpsc.recv_pending hrecv
    have hopen : s.chan.closed = false := by
      by_contra hc
      simp [Mpsc.recv, hq, hslots, hc] at hrecv
    have hpolled : (handlerLoop kind capacity).AtRest pace { s with pc := .shutdown } :=
      hr.idle (a := .pollRecv) (by simp [pace, hrecv]) (by simp [handlerLoop, step, hrecv])
    refine ⟨hq, hopen, ?_⟩
    have hdrain : s.draining = false := by
      by_contra hd
      rw [hS.draining (by simpa using hd)] at hopen; cases hopen
    cases hsig : s.signal with
    | false => rfl
    | true =>
      have := hpolled.stuck (a := .pollShutdown) (if_pos ⟨hdrain, hsig⟩)
      simp [handlerLoop, step, hdrain, hsig] at this

include h in
theorem rest_not_unwinding : s.pc ≠ .unwinding := by
  intro hpc
  by_cases ht : s.tasks = []
  · have := h.stuck (a := .exit) rfl
    simp [handlerLoop, step, hpc, ht] at this
  · have := h.stuck (a := .dropTasks) rfl
    simp [handlerLoop, step, hpc, ht] at this

include hL hS h in
theorem loop_rest : (∀ r ∈ s.reqs, r.pc.isOver = true) ∧ (s.signal = true → s.pc = .exited) := by
  have hu := rest_not_unwinding h
  refine ⟨fun r hm => ?_, fun hsig => ?_⟩
  · obtain ⟨q, hq⟩ := List.getElem?_of_mem hm
    cases hpc : r.pc with
    | answered | dropped | processed | unsent => rfl
    | acquired =>
      have := h.stuck (a := .write q) rfl
      simp [handlerLoop, step, hq, hpc] at this
    | spawned =>
      have := h.stuck (a := .complete q) rfl
      simp [handlerLoop, step, hq, hpc] at this
    | sending =>
      by_cases he : s.pc = .exited
      · have := h.stuck (a := .giveUp q) (if_pos (hL.ended (.inr he)).closed)
        simp [handlerLoop, step, hq, hpc] at this
      · obtain ⟨hempty, hopen, -⟩ := rest_cycle hL hS h hu he
        have := h.stuck (a := .acquire q) rfl
        simp [handlerLoop, step, hq, hpc, Mpsc.acquire, hempty, hopen, rest_slots hL h, hS.capacity] at this
    | queued =>
      have hmem := (hL.queue q).mpr ⟨r, hq, by rw [hpc]; rfl⟩
      by_cases he : s.pc = .exited
      · rw [(hL.ended (.inr he)).queue] at hmem; cases hmem
      · rw [(rest_cycle hL hS h hu he).1] at hmem; cases hmem
  · by_contra hne
    have := (rest_cycle hL hS h hu hne).2.2
    rw [hsig] at this; cases this

end

/-- Every request to a handler loop comes to its end, and a loop exits if the
shutdown signal is stored: with no new requests, only finitely many steps
other than idle polls are left, and after them no request is waiting. The
signal is stored when it is sent while this loop or another has subscribed. -/
theorem handlerLoop_settles (kind : LoopKind) (capacity : Nat) (hc : 0 < capacity) (s : State)
    (h : (handlerLoop kind capacity).Reachable s) :
    (handlerLoop kind capacity).Settles pace
      (fun t => (∀ r ∈ t.reqs, r.pc.isOver = true) ∧ (t.signal = true → t.pc = .exited)) s :=
  Machine.settles_of_measure (I := (handlerLoop kind capacity).Reachable) State.left
    (fun hr _ hs => .step hr trivial hs) (fun _ hi hs => (left_idle hs hi).le)
    (fun hr hi hcall hs => left_lt (loopOK_reachable hr) hs hi hcall)
    (fun hr hrest => loop_rest (loopOK_reachable hr) (shape_reachable hc hr) hrest) h

/-- The signal finds one request with a setup task, one queued and one whose
send waits for a slot. -/
def signaledBusy : List Act :=
  [.subscribe, .request, .request, .request, .acquire 0, .write 0, .joinNone, .pollRecv, .acquire 1, .write 1,
    .signalShutdown false]

theorem handlerLoop_settles_signaledBusy : ∃ s, (handlerLoop .setup 1).Reachable s ∧
    s.signal = true ∧ s.reqs.map (·.pc) = [.spawned, .queued, .sending] ∧
    (handlerLoop .setup 1).Settles pace
      (fun t => (∀ r ∈ t.reqs, r.pc.isOver = true) ∧ (t.signal = true → t.pc = .exited)) s := by
  obtain ⟨s, hs, hp⟩ := (handlerLoop .setup 1).exists_reachable signaledBusy
    (fun s => s.signal = true ∧ s.reqs.map (·.pc) = [.spawned, .queued, .sending]) (by decide +kernel)
  obtain ⟨hsig, hpcs⟩ := of_decide_eq_true hp
  exact ⟨s, hs, hsig, hpcs, handlerLoop_settles .setup 1 Nat.one_pos s hs⟩

end Pea2Pea.HandlerLoop
