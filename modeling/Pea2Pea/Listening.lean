/-
What the shared connection-setup budget does with listeners and dials
(`start_listening`, `connect_inner`): no permit is lost or made, an accepted
connection is in one place, and an inbound connection that waits for a permit
is not overtaken: neither by a later one nor by any `connect`.
-/
import Mathlib.Order.Nat
import Pea2Pea.AcceptLoop

namespace Pea2Pea.AcceptLoop

open Pool

variable {L : List LoopPc} {l k n : Nat} {pc pc' : LoopPc}

/-! ## Who waits -/

/-- The tickets in the queue are those of the listeners that wait. -/
structure Queue (permits : Semaphore Nat) (loops : List LoopPc) (next : Nat) : Prop where
  fair : permits.Fair
  unique : UniqueBy LoopPc.ticket loops
  waits : ∀ k, k ∈ permits.waiters ↔ Owned LoopPc.ticket loops k
  fresh : ∀ k, Owned LoopPc.ticket loops k → k < next

theorem LoopPc.ticket_of_not_hasConn (h : pc.hasConn = false) : pc.ticket = none := by
  cases pc <;> first | rfl | cases h

theorem LoopPc.not_hasPermit_of_not_hasConn (h : pc.hasConn = false) : pc.hasPermit = false := by
  cases pc <;> first | rfl | cases h

/-- A permit comes to the one listener with the ticket. -/
theorem map_grant {addr : SocketAddr} (hu : UniqueBy LoopPc.ticket L) (hl : L[l]? = some (.waiting k addr)) :
    L.map (LoopPc.grant k) = L.set l (.granted addr) := by
  refine List.ext_getElem? fun j => ?_
  rw [List.getElem?_map, getElem?_set hl]
  split
  next hj => rw [← hj, hl]; simp [LoopPc.grant]
  next hj =>
    cases hpc : L[j]? with
    | none => rfl
    | some pc =>
      cases pc with
      | waiting i addr' =>
        have hne : i ≠ k := by
          rintro rfl
          exact hj (hu _ _ _ _ _ hl hpc rfl rfl)
        simp [LoopPc.grant, hne]
      | _ => rfl

namespace Queue

variable {P : Semaphore Nat}

/-- A listener's ticket stays, or it had none and gets none. -/
theorem loop (h : Queue P L n) (hl : L[l]? = some pc) (ht : pc'.ticket = pc.ticket) : Queue P (L.set l pc') n where
  fair := h.fair
  unique := h.unique.set_same hl ht
  waits k := (h.waits k).trans (owned_set_same hl ht).symm
  fresh k hk := h.fresh k ((owned_set_same hl ht).1 hk)

theorem append (h : Queue P L n) (ht : pc.ticket = none) : Queue P (L ++ [pc]) n where
  fair := h.fair
  unique := h.unique.append fun k hk => by rw [ht] at hk; cases hk
  waits k := (h.waits k).trans ⟨fun hk => owned_append.2 (.inl hk), fun hk => hk.of_append ht⟩
  fresh k hk := h.fresh k (hk.of_append ht)

/-- Nobody waits: the permits left are nobody's business. -/
theorem permits {P' : Semaphore Nat} (h : Queue P L n) (hw : P'.waiters = P.waiters) (hf : P'.Fair) : Queue P' L n :=
  { h with fair := hf, waits := fun k => by rw [hw]; exact h.waits k }

theorem wait {addr : SocketAddr} (h : Queue P L n) (hl : L[l]? = some pc) (ht : pc.ticket = none)
    (hp : P.permits = 0) : Queue { P with waiters := P.waiters ++ [n] } (L.set l (.waiting n addr)) (n + 1) := by
  have hnew : ¬ Owned LoopPc.ticket L n := fun hk => Nat.lt_irrefl n (h.fresh n hk)
  have hold : ∀ k, Owned LoopPc.ticket (L.set l (.waiting n addr)) k ↔ Owned LoopPc.ticket L k ∨ k = n := by
    intro k
    constructor
    · intro hk
      rcases hk.of_set hl with hk | ⟨j, z, -, hz, hk⟩
      · exact .inr (Option.some.inj hk).symm
      · exact .inl (.of_getElem? hz hk)
    · rintro (hk | rfl)
      · exact hk.set hl (by rw [ht]; simp)
      · exact .set_self hl rfl
  refine ⟨h.fair.wait hp fun hk => hnew ((h.waits n).1 hk), ?_, fun k => ?_, fun k hk => ?_⟩
  · exact h.unique.set hl fun k hk => by cases hk; exact .inr hnew
  · rw [List.mem_append, List.mem_singleton, h.waits, hold]
  · rcases (hold k).1 hk with hk | rfl
    · exact Nat.lt_succ_of_lt (h.fresh k hk)
    · exact Nat.lt_succ_self k

/-- A listener leaves with its ticket, or the ticket is served. -/
theorem leave {P' : Semaphore Nat} {addr : SocketAddr} (h : Queue P L n) (hl : L[l]? = some (.waiting k addr))
    (ht : pc'.ticket = none) (hf : P'.Fair) (hw : ∀ j, j ∈ P'.waiters ↔ j ∈ P.waiters ∧ j ≠ k) :
    Queue P' (L.set l pc') n := by
  have hown : ∀ j, Owned LoopPc.ticket (L.set l pc') j ↔ Owned LoopPc.ticket L j ∧ j ≠ k := by
    intro j
    constructor
    · intro hj
      rcases hj.of_set hl with hj | ⟨i, z, hi, hz, hj⟩
      · rw [ht] at hj; cases hj
      · refine ⟨.of_getElem? hz hj, ?_⟩
        rintro rfl
        exact hi (h.unique _ _ _ _ _ hl hz rfl hj)
    · rintro ⟨hj, hne⟩
      exact hj.set hl fun he => hne (Option.some.inj he).symm
  refine ⟨hf, ?_, fun j => ?_, fun j hj => h.fresh j ((hown j).1 hj).1⟩
  · exact h.unique.set hl fun j hj => by rw [ht] at hj; cases hj
  · rw [hw, h.waits, hown]

end Queue

abbrev QueueOK (s : State) : Prop := Queue s.permits s.loops s.nextTicket

variable {s s' : State} {a : Act}

/-- A permit that is dropped is left, or comes to the listener at the head of
the queue. -/
theorem giveBack_cases (h : QueueOK s) :
    (s.permits.waiters = [] ∧ s.giveBack = { s with permits := { s.permits with permits := s.permits.permits + 1 } }) ∨
      ∃ k ks l addr, s.permits.waiters = k :: ks ∧ s.loops[l]? = some (.waiting k addr) ∧
        s.giveBack = { s with
          permits := { s.permits with waiters := ks }
          loops := s.loops.set l (.granted addr) } := by
  rcases s.permits.release_cases with ⟨hw, he⟩ | ⟨k, ks, hw, he⟩
  · exact .inl ⟨hw, by rw [State.giveBack, he]⟩
  · obtain ⟨l, pc, hl, ht⟩ := ((h.waits k).1 (hw ▸ List.mem_cons_self)).position
    cases pc with
    | waiting j addr =>
      cases ht
      exact .inr ⟨k, ks, l, addr, hw, hl, by simp only [State.giveBack, he, map_grant h.unique hl]⟩
    | _ => cases ht

theorem giveBack_permits (s : State) : s.giveBack.permits = s.permits.release.2 := by
  unfold State.giveBack
  split
  next h => rw [h]
  next h => rw [h]

theorem QueueOK.giveBack (h : QueueOK s) : QueueOK s.giveBack := by
  have hf : s.giveBack.permits.Fair := giveBack_permits s ▸ h.fair.release
  rcases giveBack_cases h with ⟨-, he⟩ | ⟨k, ks, l, addr, hw, hl, he⟩
  · rw [he] at hf ⊢
    exact h.permits rfl hf
  · rw [he] at hf ⊢
    exact h.leave hl rfl hf fun j => h.fair.mem_served hw

theorem StepR.queueOK (h : QueueOK s) (hs : StepR s a s') : QueueOK s' := by
  cases hs with
  | listen => exact h.append rfl
  | loop ha hl hc hc' =>
    exact h.loop hl (by rw [LoopPc.ticket_of_not_hasConn hc, LoopPc.ticket_of_not_hasConn hc'])
  | backOff hl => exact h.loop hl rfl
  | accept hp => exact h.permits rfl (.of_nil (h.fair.nil_of_permit hp))
  | wait hl hp => exact h.wait hl rfl hp
  | resume hl => exact h.loop hl rfl
  | dropWaiting hl => exact h.leave hl rfl (h.fair.cancel _) fun j => h.fair.mem_cancel
  | dropGranted hl =>
    have hd : QueueOK (s.loopGoto _ .gone) := h.loop hl rfl
    exact hd.giveBack
  | finish hi =>
    exact QueueOK.giveBack (s := { s with handlers := _ }) h
  | permit hi hp =>
    obtain ⟨hpos, rfl⟩ := Semaphore.tryAcquire_some hp
    exact h.permits rfl (.of_nil (h.fair.nil_of_permit hpos))
  | finishDial hi =>
    exact QueueOK.giveBack (s := { s with dials := _ }) h
  | ignore | conclude | reject | connect | returnEarly | refuse => exact h

theorem queueOK_reachable (h : (acceptLoop n).Reachable s) : QueueOK s :=
  h.invariant ⟨.init n, uniqueBy_nil, fun k => ⟨fun hk => (by cases hk), fun hk => absurd hk not_owned_nil⟩,
    fun k hk => absurd hk not_owned_nil⟩ fun _ hq _ hs => (step_sound hs).queueOK hq

/-! ## The budget -/

/-- The permits that listeners, handlers and dials have. -/
def held (s : State) : Nat :=
  s.loops.countP LoopPc.hasPermit + s.handlers.countP Handler.hasPermit + s.dials.countP (· = .permitted)

def BudgetOK (n : Nat) (s : State) : Prop := s.permits.permits + held s = n

theorem BudgetOK.giveBack (h : BudgetOK n s) (hq : QueueOK s) : BudgetOK (n + 1) s.giveBack := by
  unfold BudgetOK held at h ⊢
  rcases giveBack_cases hq with ⟨-, he⟩ | ⟨k, ks, l, addr, -, hl, he⟩
  · rw [he]
    dsimp only
    omega
  · rw [he]
    have hc : (s.loops.set l (.granted addr)).countP LoopPc.hasPermit = s.loops.countP LoopPc.hasPermit + 1 :=
      countP_set_gain hl rfl rfl
    dsimp only
    omega

theorem StepR.budgetOK (hq : QueueOK s) (h : BudgetOK n s) (hs : StepR s a s') : BudgetOK n s' := by
  unfold BudgetOK held at h
  cases hs with
  | listen => simpa [BudgetOK, held, LoopPc.hasPermit, List.countP_append] using h
  | loop ha hl hc hc' =>
    have hsame := countP_set_same (p := LoopPc.hasPermit) hl
      ((LoopPc.not_hasPermit_of_not_hasConn hc').trans (LoopPc.not_hasPermit_of_not_hasConn hc).symm)
    simpa only [BudgetOK, held, State.loopGoto, hsame] using h
  | backOff hl =>
    have hsame := countP_set_same (p := LoopPc.hasPermit) (y := .backingOff) hl rfl
    simpa only [BudgetOK, held, State.loopGoto, hsame] using h
  | @accept l addr hp =>
    have hnew : Handler.hasPermit ⟨addr, .running⟩ = true := rfl
    simp only [BudgetOK, held, List.countP_append, List.countP_singleton, hnew, if_true]
    omega
  | @wait l addr hl hp =>
    have hsame := countP_set_same (p := LoopPc.hasPermit) (y := .waiting s.nextTicket addr) hl rfl
    simpa only [BudgetOK, held, State.loopGoto, hsame] using h
  | @resume l addr hl =>
    have hloss := countP_set_loss (p := LoopPc.hasPermit) (y := .accepting) hl rfl rfl
    have hnew : Handler.hasPermit ⟨addr, .running⟩ = true := rfl
    simp only [BudgetOK, held, State.spawn, State.loopGoto, List.countP_append, List.countP_singleton, hnew, if_true]
    omega
  | @dropWaiting l k addr hl =>
    have hsame := countP_set_same (p := LoopPc.hasPermit) (y := .gone) hl rfl
    simpa only [BudgetOK, held, State.loopGoto, Semaphore.cancel, hsame] using h
  | @dropGranted l addr hl =>
    have hloss := countP_set_loss (p := LoopPc.hasPermit) (y := .gone) hl rfl rfl
    have hd : BudgetOK (n - 1) (s.loopGoto l .gone) := by
      simp only [BudgetOK, held, State.loopGoto]
      omega
    have hg := hd.giveBack (hq.loop hl rfl)
    rwa [Nat.sub_add_cancel (by omega)] at hg
  | @conclude i o addr hi =>
    have hsame := countP_set_same (p := Handler.hasPermit) (y := ⟨addr, .concluded o⟩) hi rfl
    simpa only [BudgetOK, held, hsame] using h
  | @reject i addr hi =>
    have hsame := countP_set_same (p := Handler.hasPermit)
      (y := ⟨addr, .concluded .rejected⟩) hi rfl
    simpa only [BudgetOK, held, hsame] using h
  | @finish i o addr hi =>
    have hloss := countP_set_loss (p := Handler.hasPermit) (y := ⟨addr, .done o⟩) hi rfl rfl
    have hd : BudgetOK (n - 1) { s with handlers := s.handlers.set i ⟨addr, .done o⟩ } := by
      simp only [BudgetOK, held]
      omega
    have hg := hd.giveBack hq
    rwa [Nat.sub_add_cancel (by omega)] at hg
  | connect => simpa [BudgetOK, held, List.countP_append] using h
  | returnEarly hi =>
    have hsame := countP_set_same (p := fun d : DialPc => decide (d = .permitted)) (y := .done) hi rfl
    simpa only [BudgetOK, held, hsame] using h
  | permit hi hp =>
    obtain ⟨hpos, rfl⟩ := Semaphore.tryAcquire_some hp
    have hgain := countP_set_gain (p := fun d : DialPc => decide (d = .permitted)) (y := .permitted) hi rfl rfl
    simp only [BudgetOK, held]
    omega
  | refuse hi =>
    have hsame := countP_set_same (p := fun d : DialPc => decide (d = .permitted)) (y := .refused) hi rfl
    simpa only [BudgetOK, held, hsame] using h
  | @finishDial i hi =>
    have hloss := countP_set_loss (p := fun d : DialPc => decide (d = .permitted)) (y := .done) hi rfl rfl
    have hd : BudgetOK (n - 1) { s with dials := s.dials.set i .done } := by
      simp only [BudgetOK, held]
      omega
    have hg := hd.giveBack hq
    rwa [Nat.sub_add_cancel (by omega)] at hg
  | ignore => exact h

theorem budgetOK_reachable (h : (acceptLoop n).Reachable s) : BudgetOK n s :=
  h.invariant rfl fun hr hb _ hs => (step_sound hs).budgetOK (queueOK_reachable hr) hb

/-! ## Connections and counters -/

theorem giveBack_hasConn (hq : QueueOK s) : s.giveBack.loops.countP LoopPc.hasConn = s.loops.countP LoopPc.hasConn := by
  rcases giveBack_cases hq with ⟨-, he⟩ | ⟨k, ks, l, addr, -, hl, he⟩
  · rw [he]
  · rw [he]
    exact countP_set_same hl rfl

theorem giveBack_frame (s : State) :
    s.giveBack.handlers = s.handlers ∧ s.giveBack.dials = s.dials ∧ s.giveBack.heuristics = s.heuristics ∧
      s.giveBack.nextTicket = s.nextTicket ∧ s.giveBack.accepted = s.accepted ∧ s.giveBack.lost = s.lost ∧
      s.giveBack.backoffs = s.backoffs := by
  unfold State.giveBack
  split <;> exact ⟨rfl, rfl, rfl, rfl, rfl, rfl, rfl⟩

/-- An accepted connection is with a listener, was handed on, or went with its
listener. -/
def PlacedOK (s : State) : Prop := s.accepted = s.loops.countP LoopPc.hasConn + s.handlers.length + s.lost

theorem PlacedOK.giveBack (h : PlacedOK s) (hq : QueueOK s) : PlacedOK s.giveBack := by
  obtain ⟨hh, -, -, -, ha, hl, -⟩ := giveBack_frame s
  rw [PlacedOK, ha, giveBack_hasConn hq, hh, hl]
  exact h

theorem StepR.placedOK (hq : QueueOK s) (h : PlacedOK s) (hs : StepR s a s') : PlacedOK s' := by
  unfold PlacedOK at h
  cases hs with
  | listen => simpa [PlacedOK, List.countP_append, LoopPc.hasConn] using h
  | loop ha hl hc hc' =>
    have hsame := countP_set_same (p := LoopPc.hasConn) hl (hc'.trans hc.symm)
    simpa only [PlacedOK, State.loopGoto, hsame] using h
  | backOff hl =>
    have hsame := countP_set_same (p := LoopPc.hasConn) (y := .backingOff) hl rfl
    simpa only [PlacedOK, State.loopGoto, hsame] using h
  | accept hp =>
    simp only [PlacedOK, List.length_append, List.length_singleton]
    omega
  | @wait l addr hl hp =>
    have hgain := countP_set_gain (p := LoopPc.hasConn) (y := .waiting s.nextTicket addr) hl rfl rfl
    simp only [PlacedOK, State.loopGoto]
    omega
  | @resume l addr hl =>
    have hloss := countP_set_loss (p := LoopPc.hasConn) (y := .accepting) hl rfl rfl
    simp only [PlacedOK, State.spawn, State.loopGoto, List.length_append, List.length_singleton]
    omega
  | @dropWaiting l k addr hl =>
    have hloss := countP_set_loss (p := LoopPc.hasConn) (y := .gone) hl rfl rfl
    simp only [PlacedOK, State.loopGoto]
    omega
  | @dropGranted l addr hl =>
    have hloss := countP_set_loss (p := LoopPc.hasConn) (y := .gone) hl rfl rfl
    have hq' : QueueOK (s.loopGoto l .gone) := hq.loop hl rfl
    obtain ⟨hh, -, -, -, ha, -, -⟩ := giveBack_frame (s.loopGoto l .gone)
    have hc := giveBack_hasConn hq'
    rw [PlacedOK]
    dsimp only
    rw [ha, hc, hh]
    dsimp only [State.loopGoto]
    omega
  | conclude hi | reject hi =>
    rw [PlacedOK, List.length_set]
    exact h
  | @finish i o addr hi =>
    have hd : PlacedOK { s with handlers := s.handlers.set i ⟨addr, .done o⟩ } := by
      rw [PlacedOK, List.length_set]
      exact h
    exact hd.giveBack hq
  | @finishDial i hi =>
    have hd : PlacedOK { s with dials := s.dials.set i .done } := h
    exact hd.giveBack hq
  | ignore | connect | returnEarly | permit | refuse => exact h

/-- The counters count what they say. -/
structure Counted (x : Heuristics) (dials : List DialPc) (handlers : List Handler) (backoffs : Nat) : Prop where
  refusals : x.connectBudgetRejections = BitVec.ofNat 64 (dials.countP (· = .refused))
  rejections : x.inboundConnectionsRejected = BitVec.ofNat 64 (handlers.countP Handler.rejected)
  errors : x.acceptErrors = BitVec.ofNat 64 backoffs

namespace Counted

variable {x : Heuristics} {D : List DialPc} {H : List Handler} {b i : Nat} {d e : DialPc} {y z : Handler}

theorem dial (h : Counted x D H b) (hd : D[i]? = some d) (he : decide (e = .refused) = decide (d = .refused)) :
    Counted x (D.set i e) H b :=
  { h with refusals := by rw [countP_set_same hd he]; exact h.refusals }

theorem refuse (h : Counted x D H b) (hd : D[i]? = some .called) :
    Counted x.registerConnectBudgetRejection (D.set i .refused) H b where
  refusals := by
    rw [countP_set_gain hd rfl rfl, BitVec.ofNat_add, ← h.refusals]
    rfl
  rejections := h.rejections
  errors := h.errors

theorem handler (h : Counted x D H b) (hy : H[i]? = some y) (hz : z.rejected = y.rejected) :
    Counted x D (H.set i z) b :=
  { h with rejections := by rw [countP_set_same hy hz]; exact h.rejections }

theorem spawn (h : Counted x D H b) (hy : y.rejected = false) : Counted x D (H ++ [y]) b where
  refusals := h.refusals
  rejections := by
    rw [List.countP_append, List.countP_singleton, hy, if_neg Bool.false_ne_true, Nat.add_zero]
    exact h.rejections
  errors := h.errors

theorem reject (h : Counted x D H b) (hy : H[i]? = some y) (hn : y.rejected = false) (hz : z.rejected = true) :
    Counted x.registerInboundRejection D (H.set i z) b where
  refusals := h.refusals
  rejections := by
    rw [countP_set_gain hy hn hz, BitVec.ofNat_add, ← h.rejections]
    rfl
  errors := h.errors

theorem backOff (h : Counted x D H b) : Counted x.registerAcceptError D H (b + 1) where
  refusals := h.refusals
  rejections := h.rejections
  errors := by
    rw [BitVec.ofNat_add, ← h.errors]
    rfl

end Counted

abbrev CountedOK (s : State) : Prop := Counted s.heuristics s.dials s.handlers s.backoffs

theorem CountedOK.giveBack (h : CountedOK s) : CountedOK s.giveBack := by
  obtain ⟨hh, hd, hx, -, -, -, hb⟩ := giveBack_frame s
  rw [CountedOK, hx, hd, hh, hb]
  exact h

theorem StepR.countedOK (h : CountedOK s) (hs : StepR s a s') : CountedOK s' := by
  cases hs with
  | listen | ignore | loop | wait | dropWaiting => exact h
  | backOff hl => exact h.backOff
  | accept hp | resume hl => exact h.spawn rfl
  | @dropGranted l addr hl => exact CountedOK.giveBack (s := s.loopGoto l .gone) h
  | @conclude i o addr hi ho =>
    refine h.handler hi ?_
    cases o <;> first | rfl | exact absurd rfl ho
  | reject hi => exact h.reject hi rfl rfl
  | @finish i o addr hi =>
    have hd : CountedOK { s with handlers := s.handlers.set i ⟨addr, .done o⟩ } := h.handler hi (by cases o <;> rfl)
    exact hd.giveBack
  | connect => exact { h with refusals := by simpa [List.countP_append] using h.refusals }
  | returnEarly hi | permit hi hp => exact h.dial hi rfl
  | refuse hi => exact h.refuse hi
  | @finishDial i hi =>
    have hd : CountedOK { s with dials := s.dials.set i .done } := h.dial hi rfl
    exact hd.giveBack

/-- No permit is lost or made: each is left, or with one listener, handler or
dial, and none is left while a listener waits. Every accepted connection is
with its listener or a handler, or went with its listener. The counters are,
modulo 2^64, the numbers of refused dials, of rejected connections and of
backoffs. -/
theorem budget_accounted (n : Nat) (s : State) (h : (acceptLoop n).Reachable s) :
    s.permits.permits + held s = n ∧
      (∀ (l k : Nat) addr, s.loops[l]? = some (.waiting k addr) → s.permits.permits = 0) ∧
      s.accepted = s.loops.countP LoopPc.hasConn + s.handlers.length + s.lost ∧
      s.heuristics.connectBudgetRejections = BitVec.ofNat 64 (s.dials.countP (· = .refused)) ∧
      s.heuristics.inboundConnectionsRejected = BitVec.ofNat 64 (s.handlers.countP Handler.rejected) ∧
      s.heuristics.acceptErrors = BitVec.ofNat 64 s.backoffs := by
  have hq := queueOK_reachable h
  have hp : PlacedOK s := h.invariant rfl fun hr hp _ hs => (step_sound hs).placedOK (queueOK_reachable hr) hp
  have hc : CountedOK s := h.invariant ⟨rfl, rfl, rfl⟩ fun _ hc _ hs => (step_sound hs).countedOK hc
  refine ⟨budgetOK_reachable h, fun l k addr hl => hq.fair.tight fun hw => ?_, hp, hc.refusals, hc.rejections, hc.errors⟩
  have hk := (hq.waits k).2 (.of_getElem? hl rfl)
  rw [hw] at hk
  cases hk

/-- A node with a budget of one, which a dial has, and a connection that
waits. -/
def backlog : List Act := [.listen, .signalReady 0 true, .connect, .tryAcquire 0, .accept 0 (.v4 1#32 1#16)]

theorem budget_accounted_backlog : ∃ s, (acceptLoop 1).Reachable s ∧ s.loops = [.waiting 0 (.v4 1#32 1#16)] ∧
    s.permits.permits = 0 ∧ held s = 1 ∧ s.accepted = 1 := by
  obtain ⟨s, hs, hp⟩ := (acceptLoop 1).exists_reachable backlog
    (fun s => s.loops = [.waiting 0 (.v4 1#32 1#16)] ∧ s.accepted = 1) (by decide +kernel)
  obtain ⟨hl, ha⟩ := of_decide_eq_true hp
  obtain ⟨hb, hw, -⟩ := budget_accounted 1 s hs
  have h₀ := hw 0 0 (.v4 1#32 1#16) (by rw [hl]; rfl)
  exact ⟨s, hs, hl, h₀, by omega, ha⟩

/-! ## Nobody overtakes -/

/-- A step from one state to the next, for somebody who waits in both: the
queue ahead gets no longer, and is shorter by one for a permit that is given
back. -/
theorem StepR.ahead (hq : QueueOK s) (hk : k ∈ s.permits.waiters) (hk' : k ∈ s'.permits.waiters) (hs : StepR s a s') :
    s'.permits.ahead k + (if returns a then 1 else 0) ≤ s.permits.ahead k := by
  cases hs with
  | finish hi =>
    rw [giveBack_permits] at hk' ⊢
    exact (hq.fair.ahead_release hk').le
  | finishDial hi =>
    rw [giveBack_permits] at hk' ⊢
    exact (hq.fair.ahead_release hk').le
  | dropGranted hl =>
    dsimp only at hk' ⊢
    rw [giveBack_permits] at hk' ⊢
    have := hq.fair.ahead_release hk'
    exact Nat.le_of_lt (Nat.lt_of_succ_le this.le)
  | wait hl hp => exact (Semaphore.ahead_append hk _).le
  | @dropWaiting l j addr hl =>
    have hjk : j ≠ k := by
      rintro rfl
      exact (hq.fair.mem_cancel.1 hk').2 rfl
    exact Semaphore.ahead_cancel hjk
  | permit hi hp =>
    rw [hq.fair.nil_of_permit (Semaphore.tryAcquire_some hp).1] at hk
    cases hk
  | ignore ha => rw [ha]; exact le_rfl
  | loop ha => rw [ha]; exact le_rfl
  | _ => exact le_rfl

theorem StepR.nextTicket_le (hs : StepR s a s') : s.nextTicket ≤ s'.nextTicket := by
  cases hs with
  | wait => exact Nat.le_succ _
  | dropGranted =>
    dsimp only
    rw [(giveBack_frame _).2.2.2.1]
    exact le_rfl
  | finish | finishDial =>
    rw [(giveBack_frame _).2.2.2.1]
  | _ => exact le_rfl

/-- Only new tickets get into the queue. -/
theorem StepR.queued (hs : StepR s a s') (hk : k ∈ s'.permits.waiters) : k ∈ s.permits.waiters ∨ s.nextTicket ≤ k := by
  have back : ∀ {t : State}, k ∈ t.giveBack.permits.waiters → t.permits = s.permits → k ∈ s.permits.waiters := by
    intro t hmem hp
    rw [giveBack_permits, hp] at hmem
    rcases s.permits.release_cases with ⟨-, he⟩ | ⟨j, ks, hw, he⟩
    · rw [he] at hmem; exact hmem
    · rw [he] at hmem; rw [hw]; exact List.mem_cons_of_mem _ hmem
  cases hs with
  | wait hl hp =>
    rcases List.mem_append.1 hk with hk | hk
    · exact .inl hk
    · exact .inr (List.mem_singleton.1 hk).ge
  | dropWaiting hl => exact .inl (List.mem_of_mem_erase hk)
  | dropGranted hl => exact .inl (back hk rfl)
  | finish hi => exact .inl (back hk rfl)
  | finishDial hi => exact .inl (back hk rfl)
  | permit hi hp =>
    obtain ⟨-, rfl⟩ := Semaphore.tryAcquire_some hp
    exact .inl hk
  | _ => exact .inl hk

/-- A ticket that has left the queue does not come back. -/
theorem run_served {as : List Act} (hr : (acceptLoop n).run s as = some s') (hn : k < s.nextTicket)
    (hk : k ∉ s.permits.waiters) : k ∉ s'.permits.waiters := by
  have hinv : k ∉ s'.permits.waiters ∧ k < s'.nextTicket := by
    refine Machine.run_invariant (P := fun t => k ∉ t.permits.waiters ∧ k < t.nextTicket) (fun {t t' a} ht ha => ?_)
      ⟨hk, hn⟩ hr
    have hs := step_sound ha
    refine ⟨fun hmem => ?_, ht.2.trans_le hs.nextTicket_le⟩
    rcases hs.queued hmem with hmem | hle
    · exact ht.1 hmem
    · exact absurd ht.2 hle.not_gt
  exact hinv.1

/-- Over a run, for somebody who waits at its end as at its beginning. -/
theorem run_ahead (h : (acceptLoop n).Reachable s) {as : List Act} (hr : (acceptLoop n).run s as = some s')
    (hk : k ∈ s.permits.waiters) (hk' : k ∈ s'.permits.waiters) :
    s'.permits.ahead k + as.countP returns ≤ s.permits.ahead k := by
  induction as generalizing s with
  | nil =>
    simp only [Machine.run, Option.some.injEq] at hr
    rw [hr, List.countP_nil, Nat.add_zero]
  | cons a as ih =>
    obtain ⟨t, ha, hr⟩ := Machine.run_cons.1 hr
    have hq := queueOK_reachable h
    have hs := step_sound ha
    have hkt : k ∈ t.permits.waiters := by
      by_contra hkt
      have hn : k < t.nextTicket := (hq.fresh k ((hq.waits k).1 hk)).trans_le hs.nextTicket_le
      exact run_served hr hn hkt hk'
    have h₁ := hs.ahead hq hk hkt
    have h₂ := ih (.step h trivial ha) hr hkt
    rw [List.countP_cons]
    omega

/-- What has become of the connection that listener `l` had in the queue, with
`m` handlers there: it is in the queue, its permit is there, or it has a
handler. -/
def Pursued (l k m : Nat) (addr : SocketAddr) (s : State) : Prop :=
  s.loops[l]? = some (.waiting k addr) ∨ s.loops[l]? = some (.granted addr) ∨
    addr ∈ (s.handlers.map Handler.addr).drop m

theorem giveBack_loop {addr : SocketAddr}
    (hl : s.loops[l]? = some (.waiting k addr) ∨ s.loops[l]? = some (.granted addr)) :
    s.giveBack.loops[l]? = some (.waiting k addr) ∨ s.giveBack.loops[l]? = some (.granted addr) := by
  unfold State.giveBack
  split
  next j permits _ =>
    simp only [List.getElem?_map]
    rcases hl with hl | hl
    · rw [hl]
      simp only [Option.map_some, LoopPc.grant]
      split
      · exact .inr rfl
      · exact .inl rfl
    · rw [hl]
      exact .inr rfl
  · exact hl

/-- Another listener moves. -/
theorem Pursued.loop {m j : Nat} {addr : SocketAddr} (h : Pursued l k m addr s) (hj : s.loops[j]? = some pc)
    (hn : l = j → pc.hasConn = false) : Pursued l k m addr (s.loopGoto j pc') := by
  by_cases hlj : l = j
  · subst hlj
    have hpc := hn rfl
    rcases h with h | h | h
    · rw [hj] at h; cases h; cases hpc
    · rw [hj] at h; cases h; cases hpc
    · exact .inr (.inr h)
  · have hsame : (s.loops.set j pc')[l]? = s.loops[l]? := by rw [getElem?_set hj, if_neg fun he => hlj he.symm]
    rcases h with h | h | h
    · exact .inl (hsame.trans h)
    · exact .inr (.inl (hsame.trans h))
    · exact .inr (.inr h)

/-- The handlers change in what is not their address, or one more is there. -/
theorem Pursued.handlers {m : Nat} {addr : SocketAddr} {H : List Handler} (h : Pursued l k m addr s)
    (hH : ∀ b ∈ (s.handlers.map Handler.addr).drop m, b ∈ (H.map Handler.addr).drop m) :
    Pursued l k m addr { s with handlers := H } := by
  rcases h with h | h | h
  · exact .inl h
  · exact .inr (.inl h)
  · exact .inr (.inr (hH _ h))

theorem StepR.handlers_le (hs : StepR s a s') : s.handlers.length ≤ s'.handlers.length := by
  cases hs with
  | accept | resume =>
    simp only [State.spawn, State.loopGoto, List.length_append]
    exact Nat.le_add_right _ _
  | conclude | reject => rw [List.length_set]
  | dropGranted =>
    dsimp only
    rw [(giveBack_frame _).1]
    exact le_rfl
  | finish => rw [(giveBack_frame _).1, List.length_set]
  | finishDial => rw [(giveBack_frame _).1]
  | _ => exact le_rfl

theorem Pursued.giveBack {m : Nat} {addr : SocketAddr} (h : Pursued l k m addr s) : Pursued l k m addr s.giveBack := by
  rcases h with h | h | h
  · exact (giveBack_loop (.inl h)).imp_right .inl
  · exact (giveBack_loop (k := k) (.inr h)).imp_right .inl
  · exact .inr (.inr ((giveBack_frame s).1 ▸ h))

theorem StepR.pursued {m : Nat} {addr : SocketAddr} (hm : m ≤ s.handlers.length) (hd : a ≠ .dropLoop l)
    (h : Pursued l k m addr s) (hs : StepR s a s') : Pursued l k m addr s' := by
  have hm' : m ≤ (s.handlers.map Handler.addr).length := by rwa [List.length_map]
  have spawned : ∀ x : Handler, ∀ b ∈ (s.handlers.map Handler.addr).drop m,
      b ∈ ((s.handlers ++ [x]).map Handler.addr).drop m := by
    intro x b hb
    rw [List.map_append, List.map_singleton, List.drop_append_of_le_length hm']
    exact List.mem_append_left _ hb
  have moved : ∀ {i : Nat} {x y : Handler}, s.handlers[i]? = some x → y.addr = x.addr →
      ∀ b ∈ (s.handlers.map Handler.addr).drop m, b ∈ ((s.handlers.set i y).map Handler.addr).drop m := by
    intro i x y hx hy b hb
    rwa [map_set_same hx hy]
  cases hs with
  | listen =>
    rcases h with h | h | h
    · exact .inl (getElem?_append_of_some h _)
    · exact .inr (.inl (getElem?_append_of_some h _))
    · exact .inr (.inr h)
  | loop ha hl hc hc' => exact h.loop hl fun _ => hc
  | backOff hl => exact h.loop hl fun _ => rfl
  | accept hp => exact h.handlers (spawned _)
  | wait hl hp => exact h.loop hl fun _ => rfl
  | @resume j addr' hl =>
    by_cases hlj : l = j
    · subst hlj
      refine .inr (.inr ?_)
      rcases h with h | h | h
      · rw [hl] at h; cases h
      · rw [hl] at h
        cases h
        simp only [State.spawn, State.loopGoto, List.map_append, List.map_singleton]
        rw [List.drop_append_of_le_length hm']
        exact List.mem_append_right _ List.mem_cons_self
      · exact spawned _ _ h
    · have hj : Pursued l k m addr (s.loopGoto j .accepting) := h.loop hl fun he => absurd he hlj
      exact hj.handlers (spawned _)
  | dropWaiting hl => exact h.loop hl fun he => absurd (congrArg Act.dropLoop he.symm) hd
  | @dropGranted j _ hl =>
    have hg : Pursued l k m addr (s.loopGoto j .gone) :=
      h.loop hl fun he => absurd (congrArg Act.dropLoop he.symm) hd
    exact hg.giveBack
  | conclude hi => exact h.handlers (moved hi rfl)
  | reject hi => exact h.handlers (moved hi rfl)
  | @finish i o addr' hi => exact (h.handlers (moved (y := ⟨addr', .done o⟩) hi rfl)).giveBack
  | finishDial hi => exact Pursued.giveBack (s := { s with dials := _ }) h
  | ignore | connect | returnEarly | permit | refuse => exact h

theorem run_pursued {m : Nat} {addr : SocketAddr} {as : List Act} (hr : (acceptLoop n).run s as = some s')
    (hm : m ≤ s.handlers.length) (hd : .dropLoop l ∉ as) (h : Pursued l k m addr s) : Pursued l k m addr s' := by
  induction as generalizing s with
  | nil =>
    simp only [Machine.run, Option.some.injEq] at hr
    exact hr ▸ h
  | cons a as ih =>
    obtain ⟨t, ha, hr⟩ := Machine.run_cons.1 hr
    have hs := step_sound ha
    rw [List.mem_cons, not_or] at hd
    exact ih hr (hm.trans hs.handlers_le) hd.2 (hs.pursued hm (fun he => hd.1 he.symm) h)

/-- An inbound connection that waits for a permit is not overtaken, whatever
is accepted or dialed meanwhile: once handlers and dials have given back one
permit more than there were connections ahead of it, and unless its listener
is dropped, its own permit is there, or its handler is. -/
theorem inbound_served (n : Nat) (s s' : State) (as : List Act) (h : (acceptLoop n).Reachable s)
    (hr : (acceptLoop n).run s as = some s') (l k : Nat) (addr : SocketAddr)
    (hl : s.loops[l]? = some (.waiting k addr)) (hd : .dropLoop l ∉ as)
    (hn : s.permits.ahead k < as.countP returns) :
    s'.loops[l]? = some (.granted addr) ∨ addr ∈ (s'.handlers.map Handler.addr).drop s.handlers.length := by
  have hk := ((queueOK_reachable h).waits k).2 (.of_getElem? hl rfl)
  have hout : k ∉ s'.permits.waiters := fun hk' => by
    have := run_ahead h hr hk hk'
    omega
  refine (run_pursued hr le_rfl hd (.inl hl)).resolve_left fun hl' => hout ?_
  exact ((queueOK_reachable (h.run hr)).waits k).2 (.of_getElem? hl' rfl)

/-- Another dial is refused, and the first one ends. -/
def freed : List Act := [.connect, .tryAcquire 1, .finishDial 0]

theorem inbound_served_freed :
    ∃ s s', (acceptLoop 1).Reachable s ∧ (acceptLoop 1).run s freed = some s' ∧
      s.loops = [.waiting 0 (.v4 1#32 1#16)] ∧ s'.dials = [.done, .refused] ∧
      (s'.loops[0]? = some (.granted (.v4 1#32 1#16)) ∨
        .v4 1#32 1#16 ∈ (s'.handlers.map Handler.addr).drop s.handlers.length) := by
  obtain ⟨s, hs, hp⟩ := (acceptLoop 1).exists_reachable backlog
    (fun s => s.loops = [.waiting 0 (.v4 1#32 1#16)] ∧ s.permits.waiters = [0] ∧
      ((acceptLoop 1).run s freed).any fun s' => s'.dials = [.done, .refused]) (by decide +kernel)
  obtain ⟨hl, hw, hrun⟩ := of_decide_eq_true hp
  cases hs' : (acceptLoop 1).run s freed with
  | none => rw [hs'] at hrun; cases hrun
  | some s' =>
    rw [hs'] at hrun
    refine ⟨s, s', hs, hs', hl, of_decide_eq_true hrun, ?_⟩
    refine inbound_served 1 s s' freed hs hs' 0 0 _ (by rw [hl]; rfl) (by decide) ?_
    rw [Semaphore.ahead, hw]
    decide

end Pea2Pea.AcceptLoop
