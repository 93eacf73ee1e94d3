/-
The pairing of OnConnect and OnDisconnect, shutdown included: in an
undisturbed run with hooks that are not abortable, every connection that
enters `active` gets one trigger of each protocol, each of them received and
turned into one hook task that is not aborted, and no other connection gets
any.
-/
import Pea2Pea.Undisturbed

namespace Pea2Pea.Hooks

open Pool Tasks

/-- The OnConnect trigger of connection `k` is ahead: its setup is about to
spawn the scheduling task, or that task can make the trigger. -/
def ConnectAhead (cfg : NodeConfig) (s : State) (k : Nat) : Prop :=
  (∃ t ∈ s.base.base.setups, t.pc.owedId = some k) ∨
    ∃ (n : Nat) (u : Sched), s.base.base.scheds[n]? = some u ∧ u.id = k ∧ u.pc = .running ∧
      (∀ t ∈ s.connect.triggers, t.owner ≠ n) ∧ (step cfg false s (.trigger .connect n)).isSome = true

/-- The loop has received trigger `q`, once, and spawned its one hook task,
which is not aborted. -/
def Received (s : State) (side : Side) (q : Nat) : Prop :=
  (s.get side).loop.log.count q = 1 ∧
    ∃ (h : Nat) (y : Hook), s.hooks[h]? = some y ∧ y.side = side ∧ y.trigger = q ∧ y.status ≠ .aborted ∧
      ∀ (h' : Nat) y', s.hooks[h']? = some y' → y'.side = side → y'.trigger = q → h' = h

/-- Trigger `q` is on its way, in an open channel, to a loop that is alive. -/
def Underway (s : State) (side : Side) (q : Nat) : Prop :=
  (∃ r, (s.get side).loop.reqs[q]? = some r ∧ (r.pc = .sending ∨ r.pc = .acquired ∨ r.pc = .queued)) ∧
    (s.get side).loop.chan.closed = false ∧ (s.get side).task ≠ none ∧ (s.get side).dropped = false ∧
    (s.get side).loop.pc ≠ .unwinding ∧ (s.get side).loop.pc ≠ .exited

structure Paired (cfg : NodeConfig) (s : State) : Prop where
  /-- No connection has two triggers of one protocol. -/
  once : ∀ side, UniqueBy (fun t : Trigger => some t.id) (s.get side).triggers
  /-- Only a connection that entered `active` has any. -/
  entered : ∀ side, ∀ t ∈ (s.get side).triggers, Owned Setup.enteredId s.base.base.setups t.id
  /-- Such a connection has its OnConnect trigger, or it is ahead. -/
  connect : ∀ k, Owned Setup.enteredId s.base.base.setups k →
    (∃ t ∈ s.connect.triggers, t.id = k) ∨ ConnectAhead cfg s k
  /-- By the time it is removed from `active`, it has its OnDisconnect
  trigger, and the hook has finished. -/
  disconnect : ∀ k, Owned Setup.enteredId s.base.base.setups k → InActive s.base.base.active k ∨
    ∃ (q : Nat) (t : Trigger), s.disconnect.triggers[q]? = some t ∧ t.id = k ∧ Received s .disconnect q ∧
      ∀ (h : Nat) y, s.hooks[h]? = some y → y.side = .disconnect → y.trigger = q → y.status = .finished
  /-- A trigger is received, or its caller waits and it is on its way. -/
  received : ∀ side (q : Nat) t, (s.get side).triggers[q]? = some t →
    Received s side q ∨ (t.caller.ended = false ∧ Underway s side q)
  /-- No trigger is sent to a channel after it was closed. -/
  closed : ∀ side, (s.get side).loop.chan.closed = true →
    (∀ r ∈ (s.get side).loop.reqs, r.pc = .processed) ∧ ∀ i, step cfg false s (.trigger side i) = none
  /-- Once a `shut_down` is past its drains, every connection that entered
  `active` has both triggers, received. -/
  shutdown : ∀ u ∈ s.base.shuts, u.pc.pastSched = true → ∀ k, Owned Setup.enteredId s.base.base.setups k →
    ∀ side, ∃ (q : Nat) (t : Trigger), (s.get side).triggers[q]? = some t ∧ t.id = k ∧ Received s side q

theorem owesHook_of_owedId {pc : SetupPc} {k : Nat} (h : pc.owedId = some k) : pc.owesHook = true := by
  unfold SetupPc.owedId at h
  split at h
  · rfl
  · rfl
  · cases h

/-- A disconnect that has removed an instance had claimed it, and is past its
hook. -/
theorem removedId_cases {d : Disc} {k : Nat} (h : d.removedId = some k) :
    d.claimedId = some k ∧ DiscPc.finalized d.pc = true := by
  unfold Disc.removedId at h
  split at h
  next hpc => rw [Disc.claimedId, hpc]; exact ⟨h, rfl⟩
  next hpc => rw [Disc.claimedId, hpc]; exact ⟨h, rfl⟩
  · cases h

/-- A connection has at most one trigger on each side. -/
theorem trigger_once {cfg : NodeConfig} {abortable : Bool} {s : State} (hr : (hooks cfg abortable).Reachable s)
    (side : Side) : UniqueBy (fun t : Trigger => some t.id) (s.get side).triggers := by
  intro i j t z k hi hj ht hz
  cases ht
  have hid : z.id = t.id := Option.some.inj hz
  have hC := callersOK_reachable hr
  have hbase := (Shutdown.projects cfg).reachable ((projects cfg abortable).reachable hr)
  have howner : z.owner = t.owner := by
    cases side with
    | connect =>
      obtain ⟨u, hu, huid, -⟩ := hC.sched t (List.mem_of_getElem? hi)
      obtain ⟨v, hv, hvid, -⟩ := hC.sched z (List.mem_of_getElem? hj)
      exact (schedulingOK_reachable hbase).unique _ _ v u t.id hv hu (congrArg some (hvid.trans hid)) (congrArg some huid)
    | disconnect =>
      obtain ⟨d, hd, hdid, -⟩ := hC.disc t (List.mem_of_getElem? hi)
      obtain ⟨e, he, heid, -⟩ := hC.disc z (List.mem_of_getElem? hj)
      exact (ledgerOK_reachable hbase).claims _ _ e d t.id he hd (heid.trans (congrArg some hid)) hdid
  exact (handlersOK_reachable hr side).owners i j t z t.owner hi hj rfl (congrArg some howner)

section

variable {cfg : NodeConfig} {s : State} (h : (hooks cfg false).Reaches (fun s a => undisturbed s a = true) s)
include h

theorem ledger : LedgerOK s.base.base :=
  ledgerOK_reachable ((Shutdown.projects cfg).reachable ((projects cfg false).reachable h))

/-- A trigger with its hook's handle was received. -/
theorem received_of_hook (side : Side) {q : Nat} {t : Trigger} {w : Handle}
    (ht : (s.get side).triggers[q]? = some t) (hw : t.reply.hook = some w) : Received s side q := by
  have hH := handlersOK_reachable h.reachable side
  obtain ⟨r, hr⟩ := hH.req ht
  obtain ⟨y, hy, hside, htr⟩ := hH.hook q t w ht hw
  have hrec : r.pc.received = true := (hH.received q t r ht hr).mpr (by simp [hw])
  have hlog := List.count_eq_one_of_mem hH.loop.log_nodup ((hH.loop.log q).mpr ⟨r, hr, hrec⟩)
  refine ⟨hlog, w, y, hy, hside, htr, ?_, ?_⟩
  · intro hab
    refine (unabortedOK_reaches h).none ?_
    rw [← hab]
    exact List.mem_map_of_mem (List.mem_of_getElem? hy)
  · intro v z hz hzside hztr
    obtain ⟨t', ht', hv⟩ := hH.back v z hz hzside
    rw [hztr, ht] at ht'; cases ht'
    rw [hw] at hv; cases hv
    rfl

theorem received_or_underway (side : Side) {q : Nat} {t : Trigger} (ht : (s.get side).triggers[q]? = some t) :
    Received s side q ∨ (t.caller.ended = false ∧ Underway s side q) := by
  have htm := List.mem_of_getElem? ht
  have hH := handlersOK_reachable h.reachable side
  have hS := sidesOK_reaches h
  cases hw : t.reply.hook with
  | some w => exact .inl (received_of_hook h side ht hw)
  | none =>
    obtain ⟨r, hr⟩ := hH.req ht
    have hlisten : t.caller.listening = true := by
      cases hc : t.caller.listening with
      | true => rfl
      | false =>
        obtain ⟨w, hread⟩ := ((hS side).triggers t htm).read hc
        rw [hread] at hw; cases hw
    have hnrec : r.pc.received ≠ true := fun hrec => (hH.received q t r ht hr).mp hrec hw
    have hline := (hS side).reqs r (List.mem_of_getElem? hr)
    have hopen : (s.get side).loop.chan.closed = false := by
      cases hc : (s.get side).loop.chan.closed with
      | false => rfl
      | true =>
        have := hS.closed_processed h.reachable hc hr
        rw [this] at hnrec
        exact absurd rfl hnrec
    have hrunning : ¬ ((s.get side).loop.pc = .unwinding ∨ (s.get side).loop.pc = .exited) := fun hpc => by
      have := (hH.loop.ended hpc).closed
      rw [hopen] at this; cases this
    obtain ⟨x, hx, hid⟩ := trigger_entered h.reachable htm
    refine .inr ⟨CallerPc.not_ended hlisten, ⟨r, hr, ?_⟩, hopen, ?_, (hS side).alive, ?_, ?_⟩
    · cases hpc : r.pc <;> simp_all [HandlerLoop.ReqPc.received, ReqPc.inLine]
    · exact (enabledOK_reaches h).wired t.id ⟨x, hx, Setup.connId_of_enteredId hid⟩ side
    · exact fun hpc => hrunning (.inl hpc)
    · exact fun hpc => hrunning (.inr hpc)

/-- The trigger of a caller that has been served. -/
theorem served_trigger (side : Side) {i : Nat} (hs : (s.get side).served i = true) :
    ∃ (q : Nat) (t : Trigger) (w : Handle), (s.get side).triggers[q]? = some t ∧ t.owner = i ∧ t.caller = .over ∧
      t.reply = .read w := by
  obtain ⟨t, ht, ho, hc⟩ := Handler.served_iff.mp hs
  obtain ⟨q, hq⟩ := List.getElem?_of_mem ht
  obtain ⟨w, hw⟩ := ((sidesOK_reaches h side).triggers t ht).read (by rw [hc]; rfl)
  exact ⟨q, t, w, hq, ho, hc, hw⟩

theorem connect_triggered {k : Nat} (hk : Owned Setup.enteredId s.base.base.setups k) :
    (∃ t ∈ s.connect.triggers, t.id = k) ∨ ConnectAhead cfg s k := by
  obtain ⟨x, hx, hid⟩ := hk
  rcases (enabledOK_reaches h).hooked.scheduled x hx k hid with ho | ⟨u, hu, rfl⟩
  · exact .inr (.inl ⟨x, hx, ho⟩)
  · obtain ⟨n, hn⟩ := List.getElem?_of_mem hu
    by_cases ht : ∃ t ∈ s.connect.triggers, t.owner = n
    · obtain ⟨t, ht, rfl⟩ := ht
      obtain ⟨v, hv, hvid, -⟩ := (callersOK_reachable h.reachable).sched t ht
      rw [hn] at hv; cases hv
      exact .inl ⟨t, ht, hvid.symm⟩
    · have hfree : ∀ t ∈ s.connect.triggers, t.owner ≠ n := fun t htm ho => ht ⟨t, htm, ho⟩
      have hrun : u.pc = .running := by
        by_contra hpc
        obtain ⟨q, t, w, hq, ho, -⟩ := served_trigger h .connect ((servedOK_reaches h).scheds n u hn hpc)
        exact hfree t (List.mem_of_getElem? hq) ho
      refine .inr (.inr ⟨n, u, hn, rfl, hrun, hfree, ?_⟩)
      have htask := (enabledOK_reaches h).wired u.id ⟨x, hx, Setup.connId_of_enteredId hid⟩ .connect
      obtain ⟨w, hw⟩ := Option.ne_none_iff_exists'.mp htask
      have hcaller : s.callerId .connect n = some u.id := by simp [State.callerId, hn, hrun]
      simp only [step, hcaller, hw, Option.bind_eq_bind, Option.bind_some]
      rw [if_pos ⟨hfree, by simp⟩]
      rfl

theorem disconnect_triggered {k : Nat} (hk : Owned Setup.enteredId s.base.base.setups k) :
    InActive s.base.base.active k ∨
      ∃ (q : Nat) (t : Trigger), s.disconnect.triggers[q]? = some t ∧ t.id = k ∧ Received s .disconnect q ∧
        ∀ (w : Nat) y, s.hooks[w]? = some y → y.side = .disconnect → y.trigger = q → y.status = .finished := by
  have hE := enteredOK_reachable ((Shutdown.projects cfg).reachable ((projects cfg false).reachable h))
  refine (hE k hk).imp_right fun ⟨d, hd, hid⟩ => ?_
  obtain ⟨hcl, hfin⟩ := removedId_cases hid
  obtain ⟨j, hj⟩ := List.getElem?_of_mem hd
  obtain ⟨q, t, w, hq, rfl, hover, hread⟩ := served_trigger h .disconnect
    ((servedOK_reaches h).discs j d hj hfin)
  have htm := List.mem_of_getElem? hq
  obtain ⟨e, he, heid, -⟩ := (callersOK_reachable h.reachable).disc t htm
  rw [hj] at he; cases he
  rw [hcl] at heid; cases heid
  have hrec := received_of_hook h .disconnect hq (w := w) (by rw [hread]; rfl)
  refine ⟨q, t, hq, rfl, hrec, fun v y hy hside htr => ?_⟩
  obtain ⟨t', ht', hv⟩ := (handlersOK_reachable h.reachable .disconnect).back v y hy hside
  rw [htr, show (s.get .disconnect).triggers[q]? = some t from hq] at ht'; cases ht'
  rw [hread] at hv; cases hv
  -- the disconnect waited for the hook's end
  obtain ⟨z, hz, hne⟩ := over_iff.mp (throughOK_reaches h t htm hover w hread)
  rw [hy] at hz; cases hz
  have hnab : y.status ≠ .aborted := fun hab =>
    (unabortedOK_reaches h).none (by rw [← hab]; exact List.mem_map_of_mem (List.mem_of_getElem? hy))
  cases hst : y.status <;> simp_all

/-- With everything drained nobody is left to make a trigger. -/
theorem no_caller (hD : Drained s.base.base) (side : Side) (i : Nat) : s.callerId side i = none := by
  cases hid : s.callerId side i with
  | none => rfl
  | some k =>
    cases side with
    | connect =>
      obtain ⟨u, hu, hrun⟩ := Option.bind_eq_some_iff.mp hid
      split at hrun
      next hpc => exact absurd hpc (hD.unscheduled.scheds u (List.mem_of_getElem? hu))
      · cases hrun
    | disconnect =>
      obtain ⟨d, hd, hcl⟩ := Option.bind_eq_some_iff.mp hid
      split at hcl
      next id hpc =>
        obtain ⟨c, hc, -⟩ := (ledger h).fin d (List.mem_of_getElem? hd) id (by rw [hpc]; rfl)
        rw [Table.keys_eq_empty_iff.mp hD.empty] at hc
        cases hc
      · cases hcl

/-- Past its drains, a `shut_down` has left nothing unpaired. -/
theorem shutdown_triggered (hD : Drained s.base.base) {k : Nat} (hk : Owned Setup.enteredId s.base.base.setups k)
    (side : Side) : ∃ (q : Nat) (t : Trigger), (s.get side).triggers[q]? = some t ∧ t.id = k ∧ Received s side q := by
  cases side with
  | connect =>
    rcases connect_triggered h hk with ⟨t, ht, rfl⟩ | ⟨x, hx, ho⟩ | ⟨n, u, hu, -, hpc, -⟩
    · obtain ⟨q, hq⟩ := List.getElem?_of_mem ht
      refine ⟨q, t, hq, rfl, (received_or_underway h .connect hq).resolve_right fun hun => ?_⟩
      obtain ⟨u, hu, -, hrun⟩ := (callersOK_reachable h.reachable).sched t ht
      exact hD.unscheduled.scheds u (List.mem_of_getElem? hu) (hrun hun.1)
    · have := hD.unscheduled.setups x hx
      rw [owesHook_of_owedId ho] at this; cases this
    · exact absurd hpc (hD.unscheduled.scheds u (List.mem_of_getElem? hu))
  | disconnect =>
    rcases disconnect_triggered h hk with ⟨addr, c, hc, -⟩ | ⟨q, t, hq, hid, hrec, -⟩
    · rw [Table.keys_eq_empty_iff.mp hD.empty] at hc
      cases hc
    · exact ⟨q, t, hq, hid, hrec⟩

end

/-- OnConnect and OnDisconnect are paired in every undisturbed run. -/
theorem hooks_paired (cfg : NodeConfig) (s : State)
    (h : (hooks cfg false).Reaches (fun s a => undisturbed s a = true) s) : Paired cfg s where
  once := trigger_once h.reachable
  entered side t ht := trigger_entered h.reachable ht
  connect k := connect_triggered h
  disconnect k := disconnect_triggered h
  received side q t := received_or_underway h side
  closed side hc := by
    have hS := sidesOK_reaches h
    have hD := Shutdown.drained_reachable ((projects cfg false).reachable h) ((hS side).signal ((hS side).closed hc))
    refine ⟨fun r hr => ?_, fun i => ?_⟩
    · obtain ⟨q, hq⟩ := List.getElem?_of_mem hr
      exact hS.closed_processed h.reachable hc hq
    · simp [step, no_caller h hD side i]
  shutdown u hu hpc k hk := by
    have hP := (Shutdown.shutsOK_reachable ((projects cfg false).reachable h)).progress u hu
    exact shutdown_triggered h (hP.drained hpc) hk

/-- Both protocols are enabled, `peer` is connected and has its OnConnect
hook; a disconnect and a `shut_down` come together. -/
def pairedRun : List Act := List.flatten
  [[.enable .onConnect, .install 0, .lockTasks 0, .checkFlag 0, .registerTask 0, .publish 0,
      .enable .onDisconnect, .install 1, .lockTasks 1, .checkFlag 1, .registerTask 1, .publish 1].map .base,
    Shutdown.connected.map .base,
    [.loop .connect .subscribe, .loop .disconnect .subscribe,
      .trigger .connect 0, .loop .connect (.acquire 0), .loop .connect (.write 0), .loop .connect .pollRecv,
      .respond .connect 0, .base (.base (.schedDone 0)), .base (.base (.schedNotify 0)),
      .base (.base (.disconnect peer .user none)), .base (.base (.claim 0)),
      .base .shutDown, .base (.begin 0), .base (.takeTasks 0), .base (.snapshot 0 [peer]), .base (.base (.claim 1)),
      .trigger .disconnect 0, .loop .disconnect (.acquire 0), .loop .disconnect (.write 0),
      .loop .disconnect .pollRecv, .respond .disconnect 0, .register 0, .hookDone 1, .waited 0,
      .base (.base (.finalize 0)), .base (.base (.remove 0)), .base (.base (.notifyDrain 0)),
      .base (.fannedOut 0), .base (.enableWaiter 0), .base (.check 0), .base (.enableWaiter 0), .base (.check 0),
      .base (.signalHandlers 0 true)]]

theorem hooks_paired_pairedRun : ∃ s, (hooks threeSlots false).Reaches (fun s a => undisturbed s a = true) s ∧
    s.hooks = [⟨.connect, 0, .running⟩, ⟨.disconnect, 0, .finished⟩] ∧ s.base.signal = true ∧
    Paired threeSlots s := by
  obtain ⟨s, hs, hp⟩ := ((hooks threeSlots false).guarded undisturbed).exists_reachable pairedRun
    (fun s => s.hooks = [⟨.connect, 0, .running⟩, ⟨.disconnect, 0, .finished⟩] ∧ s.base.signal = true)
    (by decide +kernel)
  have hr : (hooks threeSlots false).Reaches (fun s a => undisturbed s a = true) s :=
    .of_guarded (fun s a ha => ha) hs
  obtain ⟨hhooks, hsignal⟩ := of_decide_eq_true hp
  exact ⟨s, hr, hhooks, hsignal, hooks_paired threeSlots s hr⟩

end Pea2Pea.Hooks
