/-
Triggers, requests and hook tasks, in every reachable state: a trigger's
request is received once, by a loop that then spawns its one hook; the
caller stays where it is until it is through with the trigger, or dropped.
-/
import Pea2Pea.HandlerLoopFacts
import Pea2Pea.Hooks
import Pea2Pea.Lifetime
import Pea2Pea.ShutdownFacts

namespace Pea2Pea.Hooks

open Pool
open HandlerLoop (LoopOK ReqPc)
open Tasks (abort abortAll)

/-! ## One side -/

/-- A protocol's handler against the hook tasks. -/
structure HandlerOK (side : Side) (x : Handler) (hooks : List Hook) : Prop where
  loop : LoopOK .hook x.loop
  length : x.triggers.length = x.loop.reqs.length
  received : ∀ (q : Nat) t r, x.triggers[q]? = some t → x.loop.reqs[q]? = some r →
    (r.pc.received = true ↔ t.reply.hook ≠ none)
  hook : ∀ (q : Nat) t h, x.triggers[q]? = some t → t.reply.hook = some h →
    ∃ y, hooks[h]? = some y ∧ y.side = side ∧ y.trigger = q
  back : ∀ (h : Nat) y, hooks[h]? = some y → y.side = side →
    ∃ t, x.triggers[y.trigger]? = some t ∧ t.reply.hook = some h
  owners : UniqueBy (fun t : Trigger => some t.owner) x.triggers

/-- What the hook is for. -/
def Hook.origin (y : Hook) : Side × Nat := (y.side, y.trigger)

namespace HandlerOK

variable {side : Side} {x : Handler} {hooks hooks' : List Hook} {q : Nat} {t : Trigger}

/-- A request with its trigger. -/
theorem req (h : HandlerOK side x hooks) (ht : x.triggers[q]? = some t) : ∃ r, x.loop.reqs[q]? = some r := by
  have hlt := (List.getElem?_eq_some_iff.mp ht).1
  rw [h.length] at hlt
  exact ⟨_, List.getElem?_eq_getElem hlt⟩

/-- A step of the loop or of a send that receives nothing. -/
theorem loopStep {l : HandlerLoop.State} (h : HandlerOK side x hooks) (hl : LoopOK .hook l)
    (hr : l.reqs.map (·.pc.received) = x.loop.reqs.map (·.pc.received)) (T : Option Handle) (D : Bool) :
    HandlerOK side { x with loop := l, task := T, dropped := D } hooks where
  loop := hl
  length := by
    have := congrArg List.length hr
    simp only [List.length_map] at this
    exact h.length.trans this.symm
  received k t r ht hk := by
    have hsame : (l.reqs.map (·.pc.received))[k]? = (x.loop.reqs.map (·.pc.received))[k]? := by rw [hr]
    rw [List.getElem?_map, List.getElem?_map, hk] at hsame
    obtain ⟨r', hr'⟩ := h.req ht
    rw [hr'] at hsame
    have heq : r.pc.received = r'.pc.received := by simpa using hsame
    rw [heq]
    exact h.received k t r' ht hr'
  hook := h.hook
  back := h.back
  owners := h.owners

/-- The caller moves on, and the handle stays with the trigger. -/
theorem goto {pc : CallerPc} {reply : Reply} (h : HandlerOK side x hooks) (ht : x.triggers[q]? = some t)
    (hr : reply.hook = t.reply.hook) : HandlerOK side (x.goto q t pc reply) hooks where
  loop := h.loop
  length := by simpa [Handler.goto] using h.length
  received k z r hz hk := by
    rcases getElem?_set_cases ht hz with ⟨rfl, rfl⟩ | ⟨-, hz⟩
    · rw [show (Trigger.mk t.owner t.id pc reply).reply.hook = t.reply.hook from hr]
      exact h.received q t r ht hk
    · exact h.received k z r hz hk
  hook k z w hz hw := by
    rcases getElem?_set_cases ht hz with ⟨rfl, rfl⟩ | ⟨-, hz⟩
    · exact h.hook q t w ht (hr ▸ hw)
    · exact h.hook k z w hz hw
  back w y hy hs := by
    obtain ⟨z, hz, hw⟩ := h.back w y hy hs
    by_cases hqy : q = y.trigger
    · subst hqy
      rw [ht] at hz; cases hz
      exact ⟨_, by rw [Handler.goto, getElem?_set ht, if_pos rfl], hr.trans hw⟩
    · exact ⟨z, by rw [Handler.goto, getElem?_set ht, if_neg hqy, hz], hw⟩
  owners := h.owners.set_same ht rfl

/-- The hook tasks end or are aborted. -/
theorem statuses (h : HandlerOK side x hooks) (hs : hooks'.map Hook.origin = hooks.map Hook.origin) :
    HandlerOK side x hooks' := by
  have origin : ∀ w, (hooks'[w]?).map Hook.origin = (hooks[w]?).map Hook.origin := fun w => by
    rw [← List.getElem?_map, ← List.getElem?_map, hs]
  refine { h with hook := fun k z w hz hw => ?_, back := fun w y hy hside => ?_ }
  · obtain ⟨y, hy, hside, htr⟩ := h.hook k z w hz hw
    have ho := origin w
    rw [hy] at ho
    obtain ⟨y', hy', heq⟩ := Option.map_eq_some_iff.mp ho
    obtain ⟨hs', ht'⟩ := Prod.mk.inj heq
    exact ⟨y', hy', hs'.trans hside, ht'.trans htr⟩
  · have ho := origin w
    rw [hy] at ho
    obtain ⟨y', hy', heq⟩ := Option.map_eq_some_iff.mp ho.symm
    obtain ⟨hs', ht'⟩ := Prod.mk.inj heq
    rw [← ht']
    exact h.back w y' hy' (hs'.trans hside)

theorem request (h : HandlerOK side x hooks) (hn : ∀ z ∈ x.triggers, z.owner ≠ t.owner) (ht : t.reply = .empty)
    (hl : LoopOK .hook (x.request t).loop) : HandlerOK side (x.request t) hooks where
  loop := hl
  length := by simp [Handler.request, h.length]
  received k z r hz hk := by
    rcases getElem?_append_cases hz with ⟨rfl, rfl⟩ | hz'
    · rw [h.length] at hk
      simp only [Handler.request, List.getElem?_concat_length, Option.some.injEq] at hk
      subst hk
      simp [ht, Reply.hook, ReqPc.received]
    · obtain ⟨r', hr'⟩ := h.req hz'
      have := getElem?_append_of_some hr' [⟨.sending, false⟩]
      simp only [Handler.request] at hk
      rw [this] at hk; cases hk
      exact h.received k z _ hz' hr'
  hook k z w hz hw := by
    rcases getElem?_append_cases hz with ⟨-, rfl⟩ | hz
    · rw [ht] at hw; cases hw
    · exact h.hook k z w hz hw
  back w y hy hs := by
    obtain ⟨z, hz, hw⟩ := h.back w y hy hs
    exact ⟨z, getElem?_append_of_some hz _, hw⟩
  owners := h.owners.append fun k hk hown => by
    obtain ⟨z, hz, hzk⟩ := hown
    cases hk
    exact hn z hz (by simpa using hzk)

/-- The loop receives request `q`: its hook is the newest. -/
theorem receive {l : HandlerLoop.State} {r r' : HandlerLoop.Req} {reply : Reply} {status : TaskStatus}
    (h : HandlerOK side x hooks) (ht : x.triggers[q]? = some t) (hr : x.loop.reqs[q]? = some r)
    (hn : r.pc.received = false) (hl : LoopOK .hook l) (hreqs : l.reqs = x.loop.reqs.set q r')
    (hr' : r'.pc.received = true) (hreply : reply.hook = some hooks.length) :
    HandlerOK side (Handler.goto { x with loop := l } q t t.caller reply) (hooks ++ [⟨side, q, status⟩]) := by
  have hempty : t.reply.hook = none := by
    cases hh : t.reply.hook with
    | none => rfl
    | some w =>
      have := (h.received q t r ht hr).mpr (by simp [hh])
      rw [hn] at this; cases this
  exact
    { loop := hl
      length := by simp [Handler.goto, hreqs, h.length]
      received := fun k z rz hz hk => by
        simp only [Handler.goto, hreqs] at hz hk
        rcases getElem?_set_cases ht hz with ⟨rfl, rfl⟩ | ⟨hne, hz⟩
        · rw [getElem?_set hr, if_pos rfl] at hk
          cases hk
          simp [hr', hreply]
        · rw [getElem?_set hr, if_neg hne] at hk
          exact h.received k z rz hz hk
      hook := fun k z w hz hw => by
        rcases getElem?_set_cases ht hz with ⟨rfl, rfl⟩ | ⟨-, hz⟩
        · rw [show Reply.hook reply = some w from hw] at hreply
          cases hreply
          exact ⟨⟨side, q, status⟩, by simp, rfl, rfl⟩
        · obtain ⟨y, hy, hrest⟩ := h.hook k z w hz hw
          exact ⟨y, getElem?_append_of_some hy _, hrest⟩
      back := fun w y hy hs => by
        rcases getElem?_append_cases hy with ⟨rfl, rfl⟩ | hy
        · exact ⟨_, by rw [Handler.goto, getElem?_set ht, if_pos rfl], hreply⟩
        · obtain ⟨z, hz, hw⟩ := h.back w y hy hs
          have hne : q ≠ y.trigger := by
            rintro rfl
            rw [ht] at hz; cases hz
            rw [hempty] at hw; cases hw
          exact ⟨z, by rw [Handler.goto, getElem?_set ht, if_neg hne, hz], hw⟩
      owners := h.owners.set_same ht rfl }

/-- A hook of the other protocol is spawned. -/
theorem other {y : Hook} (h : HandlerOK side x hooks) (hy : y.side ≠ side) : HandlerOK side x (hooks ++ [y]) :=
  { h with
    hook := fun k z w hz hw => by
      obtain ⟨v, hv, hrest⟩ := h.hook k z w hz hw
      exact ⟨v, getElem?_append_of_some hv _, hrest⟩
    back := fun w v hv hs => by
      rcases getElem?_append_cases hv with ⟨-, rfl⟩ | hv
      · exact absurd hs hy
      · exact h.back w v hv hs }

end HandlerOK

/-! ## The loops -/

/-- The loop is dropped: a request that was queued was not received. -/
theorem loopOK_abandon {x : Handler} (h : LoopOK .hook x.loop) : LoopOK .hook x.abandon.loop := by
  have at_map : ∀ {p : ReqPc → Bool} (q : Nat), p .unsent = p .queued →
      (HandlerLoop.At x.abandon.loop.reqs p q ↔ HandlerLoop.At x.loop.reqs p q) := by
    intro p q hp
    simp only [HandlerLoop.At, Handler.abandon, List.getElem?_map]
    cases x.loop.reqs[q]? with
    | none => simp
    | some r =>
      by_cases hq : r.pc = .queued
      · simp [hq, hp]
      · simp [hq]
  exact
    { slots := by
        rw [show x.abandon.loop.chan.slots = x.loop.chan.slots from rfl, h.slots]
        simp only [Handler.abandon, List.countP_map]
        refine List.countP_congr fun r _ => ?_
        by_cases hq : r.pc = .queued <;> simp [hq]
      queue := fun q => by
        constructor
        · intro hm; simp [Handler.abandon] at hm
        · rintro ⟨r, hr, hpc⟩
          simp only [Handler.abandon, List.getElem?_map] at hr
          obtain ⟨r₀, -, rfl⟩ := Option.map_eq_some_iff.mp hr
          by_cases hq : r₀.pc = .queued <;> simp [hq] at hpc
      queue_nodup := List.nodup_nil
      log := fun q => (h.log q).trans (at_map q rfl).symm
      log_nodup := h.log_nodup
      handled := by
        simp only [Handler.abandon, List.forall_mem_map]
        intro r hr
        by_cases hq : r.pc = .queued
        · intro hrec; simp [hq, ReqPc.received] at hrec
        · simpa [hq] using h.handled r hr
      tasks := fun q hq => h.tasks q ((at_map q rfl).mp hq)
      ended := fun he => by simp [Handler.abandon] at he
      exited := fun he => by simp [Handler.abandon] at he }

theorem abandon_received (x : Handler) :
    x.abandon.loop.reqs.map (·.pc.received) = x.loop.reqs.map (·.pc.received) := by
  simp only [Handler.abandon, List.map_map]
  refine List.map_congr_left fun r _ => ?_
  by_cases hq : r.pc = .queued <;> simp [hq, ReqPc.received]

/-- Without a request received, every request is as received as before. -/
theorem received_same {x : Handler} {l : HandlerLoop.State} {a : HandlerLoop.Act}
    (ha : x.allows a = true ∨ ∃ q, a = .giveUp q) (hl : HandlerLoop.StepR .hook x.loop a l)
    (hr : x.receives a = none) : l.reqs.map (·.pc.received) = x.loop.reqs.map (·.pc.received) := by
  cases hl with
  | acquire hq hpc => exact map_set_same hq (by rw [hpc]; rfl)
  | giveUp hq hpc => exact map_set_same hq (by rw [hpc]; rfl)
  | write hq hpc => exact map_set_same hq (by rw [hpc]; rfl)
  | recvItem hpc hq => simp [Handler.receives, hpc, hq] at hr
  | subscribe | joinTask | joinNone | recvEnded | recvPending | close | park | wake | dropTasks | exit
  | signalShutdown => rfl
  | request | complete | panic | cancelTask => simp [Handler.allows] at ha

/-- The request a loop receives was queued, and is processed. -/
theorem receives_item {x : Handler} {l : HandlerLoop.State} {a : HandlerLoop.Act} {q : Nat}
    (hl : HandlerLoop.StepR .hook x.loop a l) (hr : x.receives a = some q) :
    ∃ r rest, x.loop.reqs[q]? = some r ∧ x.loop.chan.queue = q :: rest ∧
      l.reqs = x.loop.reqs.set q { r with pc := .processed, late := x.loop.draining } := by
  unfold Handler.receives at hr
  split at hr
  next hc =>
    obtain ⟨rfl, hrecv⟩ := hc
    cases hl with
    | recvItem hpc hq hreq =>
      rw [hq] at hr; cases hr
      exact ⟨_, _, hreq, hq, rfl⟩
    | recvEnded hpc he => rw [he.queue] at hr; cases hr
    | recvPending hpc hq => rw [hq] at hr; cases hr
  · cases hr

/-- A dropped caller's send, if it was waiting for its slot, is unsent. -/
theorem cancelSend_step {l : HandlerLoop.State} {q : Nat} {r : HandlerLoop.Req} (h : LoopOK .hook l)
    (hr : l.reqs[q]? = some r) :
    LoopOK .hook (l.reqGoto q r (cancelSend r.pc)) ∧
      (l.reqGoto q r (cancelSend r.pc)).reqs.map (·.pc.received) = l.reqs.map (·.pc.received) := by
  by_cases hs : r.pc = .sending
  · rw [hs]
    exact ⟨(HandlerLoop.StepR.giveUp hr hs).loopOK h, map_set_same hr (by rw [hs]; rfl)⟩
  · have hsame : cancelSend r.pc = r.pc := by cases hpc : r.pc <;> simp_all [cancelSend]
    have hset : l.reqGoto q r r.pc = l := congrArg (fun reqs => { l with reqs := reqs }) (set_self hr)
    rw [hsame, hset]
    exact ⟨h, rfl⟩

/-! ## Both sides -/

@[simp] theorem State.get_put (s : State) (side : Side) (x : Handler) : (s.put side x).get side = x := by
  cases side <;> rfl

theorem State.get_put_ne (s : State) {side σ : Side} (x : Handler) (h : σ ≠ side) :
    (s.put side x).get σ = s.get σ := by
  cases side <;> cases σ <;> first | rfl | exact absurd rfl h

@[simp] theorem State.put_hooks (s : State) (side : Side) (x : Handler) : (s.put side x).hooks = s.hooks := by
  cases side <;> rfl

/-- The two handlers with the hook tasks. -/
def HandlersOK (s : State) : Prop := ∀ side, HandlerOK side (s.get side) s.hooks

namespace HandlersOK

variable {s : State} {side : Side} {x : Handler}

theorem put (h : HandlersOK s) (hx : HandlerOK side x s.hooks) : HandlersOK (s.put side x) := by
  intro σ
  rw [State.put_hooks]
  by_cases hσ : σ = side
  · subst hσ
    rw [State.get_put]
    exact hx
  · rw [State.get_put_ne s x hσ]
    exact h σ

theorem putHook {y : Hook} (h : HandlersOK s) (hx : HandlerOK side x (s.hooks ++ [y])) (hy : y.side = side) :
    HandlersOK { s.put side x with hooks := s.hooks ++ [y] } := by
  intro σ
  have hget : State.get { s.put side x with hooks := s.hooks ++ [y] } σ = (s.put side x).get σ := by cases σ <;> rfl
  rw [hget]
  by_cases hσ : σ = side
  · subst hσ
    rw [State.get_put]
    exact hx
  · rw [State.get_put_ne s x hσ]
    exact (h σ).other (by rw [hy]; exact fun he => hσ he.symm)

end HandlersOK

@[simp] theorem abort_origin (hooks : List Hook) (h : Handle) :
    (abort hooks h).map Hook.origin = hooks.map Hook.origin :=
  Tasks.map_abort (fun _ _ => rfl) hooks h

@[simp] theorem abortAll_origin (hooks : List Hook) (hs : List Handle) :
    (abortAll hooks hs).map Hook.origin = hooks.map Hook.origin :=
  Tasks.map_abortAll (fun _ _ => rfl) hooks hs

theorem Reply.hook_drop (r : Reply) : r.drop.hook = r.hook := by cases r <;> rfl

theorem State.wire_cases (s : State) (c : Nat) (side : Side) :
    s.wire c side = s.get side ∨
      ∃ x h, s.base.calls[c]? = some x ∧ x.pc = .registered h ∧ x.kind = side.kind ∧ x.kind ∉ s.base.published ∧
        s.wire c side = { s.get side with task := some h } := by
  unfold State.wire
  split
  next kind bound h hx =>
    split
    next hk => exact .inr ⟨_, h, hx, rfl, hk.1, hk.2, rfl⟩
    · exact .inl rfl
  · exact .inl rfl

/-- What becomes of a handler with a step of the shutdown system. -/
theorem State.react_get (s : State) (a : Shutdown.Act) (side : Side) :
    (∃ c, a = .publish c ∧ (s.react a).get side = s.wire c side) ∨
    (∃ n stored, a = .signalHandlers n stored ∧ (s.react a).get side = (s.get side).signaled stored) ∨
    (s.react a).get side = s.get side := by
  cases a with
  | publish c => exact .inl ⟨c, rfl, by cases side <;> rfl⟩
  | signalHandlers n stored => exact .inr (.inl ⟨n, stored, rfl, by cases side <;> rfl⟩)
  | base c =>
    refine .inr (.inr ?_)
    cases c with
    | remove j =>
      simp only [State.react]
      split <;> cases side <;> rfl
    | _ => cases side <;> rfl
  | _ => exact .inr (.inr rfl)

theorem State.react_origin (s : State) (a : Shutdown.Act) :
    (s.react a).hooks.map Hook.origin = s.hooks.map Hook.origin := by
  cases a with
  | base c =>
    cases c with
    | remove j =>
      simp only [State.react]
      split <;> rfl
    | notifyDrain j => exact abortAll_origin ..
    | _ => rfl
  | _ => rfl

@[simp] theorem State.get_base (s : State) (b : Shutdown.State) (side : Side) :
    State.get { s with base := b } side = s.get side := by
  cases side <;> rfl

/-- What a step of the shutdown system does to the handlers. -/
theorem HandlersOK.react {s : State} (h : HandlersOK s) (a : Shutdown.Act) (b : Shutdown.State) :
    HandlersOK { s.react a with base := b } := by
  intro side
  rw [State.get_base]
  refine HandlerOK.statuses ?_ (s.react_origin a)
  rcases s.react_get a side with ⟨c, -, hget⟩ | ⟨n, stored, -, hget⟩ | hget
  · rw [hget]
    rcases s.wire_cases c side with hw | ⟨x, w, -, -, -, -, hw⟩
    · rw [hw]; exact h side
    · rw [hw]; exact (h side).loopStep (h side).loop rfl _ _
  · rw [hget]
    exact (h side).loopStep ((h side).loop.signaled ((s.get side).loop.signal || stored)) rfl _ _
  · rw [hget]; exact h side

theorem StepR.handlersOK {cfg : NodeConfig} {abortable : Bool} {s s' : State} {a : Act} (h : HandlersOK s)
    (hs : StepR cfg abortable s a s') : HandlersOK s' := by
  have disc : ∀ {x b H}, HandlerOK .disconnect x s.hooks → H.map Hook.origin = s.hooks.map Hook.origin →
      HandlersOK { s with base := b, disconnect := x, hooks := H } := by
    intro x b H hx hH σ
    cases σ with
    | connect => exact (h .connect).statuses hH
    | disconnect => exact hx.statuses hH
  cases hs with
  | base hb hf => exact h.react _ _
  | @trigger side i id w hi hn =>
    exact h.put ((h side).request hn rfl (HandlerLoop.StepR.request.loopOK (h side).loop))
  | skip => exact h
  | @loop side a l ha hl hr =>
    have hstep := HandlerLoop.step_sound hl
    exact h.put ((h side).loopStep (hstep.loopOK (h side).loop) (received_same (.inl ha) hstep hr) _ _)
  | @receive side a l q t ha hl hr ht hc =>
    have hstep := HandlerLoop.step_sound hl
    obtain ⟨r, rest, hreq, hq, hreqs⟩ := receives_item hstep hr
    have hqueued : r.pc.received = false := (h side).loop.queued_unreceived hq hreq
    exact h.putHook ((h side).receive ht hreq hqueued (hstep.loopOK (h side).loop) hreqs rfl rfl) rfl
  | @receiveLate side a l q t ha hl hr ht hc =>
    have hstep := HandlerLoop.step_sound hl
    obtain ⟨r, rest, hreq, hq, hreqs⟩ := receives_item hstep hr
    have hqueued : r.pc.received = false := (h side).loop.queued_unreceived hq hreq
    exact h.putHook ((h side).receive ht hreq hqueued (hstep.loopOK (h side).loop) hreqs rfl rfl) rfl
  | @sendFailed side q l hc hl =>
    have hstep := HandlerLoop.step_sound hl
    exact h.put ((h side).loopStep (hstep.loopOK (h side).loop)
      (received_same (.inr ⟨q, rfl⟩) hstep (by simp [Handler.receives])) _ _)
  | @dropLoop side =>
    exact h.put ((h side).loopStep (loopOK_abandon (h side).loop) (abandon_received _) _ true)
  | @respond side q t w ht hr => exact h.put ((h side).goto ht (by rw [hr]; rfl))
  | @noResponse side q t r ht => exact h.put ((h side).goto ht rfl)
  | @closing side q t r ht => exact h.put ((h side).goto ht rfl)
  | @graceExpired side q t ht => exact h.put ((h side).goto ht (Reply.hook_drop _))
  | @attach q t w u b ht =>
    intro σ
    have hH : (if (attachHandle s.base.base.active u.addr u.id w).2 then s.hooks else abort s.hooks w).map Hook.origin =
        s.hooks.map Hook.origin := by split <;> simp
    cases σ with
    | connect => exact ((h .connect).goto ht rfl).statuses hH
    | disconnect => exact (h .disconnect).statuses hH
  | @register q t w d b ht => exact disc ((h .disconnect).goto ht rfl) (by split <;> simp)
  | @waited q t w ht => exact disc ((h .disconnect).goto ht rfl) rfl
  | @cancelDisc q t r b ht hr =>
    obtain ⟨hl, hrec⟩ := cancelSend_step (h .disconnect).loop hr
    exact disc (((h .disconnect).loopStep hl hrec _ _).goto ht (Reply.hook_drop _)) rfl
  | hookDone hy =>
    intro σ
    have hget : ∀ H, State.get { s with hooks := H } σ = s.get σ := fun H => by cases σ <;> rfl
    rw [hget]
    exact (h σ).statuses (map_set_same hy rfl)

theorem handlersOK_reachable {cfg : NodeConfig} {abortable : Bool} {s : State}
    (h : (hooks cfg abortable).Reachable s) : HandlersOK s := by
  refine h.invariant (fun σ => ?_) fun _ ho _ hs => (step_sound hs).handlersOK ho
  have hget : (hooks cfg abortable).init.get σ = .init cfg := by cases σ <;> rfl
  rw [hget]
  exact
    { loop := LoopOK.init .hook _
      length := rfl
      received := fun q t r ht => by simp [Handler.init] at ht
      hook := fun q t w ht => by simp [Handler.init] at ht
      back := fun w y hy => by simp [hooks, State.init] at hy
      owners := uniqueBy_nil }

/-! ## The callers -/

def CallerPc.ended : CallerPc → Bool
  | .over | .cancelled => true
  | _ => false

theorem CallerPc.not_ended {pc : CallerPc} (h : pc.listening = true) : pc.ended = false := by
  cases pc <;> first | rfl | cases h

/-- The triggers against the scheduling tasks and disconnects that made
them, over the parts of the state they depend on. -/
structure Callers (b : Pea2Pea.State) (connect disconnect : List Trigger) (skipped : List Nat) : Prop where
  sched : ∀ t ∈ connect, ∃ u, b.scheds[t.owner]? = some u ∧ u.id = t.id ∧ (t.caller.ended = false → u.pc = .running)
  disc : ∀ t ∈ disconnect, ∃ d, b.discs[t.owner]? = some d ∧ d.claimedId = some t.id ∧
    (t.caller.ended = false → d.pc = .claimed t.id)
  skipped : ∀ t ∈ disconnect, t.owner ∉ skipped

/-- A claim is for good. -/
theorem DiscMove.claimedId {j : Nat} {d : Disc} {a : Pea2Pea.Act} {p : DiscPc} (h : DiscMove j d.pc a p) {id : Nat}
    (hid : d.claimedId = some id) : ({ d with pc := p } : Disc).claimedId = some id := by
  unfold Disc.claimedId at hid ⊢
  generalize d.pc = q at h hid
  cases h <;> first | exact hid | cases hid

namespace Callers

variable {cfg : NodeConfig} {b : Pea2Pea.State} {C D : List Trigger} {K : List Nat} {q : Nat} {t : Trigger}

theorem connectGoto {pc : CallerPc} {reply : Reply} (h : Callers b C D K) (ht : C[q]? = some t)
    (he : pc.ended = false → t.caller.ended = false) :
    Callers b (C.set q { t with caller := pc, reply := reply }) D K :=
  { h with
    sched := forall_mem_set h.sched <| by
      obtain ⟨u, hu, hid, hrun⟩ := h.sched t (List.mem_of_getElem? ht)
      exact ⟨u, hu, hid, fun hne => hrun (he hne)⟩ }

theorem disconnectGoto {pc : CallerPc} {reply : Reply} (h : Callers b C D K) (ht : D[q]? = some t)
    (he : pc.ended = false → t.caller.ended = false) :
    Callers b C (D.set q { t with caller := pc, reply := reply }) K where
  sched := h.sched
  disc := forall_mem_set h.disc <| by
    obtain ⟨d, hd, hid, hcl⟩ := h.disc t (List.mem_of_getElem? ht)
    exact ⟨d, hd, hid, fun hne => hcl (he hne)⟩
  skipped := forall_mem_set h.skipped (h.skipped t (List.mem_of_getElem? ht))

/-- A step of the shutdown system, which a caller that is not through with
its hook does not take part in. -/
theorem baseStep {s₀ s₁ : Shutdown.State} {a : Shutdown.Act} (h : Callers s₀.base C D K)
    (hs : Shutdown.StepR cfg s₀ a s₁)
    (hsched : ∀ k, a = .base (.schedDone k) → ∀ t ∈ C, t.owner = k → t.caller.ended = true)
    (hfin : ∀ j, a = .base (.finalize j) → ∀ t ∈ D, t.owner = j → t.caller.ended = true) :
    Callers s₁.base C D K where
  sched t ht := by
    obtain ⟨u, hu, hid, hrun⟩ := h.sched t ht
    obtain ⟨p, hu', hp⟩ := hs.sched_move hu
    refine ⟨_, hu', hid, fun hne => ?_⟩
    have hr := hrun hne
    rcases hp with rfl | ⟨c, rfl, hm⟩
    · exact hr
    · rw [hr] at hm
      cases hm with
      | done =>
        have := hsched t.owner rfl t ht rfl
        rw [hne] at this; cases this
  disc t ht := by
    obtain ⟨d, hd, hid, hcl⟩ := h.disc t ht
    obtain ⟨p, hd', hp⟩ := hs.disc_move hd
    refine ⟨_, hd', ?_, fun hne => ?_⟩
    · rcases hp with rfl | ⟨c, -, hm⟩
      · exact hid
      · exact DiscMove.claimedId hm hid
    · have hc := hcl hne
      rcases hp with rfl | ⟨c, rfl, hm⟩
      · exact hc
      · rw [hc] at hm
        cases hm with
        | finalize =>
          have := hfin t.owner rfl t ht rfl
          rw [hne] at this; cases this
  skipped := h.skipped

end Callers

abbrev CallersOK (s : State) : Prop := Callers s.base.base s.connect.triggers s.disconnect.triggers s.skipped

/-- A caller that is served is through with its one trigger. -/
theorem HandlerOK.ended_of_served {side : Side} {x : Handler} {hooks : List Hook} (h : HandlerOK side x hooks)
    {t : Trigger} (ht : t ∈ x.triggers) (hs : x.served t.owner = true) : t.caller = .over := by
  obtain ⟨z, hz, hc⟩ := List.any_eq_true.mp hs
  simp only [Bool.and_eq_true, beq_iff_eq] at hc
  obtain ⟨i, hi⟩ := List.getElem?_of_mem ht
  obtain ⟨j, hj⟩ := List.getElem?_of_mem hz
  have hij := h.owners i j t z t.owner hi hj rfl (congrArg some hc.1)
  subst hij
  rw [hi] at hj; cases hj
  exact hc.2

theorem State.react_triggers (s : State) (a : Shutdown.Act) (side : Side) :
    ((s.react a).get side).triggers = (s.get side).triggers := by
  rcases s.react_get a side with ⟨c, -, hget⟩ | ⟨n, stored, -, hget⟩ | hget
  · rw [hget]
    rcases s.wire_cases c side with hw | ⟨x, w, -, -, -, -, hw⟩ <;> rw [hw]
  · rw [hget]; rfl
  · rw [hget]

theorem State.react_skipped (s : State) (a : Shutdown.Act) : (s.react a).skipped = s.skipped := by
  cases a with
  | base c =>
    cases c with
    | remove j =>
      simp only [State.react]
      split <;> rfl
    | _ => rfl
  | _ => rfl

theorem StepR.callersOK {cfg : NodeConfig} {abortable : Bool} {s s' : State} {a : Act} (hH : HandlersOK s)
    (h : CallersOK s) (hs : StepR cfg abortable s a s') : CallersOK s' := by
  -- a move of a trigger on either side
  have move : ∀ {side q t pc reply}, (s.get side).triggers[q]? = some t →
      (pc.ended = false → t.caller.ended = false) → ∀ {x : Handler}, x.triggers = (s.get side).triggers →
      CallersOK (s.put side (x.goto q t pc reply)) := by
    intro side q t pc reply ht he x hx
    cases side with
    | connect =>
      simp only [CallersOK, State.put, Handler.goto, hx]
      exact h.connectGoto ht he
    | disconnect =>
      simp only [CallersOK, State.put, Handler.goto, hx]
      exact h.disconnectGoto ht he
  have keep : ∀ {side} {x : Handler}, x.triggers = (s.get side).triggers → CallersOK (s.put side x) := by
    intro side x hx
    cases side with
    | connect => simp only [CallersOK, State.put, hx]; exact h
    | disconnect => simp only [CallersOK, State.put, hx]; exact h
  cases hs with
  | @base a b hb hf =>
    have hc : (s.react a).connect.triggers = s.connect.triggers := s.react_triggers a .connect
    have hd : (s.react a).disconnect.triggers = s.disconnect.triggers := s.react_triggers a .disconnect
    have hstep := Shutdown.step_sound hb
    simp only [CallersOK, hc, hd, s.react_skipped a]
    refine h.baseStep hstep (fun k ha t ht ho => ?_) fun j ha t ht ho => ?_
    · subst ha ho
      rw [(hH .connect).ended_of_served ht hf]
      rfl
    · subst ha ho
      have hserved : s.disconnect.served t.owner = true := by
        simp only [State.free, decide_eq_true_eq] at hf
        exact hf.resolve_left (h.skipped t ht)
      rw [(hH .disconnect).ended_of_served ht hserved]
      rfl
  | @trigger side i id w hi hn hk ht =>
    cases side with
    | connect =>
      simp only [State.callerId, Option.bind_eq_bind, Option.bind_eq_some_iff] at hi
      obtain ⟨u, hu, hi⟩ := hi
      split at hi
      next hrun =>
        cases hi
        exact { h with sched := forall_mem_append h.sched ⟨u, hu, rfl, fun _ => hrun⟩ }
      · cases hi
    | disconnect =>
      simp only [State.callerId, Option.bind_eq_bind, Option.bind_eq_some_iff] at hi
      obtain ⟨d, hd, hi⟩ := hi
      split at hi
      next hcl =>
        cases hi
        exact
          { sched := h.sched
            disc := forall_mem_append h.disc ⟨d, hd, by rw [Disc.claimedId, hcl]; rfl, fun _ => hcl⟩
            skipped := forall_mem_append h.skipped (hk rfl) }
      · cases hi
  | skip hj hn =>
    exact { h with skipped := fun t ht => List.not_mem_cons_of_ne_of_not_mem (hn t ht) (h.skipped t ht) }
  | loop => exact keep rfl
  | receive ha hl hr ht => exact move ht id rfl
  | receiveLate ha hl hr ht => exact move ht id rfl
  | sendFailed => exact keep rfl
  | dropLoop => exact keep rfl
  | respond ht hr hc => exact move ht (fun _ => CallerPc.not_ended hc) rfl
  | noResponse ht => exact move ht (by simp [CallerPc.ended]) rfl
  | closing ht hr hc => exact move ht (fun _ => by rw [hc]; rfl) rfl
  | graceExpired ht => exact move ht (by simp [CallerPc.ended]) rfl
  | attach ht hc hu hb =>
    exact (h.connectGoto ht (by simp [CallerPc.ended])).baseStep (Shutdown.step_sound hb) (by simp) (by simp)
  | register ht hc hd hb =>
    exact (h.disconnectGoto ht (fun _ => by rw [hc]; rfl)).baseStep (Shutdown.step_sound hb) (by simp) (by simp)
  | waited ht => exact h.disconnectGoto ht (by simp [CallerPc.ended])
  | @cancelDisc q t r b ht hr hb hna hc =>
    refine (h.disconnectGoto ht (by simp [CallerPc.ended])).baseStep (Shutdown.step_sound hb) (by simp) ?_
    intro j hj z hz ho
    cases hj
    obtain ⟨i, hi⟩ := List.getElem?_of_mem hz
    rcases getElem?_set_cases ht hi with ⟨-, rfl⟩ | ⟨hne, hi⟩
    · rfl
    · exact absurd ((hH .disconnect).owners q i t z t.owner ht hi rfl (congrArg some ho)) hne
  | hookDone => exact h

theorem callersOK_reachable {cfg : NodeConfig} {abortable : Bool} {s : State}
    (h : (hooks cfg abortable).Reachable s) : CallersOK s := by
  refine h.invariant ?_ fun hr ho _ hs => (step_sound hs).callersOK (handlersOK_reachable hr) ho
  exact ⟨by simp [hooks, State.init, Handler.init], by simp [hooks, State.init, Handler.init],
    by simp [hooks, State.init, Handler.init]⟩

/-! ## What a step does below -/

/-- A trigger is for a connection that has been in `active`. -/
theorem trigger_entered {cfg : NodeConfig} {abortable : Bool} {s : State} (h : (hooks cfg abortable).Reachable s)
    {side : Side} {t : Trigger} (ht : t ∈ (s.get side).triggers) : Owned Setup.enteredId s.base.base.setups t.id := by
  have hC := callersOK_reachable h
  have hnode : (lifecycle cfg).Reachable s.base.base :=
    (Shutdown.projects cfg).reachable ((projects cfg abortable).reachable h)
  cases side with
  | connect =>
    obtain ⟨u, hu, hid, -⟩ := hC.sched t ht
    rw [← hid]
    exact (schedulingOK_reachable hnode).entered u (List.mem_of_getElem? hu)
  | disconnect =>
    obtain ⟨d, hd, hid, -⟩ := hC.disc t ht
    exact ((ledgerOK_reachable hnode).claimed t.id (.of_getElem? hd hid)).1

/-- A step of the shutdown system here: one of its own, a handle that is
added to a connection, or a cancelled disconnect's finalizer. -/
inductive BaseMove (s : State) : Act → Shutdown.Act → Prop
  | base {c} (hf : s.free c = true) : BaseMove s (.base c) c
  | attach {q t h} (ht : s.connect.triggers[q]? = some t) (hc : t.caller = .responded h) :
      BaseMove s (.attach q) (.base (.attach t.owner h))
  | register {q t h} (ht : s.disconnect.triggers[q]? = some t) (hc : t.caller = .responded h) :
      BaseMove s (.register q) (.base (.register t.owner h))
  | cancelDisc {q t} (ht : s.disconnect.triggers[q]? = some t) : BaseMove s (.cancelDisc q) (.base (.finalize t.owner))

theorem StepR.base_move {cfg : NodeConfig} {abortable : Bool} {s s' : State} {a : Act}
    (hs : StepR cfg abortable s a s') :
    (∃ c, BaseMove s a c ∧ Shutdown.StepR cfg s.base c s'.base ∧ s'.removed = (s.react c).removed) ∨
      s'.base = s.base ∧ s'.removed = s.removed := by
  have put : ∀ (side : Side) (x : Handler), (s.put side x).base = s.base ∧ (s.put side x).removed = s.removed :=
    fun side x => by cases side <;> exact ⟨rfl, rfl⟩
  cases hs with
  | base hb hf => exact .inl ⟨_, .base hf, Shutdown.step_sound hb, rfl⟩
  | attach ht hc hu hb => exact .inl ⟨_, .attach ht hc, Shutdown.step_sound hb, rfl⟩
  | register ht hc hd hb => exact .inl ⟨_, .register ht hc, Shutdown.step_sound hb, rfl⟩
  | cancelDisc ht hr hb => exact .inl ⟨_, .cancelDisc ht, Shutdown.step_sound hb, rfl⟩
  | trigger | loop | receive | receiveLate | sendFailed | dropLoop | respond | noResponse | closing | graceExpired =>
    exact .inr (put _ _)
  | skip | waited | hookDone => exact .inr ⟨rfl, rfl⟩

theorem Handler.goto_ids {x : Handler} {q : Nat} {t : Trigger} {pc : CallerPc} {reply : Reply}
    (ht : x.triggers[q]? = some t) : (x.goto q t pc reply).triggers.map Trigger.id = x.triggers.map Trigger.id :=
  map_set_same ht rfl

/-- Hook tasks are only added. -/
theorem StepR.origins_grow {cfg : NodeConfig} {abortable : Bool} {s s' : State} {a : Act}
    (hs : StepR cfg abortable s a s') : s.hooks.map Hook.origin <+: s'.hooks.map Hook.origin := by
  have same : ∀ {H : List Hook}, H.map Hook.origin = s.hooks.map Hook.origin →
      s.hooks.map Hook.origin <+: H.map Hook.origin := fun hH => by rw [hH]
  have put : ∀ (side : Side) (x : Handler), (s.put side x).hooks = s.hooks := fun side x => by cases side <;> rfl
  cases hs with
  | base => exact same (s.react_origin _)
  | receive | receiveLate => exact (List.prefix_append _ _).map _
  | attach | register => exact same (by split <;> simp)
  | hookDone hy => exact same (map_set_same hy rfl)
  | trigger | loop | sendFailed | dropLoop | respond | noResponse | closing | graceExpired => exact same (by rw [put])
  | skip | waited | cancelDisc => exact List.prefix_refl _

/-- Triggers are only added. -/
theorem StepR.ids_grow {cfg : NodeConfig} {abortable : Bool} {s s' : State} {a : Act}
    (hs : StepR cfg abortable s a s') (σ : Side) :
    (s.get σ).triggers.map Trigger.id <+: (s'.get σ).triggers.map Trigger.id := by
  have put : ∀ {side : Side} {x : Handler}, (s.get side).triggers.map Trigger.id <+: x.triggers.map Trigger.id →
      (s.get σ).triggers.map Trigger.id <+: ((s.put side x).get σ).triggers.map Trigger.id := by
    intro side x hx
    by_cases hσ : σ = side
    · subst hσ
      rwa [State.get_put]
    · rw [State.get_put_ne s x hσ]
  have goto : ∀ (side : Side) {q t pc reply} {x : Handler}, (s.get side).triggers[q]? = some t →
      x.triggers = (s.get side).triggers →
      (s.get side).triggers.map Trigger.id <+: (x.goto q t pc reply).triggers.map Trigger.id := by
    intro side q t pc reply x ht hx
    rw [Handler.goto_ids (hx ▸ ht), hx]
  cases hs with
  | @base c b =>
    have hget : State.get { s.react c with base := b } σ = (s.react c).get σ := by cases σ <;> rfl
    rw [hget, s.react_triggers]
  | @trigger side => exact put (by simp [Handler.request])
  | @loop side | @sendFailed side | @dropLoop side => exact put (List.prefix_refl _)
  | @receive side _ _ _ _ _ _ _ ht | @receiveLate side _ _ _ _ _ _ _ ht =>
    have hooks : ∀ (y : State) H, State.get { y with hooks := H } σ = y.get σ := fun y H => by cases σ <;> rfl
    rw [hooks]
    exact put (goto _ ht rfl)
  | respond ht | noResponse ht | closing ht | graceExpired ht => exact put (goto _ ht rfl)
  | attach ht =>
    cases σ with
    | connect => exact goto .connect ht rfl
    | disconnect => exact List.prefix_refl _
  | register ht | waited ht | cancelDisc ht =>
    cases σ with
    | connect => exact List.prefix_refl _
    | disconnect => exact goto .disconnect ht rfl
  | skip | hookDone => cases σ <;> exact List.prefix_refl _

end Pea2Pea.Hooks
