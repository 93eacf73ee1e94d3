/-
An OnConnect hook is aborted only once its connection is gone.

It is aborted by its `Connection`, when that is dropped; by the scheduling
task, when it does not find the connection in `active`; and by the loop, when
the scheduling task does not take the handle. A scheduling task that waits
for its hook goes without it only when its request came to nothing, in which
case there is no hook, or after the drain, as long as no `shut_down` is
dropped; and after the drain there is no connection.
-/
import Pea2Pea.Attached
import Pea2Pea.WindDown

namespace Pea2Pea

open Pool Tasks

namespace HandlerLoop

/-- The request came to nothing. -/
def ReqPc.refused : ReqPc → Bool
  | .unsent | .dropped => true
  | _ => false

theorem StepR.refused_kept {kind : LoopKind} {l l' : State} {x : Act} (hs : StepR kind l x l') (hl : LoopOK kind l)
    {q : Nat} (h : At l.reqs ReqPc.refused q) : At l'.reqs ReqPc.refused q := by
  have goto : ∀ {p z y}, l.reqs[p]? = some z → (z.pc.refused = true → y.pc.refused = true) →
      At (l.reqs.set p y) ReqPc.refused q := by
    intro p z y hz hy
    obtain ⟨r, hr, hpc⟩ := h
    by_cases hp : p = q
    · subst hp
      rw [hz] at hr; cases hr
      exact ⟨y, by rw [getElem?_set hz, if_pos rfl], hy hpc⟩
    · exact ⟨r, by rw [getElem?_set hz, if_neg hp, hr], hpc⟩
  cases hs with
  | request =>
    obtain ⟨r, hr, hpc⟩ := h
    exact ⟨r, getElem?_append_of_some hr _, hpc⟩
  | acquire hr hpc | write hr hpc | complete hr hpc => exact goto hr fun hz => by rw [hpc] at hz; cases hz
  | giveUp hr | panic hr => exact goto hr fun _ => rfl
  | @recvItem p r rest _ hq hr =>
    -- what is queued is neither unsent nor dropped
    exact goto hr fun hz => by rw [hl.queued_pc hq hr] at hz; cases hz
  | @cancelTask p r hr =>
    refine goto hr fun hz => ?_
    dsimp only
    split
    · rfl
    · exact hz
  | _ => exact h

end HandlerLoop

namespace Hooks

open Shutdown (Published CallsSpared milestone_drained)
open HandlerLoop (OpenUnless ReqPc)

variable {cfg : NodeConfig} {abortable : Bool} {s s' : State} {a : Act}

/-! ## Until the drain -/

/-- The node has been drained. -/
abbrev Emptied (b : Shutdown.State) : Prop := Drained b.base

/-- The OnConnect handler: its loop answers what it receives, and a
scheduling task gives up on nothing else, unless the node has been drained. -/
structure Attending (b : Shutdown.State) (x : Handler) : Prop where
  task : ∀ h, x.task = some h → Published Emptied b .onConnect h
  loop : OpenUnless (Emptied b) x.loop
  grace : ∀ t ∈ x.triggers, t.caller = .grace → Emptied b
  quit : ∀ (q : Nat) t, x.triggers[q]? = some t → t.caller.listening = false → t.reply = .empty →
    Emptied b ∨ HandlerLoop.At x.loop.reqs ReqPc.refused q

namespace Attending

variable {b b' : Shutdown.State} {x x' : Handler} {l : HandlerLoop.State} {q : Nat} {t : Trigger}

theorem base {y : Shutdown.Act} (h : Attending b x) (hr : (Shutdown.shutdown cfg).Reachable b)
    (hy : ∀ n, y ≠ .cancelShut n) (hs : Shutdown.StepR cfg b y b') : Attending b' x where
  task w hw := hs.published (milestone_drained cfg) hr hy (by simp) (h.task w hw)
  loop := h.loop.mono hs.drained
  grace u hu hc := hs.drained (h.grace u hu hc)
  quit p u hu hc hreply := (h.quit p u hu hc hreply).imp_left hs.drained

/-- After the drain there is nothing else to say. -/
theorem emptied (h : Attending b x) (hb : Emptied b) (ht : x'.task = x.task) : Attending b x' where
  task w hw := h.task w (ht ▸ hw)
  loop := HandlerLoop.openUnless_of hb
  grace _ _ _ := hb
  quit _ _ _ _ _ := .inl hb

theorem step {y : HandlerLoop.Act} (h : Attending b x) (hl : HandlerLoop.LoopOK .hook x.loop)
    (hs : HandlerLoop.StepR .hook x.loop y l) (hy : ∀ b, y ≠ .signalShutdown b) :
    Attending b { x with loop := l } where
  task := h.task
  loop := hs.openUnless hy h.loop
  grace := h.grace
  quit p u hu hc hreply := (h.quit p u hu hc hreply).imp_right (hs.refused_kept hl)

theorem goto {pc : CallerPc} {reply : Reply} (h : Attending b x) (ht : x.triggers[q]? = some t)
    (hg : pc = .grace → Emptied b)
    (hq : pc.listening = false → reply = .empty → Emptied b ∨ HandlerLoop.At x.loop.reqs ReqPc.refused q) :
    Attending b (x.goto q t pc reply) where
  task := h.task
  loop := h.loop
  grace := forall_mem_set h.grace hg
  quit p u hu hc hreply := by
    rcases getElem?_set_cases ht hu with ⟨rfl, rfl⟩ | ⟨-, hu⟩
    · exact hq hc hreply
    · exact h.quit p u hu hc hreply

theorem request {i id : Nat} (h : Attending b x) : Attending b (x.request ⟨i, id, .waiting, .empty⟩) where
  task := h.task
  loop := { h.loop with }
  grace := forall_mem_append h.grace fun hc => by cases hc
  quit p u hu hc hreply := by
    rcases getElem?_append_cases hu with ⟨-, rfl⟩ | hu
    · cases hc
    · exact (h.quit p u hu hc hreply).imp_right fun ⟨r, hr, hpc⟩ => ⟨r, getElem?_append_of_some hr _, hpc⟩

end Attending

structure AttendingOK (s : State) : Prop where
  calls : CallsSpared Emptied s.base
  connect : Attending s.base s.connect

/-- A step of the shutdown system, with what it is to the handler. -/
theorem AttendingOK.react {c : Shutdown.Act} {b : Shutdown.State} (h : AttendingOK s)
    (hr : (Shutdown.shutdown cfg).Reachable s.base) (hc : ∀ n, c ≠ .cancelShut n)
    (hs : Shutdown.StepR cfg s.base c b) : AttendingOK { s.react c with base := b } := by
  have hkept := h.connect.base hr hc hs
  refine ⟨hs.callsSpared (milestone_drained cfg) hr h.calls hc, ?_⟩
  rcases s.react_get c .connect with ⟨i, rfl, hget⟩ | ⟨n, stored, rfl, hget⟩ | hget
  · show Attending b ((s.react (.publish i)).get .connect)
    rw [hget]
    rcases s.wire_cases i .connect with hw | ⟨y, w, hy, hpc, hk, -, hw⟩
    · rw [hw]; exact hkept
    · rw [hw]
      refine { hkept with task := fun v hv => ?_ }
      cases hv
      have hpub := hs.publish_published (milestone_drained cfg) hr h.calls hy hpc (by rw [hk]; simp [Side.kind])
      rwa [hk] at hpub
  · show Attending b ((s.react (.signalHandlers n stored)).get .connect)
    rw [hget]
    exact hkept.emptied ((milestone_drained cfg).signal hr hs) rfl
  · show Attending b ((s.react c).get .connect)
    rw [hget]; exact hkept

theorem StepR.attendingOK (hr : (hooks cfg abortable).Reachable s) (ha : ∀ n, a ≠ .base (.cancelShut n))
    (h : AttendingOK s) (hs : StepR cfg abortable s a s') : AttendingOK s' := by
  have hrb := (projects cfg abortable).reachable hr
  have hH := handlersOK_reachable hr .connect
  -- a step of the lifecycle
  have below : ∀ {x b}, Shutdown.step cfg s.base (.base x) = some b → AttendingOK { s with base := b } := by
    intro x b hb
    have hstep := Shutdown.step_sound hb
    exact ⟨hstep.callsSpared (milestone_drained cfg) hrb h.calls (by simp), h.connect.base hrb (by simp) hstep⟩
  -- what is said here is about the OnConnect handler
  have put : ∀ {side : Side} {x : Handler}, (side = .connect → Attending s.base x) → AttendingOK (s.put side x) := by
    intro side x hx
    cases side with
    | connect => exact ⟨h.calls, hx rfl⟩
    | disconnect => exact ⟨h.calls, h.connect⟩
  have hooks : ∀ {x : State} {H}, AttendingOK x → AttendingOK { x with hooks := H } := fun hx => ⟨hx.calls, hx.connect⟩
  cases hs with
  | base hb => exact h.react hrb (fun n he => ha n (congrArg _ he)) (Shutdown.step_sound hb)
  | trigger => exact put fun hside => by subst hside; exact h.connect.request
  | skip | waited | hookDone => exact ⟨h.calls, h.connect⟩
  | loop hx hl =>
    refine put fun hside => ?_
    subst hside
    exact h.connect.step hH.loop (HandlerLoop.step_sound hl) (by rintro b rfl; cases hx)
  | receive hx hl _ ht hc =>
    refine hooks (put fun hside => ?_)
    subst hside
    refine (h.connect.step hH.loop (HandlerLoop.step_sound hl) (by rintro b rfl; cases hx)).goto ht ?_ ?_
    · exact h.connect.grace _ (List.mem_of_getElem? ht)
    · intro hn; rw [hc] at hn; cases hn
  | receiveLate hx hl _ ht hc =>
    refine hooks (put fun hside => ?_)
    subst hside
    refine (h.connect.step hH.loop (HandlerLoop.step_sound hl) (by rintro b rfl; cases hx)).goto ht ?_ ?_
    · exact h.connect.grace _ (List.mem_of_getElem? ht)
    · intro _ hreply; cases hreply
  | sendFailed hc =>
    refine put fun hside => ?_
    subst hside
    exact h.connect.emptied (h.connect.loop.closed hc) rfl
  | @dropLoop side w t ht hh hab =>
    refine put fun hside => ?_
    subst hside
    refine h.connect.emptied ?_ rfl
    rcases (h.connect.task w ht).spared with hi | hb
    · exact absurd ((getElem?_statuses hh).trans (congrArg some hab)) hi
    · exact hb
  | respond ht =>
    refine put fun hside => ?_
    subst hside
    refine h.connect.goto ht (fun hg => ?_) fun _ hreply => by cases hreply
    split at hg <;> cases hg
  | @noResponse side q t r ht hreq hc hpc =>
    refine put fun hside => ?_
    subst hside
    refine h.connect.goto ht (by simp) fun _ _ => .inr ⟨r, hreq, ?_⟩
    rcases hpc with hpc | hpc <;> rw [hpc] <;> rfl
  | closing ht _ _ _ hx =>
    refine put fun hside => ?_
    subst hside
    exact h.connect.goto ht (fun _ => h.connect.loop.closed hx) fun hc => by cases hc
  | graceExpired ht hc =>
    refine put fun hside => ?_
    subst hside
    exact h.connect.goto ht (by simp) fun _ _ => .inl (h.connect.grace _ (List.mem_of_getElem? ht) hc)
  | @attach q t w u b ht hc hu hb =>
    obtain ⟨hcalls, hconn⟩ := below hb
    exact ⟨hcalls, hconn.goto ht (by simp) fun _ hreply => hconn.quit q t ht (by rw [hc]; rfl) hreply⟩
  | register _ _ _ hb | cancelDisc _ _ hb => exact ⟨(below hb).calls, (below hb).connect⟩

theorem attendingOK_init (cfg : NodeConfig) : AttendingOK (.init cfg) where
  calls := fun x hx => by cases hx
  connect :=
    { task := fun w hw => by cases hw
      loop := HandlerLoop.openUnless_init ..
      grace := fun t ht => by cases ht
      quit := fun q t ht => by cases ht }

/-! ## Aborted -/

/-- The connections of the OnConnect hooks that were aborted have been
removed. -/
def Aborted (hooks : List Hook) (ids : List Nat) (discs : List Disc) : Prop :=
  ∀ (h : Nat) y, hooks[h]? = some y → y.side = .connect → y.status = .aborted →
    ∃ k, ids[y.trigger]? = some k ∧ Owned Disc.removedId discs k

abbrev AbortedOK (s : State) : Prop := Aborted s.hooks (s.connect.triggers.map Trigger.id) s.base.base.discs

namespace Aborted

variable {H : List Hook} {I I' : List Nat} {D D' : List Disc} {y : Hook}

theorem grow (h : Aborted H I D) (hI : I <+: I')
    (hD : ∀ k, Owned Disc.removedId D k → Owned Disc.removedId D' k) : Aborted H I' D' := by
  intro w z hz hside hab
  obtain ⟨k, hk, hrem⟩ := h w z hz hside hab
  obtain ⟨_, rfl⟩ := hI
  exact ⟨k, getElem?_append_of_some hk _, hD k hrem⟩

theorem spawn (h : Aborted H I D)
    (hy : y.side = .connect → y.status = .aborted → ∃ k, I[y.trigger]? = some k ∧ Owned Disc.removedId D k) :
    Aborted (H ++ [y]) I D := by
  intro w z hz
  rcases getElem?_append_cases hz with ⟨-, rfl⟩ | hz
  · exact hy
  · exact h w z hz

theorem abortAll (h : Aborted H I D) (hs : List Handle)
    (hhs : ∀ w ∈ hs, ∀ z, H[w]? = some z → z.side = .connect →
      ∃ k, I[z.trigger]? = some k ∧ Owned Disc.removedId D k) : Aborted (abortAll H hs) I D := by
  intro w z' hz' hside hab
  -- the same task, before
  have horigin : ((Tasks.abortAll H hs).map Hook.origin)[w]? = (H.map Hook.origin)[w]? := by rw [abortAll_origin]
  rw [List.getElem?_map, List.getElem?_map, hz'] at horigin
  obtain ⟨z, hz, heq⟩ := Option.map_eq_some_iff.mp horigin.symm
  obtain ⟨hs', ht'⟩ := Prod.mk.inj heq
  rw [← ht']
  rw [← hs'] at hside
  by_cases hm : w ∈ hs
  · exact hhs w hm z hz hside
  · refine h w z hz hside ?_
    have hstatus : (statuses (Tasks.abortAll H hs))[w]? = (statuses H)[w]? := by
      rw [statuses_abortAll, TaskStatus.getElem?_abortEach hm]
    rw [getElem?_statuses hz, getElem?_statuses hz'] at hstatus
    exact (Option.some.inj hstatus).symm.trans hab

theorem finish {w : Handle} (h : Aborted H I D) (hy : H[w]? = some y) :
    Aborted (H.set w { y with status := .finished }) I D := by
  intro v z hz hside hab
  rcases getElem?_set_cases hy hz with ⟨-, rfl⟩ | ⟨-, hz⟩
  · cases hab
  · exact h v z hz hside hab

end Aborted

theorem State.react_hooks (s : State) (c : Shutdown.Act) :
    (s.react c).hooks = s.hooks ∨
      ∃ j, c = .base (.notifyDrain j) ∧ (s.react c).hooks = abortAll s.hooks (removedTasks s.removed j) := by
  cases c with
  | base x =>
    cases x with
    | remove j =>
      refine .inl ?_
      simp only [State.react]
      split <;> rfl
    | notifyDrain j => exact .inr ⟨j, rfl, rfl⟩
    | _ => exact .inl rfl
  | _ => exact .inl rfl

theorem removed_grows {b b' : Shutdown.State} {c : Shutdown.Act} (hs : Shutdown.StepR cfg b c b') {k : Nat}
    (h : Owned Disc.removedId b.base.discs k) : Owned Disc.removedId b'.base.discs k := by
  rcases hs.lifecycle with ⟨x, -, hx⟩ | hq
  · exact hx.removed_kept h
  · obtain ⟨ds, hds, -⟩ := hq.discs
    obtain ⟨d, hd, hk⟩ := h
    exact ⟨d, by rw [hds]; exact List.mem_append_left _ hd, hk⟩

/-- A connection that has a trigger and is not in `active` was removed. -/
theorem removed_of_trigger (hr : (hooks cfg abortable).Reachable s) {t : Trigger} (ht : t ∈ s.connect.triggers)
    (hn : ¬ InActive s.base.base.active t.id) : Owned Disc.removedId s.base.base.discs t.id := by
  have hnode := (Shutdown.projects cfg).reachable ((projects cfg abortable).reachable hr)
  have ht : t ∈ (s.get .connect).triggers := ht
  exact (enteredOK_reachable hnode t.id (trigger_entered hr ht)).resolve_left hn

theorem StepR.abortedOK (hr : (hooks cfg abortable).Reachable s) (hA : AttendingOK s) (h : AbortedOK s)
    (hs : StepR cfg abortable s a s') : AbortedOK s' := by
  have hH := handlersOK_reachable hr
  have hR := hasReadOK_reachable hr
  have hC := callersOK_reachable hr
  have hnode := (Shutdown.projects cfg).reachable ((projects cfg abortable).reachable hr)
  have hdiscs : ∀ k, Owned Disc.removedId s.base.base.discs k → Owned Disc.removedId s'.base.base.discs k := by
    intro k hk
    rcases hs.base_move with ⟨c, -, hc, -⟩ | ⟨hb, -⟩
    · exact removed_grows hc hk
    · rw [hb]; exact hk
  refine Aborted.grow ?_ (hs.ids_grow .connect) hdiscs
  -- the hook whose handle the caller of `t` has
  have handle : ∀ (side : Side) {q w z} {t : Trigger}, (s.get side).triggers[q]? = some t → t.caller = .responded w →
      s.hooks[w]? = some z → z.side = side ∧ z.trigger = q := by
    intro side q w z t ht hw hz
    have hread := hR side t (List.mem_of_getElem? ht) w (.inl hw)
    obtain ⟨y, hy, hside, htr⟩ := (hH side).hook q t w ht (by rw [hread]; rfl)
    rw [hz] at hy; cases hy
    exact ⟨hside, htr⟩
  cases hs with
  | @base c b =>
    rcases s.react_hooks c with he | ⟨j, -, he⟩
    · show Aborted (s.react c).hooks _ _
      rw [he]; exact h
    · show Aborted (s.react c).hooks _ _
      rw [he]
      refine h.abortAll _ fun w hw z hz hside => ?_
      obtain ⟨hs, hm, hw⟩ := mem_removedTasks.mp hw
      obtain ⟨d, k, hd, hk, htasks⟩ := (listedOK_reachable hr).removed _ hm
      obtain ⟨o, ho, hid⟩ := htasks w hw
      rw [List.getElem?_map, hz] at ho; cases ho
      exact ⟨k, hid hside, .of_getElem? hd hk⟩
  | receive => exact h.spawn fun _ hab => by cases hab
  | @receiveLate side x l q t hx hl hrec ht hc =>
    refine h.spawn fun hside hab => ?_
    dsimp only at hside
    subst hside
    refine ⟨t.id, by rw [List.getElem?_map, show s.connect.triggers[q]? = some t from ht]; rfl, ?_⟩
    -- the request was in the queue: the scheduling task went without an answer
    obtain ⟨r, rest, hreq, hq, -⟩ := receives_item (HandlerLoop.step_sound hl) hrec
    have hreply := (hH .connect).unanswered ht hreq ((hH .connect).loop.queued_unreceived hq hreq)
    have hempty : Emptied s.base := by
      rcases hA.connect.quit q t ht hc hreply with hb | ⟨r', hr', hpc⟩
      · exact hb
      · rw [show s.connect.loop.reqs[q]? = some r from hreq] at hr'; cases hr'
        rw [(hH .connect).loop.queued_pc hq hreq] at hpc; cases hpc
    exact removed_of_trigger hr (List.mem_of_getElem? ht) (not_inActive_of_empty hempty.empty _)
  | @attach q t w u b ht hc hu =>
    dsimp only
    split
    · exact h
    next hmiss =>
      refine h.abortAll [w] fun v hv z hz hside => ?_
      rw [List.mem_singleton.mp hv] at hz
      obtain ⟨-, htr⟩ := handle .connect ht hc hz
      refine ⟨t.id, by rw [htr, List.getElem?_map, ht]; rfl, removed_of_trigger hr (List.mem_of_getElem? ht) ?_⟩
      -- the connection would be where the scheduling task has looked
      rintro ⟨addr, e, he, hid⟩
      obtain ⟨v, hv, hvid, -⟩ := hC.sched t (List.mem_of_getElem? ht)
      rw [hu] at hv; cases hv
      have haddr := (entriesOK_reachable hnode).setup ((entriesOK_reachable hnode).sched u (List.mem_of_getElem? hu))
        addr e he (hid.trans hvid.symm)
      subst haddr
      exact hmiss (by simp [attachHandle, he, hid, hvid])
  | @register q t w d b ht hc =>
    dsimp only
    split
    · exact h
    · refine h.abortAll [w] fun v hv z hz hside => ?_
      rw [List.mem_singleton.mp hv] at hz
      rw [(handle .disconnect ht hc hz).1] at hside; cases hside
  | hookDone hy => exact h.finish hy
  | trigger | loop | sendFailed | dropLoop | respond | noResponse | closing | graceExpired =>
    rw [State.put_hooks]
    exact h
  | skip | waited | cancelDisc => exact h

end Hooks

end Pea2Pea
