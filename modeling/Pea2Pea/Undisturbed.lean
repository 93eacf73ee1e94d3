/-
Undisturbed runs of the node with its hooks: both protocols are enabled
before a connection is made, no disconnect and no `shut_down` is dropped, no
drain deadline passes and no grace period ends.

In such a run a trigger's send is never given up, the loops are not aborted,
and a channel is closed only when every trigger made has been answered. A
disconnect goes on only when its hook has ended. If OnConnect hooks are not
abortable, no hook task is aborted: what the removal of a connection aborts
has ended.
-/
import Pea2Pea.Detached
import Pea2Pea.NodeTasks

namespace Pea2Pea.Hooks

open Pool Tasks
open HandlerLoop (ReqPc)

/-- The act disturbs no hook: both protocols are there for a connection that
is made, and nobody gives up waiting. -/
def undisturbed (s : State) : Act → Bool
  | .base (.base (.adapt _)) => s.connect.task.isSome && s.disconnect.task.isSome
  | .base a => a.orderly
  | .cancelDisc _ | .graceExpired _ _ => false
  | _ => true

variable {cfg : NodeConfig} {abortable : Bool} {s s' : State} {a : Act}

/-- A step is an orderly one of the shutdown system, or none. -/
theorem StepR.base_step (hu : undisturbed s a = true) (hs : StepR cfg abortable s a s') :
    s'.base = s.base ∨ ∃ x, Shutdown.StepR cfg s.base x s'.base ∧ x.orderly = true := by
  cases hs with
  | @base x b hb =>
    refine .inr ⟨x, Shutdown.step_sound hb, ?_⟩
    cases x with
    | base c => rfl
    | _ => exact hu
  | attach ht hc hx hb => exact .inr ⟨_, Shutdown.step_sound hb, rfl⟩
  | register ht hc hd hb => exact .inr ⟨_, Shutdown.step_sound hb, rfl⟩
  | cancelDisc => cases hu
  | skip | waited | hookDone => exact .inl rfl
  | _ => exact .inl (State.put_base ..)

theorem orderly_reaches (h : (hooks cfg abortable).Reaches (fun s a => undisturbed s a = true) s) :
    Shutdown.Orderly s.base := by
  refine h.invariant (P := fun s => Shutdown.Orderly s.base) ?_ fun {s s' a} hr ho hu hs => ?_
  · constructor <;> simp [hooks, State.init, Shutdown.State.init]
  have hL := Shutdown.taskLedgerOK_reachable ((projects cfg abortable).reachable hr)
  rcases (step_sound hs).base_step hu with hb | ⟨x, hx, hox⟩
  · rw [hb]; exact ho
  · exact hx.orderly hL ho hox

/-! ## Triggers and loops -/

/-- The request is on its way to the loop, or received by it. -/
def ReqPc.inLine : ReqPc → Bool
  | .sending | .acquired | .queued | .processed => true
  | _ => false

/-- A trigger's caller listens for its hook, or has it. -/
def Standing (abortable : Bool) (side : Side) (t : Trigger) : Prop :=
  match t.caller with
  | .waiting | .grace => t.reply = .empty ∨ ∃ h, t.reply = .sent h
  | .responded h => (side = .connect → abortable = true) ∧ t.reply = .read h
  | .registered h => t.reply = .read h
  | .over => ∃ h, t.reply = .read h
  | .cancelled => False

theorem Standing.read {side : Side} {t : Trigger} (h : Standing abortable side t) (hc : t.caller.listening = false) :
    ∃ w, t.reply = .read w := by
  unfold Standing at h
  split at h
  next hpc => rw [hpc] at hc; cases hc
  next hpc => rw [hpc] at hc; cases hc
  next w _ => exact ⟨w, h.2⟩
  next w _ => exact ⟨w, h⟩
  · exact h
  · exact h.elim

structure SideOK (abortable : Bool) (b : Shutdown.State) (side : Side) (x : Handler) : Prop where
  task : ∀ h, x.task = some h → Shutdown.Wired b side.kind h
  signal : x.loop.signal = true → b.signal = true
  closed : x.loop.chan.closed = true → x.loop.signal = true
  reqs : ∀ r ∈ x.loop.reqs, ReqPc.inLine r.pc = true
  triggers : ∀ t ∈ x.triggers, Standing abortable side t
  alive : x.dropped = false

def SidesOK (abortable : Bool) (s : State) : Prop := ∀ side, SideOK abortable s.base side (s.get side)

theorem Side.kind_ne_listener (side : Side) : side.kind ≠ .listener := by cases side <;> simp [Side.kind]

namespace SideOK

variable {b b' : Shutdown.State} {side : Side} {x : Handler} {q : Nat} {t : Trigger}

theorem base {y : Shutdown.Act} (h : SideOK abortable b side x) (hL : Shutdown.TaskLedgerOK b) (hO : Shutdown.Orderly b)
    (hy : y.orderly = true) (hs : Shutdown.StepR cfg b y b') : SideOK abortable b' side x :=
  { h with
    task := fun w hw => hs.wired hL hO hy side.kind_ne_listener (h.task w hw)
    signal := fun hsig => hs.signal_mono (h.signal hsig) }

theorem goto {pc : CallerPc} {reply : Reply} (h : SideOK abortable b side x)
    (ht : Standing abortable side { t with caller := pc, reply := reply }) :
    SideOK abortable b side (x.goto q t pc reply) :=
  { h with triggers := forall_mem_set h.triggers ht }

theorem request {i id : Nat} (h : SideOK abortable b side x) :
    SideOK abortable b side (x.request ⟨i, id, .waiting, .empty⟩) :=
  { h with
    reqs := forall_mem_append h.reqs rfl
    triggers := forall_mem_append h.triggers (.inl rfl) }

/-- A step of the loop, or of a send. -/
theorem loop {l : HandlerLoop.State} {y : HandlerLoop.Act} (h : SideOK abortable b side x) (ha : x.allows y = true)
    (hl : HandlerLoop.StepR .hook x.loop y l) : SideOK abortable b side { x with loop := l } := by
  cases hl with
  | acquire | write | recvItem => exact { h with reqs := forall_mem_set h.reqs rfl }
  | close hpc hd hs => exact { h with closed := fun _ => hs }
  | subscribe | recvEnded | recvPending | park | wake | exit => exact { h with }
  | request | giveUp | signalShutdown | joinTask | joinNone | complete | panic | dropTasks | cancelTask => cases ha

end SideOK

/-- Who does not listen has read the hook, and the request was received. -/
theorem SidesOK.listening (h : SidesOK abortable s) (hH : HandlersOK s) {side : Side} {x : HandlerLoop.Act}
    {l : HandlerLoop.State} {q : Nat} {t : Trigger} (hl : HandlerLoop.step .hook (s.get side).loop x = some l)
    (hr : (s.get side).receives x = some q) (ht : (s.get side).triggers[q]? = some t) : t.caller.listening = true := by
  cases hc : t.caller.listening with
  | true => rfl
  | false =>
    obtain ⟨w, hw⟩ := ((h side).triggers t (List.mem_of_getElem? ht)).read hc
    obtain ⟨r, rest, hreq, hq, -⟩ := receives_item (HandlerLoop.step_sound hl) hr
    have hempty := (hH side).unanswered ht hreq ((hH side).loop.queued_unreceived hq hreq)
    rw [hw] at hempty; cases hempty

/-- No request was given up or dropped. -/
theorem SidesOK.not_refused (h : SidesOK abortable s) {side : Side} {q : Nat} {r : HandlerLoop.Req}
    (hr : (s.get side).loop.reqs[q]? = some r) : ¬ (r.pc = .unsent ∨ r.pc = .dropped) := by
  intro hpc
  have := (h side).reqs r (List.mem_of_getElem? hr)
  rcases hpc with hpc | hpc <;> · rw [hpc] at this; cases this

/-- The handle of a hook that is not abortable is leaked. -/
theorem SidesOK.not_responded (h : SidesOK false s) {q : Nat} {t : Trigger} {w : Handle}
    (ht : s.connect.triggers[q]? = some t) : t.caller ≠ .responded w := by
  intro hc
  have := (h .connect).triggers t (List.mem_of_getElem? ht)
  rw [Standing, hc] at this
  cases this.1 rfl

/-- With its channel closed, every trigger of a side is answered and through. -/
theorem SidesOK.closed_over (h : SidesOK abortable s) (hr : (hooks cfg abortable).Reachable s) {side : Side}
    (hc : (s.get side).loop.chan.closed = true) {t : Trigger} (ht : t ∈ (s.get side).triggers) :
    t.caller.ended = true := by
  have hb := (projects cfg abortable).reachable hr
  have hD := Shutdown.drained_reachable hb ((h side).signal ((h side).closed hc))
  have hC := callersOK_reachable hr
  cases he : t.caller.ended with
  | true => rfl
  | false =>
    cases side with
    | connect =>
      obtain ⟨u, hu, -, hrun⟩ := hC.sched t ht
      exact absurd (hrun he) (hD.unscheduled.scheds u (List.mem_of_getElem? hu))
    | disconnect =>
      obtain ⟨d, hd, -, hcl⟩ := hC.disc t ht
      have hL := ledgerOK_reachable ((Shutdown.projects cfg).reachable hb)
      obtain ⟨c, hc, -⟩ := hL.fin d (List.mem_of_getElem? hd) t.id (by rw [hcl he]; rfl)
      rw [Table.keys_eq_empty_iff.mp hD.empty] at hc
      cases hc

theorem SidesOK.closed_processed (h : SidesOK abortable s) (hr : (hooks cfg abortable).Reachable s) {side : Side}
    (hc : (s.get side).loop.chan.closed = true) {q : Nat} {r : HandlerLoop.Req}
    (hq : (s.get side).loop.reqs[q]? = some r) : r.pc = .processed := by
  have hH := handlersOK_reachable hr side
  have hlt : q < (s.get side).triggers.length := by rw [hH.length]; exact (List.getElem?_eq_some_iff.mp hq).1
  have ht := List.getElem?_eq_getElem hlt
  have hover := h.closed_over hr hc (List.mem_of_getElem? ht)
  obtain ⟨w, hw⟩ := ((h side).triggers _ (List.mem_of_getElem? ht)).read (by
    cases hpc : ((s.get side).triggers[q]).caller <;> simp_all [CallerPc.ended, CallerPc.listening])
  exact hH.loop.handled r (List.mem_of_getElem? hq) ((hH.received q _ r ht hq).mpr (by simp [hw, Reply.hook]))

/-- A step of the shutdown system, with what it is to the handlers. -/
theorem SidesOK.react (h : SidesOK abortable s) {x : Shutdown.Act} {b : Shutdown.State}
    (hL : Shutdown.TaskLedgerOK s.base) (hO : Shutdown.Orderly s.base) (hx : x.orderly = true)
    (hs : Shutdown.StepR cfg s.base x b) :
    SidesOK abortable { s.react x with base := b } := by
  intro side
  rw [State.get_base]
  have hkept := (h side).base hL hO hx hs
  rcases s.react_get x side with ⟨c, rfl, hget⟩ | ⟨n, stored, rfl, hget⟩ | hget
  · rw [hget]
    rcases s.wire_cases c side with hw | ⟨y, w, hy, hpc, hk, -, hw⟩
    · rw [hw]; exact hkept
    · rw [hw]
      refine { hkept with task := fun v hv => ?_ }
      cases hv
      rw [← hk]
      exact hs.publish_wired hL hO hy hpc (hk ▸ side.kind_ne_listener)
  · rw [hget]
    refine { hkept with signal := fun hsig => ?_, closed := fun hc => ?_ }
    · rcases Bool.or_eq_true_iff.mp hsig with hsig | hsig
      · exact hkept.signal hsig
      · subst hsig
        cases hs with
        | signalHandlers => exact Bool.or_true _
    · exact Bool.or_eq_true_iff.mpr (.inl (h side |>.closed hc))
  · rw [hget]; exact hkept

theorem SidesOK.put {side : Side} {x : Handler} (h : SidesOK abortable s) (hx : SideOK abortable s.base side x) :
    SidesOK abortable (s.put side x) := by
  intro σ
  rw [State.put_base]
  by_cases hσ : σ = side
  · subst hσ
    rw [State.get_put]
    exact hx
  · rw [State.get_put_ne s x hσ]
    exact h σ

theorem StepR.sidesOK (hr : (hooks cfg abortable).Reachable s) (hO : Shutdown.Orderly s.base) (h : SidesOK abortable s)
    (hu : undisturbed s a = true) (hs : StepR cfg abortable s a s') : SidesOK abortable s' := by
  have hL := Shutdown.taskLedgerOK_reachable ((projects cfg abortable).reachable hr)
  have hH := handlersOK_reachable hr
  -- the hook tasks are not among what is said here
  have hooked : ∀ {t : State} {H}, SidesOK abortable t → SidesOK abortable { t with hooks := H } := by
    intro t H ht side
    have hget : State.get { t with hooks := H } side = t.get side := by cases side <;> rfl
    rw [hget]
    exact ht side
  cases hs with
  | @base x b hb =>
    refine h.react hL hO ?_ (Shutdown.step_sound hb)
    cases x with
    | base c => rfl
    | _ => exact hu
  | @trigger side => exact h.put (h side).request
  | skip => exact fun side => by cases side <;> exact h _
  | @loop side x l ha hl => exact h.put ((h side).loop ha (HandlerLoop.step_sound hl))
  | @receive side x l q t ha hl hr ht hc =>
    refine hooked (h.put (((h side).loop ha (HandlerLoop.step_sound hl)).goto ?_))
    unfold Standing
    cases hpc : t.caller with
    | waiting => exact .inr ⟨_, rfl⟩
    | grace => exact .inr ⟨_, rfl⟩
    | _ => rw [hpc] at hc; cases hc
  | receiveLate ha hl hrec ht hc =>
    rw [h.listening hH hl hrec ht] at hc
    cases hc
  | sendFailed hc hl =>
    cases HandlerLoop.step_sound hl with
    | giveUp hq hpc =>
      have := h.closed_processed hr hc hq
      rw [hpc] at this; cases this
  | @dropLoop side w t ht hw ha =>
    have hi := ((h side).task w ht).intact
    exact absurd ((getElem?_statuses hw).trans (congrArg some ha)) hi
  | @respond side q t w ht hreply hc =>
    refine h.put ((h side).goto ?_)
    cases side with
    | connect =>
      cases abortable with
      | false => exact ⟨w, rfl⟩
      | true => exact ⟨fun _ => rfl, rfl⟩
    | disconnect => exact ⟨fun hside => (by cases hside), rfl⟩
  | noResponse ht hr hc hpc => exact absurd hpc (h.not_refused hr)
  | @closing side q t r ht hr hc he => exact h.put ((h side).goto (.inl he))
  | graceExpired => cases hu
  | @attach q t w u b ht hc hx hb =>
    have hread := (h .connect).triggers t (List.mem_of_getElem? ht)
    rw [Standing, hc] at hread
    have hbase : ∀ side, SideOK abortable b side (s.get side) :=
      fun side => (h side).base hL hO rfl (Shutdown.step_sound hb)
    intro side
    cases side with
    | connect => exact (hbase .connect).goto ⟨w, hread.2⟩
    | disconnect => exact hbase .disconnect
  | @register q t w d b ht hc hd hb =>
    have hread := (h .disconnect).triggers t (List.mem_of_getElem? ht)
    rw [Standing, hc] at hread
    have hbase : ∀ side, SideOK abortable b side (s.get side) :=
      fun side => (h side).base hL hO rfl (Shutdown.step_sound hb)
    intro side
    cases side with
    | connect => exact hbase .connect
    | disconnect => exact (hbase .disconnect).goto hread.2
  | @waited q t w ht hc =>
    have hread := (h .disconnect).triggers t (List.mem_of_getElem? ht)
    rw [Standing, hc] at hread
    intro side
    cases side with
    | connect => exact h .connect
    | disconnect => exact (h .disconnect).goto ⟨w, hread⟩
  | cancelDisc => cases hu
  | hookDone => exact hooked h

theorem sidesOK_reaches (h : (hooks cfg abortable).Reaches (fun s a => undisturbed s a = true) s) :
    SidesOK abortable s := by
  refine h.invariant (fun side => ?_) fun hr ho hu hs =>
    (step_sound hs).sidesOK hr.reachable (orderly_reaches hr) ho hu
  have hget : (hooks cfg abortable).init.get side = .init cfg := by cases side <;> rfl
  rw [hget]
  exact
    { task := fun w hw => by cases hw
      signal := fun hs => by cases hs
      closed := fun hc => by cases hc
      reqs := fun r hr => by cases hr
      triggers := fun t ht => by cases ht
      alive := rfl }

/-! ## Hooks awaited -/

/-- A disconnect goes on only when its hook has ended. -/
def ThroughOK (s : State) : Prop :=
  ∀ t ∈ s.disconnect.triggers, t.caller = .over → ∀ h, t.reply = .read h → Over s.hooks h

theorem ThroughOK.later (h : ThroughOK s) (hd : s'.disconnect.triggers = s.disconnect.triggers)
    (hl : Later s.hooks s'.hooks) : ThroughOK s' := by
  intro t ht hc w hw
  rw [hd] at ht
  exact hl w (h t ht hc w hw)

theorem StepR.throughOK (hH : HandlersOK s) (hS : SidesOK abortable s) (h : ThroughOK s) (hu : undisturbed s a = true)
    (hs : StepR cfg abortable s a s') : ThroughOK s' := by
  -- a caller moves on, and is not through with its hook
  have move : ∀ {side q t pc reply} {x : Handler}, x.triggers = (s.get side).triggers →
      (side = .disconnect → pc ≠ .over) → ThroughOK (s.put side (x.goto q t pc reply)) := by
    intro side q t pc reply x hx hpc
    cases side with
    | connect => exact h
    | disconnect =>
      refine forall_mem_set ?_ fun hover => absurd hover (hpc rfl)
      rw [hx]
      exact h
  have handle : ∀ {c : Bool} {w : Handle}, Later s.hooks (if c then s.hooks else abort s.hooks w) := by
    intro c w
    cases c with
    | true => exact .refl _
    | false => exact later_abort _ _
  cases hs with
  | @base x b hb hf => exact h.later (s.react_triggers x .disconnect) (s.react_later x)
  | @trigger side =>
    cases side with
    | connect => exact h
    | disconnect => exact forall_mem_append h fun hc => by cases hc
  | skip => exact h
  | @loop side | @sendFailed side | @dropLoop side => cases side <;> exact h
  | @receive side x l q t ha hl hr ht hc =>
    refine (move (x := { s.get side with loop := l }) rfl fun _ hover => ?_).later rfl ?_
    · rw [hover] at hc
      cases hc
    · cases side <;> exact later_append _ _
  | receiveLate ha hl hr ht hc =>
    rw [hS.listening hH hl hr ht] at hc
    cases hc
  | respond ht hr hc => exact move rfl fun hside => by simp [hside]
  | noResponse ht hr hc hpc => exact absurd hpc (hS.not_refused hr)
  | closing ht => exact move rfl (by simp)
  | graceExpired => cases hu
  | attach => exact h.later rfl handle
  | register =>
    refine forall_mem_set (fun t ht hc w hw => handle w (h t ht hc w hw)) fun hover => ?_
    cases hover
  | @waited q t w ht hc hn =>
    have hread := (hS .disconnect).triggers t (List.mem_of_getElem? ht)
    rw [Standing, hc] at hread
    obtain ⟨y, hy, -⟩ := (hH .disconnect).hook q t w ht (by rw [hread]; rfl)
    refine forall_mem_set h fun _ v hv => ?_
    cases hread.symm.trans hv
    exact over_iff.mpr ⟨y, hy, hn y hy⟩
  | cancelDisc => cases hu
  | hookDone => exact h.later rfl (later_set fun hr => by cases hr)

theorem throughOK_reaches (h : (hooks cfg abortable).Reaches (fun s a => undisturbed s a = true) s) : ThroughOK s := by
  refine h.invariant ?_ fun hr ho hu hs =>
    (step_sound hs).throughOK (handlersOK_reachable hr.reachable) (sidesOK_reaches hr) ho hu
  simp [ThroughOK, hooks, State.init, Handler.init]

/-! ## Enabled first -/

/-- Every connection found both protocols enabled. -/
structure EnabledOK (s : State) : Prop where
  skipped : s.skipped = []
  wired : ∀ k, Owned Setup.connId s.base.base.setups k → ∀ side, (s.get side).task ≠ none
  onConnect : s.connect.task ≠ none → s.base.base.onConnect = true
  hooked : Hooked s.base.base.setups s.base.base.scheds

theorem State.react_task (s : State) (x : Shutdown.Act) {side : Side} (h : (s.get side).task ≠ none) :
    ((s.react x).get side).task ≠ none := by
  rcases s.react_get x side with ⟨c, -, hget⟩ | ⟨n, stored, -, hget⟩ | hget
  · rw [hget]
    rcases s.wire_cases c side with hw | ⟨y, w, -, -, -, -, hw⟩
    · rw [hw]; exact h
    · rw [hw]; simp
  · rw [hget]; exact h
  · rw [hget]; exact h

namespace EnabledOK

/-- The connections, and who is enabled, are as before. -/
theorem same (h : EnabledOK s) (hb : s'.base = s.base) (hk : s'.skipped = s.skipped)
    (ht : ∀ side, (s'.get side).task = (s.get side).task) : EnabledOK s' where
  skipped := hk.trans h.skipped
  wired k hk side := by
    rw [hb] at hk
    rw [ht side]
    exact h.wired k hk side
  onConnect hc := by
    rw [hb]
    exact h.onConnect (ht .connect ▸ hc)
  hooked := by rw [hb]; exact h.hooked

theorem put {side : Side} {x : Handler} (h : EnabledOK s) (hx : x.task = (s.get side).task) :
    EnabledOK (s.put side x) := by
  refine h.same (State.put_base ..) (by cases side <;> rfl) fun σ => ?_
  by_cases hσ : σ = side
  · subst hσ
    rw [State.get_put]
    exact hx
  · rw [State.get_put_ne s x hσ]

theorem base {x : Shutdown.Act} {b : Shutdown.State} (h : EnabledOK s) (hs : Shutdown.StepR cfg s.base x b)
    (ha : ∀ i, x = .base (.adapt i) → ∀ side, (s.get side).task ≠ none) :
    EnabledOK { s.react x with base := b } where
  skipped := (s.react_skipped x).trans h.skipped
  wired k hk side := by
    rw [State.get_base]
    refine s.react_task x ?_
    rcases hs.lifecycle with ⟨c, rfl, hc⟩ | hq
    · rcases hc.connId_cases hk with hold | ⟨i, rfl⟩
      · exact h.wired k hold side
      · exact ha i rfl side
    · rw [hq.setups] at hk
      exact h.wired k hk side
  onConnect hc := by
    have hmono : s.connect.task ≠ none → b.base.onConnect = true := fun hold => hs.onConnect_mono (h.onConnect hold)
    have hget : ∀ {y}, (s.react x).get .connect = y → y.task ≠ none := fun hy => hy ▸ hc
    rcases s.react_get x .connect with ⟨c, rfl, he⟩ | ⟨n, stored, rfl, he⟩ | he
    · rcases s.wire_cases c .connect with hw | ⟨y, w, hy, hpc, hk, hp, -⟩
      · exact hmono (hget (he.trans hw))
      · -- this is when OnConnect is enabled
        cases hs with
        | publish hx =>
          rw [hy] at hx; cases hx
          simp [hk, Side.kind]
        | publishTwice hx _ _ hp' => rw [hy] at hx; cases hx; exact absurd hp' hp
        | publishAddr hx _ hl => rw [hy] at hx; cases hx; rw [hk] at hl; cases hl
    · have hold := hget he
      exact hmono hold
    · exact hmono (hget he)
  hooked := by
    rcases hs.lifecycle with ⟨c, -, hc⟩ | hq
    · refine hc.hooked (fun t ht id hpc => ?_) h.hooked
      exact h.onConnect (h.wired id ⟨t, ht, by rw [Setup.connId, hpc]; rfl⟩ .connect)
    · rw [show ({ s.react x with base := b } : State).base = b from rfl, hq.setups, hq.scheds]
      exact h.hooked

end EnabledOK

theorem StepR.enabledOK (hL : LedgerOK s.base.base) (hS : SidesOK false s) (h : EnabledOK s)
    (hu : undisturbed s a = true) (hs : StepR cfg false s a s') : EnabledOK s' := by
  have hooked : ∀ {t : State} {H}, EnabledOK t → EnabledOK { t with hooks := H } :=
    fun ht => ht.same rfl rfl fun σ => by cases σ <;> rfl
  cases hs with
  | @base x b hb =>
    refine h.base (Shutdown.step_sound hb) fun i hi side => ?_
    subst hi
    simp only [undisturbed, Bool.and_eq_true, Option.isSome_iff_ne_none] at hu
    cases side with
    | connect => exact hu.1
    | disconnect => exact hu.2
  | trigger => exact h.put rfl
  | @skip j id hj hn ht =>
    -- the claimed connection found OnDisconnect enabled
    simp only [State.callerId, Option.bind_eq_bind, Option.bind_eq_some_iff] at hj
    obtain ⟨d, hd, hj⟩ := hj
    split at hj
    next hpc =>
      obtain ⟨x, hx, hid⟩ := (hL.claimed _ (.of_getElem? hd (by rw [Disc.claimedId, hpc]; rfl))).1
      exact absurd ht (h.wired _ ⟨x, hx, Setup.connId_of_enteredId hid⟩ .disconnect)
    · cases hj
  | loop => exact h.put rfl
  | receive | receiveLate => exact hooked (h.put rfl)
  | sendFailed => exact h.put rfl
  | dropLoop => exact h.put rfl
  | respond | noResponse | closing | graceExpired => exact h.put rfl
  | attach ht hc => exact absurd hc (hS.not_responded ht)
  | @register q t w d b ht hc hd hb =>
    exact EnabledOK.same (h.base (Shutdown.step_sound hb) (by simp)) rfl rfl fun σ => by cases σ <;> rfl
  | waited => exact h.same rfl rfl fun σ => by cases σ <;> rfl
  | cancelDisc => cases hu
  | hookDone => exact hooked h

theorem enabledOK_reaches (h : (hooks cfg false).Reaches (fun s a => undisturbed s a = true) s) : EnabledOK s := by
  refine h.invariant ⟨rfl, fun k hk => absurd hk not_owned_nil, fun hc => absurd rfl hc, ?_⟩ fun hr ho hu hs => ?_
  · exact ⟨by simp [hooks, State.init, Shutdown.State.init, Pea2Pea.State.init],
      by simp [hooks, State.init, Shutdown.State.init, Pea2Pea.State.init]⟩
  · have hL := ledgerOK_reachable ((Shutdown.projects cfg).reachable ((projects cfg false).reachable hr))
    exact (step_sound hs).enabledOK hL (sidesOK_reaches hr) ho hu

/-! ## The hook tasks -/

/-- No hook task was aborted, nor can one be: the handles with a connection
are those of its OnDisconnect trigger, whose hook has ended when the
connection is removed. -/
structure Unaborted (active : Active) (triggers : List Trigger) (removed : List (Nat × List Handle))
    (hooks : List Hook) : Prop where
  none : .aborted ∉ statuses hooks
  tasks : ∀ addr c, active.lookup addr = some c → ∀ h ∈ c.tasks, ∃ t ∈ triggers, t.id = c.id ∧ t.reply = .read h
  taken : ∀ r ∈ removed, ∀ h ∈ r.2, Over hooks h

namespace Unaborted

variable {A : Active} {T : List Trigger} {R : List (Nat × List Handle)} {H H' : List Hook} {q : Nat} {t : Trigger}

theorem later (h : Unaborted A T R H) (hl : Later H H') (hn : .aborted ∉ statuses H') : Unaborted A T R H' where
  none := hn
  tasks := h.tasks
  taken r hr w hw := hl w (h.taken r hr w hw)

theorem spawn {y : Hook} (h : Unaborted A T R H) (hy : y.status = .running) : Unaborted A T R (H ++ [y]) :=
  h.later (later_append _ _) (by simp [hy, h.none])

theorem goto {pc : CallerPc} {reply : Reply} (h : Unaborted A T R H) (ht : T[q]? = some t)
    (hr : ∀ w, t.reply = .read w → reply = .read w) :
    Unaborted A (T.set q { t with caller := pc, reply := reply }) R H :=
  { h with
    tasks := fun addr c hc w hw => exists_mem_set (h.tasks addr c hc w hw) ht fun hp => ⟨hp.1, hr w hp.2⟩ }

theorem request (h : Unaborted A T R H) : Unaborted A (T ++ [t]) R H :=
  { h with
    tasks := fun addr c hc w hw => by
      obtain ⟨z, hz, hrest⟩ := h.tasks addr c hc w hw
      exact ⟨z, List.mem_append_left _ hz, hrest⟩ }

end Unaborted

abbrev UnabortedOK (s : State) : Prop := Unaborted s.base.base.active s.disconnect.triggers s.removed s.hooks

/-- The handles with a connection whose finalizer is about to remove it are
those of hooks that have ended. -/
theorem UnabortedOK.ended (h : UnabortedOK s) (hL : LedgerOK s.base.base) (hC : CallersOK s) (hS : SidesOK false s)
    (hT : ThroughOK s) {j : Nat} {d : Disc} {id : Nat} {c : Connection} (hd : s.base.base.discs[j]? = some d)
    (hpc : d.pc = .dropping id) (hc : s.base.base.active.lookup d.addr = some c) : ∀ w ∈ c.tasks, Over s.hooks w := by
  intro w hw
  obtain ⟨t, ht, hid, hr⟩ := h.tasks d.addr c hc w hw
  obtain ⟨c', hc', hcid, -⟩ := hL.fin d (List.mem_of_getElem? hd) id (by rw [hpc]; rfl)
  rw [hc] at hc'; cases hc'
  obtain ⟨e, he, heid, hclaimed⟩ := hC.disc t ht
  -- the trigger is this disconnect's, which is through with it
  have hj : t.owner = j :=
    hL.claims t.owner j e d id he hd (by rw [heid, hid, hcid]) (by rw [Disc.claimedId, hpc]; rfl)
  rw [hj, hd] at he; cases he
  have hstand := (hS .disconnect).triggers t ht
  have hended : t.caller.ended = true := by
    cases hend : t.caller.ended with
    | true => rfl
    | false => have := hclaimed hend; rw [hpc] at this; cases this
  refine hT t ht ?_ w hr
  unfold Standing at hstand
  generalize t.caller = pc at hended hstand ⊢
  cases pc <;> first | rfl | exact False.elim hstand | cases hended

/-- A step of the shutdown system. -/
theorem UnabortedOK.base {x : Shutdown.Act} {b : Shutdown.State} (h : UnabortedOK s) (hL : LedgerOK s.base.base)
    (hC : CallersOK s) (hS : SidesOK false s) (hT : ThroughOK s) (hs : Shutdown.StepR cfg s.base x b)
    (hins : ∀ i tasks, x = .base (.insert i tasks) → tasks = []) (hatt : ∀ k w, x ≠ .base (.attach k w))
    (hreg : ∀ (j : Nat) d w, x = .base (.register j w) → s.base.base.discs[j]? = some d →
      ∀ c, s.base.base.active.lookup d.addr = some c →
        ∃ t ∈ s.disconnect.triggers, t.id = c.id ∧ t.reply = .read w) :
    Unaborted b.base.active s.disconnect.triggers (s.react x).removed (s.react x).hooks := by
  have hactive : Unaborted b.base.active s.disconnect.triggers s.removed s.hooks := by
    refine { h with tasks := fun addr c' hc' w hw => ?_ }
    rcases hs.lifecycle with ⟨y, rfl, hy⟩ | hq
    · rcases hy.entry_origin hc' with ⟨i, rfl⟩ | ⟨c, hc, hid, -, htasks⟩
      · rw [hins i _ rfl] at hw; cases hw
      · rw [hid]
        rcases htasks w hw with hold | ⟨k, rfl⟩ | ⟨j, d, rfl, hd, rfl⟩
        · exact h.tasks addr c hc w hold
        · exact absurd rfl (hatt k w)
        · exact hreg j d w rfl hd c hc
    · rw [hq.active] at hc'
      exact h.tasks addr c' hc' w hw
  cases x with
  | base y =>
    cases y with
    | remove j =>
      simp only [State.react]
      split
      next conn hconn =>
        obtain ⟨d, hd, hc⟩ := Option.bind_eq_some_iff.mp hconn
        refine { hactive with taken := List.forall_mem_cons.mpr ⟨?_, hactive.taken⟩ }
        cases hs with
        | base hb =>
          obtain ⟨e, id, he, hpc, -⟩ := (Pea2Pea.step_sound hb).remove_cases
          rw [hd] at he; cases he
          exact h.ended hL hC hS hT hd hpc hc
      · exact hactive
    | notifyDrain j =>
      -- the tasks that are dropped have ended
      have hended : ∀ w ∈ removedTasks s.removed j, Over s.hooks w := by
        intro w hw
        obtain ⟨ws, hmem, hws⟩ := mem_removedTasks.mp hw
        exact h.taken _ hmem w hws
      refine hactive.later (later_abortAll _ _) ?_
      rw [State.react, statuses_abortAll, TaskStatus.abortEach_of_ended hended]
      exact h.none
    | _ => exact hactive
  | _ => exact hactive

theorem StepR.unabortedOK (hL : LedgerOK s.base.base) (hH : HandlersOK s) (hC : CallersOK s) (hS : SidesOK false s)
    (hT : ThroughOK s) (h : UnabortedOK s) (hu : undisturbed s a = true) (hs : StepR cfg false s a s') :
    UnabortedOK s' := by
  have hD := hH .disconnect
  have keep : ∀ {side} {x : Handler}, x.triggers = (s.get side).triggers → UnabortedOK (s.put side x) := by
    intro side x hx
    cases side with
    | connect => exact h
    | disconnect => simp only [UnabortedOK, State.put, hx]; exact h
  have move : ∀ {side q t pc reply}, (s.get side).triggers[q]? = some t →
      (∀ w, t.reply = .read w → reply = .read w) → UnabortedOK (s.put side ((s.get side).goto q t pc reply)) := by
    intro side q t pc reply ht hr
    cases side with
    | connect => exact h
    | disconnect => exact h.goto ht hr
  cases hs with
  | @base x b hb hf =>
    have hd : (s.react x).disconnect.triggers = s.disconnect.triggers := s.react_triggers x .disconnect
    simp only [UnabortedOK, hd]
    refine h.base hL hC hS hT (Shutdown.step_sound hb) (fun i tasks hx => ?_) (fun k w hx => ?_) fun j d w hx => ?_
    · subst hx; simpa [State.free] using hf
    · subst hx; cases hf
    · subst hx; cases hf
  | @trigger side =>
    cases side with
    | connect => exact h
    | disconnect => exact h.request
  | skip => exact h
  | loop => exact keep rfl
  | @receive side x l q t ha hl hr ht hc =>
    cases side with
    | connect => exact h.spawn rfl
    | disconnect =>
      obtain ⟨r, rest, hreq, hq, -⟩ := receives_item (HandlerLoop.step_sound hl) hr
      have hempty := hD.unanswered ht hreq (hD.loop.queued_unreceived hq hreq)
      refine Unaborted.spawn (h.goto ht fun w hw => ?_) rfl
      rw [hempty] at hw; cases hw
  | receiveLate ha hl hr ht hc =>
    rw [hS.listening hH hl hr ht] at hc
    cases hc
  | sendFailed => exact keep rfl
  | dropLoop => exact keep rfl
  | respond ht hr hc =>
    refine move ht fun v hv => ?_
    rw [hr] at hv; cases hv
  | noResponse ht hr hc hpc => exact absurd hpc (hS.not_refused hr)
  | closing ht => exact move ht fun _ => id
  | graceExpired => cases hu
  | attach ht hc => exact absurd hc (hS.not_responded ht)
  | @register q t w d b ht hc hd hb =>
    have htm := List.mem_of_getElem? ht
    have hread := (hS .disconnect).triggers t htm
    rw [Standing, hc] at hread
    obtain ⟨e, he, -, hclaimed⟩ := hC.disc t htm
    rw [hd] at he; cases he
    obtain ⟨c, hlook, hid, -⟩ := hL.fin d (List.mem_of_getElem? hd) t.id (by rw [hclaimed (by rw [hc]; rfl)]; rfl)
    have hbase := h.base hL hC hS hT (Shutdown.step_sound hb) (by simp) (by simp) fun j e v hx he c' hc' => by
      cases hx
      rw [hd] at he; cases he
      rw [hlook] at hc'; cases hc'
      exact ⟨t, htm, hid.symm, hread.2⟩
    simp only [hlook, Option.isSome_some, if_true]
    exact hbase.goto ht fun _ => id
  | waited ht => exact h.goto ht fun _ => id
  | cancelDisc => cases hu
  | @hookDone w y hy hr =>
    refine h.later (later_set fun hr => by cases hr) fun hm => ?_
    rw [statuses_set] at hm
    rcases List.mem_or_eq_of_mem_set hm with hm | hm
    · exact h.none hm
    · cases hm

theorem unabortedOK_reaches (h : (hooks cfg false).Reaches (fun s a => undisturbed s a = true) s) : UnabortedOK s := by
  refine h.invariant ?_ fun hr ho hu hs => ?_
  · constructor <;> simp [hooks, State.init, Shutdown.State.init, Pea2Pea.State.init, Handler.init, statuses]
  · have hL := ledgerOK_reachable ((Shutdown.projects cfg).reachable ((projects cfg false).reachable hr))
    exact (step_sound hs).unabortedOK hL (handlersOK_reachable hr.reachable) (callersOK_reachable hr.reachable)
      (sidesOK_reaches hr) (throughOK_reaches hr) ho hu

/-! ## Served -/

/-- The finalizer's drop has begun. -/
def DiscPc.finalized : DiscPc → Bool
  | .dropping _ | .removed _ _ | .done (some _) _ => true
  | _ => false

/-- Who has gone on is through with its hook. -/
structure ServedOK (s : State) : Prop where
  scheds : ∀ (k : Nat) u, s.base.base.scheds[k]? = some u → u.pc ≠ .running → s.connect.served k = true
  discs : ∀ (j : Nat) d, s.base.base.discs[j]? = some d → DiscPc.finalized d.pc = true → s.disconnect.served j = true

theorem Handler.served_iff {x : Handler} {i : Nat} :
    x.served i = true ↔ ∃ t ∈ x.triggers, t.owner = i ∧ t.caller = .over := by
  simp [Handler.served]

theorem Handler.served_goto {x : Handler} {q i : Nat} {t : Trigger} {pc : CallerPc} {reply : Reply}
    (ht : x.triggers[q]? = some t) (hpc : t.caller = .over → pc = .over) (h : x.served i = true) :
    (x.goto q t pc reply).served i = true := by
  rw [served_iff] at h ⊢
  exact exists_mem_set h ht fun hp => ⟨hp.1, hpc hp.2⟩

namespace ServedOK

/-- The callers are where they were, or through. -/
theorem mono (h : ServedOK s) (hb : s'.base = s.base)
    (hs : ∀ side i, (s.get side).served i = true → (s'.get side).served i = true) : ServedOK s' where
  scheds k u hu hpc := by
    rw [hb] at hu
    exact hs .connect k (h.scheds k u hu hpc)
  discs j d hd hpc := by
    rw [hb] at hd
    exact hs .disconnect j (h.discs j d hd hpc)

theorem put {side : Side} {x : Handler} (h : ServedOK s) (hx : ∀ i, (s.get side).served i = true → x.served i = true) :
    ServedOK (s.put side x) := by
  refine h.mono (State.put_base ..) fun σ i hi => ?_
  by_cases hσ : σ = side
  · subst hσ
    rw [State.get_put]
    exact hx i hi
  · rwa [State.get_put_ne s x hσ]

theorem base {x : Shutdown.Act} {b : Shutdown.State} (h : ServedOK s) (hs : Shutdown.StepR cfg s.base x b)
    (hsched : ∀ k, x = .base (.schedDone k) → s.connect.served k = true)
    (hfin : ∀ j, x = .base (.finalize j) → s.disconnect.served j = true) :
    ServedOK { s with base := b } where
  scheds k u hu hpc := by
    cases hk : s.base.base.scheds[k]? with
    | none => exact absurd (hs.sched_new hk hu) hpc
    | some v =>
      obtain ⟨p, hu', hp⟩ := hs.sched_move hk
      rw [show b.base.scheds[k]? = some u from hu] at hu'; cases hu'
      rcases hp with rfl | ⟨c, rfl, hm⟩
      · exact h.scheds k v hk hpc
      · generalize hvpc : v.pc = vpc at hm
        cases hm with
        | done => exact hsched k rfl
        | notify => exact h.scheds k v hk (by simp [hvpc])
  discs j d hd hpc := by
    cases hj : s.base.base.discs[j]? with
    | none =>
      rw [hs.disc_new hj hd] at hpc
      cases hpc
    | some e =>
      obtain ⟨p, hd', hp⟩ := hs.disc_move hj
      rw [show b.base.discs[j]? = some d from hd] at hd'; cases hd'
      rcases hp with rfl | ⟨c, rfl, hm⟩
      · exact h.discs j e hj hpc
      · generalize hepc : e.pc = epc at hm
        cases hm with
        | claim | claimNone | cancel => cases hpc
        | finalize => exact hfin j rfl
        | remove | removeNone | notify => exact h.discs j e hj (by rw [hepc]; rfl)

end ServedOK

theorem StepR.servedOK (hE : EnabledOK s) (h : ServedOK s) (hu : undisturbed s a = true)
    (hs : StepR cfg false s a s') : ServedOK s' := by
  have hooked : ∀ {t : State} {H}, ServedOK t → ServedOK { t with hooks := H } :=
    fun ht => ht.mono rfl fun σ i hi => by cases σ <;> exact hi
  have waiting : ∀ {t : Trigger} {pc : CallerPc}, t.caller.ended = false → t.caller = .over → pc = .over :=
    fun he ho => by rw [ho] at he; cases he
  cases hs with
  | @base x b hb hf =>
    have hbase : ServedOK { s with base := b } := by
      refine h.base (Shutdown.step_sound hb) (fun k hx => ?_) fun j hx => ?_
      · subst hx; exact hf
      · subst hx
        simpa [State.free, hE.skipped] using hf
    refine hbase.mono rfl fun σ i hi => ?_
    simp only [State.get_base] at hi ⊢
    rwa [Handler.served, s.react_triggers]
  | @trigger side i id w hi hn hk ht =>
    refine h.put fun i hi => ?_
    rw [Handler.served_iff] at hi ⊢
    obtain ⟨z, hz, hrest⟩ := hi
    exact ⟨z, List.mem_append_left _ hz, hrest⟩
  | skip => exact h.mono rfl fun σ i hi => by cases σ <;> exact hi
  | loop => exact h.put fun _ => id
  | receive ha hl hr ht | receiveLate ha hl hr ht => exact hooked (h.put fun i => Handler.served_goto ht id)
  | sendFailed => exact h.put fun _ => id
  | dropLoop => exact h.put fun _ => id
  | respond ht hr hc => exact h.put fun i => Handler.served_goto ht (waiting (CallerPc.not_ended hc))
  | noResponse ht | graceExpired ht => exact h.put fun i => Handler.served_goto ht fun _ => rfl
  | closing ht hr hc => exact h.put fun i => Handler.served_goto ht (waiting (by rw [hc]; rfl))
  | @attach q t w u b ht hc hx hb =>
    refine ServedOK.mono (h.base (Shutdown.step_sound hb) (by simp) (by simp)) rfl fun σ i hi => ?_
    cases σ with
    | connect => exact Handler.served_goto ht (fun _ => rfl) hi
    | disconnect => exact hi
  | @register q t w d b ht hc hd hb =>
    refine ServedOK.mono (h.base (Shutdown.step_sound hb) (by simp) (by simp)) rfl fun σ i hi => ?_
    cases σ with
    | connect => exact hi
    | disconnect => exact Handler.served_goto ht (waiting (by rw [hc]; rfl)) hi
  | @waited q t w ht hc =>
    refine h.mono rfl fun σ i hi => ?_
    cases σ with
    | connect => exact hi
    | disconnect => exact Handler.served_goto ht (fun _ => rfl) hi
  | cancelDisc => cases hu
  | hookDone => exact hooked h

theorem servedOK_reaches (h : (hooks cfg false).Reaches (fun s a => undisturbed s a = true) s) : ServedOK s := by
  refine h.invariant ?_ fun hr ho hu hs => (step_sound hs).servedOK (enabledOK_reaches hr) ho hu
  constructor <;> simp [hooks, State.init, Shutdown.State.init, Pea2Pea.State.init]

end Pea2Pea.Hooks
