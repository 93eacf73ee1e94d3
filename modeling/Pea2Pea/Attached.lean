/-
An abortable OnConnect hook follows its own connection.

Its handle goes from the response oneshot to the scheduling task, and from
there to the connection with the hook's id if that is still in `active`; or
the hook is aborted. From then on it is among the connection's tasks, in
`active` and out of it, until the disconnect that removed the connection
drops it.
-/
import Pea2Pea.Detached

namespace Pea2Pea.Hooks

open Pool Tasks

variable {cfg : NodeConfig} {s s' : State} {a : Act}

/-! ## With its own connection -/

/-- A task of connection `k`: an OnConnect hook there is one for `k`. -/
def TaskOf (origins : List (Side × Nat)) (ids : List Nat) (k : Nat) (h : Handle) : Prop :=
  ∃ o, origins[h]? = some o ∧ (o.1 = .connect → ids[o.2]? = some k)

theorem TaskOf.grow {O O' : List (Side × Nat)} {I I' : List Nat} {k : Nat} {h : Handle} (ht : TaskOf O I k h)
    (hO : O <+: O') (hI : I <+: I') : TaskOf O' I' k h := by
  obtain ⟨o, ho, hid⟩ := ht
  obtain ⟨_, rfl⟩ := hO
  obtain ⟨_, rfl⟩ := hI
  exact ⟨o, getElem?_append_of_some ho _, fun hc => getElem?_append_of_some (hid hc) _⟩

/-- The tasks of the connections, in `active` and removed from it. -/
structure Listed (active : Active) (discs : List Disc) (removed : List (Nat × List Handle))
    (origins : List (Side × Nat)) (ids : List Nat) : Prop where
  active : ∀ addr c, active.lookup addr = some c → ∀ h ∈ c.tasks, TaskOf origins ids c.id h
  removed : ∀ r ∈ removed, ∃ d k, discs[r.1]? = some d ∧ d.removedId = some k ∧ ∀ h ∈ r.2, TaskOf origins ids k h

theorem Listed.grow {A : Active} {D : List Disc} {R : List (Nat × List Handle)} {O O' : List (Side × Nat)}
    {I I' : List Nat} (h : Listed A D R O I) (hO : O <+: O') (hI : I <+: I') : Listed A D R O' I' where
  active addr c hc w hw := (h.active addr c hc w hw).grow hO hI
  removed r hr := by
    obtain ⟨d, k, hd, hk, ht⟩ := h.removed r hr
    exact ⟨d, k, hd, hk, fun w hw => (ht w hw).grow hO hI⟩

abbrev ListedOK (s : State) : Prop :=
  Listed s.base.base.active s.base.base.discs s.removed (s.hooks.map Hook.origin) (s.connect.triggers.map Trigger.id)

/-- A step of the shutdown system, which may add a task. -/
theorem ListedOK.baseStep {b : Shutdown.State} {c : Shutdown.Act} (h : ListedOK s) (hL : LedgerOK s.base.base)
    (hs : Shutdown.StepR cfg s.base c b) (hins : ∀ i tasks, c = .base (.insert i tasks) → tasks = [])
    (hadd : ∀ k u w, c = .base (.attach k w) → s.base.base.scheds[k]? = some u →
      TaskOf (s.hooks.map Hook.origin) (s.connect.triggers.map Trigger.id) u.id w)
    (hreg : ∀ j w k, c = .base (.register j w) →
      TaskOf (s.hooks.map Hook.origin) (s.connect.triggers.map Trigger.id) k w) :
    Listed b.base.active b.base.discs (s.react c).removed (s.hooks.map Hook.origin)
      (s.connect.triggers.map Trigger.id) where
  active addr e he w hw := by
    rcases hs.lifecycle with ⟨x, rfl, hx⟩ | hq
    · rcases hx.task_from he hw with ⟨e₀, he₀, hid, hw₀⟩ | ⟨i, rfl⟩ | ⟨k, u, rfl, hu, hid⟩ | ⟨j, d, rfl, -, -⟩
      · rw [← hid]
        exact h.active addr e₀ he₀ w hw₀
      · rw [hins i _ rfl] at hw
        cases hw
      · rw [← hid]
        exact hadd k u w rfl hu
      · exact hreg j w e.id rfl
    · rw [hq.active] at he
      exact h.active addr e he w hw
  removed r hr := by
    -- a removal stays, and the tasks that came out are those that were in the entry
    have kept : r ∈ s.removed → ∃ d k, b.base.discs[r.1]? = some d ∧ d.removedId = some k ∧
        ∀ w ∈ r.2, TaskOf (s.hooks.map Hook.origin) (s.connect.triggers.map Trigger.id) k w := by
      intro hr
      obtain ⟨d, k, hd, hk, ht⟩ := h.removed r hr
      obtain ⟨p, hd', hp⟩ := hs.disc_move hd
      rcases hp with rfl | ⟨x, -, hm⟩
      · exact ⟨_, k, hd', hk, ht⟩
      · exact ⟨_, k, hd', hm.removedId hk, ht⟩
    unfold State.react at hr
    split at hr
    case h_3 j =>
      split at hr
      next conn hc =>
        rcases List.mem_cons.mp hr with rfl | hr
        · cases hs with
          | base hb =>
            obtain ⟨d, id, hd, hpc, hout⟩ := (Pea2Pea.step_sound hb).remove_cases
            obtain ⟨e, he, hid, -⟩ := hL.fin d (List.mem_of_getElem? hd) id (by rw [hpc]; rfl)
            simp only [hd, Option.bind_some, he, Option.some.injEq] at hc
            subst hc
            rcases hout with ⟨conn', -, hd'⟩ | ⟨hnone, -⟩
            · exact ⟨_, id, hd', rfl, fun w hw => hid ▸ h.active d.addr e he w hw⟩
            · rw [he] at hnone; cases hnone
        · exact kept hr
      · exact kept hr
    all_goals exact kept hr

theorem StepR.listedOK {abortable : Bool} (hL : LedgerOK s.base.base) (hH : HandlersOK s) (hR : HasReadOK s)
    (hC : CallersOK s) (h : ListedOK s) (hs : StepR cfg abortable s a s') : ListedOK s' := by
  refine Listed.grow ?_ hs.origins_grow (hs.ids_grow .connect)
  -- a handle that is added is the one of the trigger's hook
  have handle : ∀ (side : Side) {q w} {t : Trigger}, (s.get side).triggers[q]? = some t → t.caller = .responded w →
      (s.hooks.map Hook.origin)[w]? = some (side, q) := by
    intro side q w t ht hw
    have hread := hR side t (List.mem_of_getElem? ht) w (.inl hw)
    obtain ⟨y, hy, rfl, rfl⟩ := (hH side).hook q t w ht (by rw [hread]; rfl)
    rw [List.getElem?_map, hy]
    rfl
  rcases hs.base_move with ⟨c, hmove, hstep, hrem⟩ | ⟨hb, hrem⟩
  · rw [hrem]
    refine h.baseStep hL hstep ?_ ?_ ?_
    · rintro i tasks rfl
      cases hmove with
      | base hf => simpa [State.free] using hf
    · rintro k u w rfl hu
      cases hmove with
      | base hf => cases hf
      | @attach q t _ ht hc =>
        obtain ⟨v, hv, hid, -⟩ := hC.sched t (List.mem_of_getElem? ht)
        rw [hu] at hv; cases hv
        exact ⟨_, handle .connect ht hc, fun _ => by rw [List.getElem?_map, ht, hid]; rfl⟩
    · rintro j w k rfl
      cases hmove with
      | base hf => cases hf
      | @register q t _ ht hc =>
        exact ⟨_, handle .disconnect ht hc, fun hcon => by cases hcon⟩
  · rw [hb, hrem]
    exact h

theorem listedOK_reachable {abortable : Bool} (h : (hooks cfg abortable).Reachable s) : ListedOK s := by
  refine h.invariant ?_ fun hr ho _ hs => ?_
  · exact ⟨by simp [hooks, State.init, Shutdown.State.init, Pea2Pea.State.init], by simp [hooks, State.init]⟩
  · have hL := ledgerOK_reachable ((Shutdown.projects cfg).reachable ((projects cfg abortable).reachable hr))
    exact (step_sound hs).listedOK hL (handlersOK_reachable hr) (hasReadOK_reachable hr) (callersOK_reachable hr) ho

/-! ## From the oneshot to the connection -/

/-- The hook of connection `k` is over, or its handle is among the tasks of
`k`, in `active` or with the disconnect that removed `k`. -/
def Follows (active : Active) (discs : List Disc) (removed : List (Nat × List Handle)) (hooks : List Hook) (k : Nat)
    (h : Handle) : Prop :=
  Over hooks h ∨ (∃ addr c, active.lookup addr = some c ∧ c.id = k ∧ h ∈ c.tasks) ∨
    ∃ (j : Nat) (d : Disc) (got : Nat), discs[j]? = some d ∧ d.pc = .removed k got ∧ h ∈ removedTasks removed j

theorem Follows.later {A : Active} {D : List Disc} {R : List (Nat × List Handle)} {H H' : List Hook} {k : Nat}
    {h : Handle} (hF : Follows A D R H k h) (hl : Later H H') : Follows A D R H' k h :=
  hF.imp_left (hl h)

theorem Follows.baseStep {b : Shutdown.State} {c : Shutdown.Act} {k : Nat} {h : Handle} {y : Hook}
    (hL : LedgerOK s.base.base) (hs : Shutdown.StepR cfg s.base c b) (hy : s.hooks[h]? = some y)
    (hF : Follows s.base.base.active s.base.base.discs s.removed s.hooks k h) :
    Follows b.base.active b.base.discs (s.react c).removed (s.react c).hooks k h := by
  rcases hF with hov | ⟨addr, e, he, rfl, hm⟩ | ⟨j, d, got, hd, hpc, hm⟩
  · exact .inl (s.react_later c h hov)
  · rcases hs.lifecycle with ⟨x, rfl, hx⟩ | hq
    · rcases hx.entry_kept hL he with ⟨e', he', hid, hsub⟩ | ⟨j, d, rfl, hd, rfl⟩
      · exact .inr (.inl ⟨addr, e', he', hid, hsub h hm⟩)
      · obtain ⟨d', id, hd', hpc, hout⟩ := hx.remove_cases
        rw [hd] at hd'; cases hd'
        obtain ⟨e', he', hid, -⟩ := hL.fin d (List.mem_of_getElem? hd) id (by rw [hpc]; rfl)
        rw [he] at he'; cases he'
        rcases hout with ⟨conn, -, hout⟩ | ⟨hnone, -⟩
        · refine .inr (.inr ⟨j, _, conn.id, hout, by rw [hid], mem_removedTasks.mpr ⟨e.tasks, ?_, hm⟩⟩)
          simp [State.react, hd, he]
        · rw [he] at hnone; cases hnone
    · rw [hq.active]
      exact .inr (.inl ⟨addr, e, he, rfl, hm⟩)
  · obtain ⟨p, hd', hp⟩ := hs.disc_move hd
    rcases hp with rfl | ⟨x, rfl, hmove⟩
    · obtain ⟨hs, hm, hh⟩ := mem_removedTasks.mp hm
      exact .inr (.inr ⟨j, _, got, hd', hpc, mem_removedTasks.mpr ⟨hs, s.react_removed c _ hm, hh⟩⟩)
    · rw [hpc] at hmove
      cases hmove with
      | notify => exact .inl (over_abortAll hy hm)

theorem attach_active {b : Shutdown.State} {k : Nat} {u : Sched} {h : Handle}
    (hs : Shutdown.StepR cfg s.base (.base (.attach k h)) b) (hu : s.base.base.scheds[k]? = some u) :
    b.base.active = (attachHandle s.base.base.active u.addr u.id h).1 := by
  cases hs with
  | base hb =>
    cases Pea2Pea.step_sound hb with
    | attach hv =>
      rw [hu] at hv; cases hv
      rfl

/-- The scheduling task's grace period ends while its response oneshot has
the handle of a running hook. -/
def lapses (s : State) : Act → Bool
  | .graceExpired .connect q =>
    ((s.connect.triggers[q]?).bind (·.reply.unread)).any fun h => (s.hooks[h]?).any (·.status == .running)
  | _ => false

/-- The OnConnect triggers' handles. -/
def FollowingOK (s : State) : Prop :=
  ∀ t ∈ s.connect.triggers,
    Kept s.hooks (Follows s.base.base.active s.base.base.discs s.removed s.hooks t.id) t

theorem FollowingOK.baseStep {b : Shutdown.State} {c : Shutdown.Act} (h : FollowingOK s) (hL : LedgerOK s.base.base)
    (hH : HandlersOK s) (hs : Shutdown.StepR cfg s.base c b) :
    ∀ t ∈ s.connect.triggers,
      Kept (s.react c).hooks (Follows b.base.active b.base.discs (s.react c).removed (s.react c).hooks t.id) t := by
  intro t ht
  refine (h t ht).mono (s.react_later c) fun w hw hF => ?_
  obtain ⟨q, hq⟩ := List.getElem?_of_mem ht
  obtain ⟨y, hy, -⟩ := (hH .connect).hook q t w hq (by rw [hw]; rfl)
  exact hF.baseStep hL hs hy

theorem StepR.followingOK (hL : LedgerOK s.base.base) (hH : HandlersOK s) (hR : HasReadOK s) (hC : CallersOK s)
    (h : FollowingOK s) (hn : lapses s a = false) (hs : StepR cfg true s a s') : FollowingOK s' := by
  have hD := hH .connect
  have later : ∀ {b : Shutdown.State} {H H' : List Hook}, Later H H' →
      (∀ t ∈ s.connect.triggers, Kept H (Follows b.base.active b.base.discs s.removed H t.id) t) →
      ∀ t ∈ s.connect.triggers, Kept H' (Follows b.base.active b.base.discs s.removed H' t.id) t :=
    fun hl hk t ht => (hk t ht).mono hl fun _ _ hF => hF.later hl
  have keep : ∀ {side} {x : Handler}, x.triggers = (s.get side).triggers → FollowingOK (s.put side x) := by
    intro side x hx
    cases side with
    | connect => simp only [FollowingOK, State.put, hx]; exact h
    | disconnect => exact h
  have move : ∀ {side q t pc reply}, (s.get side).triggers[q]? = some t →
      (side = .connect → Kept s.hooks (Follows s.base.base.active s.base.base.discs s.removed s.hooks t.id)
        { t with caller := pc, reply := reply }) → FollowingOK (s.put side ((s.get side).goto q t pc reply)) := by
    intro side q t pc reply ht hok
    cases side with
    | connect => exact forall_mem_set h (hok rfl)
    | disconnect => exact h
  -- the loop receives the request of `t` and spawns `y`
  have receive : ∀ {side q t l reply y}, (s.get side).triggers[q]? = some t →
      (side = .connect → Kept (s.hooks ++ [y])
        (Follows s.base.base.active s.base.base.discs s.removed (s.hooks ++ [y]) t.id) { t with reply := reply }) →
      FollowingOK { s.put side (Handler.goto { s.get side with loop := l } q t t.caller reply) with
        hooks := s.hooks ++ [y] } := by
    intro side q t l reply y ht hok
    have hlater := later (later_append s.hooks y) h
    cases side with
    | connect => exact forall_mem_set hlater (hok rfl)
    | disconnect => exact hlater
  cases hs with
  | @base c b hb =>
    have hc : (s.react c).connect.triggers = s.connect.triggers := s.react_triggers c .connect
    simp only [FollowingOK, hc]
    exact h.baseStep hL hH (Shutdown.step_sound hb)
  | @trigger side =>
    cases side with
    | connect => exact forall_mem_append h .new
    | disconnect => exact h
  | skip => exact h
  | loop => exact keep rfl
  | receive ha hl hr ht hc => exact receive ht fun _ => .send hc
  | @receiveLate side c l q t ha hl hr ht hc =>
    refine receive ht fun hside => ?_
    subst hside
    simp only [or_true, if_true]
    exact .miss (over_new fun hr => by cases hr)
  | sendFailed => exact keep rfl
  | dropLoop => exact keep rfl
  | respond ht hr hc => exact move ht fun hside => by subst hside; exact .answer
  | noResponse ht hr hc hpc =>
    refine move ht fun hside => ?_
    subst hside
    exact .goOn (hD.unanswered ht hr (hD.unreceived (List.mem_of_getElem? hr) hpc))
  | closing ht hr hc he => exact move ht fun _ => .goOn he
  | @graceExpired side q t ht hc =>
    refine move ht fun hside => ?_
    subst hside
    refine (h t (List.mem_of_getElem? ht)).giveUp (by simp [hc]) fun w hw => ?_
    obtain ⟨y, hy, -⟩ := hD.hook q t w ht (by rw [hw]; rfl)
    have ht : s.connect.triggers[q]? = some t := ht
    have hne : y.status ≠ .running := by simpa [lapses, ht, hw, Reply.unread, hy] using hn
    exact over_iff.mpr ⟨y, hy, hne⟩
  | @attach q t w u b ht hc hu hb =>
    have hread := hR .connect t (List.mem_of_getElem? ht) w (.inl hc)
    obtain ⟨v, hv, hid, -⟩ := hC.sched t (List.mem_of_getElem? ht)
    rw [hu] at hv; cases hv
    obtain ⟨y, hy, -⟩ := hD.hook q t w ht (by rw [hread]; rfl)
    have hl : Later s.hooks
        (if (attachHandle s.base.base.active u.addr u.id w).2 then s.hooks else abort s.hooks w) := by
      split
      · exact .refl _
      · exact later_abort _ _
    refine forall_mem_set (later hl (h.baseStep hL hH (Shutdown.step_sound hb))) (.file hread ?_)
    split
    next htaken =>
      obtain ⟨e, he, hek, hmem⟩ := attachHandle_taken htaken
      have hactive := attach_active (Shutdown.step_sound hb) hu
      exact .inr (.inl ⟨u.addr, e, by rw [hactive]; exact he, hek.trans hid, hmem⟩)
    · exact .inl (over_abort hy)
  | @register q t w d b ht hc hd hb =>
    refine later ?_ (h.baseStep hL hH (Shutdown.step_sound hb))
    dsimp only
    split
    · exact .refl _
    · exact later_abort _ _
  | waited => exact h
  | cancelDisc ht hr hb => exact h.baseStep hL hH (Shutdown.step_sound hb)
  | hookDone => exact later (later_set fun hr => by cases hr) h

theorem followingOK_reaches (h : (hooks cfg true).Reaches (fun s a => lapses s a = false) s) : FollowingOK s := by
  refine h.invariant (by simp [hooks, State.init, Handler.init, FollowingOK]) fun hr ho hn hs => ?_
  have hL := ledgerOK_reachable ((Shutdown.projects cfg).reachable ((projects cfg true).reachable hr))
  exact (step_sound hs).followingOK hL (handlersOK_reachable hr.reachable) (hasReadOK_reachable hr.reachable)
    (callersOK_reachable hr.reachable) ho hn

/-! ## Over whole runs -/

/-- The task `h` is an OnConnect hook of connection `k`. -/
def HookOf (s : State) (k : Nat) (h : Handle) : Prop :=
  ∃ y t, s.hooks[h]? = some y ∧ y.side = .connect ∧ s.connect.triggers[y.trigger]? = some t ∧ t.id = k

theorem hookOf_of_origins {h : Handle} {k q : Nat} (hh : (s.hooks.map Hook.origin)[h]? = some (.connect, q))
    (hk : (s.connect.triggers.map Trigger.id)[q]? = some k) : HookOf s k h := by
  simp only [List.getElem?_map, Option.map_eq_some_iff] at hh hk
  obtain ⟨y, hy, ho⟩ := hh
  obtain ⟨t, ht, rfl⟩ := hk
  obtain ⟨hside, rfl⟩ := Prod.mk.inj ho
  exact ⟨y, t, hy, hside, ht, rfl⟩

/-- The handle is with no connection but `k`, in `active` or removed. -/
structure OwnOnly (s : State) (k : Nat) (h : Handle) : Prop where
  active : ∀ addr conn, s.base.base.active.lookup addr = some conn → h ∈ conn.tasks → conn.id = k
  removed : ∀ (j : Nat) d id, s.base.base.discs[j]? = some d → d.removedId = some id →
    h ∈ removedTasks s.removed j → id = k

/-- Once `k` is out of `active` and its scheduling task has ended, the hook
is over. -/
def EndsWith (s : State) (k : Nat) (h : Handle) : Prop :=
  ¬ InActive s.base.base.active k → (∀ u ∈ s.base.base.scheds, u.id = k → u.pc ≠ .running) → Over s.hooks h

/-- The disconnect that removed `k` has yet to drop it. -/
def Dropping (s : State) (k : Nat) : Prop := ∃ d ∈ s.base.base.discs, ∃ got, d.pc = .removed k got

theorem HookOf.ownOnly {abortable : Bool} {k : Nat} {h : Handle} (hr : (hooks cfg abortable).Reachable s)
    (hh : HookOf s k h) : OwnOnly s k h := by
  obtain ⟨y, t, hy, hside, ht, rfl⟩ := hh
  have hK := listedOK_reachable hr
  have own : ∀ {id}, TaskOf (s.hooks.map Hook.origin) (s.connect.triggers.map Trigger.id) id h → id = t.id := by
    rintro id ⟨o, ho, hid⟩
    rw [List.getElem?_map, hy] at ho
    cases ho
    have hid := hid hside
    rw [List.getElem?_map, Hook.origin, ht] at hid
    exact (Option.some.inj hid).symm
  refine ⟨fun addr conn hc hm => own (hK.active addr conn hc h hm), fun j d id hd hid hm => ?_⟩
  obtain ⟨hs, hmem, hh⟩ := mem_removedTasks.mp hm
  obtain ⟨d', k, hd', hk, htask⟩ := hK.removed _ hmem
  rw [hd] at hd'; cases hd'
  rw [hid] at hk; cases hk
  exact own (htask h hh)

theorem HookOf.endsWith {k : Nat} {h : Handle} (hr : (hooks cfg true).Reaches (fun s a => lapses s a = false) s)
    (hh : HookOf s k h) (hd : ¬ Dropping s k) : EndsWith s k h := by
  obtain ⟨y, t, hy, hside, ht, rfl⟩ := hh
  intro hin hsched
  obtain ⟨t', ht', hw⟩ := (handlersOK_reachable hr.reachable .connect).back h y hy hside
  have heq : t' = t := Option.some.inj (ht'.symm.trans ht)
  subst heq
  have hT := followingOK_reaches hr t' (List.mem_of_getElem? ht)
  -- the scheduling task is through with the trigger
  obtain ⟨u, hu, hid, hrun⟩ := (callersOK_reachable hr.reachable).sched t' (List.mem_of_getElem? ht)
  have hended : t'.caller.ended = true := by
    cases he : t'.caller.ended with
    | true => rfl
    | false => exact absurd (hrun he) (hsched u (List.mem_of_getElem? hu) hid)
  cases hreply : t'.reply with
  | empty => rw [hreply] at hw; cases hw
  | sent v =>
    have := CallerPc.not_ended (hT.sent v hreply)
    rw [hended] at this; cases this
  | lost v => rw [hreply] at hw; cases hw; exact hT.lost h hreply
  | read v =>
    rw [hreply] at hw; cases hw
    rcases hT.filed h hreply (fun hc => by rw [hc] at hended; cases hended) with hov | ⟨addr, c, hc, hk, -⟩ |
      ⟨j, d, got, hj, hpc, -⟩
    · exact hov
    · exact absurd ⟨addr, c, hc, hk⟩ hin
    · exact absurd ⟨d, List.mem_of_getElem? hj, got, hpc⟩ hd

/-- An abortable OnConnect hook follows its own connection. -/
theorem hook_follows (cfg : NodeConfig) (s : State)
    (h : (hooks cfg true).Reaches (fun s a => lapses s a = false) s) (k : Nat) (w : Handle) (hw : HookOf s k w) :
    OwnOnly s k w ∧ (¬ Dropping s k → EndsWith s k w) :=
  ⟨hw.ownOnly h.reachable, hw.endsWith h⟩

/-- OnConnect is enabled and `peer` connected; the hook is attached, its
scheduling task ends, and a disconnect removes the connection. -/
def removedRun : List Act := List.flatten
  [[.enable .onConnect, .install 0, .lockTasks 0, .checkFlag 0, .registerTask 0, .publish 0].map .base,
    Shutdown.connected.map .base,
    [.trigger .connect 0, .loop .connect (.acquire 0), .loop .connect (.write 0), .loop .connect .subscribe,
      .loop .connect .pollRecv, .respond .connect 0, .attach 0, .base (.base (.schedDone 0)),
      .base (.base (.schedNotify 0)), .base (.base (.disconnect peer .user none)), .base (.base (.claim 0)), .trigger .disconnect 0,
      .base (.base (.finalize 0)), .base (.base (.remove 0))]]

theorem hook_follows_dropped : ∃ s, (hooks threeSlots true).Reaches (fun s a => lapses s a = false) s ∧
    HookOf s 0 0 ∧ ¬ Dropping s 0 ∧ ¬ InActive s.base.base.active 0 ∧ Over s.hooks 0 := by
  obtain ⟨s, hs, hp⟩ := ((hooks threeSlots true).guarded fun s a => !lapses s a).exists_reachable
    (removedRun ++ [.base (.base (.notifyDrain 0))])
    (fun s => s.hooks.map Hook.origin = [(.connect, 0)] ∧ s.connect.triggers.map Trigger.id = [0] ∧
      s.base.base.active.keys = ∅ ∧ s.base.base.discs.map (·.pc) = [.done (some 0) (some 0)] ∧
      s.base.base.scheds.map (·.pc) = [.done]) (by decide +kernel)
  have hr : (hooks threeSlots true).Reaches (fun s a => lapses s a = false) s :=
    .of_guarded (fun s a ha => by simpa using ha) hs
  obtain ⟨hhooks, hids, hkeys, hdiscs, hscheds⟩ := of_decide_eq_true hp
  have hof : HookOf s 0 0 := hookOf_of_origins (by rw [hhooks]; rfl) (by rw [hids]; rfl)
  have hnd : ¬ Dropping s 0 := by
    rintro ⟨d, hd, got, hpc⟩
    have hmem : d.pc ∈ s.base.base.discs.map (·.pc) := List.mem_map_of_mem hd
    rw [hdiscs, hpc] at hmem
    simp at hmem
  have hin := not_inActive_of_empty hkeys 0
  refine ⟨s, hr, hof, hnd, hin, (hook_follows threeSlots s hr 0 0 hof).2 hnd hin fun u hu _ hrun => ?_⟩
  have hmem : u.pc ∈ s.base.base.scheds.map (·.pc) := List.mem_map_of_mem hu
  rw [hscheds, hrun] at hmem
  simp at hmem

/-- Between the removal of the connection and its drop the hook still runs. -/
theorem hook_outlives_removal : ¬ ∀ s, (hooks threeSlots true).Reaches (fun s a => lapses s a = false) s →
    ∀ k w, HookOf s k w → OwnOnly s k w ∧ EndsWith s k w := by
  intro hall
  obtain ⟨s, hs, hp⟩ := ((hooks threeSlots true).guarded fun s a => !lapses s a).exists_reachable removedRun
    (fun s => s.hooks = [⟨.connect, 0, .running⟩] ∧ s.connect.triggers.map Trigger.id = [0] ∧
      s.base.base.active.keys = ∅ ∧ s.base.base.scheds.map (·.pc) = [.done]) (by decide +kernel)
  have hr : (hooks threeSlots true).Reaches (fun s a => lapses s a = false) s :=
    .of_guarded (fun s a ha => by simpa using ha) hs
  obtain ⟨hhooks, hids, hkeys, hscheds⟩ := of_decide_eq_true hp
  have hof : HookOf s 0 0 := hookOf_of_origins (by rw [hhooks]; rfl) (by rw [hids]; rfl)
  have hov := (hall s hr 0 0 hof).2 (not_inActive_of_empty hkeys 0) fun u hu _ hrun => by
    have hmem : u.pc ∈ s.base.base.scheds.map (·.pc) := List.mem_map_of_mem hu
    rw [hscheds, hrun] at hmem
    simp at hmem
  obtain ⟨y, hy, hne⟩ := over_iff.mp hov
  rw [hhooks] at hy
  cases hy
  exact hne rfl

end Pea2Pea.Hooks
