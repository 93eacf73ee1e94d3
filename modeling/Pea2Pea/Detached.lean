/-
Who owns an OnDisconnect hook's handle, from its spawning to the removal of
its connection.

The handle is in the response oneshot while the disconnect listens for it,
then with the disconnect, then among the connection's tasks, which its drop
aborts. One owner is missing: a disconnect that gives up with the handle in
its oneshot, sent but not read, drops it there. That detaches the hook,
which may then outlive the connection, and it is the only way to.
-/
import Pea2Pea.HooksFacts
import Pea2Pea.Lifetime
import Pea2Pea.ShutdownFinal

namespace Pea2Pea.Hooks

open Pool Tasks

/-! ## Where the handle is -/

/-- The handle was filed with the connection of the disconnect `d`, at
position `j`, and went its way. -/
def Filed (active : Active) (removed : List (Nat × List Handle)) (hooks : List Hook) (j : Nat) (d : Disc)
    (h : Handle) : Prop :=
  match d.pc with
  | .claimed _ | .dropping _ => ∃ c, active.lookup d.addr = some c ∧ h ∈ c.tasks
  | .removed _ _ => h ∈ removedTasks removed j
  | .done _ _ => Over hooks h
  | .called => False

/-- A trigger's handle, which its caller files where `F` says. -/
structure Kept (hooks : List Hook) (F : Handle → Prop) (t : Trigger) : Prop where
  sent : ∀ h, t.reply = .sent h → t.caller.listening = true
  lost : ∀ h, t.reply = .lost h → Over hooks h
  filed : ∀ h, t.reply = .read h → t.caller ≠ .responded h → F h

namespace Kept

variable {hooks hooks' : List Hook} {F F' : Handle → Prop} {t : Trigger}

theorem mono (h : Kept hooks F t) (hl : Later hooks hooks') (hF : ∀ w, t.reply = .read w → F w → F' w) :
    Kept hooks' F' t where
  sent := h.sent
  lost w hw := hl w (h.lost w hw)
  filed w hw hc := hF w hw (h.filed w hw hc)

theorem new {i id : Nat} : Kept hooks F ⟨i, id, .waiting, .empty⟩ where
  sent w hw := by cases hw
  lost w hw := by cases hw
  filed w hw := by cases hw

/-- The loop sends the handle, to a caller that listens. -/
theorem send {w : Handle} (hc : t.caller.listening = true) : Kept hooks F { t with reply := .sent w } where
  sent v _ := hc
  lost v hv := by cases hv
  filed v hv := by cases hv

/-- The loop finds nobody to send the handle to. -/
theorem miss {w : Handle} (hw : Over hooks w) : Kept hooks F { t with reply := .lost w } where
  sent v hv := by cases hv
  lost v hv := by cases hv; exact hw
  filed v hv := by cases hv

/-- The caller reads the handle. -/
theorem answer {w : Handle} : Kept hooks F { t with caller := .responded w, reply := .read w } where
  sent v hv := by cases hv
  lost v hv := by cases hv
  filed v hv hne := by cases hv; exact absurd rfl hne

/-- The caller goes on without a handle. -/
theorem goOn {pc : CallerPc} (hr : t.reply = .empty) : Kept hooks F { t with caller := pc } where
  sent v hv := by rw [show t.reply = .sent v from hv] at hr; cases hr
  lost v hv := by rw [show t.reply = .lost v from hv] at hr; cases hr
  filed v hv := by rw [show t.reply = .read v from hv] at hr; cases hr

/-- The caller, with its handle filed, goes on. -/
theorem file {w : Handle} {pc : CallerPc} (hr : t.reply = .read w) (hF : F w) :
    Kept hooks F { t with caller := pc } where
  sent v hv := by rw [show t.reply = .sent v from hv] at hr; cases hr
  lost v hv := by rw [show t.reply = .lost v from hv] at hr; cases hr
  filed v hv _ := by rw [show t.reply = .read v from hv] at hr; cases hr; exact hF

/-- The caller gives up; the hook in the oneshot, if there is one, is over. -/
theorem giveUp {pc : CallerPc} (h : Kept hooks F t) (hc : ∀ w, t.caller ≠ .responded w)
    (ho : ∀ w, t.reply = .sent w → Over hooks w) : Kept hooks F { t with caller := pc, reply := t.reply.drop } where
  sent v hv := by cases hr : t.reply <;> simp [hr, Reply.drop] at hv
  lost v hv := by
    cases hr : t.reply with
    | sent w => simp only [hr, Reply.drop, Reply.lost.injEq] at hv; exact hv ▸ ho w hr
    | lost w => simp only [hr, Reply.drop, Reply.lost.injEq] at hv; exact hv ▸ h.lost w hr
    | empty => simp [hr, Reply.drop] at hv
    | read w => simp [hr, Reply.drop] at hv
  filed v hv _ := by
    cases hr : t.reply with
    | read w => simp only [hr, Reply.drop, Reply.read.injEq] at hv; exact hv ▸ h.filed w hr (hc w)
    | sent w => simp [hr, Reply.drop] at hv
    | lost w => simp [hr, Reply.drop] at hv
    | empty => simp [hr, Reply.drop] at hv

end Kept

/-- The handle of an OnDisconnect trigger: its disconnect files it with the
connection. -/
abbrev TriggerOK (active : Active) (discs : List Disc) (removed : List (Nat × List Handle)) (hooks : List Hook)
    (t : Trigger) : Prop :=
  Kept hooks (fun h => ∀ d, discs[t.owner]? = some d → Filed active removed hooks t.owner d h) t

/-- The OnDisconnect triggers' handles. -/
def OwnersOK (s : State) : Prop :=
  ∀ t ∈ s.disconnect.triggers, TriggerOK s.base.base.active s.base.base.discs s.removed s.hooks t

theorem mem_removedTasks {removed : List (Nat × List Handle)} {j : Nat} {h : Handle} :
    h ∈ removedTasks removed j ↔ ∃ hs, (j, hs) ∈ removed ∧ h ∈ hs := by
  simp [removedTasks]

theorem State.react_removed (s : State) (a : Shutdown.Act) : ∀ r ∈ s.removed, r ∈ (s.react a).removed := by
  intro r hr
  cases a with
  | base c =>
    cases c with
    | remove j =>
      simp only [State.react]
      split
      · exact List.mem_cons_of_mem _ hr
      · exact hr
    | _ => exact hr
  | _ => exact hr

theorem State.react_later (s : State) (a : Shutdown.Act) : Later s.hooks (s.react a).hooks := by
  cases a with
  | base c =>
    cases c with
    | notifyDrain j => exact later_abortAll _ _
    | remove j =>
      simp only [State.react]
      split <;> exact .refl _
    | _ => exact .refl _
  | _ => exact .refl _

/-- The steps of the shutdown system keep every handle filed. -/
theorem Filed.baseStep {cfg : NodeConfig} {s : State} {b : Shutdown.State} {a : Shutdown.Act} {j : Nat} {d d' : Disc}
    {h : Handle} {y : Hook} (hL : LedgerOK s.base.base) (hs : Shutdown.StepR cfg s.base a b)
    (hd : s.base.base.discs[j]? = some d) (hy : s.hooks[h]? = some y)
    (hF : Filed s.base.base.active s.removed s.hooks j d h) (hd' : b.base.discs[j]? = some d') :
    Filed b.base.active (s.react a).removed (s.react a).hooks j d' h := by
  -- while the finalizer lives, the entry is there
  have entry : ∀ {p k}, d.pc.finId = some k → (∃ c, s.base.base.active.lookup d.addr = some c ∧ h ∈ c.tasks) →
      b.base.discs[j]? = some { d with pc := p } → (∀ id got, p ≠ .removed id got) → (∀ id got, p ≠ .done id got) →
      ∃ c, b.base.active.lookup d.addr = some c ∧ h ∈ c.tasks := by
    intro p k hk ⟨c, hc, hm⟩ hp hnr hnd
    rcases hs.lifecycle with ⟨x, -, hx⟩ | hq
    · rcases hx.entry_kept hL hc with ⟨c', hc', -, hsub⟩ | ⟨i, e, rfl, he, hea⟩
      · exact ⟨c', hc', hsub h hm⟩
      · -- the entry has one finalizer, and this one has not removed it
        obtain ⟨e', id, he', hpc, hout⟩ := hx.remove_cases
        rw [he] at he'; cases he'
        have hij := hL.fins i j e d d.addr he hd (by rw [Disc.finAddr, hpc, hea]; rfl) (Disc.finAddr_of_finId hk)
        subst hij
        rw [hd] at he; cases he
        rcases hout with ⟨conn, -, hout⟩ | ⟨-, hout⟩
        · rw [hp] at hout; cases hout
          exact absurd rfl (hnr _ _)
        · rw [hp] at hout; cases hout
          exact absurd rfl (hnd _ _)
    · rw [hq.active]
      exact ⟨c, hc, hm⟩
  obtain ⟨p, hp', hmove⟩ := hs.disc_move hd
  rw [hp'] at hd'; cases hd'
  rcases hmove with rfl | ⟨c, rfl, hm⟩
  · unfold Filed at hF ⊢
    cases hpc : d.pc with
    | called => rw [hpc] at hF; exact hF
    | claimed id =>
      rw [hpc] at hF
      exact entry (by rw [hpc]; rfl) hF hp' (by simp [hpc]) (by simp [hpc])
    | dropping id =>
      rw [hpc] at hF
      exact entry (by rw [hpc]; rfl) hF hp' (by simp [hpc]) (by simp [hpc])
    | removed id got =>
      rw [hpc] at hF
      obtain ⟨hs, hm, hh⟩ := mem_removedTasks.mp hF
      exact mem_removedTasks.mpr ⟨hs, s.react_removed a _ hm, hh⟩
    | done id got =>
      rw [hpc] at hF
      exact s.react_later a h hF
  · unfold Filed at hF ⊢
    generalize hpc : d.pc = pc at hm hF
    cases hm with
    | claim | claimNone | cancel => exact hF.elim
    | finalize => exact entry (by rw [hpc]; rfl) hF hp' (by simp) (by simp)
    | remove =>
      obtain ⟨conn, hc, hh⟩ := hF
      refine mem_removedTasks.mpr ⟨conn.tasks, ?_, hh⟩
      simp [State.react, hd, hc]
    | removeNone =>
      obtain ⟨conn, hc, hh⟩ := hF
      rcases hs.lifecycle with ⟨x, hx, hstep⟩ | hq
      · cases hx
        obtain ⟨e, id, he, -, hout⟩ := hstep.remove_cases
        rw [hd] at he; cases he
        rcases hout with ⟨conn', -, hout⟩ | ⟨hnone, -⟩
        · rw [hp'] at hout; cases hout
        · rw [hc] at hnone; cases hnone
      · obtain ⟨ds, hds, -⟩ := hq.discs
        rw [hds, getElem?_append_of_some hd] at hp'
        have := congrArg Disc.pc (Option.some.inj hp')
        rw [hpc] at this; cases this
    | notify => exact over_abortAll hy hF

namespace TriggerOK

variable {cfg : NodeConfig} {A : Active} {D : List Disc} {R : List (Nat × List Handle)} {hooks hooks' : List Hook}
  {t : Trigger}

theorem later (h : TriggerOK A D R hooks t) (hl : Later hooks hooks') : TriggerOK A D R hooks' t := by
  refine Kept.mono h hl fun w _ hF d hd => ?_
  have hF := hF d hd
  unfold Filed at hF ⊢
  cases hpc : d.pc with
  | done id got => rw [hpc] at hF; exact hl w hF
  | _ => rw [hpc] at hF; exact hF

/-- A step of the shutdown system. -/
theorem baseStep {s : State} {b : Shutdown.State} {a : Shutdown.Act} (hL : LedgerOK s.base.base)
    (hH : HandlersOK s) (hC : CallersOK s) (hs : Shutdown.StepR cfg s.base a b) (ht : t ∈ s.disconnect.triggers)
    (h : TriggerOK s.base.base.active s.base.base.discs s.removed s.hooks t) :
    TriggerOK b.base.active b.base.discs (s.react a).removed (s.react a).hooks t := by
  refine Kept.mono h (s.react_later a) fun w hw hF d' hd' => ?_
  obtain ⟨d, hd, -⟩ := hC.disc t ht
  obtain ⟨q, hq⟩ := List.getElem?_of_mem ht
  obtain ⟨y, hy, -⟩ := (hH .disconnect).hook q t w hq (by rw [hw]; rfl)
  exact (hF d hd).baseStep hL hs hd hy hd'

end TriggerOK

/-! ## Giving up -/

/-- The disconnect that gives up on its response: it is dropped, or its
grace period is over. -/
def Act.givesUp : Act → Option Nat
  | .cancelDisc q | .graceExpired .disconnect q => some q
  | _ => none

/-- The handle in the oneshot, sent and not read. -/
def Reply.unread : Reply → Option Handle
  | .sent h => some h
  | _ => none

/-- The act drops the handle of a running hook. -/
def strands (s : State) (a : Act) : Bool :=
  ((a.givesUp.bind (s.disconnect.triggers[·]?)).bind (·.reply.unread)).any fun h =>
    (s.hooks[h]?).any (·.status == .running)

/-- An act that strands no hook leaves one over in the oneshot it drops. -/
theorem over_of_not_strands {s : State} {a : Act} {q : Nat} {t : Trigger} {h : Handle} {y : Hook}
    (hn : strands s a = false) (ha : a.givesUp = some q) (ht : s.disconnect.triggers[q]? = some t)
    (hr : t.reply = .sent h) (hy : s.hooks[h]? = some y) : Over s.hooks h := by
  have hne : y.status ≠ .running := by simpa [strands, ha, ht, hr, Reply.unread, hy] using hn
  exact over_iff.mpr ⟨y, hy, hne⟩

/-- A trigger whose request was not received has no hook. -/
theorem HandlerOK.unanswered {side : Side} {x : Handler} {hooks : List Hook} (h : HandlerOK side x hooks) {q : Nat}
    {t : Trigger} {r : HandlerLoop.Req} (ht : x.triggers[q]? = some t) (hr : x.loop.reqs[q]? = some r)
    (hn : r.pc.received = false) : t.reply = .empty := by
  have hrec := h.received q t r ht hr
  rw [hn] at hrec
  cases hreply : t.reply <;> simp_all [Reply.hook]

/-- A hook loop drops no request it received. -/
theorem HandlerOK.unreceived {side : Side} {x : Handler} {hooks : List Hook} (h : HandlerOK side x hooks)
    {r : HandlerLoop.Req} (hr : r ∈ x.loop.reqs) (hpc : r.pc = .unsent ∨ r.pc = .dropped) :
    r.pc.received = false := by
  rcases hpc with hpc | hpc
  · rw [hpc]; rfl
  · have : r.pc = .processed := h.loop.handled r hr (by rw [hpc]; rfl)
    rw [hpc] at this; cases this

/-! ## The handle its caller has -/

variable {cfg : NodeConfig} {s s' : State} {a : Act}

/-- A caller that has a handle has read it. -/
def Trigger.HasRead (t : Trigger) : Prop := ∀ h, t.caller = .responded h ∨ t.caller = .registered h → t.reply = .read h

theorem Trigger.HasRead.of_listening {t : Trigger} (hc : t.caller.listening = true) : t.HasRead := by
  rintro w (hw | hw) <;> · rw [hw] at hc; cases hc

theorem Trigger.HasRead.of_ended {t : Trigger} (hc : t.caller.ended = true) : t.HasRead := by
  rintro w (hw | hw) <;> · rw [hw] at hc; cases hc

def HasReadOK (s : State) : Prop := ∀ side, ∀ t ∈ (s.get side).triggers, t.HasRead

theorem HasReadOK.put {side : Side} {x : Handler} (h : HasReadOK s) (hx : ∀ t ∈ x.triggers, t.HasRead) :
    HasReadOK (s.put side x) := by
  intro σ
  by_cases hσ : σ = side
  · subst hσ
    rwa [State.get_put]
  · rw [State.get_put_ne s x hσ]
    exact h σ

theorem StepR.hasReadOK {abortable : Bool} (hH : HandlersOK s) (h : HasReadOK s) (hs : StepR cfg abortable s a s') :
    HasReadOK s' := by
  have move : ∀ {side : Side} {q t pc reply} {x : Handler}, x.triggers = (s.get side).triggers →
      Trigger.HasRead { t with caller := pc, reply := reply } → HasReadOK (s.put side (x.goto q t pc reply)) := by
    intro side q t pc reply x hx ht
    refine h.put (forall_mem_set ?_ ht)
    rw [hx]
    exact h side
  have disc : ∀ {x : Handler} {b H}, (∀ t ∈ x.triggers, t.HasRead) →
      HasReadOK { s with base := b, disconnect := x, hooks := H } := by
    intro x b H hx σ
    cases σ with
    | connect => exact h .connect
    | disconnect => exact hx
  have hooks : ∀ {x : State} {H}, HasReadOK x → HasReadOK { x with hooks := H } := by
    intro x H hx σ
    cases σ with
    | connect => exact hx .connect
    | disconnect => exact hx .disconnect
  cases hs with
  | @base c b =>
    intro σ
    have hget : State.get { s.react c with base := b } σ = (s.react c).get σ := by cases σ <;> rfl
    rw [hget, s.react_triggers]
    exact h σ
  | @trigger side => exact h.put (forall_mem_append (h side) (.of_listening rfl))
  | skip =>
    intro σ
    cases σ with
    | connect => exact h .connect
    | disconnect => exact h .disconnect
  | @loop side | @sendFailed side | @dropLoop side => exact h.put (h side)
  | receive ha hl hr ht hc => exact hooks (move rfl (.of_listening hc))
  | @receiveLate side c l q t ha hl hr ht hc =>
    -- the request was in the queue: nobody has answered the caller
    obtain ⟨r, rest, hreq, hq, -⟩ := receives_item (HandlerLoop.step_sound hl) hr
    have hempty := (hH side).unanswered ht hreq ((hH side).loop.queued_unreceived hq hreq)
    refine hooks (move rfl fun w hw => ?_)
    have hread := h side t (List.mem_of_getElem? ht) w hw
    rw [hempty] at hread; cases hread
  | respond ht hr hc =>
    refine move rfl ?_
    rintro v (hv | hv)
    · dsimp only at hv ⊢
      split at hv <;> cases hv
      rfl
    · dsimp only at hv
      split at hv <;> cases hv
  | noResponse => exact move rfl (.of_ended rfl)
  | closing => exact move rfl (.of_listening rfl)
  | graceExpired => exact move rfl (.of_ended rfl)
  | attach =>
    intro σ
    cases σ with
    | connect => exact forall_mem_set (h .connect) (.of_ended rfl)
    | disconnect => exact h .disconnect
  | @register q t w d b ht hc =>
    refine disc (forall_mem_set (h .disconnect) ?_)
    have hread := h .disconnect t (List.mem_of_getElem? ht) w (.inl hc)
    rintro v (hv | hv) <;> cases hv
    exact hread
  | waited => exact disc (forall_mem_set (h .disconnect) (.of_ended rfl))
  | cancelDisc => exact disc (forall_mem_set (h .disconnect) (.of_ended rfl))
  | hookDone => exact hooks h

theorem hasReadOK_reachable {abortable : Bool} (h : (hooks cfg abortable).Reachable s) : HasReadOK s := by
  refine h.invariant (fun σ t ht => ?_) fun hr ho _ hs => (step_sound hs).hasReadOK (handlersOK_reachable hr) ho
  cases σ <;> simp [hooks, State.init, State.get, Handler.init] at ht

/-! ## From the oneshot to the connection -/

theorem StepR.ownersOK {abortable : Bool} (hL : LedgerOK s.base.base) (hH : HandlersOK s) (hR : HasReadOK s)
    (hC : CallersOK s) (h : OwnersOK s) (hn : strands s a = false) (hs : StepR cfg abortable s a s') : OwnersOK s' := by
  have hD := hH .disconnect
  have keep : ∀ {side} {x : Handler}, x.triggers = (s.get side).triggers → OwnersOK (s.put side x) := by
    intro side x hx
    cases side with
    | connect => exact h
    | disconnect => simp only [OwnersOK, State.put, hx]; exact h
  -- a trigger of the side moves on
  have move : ∀ {side q t pc reply}, (s.get side).triggers[q]? = some t →
      (side = .disconnect → TriggerOK s.base.base.active s.base.base.discs s.removed s.hooks
        { t with caller := pc, reply := reply }) → OwnersOK (s.put side ((s.get side).goto q t pc reply)) := by
    intro side q t pc reply ht hok
    cases side with
    | connect => exact h
    | disconnect => exact forall_mem_set h (hok rfl)
  -- the loop receives the request of `t` and spawns `y`
  have receive : ∀ {side q t l reply y}, (s.get side).triggers[q]? = some t →
      (side = .disconnect → TriggerOK s.base.base.active s.base.base.discs s.removed (s.hooks ++ [y])
        { t with reply := reply }) →
      OwnersOK { s.put side (Handler.goto { s.get side with loop := l } q t t.caller reply) with
        hooks := s.hooks ++ [y] } := by
    intro side q t l reply y ht hok
    cases side with
    | connect => exact fun z hz => (h z hz).later (later_append _ _)
    | disconnect => exact forall_mem_set (fun z hz => (h z hz).later (later_append _ _)) (hok rfl)
  -- the oneshot a caller that gives up has
  have oneshot : ∀ {q t}, s.disconnect.triggers[q]? = some t → a.givesUp = some q → ∀ w, t.reply = .sent w →
      Over s.hooks w := by
    intro q t ht ha w hw
    obtain ⟨y, hy, -⟩ := hD.hook q t w ht (by rw [hw]; rfl)
    exact over_of_not_strands hn ha ht hw hy
  cases hs with
  | @base a b hb hf =>
    have hd : (s.react a).disconnect.triggers = s.disconnect.triggers := s.react_triggers a .disconnect
    simp only [OwnersOK, hd]
    exact fun t ht => (h t ht).baseStep hL hH hC (Shutdown.step_sound hb) ht
  | @trigger side i id w hi hn hk ht =>
    cases side with
    | connect => exact h
    | disconnect => exact forall_mem_append h Kept.new
  | skip => exact h
  | loop => exact keep rfl
  | receive ha hl hr ht hc => exact receive ht fun _ => Kept.send hc
  | @receiveLate side a l q t ha hl hr ht hc =>
    refine receive ht fun hside => ?_
    subst hside
    simp only [true_or, if_true]
    exact Kept.miss (over_new fun hr => by cases hr)
  | sendFailed => exact keep rfl
  | dropLoop => exact keep rfl
  | respond ht hr hc =>
    refine move ht fun hside => ?_
    subst hside
    exact Kept.answer
  | noResponse ht hr hc hpc =>
    refine move ht fun hside => ?_
    subst hside
    have hrec := hD.unreceived (List.mem_of_getElem? hr) hpc
    exact Kept.goOn (hD.unanswered ht hr hrec)
  | closing ht hr hc he => exact move ht fun _ => Kept.goOn he
  | @graceExpired side q t ht hc =>
    refine move ht fun hside => ?_
    subst hside
    exact Kept.giveUp (h t (List.mem_of_getElem? ht)) (by simp [hc]) (oneshot ht rfl)
  | @attach q t w u b ht hc hu hb =>
    have hl : Later s.hooks
        (if (attachHandle s.base.base.active u.addr u.id w).2 then s.hooks else abort s.hooks w) := by
      split
      · exact .refl _
      · exact later_abort _ _
    exact fun z hz => ((h z hz).baseStep hL hH hC (Shutdown.step_sound hb) hz).later hl
  | @register q t w d b ht hc hd hb =>
    have hread := hR .disconnect t (List.mem_of_getElem? ht) w (.inl hc)
    obtain ⟨d', hd', hid, hclaimed⟩ := hC.disc t (List.mem_of_getElem? ht)
    rw [hd] at hd'; cases hd'
    have hpc := hclaimed (by rw [hc]; rfl)
    obtain ⟨c, hc', -⟩ := hL.fin d (List.mem_of_getElem? hd) t.id (by rw [hpc]; rfl)
    have hstep := Shutdown.step_sound hb
    simp only [hc', Option.isSome_some, if_true]
    refine forall_mem_set (fun z hz => (h z hz).baseStep hL hH hC hstep hz)
      (Kept.file hread fun e he => ?_)
    cases hstep with
    | base hb' =>
      obtain ⟨hds, hentry⟩ := (Pea2Pea.step_sound hb').register_entry hd hc'
      rw [hds, hd] at he; cases he
      unfold Filed
      rw [hpc]
      exact hentry
  | @waited q t w ht hc hn =>
    have hmem := List.mem_of_getElem? ht
    have hread := hR .disconnect t hmem w (.inr hc)
    exact forall_mem_set h (Kept.file hread ((h t hmem).filed w hread (by simp [hc])))
  | @cancelDisc q t r b ht hr hb hna hc =>
    have hl : OwnersOK { s with base := b } := fun z hz => (h z hz).baseStep hL hH hC (Shutdown.step_sound hb) hz
    refine forall_mem_set hl (Kept.giveUp (hl t (List.mem_of_getElem? ht)) (fun w hw => ?_) (oneshot ht rfl))
    rw [hw] at hc; cases hc
  | hookDone hy hr => exact fun z hz => (h z hz).later (later_set (fun hr => by cases hr))

theorem ownersOK_reaches {abortable : Bool}
    (h : (hooks cfg abortable).Reaches (fun s a => strands s a = false) s) : OwnersOK s := by
  refine h.invariant (by simp [hooks, State.init, Handler.init, OwnersOK]) fun hr ho hn hs => ?_
  have hL := ledgerOK_reachable ((Shutdown.projects cfg).reachable ((projects cfg abortable).reachable hr))
  exact (step_sound hs).ownersOK hL (handlersOK_reachable hr.reachable) (hasReadOK_reachable hr.reachable)
    (callersOK_reachable hr.reachable) ho hn

/-! ## Over whole runs -/

/-- Every OnDisconnect hook task is one of a disconnect's claim. Once that
disconnect has removed its connection, the hook is over or among the tasks
taken out with the connection; once these are dropped, it is over. -/
def NoneDetached (s : State) : Prop :=
  ∀ (h : Nat) y, s.hooks[h]? = some y → y.side = .disconnect →
    ∃ t d, s.disconnect.triggers[y.trigger]? = some t ∧ s.base.base.discs[t.owner]? = some d ∧
      d.claimedId = some t.id ∧
      (∀ id got, d.pc = .removed id got → y.status ≠ .running ∨ h ∈ removedTasks s.removed t.owner) ∧
      ∀ id got, d.pc = .done id got → y.status ≠ .running

theorem none_detached (cfg : NodeConfig) (abortable : Bool) (s : State)
    (h : (hooks cfg abortable).Reaches (fun s a => strands s a = false) s) : NoneDetached s := by
  intro w y hy hside
  have hH := handlersOK_reachable h.reachable .disconnect
  obtain ⟨t, ht, hw⟩ := hH.back w y hy hside
  obtain ⟨d, hd, hid, hclaimed⟩ := (callersOK_reachable h.reachable).disc t (List.mem_of_getElem? ht)
  have hT := ownersOK_reaches h t (List.mem_of_getElem? ht)
  refine ⟨t, d, ht, hd, hid, ?_⟩
  -- a caller that is not through with the trigger has its connection in `active`
  have waiting : t.caller.ended = false →
      (∀ id got, d.pc = .removed id got → y.status ≠ .running ∨ w ∈ removedTasks s.removed t.owner) ∧
      ∀ id got, d.pc = .done id got → y.status ≠ .running := by
    intro hne
    rw [hclaimed hne]
    simp
  have ended : Over s.hooks w → y.status ≠ .running := by
    intro hover
    obtain ⟨z, hz, hne⟩ := over_iff.mp hover
    rw [hy] at hz; cases hz
    exact hne
  cases hr : t.reply with
  | empty => rw [hr] at hw; cases hw
  | sent v => exact waiting (CallerPc.not_ended (hT.sent v hr))
  | lost v =>
    rw [hr] at hw; cases hw
    exact ⟨fun _ _ _ => .inl (ended (hT.lost w hr)), fun _ _ _ => ended (hT.lost w hr)⟩
  | read v =>
    rw [hr] at hw; cases hw
    by_cases hc : t.caller = .responded w
    · exact waiting (by rw [hc]; rfl)
    · have hF := hT.filed w hr hc d hd
      unfold Filed at hF
      refine ⟨fun id got hpc => ?_, fun id got hpc => ?_⟩
      · rw [hpc] at hF; exact .inr hF
      · rw [hpc] at hF; exact ended hF

/-- OnDisconnect is enabled, `peer` connected, and a disconnect's trigger
received by the loop. -/
def hookSpawned : List Act := List.flatten
  [[.enable .onDisconnect, .install 0, .lockTasks 0, .checkFlag 0, .registerTask 0, .publish 0].map .base,
    Shutdown.connected.map .base,
    [.base (.base (.disconnect peer .user none)), .base (.base (.claim 0)), .trigger .disconnect 0,
      .loop .disconnect (.acquire 0), .loop .disconnect (.write 0), .loop .disconnect .subscribe,
      .loop .disconnect .pollRecv]]

/-- The rest of a finalizer that has begun to drop. -/
def torn : List Act := [.base (.base (.remove 0)), .base (.base (.notifyDrain 0))]

theorem none_detached_cancelled : ∃ s, (hooks threeSlots false).Reaches (fun s a => strands s a = false) s ∧
    s.hooks.map (·.status) = [.aborted] ∧ NoneDetached s := by
  obtain ⟨s, hs, hp⟩ := ((hooks threeSlots false).guarded fun s a => !strands s a).exists_reachable
    (hookSpawned ++ [.respond .disconnect 0, .register 0, .cancelDisc 0] ++ torn)
    (fun s => s.hooks.map (·.status) = [.aborted]) (by decide +kernel)
  have hr : (hooks threeSlots false).Reaches (fun s a => strands s a = false) s :=
    .of_guarded (fun s a ha => by simpa using ha) hs
  exact ⟨s, hr, of_decide_eq_true hp, none_detached threeSlots false s hr⟩

/-- The disconnect is dropped after the hook's handle was sent and before it
was read: the connection is gone, the hook runs on. -/
theorem detached_hook : ¬ ∀ s, (hooks threeSlots false).Reachable s → NoneDetached s := by
  intro hnone
  obtain ⟨s, hs, hp⟩ := (hooks threeSlots false).exists_reachable (hookSpawned ++ [.cancelDisc 0] ++ torn)
    (fun s => s.hooks = [⟨.disconnect, 0, .running⟩] ∧ s.base.base.discs.map (·.pc) = [.done (some 0) (some 0)])
    (by decide +kernel)
  obtain ⟨hhooks, hdiscs⟩ := of_decide_eq_true hp
  obtain ⟨t, d, -, hd, -, -, hdone⟩ := hnone s hs 0 ⟨.disconnect, 0, .running⟩ (by rw [hhooks]; rfl) rfl
  have hmem : d.pc ∈ s.base.base.discs.map (·.pc) := List.mem_map_of_mem (List.mem_of_getElem? hd)
  rw [hdiscs, List.mem_singleton] at hmem
  exact hdone _ _ hmem rfl

end Pea2Pea.Hooks
