/-
Requests, connections and their drivers, in every reachable state: a request
that is in the loop's or a setup task's hands has its connection there, a
setup in `enable_protocols` or in `add` drives the connection of its id, and
a connection is in `active` only if it is nowhere else.
-/
import Pea2Pea.HooksFacts
import Pea2Pea.Protocols

namespace Pea2Pea.Protocols

open Pool
open HandlerLoop (ReqPc LoopKind)

variable {cfg : NodeConfig} {abortable : Bool} {s s' : State} {a : Act}

namespace State

/-- The connection is in the response oneshot, or dropped. -/
theorem giveBack_cases (s : State) (id : Nat) (c : Conn) (st : Stage) (q : Nat) :
    c.pc.request = some (st, q) ∧ s.giveBack id c st q = s.set id { c with place := .reply } ∨
      s.giveBack id c st q = s.drop id c := by
  unfold giveBack
  split
  next h => exact .inl ⟨h, rfl⟩
  · exact .inr rfl

@[simp] theorem giveBack_base (s : State) (id : Nat) (c : Conn) (st : Stage) (q : Nat) :
    (s.giveBack id c st q).base = s.base := by
  rcases s.giveBack_cases id c st q with ⟨-, h⟩ | h <;> rw [h] <;> rfl

@[simp] theorem giveBack_handlers (s : State) (id : Nat) (c : Conn) (st : Stage) (q : Nat) :
    (s.giveBack id c st q).handlers = s.handlers := by
  rcases s.giveBack_cases id c st q with ⟨-, h⟩ | h <;> rw [h] <;> rfl

end State

theorem State.wire_cases (s : State) (c : Nat) (st : Stage) :
    s.wire c st = s.handlers st ∨
      ∃ x h, s.base.base.calls[c]? = some x ∧ x.pc = .registered h ∧ x.kind = st.kind ∧
        s.wire c st = { s.handlers st with task := some h } := by
  unfold State.wire
  split
  next kind bound h hx =>
    split
    next hk => exact .inr ⟨_, h, hx, rfl, hk.1, rfl⟩
    · exact .inl rfl
  · exact .inl rfl

/-- A setup task has its handler, its connection and that one's tasks. -/
theorem SetupR.frame {id : Nat} {c : Conn} {st : Stage} {q : Nat} {pc : SetupTaskPc} {x : SetupAct}
    (hs : SetupR s id c st q pc x s') :
    s'.base = s.base ∧ s'.panicked = s.panicked ∧ s'.denied = s.denied ∧ s'.refused = s.refused ∧
      s'.causes = s.causes := by
  cases hs with
  | shaken | returnReading | returnWriting =>
    rcases State.giveBack_cases _ id _ st q with ⟨-, he⟩ | he <;> rw [he] <;> exact ⟨rfl, rfl, rfl, rfl, rfl⟩
  | _ => exact ⟨rfl, rfl, rfl, rfl, rfl⟩

/-! ## What a step does below -/

/-- A step of the hooks' system here. -/
inductive HooksMove (s : State) : Act → Hooks.Act → Prop
  | base {x} (hf : s.free x = true) : HooksMove s (.base x) x
  /-- A driver returns from `enable_protocols` with an error, or is dropped. -/
  | fail {id c a st q} (hc : s.conns.lookup id = some c) (hpc : c.pc.request = some (st, q)) :
      HooksMove s (.driver id a) (.base (.base (.fail c.driver)))
  | guard {k t c} (ht : s.tasks[k]? = some t) (hpc : t.pc = .leaving ∨ t.pc = .cut)
      (hc : s.conns.lookup t.id = some c) :
      HooksMove s (.task k .dropGuard) (.base (.base (.disconnectOnDrop c.addr t.kind.origin t.id)))
  | hookPanic {h} : HooksMove s (.hookPanic h) (.hookDone h)
  | hookGuard {h y t u} (hy : s.base.hooks[h]? = some y) (hside : y.side = .connect)
      (ht : s.base.connect.triggers[y.trigger]? = some t) (hu : s.node.scheds[t.owner]? = some u)
      (ha : h ∈ s.panicked ∨ y.status = .aborted) :
      HooksMove s (.hookGuard h) (.base (.base (.disconnectOnDrop u.addr .onConnectAbort t.id)))

theorem StepR.hooks_move (hs : StepR cfg abortable s a s') :
    (∃ x, HooksMove s a x ∧ Hooks.step cfg abortable s.base x = some s'.base) ∨ s'.base = s.base := by
  cases hs with
  | base hb hf => exact .inl ⟨_, .base hf, hb⟩
  | loop | receive | release | dropLoop | panicLoop | dropItem => exact .inr rfl
  | @driver id c _ _ hc h =>
    cases h with
    | failed hpc _ hb | noResponse hpc _ hb | cancelSending hpc _ _ hb | cancelReply hpc _ hb
    | cancelWaiting hpc _ hb =>
      exact .inl ⟨_, .fail hc hpc, hb⟩
    | @graceExpired st q b hpc hb =>
      have hreq : c.pc.request = some (st, q) := by rw [hpc]; rfl
      exact .inl ⟨_, .fail hc hreq, hb⟩
    | lookup | skip | sendFailed | respond | closing | ready => exact .inr rfl
  | setup hc hp h => exact .inr h.frame.1
  | task ht h =>
    cases h with
    | left hpc hc hb => exact .inl ⟨_, .guard ht (.inl hpc) hc, hb⟩
    | cutOff hpc hc hb => exact .inl ⟨_, .guard ht (.inr hpc) hc, hb⟩
    | _ => exact .inr rfl
  | hookPanic hy hside hb => exact .inl ⟨_, .hookPanic, hb⟩
  | hookGuard hy hside ht hu hb ha => exact .inl ⟨_, .hookGuard hy hside ht hu ha, hb⟩

/-- Seen without the setup protocols, a run is a run of the hooks' system. -/
theorem projects (cfg : NodeConfig) (abortable : Bool) :
    (protocols cfg abortable).Projects (Hooks.hooks cfg abortable) State.base where
  init := rfl
  step h := by
    rcases (step_sound h).hooks_move with ⟨x, -, hx⟩ | hb
    · exact ⟨[x], Machine.run_single hx⟩
    · exact ⟨[], congrArg some hb.symm⟩

theorem hooks_reachable (h : (protocols cfg abortable).Reachable s) : (Hooks.hooks cfg abortable).Reachable s.base :=
  (projects cfg abortable).reachable h

theorem shutdown_reachable (h : (protocols cfg abortable).Reachable s) :
    (Shutdown.shutdown cfg).Reachable s.base.base :=
  (Hooks.projects cfg abortable).reachable (hooks_reachable h)

theorem node_reachable (h : (protocols cfg abortable).Reachable s) : (lifecycle cfg).Reachable s.node :=
  (Shutdown.projects cfg).reachable (shutdown_reachable h)

/-! ## Requests -/

/-- Who has the request's item: the channel, a setup task, or nobody. -/
inductive Hand
  | channel
  | task
  deriving DecidableEq

def ReqPc.hand : ReqPc → Option Hand
  | .sending | .acquired | .queued => some .channel
  | .spawned => some .task
  | _ => none

/-- A connection's place, by who has its request's item. -/
def Hand.At (hand : Hand) (st : Stage) (q : Nat) (place : Place) : Prop :=
  match hand with
  | .channel => place = .request st q
  | .task => ∃ pc, place = .setup st q pc

/-- What is queued in a loop's channel. -/
structure QueueOK (l : HandlerLoop.State) : Prop where
  nodup : l.chan.queue.Nodup
  queued : ∀ q ∈ l.chan.queue, ∃ r, l.reqs[q]? = some r ∧ r.pc = .queued

namespace QueueOK

variable {l l' : HandlerLoop.State} {q : Nat} {r : HandlerLoop.Req}

/-- A request that is not queued moves. -/
theorem goto (h : QueueOK l) (hr : l.reqs[q]? = some r) (hpc : r.pc ≠ .queued) (y : HandlerLoop.Req) :
    ∀ p ∈ l.chan.queue, ∃ z, (l.reqs.set q y)[p]? = some z ∧ z.pc = .queued := by
  intro p hp
  obtain ⟨z, hz, hzpc⟩ := h.queued p hp
  have hne : q ≠ p := by
    rintro rfl
    rw [hr] at hz; cases hz
    exact hpc hzpc
  exact ⟨z, by rw [getElem?_set hr, if_neg hne]; exact hz, hzpc⟩

/-- The head of the queue is taken out. -/
theorem pop {queue : List Nat} (h : QueueOK l) (hq : l.chan.queue = q :: queue) (hr : l.reqs[q]? = some r)
    (y : HandlerLoop.Req) : queue.Nodup ∧ ∀ p ∈ queue, ∃ z, (l.reqs.set q y)[p]? = some z ∧ z.pc = .queued := by
  obtain ⟨hnot, hnodup⟩ := List.nodup_cons.mp (hq ▸ h.nodup)
  refine ⟨hnodup, fun p hp => ?_⟩
  obtain ⟨z, hz, hzpc⟩ := h.queued p (by rw [hq]; exact List.mem_cons_of_mem _ hp)
  have hne : q ≠ p := fun he => hnot (he ▸ hp)
  exact ⟨z, by rw [getElem?_set hr, if_neg hne]; exact hz, hzpc⟩

theorem step {x : HandlerLoop.Act} (h : QueueOK l) (hs : HandlerLoop.StepR .setup l x l') : QueueOK l' := by
  cases hs with
  | request =>
    refine ⟨h.nodup, fun p hp => ?_⟩
    obtain ⟨z, hz, hzpc⟩ := h.queued p hp
    exact ⟨z, getElem?_append_of_some hz _, hzpc⟩
  | acquire hr hpc | giveUp hr hpc | complete hr hpc | panic hr hpc => exact ⟨h.nodup, h.goto hr (by simp [hpc]) _⟩
  | @write q r hr hpc =>
    have hnot : q ∉ l.chan.queue := by
      intro hq
      obtain ⟨z, hz, hzpc⟩ := h.queued q hq
      rw [hr] at hz; cases hz
      rw [hpc] at hzpc; cases hzpc
    refine ⟨?_, fun p hp => ?_⟩
    · refine List.nodup_append.mpr ⟨h.nodup, List.nodup_singleton q, fun x hx y hy => ?_⟩
      rw [List.mem_singleton.mp hy]
      exact fun he => hnot (he ▸ hx)
    · rcases List.mem_append.mp hp with hp | hp
      · exact h.goto hr (by simp [hpc]) _ p hp
      · rw [List.mem_singleton.mp hp]
        exact ⟨_, by rw [HandlerLoop.State.reqGoto, getElem?_set hr, if_pos rfl], rfl⟩
  | recvItem hpc hq hr =>
    obtain ⟨hnodup, hrest⟩ := h.pop hq hr _
    exact ⟨hnodup, hrest⟩
  | @cancelTask q r hr hq =>
    refine ⟨h.nodup, fun p hp => ?_⟩
    by_cases hrq : r.pc = .queued
    · obtain ⟨z, hz, hzpc⟩ := h.queued p hp
      have hsame : (if r.pc = .spawned then .dropped else r.pc) = r.pc := if_neg (by simp [hrq])
      refine ⟨z, ?_, hzpc⟩
      simp only [HandlerLoop.State.reqGoto, hsame]
      rw [getElem?_set hr]
      split
      next he => subst he; exact hr.symm.trans hz
      · exact hz
    · exact h.goto hr hrq _ p hp
  | signalShutdown | subscribe | joinTask | joinNone | recvEnded | recvPending | close | park | wake | dropTasks
  | exit => exact ⟨h.nodup, h.queued⟩

end QueueOK

/-- What the loop and the sends do to who has a request's item. -/
theorem hand_from {l l' : HandlerLoop.State} {x : HandlerLoop.Act} (hs : HandlerLoop.StepR .setup l x l')
    (hx : x ≠ .request) {q : Nat} {r' : HandlerLoop.Req} {hand : Hand} (hr' : l'.reqs[q]? = some r')
    (hh : ReqPc.hand r'.pc = some hand) :
    (∃ r, l.reqs[q]? = some r ∧ ReqPc.hand r.pc = some hand) ∨
      x = .pollRecv ∧ l.pc = .recv ∧ l.chan.queue.head? = some q ∧ l.draining = false ∧ hand = .task := by
  -- a request that moves and is in the same hands, or in nobody's
  have move : ∀ {p r pc}, l.reqs[p]? = some r → (ReqPc.hand pc = none ∨ ReqPc.hand pc = ReqPc.hand r.pc) →
      (l.reqs.set p { r with pc := pc })[q]? = some r' → ∃ r, l.reqs[q]? = some r ∧ ReqPc.hand r.pc = some hand := by
    intro p r pc hr hpc hset
    rcases getElem?_set_cases hr hset with ⟨rfl, rfl⟩ | ⟨-, hq⟩
    · rcases hpc with hpc | hpc
      · rw [hpc] at hh; cases hh
      · exact ⟨r, hr, hpc ▸ hh⟩
    · exact ⟨r', hq, hh⟩
  cases hs with
  | request => exact absurd rfl hx
  | acquire hr hpc => exact .inl (move hr (.inr (by rw [hpc]; rfl)) hr')
  | giveUp hr => exact .inl (move hr (.inl rfl) hr')
  | write hr hpc => exact .inl (move hr (.inr (by rw [hpc]; rfl)) hr')
  | complete hr => exact .inl (move hr (.inl rfl) hr')
  | panic hr => exact .inl (move hr (.inl rfl) hr')
  | cancelTask hr =>
    refine .inl (move hr ?_ hr')
    split
    · exact .inl rfl
    · exact .inr rfl
  | @recvItem p r rest hpc hq hr =>
    rcases getElem?_set_cases hr hr' with ⟨rfl, rfl⟩ | ⟨-, hq'⟩
    · cases hd : l.draining with
      | true => rw [hd] at hh; cases hh
      | false =>
        rw [hd] at hh; cases hh
        exact .inr ⟨rfl, hpc, by rw [hq]; rfl, rfl, rfl⟩
    · exact .inl ⟨r', hq', hh⟩
  | signalShutdown | subscribe | joinTask | joinNone | recvEnded | recvPending | close | park | wake | dropTasks
  | exit => exact .inl ⟨r', hr', hh⟩

theorem reqs_length {l l' : HandlerLoop.State} {x : HandlerLoop.Act} (hs : HandlerLoop.StepR .setup l x l')
    (hx : x ≠ .request) : l'.reqs.length = l.reqs.length := by
  cases hs <;> simp_all [HandlerLoop.State.reqGoto]

/-- No item comes into anybody's hands. -/
structure Shrinks (l l' : HandlerLoop.State) : Prop where
  length : l'.reqs.length = l.reqs.length
  hand : ∀ {q : Nat} {r' : HandlerLoop.Req} {hand : Hand}, l'.reqs[q]? = some r' → ReqPc.hand r'.pc = some hand →
    ∃ r, l.reqs[q]? = some r ∧ ReqPc.hand r.pc = some hand

theorem shrinks_step {l l' : HandlerLoop.State} {x : HandlerLoop.Act} (hs : HandlerLoop.StepR .setup l x l')
    (hx : x ≠ .request) (hr : x = .pollRecv → l.pc = .recv → l.chan.queue ≠ [] → l.draining = true) :
    Shrinks l l' where
  length := reqs_length hs hx
  hand hq hh := by
    rcases hand_from hs hx hq hh with h | ⟨rfl, hpc, hhead, hd, -⟩
    · exact h
    · have hne : l.chan.queue ≠ [] := by
        intro he
        rw [he] at hhead; cases hhead
      rw [hr rfl hpc hne] at hd; cases hd

/-- Nobody has request `q`'s item. -/
def Handless (l : HandlerLoop.State) (q : Nat) : Prop := ∀ r, l.reqs[q]? = some r → ReqPc.hand r.pc = none

theorem handless_set {l : HandlerLoop.State} {q : Nat} {r y : HandlerLoop.Req} (hr : l.reqs[q]? = some r)
    (hy : ReqPc.hand y.pc = none) : ∀ z, (l.reqs.set q y)[q]? = some z → ReqPc.hand z.pc = none := by
  intro z hz
  rw [getElem?_set hr, if_pos rfl] at hz
  cases hz
  exact hy

/-- A connection that is at `place` is in no request's hands but `q`'s. -/
def OnlyAt (place : Place) (st : Stage) (q : Nat) : Prop :=
  ∀ ⦃st' : Stage⦄ ⦃q' : Nat⦄ ⦃hand : Hand⦄, hand.At st' q' place → st' = st ∧ q' = q

theorem Hand.At.only {hand : Hand} {st : Stage} {q : Nat} {place : Place} (h : hand.At st q place) :
    OnlyAt place st q := by
  intro st' q' hand' h'
  cases hand with
  | channel =>
    cases h
    cases hand' with
    | channel => cases h'; exact ⟨rfl, rfl⟩
    | task => obtain ⟨pc, h'⟩ := h'; cases h'
  | task =>
    obtain ⟨pc, rfl⟩ := h
    cases hand' with
    | channel => cases h'
    | task => obtain ⟨pc', h'⟩ := h'; cases h'; exact ⟨rfl, rfl⟩

theorem onlyAt_request {st : Stage} {q : Nat} {place : Place} (h : place = .request st q) : OnlyAt place st q := by
  have hat : Hand.channel.At st q place := h
  exact hat.only

theorem onlyAt_setup {st : Stage} {q : Nat} {pc : SetupTaskPc} {place : Place} (h : place = .setup st q pc) :
    OnlyAt place st q := by
  have hat : Hand.task.At st q place := ⟨pc, h⟩
  exact hat.only

/-- The connection is in no request's hands. -/
def Place.outside : Place → Bool
  | .request _ _ | .setup _ _ _ => false
  | _ => true

theorem Place.not_at {place : Place} (h : place.outside = true) {hand : Hand} {st : Stage} {q : Nat} :
    ¬ hand.At st q place := by
  cases hand with
  | channel => rintro rfl; cases h
  | task => rintro ⟨pc, rfl⟩; cases h

/-- The requests of one handler, with the connections. -/
structure StageOK (st : Stage) (x : Handler) (C : Table Nat Conn) : Prop where
  length : x.items.length = x.loop.reqs.length
  queue : QueueOK x.loop
  place : ∀ {q : Nat} {id : Nat} {r : HandlerLoop.Req} {hand : Hand}, x.items[q]? = some id →
    x.loop.reqs[q]? = some r → ReqPc.hand r.pc = some hand → ∃ c, C.lookup id = some c ∧ hand.At st q c.place

namespace StageOK

variable {st : Stage} {x x' : Handler} {C : Table Nat Conn} {l : HandlerLoop.State} {id q : Nat} {c c' : Conn}

/-- A connection goes on and is still where the requests have it. -/
theorem conn (h : StageOK st x C) (hc : C.lookup id = some c)
    (hp : ∀ {hand : Hand} {q : Nat}, hand.At st q c.place → hand.At st q c'.place) :
    StageOK st x (C.insert id c') where
  length := h.length
  queue := h.queue
  place {_ id' _ _} hid hreq hh := by
    obtain ⟨y, hy, hat⟩ := h.place hid hreq hh
    rw [Table.lookup_insert]
    split
    next he =>
      subst he
      rw [hc] at hy; cases hy
      exact ⟨c', rfl, hp hat⟩
    · exact ⟨y, hy, hat⟩

theorem adapt (h : StageOK st x C) (hn : C.lookup id = none) : StageOK st x (C.insert id c') where
  length := h.length
  queue := h.queue
  place {_ id' _ _} hid hreq hh := by
    obtain ⟨y, hy, hat⟩ := h.place hid hreq hh
    have hne : id' ≠ id := fun he => by rw [he, hn] at hy; cases hy
    exact ⟨y, by rw [Table.lookup_insert, if_neg hne]; exact hy, hat⟩

/-- A step of the loop or of a send by which nothing gets into anybody's hands. -/
theorem loop (h : StageOK st x C) (hs : Shrinks x.loop l) (hl : QueueOK l) :
    StageOK st { x with loop := l } C where
  length := h.length.trans hs.length.symm
  queue := hl
  place hid hreq hh := by
    obtain ⟨r, hr, hh⟩ := hs.hand hreq hh
    exact h.place hid hr hh

/-- The connection of the request that nobody has any more goes anywhere. -/
theorem release (h : StageOK st x C) (hn : Handless x.loop q) (hc : C.lookup id = some c)
    (hat : OnlyAt c.place st q) : StageOK st x (C.insert id c') where
  length := h.length
  queue := h.queue
  place {q' id' _ _} hid hreq hh := by
    obtain ⟨y, hy, hyat⟩ := h.place hid hreq hh
    have hne : id' ≠ id := by
      rintro rfl
      rw [hc] at hy; cases hy
      obtain ⟨-, rfl⟩ := hat hyat
      rw [hn _ hreq] at hh; cases hh
    exact ⟨y, by rw [Table.lookup_insert, if_neg hne]; exact hy, hyat⟩

/-- A new request, with a connection that was in no other's hands. -/
theorem request (h : StageOK st x C) (hc : C.lookup id = some c) (hp : c.place.outside = true)
    (hp' : c'.place = .request st x.loop.reqs.length) : StageOK st (x.request id) (C.insert id c') where
  length := by simp [Handler.request, h.length]
  queue := by
    refine ⟨h.queue.nodup, fun p hp => ?_⟩
    obtain ⟨z, hz, hzpc⟩ := h.queue.queued p hp
    exact ⟨z, getElem?_append_of_some hz _, hzpc⟩
  place {q' id' r hand} hid hreq hh := by
    rcases getElem?_append_cases hreq with ⟨rfl, rfl⟩ | hreq
    · cases hh
      have hid : id' = id := by
        rcases getElem?_append_cases hid with ⟨-, hid⟩ | hid
        · exact hid
        · rw [List.getElem?_eq_none (Nat.le_of_eq h.length)] at hid; cases hid
      exact ⟨c', by rw [Table.lookup_insert, if_pos hid], hp'⟩
    · have hid : x.items[q']? = some id' := by
        rcases getElem?_append_cases hid with ⟨rfl, -⟩ | hid
        · rw [h.length, List.getElem?_eq_none (Nat.le_refl _)] at hreq; cases hreq
        · exact hid
      obtain ⟨y, hy, hat⟩ := h.place hid hreq hh
      have hne : id' ≠ id := by
        rintro rfl
        rw [hc] at hy; cases hy
        exact Place.not_at hp hat
      exact ⟨y, by rw [Table.lookup_insert, if_neg hne]; exact hy, hat⟩

/-- The head of the queue is with the channel. -/
theorem queued (h : StageOK st x C) {rest : List Nat} (hq : x.loop.chan.queue = q :: rest)
    (hid : x.items[q]? = some id) (hc : C.lookup id = some c) : c.place = .request st q := by
  obtain ⟨r, hr, hpc⟩ := h.queue.queued q (by rw [hq]; exact List.mem_cons_self)
  have hh : ReqPc.hand r.pc = some .channel := by rw [hpc]; rfl
  obtain ⟨y, hy, hat⟩ := h.place hid hr hh
  rw [hc] at hy; cases hy
  exact hat

/-- A request is received and its setup task spawned. -/
theorem receive {rest : List Nat} {r r' : HandlerLoop.Req} (h : StageOK st x C) (hl : QueueOK l)
    (hq : x.loop.chan.queue = q :: rest) (hr : x.loop.reqs[q]? = some r) (hset : l.reqs = x.loop.reqs.set q r')
    (hpc : r'.pc = .spawned) (hid : x.items[q]? = some id) (hc : C.lookup id = some c)
    (hp : c'.place = .setup st q .fresh) : StageOK st { x with loop := l } (C.insert id c') where
  length := by rw [hset, List.length_set]; exact h.length
  queue := hl
  place {q' id' z hand} hid' hreq hh := by
    rw [hset] at hreq
    rcases getElem?_set_cases hr hreq with ⟨rfl, rfl⟩ | ⟨hne, hreq⟩
    · rw [hid] at hid'; cases hid'
      rw [hpc] at hh; cases hh
      exact ⟨c', by rw [Table.lookup_insert, if_pos rfl], .fresh, hp⟩
    · obtain ⟨y, hy, hat⟩ := h.place hid' hreq hh
      have hne : id' ≠ id := by
        rintro rfl
        rw [hc] at hy; cases hy
        exact hne (onlyAt_request (h.queued hq hid hc) hat).2.symm
      exact ⟨y, by rw [Table.lookup_insert, if_neg hne]; exact hy, hat⟩

end StageOK

/-- The requests of all handlers, with the connections. -/
structure Requests (X : Stage → Handler) (C : Table Nat Conn) : Prop where
  stage : ∀ st, StageOK st (X st) C
  asked : ∀ {id : Nat} {c : Conn} {st : Stage} {q : Nat}, C.lookup id = some c → c.pc.request = some (st, q) →
    (X st).items[q]? = some id

namespace Requests

variable {X : Stage → Handler} {C : Table Nat Conn} {st : Stage} {x : Handler} {l : HandlerLoop.State}
variable {id q : Nat} {c c' : Conn}

/-- The handlers are the same, but for what is no request's. -/
theorem handlers {X' : Stage → Handler} (h : Requests X C) (hi : ∀ st, (X' st).items = (X st).items)
    (hr : ∀ st, (X' st).loop.reqs = (X st).loop.reqs)
    (hq : ∀ st, (X' st).loop.chan.queue = (X st).loop.chan.queue) : Requests X' C where
  stage st := by
    refine ⟨by rw [hi, hr]; exact (h.stage st).length, ⟨?_, ?_⟩, ?_⟩
    · rw [hq]; exact (h.stage st).queue.nodup
    · rw [hq, hr]; exact (h.stage st).queue.queued
    · rw [hi, hr]; exact (h.stage st).place
  asked hc hpc := by rw [hi]; exact h.asked hc hpc

/-- One handler and the connections go on. -/
theorem put {C' : Table Nat Conn} (hs : ∀ st', st' ≠ st → StageOK st' (X st') C') (hx : StageOK st x C')
    (hi : x.items = (X st).items)
    (ha : ∀ {id c st q}, C'.lookup id = some c → c.pc.request = some (st, q) → (X st).items[q]? = some id) :
    Requests (Function.update X st x) C' where
  stage st' := by
    by_cases he : st' = st
    · subst he; rw [Function.update_self]; exact hx
    · rw [Function.update_of_ne he]; exact hs st' he
  asked {id c st' q} hc hpc := by
    have hid := ha hc hpc
    by_cases he : st' = st
    · subst he; rw [Function.update_self, hi]; exact hid
    · rw [Function.update_of_ne he]; exact hid

/-- The requests of the drivers, when a driver goes on. -/
theorem asked_insert (h : Requests X C) (hc : C.lookup id = some c)
    (hpc : ∀ {st q}, c'.pc.request = some (st, q) → c.pc.request = some (st, q)) {id' : Nat} {y : Conn} {st : Stage}
    {q : Nat} (hy : (C.insert id c').lookup id' = some y) (hreq : y.pc.request = some (st, q)) :
    (X st).items[q]? = some id' := by
  rcases Table.lookup_insert_cases hy with ⟨rfl, rfl⟩ | ⟨-, hy⟩
  · exact h.asked hc (hpc hreq)
  · exact h.asked hy hreq

theorem conn (h : Requests X C) (hc : C.lookup id = some c)
    (hp : ∀ {hand : Hand} {st q}, hand.At st q c.place → hand.At st q c'.place)
    (hpc : ∀ {st q}, c'.pc.request = some (st, q) → c.pc.request = some (st, q)) : Requests X (C.insert id c') where
  stage st := (h.stage st).conn hc hp
  asked := h.asked_insert hc hpc

theorem adapt (h : Requests X C) (hn : C.lookup id = none) (hpc : c'.pc.request = none) :
    Requests X (C.insert id c') where
  stage st := (h.stage st).adapt hn
  asked hy hreq := by
    rcases Table.lookup_insert_cases hy with ⟨rfl, rfl⟩ | ⟨-, hy⟩
    · rw [hpc] at hreq; cases hreq
    · exact h.asked hy hreq

theorem loop (h : Requests X C) (hs : Shrinks (X st).loop l) (hl : QueueOK l) :
    Requests (Function.update X st { X st with loop := l }) C :=
  put (fun st' _ => h.stage st') ((h.stage st).loop hs hl) rfl h.asked

/-- A request loses its connection, which goes anywhere. -/
theorem release (h : Requests X C) (hs : Shrinks (X st).loop l) (hl : QueueOK l) (hn : Handless l q)
    (hc : C.lookup id = some c) (hat : OnlyAt c.place st q)
    (hpc : ∀ {st q}, c'.pc.request = some (st, q) → c.pc.request = some (st, q)) :
    Requests (Function.update X st { X st with loop := l }) (C.insert id c') := by
  refine put (fun st' hne => ?_) (((h.stage st).loop hs hl).release hn hc hat) rfl (h.asked_insert hc hpc)
  exact (h.stage st').conn hc fun hst => absurd (hat hst).1 hne

/-- A driver makes a request with its connection. -/
theorem request (h : Requests X C) (hc : C.lookup id = some c) (hp : c.place.outside = true)
    (hp' : c'.place = .request st (X st).loop.reqs.length)
    (hpc' : c'.pc.request = some (st, (X st).loop.reqs.length)) :
    Requests (Function.update X st ((X st).request id)) (C.insert id c') where
  stage st' := by
    by_cases he : st' = st
    · subst he
      rw [Function.update_self]
      exact (h.stage st').request hc hp hp'
    · rw [Function.update_of_ne he]
      exact (h.stage st').conn hc fun hat => absurd hat (Place.not_at hp)
  asked {id' y st' q'} hy hreq := by
    have hold : (X st').items[q']? = some id' →
        ((Function.update X st ((X st).request id)) st').items[q']? = some id' := by
      intro hid
      by_cases he : st' = st
      · subst he
        rw [Function.update_self]
        exact getElem?_append_of_some hid _
      · rw [Function.update_of_ne he]
        exact hid
    rcases Table.lookup_insert_cases hy with ⟨rfl, rfl⟩ | ⟨-, hy⟩
    · rw [hpc'] at hreq; cases hreq
      rw [Function.update_self, Handler.request, ← (h.stage st).length]
      exact List.getElem?_concat_length
    · exact hold (h.asked hy hreq)

/-- The request the loop receives when it is polled. -/
theorem receive_cases (h : Requests X C) (hs : HandlerLoop.StepR .setup (X st).loop .pollRecv l)
    (hq : (X st).takes .pollRecv = some q) (hi : (X st).items[q]? = some id) (hc : C.lookup id = some c) :
    c.place = .request st q ∧ ∃ r rest, (X st).loop.chan.queue = q :: rest ∧ (X st).loop.reqs[q]? = some r ∧
      l.reqs = (X st).loop.reqs.set q
        { r with pc := LoopKind.setup.receive (X st).loop.draining, late := (X st).loop.draining } := by
  unfold Handler.takes at hq
  cases hs with
  | @recvItem p r rest hrpc hqueue hr =>
    simp only [hrpc, if_true, hqueue, List.head?_cons, Option.some.injEq] at hq
    subst hq
    exact ⟨(h.stage st).queued hqueue hi hc, r, rest, hqueue, hr, rfl⟩
  | recvEnded hrpc he => simp [hrpc, he.queue] at hq
  | recvPending hrpc hqueue => simp [hrpc, hqueue] at hq

/-- The loop receives a request and spawns its setup task. -/
theorem receive (h : Requests X C) (hs : HandlerLoop.StepR .setup (X st).loop .pollRecv l)
    (hq : (X st).takes .pollRecv = some q) (hd : (X st).loop.draining = false) (hi : (X st).items[q]? = some id)
    (hc : C.lookup id = some c) (hp : c'.place = .setup st q .fresh)
    (hpc : ∀ {st q}, c'.pc.request = some (st, q) → c.pc.request = some (st, q)) :
    Requests (Function.update X st { X st with loop := l }) (C.insert id c') := by
  obtain ⟨hplace, r, rest, hqueue, hr, hset⟩ := h.receive_cases hs hq hi hc
  have hl := (h.stage st).queue.step hs
  refine put (fun st' hne => ?_) ((h.stage st).receive hl hqueue hr hset ?_ hi hc hp) rfl (h.asked_insert hc hpc)
  · refine (h.stage st').conn hc fun {hand q'} hat => ?_
    exact absurd (onlyAt_request hplace hat).1 hne
  · simp [LoopKind.receive, hd]

end Requests

/-- A step that lets go of request `q`. -/
theorem handless_step {l l' : HandlerLoop.State} {x : HandlerLoop.Act} {q : Nat} (hs : HandlerLoop.StepR .setup l x l')
    (hx : x = .giveUp q ∨ x = .complete q ∨ x = .panic q) : Handless l' q := by
  rcases hx with rfl | rfl | rfl
  · cases hs with
    | giveUp hr => exact handless_set hr rfl
  · cases hs with
    | complete hr => exact handless_set hr rfl
  · cases hs with
    | panic hr => exact handless_set hr rfl

namespace Requests

variable {X : Stage → Handler} {C : Table Nat Conn} {st : Stage} {l : HandlerLoop.State} {id q : Nat} {c : Conn}

/-- A send that can be given up has the connection. -/
theorem giveUp_place (h : Requests X C) (hc : C.lookup id = some c) (hpc : c.pc.request = some (st, q))
    (hs : HandlerLoop.StepR .setup (X st).loop (.giveUp q) l) : c.place = .request st q := by
  cases hs with
  | @giveUp _ r hr hrpc =>
    have hh : ReqPc.hand r.pc = some .channel := by rw [hrpc]; rfl
    obtain ⟨y, hy, hat⟩ := (h.stage st).place (h.asked hc hpc) hr hh
    rw [hc] at hy; cases hy
    exact hat

/-- The loop drops a request it takes out of the queue, or its setup task. -/
theorem takes_cases {x : HandlerLoop.Act} (h : Requests X C) (hs : HandlerLoop.StepR .setup (X st).loop x l)
    (hq : (X st).takes x = some q) (hd : x = .pollRecv → (X st).loop.draining = true)
    (hi : (X st).items[q]? = some id) (hc : C.lookup id = some c) :
    Shrinks (X st).loop l ∧ Handless l q ∧ ∃ hand : Hand, hand.At st q c.place := by
  refine ⟨shrinks_step hs ?_ fun hx _ _ => hd hx, ?_⟩
  · rintro rfl; cases hq
  · cases hs with
    | @recvItem p r rest hrpc hqueue hr =>
      simp only [Handler.takes, hrpc, if_true, hqueue, List.head?_cons, Option.some.injEq] at hq
      subst hq
      refine ⟨handless_set hr ?_, .channel, (h.stage st).queued hqueue hi hc⟩
      rw [hd rfl]; rfl
    | recvEnded hrpc he => simp [Handler.takes, hrpc, he.queue] at hq
    | recvPending hrpc hqueue => simp [Handler.takes, hrpc, hqueue] at hq
    | @cancelTask p r hr hmem =>
      simp only [Handler.takes, hr, Option.any_some, decide_eq_true_eq] at hq
      split at hq
      next hsp =>
        cases hq
        have hh : ReqPc.hand r.pc = some .task := by rw [hsp]; rfl
        obtain ⟨y, hy, hat⟩ := (h.stage st).place hi hr hh
        rw [hc] at hy; cases hy
        exact ⟨handless_set hr (by rw [if_pos hsp]; rfl), .task, hat⟩
      · cases hq
    | _ => cases hq

/-- What is queued when the loop's future is dropped is dropped one by one. -/
theorem dropItem_cases {queue : List Nat} {r : HandlerLoop.Req} (h : Requests X C)
    (hq : (X st).loop.chan.queue = q :: queue) (hr : (X st).loop.reqs[q]? = some r) :
    let l := { (X st).loop.reqGoto q r .dropped with chan := { (X st).loop.chan with queue := queue } }
    Shrinks (X st).loop l ∧ QueueOK l ∧ Handless l q := by
  obtain ⟨hnodup, hrest⟩ := (h.stage st).queue.pop hq hr { r with pc := .dropped }
  refine ⟨⟨by simp [HandlerLoop.State.reqGoto], fun {p r' hand} hr' hh => ?_⟩, ⟨hnodup, hrest⟩, handless_set hr rfl⟩
  rcases getElem?_set_cases hr hr' with ⟨rfl, rfl⟩ | ⟨-, hr'⟩
  · cases hh
  · exact ⟨r', hr', hh⟩

end Requests

theorem State.giveBack_conns (s : State) (id : Nat) (c : Conn) (st : Stage) (q : Nat) :
    ∃ place, (place = .reply ∧ c.pc.request = some (st, q) ∨ place = .dropped) ∧
      (s.giveBack id c st q).conns = s.conns.insert id { c with place := place } := by
  rcases s.giveBack_cases id c st q with ⟨hpc, he⟩ | he
  · exact ⟨.reply, .inl ⟨rfl, hpc⟩, by rw [he]; rfl⟩
  · exact ⟨.dropped, .inr rfl, by rw [he]; rfl⟩

end Pea2Pea.Protocols
