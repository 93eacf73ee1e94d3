/-
The `ShuttingDown` error: who returns it, and that the shutdown has begun by
then.

A `connect` and a toggle return it where they find the shutdown flag up, where
a toggle finds the registered listener gone, and where a driver in
`enable_protocols` gets no response. The last is an inference: the handler may
be gone, or its request dropped, for another reason than a shutdown: a setup
task that panics outside its catches (a `perform_handshake` does when it is
called, before it has returned the future whose panics are caught, or Reading's
or Writing's setup before it spawns its task), or a handler's loop that panics
when it is to spawn one. Apart from these, and from a handshake that returns
such an error of its own, the error is true.
-/
import Pea2Pea.ConnTasks
import Pea2Pea.Toggle
import Pea2Pea.WindDown

namespace Pea2Pea

open Pool Tasks

namespace HandlerLoop

variable {G : Prop} {l l' : State} {x : Act}

/-- A response sender is dropped by a loop that was made to end, or with a
setup task that panics. -/
theorem StepR.dropped_from (hs : StepR .setup l x l') (hO : OpenUnless G l) (hx : ∀ q, x ≠ .panic q) {r' : Req}
    (hr' : r' ∈ l'.reqs) (hpc : r'.pc = .dropped) : G ∨ ∃ r ∈ l.reqs, r.pc = .dropped := by
  have goto : ∀ {q r y}, l.reqs[q]? = some r → r' ∈ l.reqs.set q y → (y.pc = .dropped → G ∨ r.pc = .dropped) →
      G ∨ ∃ r ∈ l.reqs, r.pc = .dropped := by
    intro q r y hr hm hy
    rcases List.mem_or_eq_of_mem_set hm with hm | rfl
    · exact .inr ⟨r', hm, hpc⟩
    · exact (hy hpc).imp_right fun hd => ⟨r, List.mem_of_getElem? hr, hd⟩
  cases hs with
  | request =>
    rcases List.mem_append.mp hr' with hm | hm
    · exact .inr ⟨r', hm, hpc⟩
    · rw [List.mem_singleton.mp hm] at hpc; cases hpc
  | acquire hr | giveUp hr | write hr | complete hr => exact goto hr hr' fun hy => by cases hy
  | panic => exact absurd rfl (hx _)
  | recvItem _ _ hr =>
    refine goto hr hr' fun hy => .inl (hO.draining ?_)
    cases hd : l.draining with
    | true => rfl
    | false => simp [LoopKind.receive, hd] at hy
  | cancelTask hr hq => exact goto hr hr' fun _ => .inl (hO.aborted (List.ne_nil_of_mem hq))
  | _ => exact .inr ⟨r', hr', hpc⟩

/-- A send comes to nothing only by being given up. -/
theorem StepR.unsent_from (hs : StepR .setup l x l') {q : Nat} {r' : Req} (hr' : l'.reqs[q]? = some r')
    (hpc : r'.pc = .unsent) : x = .giveUp q ∨ ∃ r, l.reqs[q]? = some r ∧ r.pc = .unsent := by
  have goto : ∀ {p r y}, l.reqs[p]? = some r → (l.reqs.set p y)[q]? = some r' → (y.pc = .unsent → r.pc = .unsent) →
      ∃ r, l.reqs[q]? = some r ∧ r.pc = .unsent := by
    intro p r y hr hm hy
    rcases getElem?_set_cases hr hm with ⟨rfl, rfl⟩ | ⟨-, hm⟩
    · exact ⟨r, hr, hy hpc⟩
    · exact ⟨r', hm, hpc⟩
  cases hs with
  | request =>
    rcases getElem?_append_cases hr' with ⟨-, rfl⟩ | hr'
    · cases hpc
    · exact .inr ⟨r', hr', hpc⟩
  | @giveUp p r hr =>
    rcases getElem?_set_cases hr hr' with ⟨rfl, -⟩ | ⟨-, hm⟩
    · exact .inl rfl
    · exact .inr ⟨r', hm, hpc⟩
  | acquire hr | write hr | complete hr | panic hr => exact .inr (goto hr hr' fun hy => by cases hy)
  | recvItem _ _ hr =>
    refine .inr (goto hr hr' fun hy => ?_)
    cases hd : l.draining <;> simp [LoopKind.receive, hd] at hy
  | @cancelTask p r hr =>
    refine .inr (goto hr hr' fun hy => ?_)
    dsimp only at hy
    split at hy
    · cases hy
    · exact hy
  | _ => exact .inr ⟨r', hr', hpc⟩

end HandlerLoop

namespace Shutdown

variable {cfg : NodeConfig} {s s' : State}

theorem toggleOff_listening {c : Nat} (h : step cfg s (.toggleOff c) = some s') : s.listening ≠ none := by
  simp only [step, Option.bind_eq_bind, Option.bind_eq_some_iff] at h
  obtain ⟨x, -, h⟩ := h
  split at h
  next hc => exact hc.2.1
  · cases h

/-- A listener that is gone under its address was taken by a `shut_down`. -/
theorem flag_of_listener_gone (hr : (shutdown cfg).Reachable s) (hl : s.listening ≠ none)
    (hg : s.registry.lookup .listener = none) : s.base.flag = true := by
  rcases (listenerOK_reachable hr).on hl with ht | hne
  · exact ((registryOK_reachable hr).taken ht).1
  · exact absurd hg hne

end Shutdown

namespace Protocols

open Shutdown (Published CallsSpared Milestone milestone_flag)
open HandlerLoop (OpenUnless)

/-! ## Until the shutdown begins -/

/-- The shutdown has begun. -/
def Begun (b : Shutdown.State) : Prop := b.base.flag = true

/-- The driver of connection `id` is over. -/
def Over (C : Table Nat Conn) (id : Nat) : Prop := ∃ c, C.lookup id = some c ∧ c.pc = .over

/-- A handler that has no reason to leave a request without a response,
unless the shutdown has begun or nobody waits for one. -/
structure Serving (b : Shutdown.State) (st : Stage) (x : Handler) (C : Table Nat Conn) : Prop where
  task : ∀ h, x.task = some h → Published Begun b st.kind h
  loop : OpenUnless (Begun b) x.loop
  dropped : ∀ r ∈ x.loop.reqs, r.pc = .dropped → Begun b
  unsent : ∀ {q id : Nat} {r : HandlerLoop.Req}, x.loop.reqs[q]? = some r → r.pc = .unsent →
    x.items[q]? = some id → Begun b ∨ Over C id

structure Patient (b : Shutdown.State) (c : Conn) : Prop where
  grace : ∀ st q, c.pc = .grace st q → Begun b
  error : c.error ≠ some .shuttingDown

/-- The handlers and the connections, over the parts of the state they
depend on. -/
structure Calm (b : Shutdown.State) (X : Stage → Handler) (C : Table Nat Conn) : Prop where
  calls : CallsSpared Begun b
  stage : ∀ st, Serving b st (X st) C
  conn : ∀ {id : Nat} {c : Conn}, C.lookup id = some c → Patient b c

theorem Stage.kind_ne_listener (st : Stage) : st.kind ≠ .listener := by cases st <;> simp [Stage.kind]

theorem Over.insert {C : Table Nat Conn} {id k : Nat} {c c' : Conn} (h : Over C k) (hc : C.lookup id = some c)
    (hpc : c.pc = .over → c'.pc = .over) : Over (C.insert id c') k := by
  obtain ⟨y, hy, hover⟩ := h
  rw [Over, Table.lookup_insert]
  split
  next he =>
    subst he
    rw [hc] at hy; cases hy
    exact ⟨c', rfl, hpc hover⟩
  · exact ⟨y, hy, hover⟩

namespace Serving

variable {cfg : NodeConfig} {b b' : Shutdown.State} {st : Stage} {x : Handler} {C C' : Table Nat Conn}
  {l : HandlerLoop.State}

theorem base {y : Shutdown.Act} (h : Serving b st x C) (hr : (Shutdown.shutdown cfg).Reachable b)
    (hs : Shutdown.StepR cfg b y b') : Serving b' st x C where
  task w hw := hs.published (milestone_flag cfg) hr trivial st.kind_ne_listener (h.task w hw)
  loop := h.loop.mono hs.flag_mono
  dropped r hm hpc := hs.flag_mono (h.dropped r hm hpc)
  unsent hq hpc hi := (h.unsent hq hpc hi).imp_left hs.flag_mono

theorem conns (h : Serving b st x C) (hC : ∀ id, Over C id → Over C' id) : Serving b st x C' :=
  { h with unsent := fun hq hpc hi => (h.unsent hq hpc hi).imp_right (hC _) }

/-- With the shutdown begun there is nothing else to say. -/
theorem begun (h : Serving b st x C) (hb : Begun b) : Serving b st { x with loop := l } C where
  task := h.task
  loop := HandlerLoop.openUnless_of hb
  dropped _ _ _ := hb
  unsent _ _ _ := .inl hb

theorem step {y : HandlerLoop.Act} (h : Serving b st x C) (hs : HandlerLoop.StepR .setup x.loop y l)
    (hy : ∀ b, y ≠ .signalShutdown b) (hp : ∀ q, y ≠ .panic q)
    (hg : ∀ q, y = .giveUp q → ∀ id, x.items[q]? = some id → Begun b ∨ Over C id) :
    Serving b st { x with loop := l } C where
  task := h.task
  loop := hs.openUnless hy h.loop
  dropped r' hm hpc := by
    rcases hs.dropped_from h.loop hp hm hpc with hb | ⟨r, hr, hd⟩
    · exact hb
    · exact h.dropped r hr hd
  unsent hq hpc hi := by
    rcases hs.unsent_from hq hpc with rfl | ⟨r, hr, hu⟩
    · exact hg _ rfl _ hi
    · exact h.unsent hr hu hi

theorem request {id : Nat} (h : Serving b st x C) (hlen : x.items.length = x.loop.reqs.length) :
    Serving b st (x.request id) C where
  task := h.task
  loop := { h.loop with }
  dropped := forall_mem_append h.dropped fun hpc => by cases hpc
  unsent {q _ _} hq hpc hi := by
    rcases getElem?_append_cases hq with ⟨-, rfl⟩ | hq
    · cases hpc
    · have hlt : q < x.items.length := by rw [hlen]; exact (List.getElem?_eq_some_iff.mp hq).1
      refine h.unsent hq hpc ?_
      rw [Handler.request, List.getElem?_append_left hlt] at hi
      exact hi

end Serving

theorem Patient.base {cfg : NodeConfig} {b b' : Shutdown.State} {c : Conn} {y : Shutdown.Act} (h : Patient b c)
    (hs : Shutdown.StepR cfg b y b') : Patient b' c :=
  ⟨fun st q hpc => hs.flag_mono (h.grace st q hpc), h.error⟩

namespace Calm

variable {cfg : NodeConfig} {b b' : Shutdown.State} {X : Stage → Handler} {C : Table Nat Conn} {st : Stage}
  {x : Handler} {id : Nat} {c c' : Conn} {l : HandlerLoop.State}

theorem base {y : Shutdown.Act} (h : Calm b X C) (hr : (Shutdown.shutdown cfg).Reachable b)
    (hs : Shutdown.StepR cfg b y b') : Calm b' X C where
  calls := hs.callsSpared (milestone_flag cfg) hr h.calls trivial
  stage st := (h.stage st).base hr hs
  conn hc := (h.conn hc).base hs

theorem set (h : Calm b X C) (hc : C.lookup id = some c) (hpc : c.pc = .over → c'.pc = .over) (hp : Patient b c') :
    Calm b X (C.insert id c') where
  calls := h.calls
  stage st := (h.stage st).conns fun _ ho => ho.insert hc hpc
  conn hy := by
    rcases Table.lookup_insert_cases hy with ⟨rfl, rfl⟩ | ⟨-, hy⟩
    · exact hp
    · exact h.conn hy

/-- The connection is somewhere else, or has more tasks. -/
theorem move (h : Calm b X C) (hc : C.lookup id = some c) (hpc : c'.pc = c.pc) (he : c'.error = c.error) :
    Calm b X (C.insert id c') :=
  h.set hc (fun ho => hpc.trans ho) ⟨fun st q hg => (h.conn hc).grace st q (hpc ▸ hg), he ▸ (h.conn hc).error⟩

/-- The driver goes on, but not into a grace period. -/
theorem goto (h : Calm b X C) (hc : C.lookup id = some c) (hover : c.pc = .over → c'.pc = .over)
    (hpc : ∀ st q, c'.pc ≠ .grace st q) (he : c'.error = none ∨ c'.error = c.error) : Calm b X (C.insert id c') := by
  refine h.set hc hover ⟨fun st q hg => absurd hg (hpc st q), ?_⟩
  rcases he with he | he
  · rw [he]; simp
  · rw [he]; exact (h.conn hc).error

theorem adapt (h : Calm b X C) (hn : C.lookup id = none) (hp : Patient b c') : Calm b X (C.insert id c') where
  calls := h.calls
  stage st := (h.stage st).conns fun k ⟨y, hy, ho⟩ => by
    have hne : k ≠ id := fun he => by rw [he, hn] at hy; cases hy
    exact ⟨y, by rw [Table.lookup_insert, if_neg hne]; exact hy, ho⟩
  conn hy := by
    rcases Table.lookup_insert_cases hy with ⟨rfl, rfl⟩ | ⟨-, hy⟩
    · exact hp
    · exact h.conn hy

theorem put (h : Calm b X C) (hx : Serving b st x C) : Calm b (Function.update X st x) C where
  calls := h.calls
  stage st' := by
    by_cases he : st' = st
    · subst he
      rw [Function.update_self]
      exact hx
    · rw [Function.update_of_ne he]
      exact h.stage st'
  conn := h.conn

/-- A step of a send, of the loop or of a setup task that does not panic. -/
theorem loop {y : HandlerLoop.Act} (h : Calm b X C) (hl : HandlerLoop.step .setup (X st).loop y = some l)
    (hy : ∀ b, y ≠ .signalShutdown b) (hp : ∀ q, y ≠ .panic q) (hg : ∀ q, y ≠ .giveUp q) :
    Calm b (Function.update X st { X st with loop := l }) C :=
  h.put ((h.stage st).step (HandlerLoop.step_sound hl) hy hp fun q he => absurd he (hg q))

theorem giveUp {q : Nat} (h : Calm b X C) (hl : HandlerLoop.step .setup (X st).loop (.giveUp q) = some l)
    (hg : ∀ id, (X st).items[q]? = some id → Begun b ∨ Over C id) :
    Calm b (Function.update X st { X st with loop := l }) C :=
  h.put ((h.stage st).step (HandlerLoop.step_sound hl) (by simp) (by simp) fun p he => by cases he; exact hg)

end Calm

variable {cfg : NodeConfig} {abortable : Bool} {s s' : State} {a : Act}

abbrev CalmOK (s : State) : Prop := Calm s.base.base s.handlers s.conns

/-- The user's part, as far as it is not caught: no setup task panics outside
its catches, nor does a handler's loop, and no handshake returns a
`ShuttingDown` error. -/
def honest : Act → Bool
  | .setup _ .panic | .setup _ (.fail .shuttingDown) | .panicLoop _ => false
  | _ => true

/-- A step of the hooks' system is one of the shutdown system, or none. -/
theorem Calm.hooks {X : Stage → Handler} {C : Table Nat Conn} {r r' : Hooks.State} {y : Hooks.Act}
    (h : Calm r.base X C) (hr : (Hooks.hooks cfg abortable).Reachable r)
    (hs : Hooks.step cfg abortable r y = some r') : Calm r'.base X C := by
  rcases (Hooks.step_sound hs).base_move with ⟨z, -, hz, -⟩ | ⟨he, -⟩
  · exact h.base ((Hooks.projects cfg abortable).reachable hr) hz
  · rw [he]; exact h

theorem StepR.react_calm {x : Hooks.Act} {b : Hooks.State} (h : CalmOK s) (hr : (protocols cfg abortable).Reachable s)
    (hb : Hooks.step cfg abortable s.base x = some b) (hf : s.free x = true) :
    Calm b.base (s.react x).handlers (s.react x).conns := by
  have hP := placesOK_reachable hr
  have hbase : Calm b.base s.handlers s.conns := h.hooks (hooks_reachable hr) hb
  have hreact := react_cases hP.drivers hb hf
  generalize s.react x = t at hreact
  cases hreact with
  | adapt =>
    refine hbase.adapt hP.known.fresh ⟨fun st q hpc => ?_, ?_⟩
    · cases hpc
    · simp
  | refuse _ _ hc | insert _ _ hc | remove _ _ hc | notifyDrain _ _ hc => exact hbase.move hc rfl rfl
  | @publish c =>
    have hstep : Shutdown.StepR cfg s.base.base (.publish c) b.base := by
      cases Hooks.step_sound hb with
      | base hy => exact Shutdown.step_sound hy
    refine { hbase with stage := fun st => ?_ }
    show Serving _ st (s.wire c st) _
    rcases s.wire_cases c st with hw | ⟨y, w, hy, hpc, hk, hw⟩
    · rw [hw]; exact hbase.stage st
    · rw [hw]
      refine { hbase.stage st with task := fun v hv => ?_ }
      cases hv
      rw [← hk]
      exact hstep.publish_published (milestone_flag cfg) (shutdown_reachable hr) h.calls hy hpc
        (hk ▸ st.kind_ne_listener)
  | signalHandlers =>
    have hbegun : Begun b.base := by
      cases Hooks.step_sound hb with
      | base hy => exact (milestone_flag cfg).signal (shutdown_reachable hr) (Shutdown.step_sound hy)
    exact { hbase with stage := fun st => (hbase.stage st).begun hbegun }
  | wired | deny | user | snapshot | toggleGone | toggleRefused | plain => exact hbase

theorem DriverR.calm {id : Nat} {c : Conn} {x : DriverAct} (hs : DriverR cfg abortable s id c x s') (h : CalmOK s)
    (hr : (protocols cfg abortable).Reachable s) (hc : s.conns.lookup id = some c) : CalmOK s' := by
  have hP := placesOK_reachable hr
  -- the driver's part of the lifecycle
  have below : ∀ {b}, stepFail cfg abortable s c = some b → Calm b.base s.handlers s.conns :=
    fun hb => h.hooks (hooks_reachable hr) hb
  cases hs with
  | @lookup st w hpc =>
    have hlen := (hP.requests.stage st).length
    exact (h.put ((h.stage st).request hlen)).goto hc (by simp [hpc]) (by simp) (.inl rfl)
  | @skip st hpc => exact h.goto hc (by simp [hpc]) (by cases st <;> simp [Stage.next]) (.inr rfl)
  | @sendFailed st q l hpc hx hl =>
    have hb : Begun s.base.base := (h.stage st).loop.closed hx
    exact (h.giveUp hl fun _ _ => .inl hb).move hc rfl rfl
  | @respond st q hpc =>
    have hne := (DriverPc.request_ne hpc).2
    exact h.goto hc (fun ho => absurd ho hne) (by cases st <;> simp [Stage.next]) (.inr rfl)
  | failed _ _ hb | noResponse _ _ hb | graceExpired _ hb | cancelReply _ _ hb | cancelWaiting _ _ hb =>
    exact (below hb).goto hc (fun _ => rfl) (by simp) (.inr rfl)
  | closing hpc _ hx =>
    exact h.set hc (by simp [hpc]) ⟨fun _ _ _ => (h.stage _).loop.closed hx, (h.conn hc).error⟩
  | @cancelSending st q r b l hpc _ _ hb hl =>
    -- nobody waits for the response any more
    have hover : Calm b.base s.handlers (s.conns.insert id { c with pc := .over, place := .dropped }) :=
      (below hb).goto hc (fun _ => rfl) (by simp) (.inr rfl)
    refine hover.giveUp hl fun id' hi => .inr ?_
    rw [hP.requests.asked hc hpc] at hi; cases hi
    exact ⟨_, (Table.lookup_insert ..).trans (if_pos rfl), rfl⟩
  | ready => exact h

theorem SetupR.calm {id : Nat} {c : Conn} {st : Stage} {q : Nat} {pc : SetupTaskPc} {x : SetupAct}
    (hs : SetupR s id c st q pc x s') (h : CalmOK s) (hx : honest (.setup id x) = true)
    (hc : s.conns.lookup id = some c) : CalmOK s' := by
  -- the setup task ends
  have ends : ∀ {l}, HandlerLoop.step .setup (s.handlers st).loop (.complete q) = some l →
      Calm s.base.base (Function.update s.handlers st { s.handlers st with loop := l }) s.conns :=
    fun hl => h.loop hl (by simp) (by simp) (by simp)
  cases hs with
  | shake | spawn | spawnReader => exact h.move hc rfl rfl
  | panic => cases hx
  | @fail _ e l hl =>
    refine (ends hl).set hc (fun ho => ho) ⟨(h.conn hc).grace, ?_⟩
    cases e with
    | shuttingDown => cases hx
    | other => simp
  | shaken hl | returnReading _ _ _ hl | returnWriting _ _ _ hl =>
    obtain ⟨place, -, he⟩ := State.giveBack_conns _ id _ st q
    rw [CalmOK, State.giveBack_base, State.giveBack_handlers, he]
    exact (ends hl).move hc rfl rfl

theorem Handler.allows_ne {x : Handler} {y : HandlerLoop.Act} (h : x.allows y = true) :
    (∀ b, y ≠ .signalShutdown b) ∧ (∀ q, y ≠ .panic q) ∧ ∀ q, y ≠ .giveUp q := by
  cases y <;> simp_all [Handler.allows]

theorem StepR.calm (hs : StepR cfg abortable s a s') (hr : (protocols cfg abortable).Reachable s)
    (ha : honest a = true) (h : CalmOK s) : CalmOK s' := by
  have hooks : ∀ {x b}, Hooks.step cfg abortable s.base x = some b → Calm b.base s.handlers s.conns :=
    fun hb => h.hooks (hooks_reachable hr) hb
  cases hs with
  | base hb hf => exact StepR.react_calm h hr hb hf
  | loop hx hl =>
    obtain ⟨hsig, hp, hg⟩ := Handler.allows_ne hx
    exact h.loop hl hsig hp hg
  | receive hl _ _ _ hc => exact (h.loop hl (by simp) (by simp) (by simp)).move hc rfl rfl
  | release hx hl _ _ _ hc =>
    obtain ⟨hsig, hp, hg⟩ := Handler.allows_ne hx
    exact (h.loop hl hsig hp hg).move hc rfl rfl
  | @dropLoop st w t hw ht hab =>
    have hb : Begun s.base.base := by
      rcases ((h.stage st).task w hw).spared with hi | hb
      · exact absurd ((getElem?_statuses ht).trans (congrArg some hab)) hi
      · exact hb
    exact h.put ((h.stage st).begun hb)
  | panicLoop => cases ha
  | @dropItem st q queue r id c hpc hq hreq hi hc =>
    have hb : Begun s.base.base := (h.stage st).loop.ended (.inl hpc)
    exact (h.put ((h.stage st).begun hb)).move hc rfl rfl
  | driver hc hd => exact hd.calm h hr hc
  | setup hc hp hd => exact hd.calm h ha hc
  | task ht hd =>
    cases hd with
    | left _ _ hb | cutOff _ _ hb => exact hooks hb
    | _ => exact h
  | hookPanic _ _ hb | hookGuard _ _ _ _ hb => exact hooks hb

theorem calm_init (cfg : NodeConfig) : CalmOK (.init cfg) where
  calls := fun x hx => by cases hx
  stage st :=
    { task := fun w hw => by cases hw
      loop := HandlerLoop.openUnless_init ..
      dropped := fun r hr => by cases hr
      unsent := fun hq => by cases hq }
  conn hc := by cases hc

theorem calm_reaches (h : (protocols cfg abortable).Reaches (fun _ a => honest a = true) s) : CalmOK s :=
  h.invariant (calm_init cfg) fun hr ho ha hs => (step_sound hs).calm hr.reachable ha ho

/-! ## A `ShuttingDown` error is true -/

/-- A `connect` or a toggle returns a `ShuttingDown` error only when the
shutdown has begun. -/
theorem denial_true (cfg : NodeConfig) (abortable : Bool) (s s' : State) (a : Act)
    (h : (protocols cfg abortable).Reaches (fun _ a => honest a = true) s) (hs : step cfg abortable s a = some s')
    (hd : s'.denied ≠ s.denied ∨ s'.refused ≠ s.refused) : s.node.flag = true := by
  have hr := h.reachable
  have hC := calm_reaches h
  have hP := placesOK_reachable hr
  have hstep : StepR cfg abortable s a s' := step_sound hs
  cases hstep with
  | @base x b hb hf =>
    have hreact := react_cases hP.drivers hb hf
    generalize s.react x = t at hreact hd
    cases hreact with
    | deny hflag | refuse _ _ _ _ hflag | toggleRefused hflag => exact hflag
    | toggleGone hgone =>
      have hl : s.base.base.listening ≠ none := by
        cases Hooks.step_sound hb with
        | base hy => exact Shutdown.toggleOff_listening hy
      exact Shutdown.flag_of_listener_gone (shutdown_reachable hr) hl hgone
    | _ => simp [State.set] at hd
  | @driver id c x s' hc hx =>
    cases hx with
    | @failed st q e b hpc he =>
      have hne : e ≠ .shuttingDown := fun hes => (hC.conn hc).error (hes ▸ he)
      simp [State.set, hne] at hd
    | @noResponse st q r b hpc hreq hb hrpc =>
      rcases hrpc with hrpc | hrpc
      · exact (hC.stage st).dropped r (List.mem_of_getElem? hreq) hrpc
      · -- the driver that waits here is not over
        rcases (hC.stage st).unsent hreq hrpc (hP.requests.asked hc hpc) with hb | ⟨y, hy, hover⟩
        · exact hb
        · rw [hc] at hy; cases hy
          rw [hover] at hpc; cases hpc
    | @graceExpired st q b hpc => exact (hC.conn hc).grace st q hpc
    | _ => simp [State.set, State.drop, State.put] at hd
  | setup hc hp hx =>
    obtain ⟨-, -, hdenied, hrefused, -⟩ := hx.frame
    simp [hdenied, hrefused] at hd
  | task ht hx => cases hx <;> simp at hd
  | _ => simp [State.set, State.drop, State.put] at hd

/-- What the driver of `peer` would return now, if it found its response
sender gone. -/
def deniesFirst (s : State) : Bool := (step threeSlots true s (.driver 0 .noResponse)).any fun s' => s'.denied = [0]

theorem denies_of_deniesFirst {s : State} (h : deniesFirst s = true) (hd : s.denied = []) :
    ∃ s', step threeSlots true s (.driver 0 .noResponse) = some s' ∧ s'.denied ≠ s.denied := by
  obtain ⟨s', hs, hs'⟩ := (Option.any_eq_true ..).mp h
  exact ⟨s', hs, by simp [hd, of_decide_eq_true hs']⟩

theorem denial_true_stranded : ∃ s s', (protocols threeSlots true).Reaches (fun _ a => honest a = true) s ∧
    step threeSlots true s (.driver 0 .noResponse) = some s' ∧ s'.denied ≠ s.denied ∧ s.node.flag = true := by
  obtain ⟨s, hs, hp⟩ := ((protocols threeSlots true).guarded fun _ a => honest a).exists_reachable strandedRun
    (fun s => deniesFirst s ∧ s.denied = []) (by decide +kernel)
  have hr : (protocols threeSlots true).Reaches (fun _ a => honest a = true) s := .of_guarded (fun _ a ha => ha) hs
  obtain ⟨hfirst, hnone⟩ := of_decide_eq_true hp
  obtain ⟨s', hs', hd⟩ := denies_of_deniesFirst hfirst hnone
  exact ⟨s, s', hr, hs', hd, denial_true threeSlots true s s' _ hr hs' (.inl hd)⟩

/-- A `perform_handshake` panics when it is called. -/
def panicRun : List Act := List.flatten
  [enableSetupRun .handshake 0, connectRun peer 0, [.driver 0 .lookup], setupRun .handshake 0, [.setup 0 .panic]]

/-- The `connect` returns a `ShuttingDown` error, and nobody has called
`shut_down`. -/
theorem denied_by_panic : ¬ ∀ s s' a, (protocols threeSlots true).Reachable s → step threeSlots true s a = some s' →
    s'.denied ≠ s.denied ∨ s'.refused ≠ s.refused → s.node.flag = true := by
  intro htrue
  obtain ⟨s, hs, hp⟩ := (protocols threeSlots true).exists_reachable panicRun
    (fun s => deniesFirst s ∧ s.denied = [] ∧ s.node.flag = false) (by decide +kernel)
  obtain ⟨hfirst, hnone, hflag⟩ := of_decide_eq_true hp
  obtain ⟨s', hs', hd⟩ := denies_of_deniesFirst hfirst hnone
  rw [htrue s s' _ hs hs' (.inl hd)] at hflag
  cases hflag

end Protocols

end Pea2Pea
