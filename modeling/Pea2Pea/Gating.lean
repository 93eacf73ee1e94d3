/-
What the setup protocols hold back: nothing of a connection is read, decoded
or processed, and no hook runs for it, before it has been in `active`; and
Reading and Writing are not triggered for a connection whose handshake was
triggered and did not succeed.
-/
import Pea2Pea.ConnTasks

namespace Pea2Pea.Protocols

open Pool

variable {cfg : NodeConfig} {abortable : Bool} {s s' : State} {a : Act}

/-! ## The handshake comes first -/

/-- The connection's handshake, if it was enabled when it was looked up,
succeeded. -/
def Conn.Cleared (c : Conn) : Prop := c.handshake = .skipped ∨ c.handshake = .succeeded

/-- The driver is past the handshake. -/
def DriverPc.past : DriverPc → Bool
  | .before st | .waiting st _ | .grace st _ => st ≠ .handshake
  | .through => true
  | .over => false

theorem Stage.next_ne (st : Stage) : st.next ≠ .before .handshake := by cases st <;> simp [Stage.next]

structure HandshakeOK (c : Conn) : Prop where
  past : c.pc.past = true → c.Cleared
  /-- A handshake's response is the connection's only if it succeeded. -/
  reply : ∀ q, c.place = .reply → c.pc.request = some (.handshake, q) → c.Cleared
  awaiting : ∀ st q k, c.place = .setup st q (.awaiting k) → st ≠ .handshake

namespace HandshakeOK

variable {c c' : Conn}

/-- The connection is moved to a place that is neither a response nor a
setup task's await. -/
theorem move (h : HandshakeOK c) (hpc : c'.pc = c.pc) (hh : c'.handshake = c.handshake) (hr : c'.place ≠ .reply)
    (hw : c'.place.awaits = none) : HandshakeOK c' where
  past hp := by rw [Conn.Cleared, hh]; exact h.past (hpc ▸ hp)
  reply q hp := absurd hp hr
  awaiting st q k hp := by rw [hp] at hw; cases hw

theorem fail (h : HandshakeOK c) (hpc : c'.pc = .over)
    (hw : ∀ st q k, c'.place = .setup st q (.awaiting k) → c'.place = c.place) :
    HandshakeOK c' where
  past hp := by rw [hpc] at hp; cases hp
  reply q _ hr := by rw [hpc] at hr; cases hr
  awaiting st q k hp := h.awaiting st q k (hw st q k hp ▸ hp)

end HandshakeOK

/-- The connections, and those that Reading or Writing were triggered for. -/
structure Handshakes (X : Stage → Handler) (C : Table Nat Conn) : Prop where
  conn : ∀ {id : Nat} {c : Conn}, C.lookup id = some c → HandshakeOK c
  item : ∀ {st : Stage} {id : Nat}, st ≠ .handshake → id ∈ (X st).items →
    ∃ c, C.lookup id = some c ∧ c.Cleared ∧ c.pc ≠ .before .handshake

namespace Handshakes

variable {X X' : Stage → Handler} {C : Table Nat Conn} {id : Nat} {c c' : Conn}

theorem handlers (h : Handshakes X C) (hi : ∀ st, (X' st).items = (X st).items) : Handshakes X' C where
  conn := h.conn
  item hst hid := by rw [hi] at hid; exact h.item hst hid

/-- Connection `id` goes on. -/
theorem insert (h : Handshakes X C) (hc : C.lookup id = some c) (hc' : HandshakeOK c')
    (hclear : c.Cleared → c.pc ≠ .before .handshake → c'.Cleared ∧ c'.pc ≠ .before .handshake) :
    Handshakes X (C.insert id c') where
  conn hx := by
    rcases Table.lookup_insert_cases hx with ⟨-, rfl⟩ | ⟨-, hx⟩
    · exact hc'
    · exact h.conn hx
  item {st k} hst hk := by
    obtain ⟨x, hx, hclr, hne⟩ := h.item hst hk
    rw [Table.lookup_insert]
    split
    next he =>
      subst he
      rw [hc] at hx; cases hx
      obtain ⟨hclr, hne⟩ := hclear hclr hne
      exact ⟨c', rfl, hclr, hne⟩
    · exact ⟨x, hx, hclr, hne⟩

theorem adapt (h : Handshakes X C) (hn : C.lookup id = none) (hc' : HandshakeOK c') :
    Handshakes X (C.insert id c') where
  conn hx := by
    rcases Table.lookup_insert_cases hx with ⟨-, rfl⟩ | ⟨-, hx⟩
    · exact hc'
    · exact h.conn hx
  item {st k} hst hk := by
    obtain ⟨x, hx, hclr, hne⟩ := h.item hst hk
    have hk : k ≠ id := fun he => by rw [he, hn] at hx; cases hx
    exact ⟨x, by rw [Table.lookup_insert, if_neg hk]; exact hx, hclr, hne⟩

/-- A protocol is triggered for connection `id`. -/
theorem request {st : Stage} (h : Handshakes X C) (hc : C.lookup id = some c) (hc' : HandshakeOK c')
    (hclear : c.Cleared → c.pc ≠ .before .handshake → c'.Cleared ∧ c'.pc ≠ .before .handshake)
    (hst : st ≠ .handshake → c'.Cleared ∧ c'.pc ≠ .before .handshake) :
    Handshakes (Function.update X st ((X st).request id)) (C.insert id c') where
  conn := (h.insert hc hc' hclear).conn
  item {st' k} hst' hk := by
    by_cases he : st' = st
    · subst he
      rw [Function.update_self] at hk
      rcases List.mem_append.mp hk with hk | hk
      · exact (h.insert hc hc' hclear).item hst' hk
      · rw [List.mem_singleton.mp hk]
        exact ⟨c', Finmap.lookup_insert _, hst hst'⟩
    · rw [Function.update_of_ne he] at hk
      exact (h.insert hc hc' hclear).item hst' hk

theorem loop {st : Stage} {l : HandlerLoop.State} (h : Handshakes X C) :
    Handshakes (Function.update X st { X st with loop := l }) C := by
  refine h.handlers fun st' => ?_
  by_cases he : st' = st
  · subst he; rw [Function.update_self]
  · rw [Function.update_of_ne he]

/-- Connection `id` is moved by what has it. -/
theorem move (h : Handshakes X C) (hc : C.lookup id = some c) (hpc : c'.pc = c.pc) (hh : c'.handshake = c.handshake)
    (hr : c'.place ≠ .reply) (hw : c'.place.awaits = none) : Handshakes X (C.insert id c') :=
  h.insert hc ((h.conn hc).move hpc hh hr hw) fun hclr hne => ⟨by rw [Conn.Cleared, hh]; exact hclr, hpc ▸ hne⟩

end Handshakes

theorem React.handshakes {x : Hooks.Act} (hr : React s x s') (hk : KnownOK s) (h : Handshakes s.handlers s.conns) :
    Handshakes s'.handlers s'.conns := by
  cases hr with
  | adapt =>
    refine h.adapt hk.fresh ⟨fun hp => ?_, fun q hp => ?_, fun st q k hp => ?_⟩ <;> cases hp
  | refuse _ _ hc | insert _ _ hc | remove _ _ hc | notifyDrain _ _ hc =>
    refine h.move hc ?_ ?_ ?_ ?_ <;> first | rfl | simp
  | publish =>
    refine h.handlers fun st => ?_
    simp only [State.wire]
    split
    · split <;> rfl
    · rfl
  | signalHandlers => exact h.handlers fun _ => rfl
  | wired | deny | user | snapshot | toggleGone | toggleRefused | plain => exact h

theorem DriverR.handshakes {id : Nat} {c : Conn} {x : DriverAct} (hs : DriverR cfg abortable s id c x s')
    (hc : s.conns.lookup id = some c) (h : Handshakes s.handlers s.conns) : Handshakes s'.handlers s'.conns := by
  have hid := h.conn hc
  -- the driver is over, and the connection where it was or dropped
  have fail : ∀ {c' : Conn}, c'.pc = .over → c'.handshake = c.handshake → c'.place = c.place ∨ c'.place = .dropped →
      Handshakes s.handlers (s.conns.insert id c') := by
    intro c' hpc hh hp
    refine h.insert hc (hid.fail hpc fun st q k hw => ?_) fun hclr _ =>
      ⟨by rw [Conn.Cleared, hh]; exact hclr, by simp [hpc]⟩
    rcases hp with hp | hp
    · exact hp
    · rw [hp] at hw; cases hw
  cases hs with
  | @lookup st h' hpc ht =>
    have hclear : st ≠ .handshake → c.Cleared := fun hst => hid.past (by simp [hpc, DriverPc.past, hst])
    refine h.request hc ⟨fun hp => ?_, fun q hp => ?_, fun st' q k hp => ?_⟩ (fun hclr hne => ⟨?_, ?_⟩)
      fun hst => ⟨?_, ?_⟩
    · have hst : st ≠ .handshake := by simpa [DriverPc.past] using hp
      rw [Conn.Cleared, if_neg hst]; exact hclear hst
    · cases hp
    · cases hp
    · have hst : st ≠ .handshake := fun he => hne (he ▸ hpc)
      rw [Conn.Cleared, if_neg hst]; exact hclr
    · simp
    · rw [Conn.Cleared, if_neg hst]; exact hclear hst
    · simp
  | @skip st hpc ht =>
    have hclear : Conn.Cleared
        { c with pc := st.next, handshake := if st = .handshake then .skipped else c.handshake } := by
      by_cases hst : st = .handshake
      · exact .inl (if_pos hst)
      · rw [Conn.Cleared, if_neg hst]
        exact hid.past (by simp [hpc, DriverPc.past, hst])
    refine h.insert hc ⟨fun _ => hclear, fun q _ _ => hclear, fun st' q k hp => hid.awaiting st' q k hp⟩
      fun _ _ => ⟨hclear, st.next_ne⟩
  | @respond st q hpc hp =>
    have hclear : c.Cleared := by
      by_cases hst : st = .handshake
      · exact hid.reply q hp (hst ▸ hpc)
      · refine hid.past ?_
        rcases DriverPc.request_cases hpc with he | he <;> simp [he, DriverPc.past, hst]
    refine h.insert hc ⟨fun _ => hclear, fun q _ _ => hclear, fun st' q k hp => ?_⟩ fun _ _ => ⟨hclear, st.next_ne⟩
    cases hp
  | sendFailed =>
    refine Handshakes.move h.loop hc ?_ ?_ ?_ ?_ <;> first | rfl | simp
  | failed | noResponse | graceExpired | cancelWaiting => exact fail rfl rfl (.inl rfl)
  | @closing st q r hpc =>
    refine h.insert hc ⟨fun hp => hid.past ?_, fun q hp hr => hid.reply q hp ?_, hid.awaiting⟩
      fun hclr _ => ⟨hclr, by simp⟩
    · rw [hpc]; exact hp
    · rw [hpc]; exact hr
  | cancelSending => exact Handshakes.loop (fail rfl rfl (.inr rfl))
  | cancelReply => exact fail rfl rfl (.inr rfl)
  | ready => exact h

theorem SetupR.handshakes {id : Nat} {c : Conn} {st : Stage} {q : Nat} {pc : SetupTaskPc} {x : SetupAct}
    (hs : SetupR s id c st q pc x s') (hc : s.conns.lookup id = some c) (hp : c.place = .setup st q pc)
    (h : Handshakes s.handlers s.conns) : Handshakes s'.handlers s'.conns := by
  have hid := h.conn hc
  -- the setup task of Reading or Writing gives the connection back
  have giveBack : ∀ {place : Place} {T : List Handle}, st ≠ .handshake →
      place = .reply ∧ c.pc.request = some (st, q) ∨ place = .dropped →
      Handshakes s.handlers (s.conns.insert id { c with tasks := T, place := place }) := by
    intro place T hst hplace
    refine h.insert hc ⟨hid.past, fun q' hp hr => ?_, fun st' q' k hp => ?_⟩ fun hclr hne => ⟨hclr, hne⟩
    · rcases hplace with ⟨-, hreq⟩ | hd
      · rw [show c.pc.request = some (.handshake, q') from hr] at hreq; cases hreq
        exact absurd rfl hst
      · cases hd.symm.trans hp
    · rcases hplace with ⟨hd, -⟩ | hd <;> cases hd.symm.trans hp
  cases hs with
  | shake => refine h.move hc ?_ ?_ ?_ ?_ <;> first | rfl | simp
  | panic | fail => refine Handshakes.move h.loop hc ?_ ?_ ?_ ?_ <;> first | rfl | simp
  | shaken =>
    rw [State.giveBack_handlers]
    obtain ⟨place, hplace, he⟩ := State.giveBack_conns _ id { c with handshake := .succeeded } st q
    rw [he]
    refine Handshakes.insert h.loop hc ⟨fun _ => .inr rfl, fun _ _ _ => .inr rfl, fun st' q' k hp => ?_⟩
      fun _ hne => ⟨.inr rfl, hne⟩
    rcases hplace with ⟨hd, -⟩ | hd <;> cases hd.symm.trans hp
  | spawn hk hst =>
    refine h.insert hc ⟨hid.past, fun q hp => ?_, fun st' q' k hp => ?_⟩ fun hclr hne => ⟨hclr, hne⟩
    · cases hp
    · cases hp; exact hst
  | @spawnReader k =>
    refine h.insert hc ⟨hid.past, fun q hp => ?_, fun st' q' k' hp' => ?_⟩ fun hclr hne => ⟨hclr, hne⟩
    · cases hp
    · cases hp'; exact hid.awaiting st q k hp
  | @returnReading k | @returnWriting k =>
    rw [State.giveBack_handlers]
    obtain ⟨place, hplace, he⟩ := State.giveBack_conns _ id { c with tasks := c.tasks ++ [k] } st q
    rw [he]
    exact Handshakes.loop (giveBack (hid.awaiting st q k hp) hplace)

theorem StepR.handshakes (hs : StepR cfg abortable s a s') (hP : PlacesOK s) (h : Handshakes s.handlers s.conns) :
    Handshakes s'.handlers s'.conns := by
  cases hs with
  | base hb hf => exact (react_cases hP.drivers hb hf).handshakes hP.known h
  | loop | dropLoop | panicLoop => exact h.loop
  | receive _ _ _ _ hc | release _ _ _ _ _ hc | dropItem _ _ _ _ hc =>
    refine Handshakes.move h.loop hc ?_ ?_ ?_ ?_ <;> first | rfl | simp
  | driver hc hd => exact hd.handshakes hc h
  | setup hc hp hd => exact hd.handshakes hc hp h
  | task ht hd => cases hd <;> exact h
  | hookPanic | hookGuard => exact h

theorem handshakes_reachable (h : (protocols cfg abortable).Reachable s) : Handshakes s.handlers s.conns := by
  refine h.invariant (P := fun s => Handshakes s.handlers s.conns) ?_ fun hr ih _ hs =>
    (step_sound hs).handshakes (placesOK_reachable hr) ih
  refine ⟨fun hc => ?_, fun _ hid => ?_⟩
  · cases hc
  · cases hid

/-! ## What the tasks do -/

theorem State.giveBack_log (s : State) (id : Nat) (c : Conn) (st : Stage) (q : Nat) :
    (s.giveBack id c st q).log = s.log := by
  rcases s.giveBack_cases id c st q with ⟨-, h⟩ | h <;> rw [h] <;> rfl

/-- What a task does is its own act, and is seen as such. -/
inductive Sees (t : Task) : Event → Prop
  | read (hk : t.kind = .reader) (hpc : t.pc = .running) : Sees t .read
  | decoded (hk : t.kind = .reader) (hpc : t.pc = .running) : Sees t .decoded
  | processed (hk : t.kind = .processing) (hq : 0 < t.queue) : Sees t .processed
  | wrote : Sees t .wrote

theorem React.log {x : Hooks.Act} (hr : React s x s') : s'.log = s.log := by
  cases hr <;> rfl

theorem StepR.log_from (hs : StepR cfg abortable s a s') (hD : DriversOK s) {id : Nat} {e : Event}
    (h : (id, e) ∈ s'.log) :
    (id, e) ∈ s.log ∨ ∃ (k : Handle) (t : Task), s.tasks[k]? = some t ∧ t.id = id ∧ Sees t e := by
  have new : ∀ {k : Handle} {t : Task} {e' : Event}, s.tasks[k]? = some t → Sees t e' →
      (id, e) ∈ s.log ++ [(t.id, e')] →
      (id, e) ∈ s.log ∨ ∃ (k : Handle) (t : Task), s.tasks[k]? = some t ∧ t.id = id ∧ Sees t e := by
    intro k t e' ht hsees hmem
    rcases List.mem_append.mp hmem with hmem | hmem
    · exact .inl hmem
    · cases List.mem_singleton.mp hmem
      exact .inr ⟨k, t, ht, rfl, hsees⟩
  cases hs with
  | base hb hf =>
    rw [show _ = s.log from (react_cases hD hb hf).log] at h
    exact .inl h
  | driver hc hd => cases hd <;> exact .inl h
  | setup hc hp hd =>
    cases hd with
    | shaken | returnReading | returnWriting => rw [State.giveBack_log] at h; exact .inl h
    | _ => exact .inl h
  | task ht hd =>
    cases hd with
    | read hk hpc => exact new ht (.read hk hpc) h
    | decode hk hpc => exact new ht (.decoded hk hpc) h
    | process hk _ hq => exact new ht (.processed hk hq) h
    | write => exact new ht .wrote h
    | _ => exact .inl h
  | loop | receive | release | dropLoop | panicLoop | dropItem | hookPanic | hookGuard => exact .inl h

/-- A task that sees something of what came in is of a connection that has
been in `active`. -/
theorem TaskOK.sees {E : Nat → Prop} {k : Handle} {t : Task} {c : Conn} {e : Event} (ok : TaskOK E k t c)
    (h : Sees t e) (he : e ≠ .wrote) : E t.id := by
  cases h with
  | read hk hpc | decoded hk hpc => exact ok.reader hk (ok.running hk hpc)
  | processed hk hq => exact ok.processing hk hq
  | wrote => exact absurd rfl he

theorem seen_reachable (h : (protocols cfg abortable).Reachable s) :
    ∀ id e, (id, e) ∈ s.log → e ≠ .wrote → Entered s id := by
  refine h.invariant (P := fun s => ∀ id e, (id, e) ∈ s.log → e ≠ .wrote → Entered s id)
    (fun id e hmem => by cases hmem) fun {s s' a} hr ih _ hs id e hmem he => ?_
  have hstep := step_sound hs
  refine hstep.entered_kept ?_
  rcases hstep.log_from (placesOK_reachable hr).drivers hmem with hold | ⟨k, t, ht, rfl, hsees⟩
  · exact ih id e hold he
  · obtain ⟨c, -, ok⟩ := (tasksOK_reachable hr).task ht
    exact ok.sees hsees he

/-- Nothing of a connection is seen before it has been in `active`. -/
structure Gated (s : State) : Prop where
  /-- What is read, decoded (and counted) or processed. -/
  seen : ∀ {id : Nat} {e : Event}, (id, e) ∈ s.log → e ≠ .wrote → Entered s id
  /-- The OnConnect and OnDisconnect hooks. -/
  hooks : ∀ y ∈ s.base.hooks, ∃ t, (s.base.get y.side).triggers[y.trigger]? = some t ∧ Entered s t.id
  /-- The connections that Reading or Writing were triggered for. -/
  setups : ∀ {st : Stage} {id : Nat}, st ≠ .handshake → id ∈ (s.handlers st).items →
    ∃ c, s.conns.lookup id = some c ∧ c.Cleared

theorem nothing_before_entry (cfg : NodeConfig) (abortable : Bool) (s : State)
    (h : (protocols cfg abortable).Reachable s) : Gated s where
  seen {id e} := seen_reachable h id e
  hooks y hy := by
    obtain ⟨w, hw⟩ := List.getElem?_of_mem hy
    obtain ⟨t, ht, -⟩ := (Hooks.handlersOK_reachable (hooks_reachable h) y.side).back w y hw rfl
    exact ⟨t, ht, Hooks.trigger_entered (hooks_reachable h) (List.mem_of_getElem? ht)⟩
  setups hst hid := by
    obtain ⟨c, hc, hclr, -⟩ := (handshakes_reachable h).item hst hid
    exact ⟨c, hc, hclr⟩

/-- A connection with a handshake, Reading and OnConnect, up to its first
message and its hook. -/
def firstMessage : List Act := List.flatten
  [enableSetupRun .handshake 0, enableSetupRun .reading 1, enableRun .onConnect 2, connectRun peer 0,
    [.driver 0 .lookup], setupRun .handshake 0, [.setup 0 .shake, .setup 0 .shaken, .driver 0 .respond],
    [.driver 0 .lookup], setupRun .reading 0,
    [.setup 0 .spawnProcessing, .task 0 .start, .setup 0 .spawnReader, .task 1 .start, .setup 0 .returnReading,
      .driver 0 .respond, .driver 0 .lookup],
    [.wired 0, .lockActive 0, .checkFlag 0, .insert 0 [], .dropGuard 0].map fun x => .base (.base (.base x)),
    [.driver 0 .ready, .task 1 .connReady, .task 1 .read, .task 1 .decode, .task 0 .process,
      .base (.base (.base (.schedule 0))), .base (.trigger .connect 0)],
    [.acquire 0, .write 0, .subscribe, .pollRecv].map fun x => .base (.loop .connect x)]

theorem nothing_before_entry_firstMessage : ∃ s, (protocols threeSlots true).Reachable s ∧
    s.log = [(0, .read), (0, .decoded), (0, .processed)] ∧ s.base.hooks = [⟨.connect, 0, .running⟩] ∧
    (s.handlers .reading).items = [0] ∧ Gated s := by
  obtain ⟨s, hs, hp⟩ := (protocols threeSlots true).exists_reachable firstMessage
    (fun s => s.log = [(0, .read), (0, .decoded), (0, .processed)] ∧ s.base.hooks = [⟨.connect, 0, .running⟩] ∧
      (s.handlers .reading).items = [0]) (by decide +kernel)
  obtain ⟨hlog, hhooks, hitems⟩ := of_decide_eq_true hp
  exact ⟨s, hs, hlog, hhooks, hitems, nothing_before_entry threeSlots true s hs⟩

end Pea2Pea.Protocols
