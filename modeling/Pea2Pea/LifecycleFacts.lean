/-
The lifecycle's steps as a relation (`StepR`, sound for `step`): each
constructor is one thing a step can do, with what enabled it, so that the
invariants are proved by cases on it and never unfold `step`.
-/
import Pea2Pea.Lifecycle
import Pea2Pea.Lib.Pool

namespace Pea2Pea

open Pool

inductive StepR (cfg : NodeConfig) (s : State) : Act → State → Prop
  | connect {addr} : StepR cfg s (.connect addr) { s with setups := s.setups ++ [⟨.initiator, addr, .called⟩] }
  | accept {addr} (hp : 0 < s.permits) : StepR cfg s (.accept addr)
      { s with permits := s.permits - 1, setups := s.setups ++ [⟨.responder, addr, .accepted⟩] }
  | startCalled {i t} (ht : s.setups[i]? = some t) (hpc : t.pc = .called) :
      StepR cfg s (.start i) (s.goto i t (if s.flag then .done none else .resolving))
  | startAccepted {i t} (ht : s.setups[i]? = some t) (hpc : t.pc = .accepted) :
      StepR cfg s (.start i) (s.goto i t (if s.flag then .finishing none else .permitted))
  | reject {i t} (ht : s.setups[i]? = some t) (hpc : t.pc = .called ∨ t.pc = .resolving) :
      StepR cfg s (.reject i) (s.goto i t (.done none))
  | checkConnected {i t} (ht : s.setups[i]? = some t) (hpc : t.pc = .resolving) (hl : s.addLock = none) :
      StepR cfg s (.checkConnected i) (s.goto i t (if t.addr ∈ s.active.keys then .done none else .unconnected))
  | acquire {i t} (ht : s.setups[i]? = some t) (hpc : t.pc = .unconnected) (hp : 0 < s.permits) :
      StepR cfg s (.acquire i) { s.goto i t .permitted with permits := s.permits - 1 }
  | noBudget {i t} (ht : s.setups[i]? = some t) (hpc : t.pc = .unconnected) (hp : s.permits = 0) :
      StepR cfg s (.acquire i) (s.goto i t (.done none))
  | reserveOk {i t l} (ht : s.setups[i]? = some t) (hpc : t.pc = .permitted) (hl : s.addLock = none)
      (hr : checkAndReserve cfg.toConfig s.active s.limits t.addr = .ok l) :
      StepR cfg s (.reserve i) { s.goto i t .dialing with limits := l }
  | reserveErr {i t e} (ht : s.setups[i]? = some t) (hpc : t.pc = .permitted) (hl : s.addLock = none)
      (hr : checkAndReserve cfg.toConfig s.active s.limits t.addr = .error e) :
      StepR cfg s (.reserve i) (s.goto i t (.finishing none))
  | adapt {i t} (ht : s.setups[i]? = some t) (hpc : t.pc = .dialing) :
      StepR cfg s (.adapt i) { s.goto i t (.protocols s.nextId) with nextId := s.nextId + 1 }
  | failDialing {i t} (ht : s.setups[i]? = some t) (hpc : t.pc = .dialing) :
      StepR cfg s (.fail i) (s.goto i t .unwinding)
  | failProtocols {i t id} (ht : s.setups[i]? = some t) (hpc : t.pc = .protocols id) :
      StepR cfg s (.fail i) (s.goto i t .unwinding)
  | wired {i t id} (ht : s.setups[i]? = some t) (hpc : t.pc = .protocols id) :
      StepR cfg s (.wired i) { s.goto i t (.ready id s.onConnect) with
        schedInFlight := if s.onConnect then s.schedInFlight + 1 else s.schedInFlight }
  | lockActive {i t id sched} (ht : s.setups[i]? = some t) (hpc : t.pc = .ready id sched)
      (hl : s.addLock = none) :
      StepR cfg s (.lockActive i) { s.goto i t (.adding id sched s.flag) with addLock := some i }
  | checkRefused {i t id sched begun} (ht : s.setups[i]? = some t) (hpc : t.pc = .adding id sched begun)
      (hf : s.flag = true) : StepR cfg s (.checkFlag i) { s.goto i t (.refused id sched) with addLock := none }
  | checkAdmitted {i t id sched begun} (ht : s.setups[i]? = some t) (hpc : t.pc = .adding id sched begun)
      (hf : s.flag = false) : StepR cfg s (.checkFlag i) (s.goto i t (.admitted id sched begun))
  | insert {i t id sched begun tasks} (ht : s.setups[i]? = some t) (hpc : t.pc = .admitted id sched begun) :
      StepR cfg s (.insert i tasks) { s.goto i t (.inserted id sched) with
        active := s.active.insert t.addr ⟨id, t.addr, false, tasks⟩, addLock := none }
  | dropRefused {i t id sched} (ht : s.setups[i]? = some t) (hpc : t.pc = .refused id sched) :
      StepR cfg s (.dropGuard i)
        ((s.dropGuard t.addr false).goto i t (if sched then .abandoning else .finishing none))
  | dropUnwinding {i t} (ht : s.setups[i]? = some t) (hpc : t.pc = .unwinding) :
      StepR cfg s (.dropGuard i) ((s.dropGuard t.addr false).goto i t (.finishing none))
  | dropInserted {i t id sched} (ht : s.setups[i]? = some t) (hpc : t.pc = .inserted id sched) :
      StepR cfg s (.dropGuard i) ((s.dropGuard t.addr true).goto i t (.established id sched))
  | dropSched {i t} (ht : s.setups[i]? = some t) (hpc : t.pc = .abandoning) :
      StepR cfg s (.dropSched i) { s.goto i t (if s.schedInFlight = 1 then .notifying else .finishing none) with
        schedInFlight := s.schedInFlight - 1 }
  | notifySched {i t} (ht : s.setups[i]? = some t) (hpc : t.pc = .notifying) :
      StepR cfg s (.notifySched i) (s.goto i t (.finishing none))
  | scheduleSome {i t id} (ht : s.setups[i]? = some t) (hpc : t.pc = .established id true) :
      StepR cfg s (.schedule i) { s.goto i t (.awaiting id s.scheds.length) with
        scheds := s.scheds ++ [⟨t.addr, id, .running⟩] }
  | scheduleNone {i t id} (ht : s.setups[i]? = some t) (hpc : t.pc = .established id false) :
      StepR cfg s (.schedule i) (s.goto i t (.finishing (some id)))
  | finish {i t entered} (ht : s.setups[i]? = some t) (hpc : t.pc = .finishing entered) :
      StepR cfg s (.finish i) { s.goto i t (.done entered) with permits := s.permits + 1 }
  | finishAwaiting {i t id k} (ht : s.setups[i]? = some t) (hpc : t.pc = .awaiting id k) :
      StepR cfg s (.finish i) { s.goto i t (.done (some id)) with permits := s.permits + 1 }
  | attach {k t handle} (ht : s.scheds[k]? = some t) (hpc : t.pc = .running) (hl : s.addLock = none) :
      StepR cfg s (.attach k handle) { s with active := (attachHandle s.active t.addr t.id handle).1 }
  | schedDone {k t} (ht : s.scheds[k]? = some t) (hpc : t.pc = .running) :
      StepR cfg s (.schedDone k) { s.schedGoto k t (if s.schedInFlight = 1 then .notifying else .done) with
        schedInFlight := s.schedInFlight - 1 }
  | schedNotify {k t} (ht : s.scheds[k]? = some t) (hpc : t.pc = .notifying) :
      StepR cfg s (.schedNotify k) (s.schedGoto k t .done)
  | disconnect {addr origin connId} : StepR cfg s (.disconnect addr origin connId)
      { s with discs := s.discs ++ [⟨addr, origin, connId, .called⟩] }
  | recover {addr origin connId} (hl : s.addLock = none) (hn : needsRecovery s.active addr connId = true) :
      StepR cfg s (.disconnectOnDrop addr origin connId)
        { s with discs := s.discs ++ [⟨addr, origin, some connId, .called⟩] }
  | noRecovery {addr origin connId} (hl : s.addLock = none) (hn : needsRecovery s.active addr connId = false) :
      StepR cfg s (.disconnectOnDrop addr origin connId) s
  | claim {j d active id} (hd : s.discs[j]? = some d) (hpc : d.pc = .called) (hl : s.addLock = none)
      (hc : claimDisconnect s.active d.addr d.connId = some (active, id)) :
      StepR cfg s (.claim j) { s.discGoto j d (.claimed id) with active := active }
  | claimNone {j d} (hd : s.discs[j]? = some d) (hpc : d.pc = .called) (hl : s.addLock = none)
      (hc : claimDisconnect s.active d.addr d.connId = none) :
      StepR cfg s (.claim j) (s.discGoto j d (.done none none))
  | cancel {j d} (hd : s.discs[j]? = some d) (hpc : d.pc = .called) :
      StepR cfg s (.cancel j) (s.discGoto j d (.done none none))
  | register {j d id handle} (hd : s.discs[j]? = some d) (hpc : d.pc = .claimed id) (hl : s.addLock = none) :
      StepR cfg s (.register j handle) { s with
        active := (registerHandle s.active d.addr handle).1
        failures := s.failures ++ (registerHandle s.active d.addr handle).2 }
  | finalize {j d id} (hd : s.discs[j]? = some d) (hpc : d.pc = .claimed id) :
      StepR cfg s (.finalize j) (s.discGoto j d (.dropping id))
  | remove {j d id conn} (hd : s.discs[j]? = some d) (hpc : d.pc = .dropping id) (hl : s.addLock = none)
      (hc : s.active.lookup d.addr = some conn) :
      StepR cfg s (.remove j) ((s.removeConn d.addr).discGoto j d (.removed id conn.id))
  | removeNone {j d id} (hd : s.discs[j]? = some d) (hpc : d.pc = .dropping id) (hl : s.addLock = none)
      (hc : s.active.lookup d.addr = none) :
      StepR cfg s (.remove j) ((s.removeConn d.addr).discGoto j d (.done (some id) none))
  | notifyDrain {j d id got} (hd : s.discs[j]? = some d) (hpc : d.pc = .removed id got) :
      StepR cfg s (.notifyDrain j) (s.discGoto j d (.done (some id) (some got)))
  | beginShutdown : StepR cfg s .beginShutdown { s with flag := true }
  | enableOnConnect : StepR cfg s .enableOnConnect { s with onConnect := true }
  | takeId : StepR cfg s .takeId { s with nextId := s.nextId + 1 }

theorem step_sound {cfg : NodeConfig} {s s' : State} {a : Act} (h : step cfg s a = some s') :
    StepR cfg s a s' := by
  cases a <;> simp only [step, Option.bind_eq_bind, Option.bind_eq_some_iff, Option.some.injEq] at h
  case connect => exact h ▸ .connect
  case disconnect => exact h ▸ .disconnect
  case beginShutdown => exact h ▸ .beginShutdown
  case enableOnConnect => exact h ▸ .enableOnConnect
  case takeId => exact h ▸ .takeId
  case accept =>
    split at h
    · cases h; exact .accept ‹_›
    · cases h
  case disconnectOnDrop =>
    split at h
    next hl =>
      split at h
      · cases h; exact .recover hl ‹_›
      next hn => cases h; exact .noRecovery hl (by simpa using hn)
    · cases h
  all_goals obtain ⟨t, ht, h⟩ := h
  case start =>
    split at h
    next hpc => cases h; exact .startCalled ht hpc
    next hpc => cases h; exact .startAccepted ht hpc
    · cases h
  case reject =>
    split at h
    next hpc => cases h; exact .reject ht (.inl hpc)
    next hpc => cases h; exact .reject ht (.inr hpc)
    · cases h
  case checkConnected =>
    split at h
    next hpc =>
      split at h
      next hl => cases h; exact .checkConnected ht hpc hl
      · cases h
    · cases h
  case acquire =>
    split at h
    next hpc =>
      split at h
      next hp => cases h; exact .acquire ht hpc hp
      next hp => cases h; exact .noBudget ht hpc (by omega)
    · cases h
  case reserve =>
    split at h
    next hpc =>
      split at h
      next hl =>
        split at h
        next hr => cases h; exact .reserveOk ht hpc hl hr
        next hr => cases h; exact .reserveErr ht hpc hl hr
      · cases h
    · cases h
  case adapt =>
    split at h
    next hpc => cases h; exact .adapt ht hpc
    · cases h
  case fail =>
    split at h
    next hpc =>
      split at h
      · cases h; exact .failDialing ht hpc
      · cases h
    next hpc => cases h; exact .failProtocols ht hpc
    · cases h
  case wired =>
    split at h
    next hpc => cases h; exact .wired ht hpc
    · cases h
  case lockActive =>
    split at h
    next hpc =>
      split at h
      next hl => cases h; exact .lockActive ht hpc hl
      · cases h
    · cases h
  case checkFlag =>
    split at h
    next hpc =>
      split at h
      next hf => cases h; exact .checkRefused ht hpc hf
      next hf => cases h; exact .checkAdmitted ht hpc (by simpa using hf)
    · cases h
  case insert =>
    split at h
    next hpc => cases h; exact .insert ht hpc
    · cases h
  case dropGuard =>
    split at h
    next hpc => cases h; exact .dropRefused ht hpc
    next hpc => cases h; exact .dropUnwinding ht hpc
    next hpc => cases h; exact .dropInserted ht hpc
    · cases h
  case dropSched =>
    split at h
    next hpc => cases h; exact .dropSched ht hpc
    · cases h
  case notifySched =>
    split at h
    next hpc => cases h; exact .notifySched ht hpc
    · cases h
  case schedule =>
    split at h
    next hpc => cases h; exact .scheduleSome ht hpc
    next hpc => cases h; exact .scheduleNone ht hpc
    · cases h
  case finish =>
    split at h
    next hpc => cases h; exact .finish ht hpc
    next hpc =>
      split at h
      · cases h; exact .finishAwaiting ht hpc
      · cases h
    · cases h
  case attach =>
    split at h
    next hpc =>
      split at h
      next hl => cases h; exact .attach ht hpc hl
      · cases h
    · cases h
  case schedDone =>
    split at h
    next hpc => cases h; exact .schedDone ht hpc
    · cases h
  case schedNotify =>
    split at h
    next hpc => cases h; exact .schedNotify ht hpc
    · cases h
  case claim =>
    split at h
    next hpc =>
      split at h
      next hl =>
        split at h
        next hc => cases h; exact .claim ht hpc hl hc
        next hc => cases h; exact .claimNone ht hpc hl hc
      · cases h
    · cases h
  case cancel =>
    split at h
    next hpc => cases h; exact .cancel ht hpc
    · cases h
  case register =>
    split at h
    next hpc =>
      split at h
      next hl => cases h; exact .register ht hpc hl
      · cases h
    · cases h
  case finalize =>
    split at h
    next hpc => cases h; exact .finalize ht hpc
    · cases h
  case remove =>
    split at h
    next hpc =>
      split at h
      next hl =>
        split at h
        next hc => cases h; exact .remove ht hpc hl hc
        next hc => cases h; exact .removeNone ht hpc hl hc
      · cases h
    · cases h
  case notifyDrain =>
    split at h
    next hpc => cases h; exact .notifyDrain ht hpc
    · cases h

/-! ## Moves -/

/-- How disconnect `j` moves, and by which act. -/
inductive DiscMove (j : Nat) : DiscPc → Act → DiscPc → Prop
  | claim {id} : DiscMove j .called (.claim j) (.claimed id)
  | claimNone : DiscMove j .called (.claim j) (.done none none)
  | cancel : DiscMove j .called (.cancel j) (.done none none)
  | finalize {id} : DiscMove j (.claimed id) (.finalize j) (.dropping id)
  | remove {id got} : DiscMove j (.dropping id) (.remove j) (.removed id got)
  | removeNone {id} : DiscMove j (.dropping id) (.remove j) (.done (some id) none)
  | notify {id got} : DiscMove j (.removed id got) (.notifyDrain j) (.done (some id) (some got))

/-- A disconnect keeps its place, and moves by its own acts only. -/
theorem StepR.disc_move {cfg : NodeConfig} {s s' : State} {a : Act} (hs : StepR cfg s a s') {j : Nat} {d : Disc}
    (hd : s.discs[j]? = some d) :
    ∃ p, s'.discs[j]? = some { d with pc := p } ∧ (p = d.pc ∨ DiscMove j d.pc a p) := by
  have move : ∀ {k e p}, s.discs[k]? = some e → (k = j → DiscMove j e.pc a p) →
      ∃ q, (s.discs.set k { e with pc := p })[j]? = some { d with pc := q } ∧ (q = d.pc ∨ DiscMove j d.pc a q) := by
    intro k e p he hm
    by_cases hkj : k = j
    · subst hkj
      rw [hd] at he; cases he
      exact ⟨p, by rw [getElem?_set hd, if_pos rfl], .inr (hm rfl)⟩
    · exact ⟨d.pc, by rw [getElem?_set he, if_neg hkj, hd], .inl rfl⟩
  have stay : ∃ q, s.discs[j]? = some { d with pc := q } ∧ (q = d.pc ∨ DiscMove j d.pc a q) := ⟨d.pc, hd, .inl rfl⟩
  cases hs with
  | disconnect => exact ⟨d.pc, getElem?_append_of_some hd _, .inl rfl⟩
  | recover => exact ⟨d.pc, getElem?_append_of_some hd _, .inl rfl⟩
  | claim he hpc => exact move he fun hkj => by rw [hpc, hkj]; exact .claim
  | claimNone he hpc => exact move he fun hkj => by rw [hpc, hkj]; exact .claimNone
  | cancel he hpc => exact move he fun hkj => by rw [hpc, hkj]; exact .cancel
  | finalize he hpc => exact move he fun hkj => by rw [hpc, hkj]; exact .finalize
  | remove he hpc => exact move he fun hkj => by rw [hpc, hkj]; exact .remove
  | removeNone he hpc => exact move he fun hkj => by rw [hpc, hkj]; exact .removeNone
  | notifyDrain he hpc => exact move he fun hkj => by rw [hpc, hkj]; exact .notify
  | _ => exact stay

/-- What a finalizer's removal finds. -/
theorem StepR.remove_cases {cfg : NodeConfig} {s s' : State} {j : Nat} (hs : StepR cfg s (.remove j) s') :
    ∃ d id, s.discs[j]? = some d ∧ d.pc = .dropping id ∧
      ((∃ conn, s.active.lookup d.addr = some conn ∧ s'.discs[j]? = some { d with pc := .removed id conn.id }) ∨
        s.active.lookup d.addr = none ∧ s'.discs[j]? = some { d with pc := .done (some id) none }) := by
  cases hs with
  | @remove _ d id conn hd hpc hl hc =>
    exact ⟨d, id, hd, hpc, .inl ⟨conn, hc, (getElem?_set hd j).trans (if_pos rfl)⟩⟩
  | @removeNone _ d id hd hpc hl hc =>
    exact ⟨d, id, hd, hpc, .inr ⟨hc, (getElem?_set hd j).trans (if_pos rfl)⟩⟩

/-- How scheduling task `k` moves, and by which act. -/
inductive SchedMove (k : Nat) : SchedPc → Act → SchedPc → Prop
  | done {p} : p ≠ .running → SchedMove k .running (.schedDone k) p
  | notify : SchedMove k .notifying (.schedNotify k) .done

theorem StepR.sched_move {cfg : NodeConfig} {s s' : State} {a : Act} (hs : StepR cfg s a s') {k : Nat} {u : Sched}
    (hu : s.scheds[k]? = some u) :
    ∃ p, s'.scheds[k]? = some { u with pc := p } ∧ (p = u.pc ∨ SchedMove k u.pc a p) := by
  have stay : ∃ q, s.scheds[k]? = some { u with pc := q } ∧ (q = u.pc ∨ SchedMove k u.pc a q) := ⟨u.pc, hu, .inl rfl⟩
  have move : ∀ {i v p}, s.scheds[i]? = some v → (i = k → SchedMove k v.pc a p) →
      ∃ q, (s.scheds.set i { v with pc := p })[k]? = some { u with pc := q } ∧ (q = u.pc ∨ SchedMove k u.pc a q) := by
    intro i v p hv hm
    by_cases hik : i = k
    · subst hik
      rw [hu] at hv; cases hv
      exact ⟨p, by rw [getElem?_set hu, if_pos rfl], .inr (hm rfl)⟩
    · exact ⟨u.pc, by rw [getElem?_set hv, if_neg hik, hu], .inl rfl⟩
  cases hs with
  | scheduleSome => exact ⟨u.pc, getElem?_append_of_some hu _, .inl rfl⟩
  | schedDone hv hpc => exact move hv fun hik => by rw [hpc, hik]; exact .done (by split <;> simp)
  | schedNotify hv hpc => exact move hv fun hik => by rw [hpc, hik]; exact .notify
  | _ => exact stay

/-- A new disconnect has not been polled. -/
theorem StepR.disc_new {cfg : NodeConfig} {s s' : State} {a : Act} (hs : StepR cfg s a s') {j : Nat} {d : Disc}
    (hn : s.discs[j]? = none) (hd : s'.discs[j]? = some d) : d.pc = .called := by
  have same : s.discs[j]? ≠ some d := by rw [hn]; simp
  have set : ∀ {k e}, (s.discs.set k e)[j]? ≠ some d := by
    intro k e
    rw [getElem?_set_none hn]
    simp
  have append : ∀ {e : Disc}, e.pc = .called → (s.discs ++ [e])[j]? = some d → d.pc = .called := by
    intro e hpc he
    rcases getElem?_append_cases he with ⟨-, rfl⟩ | he
    · exact hpc
    · exact absurd he same
  cases hs with
  | disconnect => exact append rfl hd
  | recover => exact append rfl hd
  | claim | claimNone | cancel | finalize | remove | removeNone | notifyDrain => exact absurd hd set
  | _ => exact absurd hd same

/-- A new scheduling task runs. -/
theorem StepR.sched_new {cfg : NodeConfig} {s s' : State} {a : Act} (hs : StepR cfg s a s') {k : Nat} {u : Sched}
    (hn : s.scheds[k]? = none) (hu : s'.scheds[k]? = some u) : u.pc = .running := by
  have same : s.scheds[k]? ≠ some u := by rw [hn]; simp
  have set : ∀ {i v}, (s.scheds.set i v)[k]? ≠ some u := by
    intro i v
    rw [getElem?_set_none hn]
    simp
  cases hs with
  | scheduleSome =>
    rcases getElem?_append_cases hu with ⟨-, rfl⟩ | hu
    · rfl
    · exact absurd hu same
  | schedDone | schedNotify => exact absurd hu set
  | _ => exact absurd hu same

/-- What an entry of `active` was before a step, if it is not new: the same
instance, with a claim it had, and no other handles than those it had or
was just given. -/
theorem StepR.entry_origin {cfg : NodeConfig} {s s' : State} {a : Act} (hs : StepR cfg s a s') {addr : SocketAddr}
    {c' : Connection} (hc' : s'.active.lookup addr = some c') :
    (∃ i, a = .insert i c'.tasks) ∨
    ∃ c, s.active.lookup addr = some c ∧ c'.id = c.id ∧ (c.disconnecting = true → c'.disconnecting = true) ∧
      ∀ h ∈ c'.tasks, h ∈ c.tasks ∨ (∃ k, a = .attach k h) ∨
        ∃ (j : Nat) (d : Disc), a = .register j h ∧ s.discs[j]? = some d ∧ d.addr = addr := by
  have same : s.active.lookup addr = some c' → (∃ i, a = .insert i c'.tasks) ∨
      ∃ c, s.active.lookup addr = some c ∧ c'.id = c.id ∧ (c.disconnecting = true → c'.disconnecting = true) ∧
        ∀ h ∈ c'.tasks, h ∈ c.tasks ∨ (∃ k, a = .attach k h) ∨
          ∃ (j : Nat) (d : Disc), a = .register j h ∧ s.discs[j]? = some d ∧ d.addr = addr :=
    fun hc => .inr ⟨c', hc, rfl, id, fun _ h => .inl h⟩
  cases hs with
  | insert ht hpc =>
    rcases Table.lookup_insert_cases hc' with ⟨rfl, rfl⟩ | ⟨-, hc⟩
    · exact .inl ⟨_, rfl⟩
    · exact same hc
  | @attach k t handle _ _ _ =>
    rcases attachHandle_cases s.active t.addr t.id handle with ha | ⟨x, hx, -, ha⟩
    · rw [ha] at hc'; exact same hc'
    · rw [ha] at hc'
      rcases Table.lookup_insert_cases hc' with ⟨rfl, rfl⟩ | ⟨-, hc⟩
      · refine .inr ⟨x, hx, rfl, fun h => h, fun h hh => ?_⟩
        rcases List.mem_append.mp hh with hh | hh
        · exact .inl hh
        · rw [List.mem_singleton.mp hh]
          exact .inr (.inl ⟨k, rfl⟩)
      · exact same hc
  | claim hd hpc hl hcl =>
    obtain ⟨x, hx, -, -, -, rfl⟩ := claimDisconnect_some hcl
    rcases Table.lookup_insert_cases hc' with ⟨rfl, rfl⟩ | ⟨-, hc⟩
    · exact .inr ⟨x, hx, rfl, fun _ => rfl, fun _ h => .inl h⟩
    · exact same hc
  | @register j d id handle hd hpc hl =>
    unfold registerHandle at hc'
    split at hc'
    next x hx =>
      rcases Table.lookup_insert_cases hc' with ⟨rfl, rfl⟩ | ⟨-, hc⟩
      · refine .inr ⟨x, hx, rfl, fun h => h, fun h hh => ?_⟩
        rcases List.mem_append.mp hh with hh | hh
        · exact .inl hh
        · rw [List.mem_singleton.mp hh]
          exact .inr (.inr ⟨j, d, rfl, hd, rfl⟩)
      · exact same hc
    · exact same hc'
  | remove => exact same (Table.lookup_erase_some hc').2
  | removeNone => exact same (Table.lookup_erase_some hc').2
  | _ => exact same hc'

theorem StepR.nextId_le {cfg : NodeConfig} {s s' : State} {a : Act} (hs : StepR cfg s a s') :
    s.nextId ≤ s'.nextId := by
  cases hs with
  | adapt | takeId => exact Nat.le_succ _
  | _ => exact Nat.le_refl _

theorem StepR.onConnect_mono {cfg : NodeConfig} {s s' : State} {a : Act} (hs : StepR cfg s a s')
    (h : s.onConnect = true) : s'.onConnect = true := by
  cases hs <;> first | exact h | rfl

theorem lifecycle_run {cfg : NodeConfig} {s s' : State} {a : Act} (h : step cfg s a = some s') :
    (lifecycle cfg).run s [a] = some s' :=
  Machine.run_single h

end Pea2Pea
