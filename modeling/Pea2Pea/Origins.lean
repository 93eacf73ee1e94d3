/-
The origin of a disconnect is what happened to its connection.

A disconnect is made by `Node::disconnect`, by the fan-out of a `shut_down`,
or by a `DisconnectOnDrop` that is dropped while its own connection is in
`active` and unclaimed. Every task of a connection has such a guard, armed,
and so has an OnConnect hook; it is dropped when the task is aborted as well
as when it ends. But a task is aborted only with its connection, which is
then gone, and an OnConnect hook only once its connection is
(`AbortedHooks`).
-/
import Pea2Pea.AbortedHooks
import Pea2Pea.ConnTasks
import Pea2Pea.Teardown

namespace Pea2Pea

open Pool

/-! ## Calls -/

/-- What a disconnect was called with. -/
def Disc.call (d : Disc) : DisconnectOrigin × Option Nat := (d.origin, d.connId)

/-- The disconnects that a step adds. -/
def newCalls (s : State) : Act → List (DisconnectOrigin × Option Nat)
  | .disconnect _ origin connId => [(origin, connId)]
  | .disconnectOnDrop addr origin id => if needsRecovery s.active addr id then [(origin, some id)] else []
  | _ => []

theorem StepR.disc_calls {cfg : NodeConfig} {s s' : State} {a : Act} (hs : StepR cfg s a s') :
    s'.discs.map Disc.call = s.discs.map Disc.call ++ newCalls s a := by
  have goto : ∀ {j d p}, s.discs[j]? = some d →
      (s.discs.set j { d with pc := p }).map Disc.call = s.discs.map Disc.call ++ [] := by
    intro j d p hd
    rw [List.append_nil]
    exact map_set_same hd rfl
  cases hs with
  | disconnect => simp [newCalls, Disc.call]
  | recover hl hn => simp [newCalls, hn, Disc.call]
  | noRecovery hl hn => simp [newCalls, hn]
  | claim hd | claimNone hd | cancel hd | finalize hd | remove hd | removeNone hd | notifyDrain hd =>
    exact goto hd
  | _ => exact (List.append_nil _).symm

/-- A guard that is dropped makes a disconnect of its own connection, and only
of one that is in `active`. -/
theorem StepR.guard_cases {cfg : NodeConfig} {s s' : State} {addr : SocketAddr} {origin : DisconnectOrigin} {id : Nat}
    (hs : StepR cfg s (.disconnectOnDrop addr origin id) s') :
    (InActive s.active id ∧ s'.discs = s.discs ++ [⟨addr, origin, some id, .called⟩]) ∨ s'.discs = s.discs := by
  cases hs with
  | recover hl hn =>
    obtain ⟨c, hc, hid⟩ := (Option.any_eq_true ..).mp hn
    simp only [Bool.and_eq_true, beq_iff_eq] at hid
    exact .inl ⟨⟨addr, c, hc, hid.1⟩, rfl⟩
  | noRecovery => exact .inr rfl

namespace Shutdown

variable {cfg : NodeConfig} {s s' : State} {a : Act}

def newCalls (s : State) : Act → List (DisconnectOrigin × Option Nat)
  | .base a => Pea2Pea.newCalls s.base a
  | .snapshot _ addrs => addrs.map fun _ => (.shutdown, none)
  | _ => []

theorem StepR.disc_calls (hs : StepR cfg s a s') :
    s'.base.discs.map Disc.call = s.base.discs.map Disc.call ++ newCalls s a := by
  cases hs with
  | base hb => exact (Pea2Pea.step_sound hb).disc_calls
  | snapshot =>
    rw [newCalls, List.map_append, List.map_map]
    rfl
  | publish =>
    simp only [newCalls, List.append_nil]
    split <;> rfl
  | _ => exact (List.append_nil _).symm

/-! ## Fan-outs -/

/-- The disconnect `j` is one of the fan-out of the call `n`. -/
def Fanned (shuts : List Shut) (n j : Nat) : Prop := ∃ u, shuts[n]? = some u ∧ u.has j = true

/-- The call has not come to its fan-out. -/
def ShutPc.unfanned : ShutPc → Bool
  | .called | .begun | .taken => true
  | _ => false

def UnfannedOK (s : State) : Prop := ∀ u ∈ s.shuts, u.pc.unfanned = true → ∀ j, u.has j = false

theorem StepR.unfannedOK (h : UnfannedOK s) (hs : StepR cfg s a s') : UnfannedOK s' := by
  cases hs with
  | base =>
    simp only [UnfannedOK, List.forall_mem_map]
    intro u hu hpc j
    rw [Shut.announce_pc ShutPc.unfanned (fun _ _ => rfl) fun _ _ => rfl] at hpc
    rw [Shut.announce_has]
    exact h u hu hpc j
  | shutDown => exact forall_mem_append h fun _ j => by simp [Shut.has]
  | begin hu hpc | takeTasks hu hpc =>
    have hnone := h _ (List.mem_of_getElem? hu) (by rw [hpc]; rfl)
    exact forall_mem_set h fun _ => hnone
  | snapshot | fannedOut | enableDrain | enableSched | drainEmpty | drainPark | schedEmpty | schedPark | wakeDrain
  | wakeSched | signalHandlers | joined | expire | abortRest | clear | cancelShut =>
    exact forall_mem_set h fun hpc => by cases hpc
  | _ => exact h

theorem unfannedOK_reachable (h : (shutdown cfg).Reachable s) : UnfannedOK s :=
  h.invariant (by simp [UnfannedOK, shutdown, State.init]) fun _ ho _ hs => (step_sound hs).unfannedOK ho

theorem StepR.snapshot_fanned {n : Nat} {addrs : List SocketAddr} (hs : StepR cfg s (.snapshot n addrs) s') {i : Nat}
    (hi : i < addrs.length) : Fanned s'.shuts n (s.base.discs.length + i) := by
  cases hs with
  | snapshot hu => exact ⟨_, by rw [getElem?_set hu, if_pos rfl], by simp [Shut.has, hi]⟩

theorem StepR.fanned_kept (hr : (shutdown cfg).Reachable s) (hs : StepR cfg s a s') {n j : Nat}
    (h : Fanned s.shuts n j) : Fanned s'.shuts n j := by
  obtain ⟨u, hu, hj⟩ := h
  have goto : ∀ {m v w}, s.shuts[m]? = some v → (m = n → w.has j = v.has j) → Fanned (s.shuts.set m w) n j := by
    intro m v w hv hw
    by_cases hm : m = n
    · subst hm
      rw [hu] at hv; cases hv
      exact ⟨w, by rw [getElem?_set hu, if_pos rfl], (hw rfl).trans hj⟩
    · exact ⟨u, by rw [getElem?_set hv, if_neg hm, hu], hj⟩
  cases hs with
  | base => exact ⟨_, by rw [List.getElem?_map, hu]; rfl, by rw [Shut.announce_has]; exact hj⟩
  | shutDown => exact ⟨u, getElem?_append_of_some hu _, hj⟩
  | @snapshot m v addrs hv hpc =>
    refine goto hv fun hm => ?_
    -- a call has one fan-out
    subst hm
    rw [hu] at hv; cases hv
    rw [unfannedOK_reachable hr u (List.mem_of_getElem? hu) (by rw [hpc]; rfl) j] at hj
    cases hj
  | begin hv | takeTasks hv | fannedOut hv | enableDrain hv | enableSched hv | drainEmpty hv | drainPark hv
  | schedEmpty hv
  | schedPark hv | wakeDrain hv | wakeSched hv | signalHandlers hv | joined hv | expire hv | abortRest hv | clear hv
  | cancelShut hv => exact goto hv fun _ => rfl
  | _ => exact ⟨u, hu, hj⟩

end Shutdown

namespace Hooks

variable {cfg : NodeConfig} {abortable : Bool} {s s' : State} {a : Act}

def newCalls (s : State) : Act → List (DisconnectOrigin × Option Nat)
  | .base a => Shutdown.newCalls s.base a
  | _ => []

theorem StepR.disc_calls (hs : StepR cfg abortable s a s') :
    s'.base.base.discs.map Disc.call = s.base.base.discs.map Disc.call ++ newCalls s a := by
  cases hs with
  | base hb => exact (Shutdown.step_sound hb).disc_calls
  | attach _ _ _ hb | register _ _ _ hb | cancelDisc _ _ hb => exact (Shutdown.step_sound hb).disc_calls
  | trigger | loop | receive | receiveLate | sendFailed | dropLoop | respond | noResponse | closing | graceExpired =>
    simp [newCalls]
  | skip | waited | hookDone => exact (List.append_nil _).symm

theorem HookOf.later {k : Nat} {h : Handle} (hh : HookOf s k h)
    (hO : s.hooks.map Hook.origin <+: s'.hooks.map Hook.origin)
    (hI : s.connect.triggers.map Trigger.id <+: s'.connect.triggers.map Trigger.id) : HookOf s' k h := by
  obtain ⟨y, t, hy, hside, ht, hid⟩ := hh
  obtain ⟨O, hO⟩ := hO
  obtain ⟨I, hI⟩ := hI
  have horigin : (s.hooks.map Hook.origin)[h]? = some (.connect, y.trigger) := by
    rw [List.getElem?_map, hy, ← hside]; rfl
  have hids : (s.connect.triggers.map Trigger.id)[y.trigger]? = some k := by
    rw [List.getElem?_map, ht, ← hid]; rfl
  refine hookOf_of_origins (q := y.trigger) ?_ ?_
  · rw [← hO]; exact getElem?_append_of_some horigin _
  · rw [← hI]; exact getElem?_append_of_some hids _

end Hooks

namespace Protocols

open Hooks (HookOf)
open Shutdown (Fanned)

variable {cfg : NodeConfig} {abortable : Bool} {s s' : State} {a : Act}

/-! ## Tasks that ended -/

/-- A task of connection `id` ended by itself. -/
def EndedTask (T : List Task) (k : Handle) (kind : TaskKind) (id : Nat) : Prop :=
  ∃ t, T[k]? = some t ∧ t.pc = .finished ∧ t.kind = kind ∧ t.id = id

namespace EndedTask

variable {T T' : List Task} {k j : Handle} {kind : TaskKind} {id : Nat} {t t' : Task}

/-- The tasks keep what they are, and where they are. -/
theorem keep (h : EndedTask T k kind id)
    (hT : ∀ t, T[k]? = some t → ∃ t', T'[k]? = some t' ∧ t'.pc = t.pc ∧ t'.kind = t.kind ∧ t'.id = t.id) :
    EndedTask T' k kind id := by
  obtain ⟨t, ht, hpc, hkind, hid⟩ := h
  obtain ⟨t', ht', hpc', hkind', hid'⟩ := hT t ht
  exact ⟨t', ht', hpc'.trans hpc, hkind'.trans hkind, hid'.trans hid⟩

theorem release (h : EndedTask T k kind id) (i : Nat) (hs : List Handle) : EndedTask (release T i hs) k kind id := by
  refine h.keep fun t ht => ⟨_, by rw [Protocols.release, List.getElem?_mapIdx, ht]; rfl, ?_⟩
  exact ⟨rfl, rfl, rfl⟩

theorem abortAll (h : EndedTask T k kind id) (hs : List Handle) : EndedTask (abortAll T hs) k kind id := by
  refine h.keep fun t ht => ⟨_, by rw [Protocols.abortAll, List.getElem?_mapIdx, ht]; rfl, ?_⟩
  exact ⟨rfl, rfl, rfl⟩

theorem notifyReady (h : EndedTask T k kind id) (i : Nat) : EndedTask (notifyReady T i) k kind id := by
  refine h.keep fun t ht => ⟨_, by rw [Protocols.notifyReady, List.getElem?_map, ht]; rfl, ?_⟩
  dsimp only
  split <;> exact ⟨rfl, rfl, rfl⟩

theorem deliver (h : EndedTask T k kind id) (i : Nat) : EndedTask (deliver T i) k kind id := by
  refine h.keep fun t ht => ⟨_, by rw [Protocols.deliver, List.getElem?_map, ht]; rfl, ?_⟩
  dsimp only
  split <;> exact ⟨rfl, rfl, rfl⟩

theorem closeInbound (h : EndedTask T k kind id) (i : Nat) : EndedTask (closeInbound T i) k kind id := by
  refine h.keep fun t ht => ⟨_, by rw [Protocols.closeInbound, List.getElem?_map, ht]; rfl, ?_⟩
  dsimp only
  split <;> exact ⟨rfl, rfl, rfl⟩

theorem append (h : EndedTask T k kind id) : EndedTask (T ++ [t]) k kind id := by
  obtain ⟨x, hx, hrest⟩ := h
  exact ⟨x, getElem?_append_of_some hx _, hrest⟩

/-- Another task goes on, or something else of it. -/
theorem set (h : EndedTask T k kind id) (ht : T[j]? = some t) (hpc : t.pc = .finished → t'.pc = .finished)
    (hkind : t'.kind = t.kind) (hid : t'.id = t.id) : EndedTask (T.set j t') k kind id := by
  obtain ⟨x, hx, hxpc, hxkind, hxid⟩ := h
  by_cases hjk : j = k
  · subst hjk
    rw [ht] at hx; cases hx
    exact ⟨t', by rw [getElem?_set ht, if_pos rfl], hpc hxpc, hkind.trans hxkind, hid.trans hxid⟩
  · exact ⟨x, by rw [getElem?_set ht, if_neg hjk, hx], hxpc, hxkind, hxid⟩

theorem endTask {pc : TaskPc} (h : EndedTask T k kind id) (ht : T[j]? = some t) (hpc : t.pc ≠ .finished) :
    EndedTask (endTask T j t pc) k kind id := by
  have hset : EndedTask (T.set j { t with pc := pc }) k kind id := h.set ht (fun he => absurd he hpc) rfl rfl
  unfold Protocols.endTask
  dsimp only
  split
  · exact hset.closeInbound t.id
  · exact hset

end EndedTask

theorem endedTask_endTask {T : List Task} {k : Handle} {t : Task} (ht : T[k]? = some t) :
    EndedTask (endTask T k t .finished) k t.kind t.id := by
  have hset : EndedTask (T.set k { t with pc := .finished }) k t.kind t.id :=
    ⟨{ t with pc := .finished }, by rw [getElem?_set ht, if_pos rfl], rfl, rfl, rfl⟩
  unfold endTask
  dsimp only
  split
  · exact hset.closeInbound t.id
  · exact hset

theorem React.ended {x : Hooks.Act} (hr : React s x s') {k : Handle} {kind : TaskKind} {id : Nat}
    (h : EndedTask s.tasks k kind id) : EndedTask s'.tasks k kind id := by
  cases hr with
  | refuse => exact h.release ..
  | notifyDrain => exact h.abortAll _
  | _ => exact h

theorem SetupR.ended {i : Nat} {c : Conn} {st : Stage} {q : Nat} {pc : SetupTaskPc} {x : SetupAct}
    (hs : SetupR s i c st q pc x s') {k : Handle} {kind : TaskKind} {id : Nat}
    (h : EndedTask s.tasks k kind id) : EndedTask s'.tasks k kind id := by
  have giveBack : ∀ {r : State} {c'}, EndedTask r.tasks k kind id →
      EndedTask (r.giveBack i c' st q).tasks k kind id := by
    intro r c' hr
    rcases r.giveBack_cases i c' st q with ⟨-, he⟩ | he
    · rw [he]; exact hr
    · rw [he]; exact hr.release ..
  cases hs with
  | shake => exact h
  | panic | fail => exact h.release ..
  | shaken | returnReading => exact giveBack h
  | returnWriting ht => exact giveBack (h.set ht (fun hpc => hpc) rfl rfl)
  | spawn => exact h.append
  | @spawnReader j t ht =>
    have hset : EndedTask (s.tasks.set j { t with remote := .passed }) k kind id := h.set ht (fun hpc => hpc) rfl rfl
    exact hset.append

theorem TaskR.ended {j : Handle} {t : Task} {x : TaskAct} (hs : TaskR cfg abortable s j t x s')
    (ht : s.tasks[j]? = some t) {k : Handle} {kind : TaskKind} {id : Nat} (h : EndedTask s.tasks k kind id) :
    EndedTask s'.tasks k kind id := by
  cases hs with
  | start hpc | connReady hpc | leave hpc | cut _ hpc => exact h.set ht (by simp [hpc]) rfl rfl
  | process | queueMessage | write | unpublish => exact h.set ht (fun hpc => hpc) rfl rfl
  | startFailed hpc | connGone hpc | left hpc | cutOff hpc => exact h.endTask ht (by simp [hpc])
  | cutEarly _ hpc => exact h.endTask ht (by rcases hpc with hpc | hpc <;> simp [hpc])
  | read => exact h
  | decode => exact h.deliver _

/-- A task that ended by itself has done so for good. -/
theorem StepR.ended (hs : StepR cfg abortable s a s') (hD : DriversOK s) {k : Handle} {kind : TaskKind} {id : Nat}
    (h : EndedTask s.tasks k kind id) : EndedTask s'.tasks k kind id := by
  cases hs with
  | base hb hf => exact (react_cases hD hb hf).ended h
  | release | dropItem => exact h.release ..
  | driver hc hx =>
    cases hx with
    | sendFailed | cancelSending | cancelReply => exact h.release ..
    | ready => exact h.notifyReady _
    | _ => exact h
  | setup hc hp hx => exact hx.ended h
  | task ht hx => exact hx.ended ht h
  | loop | receive | dropLoop | panicLoop | hookPanic | hookGuard => exact h

/-! ## Causes -/

/-- The disconnect `j`, called like this, is explained by its cause: a
`Node::disconnect`, a fan-out it is in, a task of its connection that ended by
itself, or an OnConnect hook of its connection that panicked. -/
inductive Caused (s : State) (j : Nat) : DisconnectOrigin × Option Nat → Cause → Prop
  | user : Caused s j (.user, none) .user
  | shutdown {n} (hn : Fanned s.base.base.shuts n j) : Caused s j (.shutdown, none) (.shutdown n)
  | task {k kind id} (hk : EndedTask s.tasks k kind id) : Caused s j (kind.origin, some id) (.task k)
  | hook {h id} (hp : h ∈ s.panicked) (hh : HookOf s.base id h) : Caused s j (.onConnectAbort, some id) (.hook h)

/-- What a step keeps of it. -/
structure Later (s s' : State) : Prop where
  fanned : ∀ {n j}, Fanned s.base.base.shuts n j → Fanned s'.base.base.shuts n j
  ended : ∀ {k kind id}, EndedTask s.tasks k kind id → EndedTask s'.tasks k kind id
  panicked : ∀ {h}, h ∈ s.panicked → h ∈ s'.panicked
  hook : ∀ {id h}, HookOf s.base id h → HookOf s'.base id h

theorem Caused.later {j : Nat} {o : DisconnectOrigin × Option Nat} {c : Cause} (h : Caused s j o c) (hl : Later s s') :
    Caused s' j o c := by
  cases h with
  | user => exact .user
  | shutdown hn => exact .shutdown (hl.fanned hn)
  | task hk => exact .task (hl.ended hk)
  | hook hp hh => exact .hook (hl.panicked hp) (hl.hook hh)

theorem StepR.panicked_kept (hs : StepR cfg abortable s a s') (hD : DriversOK s) {h : Handle} (hh : h ∈ s.panicked) :
    h ∈ s'.panicked := by
  cases hs with
  | base hb hf =>
    have hreact := react_cases hD hb hf
    generalize s.react _ = t at hreact
    cases hreact <;> exact hh
  | driver hc hx => cases hx <;> exact hh
  | setup hc hp hx => rw [hx.frame.2.1]; exact hh
  | task ht hx => cases hx <;> exact hh
  | hookPanic => exact List.mem_cons_of_mem _ hh
  | loop | receive | release | dropLoop | panicLoop | dropItem | hookGuard => exact hh

theorem StepR.later (hr : (protocols cfg abortable).Reachable s) (hs : StepR cfg abortable s a s') : Later s s' where
  fanned hn := by
    rcases hs.hooks_move with ⟨x, -, hx⟩ | he
    · rcases (Hooks.step_sound hx).base_move with ⟨c, -, hc, -⟩ | ⟨hb, -⟩
      · exact hc.fanned_kept (shutdown_reachable hr) hn
      · rw [hb]; exact hn
    · rw [he]; exact hn
  ended := hs.ended (placesOK_reachable hr).drivers
  panicked := hs.panicked_kept (placesOK_reachable hr).drivers
  hook hh := by
    rcases hs.hooks_move with ⟨x, -, hx⟩ | he
    · have hstep := Hooks.step_sound hx
      exact hh.later hstep.origins_grow (hstep.ids_grow .connect)
    · rw [he]; exact hh

/-- Every disconnect has a cause, and is explained by it. -/
structure CausesOK (s : State) : Prop where
  length : s.causes.length = s.node.discs.length
  caused : ∀ (j : Nat) d c, s.node.discs[j]? = some d → s.causes[j]? = some c → Caused s j d.call c

namespace CausesOK

/-- Disconnects are added, with their causes. -/
theorem grow (h : CausesOK s) (hl : Later s s') (news : List ((DisconnectOrigin × Option Nat) × Cause))
    (hd : s'.node.discs.map Disc.call = s.node.discs.map Disc.call ++ news.map Prod.fst)
    (hc : s'.causes = s.causes ++ news.map Prod.snd)
    (hn : ∀ (i : Nat) x, news[i]? = some x → Caused s' (s.node.discs.length + i) x.1 x.2) : CausesOK s' where
  length := by
    have hlen := congrArg List.length hd
    simp only [List.length_map, List.length_append] at hlen
    rw [hc, hlen, List.length_append, List.length_map, h.length]
  caused j d' c' hd' hc' := by
    have hcall : (s.node.discs.map Disc.call ++ news.map Prod.fst)[j]? = some d'.call := by
      rw [← hd, List.getElem?_map, hd']; rfl
    rw [hc] at hc'
    by_cases hj : j < s.node.discs.length
    · rw [List.getElem?_append_left (by simpa using hj), List.getElem?_map, Option.map_eq_some_iff] at hcall
      obtain ⟨d, hd, he⟩ := hcall
      rw [List.getElem?_append_left (by rw [h.length]; exact hj)] at hc'
      rw [← he]
      exact (h.caused j d c' hd hc').later hl
    · obtain ⟨i, rfl⟩ := Nat.exists_eq_add_of_le (Nat.le_of_not_lt hj)
      rw [List.getElem?_append_right (by simp), List.length_map, Nat.add_sub_cancel_left, List.getElem?_map,
        Option.map_eq_some_iff] at hcall
      rw [List.getElem?_append_right (by rw [h.length]; simp), h.length, Nat.add_sub_cancel_left, List.getElem?_map,
        Option.map_eq_some_iff] at hc'
      obtain ⟨x, hx, he⟩ := hcall
      obtain ⟨y, hy, hce⟩ := hc'
      rw [hx] at hy; cases hy
      rw [← he, ← hce]
      exact hn i x hx

theorem add (h : CausesOK s) (hl : Later s s') {o : DisconnectOrigin × Option Nat} {c : Cause}
    (hd : s'.node.discs.map Disc.call = s.node.discs.map Disc.call ++ [o]) (hc : s'.causes = s.causes ++ [c])
    (hn : Caused s' s.node.discs.length o c) : CausesOK s' := by
  refine h.grow hl [(o, c)] hd hc fun i x hx => ?_
  cases i with
  | zero => cases hx; exact hn
  | succ i => cases hx

/-- No disconnect is added. -/
theorem same (h : CausesOK s) (hl : Later s s') (hd : s'.node.discs.map Disc.call = s.node.discs.map Disc.call)
    (hc : s'.causes = s.causes) : CausesOK s' :=
  h.grow hl [] (by simpa using hd) (by simpa using hc) fun i x hx => by cases hx

end CausesOK

theorem stepGuard_cases {addr : SocketAddr} {origin : DisconnectOrigin} {id : Nat} {b : Hooks.State}
    (h : stepGuard cfg abortable s addr origin id = some b) (cause : Cause) :
    (InActive s.node.active id ∧ b.base.base.discs.map Disc.call = s.node.discs.map Disc.call ++ [(origin, some id)] ∧
      s.fire b cause = s.causes ++ [cause]) ∨
    b.base.base.discs = s.node.discs ∧ s.fire b cause = s.causes := by
  have hnode : Pea2Pea.StepR cfg s.node (.disconnectOnDrop addr origin id) b.base.base := hooks_node h
  rcases hnode.guard_cases with ⟨hin, hd⟩ | hd
  · refine .inl ⟨hin, by simp [hd, Disc.call], ?_⟩
    rw [State.fire, if_pos (by simp [hd])]
  · refine .inr ⟨hd, ?_⟩
    rw [State.fire, if_neg (by simp [hd])]

/-- A connection whose task was aborted is not in `active`. -/
theorem gone_of_aborted (hr : (protocols cfg abortable).Reachable s) {k : Handle} {t : Task} (ht : s.tasks[k]? = some t)
    (ha : t.aborted = true) : ¬ InActive s.node.active t.id := by
  intro hin
  obtain ⟨c, hc, ok⟩ := (tasksOK_reachable hr).task ht
  obtain ⟨c', hc', hp⟩ := ((placesOK_reachable hr).drivers t.id).active hin
  rw [hc] at hc'; cases hc'
  rw [ok.aborted ha] at hp; cases hp

/-- Nor is one whose OnConnect hook was. -/
theorem gone_of_aborted_hook (hr : (protocols cfg abortable).Reachable s) (hA : Hooks.AbortedOK s.base) {h : Handle}
    {y : Hooks.Hook} {t : Hooks.Trigger} (hy : s.base.hooks[h]? = some y) (hside : y.side = .connect)
    (ht : s.base.connect.triggers[y.trigger]? = some t) (ha : y.status = .aborted) :
    ¬ InActive s.node.active t.id := by
  obtain ⟨k, hk, hrem⟩ := hA h y hy hside ha
  rw [List.getElem?_map, ht] at hk; cases hk
  exact (ledgerOK_reachable (node_reachable hr)).removed_gone hrem

/-- The steps of the hooks' system that are nobody's disconnect. -/
theorem newCalls_plain {x : Hooks.Act} (hx : loud x = false) (hf : s.free x = true) : Hooks.newCalls s.base x = [] := by
  cases x with
  | base y =>
    cases y with
    | base z =>
      cases z with
      | disconnect => cases hx
      | disconnectOnDrop => cases hf
      | _ => rfl
    | snapshot => cases hx
    | _ => rfl
  | _ => rfl

theorem StepR.causesOK (hr : (protocols cfg abortable).Reachable s) (hA : Hooks.AbortedOK s.base) (h : CausesOK s)
    (hs : StepR cfg abortable s a s') : CausesOK s' := by
  have hl := hs.later hr
  have calls : ∀ {x b}, Hooks.step cfg abortable s.base x = some b →
      b.base.base.discs.map Disc.call = s.node.discs.map Disc.call ++ Hooks.newCalls s.base x :=
    fun hb => (Hooks.step_sound hb).disc_calls
  have quiet : ∀ {x b}, Hooks.step cfg abortable s.base x = some b → Hooks.newCalls s.base x = [] →
      b.base.base.discs.map Disc.call = s.node.discs.map Disc.call := by
    intro x b hb hx
    rw [calls hb, hx, List.append_nil]
  cases hs with
  | @base x b hb hf =>
    have hreact := react_cases (placesOK_reachable hr).drivers hb hf
    generalize s.react x = t at hreact hl ⊢
    cases hreact with
    | user => exact h.add hl (calls hb) rfl .user
    | @snapshot n addrs =>
      have hstep : Shutdown.StepR cfg s.base.base (.snapshot n addrs) b.base := by
        cases Hooks.step_sound hb with
        | base hy => exact Shutdown.step_sound hy
      refine h.grow hl (addrs.map fun _ => ((.shutdown, none), .shutdown n)) ?_ ?_ fun i z hz => ?_
      · rw [List.map_map]; exact calls hb
      · rw [List.map_map]; rfl
      · obtain ⟨addr, haddr, rfl⟩ := Option.map_eq_some_iff.mp (List.getElem?_map ▸ hz)
        exact .shutdown (hstep.snapshot_fanned (List.getElem?_eq_some_iff.mp haddr).1)
    | plain _ hx => exact h.same hl (quiet hb (newCalls_plain hx hf)) rfl
    | adapt | wired | deny | refuse | insert | remove | notifyDrain | publish | signalHandlers | toggleGone
    | toggleRefused => exact h.same hl (quiet hb rfl) rfl
  | driver hc hx =>
    cases hx with
    | failed _ _ hb | noResponse _ _ hb | graceExpired _ hb | cancelSending _ _ _ hb | cancelReply _ _ hb
    | cancelWaiting _ _ hb => exact h.same hl (quiet hb rfl) rfl
    | lookup | skip | sendFailed | respond | closing | ready => exact h.same hl rfl rfl
  | setup hc hp hx =>
    obtain ⟨hbase, -, -, -, hcauses⟩ := hx.frame
    exact h.same hl (by rw [State.node, hbase]; rfl) hcauses
  | @task k t x s' ht hx =>
    cases hx with
    | left hpc hc hb =>
      rcases stepGuard_cases hb (.task k) with ⟨-, hd, hcause⟩ | ⟨hd, hcause⟩
      · exact h.add hl hd hcause (.task (endedTask_endTask ht))
      · exact h.same hl (congrArg _ hd) hcause
    | cutOff hpc hc hb =>
      -- it was aborted, with its connection
      obtain ⟨_, -, ok⟩ := (tasksOK_reachable hr).task ht
      rcases stepGuard_cases hb (.task k) with ⟨hin, -, -⟩ | ⟨hd, hcause⟩
      · exact absurd hin (gone_of_aborted hr ht (ok.cut (.inl hpc)))
      · exact h.same hl (congrArg _ hd) hcause
    | _ => exact h.same hl rfl rfl
  | hookPanic _ _ hb => exact h.same hl (quiet hb rfl) rfl
  | @hookGuard w y t u b hy hside ht hu hb ha =>
    rcases stepGuard_cases hb (.hook w) with ⟨hin, hd, hcause⟩ | ⟨hd, hcause⟩
    · rcases ha with hp | hab
      · exact h.add hl hd hcause (.hook (hl.panicked hp) (hl.hook ⟨y, t, hy, hside, ht, rfl⟩))
      · exact absurd hin (gone_of_aborted_hook hr hA hy hside ht hab)
    · exact h.same hl (congrArg _ hd) hcause
  | loop | receive | release | dropLoop | panicLoop | dropItem => exact h.same hl rfl rfl

/-! ## Over whole runs -/

/-- A `shut_down` is dropped. -/
def cancelsShut : Act → Bool
  | .base (.base (.cancelShut _)) => true
  | _ => false

theorem HooksMove.keeps_shut {x : Hooks.Act} (h : HooksMove s a x) (ha : cancelsShut a = false) :
    ∀ n, x ≠ .base (.cancelShut n) := by
  rintro n rfl
  cases h with
  | base => cases ha

theorem aborted_reaches (h : (protocols cfg abortable).Reaches (fun _ a => cancelsShut a = false) s) :
    Hooks.AttendingOK s.base ∧ Hooks.AbortedOK s.base := by
  refine h.invariant (P := fun s => Hooks.AttendingOK s.base ∧ Hooks.AbortedOK s.base) ?_
    fun {s s' a} hr ho ha hs => ?_
  · exact ⟨Hooks.attendingOK_init cfg, fun h y hy => by cases hy⟩
  · rcases (step_sound hs).hooks_move with ⟨x, hm, hx⟩ | he
    · have hrh := hooks_reachable hr.reachable
      have hstep := Hooks.step_sound hx
      exact ⟨hstep.attendingOK hrh (hm.keeps_shut ha) ho.1, hstep.abortedOK hrh ho.1 ho.2⟩
    · rw [he]; exact ho

theorem causesOK_reaches (h : (protocols cfg abortable).Reaches (fun _ a => cancelsShut a = false) s) : CausesOK s := by
  refine h.invariant ⟨rfl, fun j d c hd => by cases hd⟩ fun hr ho _ hs => ?_
  exact (step_sound hs).causesOK hr.reachable (aborted_reaches hr).2 ho

/-- What a disconnect's origin says of its connection `id`, whose disconnect
is `j`. -/
def Faithful (s : State) (j id : Nat) : DisconnectOrigin → Prop
  | .onConnectAbort => ∃ h ∈ s.panicked, HookOf s.base id h
  | .reading => ∃ k, EndedTask s.tasks k .reader id ∨ EndedTask s.tasks k .processing id
  | .writing => ∃ k, EndedTask s.tasks k .writer id
  | .shutdown => ∃ n, s.causes[j]? = some (.shutdown n) ∧ Fanned s.base.base.shuts n j
  | .user => s.causes[j]? = some .user

theorem Caused.faithful {j id : Nat} {d : Disc} {c : Cause} (h : Caused s j d.call c) (hc : s.causes[j]? = some c)
    (hid : ∀ k, d.connId = some k → id = k) : Faithful s j id d.origin := by
  obtain ⟨addr, origin, connId, pc⟩ := d
  dsimp only [Disc.call] at h hid ⊢
  cases h with
  | user => exact hc
  | shutdown hn => exact ⟨_, hc, hn⟩
  | @task k kind _ hk =>
    obtain rfl := hid _ rfl
    cases kind with
    | processing => exact ⟨k, .inr hk⟩
    | reader => exact ⟨k, .inl hk⟩
    | writer => exact ⟨k, hk⟩
  | @hook w _ hp hh =>
    obtain rfl := hid _ rfl
    exact ⟨w, hp, hh⟩

/-- The origin that on_disconnect is told is what happened to the connection,
and the guards of what a teardown has aborted make no disconnect. -/
theorem origins_faithful (cfg : NodeConfig) (abortable : Bool) (s : State)
    (h : (protocols cfg abortable).Reaches (fun _ a => cancelsShut a = false) s) :
    (∀ t ∈ s.base.disconnect.triggers, ∃ d, s.node.discs[t.owner]? = some d ∧ d.claimedId = some t.id ∧
      Faithful s t.owner t.id d.origin) ∧
    (∀ (k : Handle) t s', s.tasks[k]? = some t → t.aborted = true →
      step cfg abortable s (.task k .dropGuard) = some s' → s'.node.discs = s.node.discs) ∧
    ∀ (w : Handle) s', w ∉ s.panicked → step cfg abortable s (.hookGuard w) = some s' →
      s'.node.discs = s.node.discs := by
  have hr := h.reachable
  refine ⟨fun t ht => ?_, fun k t s' ht ha hs => ?_, fun w s' hw hs => ?_⟩
  · obtain ⟨d, hd, hid, -⟩ := (Hooks.callersOK_reachable (hooks_reachable hr)).disc t ht
    have hC := causesOK_reaches h
    have hj : t.owner < s.causes.length := by rw [hC.length]; exact (List.getElem?_eq_some_iff.mp hd).1
    have hc := List.getElem?_eq_getElem hj
    refine ⟨d, hd, hid, (hC.caused t.owner d _ hd hc).faithful hc fun k hk => ?_⟩
    exact ((teardownOK_reachable (node_reachable hr)).exact d (List.mem_of_getElem? hd)).asked t.id k hk hid
  · have hstep : StepR cfg abortable s (.task k .dropGuard) s' := step_sound hs
    cases hstep with
    | task ht' hx =>
      rw [ht] at ht'; cases ht'
      cases hx with
      | left _ _ hb | cutOff _ _ hb =>
        rcases stepGuard_cases hb (.task k) with ⟨hin, -, -⟩ | ⟨hd, -⟩
        · exact absurd hin (gone_of_aborted hr ht ha)
        · exact hd
  · have hstep : StepR cfg abortable s (.hookGuard w) s' := step_sound hs
    cases hstep with
    | hookGuard hy hside ht hu hb ha =>
      rcases stepGuard_cases hb (.hook w) with ⟨hin, -, -⟩ | ⟨hd, -⟩
      · exact absurd hin (gone_of_aborted_hook hr (aborted_reaches h).2 hy hside ht (ha.resolve_left hw))
      · exact hd

/-- `peer` is connected, its on_connect panics, and the disconnect this makes
triggers OnDisconnect. -/
def panickedHook : List Act := List.flatten
  [enableRun .onConnect 0, enableRun .onDisconnect 1, connectRun peer 0,
    [.driver 0 .lookup, .driver 0 .lookup, .driver 0 .lookup],
    [.wired 0, .lockActive 0, .checkFlag 0, .insert 0 [], .dropGuard 0, .schedule 0].map
      fun x => .base (.base (.base x)),
    [.trigger .connect 0, .loop .connect (.acquire 0), .loop .connect (.write 0), .loop .connect .subscribe,
      .loop .connect .pollRecv, .respond .connect 0, .attach 0].map .base,
    [.hookPanic 0, .hookGuard 0, .base (.base (.base (.claim 0))), .base (.trigger .disconnect 0)]]

theorem origins_faithful_panickedHook : ∃ s,
    (protocols threeSlots true).Reaches (fun _ a => cancelsShut a = false) s ∧
    s.base.disconnect.triggers = [⟨0, 0, .waiting, .empty⟩] ∧
    s.node.discs.map Disc.call = [(.onConnectAbort, some 0)] ∧ ∃ h ∈ s.panicked, HookOf s.base 0 h := by
  obtain ⟨s, hs, hp⟩ := ((protocols threeSlots true).guarded fun _ a => !cancelsShut a).exists_reachable panickedHook
    (fun s => s.base.disconnect.triggers = [⟨0, 0, .waiting, .empty⟩] ∧
      s.node.discs.map Disc.call = [(.onConnectAbort, some 0)]) (by decide +kernel)
  have hr : (protocols threeSlots true).Reaches (fun _ a => cancelsShut a = false) s :=
    .of_guarded (fun _ a ha => by simpa using ha) hs
  obtain ⟨htriggers, hcalls⟩ := of_decide_eq_true hp
  obtain ⟨d, hd, -, hfaithful⟩ :=
    (origins_faithful threeSlots true s hr).1 ⟨0, 0, .waiting, .empty⟩ (by simp [htriggers])
  have hcall : (s.node.discs.map Disc.call)[0]? = some d.call := by rw [List.getElem?_map, hd]; rfl
  rw [hcalls] at hcall
  have horigin : d.origin = .onConnectAbort := (congrArg Prod.fst (Option.some.inj hcall)).symm
  rw [horigin] at hfaithful
  exact ⟨s, hr, htriggers, hcalls, hfaithful⟩

end Protocols

end Pea2Pea
