/-
The tasks of a connection, in every reachable state: each is in the list of
its connection, stopped, awaited by the setup task that spawned it, or left
with nothing to wait for; and a reader only runs, and messages only get to
the processing task, once the connection has been in `active`.
-/
import Pea2Pea.Drivers

namespace Pea2Pea.Protocols

open Pool

/-! ## The invariant -/

/-- The task has returned, panicked, or been cancelled. -/
def TaskPc.ended : TaskPc → Bool
  | .finished | .cancelled => true
  | _ => false

/-- A task whose setup is gone, with what it waits for: the response it
would signal its readiness to, the conn-ready sender, or the sender of its
messages. -/
structure Stranded (c : Conn) (t : Task) : Prop where
  place : c.place = .dropped
  remote : t.remote = .dropped
  queue : t.queue = 0

/-- What becomes of the task `k`, which is `t`, of the connection `c`. -/
inductive Fate (c : Conn) (k : Handle) (t : Task) : Prop
  /-- In the list of a connection that is still there. -/
  | listed (hk : k ∈ c.tasks) (hp : c.place ≠ .dropped)
  | aborted (ha : t.aborted = true)
  | ended (he : t.pc.ended = true)
  /-- The setup task that spawned it awaits its readiness. -/
  | awaited (hw : c.place.awaits = some k)
  | stranded (hs : Stranded c t)

/-- The task `k`, which is `t`, of the connection `c`; `entered` are the
connections that have been in `active`. -/
structure TaskOK (entered : Nat → Prop) (k : Handle) (t : Task) (c : Conn) : Prop where
  fate : Fate c k t
  held : t.remote = .held → t.queue = 0
  aborted : t.aborted = true → c.place = .dropped
  cut : t.pc = .cut ∨ t.pc = .cancelled → t.aborted = true
  reader : t.kind = .reader → t.remote = .passed → entered t.id
  running : t.kind = .reader → t.pc = .running → t.remote = .passed
  processing : t.kind = .processing → 0 < t.queue → entered t.id

/-- The tasks and the connections; `listed` and `awaits` are the connections'
side. -/
structure TasksOK (entered : Nat → Prop) (T : List Task) (C : Table Nat Conn) : Prop where
  task : ∀ {k : Handle} {t : Task}, T[k]? = some t → ∃ c, C.lookup t.id = some c ∧ TaskOK entered k t c
  listed : ∀ {id : Nat} {c : Conn} {k : Handle}, C.lookup id = some c → k ∈ c.tasks → ∃ t, T[k]? = some t ∧ t.id = id
  awaits : ∀ {id : Nat} {c : Conn} {k : Handle}, C.lookup id = some c → c.place.awaits = some k →
    ∃ t, T[k]? = some t ∧ t.id = id ∧ t.remote = .held

namespace TasksOK

variable {E E' : Nat → Prop} {T T' : List Task} {C : Table Nat Conn} {id : Nat} {c c' : Conn} {k : Handle} {t : Task}

theorem mono (h : TasksOK E T C) (hE : ∀ id, E id → E' id) : TasksOK E' T C where
  task ht := by
    obtain ⟨c, hc, ok⟩ := h.task ht
    exact ⟨c, hc, { ok with
      reader := fun hk hr => hE _ (ok.reader hk hr)
      processing := fun hk hq => hE _ (ok.processing hk hq) }⟩
  listed := h.listed
  awaits := h.awaits

/-- Connection `id` goes on, and every task by `f`. -/
theorem update (h : TasksOK E T C) (hc : C.lookup id = some c) {f : Handle → Task → Task}
    (hT : ∀ k, T'[k]? = (T[k]?).map (f k)) (hid : ∀ k t, (f k t).id = t.id)
    (hown : ∀ {k t}, T[k]? = some t → t.id = id → TaskOK E k t c → TaskOK E k (f k t) c')
    (hother : ∀ {k t x}, T[k]? = some t → t.id ≠ id → C.lookup t.id = some x → TaskOK E k t x → TaskOK E k (f k t) x)
    (hlisted : ∀ k ∈ c'.tasks, k ∈ c.tasks ∨ c.place.awaits = some k)
    (hawaits : ∀ {k}, c'.place.awaits = some k → c.place.awaits = some k)
    (hheld : ∀ {j x k t}, (C.insert id c').lookup j = some x → x.place.awaits = some k → T[k]? = some t → t.id = j →
      t.remote = .held → (f k t).remote = .held) : TasksOK E T' (C.insert id c') where
  task {k t'} ht' := by
    rw [hT] at ht'
    obtain ⟨t, ht, rfl⟩ := Option.map_eq_some_iff.mp ht'
    obtain ⟨x, hx, ok⟩ := h.task ht
    rw [hid, Table.lookup_insert]
    split
    next he =>
      rw [he, hc] at hx; cases hx
      exact ⟨c', rfl, hown ht he ok⟩
    next hne => exact ⟨x, hx, hother ht hne hx ok⟩
  listed {j x k} hx hk := by
    have hold : ∃ t, T[k]? = some t ∧ t.id = j := by
      rcases Table.lookup_insert_cases hx with ⟨rfl, rfl⟩ | ⟨-, hx⟩
      · rcases hlisted k hk with hk | hk
        · exact h.listed hc hk
        · obtain ⟨t, ht, hid, -⟩ := h.awaits hc hk
          exact ⟨t, ht, hid⟩
      · exact h.listed hx hk
    obtain ⟨t, ht, rfl⟩ := hold
    exact ⟨f k t, by rw [hT, ht]; rfl, hid k t⟩
  awaits {j x k} hx hk := by
    have hold : ∃ t, T[k]? = some t ∧ t.id = j ∧ t.remote = .held := by
      rcases Table.lookup_insert_cases hx with ⟨rfl, rfl⟩ | ⟨-, hx⟩
      · exact h.awaits hc (hawaits hk)
      · exact h.awaits hx hk
    obtain ⟨t, ht, rfl, hr⟩ := hold
    exact ⟨f k t, by rw [hT, ht]; rfl, hid k t, hheld hx hk ht rfl hr⟩

/-- The tasks go on by `f`, and no connection moves. -/
theorem tasks (h : TasksOK E T C) {f : Handle → Task → Task} (hT : ∀ k, T'[k]? = (T[k]?).map (f k))
    (hid : ∀ k t, (f k t).id = t.id)
    (htask : ∀ {k t x}, T[k]? = some t → C.lookup t.id = some x → TaskOK E k t x → TaskOK E k (f k t) x)
    (hheld : ∀ {k t x}, T[k]? = some t → C.lookup t.id = some x → x.place.awaits = some k → t.remote = .held →
      (f k t).remote = .held) : TasksOK E T' C where
  task {k t'} ht' := by
    rw [hT] at ht'
    obtain ⟨t, ht, rfl⟩ := Option.map_eq_some_iff.mp ht'
    obtain ⟨x, hx, ok⟩ := h.task ht
    rw [hid]
    exact ⟨x, hx, htask ht hx ok⟩
  listed {j x k} hx hk := by
    obtain ⟨t, ht, rfl⟩ := h.listed hx hk
    exact ⟨f k t, by rw [hT, ht]; rfl, hid k t⟩
  awaits {j x k} hx hk := by
    obtain ⟨t, ht, rfl, hr⟩ := h.awaits hx hk
    exact ⟨f k t, by rw [hT, ht]; rfl, hid k t, hheld ht hx hk hr⟩

end TasksOK

/-- A connection goes on with the same tasks, there or dropped as before. -/
structure Steady (c c' : Conn) : Prop where
  tasks : c'.tasks = c.tasks
  awaits : c'.place.awaits = c.place.awaits
  dropped : c'.place = .dropped ↔ c.place = .dropped

/-- Not a place at which a readiness is awaited, nor dropped. -/
def Place.steady : Place → Bool
  | .setup _ _ (.awaiting _) | .dropped => false
  | _ => true

theorem Place.awaits_of_steady {place : Place} (h : place.steady = true) : place.awaits = none ∧ place ≠ .dropped := by
  unfold Place.steady at h
  unfold Place.awaits
  split at h
  · cases h
  · cases h
  next h₁ h₂ =>
    refine ⟨?_, fun he => h₂ he⟩
    split
    next st q k => exact absurd rfl (h₁ st q k)
    · rfl

theorem Steady.of_place {c c' : Conn} (ht : c'.tasks = c.tasks) (hp : c.place.steady = true)
    (hp' : c'.place.steady = true) : Steady c c' := by
  obtain ⟨ha, hd⟩ := Place.awaits_of_steady hp
  obtain ⟨ha', hd'⟩ := Place.awaits_of_steady hp'
  exact ⟨ht, ha'.trans ha.symm, ⟨fun h => absurd h hd', fun h => absurd h hd⟩⟩

namespace TaskOK

variable {E : Nat → Prop} {c c' : Conn} {k : Handle} {t : Task}

theorem steady (ok : TaskOK E k t c) (hs : Steady c c') : TaskOK E k t c' where
  fate := by
    cases ok.fate with
    | listed hk hp => exact .listed (by rw [hs.tasks]; exact hk) fun hd => hp (hs.dropped.mp hd)
    | aborted ha => exact .aborted ha
    | ended he => exact .ended he
    | awaited hw => exact .awaited (hs.awaits.trans hw)
    | stranded h => exact .stranded ⟨hs.dropped.mpr h.place, h.remote, h.queue⟩
  held := ok.held
  aborted ha := hs.dropped.mpr (ok.aborted ha)
  cut := ok.cut
  reader := ok.reader
  running := ok.running
  processing := ok.processing

/-- The fate of a task that goes on, of the same connection. -/
theorem fate_of (ok : TaskOK E k t c) {t' : Task} (ha : t.aborted = true → t'.aborted = true)
    (he : t.pc.ended = true → t'.pc.ended = true)
    (hs : t.remote = .dropped → t.queue = 0 → t'.remote = .dropped ∧ t'.queue = 0) : Fate c k t' := by
  cases ok.fate with
  | listed hk hp => exact .listed hk hp
  | aborted h => exact .aborted (ha h)
  | ended h => exact .ended (he h)
  | awaited hw => exact .awaited hw
  | stranded h =>
    obtain ⟨hr, hq⟩ := hs h.remote h.queue
    exact .stranded ⟨h.place, hr, hq⟩

/-- The connection is dropped: its tasks are aborted, and a task that its
setup awaited is stranded. -/
theorem drop (ok : TaskOK E k t c) (c' : Conn) (hsub : ∀ k ∈ c.tasks, k ∈ c'.tasks) (hp' : c'.place = .dropped)
    {r : Remote}
    (hr : r = t.remote ∨ t.remote = .held ∧ r = .dropped)
    (hw : c.place.awaits = some k → t.remote = .held ∧ r = .dropped) :
    TaskOK E k { t with aborted := t.aborted || decide (k ∈ c'.tasks), remote := r } c' where
  fate := by
    cases ok.fate with
    | listed hk _ => exact .aborted (by simp [hsub k hk])
    | aborted h => exact .aborted (by simp [h])
    | ended h => exact .ended h
    | awaited h =>
      obtain ⟨hheld, hdrop⟩ := hw h
      exact .stranded ⟨hp', hdrop, ok.held hheld⟩
    | stranded h =>
      refine .stranded ⟨hp', ?_, h.queue⟩
      rcases hr with hr | ⟨-, hr⟩
      · exact hr.trans h.remote
      · exact hr
  held h := by
    rcases hr with hr | ⟨-, hr⟩
    · exact ok.held (hr.symm.trans h)
    · cases hr.symm.trans h
  aborted _ := hp'
  cut h := by simp [ok.cut h]
  reader hk h := by
    rcases hr with hr | ⟨-, hr⟩
    · exact ok.reader hk (hr.symm.trans h)
    · cases hr.symm.trans h
  running hk h := by
    rcases hr with hr | ⟨hheld, -⟩
    · exact hr.trans (ok.running hk h)
    · rw [ok.running hk h] at hheld; cases hheld
  processing := ok.processing

end TaskOK

namespace TasksOK

variable {E : Nat → Prop} {T T' : List Task} {C : Table Nat Conn} {id : Nat} {c c' : Conn} {k : Handle} {t t' : Task}

theorem conn (h : TasksOK E T C) (hc : C.lookup id = some c) (hs : Steady c c') : TasksOK E T (C.insert id c') :=
  h.update hc (f := fun _ t => t) (fun k => by simp) (fun _ _ => rfl) (fun _ _ ok => ok.steady hs)
    (fun _ _ _ ok => ok) (fun k hk => .inl (by rw [← hs.tasks]; exact hk)) (fun hk => hs.awaits ▸ hk)
    fun _ _ _ _ hr => hr

/-- What a task of another connection is after a drop of connection `id`. -/
theorem not_listed (h : TasksOK E T C) (hc : C.lookup id = some c)
    (hlisted : ∀ k ∈ c'.tasks, k ∈ c.tasks ∨ c.place.awaits = some k) (ht : T[k]? = some t) (hne : t.id ≠ id) :
    k ∉ c'.tasks := by
  intro hk
  have hown : ∃ u, T[k]? = some u ∧ u.id = id := by
    rcases hlisted k hk with hk | hk
    · exact h.listed hc hk
    · obtain ⟨u, hu, huid, -⟩ := h.awaits hc hk
      exact ⟨u, hu, huid⟩
  obtain ⟨u, hu, huid⟩ := hown
  rw [ht] at hu; cases hu
  exact hne huid

/-- `State.drop`. -/
theorem drop (h : TasksOK E T C) (hc : C.lookup id = some c) (c' : Conn) (hsub : ∀ k ∈ c.tasks, k ∈ c'.tasks)
    (hlisted : ∀ k ∈ c'.tasks, k ∈ c.tasks ∨ c.place.awaits = some k) (hp' : c'.place = .dropped) :
    TasksOK E (release T id c'.tasks) (C.insert id c') := by
  refine h.update hc (fun k => List.getElem?_mapIdx) (fun _ _ => rfl) (fun {k t} ht hid ok => ?_)
    (fun {k t x} ht hne _ ok => ?_) hlisted (fun hk => ?_) fun {j x k t} hx hk ht hj hr => ?_
  · refine ok.drop c' hsub hp' ?_ fun hk => ?_
    · by_cases hr : t.remote = .held
      · exact .inr ⟨hr, if_pos ⟨hid, hr⟩⟩
      · exact .inl (if_neg fun h => hr h.2)
    · obtain ⟨u, hu, -, hr⟩ := h.awaits hc hk
      rw [ht] at hu; cases hu
      exact ⟨hr, if_pos ⟨hid, hr⟩⟩
  · have hn := h.not_listed hc hlisted ht hne
    have hsame : ({ t with
        aborted := t.aborted || decide (k ∈ c'.tasks)
        remote := if t.id = id ∧ t.remote = .held then .dropped else t.remote } : Task) = t := by
      rw [if_neg fun h => hne h.1, decide_eq_false hn, Bool.or_false]
    rw [hsame]
    exact ok
  · rw [hp'] at hk; cases hk
  · rcases Table.lookup_insert_cases hx with ⟨-, rfl⟩ | ⟨hne, -⟩
    · rw [hp'] at hk; cases hk
    · exact (if_neg fun h => hne (hj.symm.trans h.1)).trans hr

/-- What has the connection drops it as it is, and its driver may be over. -/
theorem dropped (h : TasksOK E T C) (hc : C.lookup id = some c) (pc : DriverPc) (e : Option SetupError) :
    TasksOK E (release T id c.tasks) (C.insert id { c with place := .dropped, pc := pc, error := e }) :=
  h.drop hc { c with place := .dropped, pc := pc, error := e } (fun _ hk => hk) (fun _ hk => .inl hk) rfl

/-- The finalizer's connection is dropped. -/
theorem teardown (h : TasksOK E T C) (hc : C.lookup id = some c) (hp : c.place.awaits = none) :
    TasksOK E (abortAll T c.tasks) (C.insert id { c with place := .dropped }) := by
  have hlisted : ∀ k ∈ c.tasks, k ∈ c.tasks ∨ c.place.awaits = some k := fun k hk => .inl hk
  refine h.update hc (fun k => List.getElem?_mapIdx) (fun _ _ => rfl) (fun {k t} ht hid ok => ?_)
    (fun {k t x} ht hne _ ok => ?_) hlisted (fun hk => ?_) fun _ _ _ _ hr => hr
  · refine ok.drop { c with place := .dropped } (fun _ hk => hk) rfl (.inl rfl) fun hk => ?_
    rw [hp] at hk; cases hk
  · have hn := h.not_listed hc hlisted ht hne
    have hsame : ({ t with aborted := t.aborted || decide (k ∈ c.tasks) } : Task) = t := by
      rw [decide_eq_false hn, Bool.or_false]
    rw [hsame]
    exact ok
  · cases hk

/-- A setup task spawns a task and awaits its readiness. -/
theorem spawn (h : TasksOK E T C) (hc : C.lookup id = some c) (hp : c.place.steady = true) (st : Stage) (q : Nat)
    (kind : TaskKind) :
    TasksOK E (T ++ [.new kind id]) (C.insert id { c with place := .setup st q (.awaiting T.length) }) := by
  obtain ⟨hw, hd⟩ := Place.awaits_of_steady hp
  refine ⟨fun {k t} ht => ?_, fun {j x k} hx hk => ?_, fun {j x k} hx hk => ?_⟩
  · rcases getElem?_append_cases ht with ⟨rfl, rfl⟩ | ht
    · refine ⟨_, by rw [Task.new, Table.lookup_insert, if_pos rfl], .awaited rfl, fun _ => rfl, ?_, ?_, ?_, ?_, ?_⟩
      · intro ha; cases ha
      · rintro (hpc | hpc) <;> cases hpc
      · intro _ hr; cases hr
      · intro _ hpc; cases hpc
      · intro _ hq; cases hq
    · obtain ⟨x, hx, ok⟩ := h.task ht
      rw [Table.lookup_insert]
      split
      next he =>
        rw [he, hc] at hx; cases hx
        refine ⟨_, rfl, { ok with fate := ?_, aborted := fun ha => absurd (ok.aborted ha) hd }⟩
        cases ok.fate with
        | listed hk _ => exact .listed hk (by simp)
        | aborted ha => exact .aborted ha
        | ended he => exact .ended he
        | awaited hk => rw [hw] at hk; cases hk
        | stranded hs => exact absurd hs.place hd
      · exact ⟨x, hx, ok⟩
  · have hold : ∃ t, T[k]? = some t ∧ t.id = j := by
      rcases Table.lookup_insert_cases hx with ⟨rfl, rfl⟩ | ⟨-, hx⟩
      · exact h.listed hc hk
      · exact h.listed hx hk
    obtain ⟨t, ht, hj⟩ := hold
    exact ⟨t, getElem?_append_of_some ht _, hj⟩
  · rcases Table.lookup_insert_cases hx with ⟨rfl, rfl⟩ | ⟨-, hx⟩
    · cases hk
      exact ⟨.new kind j, List.getElem?_concat_length, rfl, rfl⟩
    · obtain ⟨t, ht, hj, hr⟩ := h.awaits hx hk
      exact ⟨t, getElem?_append_of_some ht _, hj, hr⟩

/-- `Connection::new`. -/
theorem adapt (h : TasksOK E T C) (hn : C.lookup id = none) (ht' : c'.tasks = []) (hp' : c'.place.awaits = none) :
    TasksOK E T (C.insert id c') where
  task {k t} ht := by
    obtain ⟨x, hx, ok⟩ := h.task ht
    have hne : t.id ≠ id := fun he => by rw [he, hn] at hx; cases hx
    exact ⟨x, by rw [Table.lookup_insert, if_neg hne]; exact hx, ok⟩
  listed hx hk := by
    rcases Table.lookup_insert_cases hx with ⟨rfl, rfl⟩ | ⟨-, hx⟩
    · rw [ht'] at hk; cases hk
    · exact h.listed hx hk
  awaits hx hk := by
    rcases Table.lookup_insert_cases hx with ⟨rfl, rfl⟩ | ⟨-, hx⟩
    · rw [hp'] at hk; cases hk
    · exact h.awaits hx hk

/-- The setup task takes the task it awaited into the connection's list. -/
theorem adopt (h : TasksOK E T C) (hc : C.lookup id = some c) (ht : T[k]? = some t) (hw : c.place.awaits = some k)
    (ht' : c'.tasks = c.tasks ++ [k]) (hp' : c'.place.steady = true) {r : Remote}
    (hr : r = t.remote ∨ r = .passed ∧ t.kind ≠ .reader) :
    TasksOK E (T.set k { t with remote := r }) (C.insert id c') := by
  obtain ⟨hw', hd'⟩ := Place.awaits_of_steady hp'
  have hd : c.place ≠ .dropped := fun he => by rw [he] at hw; cases hw
  have hT : ∀ j, (T.set k { t with remote := r })[j]? =
      (T[j]?).map fun x => if k = j then { x with remote := r } else x := by
    intro j
    rw [getElem?_set ht]
    split
    next he => subst he; rw [ht]; rfl
    · simp
  refine h.update hc hT (fun j x => by split <;> rfl) (fun {j x} hx hid ok => ?_) (fun {j x y} hx hne hy ok => ?_)
    (fun j hj => ?_) (fun hk => ?_) fun {i y j x} hy hk hx hj hheld => ?_
  · have hlist : Fate c' j x → TaskOK E j x c' := fun hf =>
      { ok with fate := hf, aborted := fun ha => absurd (ok.aborted ha) hd }
    split
    next he =>
      subst he
      rw [ht] at hx; cases hx
      have ok' := hlist (.listed (by simp [ht']) hd')
      refine { ok' with
        fate := .listed (by simp [ht']) hd'
        held := fun he => ?_
        reader := fun hk h => ?_
        running := fun hk h => ?_ }
      · rcases hr with hr | ⟨hr, -⟩
        · exact ok.held (hr.symm.trans he)
        · cases hr.symm.trans he
      · rcases hr with hr | ⟨-, hn⟩
        · exact ok.reader hk (hr.symm.trans h)
        · exact absurd hk hn
      · rcases hr with hr | ⟨-, hn⟩
        · exact hr.trans (ok.running hk h)
        · exact absurd hk hn
    next hne =>
      refine hlist ?_
      cases ok.fate with
      | listed hk _ => exact .listed (by rw [ht']; exact List.mem_append_left _ hk) hd'
      | aborted ha => exact .aborted ha
      | ended he => exact .ended he
      | awaited hk => rw [hw] at hk; cases hk; exact absurd rfl hne
      | stranded hs => exact absurd hs.place hd
  · have hne' : k ≠ j := by
      rintro rfl
      rw [ht] at hx; cases hx
      obtain ⟨u, hu, huid, -⟩ := h.awaits hc hw
      rw [ht] at hu; cases hu
      exact hne huid
    rw [if_neg hne']
    exact ok
  · rw [ht'] at hj
    rcases List.mem_append.mp hj with hj | hj
    · exact .inl hj
    · rw [List.mem_singleton.mp hj]
      exact .inr hw
  · rw [hw'] at hk; cases hk
  · rcases Table.lookup_insert_cases hy with ⟨-, rfl⟩ | ⟨hne, hy⟩
    · rw [hw'] at hk; cases hk
    · have hne' : k ≠ j := by
        rintro rfl
        rw [ht] at hx; cases hx
        obtain ⟨u, hu, huid, -⟩ := h.awaits hc hw
        rw [ht] at hu; cases hu
        exact hne (hj.symm.trans huid)
      rw [if_neg hne']
      exact hheld

/-- One task goes on by itself. -/
theorem own (h : TasksOK E T C) (ht : T[k]? = some t) (hid : t'.id = t.id)
    (htask : ∀ {x}, C.lookup t.id = some x → TaskOK E k t x → TaskOK E k t' x)
    (hheld : t.remote = .held → t'.remote = .held) : TasksOK E (T.set k t') C := by
  have hT : ∀ j, (T.set k t')[j]? = (T[j]?).map fun x => if k = j then { t' with id := x.id } else x := by
    intro j
    rw [getElem?_set ht]
    split
    next he =>
      subst he
      rw [ht, Option.map_some, ← hid]
    · simp
  refine h.tasks hT (fun j x => by split <;> rfl) (fun {j x y} hx hy ok => ?_) fun {j x y} hx hy hk hr => ?_
  · split
    next he =>
      subst he
      rw [ht] at hx; cases hx
      rw [← hid]
      exact htask hy ok
    · exact ok
  · split
    next he =>
      subst he
      rw [ht] at hx; cases hx
      exact hheld hr
    · exact hr

/-- The sender of an inbound queue is dropped with its reader. -/
theorem closeInbound (h : TasksOK E T C) (id : Nat) : TasksOK E (closeInbound T id) C := by
  refine h.tasks (fun k => List.getElem?_map) (fun k t => by split <;> rfl) (fun {k t x} ht hx ok => ?_)
    fun {k t x} ht hx hk hr => ?_
  · split
    next hc =>
      refine ⟨ok.fate_of (fun h => h) (fun h => h) fun hr hq => ⟨rfl, hq⟩, fun hr => (by cases hr), ok.aborted, ok.cut,
        fun hk => ?_, fun hk => ?_, ok.processing⟩ <;>
        · rw [hc.2.1] at hk; cases hk
    · exact ok
  · rw [if_neg fun hc => by rw [hr] at hc; cases hc.2.2]
    exact hr

/-- The task is over. -/
theorem endTask (h : TasksOK E T C) (ht : T[k]? = some t) {pc : TaskPc} (hpc : pc.ended = true)
    (hcut : pc = .cancelled → t.aborted = true) : TasksOK E (endTask T k t pc) C := by
  have hset : TasksOK E (T.set k { t with pc := pc }) C := by
    refine h.own ht rfl (fun {x} hx ok => { ok with fate := .ended hpc, cut := ?_, running := fun _ hr => ?_ })
      fun hr => hr
    · rintro (he | he)
      · dsimp only at he; rw [he] at hpc; cases hpc
      · exact hcut he
    · dsimp only at hr; rw [hr] at hpc; cases hpc
  unfold Protocols.endTask
  dsimp only
  split
  · exact hset.closeInbound t.id
  · exact hset

/-- The conn-ready notification, after the insertion. -/
theorem notifyReady (h : TasksOK E T C) (hE : E id) (hw : ∀ {x}, C.lookup id = some x → x.place.awaits = none) :
    TasksOK E (notifyReady T id) C := by
  refine h.tasks (fun k => List.getElem?_map) (fun k t => by split <;> rfl) (fun {k t x} ht hx ok => ?_)
    fun {k t x} ht hx hk hr => ?_
  · split
    next hc =>
      obtain ⟨rfl, hkind, hheld⟩ := hc
      refine ⟨ok.fate_of (fun h => h) (fun h => h) fun hr _ => ?_, fun hr => (by cases hr), ok.aborted, ok.cut,
        fun _ _ => hE, fun _ _ => rfl, ok.processing⟩
      rw [hheld] at hr; cases hr
    · exact ok
  · rw [if_neg]
    · exact hr
    · rintro ⟨rfl, -⟩
      rw [hw hx] at hk; cases hk

/-- A message gets into an inbound queue. -/
theorem deliver (h : TasksOK E T C) (hE : E id) : TasksOK E (deliver T id) C := by
  refine h.tasks (fun k => List.getElem?_map) (fun k t => by split <;> rfl) (fun {k t x} ht hx ok => ?_)
    fun {k t x} ht hx hk hr => ?_
  · split
    next hc =>
      obtain ⟨rfl, hkind, hpassed⟩ := hc
      refine ⟨ok.fate_of (fun h => h) (fun h => h) fun hr _ => ?_, fun hr => ?_, ok.aborted, ok.cut, ok.reader,
        ok.running, fun _ _ => hE⟩
      · rw [hpassed] at hr; cases hr
      · dsimp only at hr; rw [hpassed] at hr; cases hr
    · exact ok
  · rw [if_neg fun hc => by rw [hr] at hc; cases hc.2.2]
    exact hr

end TasksOK

/-! ## Reachable states -/

section

variable {cfg : NodeConfig} {abortable : Bool} {s s' : State} {a : Act} {E : Nat → Prop}

theorem React.tasksOK {x : Hooks.Act} (hr : React s x s') (hk : KnownOK s) (h : TasksOK E s.tasks s.conns) :
    TasksOK E s'.tasks s'.conns := by
  cases hr with
  | adapt => exact h.adapt hk.fresh rfl rfl
  | refuse _ _ hc => exact h.dropped hc _ _
  | insert _ _ hc hp | remove _ _ hc hp => exact h.conn hc (.of_place rfl (by rw [hp]; rfl) rfl)
  | notifyDrain _ _ hc hp =>
    refine h.teardown hc ?_
    rcases hp with hp | hp <;> rw [hp] <;> rfl
  | _ => exact h

theorem DriverR.tasksOK {id : Nat} {c : Conn} {x : DriverAct} (hs : DriverR cfg abortable s id c x s')
    (hc : s.conns.lookup id = some c) (hD : DriversOK s) (hset : ∀ id, Entered s id → Settled s.conns id)
    (h : TasksOK (Entered s) s.tasks s.conns) : TasksOK (Entered s) s'.tasks s'.conns := by
  have hid : DriverOK s.node id (some c) := hc ▸ hD id
  cases hs with
  | lookup hpc =>
    obtain ⟨y, hy, -, -, hplace⟩ := hid.protocols (hid.pending rfl (by simp [hpc]) (by simp [hpc]))
    cases hy
    exact h.conn hc (.of_place rfl (by rw [hplace (by rw [hpc]; rfl)]; rfl) rfl)
  | respond _ hp => exact h.conn hc (.of_place rfl (by rw [hp]; rfl) rfl)
  | sendFailed | cancelSending | cancelReply => exact h.dropped hc _ _
  | skip | failed | noResponse | closing | graceExpired | cancelWaiting => exact h.conn hc ⟨rfl, rfl, .rfl⟩
  | @ready t sched ht hpc =>
    have hin : Entered s id := .of_getElem? ht (by rw [Setup.enteredId, hpc]; rfl)
    refine h.notifyReady hin fun {x} hx => ?_
    obtain ⟨y, hy, hp⟩ := hset id hin
    rw [hx] at hy; cases hy
    generalize x.place = place at hp
    cases place <;> first | rfl | cases hp

theorem SetupR.tasksOK {id : Nat} {c : Conn} {st : Stage} {q : Nat} {pc : SetupTaskPc} {x : SetupAct}
    (hs : SetupR s id c st q pc x s') (hc : s.conns.lookup id = some c) (hp : c.place = .setup st q pc)
    (h : TasksOK E s.tasks s.conns) : TasksOK E s'.tasks s'.conns := by
  -- the connection is given back, or dropped with the response
  have giveBack : ∀ {r : State} {c₁ : Conn}, TasksOK E r.tasks (r.conns.insert id { c₁ with place := .reply }) →
      TasksOK E (r.giveBack id c₁ st q).tasks (r.giveBack id c₁ st q).conns := by
    intro r c₁ hr
    rcases r.giveBack_cases id c₁ st q with ⟨-, he⟩ | he
    · rw [he]; exact hr
    · rw [he]
      have hdrop := hr.dropped (Finmap.lookup_insert _) c₁.pc c₁.error
      rw [Finmap.insert_insert] at hdrop
      exact hdrop
  cases hs with
  | shake => exact h.conn hc (.of_place rfl (by rw [hp]; rfl) rfl)
  | panic | fail => exact h.dropped hc _ _
  | shaken => exact giveBack (h.conn hc (.of_place rfl (by rw [hp]; rfl) rfl))
  | spawn => exact h.spawn hc (by rw [hp]; rfl) st q _
  | @spawnReader k t ht hk =>
    have hadopt : TasksOK E (s.tasks.set k { t with remote := .passed })
        (s.conns.insert id { c with tasks := c.tasks ++ [k], place := .reply }) :=
      h.adopt hc ht (by rw [hp]; rfl) rfl rfl (.inr ⟨rfl, by simp [hk]⟩)
    have hspawn := hadopt.spawn (Finmap.lookup_insert _) rfl st q .reader
    rw [Finmap.insert_insert, List.length_set] at hspawn
    exact hspawn
  | @returnReading k t l ht hk htpc hl =>
    refine giveBack ?_
    have hadopt : TasksOK E (s.tasks.set k t) (s.conns.insert id { c with tasks := c.tasks ++ [k], place := .reply }) :=
      h.adopt hc ht (by rw [hp]; rfl) rfl rfl (.inl rfl)
    rw [set_self ht] at hadopt
    exact hadopt
  | @returnWriting k t l ht hk htpc hl =>
    exact giveBack (h.adopt hc ht (by rw [hp]; rfl) rfl rfl (.inr ⟨rfl, by simp [hk]⟩))

theorem TaskR.tasksOK {k : Handle} {t : Task} {x : TaskAct} (hs : TaskR cfg abortable s k t x s')
    (ht : s.tasks[k]? = some t) (h : TasksOK E s.tasks s.conns) : TasksOK E s'.tasks s'.conns := by
  obtain ⟨c, hc, ok⟩ := h.task ht
  -- a task that is not over gets to `pc`
  have goto : ∀ {pc : TaskPc}, t.pc.ended = false → (pc = .cut ∨ pc = .cancelled → t.aborted = true) →
      (t.kind = .reader → pc = .running → t.remote = .passed) →
      TasksOK E (s.tasks.set k { t with pc := pc }) s.conns := by
    intro pc hpc hcut hrun
    refine h.own ht rfl (fun {x} hx ok => ?_) fun hr => hr
    refine { ok with
      fate := ok.fate_of (fun h => h) (fun h => ?_) fun hr hq => ⟨hr, hq⟩
      cut := hcut
      running := hrun }
    rw [hpc] at h; cases h
  -- a message leaves its queue
  have dequeue : 0 < t.queue → TasksOK E (s.tasks.set k { t with queue := t.queue - 1 }) s.conns := by
    intro hq
    refine h.own ht rfl (fun {x} hx ok => ?_) fun hr => hr
    exact { ok with
      fate := ok.fate_of (fun h => h) (fun h => h) fun hr hz => ⟨hr, by rw [hz]⟩
      held := fun hr => by rw [ok.held hr]
      processing := fun hk _ => ok.processing hk hq }
  cases hs with
  | start hpc =>
    refine goto (by rw [hpc]; rfl) (fun h => ?_) fun hk h => ?_
    · split at h <;> rcases h with h | h <;> cases h
    · rw [if_pos hk] at h; cases h
  | startFailed | connGone | left => exact h.endTask ht rfl fun h => by cases h
  | connReady hpc hr =>
    exact goto (by rw [hpc]; rfl) (fun h => by rcases h with h | h <;> cases h) fun _ _ => hr
  | read => exact h
  | decode hk hpc => exact h.deliver (ok.reader hk (ok.running hk hpc))
  | process _ _ hq | write _ _ hq => exact dequeue hq
  | queueMessage hk hr =>
    refine h.own ht rfl (fun {x} hx ok => ?_) fun hr => hr
    refine { ok with
      fate := ok.fate_of (fun h => h) (fun h => h) fun hd _ => ?_
      held := fun hd => ?_
      processing := fun hp _ => ?_ }
    · rw [hr] at hd; cases hd
    · dsimp only at hd; rw [hr] at hd; cases hd
    · dsimp only at hp; rw [hk] at hp; cases hp
  | unpublish hk hr =>
    refine h.own ht rfl (fun {x} hx ok => ?_) fun hd => ?_
    · refine { ok with
        fate := ok.fate_of (fun h => h) (fun h => h) fun _ hq => ⟨rfl, hq⟩
        held := fun hd => by cases hd
        reader := fun hp _ => ?_
        running := fun hp _ => ?_ } <;>
        · dsimp only at hp; rw [hk] at hp; cases hp
    · rw [hr] at hd; cases hd
  | leave hpc =>
    exact goto (by rw [hpc]; rfl) (fun h => by rcases h with h | h <;> cases h) fun _ h => by cases h
  | cutEarly ha => exact h.endTask ht rfl fun _ => ha
  | cut ha hpc => exact goto (by rw [hpc]; rfl) (fun _ => ha) fun _ h => by cases h
  | cutOff hpc => exact h.endTask ht rfl fun _ => ok.cut (.inl hpc)

theorem StepR.tasksOK (hs : StepR cfg abortable s a s') (hP : PlacesOK s)
    (hset : ∀ id, Entered s id → Settled s.conns id) (h : TasksOK (Entered s) s.tasks s.conns) :
    TasksOK (Entered s') s'.tasks s'.conns := by
  refine TasksOK.mono (E := Entered s) ?_ fun id => hs.entered_kept
  cases hs with
  | base hb hf => exact (react_cases hP.drivers hb hf).tasksOK hP.known h
  | receive hl hq _ hi hc =>
    obtain ⟨hplace, -⟩ := hP.requests.receive_cases (HandlerLoop.step_sound hl) hq hi hc
    exact h.conn hc (.of_place rfl (by rw [hplace]; rfl) rfl)
  | release _ _ _ _ _ hc | dropItem _ _ _ _ hc => exact h.dropped hc _ _
  | driver hc hd => exact hd.tasksOK hc hP.drivers hset h
  | setup hc hp hd => exact hd.tasksOK hc hp h
  | task ht hd => exact hd.tasksOK ht h
  | loop | dropLoop | panicLoop | hookPanic | hookGuard => exact h

theorem tasksOK_reachable (h : (protocols cfg abortable).Reachable s) : TasksOK (Entered s) s.tasks s.conns := by
  refine h.invariant (P := fun s => TasksOK (Entered s) s.tasks s.conns) ?_ fun {s s' a} hr ih _ hs => ?_
  · refine ⟨fun ht => ?_, fun hc => ?_, fun hc => ?_⟩
    · cases ht
    · cases hc
    · cases hc
  · exact (step_sound hs).tasksOK (placesOK_reachable hr) (settled_reachable hr) ih

/-! ## No orphaned task -/

/-- Out of its loop: over, or with only its `DisconnectOnDrop` to drop. -/
def TaskPc.out : TaskPc → Bool
  | .leaving | .cut | .finished | .cancelled => true
  | _ => false

/-- The task `k`, which is `t`, has nothing left to wait for: the other end
of its wait is dropped and its queue empty. It can go on, and whatever it
does next takes it out of its loop without a read or a write. -/
structure Doomed (cfg : NodeConfig) (abortable : Bool) (s : State) (k : Handle) (t : Task) : Prop where
  remote : t.remote = .dropped
  queue : t.queue = 0
  enabled : t.pc.out = false → ∃ a s', (protocols cfg abortable).step s (.task k a) = some s'
  next : ∀ a s', (protocols cfg abortable).step s (.task k a) = some s' →
    s'.log = s.log ∧ ∃ t', s'.tasks[k]? = some t' ∧ t'.pc.out = true

theorem endTask_get {T : List Task} {k : Handle} {t : Task} (ht : T[k]? = some t) {pc : TaskPc} (hpc : pc.out = true) :
    ∃ t', (endTask T k t pc)[k]? = some t' ∧ t'.pc.out = true := by
  have hset : (T.set k { t with pc := pc })[k]? = some { t with pc := pc } := by rw [getElem?_set ht, if_pos rfl]
  unfold endTask
  dsimp only
  split
  · refine ⟨_, by rw [closeInbound, List.getElem?_map, hset]; rfl, ?_⟩
    dsimp only
    split <;> exact hpc
  · exact ⟨_, hset, hpc⟩

theorem doomed_of_stranded {c : Conn} {k : Handle} {t : Task} (ht : s.tasks[k]? = some t)
    (hc : s.conns.lookup t.id = some c) (ok : TaskOK E k t c) (h : Stranded c t) : Doomed cfg abortable s k t where
  remote := h.remote
  queue := h.queue
  enabled hpc := by
    have hstep : ∃ x s', stepTask cfg abortable s k t x = some s' := by
      cases hp : t.pc with
      | starting =>
        refine ⟨.start, ?_⟩
        simp only [stepTask, hp, if_true]
        split <;> exact ⟨_, rfl⟩
      | waiting => exact ⟨.connReady, _, by simp only [stepTask, hp, if_true, h.remote]; rfl⟩
      | running => exact ⟨.leave, _, by simp only [stepTask, hp, if_true]; rfl⟩
      | leaving | cut | finished | cancelled => rw [hp] at hpc; cases hpc
    obtain ⟨x, s', hx⟩ := hstep
    exact ⟨x, s', by simp [protocols, step, ht, hx]⟩
  next a s' hs := by
    have hempty : ¬ 0 < t.queue := by rw [h.queue]; exact Nat.lt_irrefl 0
    have hclosed : t.remote ≠ .passed := by rw [h.remote]; simp
    -- neither the conn-ready notification nor a reader's own can have come
    have hidle : t.kind = .reader → t.pc ≠ .running := fun hk hpc => hclosed (ok.running hk hpc)
    have hset : ∀ {pc : TaskPc}, pc.out = true →
        ∃ t', (s.tasks.set k { t with pc := pc })[k]? = some t' ∧ t'.pc.out = true := fun hpc =>
      ⟨_, by rw [getElem?_set ht, if_pos rfl], hpc⟩
    have hstep : StepR cfg abortable s (.task k a) s' := step_sound hs
    cases hstep with
    | @task _ u _ _ hu hx =>
      rw [ht] at hu; cases hu
      cases hx with
      | start _ ha =>
        simp [State.awaited, hc, h.place, Place.awaits] at ha
      | startFailed | connGone | cutEarly | left | cutOff => exact ⟨rfl, endTask_get ht rfl⟩
      | connReady _ hr | queueMessage _ hr | unpublish _ hr => exact absurd hr hclosed
      | read hk hpc | decode hk hpc => exact absurd hpc (hidle hk)
      | process _ _ hq | write _ _ hq => exact absurd hq hempty
      | leave | cut => exact ⟨rfl, hset rfl⟩

/-- Connection `id`, which is `c`, is with the setup that drives it, in a
request, a setup task or a response slot, or in `active`. -/
def Present (s : State) (id : Nat) (c : Conn) : Prop :=
  c.place = .driver ∨ c.place.transit = true ∨ c.place = .active ∧ InActive s.node.active id

/-- A disconnect has taken it out of `active`, and has yet to drop it. -/
def TakenOut (s : State) (id : Nat) (c : Conn) : Prop := c.place = .removed ∧ RemovedAt s.node.discs id

/-- The task `k`, which is `t`, is in the list of a connection that is
`There`, aborted or over, awaited by the setup task that spawned it, or at the
end of its waits. -/
def Accounted (cfg : NodeConfig) (abortable : Bool) (There : State → Nat → Conn → Prop) (s : State) (k : Handle)
    (t : Task) : Prop :=
  ∃ c, s.conns.lookup t.id = some c ∧
    ((k ∈ c.tasks ∧ There s t.id c) ∨ (t.aborted = true ∨ t.pc = .finished ∨ t.pc = .cancelled) ∨
      (∃ st q, c.place = .setup st q (.awaiting k)) ∨ Doomed cfg abortable s k t)

theorem DriverOK.there {id : Nat} {c : Conn} (h : DriverOK s.node id (some c)) (hp : c.place ≠ .dropped) :
    Present s id c ∨ TakenOut s id c := by
  cases hplace : c.place with
  | driver => exact .inl (.inl hplace)
  | request | setup | reply => exact .inl (.inr (.inl (by rw [hplace]; rfl)))
  | active => exact .inl (.inr (.inr ⟨hplace, h.inActive rfl hplace⟩))
  | removed => exact .inr ⟨hplace, h.removedAt rfl hplace⟩
  | dropped => exact absurd hplace hp

/-- In every reachable state each task is accounted for, by a connection that
is still there or that a disconnect is about to drop. -/
theorem no_orphaned_task (cfg : NodeConfig) (abortable : Bool) (s : State) (h : (protocols cfg abortable).Reachable s)
    (k : Handle) (t : Task) (ht : s.tasks[k]? = some t) :
    Accounted cfg abortable (fun s id c => Present s id c ∨ TakenOut s id c) s k t := by
  obtain ⟨c, hc, ok⟩ := (tasksOK_reachable h).task ht
  have hid : DriverOK s.node t.id (some c) := hc ▸ (placesOK_reachable h).drivers t.id
  refine ⟨c, hc, ?_⟩
  cases ok.fate with
  | listed hk hp => exact .inl ⟨hk, hid.there hp⟩
  | aborted ha => exact .inr (.inl (.inl ha))
  | ended he =>
    refine .inr (.inl (.inr ?_))
    generalize t.pc = pc at he
    cases pc <;> first | exact .inl rfl | exact .inr rfl | cases he
  | awaited hw =>
    refine .inr (.inr (.inl ?_))
    unfold Place.awaits at hw
    split at hw
    next st q _ hp => cases hw; exact ⟨st, q, hp⟩
    · cases hw
  | stranded hs => exact .inr (.inr (.inr (doomed_of_stranded ht hc ok hs)))

/-- `enable_*` for the protocol `kind`, as the call `c`. -/
def enableRun (kind : Shutdown.NodeTask) (c : Nat) : List Act :=
  [.enable kind, .install c, .lockTasks c, .checkFlag c, .registerTask c, .publish c].map fun x => .base (.base x)

/-- The same for a setup protocol, and the first poll of its handler's loop. -/
def enableSetupRun (st : Stage) (c : Nat) : List Act := enableRun st.kind c ++ [.loop st .subscribe]

/-- A `connect` to `addr`, as the setup `i`, up to its `Connection`. -/
def connectRun (addr : SocketAddr) (i : Nat) : List Act :=
  [.connect addr, .start i, .checkConnected i, .acquire i, .reserve i, .adapt i].map fun x => .base (.base (.base x))

/-- Request `q` gets to its handler's loop, which spawns its setup task. -/
def setupRun (st : Stage) (q : Nat) : List Act :=
  [.acquire q, .write q, .joinNone, .pollRecv].map (.loop st)

/-- A `shut_down`, as the call `n`, of a node that is not connected, up to
the handlers' signal. -/
def signalRun (n : Nat) : List Act :=
  [.shutDown, .begin n, .takeTasks n, .snapshot n [], .fannedOut n, .enableWaiter n, .check n, .enableWaiter n,
    .check n, .signalHandlers n true].map fun x => .base (.base x)

/-- The setup task of Reading is aborted by a shutdown while it awaits the
readiness of the processing task, which has just signaled it. -/
def strandedRun : List Act := List.flatten
  [enableSetupRun .reading 0, connectRun peer 0, [.driver 0 .lookup, .driver 0 .lookup], setupRun .reading 0,
    [.setup 0 .spawnProcessing, .task 0 .start], signalRun 0,
    [.joinNone, .pollRecv, .pollShutdown, .joinNone, .pollRecv, .dropTasks, .cancelTask 0].map (.loop .reading)]

theorem no_orphaned_task_stranded : ∃ s t, (protocols threeSlots true).Reachable s ∧ s.tasks[0]? = some t ∧
    t.kind = .processing ∧ t.pc = .running ∧ Doomed threeSlots true s 0 t := by
  obtain ⟨s, hs, hp⟩ := (protocols threeSlots true).exists_reachable strandedRun
    (fun s => s.tasks = [⟨.processing, 0, .running, false, .dropped, 0⟩] ∧
      (s.conns.lookup 0).map (·.place) = some .dropped) (by decide +kernel)
  obtain ⟨htasks, hplace⟩ := of_decide_eq_true hp
  refine ⟨s, ⟨.processing, 0, .running, false, .dropped, 0⟩, hs, by rw [htasks]; rfl, rfl, rfl, ?_⟩
  obtain ⟨c, hc, hfate⟩ := no_orphaned_task threeSlots true s hs 0 _ (by rw [htasks]; rfl)
  rw [hc, Option.map_some, Option.some.injEq] at hplace
  rcases hfate with ⟨-, (hp | hp | ⟨hp, -⟩) | ⟨hp, -⟩⟩ | (ha | hpc | hpc) | ⟨st, q, hw⟩ | hd
  · rw [hp] at hplace; cases hplace
  · rw [hplace] at hp; cases hp
  · rw [hp] at hplace; cases hplace
  · rw [hp] at hplace; cases hplace
  · cases ha
  · cases hpc
  · cases hpc
  · rw [hw] at hplace; cases hplace
  · exact hd

/-- A connection with a writer is removed from `active` by `disconnect`,
which has yet to drop it. -/
def takenOutRun : List Act := List.flatten
  [enableSetupRun .writing 0, connectRun peer 0, [.driver 0 .lookup, .driver 0 .lookup, .driver 0 .lookup],
    setupRun .writing 0, [.setup 0 .spawnWriter, .task 0 .start, .setup 0 .returnWriting, .driver 0 .respond],
    [.wired 0, .lockActive 0, .checkFlag 0, .insert 0 [], .dropGuard 0, .disconnect peer .user none,
      .claim 0].map fun x => .base (.base (.base x)),
    [.base (.trigger .disconnect 0), .base (.base (.base (.finalize 0))), .base (.base (.base (.remove 0)))]]

/-- Between the removal of the connection and its drop its writer still runs. -/
theorem writer_outlives_removal : ∃ s t, (protocols threeSlots true).Reachable s ∧ s.tasks[0]? = some t ∧
    ¬ Accounted threeSlots true Present s 0 t := by
  obtain ⟨s, hs, hp⟩ := (protocols threeSlots true).exists_reachable takenOutRun
    (fun s => s.tasks = [⟨.writer, 0, .running, false, .passed, 0⟩] ∧
      (s.conns.lookup 0).map (·.place) = some .removed) (by decide +kernel)
  obtain ⟨htasks, hplace⟩ := of_decide_eq_true hp
  refine ⟨s, ⟨.writer, 0, .running, false, .passed, 0⟩, hs, by rw [htasks]; rfl, ?_⟩
  rintro ⟨c, hc, hfate⟩
  rw [hc, Option.map_some, Option.some.injEq] at hplace
  rcases hfate with ⟨-, hp | hp | ⟨hp, -⟩⟩ | (ha | hpc | hpc) | ⟨st, q, hw⟩ | hd
  · rw [hp] at hplace; cases hplace
  · rw [hplace] at hp; cases hp
  · rw [hp] at hplace; cases hplace
  · cases ha
  · cases hpc
  · cases hpc
  · rw [hw] at hplace; cases hplace
  · cases hd.remote

end

end Pea2Pea.Protocols
