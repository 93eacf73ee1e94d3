/-
Connections and who drives them, in every reachable state: a setup in
`enable_protocols` or on its way through `add` has its connection at hand
unless a request does, and a connection is in `active`, or with the disconnect
that took it out, exactly when it is nowhere else.
-/
import Pea2Pea.Hands
import Pea2Pea.ProtocolsFacts

namespace Pea2Pea

open Pool

namespace Protocols

/-! ## The hooks' steps -/

section

variable {cfg : NodeConfig} {abortable : Bool} {b b' : Hooks.State}

/-- The lifecycle's step in a step of the hooks' system. -/
theorem hooks_node {y : Pea2Pea.Act} (h : Hooks.step cfg abortable b (.base (.base y)) = some b') :
    Pea2Pea.StepR cfg b.base.base y b'.base.base := by
  cases Hooks.step_sound h with
  | base hb =>
    cases Shutdown.step_sound hb with
    | base hy => exact Pea2Pea.step_sound hy

/-- The other steps leave connections in the hands they are in. -/
theorem hooks_sameHands {x : Hooks.Act} (hL : LedgerOK b.base.base) (h : Hooks.step cfg abortable b x = some b')
    (hx : ∀ y, x ≠ .base (.base y)) (id : Nat) : SameHands id b.base.base b'.base.base := by
  rcases (Hooks.step_sound h).base_move with ⟨c, hm, hc, -⟩ | ⟨he, -⟩
  · have hlife : ∀ y, c = .base y → ¬ Handover b.base.base y id := by
      rintro y rfl hy
      cases hm with
      | base => exact hx _ rfl
      | attach | register | cancelDisc => cases hy
    rcases hc.lifecycle with ⟨y, rfl, hy⟩ | hq
    · exact (hy.sameHands hL id).resolve_left (hlife y rfl)
    · exact .of_quiet hq id
  · rw [he]; exact .refl id _

/-- What a step of the hooks' system is in the lifecycle. -/
theorem hooks_lifecycle {x : Hooks.Act} (h : Hooks.step cfg abortable b x = some b') :
    (∃ y, Pea2Pea.StepR cfg b.base.base y b'.base.base) ∨ Shutdown.Quiet b.base.base b'.base.base := by
  rcases (Hooks.step_sound h).base_move with ⟨c, -, hc, -⟩ | ⟨he, -⟩
  · rcases hc.lifecycle with ⟨y, -, hy⟩ | hq
    · exact .inl ⟨y, hy⟩
    · exact .inr hq
  · rw [he]
    exact .inr (.refl _)

theorem hooks_nextId {x : Hooks.Act} (h : Hooks.step cfg abortable b x = some b') :
    b.base.base.nextId ≤ b'.base.base.nextId := by
  have below : ∀ {r r' : Shutdown.State} {c}, Shutdown.StepR cfg r c r' → r.base.nextId ≤ r'.base.nextId := by
    intro r r' c hc
    cases hc with
    | base hb => exact (Pea2Pea.step_sound hb).nextId_le
    | publish => dsimp only; split <;> exact Nat.le_refl _
    | _ => exact Nat.le_refl _
  rcases (Hooks.step_sound h).base_move with ⟨c, -, hc, -⟩ | ⟨he, -⟩
  · exact below hc
  · rw [he]

end

/-! ## The invariant -/

/-- Connection `id`, which is `c` if it was ever there, and who has it. -/
structure DriverOK (b : Pea2Pea.State) (id : Nat) (c : Option Conn) : Prop where
  protocols : ∀ {i : Nat}, PhaseAt b.setups i false id →
    ∃ x, c = some x ∧ x.driver = i ∧ x.pc ≠ .over ∧ (x.pc.request = none → x.place = .driver)
  adding : ∀ {i : Nat}, PhaseAt b.setups i true id → ∃ x, c = some x ∧ x.place = .driver
  pending : ∀ {x : Conn}, c = some x → x.pc ≠ .through → x.pc ≠ .over → PhaseAt b.setups x.driver false id
  active : InActive b.active id → ∃ x, c = some x ∧ x.place = .active
  removed : RemovedAt b.discs id → ∃ x, c = some x ∧ (x.place = .removed ∨ x.place = .dropped)
  inActive : ∀ {x : Conn}, c = some x → x.place = .active → InActive b.active id
  removedAt : ∀ {x : Conn}, c = some x → x.place = .removed → RemovedAt b.discs id

/-- A connection goes on in the same hands. -/
structure Kept (c c' : Conn) : Prop where
  driver : c'.driver = c.driver
  live : c.pc ≠ .over → c'.pc ≠ .over
  pending : c'.pc ≠ .through → c'.pc ≠ .over → c.pc ≠ .through ∧ c.pc ≠ .over
  back : c'.pc.request = none → c'.place = .driver ∨ c.pc.request = none
  home : c.place = .driver → c'.place = .driver
  active : c.place = .active → c'.place = .active
  removed : c.place = .removed ∨ c.place = .dropped → c'.place = .removed ∨ c'.place = .dropped
  inActive : c'.place = .active → c.place = .active
  removedAt : c'.place = .removed → c.place = .removed

/-- Between its driver's hands: in a request, a setup task, or a response. -/
def Place.transit : Place → Bool
  | .request _ _ | .setup _ _ _ | .reply => true
  | _ => false

theorem Kept.of_transit {c c' : Conn} (h : c.place.transit = true) (hd : c'.driver = c.driver) (hpc : c'.pc = c.pc)
    (hp' : c'.place ≠ .active ∧ c'.place ≠ .removed) : Kept c c' where
  driver := hd
  live hn := by rw [hpc]; exact hn
  pending ht hn := by rw [hpc] at ht hn; exact ⟨ht, hn⟩
  back hn := by rw [hpc] at hn; exact .inr hn
  home hp := by rw [hp] at h; cases h
  active hp := by rw [hp] at h; cases h
  removed hp := by rcases hp with hp | hp <;> · rw [hp] at h; cases h
  inActive hp := absurd hp hp'.1
  removedAt hp := absurd hp hp'.2

theorem Hand.At.transit {hand : Hand} {st : Stage} {q : Nat} {place : Place} (h : hand.At st q place) :
    place.transit = true := by
  cases hand with
  | channel => cases h; rfl
  | task => obtain ⟨pc, rfl⟩ := h; rfl

theorem DriverPc.request_ne {pc : DriverPc} {r : Stage × Nat} (h : pc.request = some r) :
    pc ≠ .through ∧ pc ≠ .over := by
  cases pc <;> simp_all [DriverPc.request]

namespace DriverOK

variable {cfg : NodeConfig} {b b' : Pea2Pea.State} {id : Nat} {c c' : Conn} {o : Option Conn}

theorem same (h : DriverOK b id o) (hs : SameHands id b b') : DriverOK b' id o where
  protocols hp := h.protocols ((hs.phase _ _).mp hp)
  adding hp := h.adding ((hs.phase _ _).mp hp)
  pending hx ht hn := (hs.phase _ _).mpr (h.pending hx ht hn)
  active hin := h.active (hs.active.mp hin)
  removed hrem := h.removed (hs.removed.mp hrem)
  inActive hx hp := hs.active.mpr (h.inActive hx hp)
  removedAt hx hp := hs.removed.mpr (h.removedAt hx hp)

theorem conn (h : DriverOK b id (some c)) (hk : Kept c c') : DriverOK b id (some c') where
  protocols hp := by
    obtain ⟨x, hx, hd, hpc, hreq⟩ := h.protocols hp
    cases hx
    exact ⟨c', rfl, hk.driver.trans hd, hk.live hpc,
      fun hn => (hk.back hn).elim (fun hc => hc) fun hn => hk.home (hreq hn)⟩
  adding hp := by
    obtain ⟨x, hx, hplace⟩ := h.adding hp
    cases hx
    exact ⟨c', rfl, hk.home hplace⟩
  pending hx ht hn := by
    cases hx
    obtain ⟨ht, hn⟩ := hk.pending ht hn
    rw [hk.driver]
    exact h.pending rfl ht hn
  active hin := by
    obtain ⟨x, hx, hplace⟩ := h.active hin
    cases hx
    exact ⟨c', rfl, hk.active hplace⟩
  removed hrem := by
    obtain ⟨x, hx, hplace⟩ := h.removed hrem
    cases hx
    exact ⟨c', rfl, hk.removed hplace⟩
  inActive hx hp := by cases hx; exact h.inActive rfl (hk.inActive hp)
  removedAt hx hp := by cases hx; exact h.removedAt rfl (hk.removedAt hp)

/-- Nobody but the setup in `enable_protocols` has the connection. -/
theorem exclusive (h : DriverOK b id (some c)) (hn : c.pc.request = none) {i : Nat} (hp : PhaseAt b.setups i false id) :
    ¬ InActive b.active id ∧ ¬ RemovedAt b.discs id := by
  obtain ⟨x, hx, -, -, hplace⟩ := h.protocols hp
  cases hx
  have hplace := hplace hn
  refine ⟨fun hin => ?_, fun hrem => ?_⟩
  · obtain ⟨x, hx, hact⟩ := h.active hin
    cases hx
    rw [hplace] at hact; cases hact
  · obtain ⟨x, hx, hout⟩ := h.removed hrem
    cases hx
    rw [hplace] at hout
    rcases hout with hout | hout <;> cases hout

/-- The connection goes with a request. -/
theorem request (h : DriverOK b id (some c)) (hL : LedgerOK b) {st : Stage} (hpc : c.pc = .before st)
    (hd : c'.driver = c.driver) (hpc' : c'.pc.request ≠ none) (hp' : c'.place ≠ .active ∧ c'.place ≠ .removed) :
    DriverOK b id (some c') := by
  have hp : PhaseAt b.setups c.driver false id := h.pending rfl (by simp [hpc]) (by simp [hpc])
  obtain ⟨hin, hrem⟩ := h.exclusive (by rw [hpc]; rfl) hp
  refine ⟨fun hq => ?_, fun hq => ?_, fun hx _ _ => ?_, fun hq => absurd hq hin, fun hq => absurd hq hrem,
    fun hx hq => ?_, fun hx hq => ?_⟩
  · obtain ⟨x, hx, hdrv, -⟩ := h.protocols hq
    cases hx
    refine ⟨c', rfl, hd.trans hdrv, fun he => ?_, fun hn => absurd hn hpc'⟩
    rw [he] at hpc'; exact hpc' rfl
  · exact absurd (hL.phase_unique hp hq).2 (by simp)
  · cases hx
    rw [hd]; exact hp
  · cases hx; exact absurd hq hp'.1
  · cases hx; exact absurd hq hp'.2

/-- The driver fails in `enable_protocols`, or is dropped there, with the
connection or while that is with others. -/
theorem fail (h : DriverOK b id (some c)) (hL : LedgerOK b) (hpc : c.pc ≠ .through) (hpc₂ : c.pc ≠ .over)
    (hs : Pea2Pea.StepR cfg b (.fail c.driver) b')
    (hp' : c'.place = c.place ∨ c.place.transit = true ∧ c'.place = .dropped) (hpc' : c'.pc = .over) :
    DriverOK b' id (some c') := by
  obtain ⟨t, ht, hphase⟩ := h.pending rfl hpc hpc₂
  have hset : b'.setups = b.setups.set c.driver { t with pc := .unwinding } ∧ b'.active = b.active ∧
      b'.discs = b.discs := by
    cases hs with
    | failDialing hu | failProtocols hu =>
      rw [ht] at hu; cases hu
      exact ⟨rfl, rfl, rfl⟩
  obtain ⟨hS, hA, hD⟩ := hset
  have hgone : ∀ {i ph}, ¬ PhaseAt b'.setups i ph id := by
    intro i ph hp
    rw [hS] at hp
    cases (hL.phase_set ht hphase hp).2
  refine ⟨fun hp => absurd hp hgone, fun hp => absurd hp hgone, fun hx _ hn => ?_, fun hin => ?_, fun hrem => ?_,
    fun hx hp => ?_, fun hx hp => ?_⟩
  · cases hx; exact absurd hpc' hn
  · obtain ⟨x, hx, hplace⟩ := h.active (hA ▸ hin)
    cases hx
    rcases hp' with hp' | ⟨htr, -⟩
    · exact ⟨c', rfl, hp'.trans hplace⟩
    · rw [hplace] at htr; cases htr
  · obtain ⟨x, hx, hplace⟩ := h.removed (hD ▸ hrem)
    cases hx
    rcases hp' with hp' | ⟨-, hp'⟩
    · exact ⟨c', rfl, hp' ▸ hplace⟩
    · exact ⟨c', rfl, .inr hp'⟩
  · cases hx
    rcases hp' with hp' | ⟨-, hp'⟩
    · exact hA ▸ h.inActive rfl (hp' ▸ hp)
    · rw [hp'] at hp; cases hp
  · cases hx
    rcases hp' with hp' | ⟨-, hp'⟩
    · exact hD ▸ h.removedAt rfl (hp' ▸ hp)
    · rw [hp'] at hp; cases hp

/-- `Connection::new`. -/
theorem adapt {i : Nat} {t : Setup} (h : DriverOK b id none) (ht : b.setups[i]? = some t)
    (hS : b'.setups = b.setups.set i { t with pc := .protocols id }) (hA : b'.active = b.active)
    (hD : b'.discs = b.discs) (hd : c.driver = i) {st : Stage} (hc : c.pc = .before st) (hp : c.place = .driver) :
    DriverOK b' id (some c) := by
  have hold : ∀ {j ph}, ¬ PhaseAt b.setups j ph id := by
    rintro j (_ | _) hq
    · obtain ⟨x, hx, -⟩ := h.protocols hq; cases hx
    · obtain ⟨x, hx, -⟩ := h.adding hq; cases hx
  have hnew : ∀ {j ph}, PhaseAt b'.setups j ph id → j = i ∧ ph = false := by
    intro j ph hq
    rw [hS, phaseAt_set ht] at hq
    split at hq
    next he => cases hq; exact ⟨he.symm, rfl⟩
    · exact absurd hq hold
  refine ⟨fun hq => ⟨c, rfl, hd.trans (hnew hq).1.symm, by simp [hc], fun _ => hp⟩, fun hq => ?_, fun hx _ _ => ?_,
    fun hin => ?_, fun hrem => ?_, fun hx hq => ?_, fun hx hq => ?_⟩
  · cases (hnew hq).2
  · cases hx
    rw [hS, hd]
    exact ⟨_, by rw [getElem?_set ht, if_pos rfl], rfl⟩
  · obtain ⟨x, hx, -⟩ := h.active (hA ▸ hin); cases hx
  · obtain ⟨x, hx, -⟩ := h.removed (hD ▸ hrem); cases hx
  · cases hx; rw [hp] at hq; cases hq
  · cases hx; rw [hp] at hq; cases hq

/-- `enable_protocols` returns. -/
theorem wired {i : Nat} {t : Setup} {sched : Bool} (h : DriverOK b id (some c)) (hL : LedgerOK b)
    (ht : b.setups[i]? = some t) (hpc : t.pc = .protocols id)
    (hS : b'.setups = b.setups.set i { t with pc := .ready id sched }) (hA : b'.active = b.active)
    (hD : b'.discs = b.discs) (hc : c.pc = .through) : DriverOK b' id (some c) := by
  have hphase : t.pc.phase = some (false, id) := by rw [hpc]; rfl
  have hnew : ∀ {j ph}, PhaseAt b'.setups j ph id → ph = true := by
    intro j ph hq
    rw [hS] at hq
    cases (hL.phase_set ht hphase hq).2
    rfl
  refine ⟨fun hq => ?_, fun hq => ?_, fun hx hn _ => ?_, fun hin => h.active (hA ▸ hin),
    fun hrem => h.removed (hD ▸ hrem), fun hx hq => hA ▸ h.inActive hx hq, fun hx hq => hD ▸ h.removedAt hx hq⟩
  · cases hnew hq
  · obtain ⟨x, hx, -, -, hplace⟩ := h.protocols ⟨t, ht, hphase⟩
    cases hx
    exact ⟨c, rfl, hplace (by rw [hc]; rfl)⟩
  · cases hx; exact absurd hc hn

/-- The connection leaves the setup that has it in `add`. -/
theorem leave {i : Nat} {t y : Setup} (h : DriverOK b id (some c)) (hL : LedgerOK b) (ht : b.setups[i]? = some t)
    (hphase : t.pc.phase = some (true, id)) (hS : b'.setups = b.setups.set i y) (hy : y.pc.phase = none)
    (hpc' : c'.pc = c.pc) (hin : InActive b'.active id ↔ c'.place = .active) (hp' : c'.place ≠ .removed)
    (hD : b'.discs = b.discs) : DriverOK b' id (some c') := by
  have hgone : ∀ {j ph}, ¬ PhaseAt b'.setups j ph id := by
    intro j ph hq
    rw [hS] at hq
    have hq := (hL.phase_set ht hphase hq).2
    rw [hy] at hq; cases hq
  refine ⟨fun hq => absurd hq hgone, fun hq => absurd hq hgone, fun hx hn hn₂ => ?_,
    fun hq => ⟨c', rfl, hin.mp hq⟩, fun hrem => ?_, fun hx hq => ?_, fun hx hq => ?_⟩
  · cases hx
    rw [hpc'] at hn hn₂
    exact absurd (hL.phase_unique (h.pending rfl hn hn₂) ⟨t, ht, hphase⟩).2 (by simp)
  · obtain ⟨x, hx, hplace⟩ := h.adding ⟨t, ht, hphase⟩
    cases hx
    obtain ⟨x, hx, hout⟩ := h.removed (hD ▸ hrem)
    cases hx
    rw [hplace] at hout
    rcases hout with hout | hout <;> cases hout
  · cases hx; exact hin.mpr hq
  · cases hx; exact absurd hq hp'

/-- The connection is taken out of `active`, or dropped by who took it out. -/
theorem takeOut (h : DriverOK b id (some c)) (hc : c.place ≠ .driver) (hS : b'.setups = b.setups)
    (hpc' : c'.pc = c.pc) (hd : c'.driver = c.driver) (hin : ¬ InActive b'.active id)
    (hp' : c'.place = .removed ∧ RemovedAt b'.discs id ∨ c'.place = .dropped) : DriverOK b' id (some c') := by
  refine ⟨fun hq => ?_, fun hq => ?_, fun hx hn hn₂ => ?_, fun hq => absurd hq hin,
    fun _ => ⟨c', rfl, hp'.imp_left And.left⟩, fun hx hq => ?_, fun hx hq => ?_⟩
  · rw [hS] at hq
    obtain ⟨x, hx, hdrv, hpc, hplace⟩ := h.protocols hq
    cases hx
    exact ⟨c', rfl, hd.trans hdrv, hpc' ▸ hpc, fun hn => absurd (hplace (hpc' ▸ hn)) hc⟩
  · rw [hS] at hq
    obtain ⟨x, hx, hplace⟩ := h.adding hq
    cases hx
    exact absurd hplace hc
  · cases hx
    rw [hpc'] at hn hn₂
    rw [hS, hd]
    exact h.pending rfl hn hn₂
  · cases hx
    rcases hp' with ⟨hp', -⟩ | hp' <;> · rw [hp'] at hq; cases hq
  · cases hx
    rcases hp' with ⟨-, hrem⟩ | hp'
    · exact hrem
    · rw [hp'] at hq; cases hq

end DriverOK

/-- Every connection, with who has it. -/
def DriversOK (s : State) : Prop := ∀ id, DriverOK s.node id (s.conns.lookup id)

/-- The connections are those of ids that were given out. -/
def KnownOK (s : State) : Prop := ∀ ⦃id : Nat⦄ ⦃c : Conn⦄, s.conns.lookup id = some c → id < s.node.nextId

theorem KnownOK.fresh {s : State} (h : KnownOK s) : s.conns.lookup s.node.nextId = none := by
  cases hc : s.conns.lookup s.node.nextId with
  | none => rfl
  | some c => exact absurd (h hc) (Nat.lt_irrefl _)

section

variable {cfg : NodeConfig} {abortable : Bool} {s s' : State} {a : Act}

/-! ## What the hooks' steps are here -/

theorem lookup_of_insert {C : Table Nat Conn} {id k : Nat} {c c' x : Conn} (hc : C.lookup id = some c)
    (hx : (C.insert id c').lookup k = some x) : ∃ y, C.lookup k = some y := by
  rcases Table.lookup_insert_cases hx with ⟨rfl, -⟩ | ⟨-, hx⟩
  · exact ⟨c, hc⟩
  · exact ⟨x, hx⟩

theorem State.move_some {s : State} {id : Nat} {c : Conn} (hc : s.conns.lookup id = some c) (place : Place) :
    s.move (some id) place = s.set id { c with place := place } := by
  simp [State.move, hc]

/-- The steps that are always more here. -/
def loud : Hooks.Act → Bool
  | .base (.base (.disconnect _ _ _)) | .base (.snapshot _ _) | .base (.publish _)
  | .base (.signalHandlers _ _) => true
  | _ => false

/-- What `react` does, by the cases in which it does something. -/
inductive React (s : State) : Hooks.Act → State → Prop
  | adapt {i t} (ht : s.node.setups[i]? = some t) (hpc : t.pc = .dialing) :
      React s (.base (.base (.adapt i)))
        (s.set s.node.nextId ⟨i, t.addr, .before .handshake, .driver, [], none, .ahead⟩)
  | wired {i t id c} (ht : s.node.setups[i]? = some t) (hpc : t.pc = .protocols id) (hc : s.conns.lookup id = some c)
      (hthrough : c.pc = .through) : React s (.base (.base (.wired i))) s
  | deny {i} (hf : s.node.flag = true) : React s (.base (.base (.start i))) { s with denied := i :: s.denied }
  | refuse {i t id c} (ht : s.node.setups[i]? = some t) (hphase : t.pc.phase = some (true, id))
      (hc : s.conns.lookup id = some c) (hp : c.place = .driver) (hf : s.node.flag = true) :
      React s (.base (.base (.checkFlag i))) { s.drop id c with denied := i :: s.denied }
  | insert {i t id c tasks} (ht : s.node.setups[i]? = some t) (hphase : t.pc.phase = some (true, id))
      (hc : s.conns.lookup id = some c) (hp : c.place = .driver) :
      React s (.base (.base (.insert i tasks))) (s.set id { c with place := .active })
  | remove {j d conn c} (hd : s.node.discs[j]? = some d) (hconn : s.node.active.lookup d.addr = some conn)
      (hc : s.conns.lookup conn.id = some c) (hp : c.place = .active) :
      React s (.base (.base (.remove j))) (s.set conn.id { c with place := .removed })
  | notifyDrain {j d k got c} (hd : s.node.discs[j]? = some d) (hpc : d.pc = .removed k got)
      (hc : s.conns.lookup got = some c) (hp : c.place = .removed ∨ c.place = .dropped) :
      React s (.base (.base (.notifyDrain j)))
        { s.set got { c with place := .dropped } with tasks := abortAll s.tasks c.tasks }
  | user {addr} : React s (.base (.base (.disconnect addr .user none))) { s with causes := s.causes ++ [.user] }
  | snapshot {n addrs} : React s (.base (.snapshot n addrs))
      { s with causes := s.causes ++ addrs.map fun _ => .shutdown n }
  | publish {c} : React s (.base (.publish c)) { s with handlers := s.wire c }
  | signalHandlers {n stored} : React s (.base (.signalHandlers n stored))
      { s with handlers := fun st => (s.handlers st).signaled stored }
  | toggleGone {c} (hr : s.base.base.registry.lookup .listener = none) :
      React s (.base (.toggleOff c)) { s with refused := c :: s.refused }
  | toggleRefused {c} (hf : s.node.flag = true) :
      React s (.base (.checkFlag c)) { s with refused := c :: s.refused }
  | plain {x} (hx : ∀ y id, x = .base (.base y) → ¬ Handover s.node y id) (hl : loud x = false) : React s x s

/-- The connection that a setup has in `add`. -/
theorem DriversOK.inAdd (h : DriversOK s) {i id : Nat} {t : Setup} (ht : s.node.setups[i]? = some t)
    (hphase : t.pc.phase = some (true, id)) : ∃ c, s.conns.lookup id = some c ∧ c.place = .driver :=
  (h id).adding ⟨t, ht, hphase⟩

theorem reactNode_cases (h : DriversOK s) {y : Pea2Pea.Act} {b : Pea2Pea.State}
    (hy : Pea2Pea.StepR cfg s.node y b) (hf : s.free (.base (.base y)) = true) :
    React s (.base (.base y)) (s.reactNode y) := by
  have plain : s.reactNode y = s → (∀ id, ¬ Handover s.node y id) → loud (.base (.base y)) = false →
      React s (.base (.base y)) (s.reactNode y) := by
    intro he hh hl
    rw [he]
    exact .plain (fun y' id he => by cases he; exact hh id) hl
  cases hy with
  | @adapt i t ht hpc =>
    simp only [State.reactNode, ht]
    exact .adapt ht hpc
  | failDialing ht hpc =>
    refine plain rfl (fun id hh => ?_) rfl
    cases hh with
    | fail ht' hpc' =>
      rw [ht] at ht'; cases ht'
      rw [hpc] at hpc'; cases hpc'
  | @failProtocols i t id ht hpc =>
    have hconn : s.connOf i = some id := by
      simp [State.connOf, ht, Setup.connId, hpc, SetupPc.connId]
    simp [State.free, hconn] at hf
  | @wired i t id ht hpc =>
    have hconn : s.connOf i = some id := by
      simp [State.connOf, ht, Setup.connId, hpc, SetupPc.connId]
    obtain ⟨c, hc, -⟩ := (h id).protocols ⟨t, ht, by rw [hpc]; rfl⟩
    simp only [State.free, hconn, hc, Option.any_some, decide_eq_true_eq] at hf
    exact .wired ht hpc hc hf
  | startCalled ht hpc | startAccepted ht hpc =>
    by_cases hflag : s.node.flag = true
    · rw [State.reactNode, if_pos hflag]
      exact .deny hflag
    · refine plain (by rw [State.reactNode, if_neg hflag]) (fun id hh => by cases hh) rfl
  | @checkRefused i t id sched begun ht hpc hflag =>
    have hconn : s.connOf i = some id := by
      simp [State.connOf, ht, Setup.connId, hpc, SetupPc.connId]
    have hphase : t.pc.phase = some (true, id) := by rw [hpc]; rfl
    obtain ⟨c, hc, hp⟩ := h.inAdd ht hphase
    simp only [State.reactNode, hflag, hconn, hc, if_true, Option.bind_some, Option.map_some]
    exact .refuse ht hphase hc hp hflag
  | @checkAdmitted i t id sched begun ht hpc hflag =>
    refine plain (by simp [State.reactNode, hflag]) (fun id hh => ?_) rfl
    cases hh with
    | refuse _ _ hf => rw [hflag] at hf; cases hf
  | @insert i t id sched begun tasks ht hpc =>
    have hconn : s.connOf i = some id := by
      simp [State.connOf, ht, Setup.connId, hpc, SetupPc.connId]
    have hphase : t.pc.phase = some (true, id) := by rw [hpc]; rfl
    obtain ⟨c, hc, hp⟩ := h.inAdd ht hphase
    rw [State.reactNode, hconn, State.move_some hc]
    exact .insert ht hphase hc hp
  | @remove j d id conn hd hpc hl hconn =>
    obtain ⟨c, hc, hp⟩ := (h conn.id).active ⟨d.addr, conn, hconn, rfl⟩
    simp only [State.reactNode, hd, hconn, Option.bind_some, Option.map_some]
    rw [State.move_some hc]
    exact .remove hd hconn hc hp
  | @removeNone j d id hd hpc hl hnone =>
    have hsame : s.reactNode (.remove j) = s := by simp [State.reactNode, hd, hnone, State.move]
    refine plain hsame (fun id hh => ?_) rfl
    cases hh with
    | remove hd' hc =>
      rw [hd] at hd'; cases hd'
      rw [hnone] at hc; cases hc
  | @notifyDrain j d k got hd hpc =>
    obtain ⟨c, hc, hp⟩ := (h got).removed ⟨d, List.mem_of_getElem? hd, k, hpc⟩
    obtain ⟨addr, origin, connId, pc⟩ := d
    dsimp only at hpc
    subst hpc
    simp only [State.reactNode, hd, hc, Option.elim_some]
    rw [State.move_some hc]
    exact .notifyDrain hd rfl hc hp
  | disconnect =>
    simp only [State.free, Bool.decide_and, Bool.and_eq_true, decide_eq_true_eq] at hf
    obtain ⟨rfl, rfl⟩ := hf
    exact .user
  | connect | accept | reject | checkConnected | acquire | noBudget | reserveOk | reserveErr | lockActive
  | dropRefused | dropUnwinding | dropInserted | dropSched | notifySched | scheduleSome | scheduleNone | finish
  | finishAwaiting | attach | schedDone | schedNotify | claim | claimNone | cancel | register | finalize
  | beginShutdown | enableOnConnect | takeId | recover | noRecovery =>
    exact plain rfl (fun id hh => by cases hh) rfl

theorem react_cases (h : DriversOK s) {x : Hooks.Act} {b : Hooks.State}
    (hb : Hooks.step cfg abortable s.base x = some b) (hf : s.free x = true) : React s x (s.react x) := by
  have plain : s.react x = s → (∀ y, x ≠ .base (.base y)) → loud x = false → React s x (s.react x) := by
    intro he hx hl
    rw [he]
    exact .plain (fun y _ hy => absurd hy (hx y)) hl
  cases x with
  | base y =>
    cases y with
    | base z => exact reactNode_cases h (hooks_node hb) hf
    | publish => exact .publish
    | signalHandlers => exact .signalHandlers
    | snapshot => exact .snapshot
    | toggleOff c =>
      by_cases hr : s.base.base.registry.lookup .listener = none
      · rw [State.react, if_pos hr]
        exact .toggleGone hr
      · exact plain (by rw [State.react, if_neg hr]) (by simp) rfl
    | checkFlag c =>
      by_cases hc : s.node.flag = true ∧ (s.base.base.calls[c]?).any (·.kind = .listener) = true
      · rw [State.react, if_pos hc]
        exact .toggleRefused hc.1
      · exact plain (by rw [State.react, if_neg hc]) (by simp) rfl
    | _ => exact plain rfl (by simp) rfl
  | _ => exact plain rfl (by simp) rfl

/-! ## Reachable states -/

theorem React.requests {x : Hooks.Act} (hr : React s x s') (hk : KnownOK s) (h : Requests s.handlers s.conns) :
    Requests s'.handlers s'.conns := by
  cases hr with
  | adapt => exact h.adapt hk.fresh rfl
  | refuse _ _ hc hp | insert _ _ hc hp | remove _ _ hc hp =>
    exact h.conn hc (fun hat => absurd hat (Place.not_at (by rw [hp]; rfl))) fun hpc => hpc
  | notifyDrain _ _ hc hp =>
    refine h.conn hc (fun hat => absurd hat (Place.not_at ?_)) fun hpc => hpc
    rcases hp with hp | hp <;> rw [hp] <;> rfl
  | @publish c =>
    have same : ∀ st, (s.wire c st).items = (s.handlers st).items ∧ (s.wire c st).loop = (s.handlers st).loop := by
      intro st
      rcases s.wire_cases c st with hw | ⟨x, w, -, -, -, hw⟩ <;> rw [hw] <;> exact ⟨rfl, rfl⟩
    exact h.handlers (fun st => (same st).1) (fun st => congrArg _ (same st).2)
      fun st => congrArg (·.chan.queue) (same st).2
  | signalHandlers => exact h.handlers (fun _ => rfl) (fun _ => rfl) fun _ => rfl
  | wired | deny | user | snapshot | toggleGone | toggleRefused | plain => exact h

theorem DriverR.requests {id : Nat} {c : Conn} {x : DriverAct} (hs : DriverR cfg abortable s id c x s')
    (hc : s.conns.lookup id = some c) (h : Requests s.handlers s.conns) (hD : DriversOK s) :
    Requests s'.handlers s'.conns := by
  have hid : DriverOK s.node id (some c) := hc ▸ hD id
  cases hs with
  | @lookup st h' hpc ht =>
    have hphase := hid.pending rfl (by simp [hpc]) (by simp [hpc])
    obtain ⟨y, hy, -, -, hplace⟩ := hid.protocols hphase
    cases hy
    exact h.request hc (by rw [hplace (by rw [hpc]; rfl)]; rfl) rfl rfl
  | @skip st hpc ht =>
    refine h.conn hc (fun hat => hat) fun hreq => ?_
    cases st <;> cases hreq
  | @sendFailed st q l hpc hx hl =>
    have hs := HandlerLoop.step_sound hl
    have hplace := h.giveUp_place hc (by rw [hpc]; rfl) hs
    exact h.release (shrinks_step hs (by simp) (by simp)) ((h.stage st).queue.step hs) (handless_step hs (.inl rfl)) hc
      (onlyAt_request hplace) fun hreq => hreq
  | @respond st q hpc hp =>
    refine h.conn hc (fun hat => absurd hat (Place.not_at (by rw [hp]; rfl))) fun hreq => ?_
    cases st <;> cases hreq
  | failed hpc | noResponse hpc | graceExpired hpc | cancelWaiting hpc =>
    exact h.conn hc (fun hat => hat) fun hreq => by cases hreq
  | @closing st q r hpc =>
    refine h.conn hc (fun hat => hat) fun hreq => ?_
    rw [hpc]
    exact hreq
  | @cancelSending st q r b l hpc hr hrpc hb hl =>
    have hs := HandlerLoop.step_sound hl
    have hplace := h.giveUp_place hc hpc hs
    exact h.release (shrinks_step hs (by simp) (by simp)) ((h.stage st).queue.step hs) (handless_step hs (.inl rfl)) hc
      (onlyAt_request hplace) fun hreq => by cases hreq
  | cancelReply hpc hp =>
    exact h.conn hc (fun hat => absurd hat (Place.not_at (by rw [hp]; rfl))) fun hreq => by cases hreq
  | ready => exact h

theorem SetupR.requests {id : Nat} {c : Conn} {st : Stage} {q : Nat} {pc : SetupTaskPc} {x : SetupAct}
    (hs : SetupR s id c st q pc x s') (hc : s.conns.lookup id = some c) (hp : c.place = .setup st q pc)
    (h : Requests s.handlers s.conns) : Requests s'.handlers s'.conns := by
  -- the setup task goes on
  have stays : ∀ {pc' c'}, c'.place = .setup st q pc' → c'.pc = c.pc →
      Requests s.handlers (s.conns.insert id c') := by
    intro pc' c' hp' hpc'
    refine h.conn hc (fun {hand st' q'} hat => ?_) fun hreq => hpc' ▸ hreq
    rw [hp] at hat
    rw [hp']
    cases hand with
    | channel => cases hat
    | task => obtain ⟨_, hat⟩ := hat; cases hat; exact ⟨pc', rfl⟩
  -- it ends, and the connection is somewhere else
  have ends : ∀ {a' l c'}, HandlerLoop.step .setup (s.handlers st).loop a' = some l →
      a' = .giveUp q ∨ a' = .complete q ∨ a' = .panic q → c'.pc = c.pc →
      Requests (Function.update s.handlers st { s.handlers st with loop := l }) (s.conns.insert id c') := by
    intro a' l c' hl ha hpc'
    have hs := HandlerLoop.step_sound hl
    have hne : a' ≠ .request ∧ a' ≠ .pollRecv := by rcases ha with rfl | rfl | rfl <;> simp
    exact h.release (shrinks_step hs hne.1 fun he => absurd he hne.2) ((h.stage st).queue.step hs)
      (handless_step hs ha) hc (onlyAt_setup hp) fun hreq => hpc' ▸ hreq
  cases hs with
  | shake | spawn | spawnReader => exact stays rfl rfl
  | panic hl => exact ends hl (.inr (.inr rfl)) rfl
  | fail hl => exact ends hl (.inr (.inl rfl)) rfl
  | shaken hl | returnReading _ _ _ hl | returnWriting _ _ _ hl =>
    rw [State.giveBack_handlers]
    obtain ⟨place, -, he⟩ := State.giveBack_conns _ id _ st q
    rw [he]
    exact ends hl (.inr (.inl rfl)) rfl

theorem StepR.requests (hs : StepR cfg abortable s a s') (hk : KnownOK s) (hD : DriversOK s)
    (h : Requests s.handlers s.conns) : Requests s'.handlers s'.conns := by
  cases hs with
  | base hb hf => exact (react_cases hD hb hf).requests hk h
  | @loop st x l ha hl hq =>
    have hs := HandlerLoop.step_sound hl
    refine h.loop (shrinks_step hs ?_ ?_) ((h.stage st).queue.step hs)
    · rintro rfl; cases ha
    · rintro rfl hpc hne
      simp only [Handler.takes, hpc, if_true, List.head?_eq_none_iff] at hq
      exact absurd hq hne
  | receive hl hq hd hi hc => exact h.receive (HandlerLoop.step_sound hl) hq hd hi hc rfl fun hreq => hreq
  | @release st x l q id c ha hl hq hd hi hc =>
    have hs := HandlerLoop.step_sound hl
    obtain ⟨hshrink, hn, hand, hat⟩ := h.takes_cases hs hq hd hi hc
    exact h.release hshrink ((h.stage st).queue.step hs) hn hc hat.only fun hreq => hreq
  | @dropLoop st | @panicLoop st =>
    refine h.loop ⟨rfl, fun hr hh => ⟨_, hr, hh⟩⟩ ⟨?_, ?_⟩
    · exact (h.stage st).queue.nodup
    · exact (h.stage st).queue.queued
  | dropItem _ hq hr hi hc =>
    obtain ⟨hshrink, hl, hn⟩ := h.dropItem_cases hq hr
    exact h.release hshrink hl hn hc (onlyAt_request ((h.stage _).queued hq hi hc)) fun hreq => hreq
  | driver hc hd => exact hd.requests hc h hD
  | setup hc hp hx => exact hx.requests hc hp h
  | task ht hx => cases hx <;> exact h
  | hookPanic | hookGuard => exact h

/-- Connection `id` goes on, and the others are where they were. -/
theorem DriversOK.set (h : DriversOK s) {b : Pea2Pea.State} {id : Nat} {c' : Conn}
    (hsame : ∀ k, k ≠ id → SameHands k s.node b) (hc' : DriverOK b id (some c')) (k : Nat) :
    DriverOK b k ((s.conns.insert id c').lookup k) := by
  rw [Table.lookup_insert]
  split
  next he => subst he; exact hc'
  next he => exact (h k).same (hsame k he)

theorem React.drivers {x : Hooks.Act} {b : Pea2Pea.State} (hr : React s x s') (hL : LedgerOK s.node) (hk : KnownOK s)
    (h : DriversOK s) (hy : ∀ y, x = .base (.base y) → Pea2Pea.StepR cfg s.node y b)
    (hq : (∀ y, x ≠ .base (.base y)) → ∀ id, SameHands id s.node b) :
    ∀ id, DriverOK b id (s'.conns.lookup id) := by
  have other : ∀ {y id}, x = .base (.base y) → Handover s.node y id → ∀ k, k ≠ id → SameHands k s.node b :=
    fun hx hid k hne => ((hy _ hx).sameHands hL k).resolve_left fun hh => hne (hh.unique hid)
  cases hr with
  | @adapt i t ht hpc =>
    refine h.set (other rfl (.adapt ht hpc)) ?_
    have hnew : DriverOK s.node s.node.nextId none := hk.fresh ▸ h s.node.nextId
    cases hy _ rfl with
    | adapt ht' =>
      rw [ht] at ht'; cases ht'
      exact hnew.adapt ht rfl rfl rfl rfl rfl rfl
  | @wired i t id c ht hpc hc hthrough =>
    intro k
    by_cases hne : k = id
    · subst hne
      rw [hc]
      have hid : DriverOK s.node k (some c) := hc ▸ h k
      cases hy _ rfl with
      | wired ht' hpc' =>
        rw [ht] at ht'; cases ht'
        rw [hpc] at hpc'; cases hpc'
        exact hid.wired hL ht hpc rfl rfl rfl hthrough
    · exact (h k).same (other rfl (.wired ht hpc) k hne)
  | @refuse i t id c ht hphase hc hp hf =>
    have hid : DriverOK s.node id (some c) := hc ▸ h id
    cases hy _ rfl with
    | checkRefused ht' hpc' =>
      rw [ht] at ht'; cases ht'
      have hh := Handover.refuse ht hpc' hf
      rw [hpc'] at hphase; cases hphase
      have hphase : t.pc.phase = some (true, id) := by rw [hpc']; rfl
      refine h.set (other rfl hh) (hid.leave hL ht hphase rfl rfl rfl ⟨fun hin => ?_, fun hq => ?_⟩ (by simp) rfl)
      · obtain ⟨y, hy, hact⟩ := hid.active hin
        cases hy
        rw [hp] at hact; cases hact
      · cases hq
    | checkAdmitted _ _ hf' => rw [hf] at hf'; cases hf'
  | @insert i t id c tasks ht hphase hc hp =>
    have hid : DriverOK s.node id (some c) := hc ▸ h id
    cases hy _ rfl with
    | insert ht' hpc' =>
      rw [ht] at ht'; cases ht'
      have hh : Handover s.node (.insert i tasks) _ := .insert ht hpc'
      rw [hpc'] at hphase; cases hphase
      have hphase : t.pc.phase = some (true, id) := by rw [hpc']; rfl
      refine h.set (other rfl hh) (hid.leave hL ht hphase rfl rfl rfl ⟨fun _ => rfl, fun _ => ?_⟩ (by simp) rfl)
      exact ⟨t.addr, _, by rw [Table.lookup_insert, if_pos rfl], rfl⟩
  | @remove j d conn c hd hconn hc hp =>
    have hid : DriverOK s.node conn.id (some c) := hc ▸ h conn.id
    refine h.set (other rfl (.remove hd hconn)) ?_
    cases hy _ rfl with
    | remove hd' _ _ hc' =>
      rw [hd] at hd'; cases hd'
      rw [hconn] at hc'; cases hc'
      refine hid.takeOut (by simp [hp]) rfl rfl rfl ?_ (.inl ⟨rfl, ?_⟩)
      · rintro ⟨addr, x, hx, hxid⟩
        obtain ⟨hne, hx⟩ := Table.lookup_erase_some hx
        exact hne (hL.inj _ _ _ _ hx hconn hxid)
      · exact ⟨{ d with pc := .removed _ conn.id }, List.mem_set (List.getElem?_eq_some_iff.mp hd).1 _, _,
          rfl⟩
    | removeNone hd' _ _ hc' =>
      rw [hd] at hd'; cases hd'
      rw [hconn] at hc'; cases hc'
  | @notifyDrain j d k got c hd hpc hc hp =>
    have hid : DriverOK s.node got (some c) := hc ▸ h got
    refine h.set (other rfl (.notifyDrain hd hpc)) ?_
    cases hy _ rfl with
    | notifyDrain hd' =>
      refine hid.takeOut ?_ rfl rfl rfl ?_ (.inr rfl)
      · rcases hp with hp | hp <;> simp [hp]
      · intro hin
        obtain ⟨y, hy, hact⟩ := hid.active hin
        cases hy
        rw [hact] at hp
        rcases hp with hp | hp <;> cases hp
  | deny | user =>
    intro k
    refine (h k).same (((hy _ rfl).sameHands hL k).resolve_left fun hh => ?_)
    cases hh
  | snapshot | publish | signalHandlers | toggleGone | toggleRefused => exact fun k => (h k).same (hq (by simp) k)
  | plain hx =>
    intro k
    refine (h k).same ?_
    by_cases hbase : ∃ y, x = .base (.base y)
    · obtain ⟨y, hxy⟩ := hbase
      exact ((hy y hxy).sameHands hL k).resolve_left (hx y k hxy)
    · exact hq (fun y hxy => hbase ⟨y, hxy⟩) k

theorem DriverR.drivers {id : Nat} {c : Conn} {x : DriverAct} (hs : DriverR cfg abortable s id c x s')
    (hL : LedgerOK s.node) (hc : s.conns.lookup id = some c) (hR : Requests s.handlers s.conns) (h : DriversOK s) :
    DriversOK s' := by
  have hid : DriverOK s.node id (some c) := hc ▸ h id
  have conn : ∀ {c'}, Kept c c' → ∀ k, DriverOK s.node k ((s.conns.insert id c').lookup k) := fun hk =>
    h.set (fun k _ => .refl k _) (hid.conn hk)
  -- the driver ends; a connection it had itself is dropped
  have fail : ∀ {b c'}, c.pc ≠ .through ∧ c.pc ≠ .over → stepFail cfg abortable s c = some b →
      c'.place = c.place ∨ c.place.transit = true ∧ c'.place = .dropped → c'.pc = .over →
      ∀ k, DriverOK b.base.base k ((s.conns.insert id c').lookup k) := by
    intro b c' hpc hb hplace hpc'
    have hstep := hooks_node hb
    refine h.set (fun k hne => (hstep.sameHands hL k).resolve_left fun hh => ?_)
      (hid.fail hL hpc.1 hpc.2 hstep hplace hpc')
    cases hh with
    | fail ht hk =>
      obtain ⟨t, ht', hphase⟩ := hid.pending rfl hpc.1 hpc.2
      rw [ht'] at ht; cases ht
      rw [hk] at hphase; cases hphase
      exact hne rfl
  cases hs with
  | @lookup st _ hpc =>
    exact h.set (fun k _ => .refl k _) (hid.request hL hpc rfl (by simp [DriverPc.request]) (by simp))
  | @skip st hpc =>
    refine conn ⟨rfl, fun _ => ?_, fun _ _ => by simp [hpc], fun _ => .inr (by rw [hpc]; rfl), fun hp => hp,
      fun hp => hp, fun hp => hp, fun hp => hp, fun hp => hp⟩
    cases st <;> simp [Stage.next]
  | @sendFailed st q l hpc hx hl =>
    have hplace := hR.giveUp_place hc (by rw [hpc]; rfl) (HandlerLoop.step_sound hl)
    exact conn (.of_transit (by rw [hplace]; rfl) rfl rfl (by simp))
  | @respond st q hpc hp =>
    refine conn ⟨rfl, fun _ => ?_, fun _ _ => DriverPc.request_ne hpc, fun _ => .inl rfl, fun _ => rfl, ?_, ?_, by simp,
      by simp⟩
    · cases st <;> simp [Stage.next]
    · intro he; rw [hp] at he; cases he
    · rintro (he | he) <;> · rw [hp] at he; cases he
  | failed hpc _ hb | noResponse hpc _ hb | cancelWaiting hpc _ hb =>
    exact fail (DriverPc.request_ne hpc) hb (.inl rfl) rfl
  | graceExpired hpc hb => exact fail (by simp [hpc]) hb (.inl rfl) rfl
  | closing hpc =>
    exact conn ⟨rfl, fun _ => by simp, fun _ _ => by simp [hpc], fun hn => (by cases hn), fun hp => hp, fun hp => hp,
      fun hp => hp, fun hp => hp, fun hp => hp⟩
  | cancelSending hpc _ _ hb hl =>
    have hplace := hR.giveUp_place hc hpc (HandlerLoop.step_sound hl)
    exact fail (DriverPc.request_ne hpc) hb (.inr ⟨by rw [hplace]; rfl, rfl⟩) rfl
  | cancelReply hpc hp hb => exact fail (DriverPc.request_ne hpc) hb (.inr ⟨by rw [hp]; rfl, rfl⟩) rfl
  | ready => exact h

theorem SetupR.drivers {id : Nat} {c : Conn} {st : Stage} {q : Nat} {pc : SetupTaskPc} {x : SetupAct}
    (hs : SetupR s id c st q pc x s') (hc : s.conns.lookup id = some c) (hp : c.place = .setup st q pc)
    (h : DriversOK s) : DriversOK s' := by
  have hid : DriverOK s.node id (some c) := hc ▸ h id
  have conn : ∀ {c'}, c'.driver = c.driver → c'.pc = c.pc → c'.place ≠ .active ∧ c'.place ≠ .removed →
      ∀ k, DriverOK s.node k ((s.conns.insert id c').lookup k) :=
    fun hd hpc hp' => h.set (fun k _ => .refl k _) (hid.conn (.of_transit (by rw [hp]; rfl) hd hpc hp'))
  cases hs with
  | shake | panic | fail | spawn | spawnReader => exact conn rfl rfl (by simp)
  | shaken | returnReading | returnWriting =>
    intro k
    obtain ⟨place, hplace, he⟩ := State.giveBack_conns _ id _ st q
    rw [he, State.node, State.giveBack_base]
    refine conn ?_ ?_ ?_ k
    · rfl
    · rfl
    · rcases hplace with ⟨rfl, -⟩ | rfl <;> exact (by simp)

theorem StepR.drivers (hs : StepR cfg abortable s a s') (hL : LedgerOK s.node) (hk : KnownOK s)
    (hR : Requests s.handlers s.conns) (h : DriversOK s) : DriversOK s' := by
  have conn : ∀ {id c c'}, s.conns.lookup id = some c → c.place.transit = true → c'.driver = c.driver → c'.pc = c.pc →
      c'.place ≠ .active ∧ c'.place ≠ .removed → ∀ k, DriverOK s.node k ((s.conns.insert id c').lookup k) := by
    intro id c c' hc hp hd hpc hp'
    have hid : DriverOK s.node id (some c) := hc ▸ h id
    exact h.set (fun k _ => .refl k _) (hid.conn (.of_transit hp hd hpc hp'))
  have guard : ∀ {addr origin id b}, stepGuard cfg abortable s addr origin id = some b →
      ∀ k, DriverOK b.base.base k (s.conns.lookup k) := fun hb k =>
    (h k).same (((hooks_node hb).sameHands hL k).resolve_left fun hh => by cases hh)
  cases hs with
  | @base x b hb hf =>
    have hnode : ∀ y, x = .base (.base y) → Pea2Pea.StepR cfg s.node y b.base.base := by
      rintro y rfl
      exact hooks_node hb
    exact (react_cases h hb hf).drivers hL hk h hnode (hooks_sameHands hL hb)
  | loop | dropLoop | panicLoop => exact h
  | receive hl hq _ hi hc =>
    obtain ⟨hplace, -⟩ := hR.receive_cases (HandlerLoop.step_sound hl) hq hi hc
    exact conn hc (by rw [hplace]; rfl) rfl rfl (by simp)
  | release _ hl hq hd hi hc =>
    obtain ⟨-, -, hand, hat⟩ := hR.takes_cases (HandlerLoop.step_sound hl) hq hd hi hc
    exact conn hc hat.transit rfl rfl (by simp)
  | dropItem _ hq _ hi hc =>
    have hplace := (hR.stage _).queued hq hi hc
    exact conn hc (by rw [hplace]; rfl) rfl rfl (by simp)
  | driver hc hd => exact hd.drivers hL hc hR h
  | setup hc hp hx => exact hx.drivers hc hp h
  | task ht hx =>
    cases hx with
    | left _ _ hb | cutOff _ _ hb => exact guard hb
    | _ => exact h
  | hookPanic _ _ hb => exact fun k => (h k).same (hooks_sameHands hL hb (by simp) k)
  | hookGuard _ _ _ _ hb => exact guard hb

theorem React.lookup_from {x : Hooks.Act} (hr : React s x s') {k : Nat} {c' : Conn}
    (hc' : s'.conns.lookup k = some c') :
    (∃ c, s.conns.lookup k = some c) ∨ k = s.node.nextId ∧ ∃ i, x = .base (.base (.adapt i)) := by
  cases hr with
  | adapt =>
    rcases Table.lookup_insert_cases hc' with ⟨rfl, -⟩ | ⟨-, hc⟩
    · exact .inr ⟨rfl, _, rfl⟩
    · exact .inl ⟨c', hc⟩
  | refuse _ _ hc | insert _ _ hc | remove _ _ hc | notifyDrain _ _ hc => exact .inl (lookup_of_insert hc hc')
  | _ => exact .inl ⟨c', hc'⟩

theorem StepR.lookup_from (hs : StepR cfg abortable s a s') (h : DriversOK s) {k : Nat} {c' : Conn}
    (hc' : s'.conns.lookup k = some c') :
    (∃ c, s.conns.lookup k = some c) ∨ k = s.node.nextId ∧ ∃ i, a = .base (.base (.base (.adapt i))) := by
  cases hs with
  | base hb hf =>
    rcases (react_cases h hb hf).lookup_from hc' with hc | ⟨hk, i, rfl⟩
    · exact .inl hc
    · exact .inr ⟨hk, i, rfl⟩
  | receive _ _ _ _ hc | release _ _ _ _ _ hc | dropItem _ _ _ _ hc => exact .inl (lookup_of_insert hc hc')
  | driver hc hd =>
    cases hd with
    | ready => exact .inl ⟨c', hc'⟩
    | _ => exact .inl (lookup_of_insert hc hc')
  | setup hc hp hx =>
    cases hx with
    | shaken | returnReading | returnWriting =>
      obtain ⟨place, -, he⟩ := State.giveBack_conns _ _ _ _ _
      rw [he] at hc'
      exact .inl (lookup_of_insert hc hc')
    | _ => exact .inl (lookup_of_insert hc hc')
  | task ht hx => cases hx <;> exact .inl ⟨c', hc'⟩
  | loop | dropLoop | panicLoop | hookPanic | hookGuard => exact .inl ⟨c', hc'⟩

theorem StepR.nextId_le (hs : StepR cfg abortable s a s') : s.node.nextId ≤ s'.node.nextId := by
  rcases hs.hooks_move with ⟨x, -, hx⟩ | he
  · exact hooks_nextId hx
  · rw [State.node, State.node, he]

theorem StepR.known (hs : StepR cfg abortable s a s') (hD : DriversOK s) (h : KnownOK s) : KnownOK s' := by
  intro k c' hc'
  rcases hs.lookup_from hD hc' with ⟨c, hc⟩ | ⟨rfl, i, rfl⟩
  · exact Nat.lt_of_lt_of_le (h hc) hs.nextId_le
  · cases hs with
    | base hb => exact Nat.lt_of_lt_of_eq (Nat.lt_succ_self _) (hooks_node hb).adapt_nextId.symm

/-- The requests, the drivers and the connections between them. -/
structure PlacesOK (s : State) : Prop where
  requests : Requests s.handlers s.conns
  drivers : DriversOK s
  known : KnownOK s

theorem placesOK_init (cfg : NodeConfig) : PlacesOK (.init cfg) where
  requests := ⟨fun st => ⟨rfl, ⟨List.nodup_nil, fun q hq => by cases hq⟩, fun hid => by cases hid⟩,
    fun hc => by cases hc⟩
  drivers id := by
    refine ⟨?_, ?_, fun hc => (by cases hc), ?_, ?_, fun hc => (by cases hc), fun hc => (by cases hc)⟩
    · rintro i ⟨t, ht, -⟩; cases ht
    · rintro i ⟨t, ht, -⟩; cases ht
    · rintro ⟨addr, x, hx, -⟩; cases hx
    · rintro ⟨d, hd, -⟩; cases hd
  known id c hc := by cases hc

theorem placesOK_reachable (h : (protocols cfg abortable).Reachable s) : PlacesOK s := by
  refine h.invariant (placesOK_init cfg) fun {s s' a} hr ih _ hs => ?_
  have hstep := step_sound hs
  exact
    { requests := hstep.requests ih.known ih.drivers ih.requests
      drivers := hstep.drivers (ledgerOK_reachable (node_reachable hr)) ih.known ih.requests ih.drivers
      known := hstep.known ih.drivers ih.known }

/-! ## Connections that have been in `active` -/

/-- Connection `id` has been in `active`. -/
def Entered (s : State) (id : Nat) : Prop := Owned Setup.enteredId s.node.setups id

theorem StepR.lifecycle (hs : StepR cfg abortable s a s') :
    (∃ y, Pea2Pea.StepR cfg s.node y s'.node) ∨ Shutdown.Quiet s.node s'.node := by
  rcases hs.hooks_move with ⟨x, -, hx⟩ | he
  · exact hooks_lifecycle hx
  · rw [State.node, State.node, he]
    exact .inr (.refl _)

theorem StepR.entered_kept (hs : StepR cfg abortable s a s') {id : Nat} (h : Entered s id) : Entered s' id := by
  rcases hs.lifecycle with ⟨y, hy⟩ | hq
  · exact hy.entered_kept h
  · rw [Entered, hq.setups]; exact h

theorem StepR.entered (hs : StepR cfg abortable s a s') {id : Nat} (h : Entered s' id) :
    Entered s id ∨ InActive s'.node.active id := by
  rcases hs.lifecycle with ⟨y, hy⟩ | hq
  · exact hy.entered h
  · rw [Entered, hq.setups] at h; exact .inl h

/-- In `active`, or gone from there. -/
def Place.settled : Place → Bool
  | .active | .removed | .dropped => true
  | _ => false

theorem Place.not_settled {place : Place} (h : place.transit = true ∨ place = .driver) : place.settled = false := by
  rcases h with h | rfl
  · cases place <;> first | rfl | cases h
  · rfl

/-- Connection `id` is there, and settled. -/
def Settled (C : Table Nat Conn) (id : Nat) : Prop := ∃ c, C.lookup id = some c ∧ c.place.settled = true

theorem Settled.insert {C : Table Nat Conn} {id k : Nat} {x x' : Conn} (h : Settled C id) (hx : C.lookup k = some x)
    (hs : x.place.settled = true → x'.place.settled = true) : Settled (C.insert k x') id := by
  obtain ⟨c, hc, hset⟩ := h
  rw [Settled, Table.lookup_insert]
  split
  next he =>
    subst he
    rw [hc] at hx; cases hx
    exact ⟨x', rfl, hs hset⟩
  · exact ⟨c, hc, hset⟩

/-- Another connection goes on, which is not settled. -/
theorem Settled.moving {C : Table Nat Conn} {id k : Nat} {x x' : Conn} (h : Settled C id) (hx : C.lookup k = some x)
    (hp : x.place.transit = true ∨ x.place = .driver) : Settled (C.insert k x') id :=
  h.insert hx fun hs => by rw [Place.not_settled hp] at hs; cases hs

theorem React.settled {x : Hooks.Act} (hr : React s x s') (hk : KnownOK s) {id : Nat} (h : Settled s.conns id) :
    Settled s'.conns id := by
  cases hr with
  | @adapt i t =>
    obtain ⟨c, hc, hset⟩ := h
    have hne : id ≠ s.node.nextId := Nat.ne_of_lt (hk hc)
    exact ⟨c, (Table.lookup_insert _ _ _ _).trans ((if_neg hne).trans hc), hset⟩
  | refuse _ _ hx | insert _ _ hx | remove _ _ hx | notifyDrain _ _ hx => exact h.insert hx fun _ => rfl
  | _ => exact h

/-- A settled connection is settled for good. -/
theorem StepR.settled (hs : StepR cfg abortable s a s') (hP : PlacesOK s) {id : Nat} (h : Settled s.conns id) :
    Settled s'.conns id := by
  cases hs with
  | base hb hf => exact (react_cases hP.drivers hb hf).settled hP.known h
  | receive hl hq _ hi hx =>
    obtain ⟨hplace, -⟩ := hP.requests.receive_cases (HandlerLoop.step_sound hl) hq hi hx
    exact h.moving hx (.inl (by rw [hplace]; rfl))
  | release _ _ _ _ _ hx | dropItem _ _ _ _ hx => exact h.insert hx fun _ => rfl
  | @driver k x _ _ hx hd =>
    have hk : DriverOK s.node k (some x) := hx ▸ hP.drivers k
    cases hd with
    | lookup hpc =>
      obtain ⟨y, hy, -, -, hplace⟩ := hk.protocols (hk.pending rfl (by simp [hpc]) (by simp [hpc]))
      cases hy
      exact h.moving hx (.inr (hplace (by rw [hpc]; rfl)))
    | respond _ hp => exact h.moving hx (.inl (by rw [hp]; rfl))
    | sendFailed | cancelSending | cancelReply => exact h.insert hx fun _ => rfl
    | skip | failed | noResponse | closing | graceExpired | cancelWaiting => exact h.insert hx fun hp => hp
    | ready => exact h
  | setup hx hp hd =>
    cases hd with
    | shaken | returnReading | returnWriting =>
      obtain ⟨place, -, he⟩ := State.giveBack_conns _ _ _ _ _
      rw [he]
      exact h.moving hx (.inl (by rw [hp]; rfl))
    | _ => exact h.moving hx (.inl (by rw [hp]; rfl))
  | task ht hd => cases hd <;> exact h
  | loop | dropLoop | panicLoop | hookPanic | hookGuard => exact h

/-- A connection that has been in `active` is settled. -/
theorem settled_reachable (h : (protocols cfg abortable).Reachable s) : ∀ id, Entered s id → Settled s.conns id := by
  refine h.invariant (P := fun s => ∀ id, Entered s id → Settled s.conns id)
    (fun id hid => absurd hid not_owned_nil) fun {s s' a} hr ih _ hs id hid => ?_
  have hstep := step_sound hs
  rcases hstep.entered hid with hold | hin
  · exact hstep.settled (placesOK_reachable hr) (ih id hold)
  · have hr' : (protocols cfg abortable).Reachable s' := .step hr trivial hs
    obtain ⟨c, hc, hp⟩ := ((placesOK_reachable hr').drivers id).active hin
    exact ⟨c, hc, by rw [hp]; rfl⟩

end

end Protocols

end Pea2Pea
