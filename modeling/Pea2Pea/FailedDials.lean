/-
What `connect_nodes` does when the nodes may fail: whatever they answer, it
goes through one plan, which depends on the topology alone and builds it, and
stops at the first dial that does not succeed, with that dial's error.

Each topology's loops are shown to perform the list of dials they emit when
nothing fails (`performs_lineDials` and the others), where a dial that cannot
get the listening address of its target is not made, and one the target
refuses is.
-/
import Pea2Pea.TopologyGraphs

namespace Pea2Pea.ConnectNodes

open Logged Words

/-! ## One dial -/

section
variable {peers : Peers} {checks : Bool} {n i j : Nat}

/-- A dial of the plan. -/
def dialOf (peers : Peers) (n : Nat) (d : Dial) : Building Unit := dial peers n d.1 d.2

/-- How a dial ends, given the dials made before it. -/
def dialResult (peers : Peers) (dials : List Dial) (i j : Nat) (addr : Except IoError SocketAddr) :
    Except Stop Unit × List Dial :=
  match addr with
  | .error e => (.error (.failed e), dials)
  | .ok addr => match peers.connect dials i addr with
    | .error e => (.error (.failed e), dials ++ [(i, j)])
    | .ok () => (.ok (), dials ++ [(i, j)])

theorem dialResult_logs {log log' : List Dial} {d : Dial} {addr : Except IoError SocketAddr} {u : Unit}
    (h : dialResult peers log d.1 d.2 addr = (.ok u, log')) : log' = log ++ [d] := by
  cases addr with
  | error e => cases h
  | ok addr =>
    rw [dialResult] at h
    cases hc : peers.connect log d.1 addr with
    | error e => rw [hc] at h; cases h
    | ok => rw [hc] at h; cases h; rfl

theorem runFrom_connect (hi : i < n) (addr : SocketAddr) (log : List Dial) :
    (connect peers n i j addr).runFrom log = dialResult peers log i j (.ok addr) := by
  rw [connect, index, if_pos hi, runFrom_bind_ok (runFrom_pure () log), runFrom_bind_ok (runFrom_get log),
    runFrom_bind_ok (runFrom_tell (i, j) log), dialResult]
  cases peers.connect log i addr <;> rfl

theorem runFrom_dial (hi : i < n) (hj : j < n) (log : List Dial) :
    (dial peers n i j).runFrom log = dialResult peers log i j (peers.listeningAddr log j) := by
  have haddr : (listeningAddr peers n j).runFrom log = (orFail (peers.listeningAddr log j)).runFrom log := by
    rw [listeningAddr, index, if_pos hj, runFrom_bind_ok (runFrom_pure () log), runFrom_bind_ok (runFrom_get log)]
  cases hl : peers.listeningAddr log j with
  | error e =>
    rw [hl] at haddr
    exact runFrom_bind_error haddr
  | ok addr =>
    rw [hl] at haddr
    rw [dial, runFrom_bind_ok haddr]
    exact runFrom_connect hi addr log

theorem word_eq {x : Nat} (h : x < 2 ^ 64) : word checks x = pure x := by rw [word, fit_of_lt h]

end

/-! ## The topologies -/

section
variable {peers : Peers} {checks : Bool} {n : Nat}

theorem performs_lineDials (hn : n ≤ 2 ^ 64) :
    Performs (dialOf peers n) (lineDials peers checks n) () (lineList n) := by
  refine performs_forRange fun i _ hi => ?_
  rw [word_eq (by omega), pure_bind]
  exact performs_act (i, i + 1)

theorem performs_meshDials (hn : n < 2 ^ 64) :
    Performs (dialOf peers n) (meshDials peers checks n) () (meshList n) := by
  refine performs_forRange fun i _ hi => ?_
  rw [word_eq (by omega), pure_bind]
  exact performs_forRange fun j _ hj => performs_act (i, j)

theorem performs_treeDial {i side : Nat} (hfits : 2 * i + side < 2 ^ 64) :
    Performs (dialOf peers n) (treeDial peers checks n i side) ()
      (if 2 * i + side < n then [(i, 2 * i + side)] else []) := by
  rw [treeDial, word_eq (by omega), pure_bind, word_eq hfits, pure_bind]
  split
  next hlt => exact performs_act (i, 2 * i + side)
  next => exact performs_pure ()

theorem performs_treeDials (hn : n * 2 < 2 ^ 64) :
    Performs (dialOf peers n) (treeDials peers checks n) () (treeList n) :=
  performs_forRange fun i _ hi =>
    (performs_treeDial (by omega)).bind (performs_treeDial (by omega))

theorem performs_gridDial {i pos bound stride : Nat} (hn : n < 2 ^ 64) (hpos : pos < bound) (hb : bound < 2 ^ 64)
    (hstride : pos + 1 < bound → i + stride < n) :
    Performs (dialOf peers n) (gridDial peers checks n i pos bound stride) ()
      (if pos + 1 < bound then [(i, i + stride)] else []) := by
  rw [gridDial, word_eq (by omega), pure_bind]
  split
  next hnext =>
    have htarget : i + stride < n := hstride hnext
    rw [word_eq (by omega), pure_bind]
    exact performs_act (i, i + stride)
  next => exact performs_pure ()

theorem performs_gridDials {width height : Nat} (hn : width * height < 2 ^ 64) :
    Performs (dialOf peers (width * height)) (gridDials peers checks (width * height) width height) ()
      (gridList width height) := by
  rw [gridDials, word_eq hn, pure_bind, if_neg (by simp)]
  refine performs_forRange fun row _ hrow => performs_forRange fun col _ hcol => ?_
  have hi : row * width + col < width * height := cell_lt hrow hcol
  have hw : width ≤ width * height := width_le hrow
  have hh : height ≤ width * height := height_le hcol
  rw [gridCell, word_eq (by omega), pure_bind, word_eq (by omega), pure_bind]
  exact (performs_gridDial hn hcol (by omega) fun h => cell_right_lt hrow h).bind
    (performs_gridDial hn hrow (by omega) fun h => cell_down_lt h hcol)

theorem dialOf_logs {d : Dial} (hd : InRange n d) {log log' : List Dial} {u : Unit}
    (h : (dialOf peers n d).runFrom log = (.ok u, log')) : log' = log ++ [d] := by
  rw [dialOf, runFrom_dial hd.1 hd.2] at h
  exact dialResult_logs h

/-- The choice of targets does not depend on the nodes: for all of them the
loop performs one list, or for no log does it end among nodes that answer. -/
theorem performs_pickTargets_or (checks : Bool) {i : Nat} (degree : Nat) (seed : BitVec 64) (hi : i < n) :
    ∀ rounds attempt chosen,
    (∃ ws, (∀ d ∈ ws, InRange n d) ∧ ∀ peers,
      Performs (dialOf peers n) (pickTargets peers checks n i degree seed rounds attempt chosen) () ws) ∨
      ∀ log log', (pickTargets obliging checks n i degree seed rounds attempt chosen).runFrom log ≠ (.ok (), log') := by
  intro rounds
  induction rounds with
  | zero =>
    intro attempt chosen
    exact .inr fun log log' h => by cases h
  | succ rounds ih =>
    intro attempt chosen
    simp only [pickTargets]
    split
    case isFalse => exact .inl ⟨[], by simp, fun peers => performs_pure ()⟩
    cases hfit : fit 64 checks (attempt + 1) with
    | none =>
      refine .inr fun log log' h => ?_
      rw [word, hfit] at h
      cases h
    | some a =>
      have hword : word checks (attempt + 1) = pure a := by rw [word, hfit]
      simp only [hword, pure_bind]
      split
      case isFalse => exact ih a chosen
      have hlt : target n i seed a < n := Nat.mod_lt _ (by omega)
      rcases ih a (insert (target n i seed a) chosen) with ⟨ws, hin, hws⟩ | hnone
      · refine .inl ⟨_, fun d hd => ?_, fun peers => (performs_act (i, target n i seed a)).bind (hws peers)⟩
        rcases List.mem_cons.1 hd with rfl | hd
        · exact ⟨hi, hlt⟩
        · exact hin d hd
      · refine .inr fun log log' h => ?_
        rw [runFrom_bind_ok (emits_dial (obliging_accepting n) hi hlt log)] at h
        exact hnone _ _ h

/-- What the loop emits among nodes that answer, it performs among any. -/
theorem performs_pickTargets {i degree rounds attempt : Nat} {seed : BitVec 64} {chosen : Finset Nat} {ws : List Dial}
    (hi : i < n) (h : Emits (pickTargets obliging checks n i degree seed rounds attempt chosen) () ws) (peers : Peers) :
    Performs (dialOf peers n) (pickTargets peers checks n i degree seed rounds attempt chosen) () ws := by
  rcases performs_pickTargets_or checks degree seed hi rounds attempt chosen with ⟨vs, hin, hvs⟩ | hnone
  · have hrun := h []
    rw [hvs obliging] at hrun
    rcases performAll_cases (fun d hd _ _ _ => dialOf_logs (hin d hd)) [] with ⟨hall, -⟩ | ⟨_, _, e, log', -, -, -, hall⟩
    · rw [runFrom_bind_ok hall] at hrun
      have hws : [] ++ vs = [] ++ ws := congrArg Prod.snd hrun
      rw [List.nil_append, List.nil_append] at hws
      exact hws ▸ hvs peers
    · rw [runFrom_bind_error hall] at hrun
      cases hrun
  · exact absurd (h []) (hnone [] _)

theorem performs_randomDials (checks : Bool) {degree rounds : Nat} {seed : BitVec 64} (hdeg : degree < n)
    (hfits : (Topology.random degree seed).Fits n) (hr : 2 ^ 64 ≤ rounds) :
    ∃ targets : Nat → List Nat, (∀ i < n, Completes n i degree ∅ (targets i)) ∧ ∀ peers,
      Performs (dialOf peers n) (randomDials peers checks rounds n degree seed) () (randomList n targets) := by
  have hpick (i : Nat) : ∃ targets, i < n → Completes n i degree ∅ targets ∧
      Emits (pickTargets obliging checks n i degree seed rounds 0 ∅) () (targets.map (i, ·)) := by
    by_cases hi : i < n
    · obtain ⟨targets, hcomp, hemits⟩ := emits_pickTargets checks seed (obliging_accepting n) hi hdeg hfits hr
      exact ⟨targets, fun _ => ⟨hcomp, hemits⟩⟩
    · exact ⟨[], fun h => absurd h hi⟩
  choose targets htargets using hpick
  refine ⟨targets, fun i hi => (htargets i hi).1, fun peers => ?_⟩
  rw [randomDials, if_neg (by omega)]
  exact performs_forRange fun i _ hi => performs_pickTargets hi (htargets i hi).2 peers

end

/-! ## The first failure -/

/-- The dials made when the listening address for the `i`-th dial of the plan
is asked for: the hub of a star is asked once, at the start. -/
def Topology.asked (plan : List Dial) (i : Nat) : Topology → List Dial
  | .star => []
  | _ => plan.take i

/-- The `i`-th dial of the plan succeeds, with all before it made. -/
def Succeeds (peers : Peers) (t : Topology) (plan : List Dial) (i : Nat) : Prop :=
  ∃ d addr, plan[i]? = some d ∧ peers.listeningAddr (t.asked plan i) d.2 = .ok addr ∧
    peers.connect (plan.take i) d.1 addr = .ok ()

/-- The ways to go through a plan: to its end, up to a dial whose target has
no listening address, and up to a dial that fails. -/
inductive Follows (peers : Peers) (t : Topology) (plan : List Dial) : Except Stop Unit × List Dial → Prop
  | built (h : ∀ i < plan.length, Succeeds peers t plan i) : Follows peers t plan (.ok (), plan)
  | unlisted {i d e} (hd : plan[i]? = some d) (h : ∀ j < i, Succeeds peers t plan j)
      (he : peers.listeningAddr (t.asked plan i) d.2 = .error e) :
      Follows peers t plan (.error (.failed e), plan.take i)
  | failed {i d addr e} (hd : plan[i]? = some d) (h : ∀ j < i, Succeeds peers t plan j)
      (ha : peers.listeningAddr (t.asked plan i) d.2 = .ok addr) (he : peers.connect (plan.take i) d.1 addr = .error e) :
      Follows peers t plan (.error (.failed e), plan.take (i + 1))

section
variable {peers : Peers} {t : Topology} {plan : List Dial} {act : Dial → Building Unit}

/-- The listening address of the `i`-th dial's target. -/
abbrev addrAt (peers : Peers) (t : Topology) (plan : List Dial) (i : Nat) (d : Dial) : Except IoError SocketAddr :=
  peers.listeningAddr (t.asked plan i) d.2

theorem succeeds_of_done (hrun : ∀ i d, plan[i]? = some d →
      (act d).runFrom (plan.take i) = dialResult peers (plan.take i) d.1 d.2 (addrAt peers t plan i d)) {i : Nat}
    (h : Done act [] plan i) : Succeeds peers t plan i := by
  obtain ⟨d, hd, hok⟩ := h
  rw [List.nil_append, hrun i d hd] at hok
  cases ha : addrAt peers t plan i d with
  | error e => rw [ha] at hok; cases hok
  | ok addr =>
    rw [ha, dialResult] at hok
    cases hc : peers.connect (plan.take i) d.1 addr with
    | error e => rw [hc] at hok; cases hok
    | ok => exact ⟨d, addr, hd, ha, hc⟩

/-- Performing the plan follows it. -/
theorem follows_performAll (hlogs : ∀ d ∈ plan, ∀ log u log', (act d).runFrom log = (.ok u, log') → log' = log ++ [d])
    (hrun : ∀ i d, plan[i]? = some d →
      (act d).runFrom (plan.take i) = dialResult peers (plan.take i) d.1 d.2 (addrAt peers t plan i d)) :
    Follows peers t plan (performAll act plan).exec := by
  rcases performAll_cases hlogs [] with ⟨hok, hdone⟩ | ⟨i, d, e, log', hd, hdone, hstop, hall⟩
  · rw [exec, hok]
    exact .built fun i hi => succeeds_of_done hrun (hdone i hi)
  · have hbefore : ∀ j < i, Succeeds peers t plan j := fun j hj => succeeds_of_done hrun (hdone j hj)
    rw [List.nil_append, hrun i d hd] at hstop
    rw [exec, hall, ← hstop]
    cases ha : addrAt peers t plan i d with
    | error e => exact .unlisted hd hbefore ha
    | ok addr =>
      rw [ha, dialResult] at hstop
      rw [dialResult]
      cases hc : peers.connect (plan.take i) d.1 addr with
      | ok => rw [hc] at hstop; cases hstop
      | error e =>
        have htake : plan.take i ++ [(d.1, d.2)] = plan.take (i + 1) := by rw [List.take_add_one, hd]; rfl
        simp only [htake]
        exact .failed hd hbefore ha hc

theorem follows_of_performs {n : Nat} {m : Building Unit} (ht : ∀ i, t.asked plan i = plan.take i)
    (hin : ∀ d ∈ plan, InRange n d) (h : Performs (dialOf peers n) m () plan) : Follows peers t plan m.exec := by
  have hm : m = performAll (dialOf peers n) plan := by
    rw [h]
    exact bind_pure_unit
  rw [hm]
  refine follows_performAll (fun d hd _ _ _ => dialOf_logs (hin d hd)) fun i d hd => ?_
  have hr := hin d (List.mem_of_getElem? hd)
  rw [dialOf, runFrom_dial hr.1 hr.2, addrAt, ht]

/-- A star's hub is asked for its address before the first dial. -/
theorem follows_star {n : Nat} (hn : 2 ≤ n) : Follows peers .star (starList n) (starDials peers n).exec := by
  have haddr : (listeningAddr peers n 0).runFrom [] = (orFail (peers.listeningAddr [] 0)).runFrom [] := by
    rw [listeningAddr, index, if_pos (by omega), runFrom_bind_ok (runFrom_pure () []), runFrom_bind_ok (runFrom_get [])]
  have hmem {d : Dial} (hd : d ∈ starList n) : d.2 = 0 ∧ d.1 < n := by
    obtain ⟨u, v⟩ := d
    have := mem_starList.1 hd
    exact ⟨this.1, this.2.2⟩
  cases hhub : peers.listeningAddr [] 0 with
  | error e =>
    rw [hhub] at haddr
    have hexec : (starDials peers n).exec = (.error (.failed e), []) := runFrom_bind_error haddr
    have hfirst : (starList n)[0]? = some (1, 0) := by
      obtain ⟨m, rfl⟩ : ∃ m, n = m + 2 := ⟨n - 2, by omega⟩
      simp [starList, List.range'_succ]
    rw [hexec]
    exact .unlisted hfirst (fun j hj => absurd hj (Nat.not_lt_zero j)) hhub
  | ok addr =>
    rw [hhub] at haddr
    have hperf : Performs (fun d => connect peers n d.1 d.2 addr)
        (forRange 1 n fun i => connect peers n i 0 addr) () (starList n) := by
      refine performs_forRange fun i _ _ => ?_
      exact (performs_act (i, 0) : Performs (fun d => connect peers n d.1 d.2 addr) _ () [(i, 0)])
    have hexec : (starDials peers n).exec = (performAll (fun d => connect peers n d.1 d.2 addr) (starList n)).exec := by
      rw [exec, starDials, runFrom_bind_ok haddr, hperf]
      simp
      rfl
    rw [hexec]
    refine follows_performAll (fun d hd log u log' h => ?_) fun i d hd => ?_
    · rw [runFrom_connect (hmem hd).2] at h
      exact dialResult_logs h
    · have hd' := hmem (List.mem_of_getElem? hd)
      rw [runFrom_connect hd'.2, addrAt, hd'.1, Topology.asked, hhub]

end

/-- Whatever the nodes answer, `connect_nodes` follows one plan, which builds
the topology: it makes the plan's dials in order, up to the first that has no
address to dial or fails, and returns that error, or makes them all. -/
theorem connectNodes_follows (checks : Bool) (rounds n : Nat) (t : Topology) (hn : 2 ≤ n) (ha : t.Accepted n)
    (hfits : t.Fits n) (hr : 2 ^ 64 ≤ rounds) :
    ∃ plan, Builds checks n t plan ∧ ∀ peers, Follows peers t plan (connectNodes peers checks rounds n t).exec := by
  have hnot : ¬ n < 2 := by omega
  -- every topology but the star asks for an address right before its dial
  have hplan {plan : List Dial} (hb : Builds checks n t plan) (ht : ∀ i, t.asked plan i = plan.take i)
      (hp : ∀ peers, Performs (dialOf peers n) (connectNodes peers checks rounds n t) () plan) :
      ∃ plan, Builds checks n t plan ∧ ∀ peers, Follows peers t plan (connectNodes peers checks rounds n t).exec := by
    refine ⟨plan, hb, fun peers => follows_of_performs ht (fun d hd => ?_) (hp peers)⟩
    obtain ⟨hu, hv, -⟩ := hb.inRange d.1 d.2 hd
    exact ⟨hu, hv⟩
  cases t with
  | line =>
    have hmax : (n - 1) * 2 < 2 ^ 64 := hfits
    refine hplan (line_builds hn hfits) (fun _ => rfl) fun peers => ?_
    rw [connectNodes, if_neg hnot]
    exact performs_lineDials (by omega)
  | ring =>
    have hmax : n * 2 < 2 ^ 64 := hfits
    refine hplan (ring_builds hn hfits) (fun _ => rfl) fun peers => ?_
    rw [connectNodes, if_neg hnot]
    exact (performs_lineDials (by omega)).bind (performs_act (n - 1, 0))
  | mesh =>
    have hmax : n ≤ (n - 1) * n := Nat.le_mul_of_pos_left n (by omega)
    have hmesh : (n - 1) * n < 2 ^ 64 := hfits
    refine hplan (mesh_builds hn hfits) (fun _ => rfl) fun peers => ?_
    rw [connectNodes, if_neg hnot]
    exact performs_meshDials (by omega)
  | star =>
    refine ⟨starList n, star_builds hn hfits, fun peers => ?_⟩
    rw [connectNodes, if_neg hnot]
    exact follows_star hn
  | grid width height =>
    obtain rfl : width * height = n := ha
    refine hplan (grid_builds hn hfits) (fun _ => rfl) fun peers => ?_
    rw [connectNodes, if_neg hnot]
    exact performs_gridDials hfits.1
  | tree =>
    refine hplan (tree_builds hn hfits) (fun _ => rfl) fun peers => ?_
    rw [connectNodes, if_neg hnot]
    exact performs_treeDials hfits
  | random degree seed =>
    obtain ⟨targets, hcomp, hperf⟩ := performs_randomDials checks ha hfits hr
    refine hplan (random_builds hn hfits hcomp) (fun _ => rfl) fun peers => ?_
    rw [connectNodes, if_neg hnot]
    exact hperf peers

/-- Nodes whose second dial is refused. -/
def refusing : Peers where
  listeningAddr _ j := .ok (.v4 0x7f000001#32 (BitVec.ofNat 16 j))
  connect dials _ _ := if dials.length = 1 then .error ⟨.quotaExceeded, "full"⟩ else .ok ()

theorem connectNodes_follows_refusing : ∃ plan, Builds true 4 .ring plan ∧
    Follows refusing .ring plan (.error (.failed ⟨.quotaExceeded, "full"⟩), [(0, 1), (1, 2)]) := by
  have hfits : Topology.ring.Fits 4 := (by decide : 4 * 2 < 2 ^ 64)
  obtain ⟨plan, hb, hf⟩ := connectNodes_follows true (2 ^ 64) 4 .ring (by decide) trivial hfits (Nat.le_refl _)
  have hexec : (connectNodes refusing true (2 ^ 64) 4 .ring).exec =
      (.error (.failed ⟨.quotaExceeded, "full"⟩), [(0, 1), (1, 2)]) := by decide +kernel
  exact ⟨plan, hb, hexec ▸ hf refusing⟩

end Pea2Pea.ConnectNodes
