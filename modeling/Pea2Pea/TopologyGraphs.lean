/-
What `connect_nodes` builds when every dial succeeds: the graph its topology
is named after, each edge dialed once, and as many connections as
`num_expected_connections` says.

The loops are reduced to the lists of dials they emit (`lineList` and the
others), and the lists are compared with the graphs by who is in them: one
membership lemma per topology, from which the adjacency, the absence of
repetitions and the count follow.
-/
import Pea2Pea.Lib.Ranges
import Pea2Pea.RandomTargets
import Mathlib.Combinatorics.SimpleGraph.CycleGraph
import Mathlib.Combinatorics.SimpleGraph.Prod
import Mathlib.Combinatorics.SimpleGraph.Star
import Mathlib.Logic.Equiv.Fin.Basic

namespace Pea2Pea.ConnectNodes

open Logged Words Ranges SimpleGraph

/-! ## The named graphs -/

/-- The lattice of `width` columns and `height` rows, numbered row by row. -/
def gridGraph (width height : Nat) : SimpleGraph (Fin (height * width)) :=
  (pathGraph height □ pathGraph width).comap finProdFinEquiv.symm

/-- The binary heap tree: the children of `u` are `2 * u + 1` and `2 * u + 2`. -/
def heapTree (n : Nat) : SimpleGraph (Fin n) :=
  .fromRel fun u v => v.val = 2 * u.val + 1 ∨ v.val = 2 * u.val + 2

/-- The dials are between the ends of the edges of `G`, in one direction or
the other. -/
def Draws {n : Nat} (G : SimpleGraph (Fin n)) (dials : List Dial) : Prop :=
  ∀ u v : Fin n, G.Adj u v ↔ (u.val, v.val) ∈ dials ∨ (v.val, u.val) ∈ dials

/-- No two dials are opposite to each other. -/
def OneWay (dials : List Dial) : Prop := ∀ d ∈ dials, d.swap ∉ dials

/-- The shape of the dials made for a topology. -/
def Topology.Shape (n : Nat) (dials : List Dial) : Topology → Prop
  | .line => Draws (pathGraph n) dials ∧ OneWay dials
  | .ring => Draws (cycleGraph n) dials ∧ (n ≠ 2 → OneWay dials) ∧ (n = 2 → dials = [(0, 1), (1, 0)])
  | .mesh => Draws (⊤ : SimpleGraph (Fin n)) dials ∧ OneWay dials
  | .star => ∃ hub : Fin n, hub.val = 0 ∧ Draws (starGraph hub) dials ∧ OneWay dials
  | .grid width height =>
    ∃ h : n = height * width, Draws ((gridGraph width height).comap (Fin.cast h)) dials ∧ OneWay dials
  | .tree => Draws (heapTree n) dials ∧ OneWay dials
  | .random degree _ => ∀ i < n, (dials.filter (·.1 = i)).length = degree

/-- The topologies `connect_nodes` accepts for `n` nodes. -/
def Topology.Accepted (n : Nat) : Topology → Prop
  | .grid width height => width * height = n
  | .random degree _ => degree < n
  | _ => True

/-- No product the source computes for `n` nodes overflows. -/
def Topology.Fits (n : Nat) : Topology → Prop
  | .line | .star => (n - 1) * 2 < 2 ^ 64
  | .ring | .tree => n * 2 < 2 ^ 64
  | .mesh => (n - 1) * n < 2 ^ 64
  | .grid width height => width * height < 2 ^ 64 ∧ ((width - 1) * height + width * (height - 1)) * 2 < 2 ^ 64
  | .random degree _ => n * degree * 2 < 2 ^ 64

/-- The dials of a topology: distinct nodes of the list, no dial twice, the
topology's shape, and the number of connections it promises. -/
structure Builds (checks : Bool) (n : Nat) (t : Topology) (dials : List Dial) : Prop where
  inRange : ∀ u v, (u, v) ∈ dials → u < n ∧ v < n ∧ u ≠ v
  nodup : dials.Nodup
  shape : t.Shape n dials
  count : t.numExpectedConnections checks n = some (2 * dials.length)

section
variable {peers : Peers} {checks : Bool} {n : Nat}

/-! ## Line and ring -/

def lineList (n : Nat) : List Dial := (List.range' 0 (n - 1)).flatMap fun i => [(i, i + 1)]

theorem emits_lineDials (hp : peers.Accepting n) (hn : n ≤ 2 ^ 64) : Emits (lineDials peers checks n) () (lineList n) :=
  emits_forRange fun i _ hi => (emits_word (by omega)).after (emits_dial hp (by omega) (by omega))

theorem mem_lineList {u v : Nat} : (u, v) ∈ lineList n ↔ v = u + 1 ∧ v < n := by
  simp only [lineList, List.mem_flatMap, List.mem_range'_1, List.mem_singleton, Prod.mk.injEq]
  constructor
  · rintro ⟨i, hi, rfl, rfl⟩
    exact ⟨rfl, by omega⟩
  · rintro ⟨rfl, hv⟩
    exact ⟨u, by omega, rfl, rfl⟩

theorem nodup_lineList : (lineList n).Nodup :=
  nodup_flatMap_of_key Prod.fst id (fun _ _ _ _ h => h) List.nodup_range' (fun _ _ => List.nodup_singleton _)
    (by simp)

theorem length_lineList : (lineList n).length = n - 1 := by
  rw [lineList, length_flatMap_range']
  simp

theorem line_builds (hn : 2 ≤ n) (hfits : Topology.line.Fits n) : Builds checks n .line (lineList n) where
  inRange := by
    intro u v hd
    have hd := mem_lineList.1 hd
    omega
  nodup := nodup_lineList
  shape := by
    refine ⟨fun u v => ?_, fun d hd hs => ?_⟩
    · rw [pathGraph_adj, mem_lineList, mem_lineList]
      have := u.isLt
      have := v.isLt
      omega
    · obtain ⟨u, v⟩ := d
      have hv := (mem_lineList.1 hd).1
      have hu := (mem_lineList.1 hs).1
      omega
  count := by
    rw [Topology.numExpectedConnections, if_neg (by omega), fit_of_lt hfits, length_lineList, Nat.mul_comm]

def ringList (n : Nat) : List Dial := lineList n ++ [(n - 1, 0)]

theorem mem_ringList {u v : Nat} : (u, v) ∈ ringList n ↔ v = u + 1 ∧ v < n ∨ u = n - 1 ∧ v = 0 := by
  rw [ringList, List.mem_append, mem_lineList, List.mem_singleton, Prod.mk.injEq]

/-- One step forward on the cycle. -/
theorem cycle_sub {u v : Fin n} (hn : 2 ≤ n) :
    (v - u).val = 1 ↔ v.val = u.val + 1 ∧ v.val < n ∨ u.val = n - 1 ∧ v.val = 0 := by
  have hu := u.isLt
  have hv := v.isLt
  rw [Fin.val_sub]
  rcases Nat.lt_or_ge v.val u.val with hlt | hle
  · rw [Nat.mod_eq_of_lt (by omega)]
    omega
  · rw [show n - u.val + v.val = v.val - u.val + n by omega, Nat.add_mod_right, Nat.mod_eq_of_lt (by omega)]
    omega

theorem ring_builds (hn : 2 ≤ n) (hfits : Topology.ring.Fits n) : Builds checks n .ring (ringList n) where
  inRange := by
    intro u v hd
    have hd := mem_ringList.1 hd
    omega
  nodup := by
    refine List.Nodup.append nodup_lineList (List.nodup_singleton _) fun d hd hs => ?_
    rw [List.mem_singleton.1 hs] at hd
    have hd := (mem_lineList.1 hd).1
    omega
  shape := by
    refine ⟨fun u v => ?_, fun h2 d hd hs => ?_, fun h2 => ?_⟩
    · rw [cycleGraph_adj', cycle_sub hn, cycle_sub hn, mem_ringList, mem_ringList, or_comm]
    · obtain ⟨u, v⟩ := d
      have hd := mem_ringList.1 hd
      have hs := mem_ringList.1 hs
      omega
    · subst h2
      rfl
  count := by
    have hlen : (ringList n).length = n := by
      rw [ringList, List.length_append, length_lineList, List.length_singleton]
      omega
    rw [Topology.numExpectedConnections, if_neg (by omega), fit_of_lt hfits, hlen, Nat.mul_comm]

/-! ## Mesh -/

def meshList (n : Nat) : List Dial :=
  (List.range' 0 n).flatMap fun i => (List.range' (i + 1) (n - (i + 1))).flatMap fun j => [(i, j)]

theorem emits_meshDials (hp : peers.Accepting n) (hn : n < 2 ^ 64) : Emits (meshDials peers checks n) () (meshList n) :=
  emits_forRange fun i _ hi => (emits_word (by omega)).after <|
    emits_forRange fun j _ hj => emits_dial hp (by omega) (by omega)

theorem mem_meshList {u v : Nat} : (u, v) ∈ meshList n ↔ u < v ∧ v < n := by
  simp only [meshList, List.mem_flatMap, List.mem_range'_1, List.mem_singleton, Prod.mk.injEq]
  constructor
  · rintro ⟨i, hi, j, hj, rfl, rfl⟩
    omega
  · rintro ⟨huv, hv⟩
    exact ⟨u, by omega, v, by omega, rfl, rfl⟩

theorem mesh_builds (hn : 2 ≤ n) (hfits : Topology.mesh.Fits n) : Builds checks n .mesh (meshList n) where
  inRange := by
    intro u v hd
    have hd := mem_meshList.1 hd
    omega
  nodup := by
    refine nodup_flatMap_of_key Prod.fst id (fun _ _ _ _ h => h) List.nodup_range' (fun i _ => ?_) ?_
    · exact nodup_flatMap_of_key Prod.snd id (fun _ _ _ _ h => h) List.nodup_range'
        (fun _ _ => List.nodup_singleton _) (by simp)
    · intro i _ d hd
      obtain ⟨j, -, hd⟩ := List.mem_flatMap.1 hd
      rw [List.mem_singleton.1 hd]
      rfl
  shape := by
    refine ⟨fun u v => ?_, fun d hd hs => ?_⟩
    · rw [top_adj, mem_meshList, mem_meshList, Ne, Fin.ext_iff]
      have := u.isLt
      have := v.isLt
      omega
    · obtain ⟨u, v⟩ := d
      have hd := (mem_meshList.1 hd).1
      have hs := (mem_meshList.1 hs).1
      omega
  count := by
    have hlen : (meshList n).length = ∑ i ∈ Finset.range n, (n - (i + 1)) := by
      rw [meshList, length_flatMap_range']
      simp
    rw [Topology.numExpectedConnections, if_neg (by omega), fit_of_lt hfits, hlen, Nat.mul_comm 2, sum_sub_succ]

/-! ## Star -/

def starList (n : Nat) : List Dial := (List.range' 1 (n - 1)).flatMap fun i => [(i, 0)]

theorem emits_starDials (hp : peers.Accepting n) (hn : 2 ≤ n) : Emits (starDials peers n) () (starList n) := by
  intro log
  obtain ⟨hubAddr, hhub⟩ := runFrom_listeningAddr hp (by omega : 0 < n) log
  rw [starDials, runFrom_bind_ok hhub]
  exact emits_forRange (fun i _ hi => emits_connect hp hi hubAddr) log

theorem mem_starList {u v : Nat} : (u, v) ∈ starList n ↔ v = 0 ∧ 1 ≤ u ∧ u < n := by
  simp only [starList, List.mem_flatMap, List.mem_range'_1, List.mem_singleton, Prod.mk.injEq]
  constructor
  · rintro ⟨i, hi, rfl, rfl⟩
    omega
  · rintro ⟨rfl, hu, hn⟩
    exact ⟨u, by omega, rfl, rfl⟩

theorem star_builds (hn : 2 ≤ n) (hfits : Topology.star.Fits n) : Builds checks n .star (starList n) where
  inRange := by
    intro u v hd
    have hd := mem_starList.1 hd
    omega
  nodup := nodup_flatMap_of_key Prod.fst id (fun _ _ _ _ h => h) List.nodup_range'
    (fun _ _ => List.nodup_singleton _) (by simp)
  shape := by
    refine ⟨⟨0, by omega⟩, rfl, fun u v => ?_, fun d hd hs => ?_⟩
    · rw [starGraph_adj, mem_starList, mem_starList, Ne, Fin.ext_iff, Fin.ext_iff, Fin.ext_iff]
      have := u.isLt
      have := v.isLt
      dsimp only
      omega
    · obtain ⟨u, v⟩ := d
      have hd := mem_starList.1 hd
      have hs := mem_starList.1 hs
      omega
  count := by
    have hlen : (starList n).length = n - 1 := by simp [starList, List.length_flatMap]
    rw [Topology.numExpectedConnections, if_neg (by omega), fit_of_lt hfits, hlen, Nat.mul_comm]

/-! ## Tree -/

def treeList (n : Nat) : List Dial :=
  (List.range' 0 n).flatMap fun i =>
    (if 2 * i + 1 < n then [(i, 2 * i + 1)] else []) ++ if 2 * i + 2 < n then [(i, 2 * i + 2)] else []

theorem emits_treeDial (hp : peers.Accepting n) {i side : Nat} (hi : i < n) (hfits : 2 * i + side < 2 ^ 64) :
    Emits (treeDial peers checks n i side) () (if 2 * i + side < n then [(i, 2 * i + side)] else []) := by
  refine (emits_word (by omega)).after ((emits_word hfits).after ?_)
  split
  next hlt => exact emits_dial hp hi hlt
  next => exact emits_pure ()

theorem emits_treeDials (hp : peers.Accepting n) (hn : n * 2 < 2 ^ 64) :
    Emits (treeDials peers checks n) () (treeList n) :=
  emits_forRange fun i _ hi =>
    (emits_treeDial hp hi (by omega)).bind (emits_treeDial hp hi (by omega))

theorem mem_treeList {u v : Nat} : (u, v) ∈ treeList n ↔ (v = 2 * u + 1 ∨ v = 2 * u + 2) ∧ v < n := by
  simp only [treeList, List.mem_flatMap, List.mem_range'_1, List.mem_append, List.mem_ite_nil_right,
    List.mem_singleton, Prod.mk.injEq]
  constructor
  · rintro ⟨i, hi, ⟨hlt, rfl, rfl⟩ | ⟨hlt, rfl, rfl⟩⟩
    · exact ⟨.inl rfl, hlt⟩
    · exact ⟨.inr rfl, hlt⟩
  · rintro ⟨rfl | rfl, hlt⟩
    · exact ⟨u, by omega, .inl ⟨hlt, rfl, rfl⟩⟩
    · exact ⟨u, by omega, .inr ⟨hlt, rfl, rfl⟩⟩

theorem tree_builds (hn : 2 ≤ n) (hfits : Topology.tree.Fits n) : Builds checks n .tree (treeList n) where
  inRange := by
    intro u v hd
    have hd := mem_treeList.1 hd
    omega
  nodup := by
    refine nodup_flatMap_of_key Prod.fst id (fun _ _ _ _ h => h) List.nodup_range' (fun i _ => ?_) ?_
    · split <;> split <;> simp
    · intro i _ d hd
      simp only [List.mem_append, List.mem_ite_nil_right, List.mem_singleton] at hd
      rcases hd with ⟨-, rfl⟩ | ⟨-, rfl⟩ <;> rfl
  shape := by
    refine ⟨fun u v => ?_, fun d hd hs => ?_⟩
    · rw [heapTree, fromRel_adj, mem_treeList, mem_treeList, Ne, Fin.ext_iff]
      have := u.isLt
      have := v.isLt
      omega
    · obtain ⟨u, v⟩ := d
      have hd := (mem_treeList.1 hd).1
      have hs := (mem_treeList.1 hs).1
      omega
  count := by
    have hlen : (treeList n).length = n - 1 := by
      rw [treeList, length_flatMap_range']
      simp only [List.length_append, apply_ite List.length, List.length_singleton, List.length_nil]
      rw [Finset.sum_add_distrib, sum_ite_lt (m := n / 2) (by omega) fun i _ => by omega,
        sum_ite_lt (m := (n - 1) / 2) (by omega) fun i _ => by omega]
      omega
    have hdouble : (n - 1) * 2 < 2 ^ 64 := lt_of_le_of_lt (Nat.mul_le_mul_right 2 (Nat.sub_le n 1)) hfits
    rw [Topology.numExpectedConnections, if_neg (by omega), fit_of_lt hdouble, hlen, Nat.mul_comm]

/-! ## Grid -/

def cellList (width height row col : Nat) : List Dial :=
  (if col + 1 < width then [(row * width + col, row * width + col + 1)] else []) ++
    if row + 1 < height then [(row * width + col, row * width + col + width)] else []

def gridList (width height : Nat) : List Dial :=
  (List.range' 0 height).flatMap fun row => (List.range' 0 width).flatMap fun col => cellList width height row col

theorem emits_gridDial (checks : Bool) (hp : peers.Accepting n) {i pos bound stride : Nat} (hn : n < 2 ^ 64)
    (hpos : pos < bound) (hb : bound < 2 ^ 64) (hi : i < n) (hstride : pos + 1 < bound → i + stride < n) :
    Emits (gridDial peers checks n i pos bound stride) () (if pos + 1 < bound then [(i, i + stride)] else []) := by
  refine (emits_word (by omega)).after ?_
  split
  next hnext =>
    have htarget : i + stride < n := hstride hnext
    exact (emits_word (by omega)).after (emits_dial hp hi htarget)
  next => exact emits_pure ()

section
variable {width height row col : Nat}

theorem emits_gridCell (hp : peers.Accepting (width * height)) (hn : width * height < 2 ^ 64) (hrow : row < height)
    (hcol : col < width) : Emits (gridCell peers checks (width * height) width height row col) ()
      (cellList width height row col) := by
  have hi : row * width + col < width * height := cell_lt hrow hcol
  have hw : width ≤ width * height := width_le hrow
  have hh : height ≤ width * height := height_le hcol
  refine (emits_word (by omega)).after ((emits_word (by omega)).after ?_)
  have hright := emits_gridDial checks hp hn hcol (by omega) hi fun h => cell_right_lt hrow h
  have hdown := emits_gridDial checks hp hn hrow (by omega) hi fun h => cell_down_lt h hcol
  exact hright.bind hdown

theorem emits_gridDials (hp : peers.Accepting (width * height)) (hn : width * height < 2 ^ 64) :
    Emits (gridDials peers checks (width * height) width height) () (gridList width height) := by
  refine (emits_word hn).after ?_
  rw [if_neg (by simp)]
  exact emits_forRange fun row _ hrow => emits_forRange fun col _ hcol => emits_gridCell hp hn hrow hcol

theorem cell_div (hcol : col < width) : (row * width + col) / width = row := by
  rw [Nat.add_comm, Nat.add_mul_div_right _ _ (by omega), Nat.div_eq_of_lt hcol, Nat.zero_add]

theorem cell_mod (hcol : col < width) : (row * width + col) % width = col := by
  rw [Nat.add_comm, Nat.add_mul_mod_self_right, Nat.mod_eq_of_lt hcol]

theorem mem_cellList {u v : Nat} : (u, v) ∈ cellList width height row col ↔
    u = row * width + col ∧ (col + 1 < width ∧ v = u + 1 ∨ row + 1 < height ∧ v = u + width) := by
  simp only [cellList, List.mem_append, List.mem_ite_nil_right, List.mem_singleton, Prod.mk.injEq]
  constructor
  · rintro (⟨hnext, rfl, rfl⟩ | ⟨hnext, rfl, rfl⟩)
    · exact ⟨rfl, .inl ⟨hnext, rfl⟩⟩
    · exact ⟨rfl, .inr ⟨hnext, rfl⟩⟩
  · rintro ⟨rfl, ⟨hnext, rfl⟩ | ⟨hnext, rfl⟩⟩
    · exact .inl ⟨hnext, rfl, rfl⟩
    · exact .inr ⟨hnext, rfl, rfl⟩

theorem mem_gridList {u v : Nat} : (u, v) ∈ gridList width height ↔
    u < width * height ∧ (u % width + 1 < width ∧ v = u + 1 ∨ u / width + 1 < height ∧ v = u + width) := by
  simp only [gridList, List.mem_flatMap, List.mem_range'_1, mem_cellList]
  constructor
  · rintro ⟨row, hrow, col, hcol, rfl, hv⟩
    rw [cell_div (by omega), cell_mod (by omega)]
    exact ⟨cell_lt (by omega) (by omega), hv⟩
  · rintro ⟨hu, hv⟩
    have hw : 0 < width := Nat.pos_of_mul_pos_right (by omega : 0 < width * height)
    have hrow : u / width < height := Nat.div_lt_of_lt_mul hu
    have hcol : u % width < width := Nat.mod_lt _ hw
    exact ⟨u / width, ⟨Nat.zero_le _, by rwa [Nat.zero_add]⟩, u % width, ⟨Nat.zero_le _, by rwa [Nat.zero_add]⟩,
      (Nat.div_add_mod' u width).symm, hv⟩

theorem nodup_gridList : (gridList width height).Nodup := by
  refine nodup_flatMap_of_key (fun d => d.1 / width) id (fun _ _ _ _ h => h) List.nodup_range' (fun row _ => ?_) ?_
  · refine nodup_flatMap_of_key (fun d => d.1 % width) id (fun _ _ _ _ h => h) List.nodup_range' (fun col _ => ?_) ?_
    · rw [cellList]
      split <;> split <;> simp
      omega
    · rintro col hcol ⟨u, v⟩ hd
      rw [List.mem_range'_1] at hcol
      rw [(mem_cellList.1 hd).1]
      exact cell_mod (by omega)
  · rintro row _ ⟨u, v⟩ hd
    obtain ⟨col, hcol, hd⟩ := List.mem_flatMap.1 hd
    rw [List.mem_range'_1] at hcol
    rw [(mem_cellList.1 hd).1]
    exact cell_div (by omega)

/-- One step to the right, and one down, in coordinates. -/
theorem right_iff (hw : 0 < width) {u v : Nat} :
    u % width + 1 = v % width ∧ u / width = v / width ↔ u % width + 1 < width ∧ v = u + 1 := by
  constructor
  · rintro ⟨hmod, hdiv⟩
    have hlt := Nat.mod_lt v hw
    have hu := Nat.div_add_mod' u width
    have hv := Nat.div_add_mod' v width
    rw [← hdiv, ← hmod] at hv
    omega
  · rintro ⟨hlt, rfl⟩
    have hu : u + 1 = u / width * width + (u % width + 1) := by
      have := Nat.div_add_mod' u width
      omega
    exact ⟨by rw [hu, cell_mod hlt], by rw [hu, cell_div hlt]⟩

theorem down_iff (hw : 0 < width) {u v : Nat} :
    u / width + 1 = v / width ∧ u % width = v % width ↔ v = u + width := by
  constructor
  · rintro ⟨hdiv, hmod⟩
    have hu := Nat.div_add_mod' u width
    have hv := Nat.div_add_mod' v width
    rw [← hdiv, ← hmod, Nat.succ_mul] at hv
    omega
  · rintro rfl
    rw [Nat.add_div_right _ hw, Nat.add_mod_right]
    exact ⟨rfl, rfl⟩

theorem gridGraph_adj (h : n = height * width) (u v : Fin n) :
    ((gridGraph width height).comap (Fin.cast h)).Adj u v ↔
      (u.val / width + 1 = v.val / width ∨ v.val / width + 1 = u.val / width) ∧
          u.val % width = v.val % width ∨
        (u.val % width + 1 = v.val % width ∨ v.val % width + 1 = u.val % width) ∧
          u.val / width = v.val / width := by
  rw [gridGraph, comap_adj, comap_adj, boxProd_adj, pathGraph_adj, pathGraph_adj, Fin.ext_iff, Fin.ext_iff]
  rfl

theorem length_gridList : (gridList width height).length = (width - 1) * height + width * (height - 1) := by
  have hcell (row col : Nat) : (cellList width height row col).length =
      (if col + 1 < width then 1 else 0) + if row + 1 < height then 1 else 0 := by
    simp only [cellList, List.length_append, apply_ite List.length, List.length_singleton, List.length_nil]
  have hrow (row : Nat) : ((List.range' 0 width).flatMap fun col => cellList width height row col).length =
      (width - 1) + width * if row + 1 < height then 1 else 0 := by
    simp only [length_flatMap_range', hcell]
    rw [Finset.sum_add_distrib, sum_ite_lt (m := width - 1) (by omega) fun i _ => by omega, Finset.sum_const,
      Finset.card_range, smul_eq_mul]
  rw [gridList, length_flatMap_range']
  simp only [hrow]
  rw [Finset.sum_add_distrib, Finset.sum_const, Finset.card_range, smul_eq_mul, ← Finset.mul_sum,
    sum_ite_lt (m := height - 1) (by omega) fun i _ => by omega, Nat.mul_comm height]

theorem gridList_inRange (hw : 0 < width) {u v : Nat} (hd : (u, v) ∈ gridList width height) :
    u < width * height ∧ v < width * height ∧ u ≠ v := by
  obtain ⟨hu, hv⟩ := mem_gridList.1 hd
  have hcol : u % width < width := Nat.mod_lt _ hw
  have hrow : u / width < height := Nat.div_lt_of_lt_mul hu
  have hdiv := Nat.div_add_mod' u width
  rcases hv with ⟨hnext, rfl⟩ | ⟨hnext, rfl⟩
  · have := cell_right_lt hrow hnext
    omega
  · have := cell_down_lt hnext hcol
    omega

theorem gridList_draws (hw : 0 < width) (h : width * height = height * width) :
    Draws ((gridGraph width height).comap (Fin.cast h)) (gridList width height) := by
  intro u v
  have hu := u.isLt
  have hv := v.isLt
  -- what is below a cell is in the last row at most
  have hdown {a b : Nat} (hb : b < width * height) (h : b = a + width) : a / width + 1 < height := by
    have := ((down_iff hw).2 h).1
    have := Nat.div_lt_of_lt_mul hb
    omega
  rw [gridGraph_adj, mem_gridList, mem_gridList, ← right_iff hw, ← right_iff hw]
  constructor
  · rintro (⟨hdiv | hdiv, hmod⟩ | ⟨hmod | hmod, hdiv⟩)
    · have := (down_iff hw).1 ⟨hdiv, hmod⟩
      exact .inl ⟨hu, .inr ⟨hdown hv this, this⟩⟩
    · have := (down_iff hw).1 ⟨hdiv, hmod.symm⟩
      exact .inr ⟨hv, .inr ⟨hdown hu this, this⟩⟩
    · exact .inl ⟨hu, .inl ⟨hmod, hdiv⟩⟩
    · exact .inr ⟨hv, .inl ⟨hmod, hdiv.symm⟩⟩
  · rintro (⟨-, ⟨hmod, hdiv⟩ | ⟨-, hstep⟩⟩ | ⟨-, ⟨hmod, hdiv⟩ | ⟨-, hstep⟩⟩)
    · exact .inr ⟨.inl hmod, hdiv⟩
    · obtain ⟨hdiv, hmod⟩ := (down_iff hw).2 hstep
      exact .inl ⟨.inl hdiv, hmod⟩
    · exact .inr ⟨.inr hmod, hdiv.symm⟩
    · obtain ⟨hdiv, hmod⟩ := (down_iff hw).2 hstep
      exact .inl ⟨.inr hdiv, hmod.symm⟩

theorem grid_builds (hn : 2 ≤ width * height) (hfits : (Topology.grid width height).Fits (width * height)) :
    Builds checks (width * height) (.grid width height) (gridList width height) := by
  have hw : 0 < width := Nat.pos_of_mul_pos_right (by omega : 0 < width * height)
  refine ⟨fun u v => gridList_inRange hw, nodup_gridList, ⟨Nat.mul_comm _ _, gridList_draws hw _, ?_⟩, ?_⟩
  · rintro ⟨u, v⟩ hd hs
    have hd := (mem_gridList.1 hd).2
    have hs := (mem_gridList.1 hs).2
    omega
  · obtain ⟨-, hedges⟩ := hfits
    rw [Topology.numExpectedConnections, if_neg (by omega), length_gridList]
    simp only [fit_of_lt (by omega : (width - 1) * height < 2 ^ 64),
      fit_of_lt (by omega : width * (height - 1) < 2 ^ 64), Option.bind_eq_bind, Option.bind_some,
      fit_of_lt (by omega : (width - 1) * height + width * (height - 1) < 2 ^ 64), fit_of_lt hedges]
    rw [Nat.mul_comm]

end

/-! ## Random -/

def randomList (n : Nat) (targets : Nat → List Nat) : List Dial :=
  (List.range' 0 n).flatMap fun i => (targets i).map (i, ·)

theorem mem_randomList {targets : Nat → List Nat} {u v : Nat} :
    (u, v) ∈ randomList n targets ↔ u < n ∧ v ∈ targets u := by
  simp only [randomList, List.mem_flatMap, List.mem_range'_1, List.mem_map, Prod.mk.injEq]
  constructor
  · rintro ⟨i, hi, t, ht, rfl, rfl⟩
    exact ⟨by omega, ht⟩
  · rintro ⟨hu, hv⟩
    exact ⟨u, by omega, v, hv, rfl, rfl⟩

theorem random_builds {degree : Nat} {seed : BitVec 64} {targets : Nat → List Nat} (hn : 2 ≤ n)
    (hfits : (Topology.random degree seed).Fits n) (ht : ∀ i < n, Completes n i degree ∅ (targets i)) :
    Builds checks n (.random degree seed) (randomList n targets) where
  inRange := by
    intro u v hd
    obtain ⟨hu, hv⟩ := mem_randomList.1 hd
    obtain ⟨-, hne, hlt⟩ := (ht u hu).others v hv
    exact ⟨hu, hlt, hne.symm⟩
  nodup := by
    refine nodup_flatMap_of_key Prod.fst id (fun _ _ _ _ h => h) List.nodup_range' (fun i hi => ?_) (by simp)
    rw [List.mem_range'_1] at hi
    exact (ht i (by omega)).nodup.map fun _ _ h => (Prod.mk.inj h).2
  shape := by
    intro i hi
    have hlen := (ht i hi).degree
    rw [Finset.card_empty, Nat.zero_add] at hlen
    have hpart (j : Nat) : (((targets j).map (j, ·)).filter (·.1 = i)).length = if j = i then degree else 0 := by
      split
      next h => subst h; simp [List.filter_map, Function.comp_def, hlen]
      next h => simp [List.filter_map, Function.comp_def, h]
    rw [randomList, List.filter_flatMap, length_flatMap_range']
    simp [hpart, hi]
  count := by
    have hlen : (randomList n targets).length = n * degree := by
      rw [randomList, length_flatMap_range', Finset.sum_congr rfl fun i hi => ?_, Finset.sum_const,
        Finset.card_range, smul_eq_mul]
      rw [List.length_map]
      simpa using (ht i (Finset.mem_range.1 hi)).degree
    have hd : n * degree * 2 < 2 ^ 64 := hfits
    rw [Topology.numExpectedConnections, if_neg (by omega), hlen]
    simp only [fit_of_lt (by omega : n * degree < 2 ^ 64), Option.bind_eq_bind, Option.bind_some, fit_of_lt hd]
    rw [Nat.mul_comm]

theorem emits_randomDials {degree rounds : Nat} {seed : BitVec 64} (hp : peers.Accepting n)
    (hdeg : degree < n) (hfits : (Topology.random degree seed).Fits n) (hr : 2 ^ 64 ≤ rounds) :
    ∃ targets : Nat → List Nat, (∀ i < n, Completes n i degree ∅ (targets i)) ∧
      Emits (randomDials peers checks rounds n degree seed) () (randomList n targets) := by
  have hpick (i : Nat) : ∃ targets, i < n → Completes n i degree ∅ targets ∧
      Emits (pickTargets peers checks n i degree seed rounds 0 ∅) () (targets.map (i, ·)) := by
    by_cases hi : i < n
    · obtain ⟨targets, hcomp, hemits⟩ := emits_pickTargets checks seed hp hi hdeg hfits hr
      exact ⟨targets, fun _ => ⟨hcomp, hemits⟩⟩
    · exact ⟨[], fun h => absurd h hi⟩
  choose targets htargets using hpick
  refine ⟨targets, fun i hi => (htargets i hi).1, ?_⟩
  rw [randomDials, if_neg (by omega)]
  exact emits_forRange fun i _ hi => (htargets i hi).2

end

/-- For two nodes and more and a topology that is accepted and overflows
nothing, `connect_nodes` dials every edge of the graph the topology is named
after, and as often as `num_expected_connections` says. -/
theorem connectNodes_builds (peers : Peers) (checks : Bool) (rounds n : Nat) (t : Topology)
    (hp : peers.Accepting n) (hn : 2 ≤ n) (ha : t.Accepted n) (hfits : t.Fits n) (hr : 2 ^ 64 ≤ rounds) :
    ∃ dials, (connectNodes peers checks rounds n t).exec = (.ok (), dials) ∧ Builds checks n t dials := by
  have hnot : ¬ n < 2 := by omega
  simp only [connectNodes, if_neg hnot]
  cases t with
  | line =>
    have hmax : (n - 1) * 2 < 2 ^ 64 := hfits
    exact ⟨_, (emits_lineDials hp (by omega)).exec, line_builds hn hfits⟩
  | ring =>
    have hmax : n * 2 < 2 ^ 64 := hfits
    have hlast := emits_dial hp (by omega : n - 1 < n) (by omega : 0 < n)
    exact ⟨_, ((emits_lineDials hp (by omega)).bind hlast).exec, ring_builds hn hfits⟩
  | mesh =>
    have hmax : n ≤ (n - 1) * n := Nat.le_mul_of_pos_left n (by omega)
    have hmesh : (n - 1) * n < 2 ^ 64 := hfits
    exact ⟨_, (emits_meshDials hp (by omega)).exec, mesh_builds hn hfits⟩
  | star => exact ⟨_, (emits_starDials hp hn).exec, star_builds hn hfits⟩
  | grid width height =>
    obtain rfl : width * height = n := ha
    exact ⟨_, (emits_gridDials hp hfits.1).exec, grid_builds hn hfits⟩
  | tree => exact ⟨_, (emits_treeDials hp hfits).exec, tree_builds hn hfits⟩
  | random degree seed =>
    obtain ⟨targets, hcomp, hemits⟩ := emits_randomDials hp ha hfits hr
    exact ⟨_, hemits.exec, random_builds hn hfits hcomp⟩

theorem connectNodes_builds_lattice :
    ∃ dials, (connectNodes obliging true (2 ^ 64) 6 (.grid 3 2)).exec = (.ok (), dials) ∧
      Builds true 6 (.grid 3 2) dials :=
  connectNodes_builds obliging true (2 ^ 64) 6 (.grid 3 2) (obliging_accepting 6) (by decide) rfl
    ⟨by decide, by decide⟩ (Nat.le_refl _)

end Pea2Pea.ConnectNodes
