/-
Connecting a list of nodes to a graph (`topology.rs`): `connect_nodes` as the
sequence of dials it makes, each from one index of the list to another, and
the connection count `num_expected_connections` promises.

`usize` is 64 bits wide. Its arithmetic is modelled for both kinds of build,
the one that panics on overflow (`checks`) and the one that wraps. What the
nodes answer to `listening_addr` and `connect` is arbitrary and may depend on
all dials made before.

`connect_nodes` validates the dimensions of a grid by an unchecked product.
The validation is exact, and the loops stay in range, as long as the product
fits in a word and no longer.
-/
import Pea2Pea.Lib.Logged
import Pea2Pea.Lib.Words
import Pea2Pea.Node

namespace Pea2Pea.ConnectNodes

open Logged Words

/-- `Topology`. -/
inductive Topology
  | line
  | ring
  | mesh
  | star
  | grid (width height : Nat)
  | tree
  | random (degree : Nat) (seed : BitVec 64)
  deriving DecidableEq

/-- `Topology::num_expected_connections`; nothing if it overflows and panics. -/
def Topology.numExpectedConnections (checks : Bool) (t : Topology) (numNodes : Nat) : Option Nat :=
  if numNodes = 0 then some 0
  else match t with
    | .line => fit 64 checks ((numNodes - 1) * 2)
    | .ring => fit 64 checks (numNodes * 2)
    | .mesh => fit 64 checks ((numNodes - 1) * numNodes)
    | .star => fit 64 checks ((numNodes - 1) * 2)
    | .grid width height => do
      let horizontal ← fit 64 checks ((width - 1) * height)
      let vertical ← fit 64 checks (width * (height - 1))
      let edges ← fit 64 checks (horizontal + vertical)
      fit 64 checks (edges * 2)
    | .tree => fit 64 checks ((numNodes - 1) * 2)
    | .random degree _ => do
      let outbound ← fit 64 checks (numNodes * degree)
      fit 64 checks (outbound * 2)

/-! ## The nodes -/

/-- A call of `connect` by the node at the first index, with the listening
address of the node at the second. -/
abbrev Dial := Nat × Nat

/-- How the nodes answer, given the dials made so far. -/
structure Peers where
  listeningAddr : List Dial → Nat → Except IoError SocketAddr
  connect : List Dial → Nat → SocketAddr → Except IoError Unit

/-- Why `connect_nodes` stops early: it returns an error or panics. The last
is the model's own: a loop has used up the rounds it was given. -/
inductive Stop
  | failed (e : IoError)
  | panicked
  | exhausted
  deriving DecidableEq

/-- A part of `connect_nodes`, with the dials it makes. -/
abbrev Building := Logged Dial Stop

/-- `?`. -/
def orFail {α : Type} : Except IoError α → Building α
  | .ok a => pure a
  | .error e => throw (.failed e)

/-- The value of a `usize` or `u64` operation. -/
def word (checks : Bool) (x : Nat) : Building Nat :=
  match fit 64 checks x with
  | some y => pure y
  | none => throw .panicked

/-- `nodes[i]`. -/
def index (count i : Nat) : Building Unit := if i < count then pure () else throw .panicked

/-- `nodes[j].node().listening_addr().await?`. -/
def listeningAddr (peers : Peers) (count j : Nat) : Building SocketAddr := do
  index count j
  orFail (peers.listeningAddr (← get) j)

/-- `nodes[i].node().connect(addr).await?`, with the address of node `j`. -/
def connect (peers : Peers) (count i j : Nat) (addr : SocketAddr) : Building Unit := do
  index count i
  let dials ← get
  tell (i, j)
  orFail (peers.connect dials i addr)

/-- Node `i` dials node `j`. -/
def dial (peers : Peers) (count i j : Nat) : Building Unit := do
  let addr ← listeningAddr peers count j
  connect peers count i j addr

/-! ## The topologies -/

def lineDials (peers : Peers) (checks : Bool) (count : Nat) : Building Unit :=
  forRange 0 (count - 1) fun i => do
    let next ← word checks (i + 1)
    dial peers count i next

def meshDials (peers : Peers) (checks : Bool) (count : Nat) : Building Unit :=
  forRange 0 count fun i => do
    let next ← word checks (i + 1)
    forRange next count fun j => dial peers count i j

def starDials (peers : Peers) (count : Nat) : Building Unit := do
  let hubAddr ← listeningAddr peers count 0
  forRange 1 count fun i => connect peers count i 0 hubAddr

/-- The error for dimensions that do not match the number of nodes. -/
def gridMismatch (width height product count : Nat) : IoError :=
  ⟨.invalidInput, "Grid topology dimensions (" ++ toString width ++ "x" ++ toString height ++ " = " ++
    toString product ++ ") do not match the number of nodes (" ++ toString count ++ ")"⟩

/-- A node of the grid dials its neighbour in one direction, if it is not the
last in that direction: at place `pos` of `bound`, the next is `stride` away. -/
def gridDial (peers : Peers) (checks : Bool) (count i pos bound stride : Nat) : Building Unit := do
  if (← word checks (pos + 1)) < bound then
    let target ← word checks (i + stride)
    dial peers count i target

def gridCell (peers : Peers) (checks : Bool) (count width height row col : Nat) : Building Unit := do
  let i ← word checks ((← word checks (row * width)) + col)
  -- connect right
  gridDial peers checks count i col width 1
  -- connect down
  gridDial peers checks count i row height width

def gridDials (peers : Peers) (checks : Bool) (count width height : Nat) : Building Unit := do
  let product ← word checks (width * height)
  if product ≠ count then throw (.failed (gridMismatch width height product count))
  else forRange 0 height fun row =>
    forRange 0 width fun col => gridCell peers checks count width height row col

/-- A node of the tree dials its left (`side = 1`) or right (`side = 2`) child. -/
def treeDial (peers : Peers) (checks : Bool) (count i side : Nat) : Building Unit := do
  let child ← word checks ((← word checks (2 * i)) + side)
  if child < count then dial peers count i child

def treeDials (peers : Peers) (checks : Bool) (count : Nat) : Building Unit :=
  forRange 0 count fun i => do
    treeDial peers checks count i 1
    treeDial peers checks count i 2

/-- The mixer of the random topology. -/
def mix (x : BitVec 64) : BitVec 64 := xorShift 32 (x * 0x517cc1b727220a95#64)

/-- The node an attempt picks. -/
def target (count i : Nat) (seed : BitVec 64) (attempt : Nat) : Nat :=
  (mix (BitVec.ofNat 64 i + seed + BitVec.ofNat 64 attempt)).toNat % count

/-- `while chosen_targets.len() < degree`, for at most so many rounds. -/
def pickTargets (peers : Peers) (checks : Bool) (count i degree : Nat) (seed : BitVec 64) :
    (rounds attempt : Nat) → (chosenTargets : Finset Nat) → Building Unit
  | 0, _, _ => throw .exhausted
  | rounds + 1, attempt, chosenTargets =>
    if chosenTargets.card < degree then do
      let attempt ← word checks (attempt + 1)
      let target := target count i seed attempt
      if target ≠ i ∧ target ∉ chosenTargets then
        dial peers count i target
        pickTargets peers checks count i degree seed rounds attempt (insert target chosenTargets)
      else pickTargets peers checks count i degree seed rounds attempt chosenTargets
    else pure ()

def randomDials (peers : Peers) (checks : Bool) (rounds count degree : Nat) (seed : BitVec 64) :
    Building Unit :=
  if degree ≥ count then throw (.failed ⟨.invalidInput, "Random topology degree cannot exceed N-1"⟩)
  else forRange 0 count fun i => pickTargets peers checks count i degree seed rounds 0 ∅

/-- `connect_nodes`. -/
def connectNodes (peers : Peers) (checks : Bool) (rounds count : Nat) (topology : Topology) :
    Building Unit :=
  if count < 2 then throw (.failed ⟨.invalidInput, "invalid input parameter"⟩)
  else match topology with
    | .line => lineDials peers checks count
    | .ring => do
      lineDials peers checks count
      dial peers count (count - 1) 0
    | .mesh => meshDials peers checks count
    | .star => starDials peers count
    | .grid width height => gridDials peers checks count width height
    | .tree => treeDials peers checks count
    | .random degree seed => randomDials peers checks rounds count degree seed

/-! ## One dial -/

section
variable {peers : Peers} {checks : Bool} {count i j : Nat}

theorem emits_word {x : Nat} (h : x < 2 ^ 64) : Emits (word checks x) x [] := by
  rw [word, fit_of_lt h]
  exact emits_pure x

theorem emits_index (h : i < count) : Emits (index count i) () [] := by
  rw [index, if_pos h]
  exact emits_pure ()

/-- An error of a node is passed on; nothing else stops a dial between nodes
of the list. -/
def Reported : Stop → Prop
  | .failed _ => True
  | _ => False

/-- Both ends of a dial are in the list. -/
def InRange (count : Nat) (d : Dial) : Prop := d.1 < count ∧ d.2 < count

theorem confined_orFail {α : Type} (r : Except IoError α) : Confined (InRange count) Reported (orFail r) := by
  cases r with
  | ok a => exact confined_pure a
  | error e => exact confined_throw trivial

theorem confined_get : Confined (InRange count) Reported (get : Building (List Dial)) :=
  fun log => ⟨⟨[], by rw [List.append_nil]; rfl, by simp⟩, fun e he => by cases he⟩

theorem confined_dial (hi : i < count) (hj : j < count) :
    Confined (InRange count) Reported (dial peers count i j) := by
  refine Confined.bind ?_ fun addr => ?_
  · exact (emits_index hj).confined_bind (confined_get.bind fun dials => confined_orFail _)
  · refine (emits_index hi).confined_bind (confined_get.bind fun dials => ?_)
    refine Confined.bind ((emits_tell (i, j)).confined ?_) fun _ => confined_orFail _
    intro d hd
    rw [List.mem_singleton.1 hd]
    exact ⟨hi, hj⟩

end

/-! ## Validating a grid -/

section
variable {peers : Peers} {checks : Bool} {count width height row col : Nat}

theorem confined_gridDial {i pos bound stride : Nat} (hc : count < 2 ^ 64) (hpos : pos < bound)
    (hb : bound < 2 ^ 64) (hi : i < count) (hstride : pos + 1 < bound → i + stride < count) :
    Confined (InRange count) Reported (gridDial peers checks count i pos bound stride) := by
  refine (emits_word (by omega)).confined_bind ?_
  split
  next hnext =>
    have htarget : i + stride < count := hstride hnext
    exact (emits_word (by omega)).confined_bind (confined_dial hi htarget)
  next => exact confined_pure ()

/-- The index of a place of the grid, and of its neighbours. -/
theorem cell_lt (hrow : row < height) (hcol : col < width) : row * width + col < width * height := by
  have hr : (row + 1) * width ≤ height * width := Nat.mul_le_mul_right width hrow
  rw [Nat.succ_mul] at hr
  rw [Nat.mul_comm width height]
  omega

theorem cell_right_lt (hrow : row < height) (hcol : col + 1 < width) :
    row * width + col + 1 < width * height := cell_lt hrow hcol

theorem cell_down_lt (hrow : row + 1 < height) (hcol : col < width) :
    row * width + col + width < width * height := by
  have hd := cell_lt hrow hcol
  rw [Nat.succ_mul] at hd
  omega

theorem width_le (hrow : row < height) : width ≤ width * height := Nat.le_mul_of_pos_right _ (by omega)

theorem height_le (hcol : col < width) : height ≤ width * height := Nat.le_mul_of_pos_left _ (by omega)

theorem confined_gridCell (hc : width * height < 2 ^ 64) (hrow : row < height) (hcol : col < width) :
    Confined (InRange (width * height)) Reported
      (gridCell peers checks (width * height) width height row col) := by
  have hi : row * width + col < width * height := cell_lt hrow hcol
  have hw : width ≤ width * height := width_le hrow
  have hh : height ≤ width * height := height_le hcol
  refine (emits_word (by omega)).confined_bind ((emits_word (by omega)).confined_bind ?_)
  refine Confined.bind ?_ fun _ => ?_
  · exact confined_gridDial hc hcol (by omega) hi fun h => cell_right_lt hrow h
  · exact confined_gridDial hc hrow (by omega) hi fun h => cell_down_lt h hcol

/-- What the validation is for: dimensions with another product than the
number of nodes are refused with nothing dialed, and with the right one
nothing panics and every index is in range. -/
def Validates (peers : Peers) (checks : Bool) (rounds count width height : Nat) : Prop :=
  (width * height ≠ count →
    ∃ text, (connectNodes peers checks rounds count (.grid width height)).exec =
      (.error (.failed ⟨.invalidInput, text⟩), [])) ∧
  (width * height = count →
    ∀ outcome dials, (connectNodes peers checks rounds count (.grid width height)).exec = (outcome, dials) →
      (∀ e, outcome = .error e → Reported e) ∧ ∀ d ∈ dials, InRange count d)

variable {rounds : Nat}

theorem grid_refused (hcount : 2 ≤ count) (hfits : width * height < 2 ^ 64) (hne : width * height ≠ count) :
    (connectNodes peers checks rounds count (.grid width height)).exec =
      (.error (.failed (gridMismatch width height (width * height) count)), []) := by
  have hproduct : (word checks (width * height)).runFrom [] = (.ok (width * height), []) := emits_word hfits []
  simp only [connectNodes, if_neg (Nat.not_lt.2 hcount), gridDials, exec]
  rw [runFrom_bind_ok hproduct, if_pos hne, runFrom_throw]

theorem confined_grid (hcount : 2 ≤ width * height) (hfits : width * height < 2 ^ 64) :
    Confined (InRange (width * height)) Reported
      (connectNodes peers checks rounds (width * height) (.grid width height)) := by
  simp only [connectNodes, if_neg (Nat.not_lt.2 hcount), gridDials]
  refine (emits_word hfits).confined_bind ?_
  rw [if_neg (by simp)]
  exact confined_forRange fun row _ hrow => confined_forRange fun col _ hcol => confined_gridCell hfits hrow hcol

/-- The product itself panics where overflow is checked. -/
theorem grid_overflow (hcount : 2 ≤ count) (hover : ¬ width * height < 2 ^ 64) :
    (connectNodes peers true rounds count (.grid width height)).exec = (.error .panicked, []) := by
  have hproduct : (word true (width * height)).runFrom [] = (.error .panicked, []) := by
    rw [word, fit, if_neg hover, if_pos rfl]
    exact runFrom_throw _ _
  simp only [connectNodes, if_neg (Nat.not_lt.2 hcount), gridDials, exec]
  rw [runFrom_bind_error hproduct]

end

/-- Dimensions are validated, in both kinds of build, exactly if their product
fits in a word; the refusal then tells the product and the number of
nodes. -/
theorem grid_validated (peers : Peers) (rounds count width height : Nat) (hcount : 2 ≤ count) :
    ((∀ checks, Validates peers checks rounds count width height) ↔ width * height < 2 ^ 64) ∧
    (width * height < 2 ^ 64 → width * height ≠ count → ∀ checks,
      (connectNodes peers checks rounds count (.grid width height)).exec =
        (.error (.failed (gridMismatch width height (width * height) count)), [])) := by
  refine ⟨⟨fun hall => ?_, fun hfits checks => ⟨fun hne => ?_, fun heq outcome dials hexec => ?_⟩⟩,
    fun hfits hne _ => grid_refused hcount hfits hne⟩
  · by_contra hover
    have hpanics : (connectNodes peers true rounds count (.grid width height)).exec = (.error .panicked, []) :=
      grid_overflow hcount hover
    by_cases hne : width * height = count
    · exact ((hall true).2 hne _ _ hpanics).1 _ rfl
    · obtain ⟨text, hrefused⟩ := (hall true).1 hne
      rw [hpanics] at hrefused
      cases hrefused
  · exact ⟨_, grid_refused hcount hfits hne⟩
  · subst heq
    have hconfined : Confined (InRange (width * height)) Reported
        (connectNodes peers checks rounds (width * height) (.grid width height)) := confined_grid hcount hfits
    obtain ⟨⟨ws, hws, hin⟩, hstop⟩ := hconfined []
    rw [← exec, hexec] at hws hstop
    refine ⟨hstop, fun d hd => hin d ?_⟩
    have hdials : dials = [] ++ ws := hws
    rwa [hdials] at hd

/-- Nodes that answer every call. -/
def obliging : Peers where
  listeningAddr _ j := .ok (.v4 0x7f000001#32 (BitVec.ofNat 16 j))
  connect _ _ _ := .ok ()

theorem grid_validated_square :
    (∀ e, (connectNodes obliging true 0 4 (.grid 2 2)).exec.1 = .error e → Reported e) ∧
      ∀ d ∈ (connectNodes obliging true 0 4 (.grid 2 2)).exec.2, InRange 4 d :=
  ((grid_validated obliging 0 4 2 2 (by decide)).1.2 (by decide) true).2 rfl _ _ rfl

/-- Two nodes and a grid of two by `2 ^ 63 + 1`, whose product is two more
than the number of words. A build that checks for overflow panics on the
product. One that wraps accepts the dimensions, dials, and panics on an index
out of range. -/
theorem grid_wraps :
    2 * (2 ^ 63 + 1) ≠ 2 ∧
      (connectNodes obliging true 0 2 (.grid 2 (2 ^ 63 + 1))).exec = (.error .panicked, []) ∧
      (connectNodes obliging false 0 2 (.grid 2 (2 ^ 63 + 1))).exec = (.error .panicked, [(0, 1)]) := by
  refine ⟨by decide, ?_, ?_⟩
  · decide +kernel
  · decide +kernel

end Pea2Pea.ConnectNodes
