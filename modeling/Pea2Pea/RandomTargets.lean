/-
The random topology's choice of targets (`connect_nodes`, `Topology::Random`)
ends, although its loop has no bound: the mixer is a permutation of the
64-bit words, so over all attempts every residue is picked, and picked by an
attempt other than the unused zeroth because there are two words to it.

`reached` is what the loop has chosen after so many attempts. It grows by at
most one node a round and has all the others of the list once the attempts
run out, so the degree is met on the way (`pick_from`), and the attempt
counter has not overflowed by then.
-/
import Pea2Pea.Topology

namespace Pea2Pea.ConnectNodes

open Logged Words

/-! ## Nodes that can be dialed -/

/-- Every dial between nodes of the list succeeds. -/
structure Peers.Accepting (peers : Peers) (count : Nat) : Prop where
  listens : ∀ dials, ∀ j < count, ∃ addr, peers.listeningAddr dials j = .ok addr
  accepts : ∀ dials, ∀ i < count, ∀ addr, peers.connect dials i addr = .ok ()

section
variable {peers : Peers} {count i j : Nat}

theorem runFrom_listeningAddr (hp : peers.Accepting count) (hj : j < count) (log : List Dial) :
    ∃ addr, (listeningAddr peers count j).runFrom log = (.ok addr, log) := by
  obtain ⟨addr, haddr⟩ := hp.listens log j hj
  refine ⟨addr, ?_⟩
  rw [listeningAddr, index, if_pos hj, runFrom_bind_ok (runFrom_pure () log), runFrom_bind_ok (runFrom_get log),
    haddr]
  rfl

theorem emits_connect (hp : peers.Accepting count) (hi : i < count) (addr : SocketAddr) :
    Emits (connect peers count i j addr) () [(i, j)] := by
  intro log
  rw [connect, index, if_pos hi, runFrom_bind_ok (runFrom_pure () log), runFrom_bind_ok (runFrom_get log),
    runFrom_bind_ok (runFrom_tell (i, j) log), hp.accepts log i hi addr]
  rfl

theorem emits_dial (hp : peers.Accepting count) (hi : i < count) (hj : j < count) :
    Emits (dial peers count i j) () [(i, j)] := by
  intro log
  obtain ⟨addr, haddr⟩ := runFrom_listeningAddr hp hj log
  rw [dial, runFrom_bind_ok haddr]
  exact emits_connect hp hi addr log

end

/-! ## The mixer -/

theorem mix_injective : Function.Injective mix := by
  have hinv : 0x517cc1b727220a95#64 * 0x2040003d780970bd#64 = 1#64 := by decide
  exact (xorShift_injective (by decide)).comp (mul_right_injective hinv)

/-- Every node of the list is the target of some attempt. -/
theorem exists_attempt (i : Nat) (seed : BitVec 64) {count t : Nat} (hcount : count ≤ 2 ^ 63) (ht : t < count) :
    ∃ a, a + 1 < 2 ^ 64 ∧ target count i seed (a + 1) = t := by
  obtain ⟨x, hx, hmod⟩ := exists_mod_eq_ne mix_injective ht (by omega) (BitVec.ofNat 64 i + seed)
  have hne : x - (BitVec.ofNat 64 i + seed) ≠ 0#64 := fun h => hx (sub_eq_zero.1 h)
  have hpos : (x - (BitVec.ofNat 64 i + seed)).toNat ≠ 0 := fun h => hne (BitVec.eq_of_toNat_eq h)
  obtain ⟨a, ha⟩ := Nat.exists_eq_succ_of_ne_zero hpos
  refine ⟨a, ?_, ?_⟩
  · rw [← Nat.succ_eq_add_one, ← ha]
    exact BitVec.isLt _
  · rw [← Nat.succ_eq_add_one, ← ha, target, BitVec.ofNat_toNat, BitVec.setWidth_eq, BitVec.add_comm,
      BitVec.sub_add_cancel, hmod]

/-! ## What has been chosen -/

/-- The targets of the first `n` attempts, the node itself left out. -/
def reached (count i : Nat) (seed : BitVec 64) (n : Nat) : Finset Nat :=
  ((Finset.range n).image fun a => target count i seed (a + 1)).erase i

theorem reached_zero (count i : Nat) (seed : BitVec 64) : reached count i seed 0 = ∅ := by simp [reached]

theorem reached_succ (count i : Nat) (seed : BitVec 64) (n : Nat) : reached count i seed (n + 1) =
    if target count i seed (n + 1) ≠ i ∧ target count i seed (n + 1) ∉ reached count i seed n then
      insert (target count i seed (n + 1)) (reached count i seed n)
    else reached count i seed n := by
  have himage : reached count i seed (n + 1) =
      (insert (target count i seed (n + 1))
        ((Finset.range n).image fun a => target count i seed (a + 1))).erase i := by
    rw [reached, Finset.range_add_one, Finset.image_insert]
  rw [himage]
  split
  next h => exact Finset.erase_insert_of_ne h.1
  next h =>
    by_cases hi : target count i seed (n + 1) = i
    · rw [hi, Finset.erase_insert_eq_erase, reached]
    · have hmem : target count i seed (n + 1) ∈ reached count i seed n := by
        by_contra hn
        exact h ⟨hi, hn⟩
      rw [Finset.erase_insert_of_ne hi]
      exact Finset.insert_eq_of_mem hmem

/-- All attempts together reach every other node. -/
theorem reached_all {count i : Nat} (seed : BitVec 64) (hcount : count ≤ 2 ^ 63) (hi : i < count) :
    count - 1 ≤ (reached count i seed (2 ^ 64 - 1)).card := by
  have hsub : (Finset.range count).erase i ⊆ reached count i seed (2 ^ 64 - 1) := by
    intro t ht
    obtain ⟨hne, hlt⟩ := Finset.mem_erase.1 ht
    obtain ⟨a, hmax, ha⟩ := exists_attempt i seed hcount (Finset.mem_range.1 hlt)
    exact Finset.mem_erase.2 ⟨hne, Finset.mem_image.2 ⟨a, Finset.mem_range.2 (by omega), ha⟩⟩
  calc count - 1 = ((Finset.range count).erase i).card := by
        rw [Finset.card_erase_of_mem (Finset.mem_range.2 hi), Finset.card_range]
    _ ≤ (reached count i seed (2 ^ 64 - 1)).card := Finset.card_le_card hsub

/-! ## The loop -/

/-- `targets` complete a choice to the degree: none is repeated, none is the
node itself, and all are in the list. -/
structure Completes (count i degree : Nat) (chosen : Finset Nat) (targets : List Nat) : Prop where
  nodup : targets.Nodup
  others : ∀ t ∈ targets, t ∉ chosen ∧ t ≠ i ∧ t < count
  degree : chosen.card + targets.length = degree

section
variable {peers : Peers} {checks : Bool} {count i degree : Nat} {seed : BitVec 64}

theorem completes_nil {chosen : Finset Nat} (h : chosen.card = degree) : Completes count i degree chosen [] :=
  ⟨List.nodup_nil, by simp, by simpa using h⟩

theorem Completes.insert {chosen : Finset Nat} {t : Nat} {targets : List Nat}
    (h : Completes count i degree (insert t chosen) targets) (hnew : t ∉ chosen) (hi : t ≠ i) (hlt : t < count) :
    Completes count i degree chosen (t :: targets) := by
  refine ⟨List.nodup_cons.2 ⟨fun ht => ?_, h.nodup⟩, fun t' ht' => ?_, ?_⟩
  · exact (h.others t ht).1 (Finset.mem_insert_self t chosen)
  · rcases List.mem_cons.1 ht' with rfl | ht'
    · exact ⟨hnew, hi, hlt⟩
    · obtain ⟨hout, hrest⟩ := h.others t' ht'
      exact ⟨fun hc => hout (Finset.mem_insert_of_mem hc), hrest⟩
  · have hd := h.degree
    rw [Finset.card_insert_of_notMem hnew] at hd
    rw [List.length_cons]
    omega

theorem emits_pickTargets_done {chosen : Finset Nat} (h : chosen.card = degree) (n : Nat) {rounds : Nat}
    (hr : 0 < rounds) : Emits (pickTargets peers checks count i degree seed rounds n chosen) () [] := by
  cases rounds with
  | zero => cases hr
  | succ rounds =>
    rw [pickTargets, if_neg (by omega)]
    exact emits_pure ()

/-- From the choice after `n` attempts the loop completes it, in at most the
attempts that are left (`m`) before the counter overflows. -/
theorem pick_from (checks : Bool) (seed : BitVec 64) (hp : peers.Accepting count) (hcount : count ≤ 2 ^ 63)
    (hi : i < count) (hdeg : degree < count) (m n : Nat) (hn : n + m = 2 ^ 64 - 1)
    (hcard : (reached count i seed n).card ≤ degree) :
    ∃ k targets, k ≤ m ∧ Completes count i degree (reached count i seed n) targets ∧
      ∀ rounds, k < rounds →
        Emits (pickTargets peers checks count i degree seed rounds n (reached count i seed n)) ()
          (targets.map (i, ·)) := by
  induction m generalizing n with
  | zero =>
    have hall := reached_all seed hcount hi
    rw [← hn, Nat.add_zero] at hall
    have hdone : (reached count i seed n).card = degree := by omega
    exact ⟨0, [], Nat.le_refl _, completes_nil hdone, fun rounds hr => emits_pickTargets_done hdone n hr⟩
  | succ m ih =>
    by_cases hdone : (reached count i seed n).card = degree
    · exact ⟨0, [], Nat.zero_le _, completes_nil hdone, fun rounds hr => emits_pickTargets_done hdone n hr⟩
    have hround {rounds : Nat} (hr : 0 < rounds) : ∃ r, rounds = r + 1 := ⟨rounds - 1, by omega⟩
    have hsucc := reached_succ count i seed n
    split at hsucc
    next hnew =>
      -- the attempt picks another node
      have hlt : target count i seed (n + 1) < count := Nat.mod_lt _ (by omega)
      have hcard' : (reached count i seed (n + 1)).card ≤ degree := by
        rw [hsucc, Finset.card_insert_of_notMem hnew.2]
        omega
      obtain ⟨k, targets, hk, hcomp, hemits⟩ := ih (n + 1) (by omega) hcard'
      rw [hsucc] at hcomp hemits
      refine ⟨k + 1, _ :: targets, by omega, hcomp.insert hnew.2 hnew.1 hlt, fun rounds hr => ?_⟩
      obtain ⟨r, rfl⟩ := hround (by omega : 0 < rounds)
      rw [pickTargets, if_pos (by omega)]
      refine (emits_word (by omega)).after ?_
      rw [if_pos hnew]
      exact (emits_dial hp hi hlt).bind (hemits r (by omega))
    next hold =>
      -- the attempt picks the node itself, or one it has
      obtain ⟨k, targets, hk, hcomp, hemits⟩ := ih (n + 1) (by omega) (by rw [hsucc]; exact hcard)
      rw [hsucc] at hcomp hemits
      refine ⟨k + 1, targets, by omega, hcomp, fun rounds hr => ?_⟩
      obtain ⟨r, rfl⟩ := hround (by omega : 0 < rounds)
      rw [pickTargets, if_pos (by omega)]
      refine (emits_word (by omega)).after ?_
      rw [if_neg hold]
      exact hemits r (by omega)

/-- The whole loop, with as many rounds as there are words; a degree of zero
needs none. -/
theorem emits_pickTargets (checks : Bool) (seed : BitVec 64) (hp : peers.Accepting count) (hi : i < count)
    (hdeg : degree < count) (hfits : count * degree * 2 < 2 ^ 64) {rounds : Nat} (hr : 2 ^ 64 ≤ rounds) :
    ∃ targets, Completes count i degree ∅ targets ∧
      Emits (pickTargets peers checks count i degree seed rounds 0 ∅) () (targets.map (i, ·)) := by
  by_cases hzero : degree = 0
  · have hdone : (∅ : Finset Nat).card = degree := hzero.symm
    exact ⟨[], completes_nil hdone, emits_pickTargets_done hdone 0 (by omega)⟩
  · have hmax : count ≤ count * degree := Nat.le_mul_of_pos_right _ (by omega)
    obtain ⟨k, targets, hk, hcomp, hemits⟩ :=
      pick_from checks seed hp (by omega) hi hdeg (2 ^ 64 - 1) 0 (by omega) (by simp [reached_zero])
    rw [reached_zero] at hcomp hemits
    exact ⟨targets, hcomp, hemits rounds (by omega)⟩

end

/-- Whatever the seed, the loop of each node ends after less than `2 ^ 64`
rounds, so before its attempt counter overflows, and has dialed as many
distinct other nodes as the degree says. -/
theorem pickTargets_ends (peers : Peers) (checks : Bool) (count i degree : Nat) (seed : BitVec 64)
    (hp : peers.Accepting count) (hcount : 2 ≤ count ∧ count ≤ 2 ^ 63) (hi : i < count) (hdeg : degree < count) :
    ∃ (k : Nat) (targets : List Nat), k < 2 ^ 64 ∧
      (∀ rounds, k < rounds →
        (pickTargets peers checks count i degree seed rounds 0 ∅).exec = (.ok (), targets.map (i, ·))) ∧
      targets.length = degree ∧ targets.Nodup ∧ ∀ t ∈ targets, t ≠ i ∧ t < count := by
  obtain ⟨k, targets, hk, hcomp, hemits⟩ :=
    pick_from checks seed hp hcount.2 hi hdeg (2 ^ 64 - 1) 0 (by omega) (by simp [reached_zero])
  rw [reached_zero] at hcomp hemits
  refine ⟨k, targets, by omega, fun rounds hr => (hemits rounds hr).exec, ?_, hcomp.nodup, ?_⟩
  · simpa using hcomp.degree
  · exact fun t ht => (hcomp.others t ht).2

theorem obliging_accepting (count : Nat) : obliging.Accepting count :=
  ⟨fun _ j _ => ⟨.v4 0x7f000001#32 (BitVec.ofNat 16 j), rfl⟩, fun _ _ _ _ => rfl⟩

theorem pickTargets_ends_three :
    ∃ (k : Nat) (targets : List Nat), k < 2 ^ 64 ∧
      (∀ rounds, k < rounds →
        (pickTargets obliging true 3 1 2 7#64 rounds 0 ∅).exec = (.ok (), targets.map (1, ·))) ∧
      targets.length = 2 ∧ targets.Nodup ∧ ∀ t ∈ targets, t ≠ 1 ∧ t < 3 :=
  pickTargets_ends obliging true 3 1 2 7#64 (obliging_accepting 3) (by decide) (by decide) (by decide)

end Pea2Pea.ConnectNodes
