/-
Enumerations by loops over ranges: that nothing is listed twice, when a key
tells the rounds of the loop apart, and how long they are.
-/
import Mathlib.Algebra.BigOperators.Intervals
import Mathlib.Data.List.Nodup

namespace Ranges

/-- A loop lists nothing twice if no round does, and each round's entries
have a key of its own. -/
theorem nodup_flatMap_of_key {ι α κ : Type} {l : List ι} {f : ι → List α} (key : α → κ) (k : ι → κ)
    (hk : ∀ x ∈ l, ∀ y ∈ l, k x = k y → x = y) (hl : l.Nodup) (hf : ∀ x ∈ l, (f x).Nodup)
    (hkey : ∀ x ∈ l, ∀ a ∈ f x, key a = k x) : (l.flatMap f).Nodup := by
  refine List.nodup_flatMap.2 ⟨hf, hl.imp_of_mem fun {x y} hx hy hne a hax hay => hne ?_⟩
  exact hk x hx y hy ((hkey x hx a hax).symm.trans (hkey y hy a hay))

theorem length_flatMap_range' {α : Type} (f : Nat → List α) (n : Nat) :
    ((List.range' 0 n).flatMap f).length = ∑ i ∈ Finset.range n, (f i).length := by
  rw [List.length_flatMap, ← List.range_eq_range']
  induction n with
  | zero => rfl
  | succ n ih => rw [List.range_succ, List.map_append, List.sum_append, ih, Finset.sum_range_succ]; simp

/-- A condition met by the indices below `m` is met `m` times. -/
theorem sum_ite_lt {n m : Nat} {p : Nat → Prop} [DecidablePred p] (hm : m ≤ n) (hp : ∀ i < n, p i ↔ i < m) :
    ∑ i ∈ Finset.range n, (if p i then 1 else 0) = m := by
  have hfilter : (Finset.range n).filter p = Finset.range m := by
    ext i
    simp only [Finset.mem_filter, Finset.mem_range]
    constructor
    · rintro ⟨hi, hpi⟩
      exact (hp i hi).1 hpi
    · intro hi
      exact ⟨by omega, (hp i (by omega)).2 hi⟩
  rw [← Finset.sum_filter, hfilter, ← Finset.card_eq_sum_ones, Finset.card_range]

/-- The pairs of different indices. -/
theorem sum_sub_succ (n : Nat) : (∑ i ∈ Finset.range n, (n - (i + 1))) * 2 = (n - 1) * n := by
  have hreflect : ∑ i ∈ Finset.range n, (n - (i + 1)) = ∑ i ∈ Finset.range n, i := by
    rw [← Finset.sum_range_reflect (fun i => i) n]
    refine Finset.sum_congr rfl fun i _ => ?_
    omega
  rw [hreflect, Finset.sum_range_id_mul_two, Nat.mul_comm]

end Ranges
